/-!
# Programs that ask

A program computes by asking: each operation it asks for has a type of answers, and the
rest of the program is a function of the answer. A machine answers operations and carries
a state; it may also give up. What a program does on a machine follows from what the
machine does on one operation.
-/

namespace MarketLens.Programs

open Option

/-- A computation over the operations `Op`. -/
inductive Program {Op : Type} (Answer : Op → Type) (α : Type) : Type where
  | done (value : α)
  | ask (op : Op) (next : Answer op → Program Answer α)

/-- A machine answers an operation in a state, or gives up. -/
abbrev Machine {Op : Type} (Answer : Op → Type) (σ : Type) : Type :=
  (op : Op) → σ → Option (Answer op × σ)

namespace Program

variable {Op Op' : Type} {Answer : Op → Type} {Answer' : Op' → Type} {α β σ τ : Type}

def bind : Program Answer α → (α → Program Answer β) → Program Answer β
  | done value, f => f value
  | ask op next, f => ask op fun answer => (next answer).bind f

instance : Monad (Program Answer) where
  pure := done
  bind := bind

/-- Ask one operation. -/
def request (op : Op) : Program Answer (Answer op) := ask op done

@[simp] theorem ask_bind (op : Op) (next : Answer op → Program Answer α) (f : α → Program Answer β) :
    ask op next >>= f = ask op fun answer => next answer >>= f := rfl

/-! ## Running -/

def run (machine : Machine Answer σ) : Program Answer α → σ → Option (α × σ)
  | done value, s => some (value, s)
  | ask op next, s => (machine op s).bind fun after => run machine (next after.1) after.2

theorem run_ask (machine : Machine Answer σ) (op : Op) (next : Answer op → Program Answer α) (s : σ) :
    run machine (ask op next) s = (machine op s).bind fun after => run machine (next after.1) after.2 := rfl

theorem run_bind (machine : Machine Answer σ) (program : Program Answer α) (f : α → Program Answer β) (s : σ) :
    run machine (program >>= f) s = (run machine program s).bind fun after => run machine (f after.1) after.2 := by
  induction program generalizing s with
  | done => rfl
  | ask op next ih =>
    rw [ask_bind, run_ask, run_ask, bind_assoc]
    exact congrArg _ (funext fun after => ih after.1 after.2)

@[simp] theorem run_request (machine : Machine Answer σ) (op : Op) (s : σ) : run machine (request op) s = machine op s := by
  show ((machine op s).bind fun after => some after) = machine op s
  cases machine op s <;> rfl

/-! ## What a program can ask -/

/-- Every operation the program can ask, whatever it is answered, satisfies `P`. -/
inductive Asks (P : Op → Prop) : Program Answer α → Prop where
  | done (value : α) : Asks P (done value)
  | ask {op : Op} {next : Answer op → Program Answer α} (allowed : P op)
      (rest : ∀ answer, Asks P (next answer)) : Asks P (ask op next)

variable {P Q : Op → Prop}

theorem Asks.bind {program : Program Answer α} {f : α → Program Answer β} (h : program.Asks P)
    (hf : ∀ value, (f value).Asks P) : (program >>= f).Asks P := by
  induction h with
  | done value => exact hf value
  | ask allowed _ ih => exact .ask allowed ih

/-! ## Two machines -/

/-- Put a program in the place of every operation. -/
def translate (f : (op : Op) → Program Answer' (Answer op)) : Program Answer α → Program Answer' α
  | done value => done value
  | ask op next => f op >>= fun answer => (next answer).translate f

theorem run_translate (machine : Machine Answer' σ) (f : (op : Op) → Program Answer' (Answer op))
    (program : Program Answer α) (s : σ) :
    run machine (program.translate f) s = run (fun op s => run machine (f op) s) program s := by
  induction program generalizing s with
  | done => rfl
  | ask op next ih =>
    rw [translate, run_bind, run_ask]
    exact congrArg _ (funext fun after => ih after.1 after.2)

theorem translate_asks {P' : Op' → Prop} {f : (op : Op) → Program Answer' (Answer op)}
    (hf : ∀ op, (f op).Asks P') (program : Program Answer α) : (program.translate f).Asks P' := by
  induction program with
  | done value => exact .done value
  | ask op next ih => exact (hf op).bind ih

end Program

/-! ## Programs that may fail -/

section Fallible

open Program

variable {Op Op' ε α β : Type} {Answer : Op → Type} {Answer' : Op' → Type} {P : Op → Prop}

/-- Running one piece of code after another that may fail. -/
theorem run_except_bind {σ : Type} (machine : Machine Answer σ) (code : ExceptT ε (Program Answer) α)
    (f : α → ExceptT ε (Program Answer) β) (s : σ) :
    run machine (code >>= f).run s = (run machine code.run s).bind fun after =>
      match after.1 with
      | .ok value => run machine (f value).run after.2
      | .error e => some (.error e, after.2) := by
  refine (run_bind machine code.run _ s).trans (congrArg _ (funext fun after => ?_))
  obtain ⟨result, s'⟩ := after
  cases result <;> rfl

variable {code : ExceptT ε (Program Answer) α}

/-- A run of one piece of code after another ends with the second, or with the error of the first. -/
theorem run_except_bind_some {σ : Type} {machine : Machine Answer σ}
    {f : α → ExceptT ε (Program Answer) β} {s s' : σ} {result : Except ε β}
    (h : run machine (code >>= f).run s = some (result, s')) :
    (∃ value middle, run machine code.run s = some (.ok value, middle) ∧ run machine (f value).run middle = some (result, s')) ∨
    ∃ e, run machine code.run s = some (.error e, s') ∧ result = .error e := by
  rw [run_except_bind, bind_eq_some_iff] at h
  obtain ⟨⟨first, middle⟩, hfs, hrest⟩ := h
  cases first with
  | ok value => exact .inl ⟨value, middle, hfs, hrest⟩
  | error e =>
    cases hrest
    exact .inr ⟨e, hfs, rfl⟩

/-- Every operation the code can ask satisfies `P`. -/
def Asking (P : Op → Prop) (code : ExceptT ε (Program Answer) α) : Prop := Program.Asks P code.run

namespace Asking

theorem pure (value : α) : Asking P (Pure.pure value : ExceptT ε (Program Answer) α) := .done _

theorem throw (e : ε) : Asking P (throw e : ExceptT ε (Program Answer) α) := .done _

theorem bind {f : α → ExceptT ε (Program Answer) β} (h : Asking P code)
    (hf : ∀ value, Asking P (f value)) : Asking P (code >>= f) := by
  refine Asks.bind h fun result => ?_
  cases result with
  | ok value => exact hf value
  | error => exact .done _

theorem lift {op : Op} (h : P op) : Asking P (ExceptT.lift (request op) : ExceptT ε (Program Answer) (Answer op)) :=
  .ask h fun _ => .done _

theorem ofExcept (result : Except ε α) : Asking P (MonadExcept.ofExcept result : ExceptT ε (Program Answer) α) := by
  cases result with
  | ok | error => exact .done _

theorem translate {f : (op : Op) → Program Answer' (Answer op)} {P' : Op' → Prop}
    (hf : ∀ op, (f op).Asks P') : Asking P' (ExceptT.mk (code.run.translate f) : ExceptT ε (Program Answer') α) :=
  translate_asks hf _

end Asking

end Fallible

end MarketLens.Programs
