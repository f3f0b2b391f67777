import Mathlib.Data.List.Forall2
import MarketLens.Lib.Fallible

/-!
# Journaled loops

A loop over a list whose body changes a state, may fail, and writes entries to a
journal. The journal of a loop is the concatenation of its rounds, and what every
round keeps, the loop keeps: either about the state alone, or about a state
together with what has been written.
-/

namespace Journal

open List

variable {S A D ε : Type}

/-- Run `round` over the items in turn, carrying the state and collecting the entries. -/
def collect (round : S → A → Except ε (List D × S)) : S → List A → Except ε (List D × S)
  | s, [] => .ok ([], s)
  | s, a :: rest => do
    let (entries, s') ← round s a
    let (more, final) ← collect round s' rest
    return (entries ++ more, final)

variable {round : S → A → Except ε (List D × S)} {s final : S} {entries : List D} {items : List A}

theorem collect_cons_ok {a : A} {rest : List A} (h : collect round s (a :: rest) = .ok (entries, final)) :
    ∃ first mid more, round s a = .ok (first, mid) ∧ collect round mid rest = .ok (more, final) ∧ entries = first ++ more := by
  rw [collect, Fallible.bind_ok] at h
  obtain ⟨⟨first, mid⟩, hfs, h⟩ := h
  obtain ⟨⟨more, last⟩, hmore, h⟩ := Fallible.bind_ok.mp h
  cases h
  exact ⟨first, mid, more, hfs, hmore, rfl⟩

theorem collect_cons {a : A} {rest : List A} {mid : S} {more : List D} (hfs : round s a = .ok (entries, mid))
    (hmore : collect round mid rest = .ok (more, final)) : collect round s (a :: rest) = .ok (entries ++ more, final) := by
  rw [collect, hfs]
  simp only [bind, Except.bind, hmore]
  rfl

theorem collect_last_ok {front : List A} {last : A} (h : collect round s (front ++ [last]) = .ok (entries, final)) :
    ∃ mid more, round mid last = .ok (more, final) := by
  induction front generalizing s entries with
  | nil =>
    obtain ⟨first, mid, more, hfs, hmore, -⟩ := collect_cons_ok h
    cases hmore
    exact ⟨s, first, hfs⟩
  | cons a rest ih =>
    obtain ⟨first, mid, more, -, hmore, -⟩ := collect_cons_ok h
    exact ih hmore

/-- **What every round keeps of the state, the loop keeps.** -/
theorem collect_invariant (Inv : S → Prop) (hrnd : ∀ s a entries s', a ∈ items → Inv s → round s a = .ok (entries, s') → Inv s')
    (hs : Inv s) (h : collect round s items = .ok (entries, final)) : Inv final := by
  induction items generalizing s entries with
  | nil =>
    cases h
    exact hs
  | cons a rest ih =>
    obtain ⟨first, mid, more, hfs, hmore, -⟩ := collect_cons_ok h
    have hmid := hrnd s a first mid mem_cons_self hs hfs
    exact ih (fun s a entries s' ha => hrnd s a entries s' (mem_cons_of_mem _ ha)) hmid hmore

/--
**A reflexive and transitive change relation of the rounds is one of the loop.**

`Change s entries s'` may speak of what the round wrote.
-/
theorem collect_change (Change : S → List D → S → Prop) (hrefl : ∀ s, Change s [] s)
    (htrans : ∀ s d s' d' s'', Change s d s' → Change s' d' s'' → Change s (d ++ d') s'')
    (hrnd : ∀ s a entries s', a ∈ items → round s a = .ok (entries, s') → Change s entries s')
    (h : collect round s items = .ok (entries, final)) : Change s entries final := by
  induction items generalizing s entries with
  | nil =>
    cases h
    exact hrefl _
  | cons a rest ih =>
    obtain ⟨first, mid, more, hfs, hmore, rfl⟩ := collect_cons_ok h
    have hstep := hrnd s a first mid mem_cons_self hfs
    exact htrans _ _ _ _ _ hstep (ih (fun s a entries s' ha => hrnd s a entries s' (mem_cons_of_mem _ ha)) hmore)

/-- Every entry on the right of a relation between lists stands against one on the left. -/
theorem forall₂_mem_right {P : A → D → Prop} {entry : D} (h : List.Forall₂ P items entries)
    (hmem : entry ∈ entries) : ∃ item ∈ items, P item entry := by
  induction h with
  | nil => cases hmem
  | cons hfs _ ih =>
    rcases mem_cons.mp hmem with rfl | hmem
    · exact ⟨_, mem_cons_self, hfs⟩
    · obtain ⟨item, hitem, hP⟩ := ih hmem
      exact ⟨item, mem_cons_of_mem _ hitem, hP⟩

theorem collect_forall₂ (P : A → D → Prop)
    (hrnd : ∀ s a entries s', a ∈ items → round s a = .ok (entries, s') →
      ∃ entry, entries = [entry] ∧ P a entry)
    (h : collect round s items = .ok (entries, final)) : List.Forall₂ P items entries := by
  induction items generalizing s entries with
  | nil =>
    cases h
    exact .nil
  | cons a rest ih =>
    obtain ⟨first, mid, more, hfs, hmore, rfl⟩ := collect_cons_ok h
    obtain ⟨entry, rfl, hent⟩ := hrnd s a first mid mem_cons_self hfs
    have hrest := ih (fun s a entries s' ha => hrnd s a entries s' (mem_cons_of_mem _ ha)) hmore
    exact .cons hent hrest

/--
**A loop that writes nothing has gone through quiet rounds only.**

A round writes nothing exactly when its item is quiet, and then only takes `next`. What
is quiet stays so under `next`, so it can be read off the state the loop starts from.
-/
theorem collect_silent (silent : List D → Prop) (quiet : S → A → Prop) (next : S → A → S)
    (hnil : silent []) (happend : ∀ d d', silent (d ++ d') ↔ silent d ∧ silent d')
    (hkeeps : ∀ s a b, quiet (next s a) b ↔ quiet s b)
    (hrnd : ∀ s a entries s', a ∈ items → round s a = .ok (entries, s') →
      (silent entries ↔ quiet s a) ∧ (silent entries → s' = next s a))
    (h : collect round s items = .ok (entries, final)) :
    (silent entries ↔ ∀ a ∈ items, quiet s a) ∧ (silent entries → final = items.foldl next s) := by
  induction items generalizing s entries with
  | nil =>
    cases h
    exact ⟨iff_of_true hnil nofun, fun _ => rfl⟩
  | cons a rest ih =>
    obtain ⟨first, mid, more, hfs, hmore, rfl⟩ := collect_cons_ok h
    obtain ⟨hquiet, hnext⟩ := hrnd s a first mid mem_cons_self hfs
    obtain ⟨hrest, hfinal⟩ :=
      ih (fun s a entries s' ha => hrnd s a entries s' (mem_cons_of_mem _ ha)) hmore
    rw [happend, forall_mem_cons, foldl_cons, ← hquiet]
    refine ⟨and_congr_right fun hsilent => ?_, fun ⟨hsilent, hsilent'⟩ => ?_⟩
    · rw [hrest, hnext hsilent]
      exact forall₂_congr fun b _ => hkeeps s a b
    · rw [← hnext hsilent]
      exact hfinal hsilent'

end Journal
