/-!
# Association lists

A list of entries is a table: a key stands for the first entry that has it. Keys are compared
by a test that need not be an equivalence; what a table asks of it is asked of the keys in use
only.
-/

namespace Assoc

open List

variable {K V : Type} (same : K → K → Bool)

section
variable (entries : List (K × V))

/-- The value a key stands for. -/
def find (key : K) : Option V :=
  (entries.find? fun entry => same entry.1 key).map Prod.snd

def place (key : K) : Option Nat := entries.findIdx? fun entry => same entry.1 key

/-- The entry at a place gets the value; without a place there is a new entry at the end. -/
def putAt (found : Option Nat) (key : K) (value : V) : List (K × V) :=
  match found with
  | none => entries ++ [(key, value)]
  | some k =>
    match entries[k]? with
    | some entry => entries.set k (entry.1, value)
    | none => entries

def insert (key : K) (value : V) : List (K × V) :=
  putAt entries (place same entries key) key value

def remove (key : K) : List (K × V) :=
  match place same entries key with
  | none => entries
  | some k => entries.eraseIdx k

end

/-- On the keys in use the test is an equivalence. -/
structure Proper (used : K → Prop) : Prop where
  refl : ∀ a, used a → same a a = true
  symm : ∀ a b, used a → used b → same a b = true → same b a = true
  trans : ∀ a b c, used a → used b → used c → same a b = true → same b c = true → same a c = true

/-- The keys are in use, and no two entries have the same. -/
structure Distinct (used : K → Prop) (entries : List (K × V)) : Prop where
  used : ∀ entry ∈ entries, used entry.1
  apart : entries.Pairwise fun a b => ¬ same a.1 b.1 = true

/-! ## One entry after the other -/

section Cons

variable (entry : K × V) (entries : List (K × V)) (key : K) (value : V)

theorem find_eq_place : find same entries key = ((place same entries key).bind fun k => entries[k]?).map Prod.snd := by
  unfold find place
  rw [find?_eq_bind_findIdx?_getElem?]

theorem find_cons : find same (entry :: entries) key = if same entry.1 key then some entry.2 else find same entries key := by
  unfold find
  rw [find?_cons]
  cases same entry.1 key <;> rfl

theorem place_cons : place same (entry :: entries) key =
      if same entry.1 key then some 0 else (place same entries key).map (· + 1) := findIdx?_cons

theorem insert_nil : insert same [] key value = [(key, value)] := rfl

theorem insert_cons : insert same (entry :: entries) key value =
      if same entry.1 key then (entry.1, value) :: entries else entry :: insert same entries key value := by
  unfold insert
  rw [place_cons]
  split
  · rfl
  cases hpl : place same entries key with
  | none => rfl
  | some k =>
    show (match entries[k]? with
      | some found => entry :: entries.set k (found.1, value)
      | none => entry :: entries) = _
    unfold putAt
    dsimp only
    cases entries[k]? <;> rfl

theorem remove_cons : remove same (entry :: entries) key =
      if same entry.1 key then entries else entry :: remove same entries key := by
  unfold remove
  rw [place_cons]
  by_cases hsame : same entry.1 key = true
  · rw [if_pos hsame, if_pos hsame]
    rfl
  · rw [if_neg hsame, if_neg hsame]
    cases place same entries key <;> rfl

end Cons

/-! ## What the operations do to a table -/

section Table

variable {same} {used : K → Prop} {entries : List (K × V)} {key other : K} {value : V}

theorem find_isSome : (find same entries key).isSome = entries.any fun entry => same entry.1 key := by
  induction entries with
  | nil => rfl
  | cons entry entries ih =>
    rw [find_cons, any_cons]
    cases same entry.1 key
    · exact ih
    · rfl

theorem find_eq_none : find same entries key = none ↔ ∀ entry ∈ entries, ¬ same entry.1 key = true := by
  rw [← Option.isNone_iff_eq_none, ← Option.not_isSome, Bool.not_eq_true', find_isSome, any_eq_false]

theorem mem_insert {entry : K × V} (h : entry ∈ insert same entries key value) :
    entry.1 = key ∨ ∃ before ∈ entries, before.1 = entry.1 := by
  induction entries with
  | nil =>
    rw [insert_nil, mem_singleton] at h
    exact .inl (congrArg Prod.fst h)
  | cons head entries ih =>
    rw [insert_cons] at h
    split at h
    · rcases mem_cons.mp h with rfl | hmem
      · exact .inr ⟨head, mem_cons_self, rfl⟩
      · exact .inr ⟨entry, mem_cons_of_mem _ hmem, rfl⟩
    · rcases mem_cons.mp h with rfl | hmem
      · exact .inr ⟨entry, mem_cons_self, rfl⟩
      · rcases ih hmem with hkey | ⟨before, hbef, hsame⟩
        · exact .inl hkey
        · exact .inr ⟨before, mem_cons_of_mem _ hbef, hsame⟩

theorem remove_sublist : (remove same entries key).Sublist entries := by
  unfold remove
  split
  · exact .refl _
  · exact eraseIdx_sublist ..

theorem Proper.congr (hprop : Proper same used) {first second : K} (hfs : used first) (hsec : used second)
    (hoth : used other) (h : same first second = true) : same first other = same second other := by
  rw [Bool.eq_iff_iff]
  exact ⟨hprop.trans _ _ _ hsec hfs hoth (hprop.symm _ _ hfs hsec h), hprop.trans _ _ _ hfs hsec hoth h⟩

/-- An entry that stands for another key may be asked before it or after it. -/
theorem Proper.swap {A : Type} {first : K} {own given rest : A} (hprop : Proper same used) (hfs : used first) (hkey : used key)
    (hoth : used other) (hsame : ¬ same first key = true) :
    (if same first other then own else if same key other then given else rest) =
      if same key other then given else if same first other then own else rest := by
  by_cases hthi : same first other = true
  · have hnot : ¬ same key other = true := fun h =>
      hsame (hprop.trans _ _ _ hfs hoth hkey hthi (hprop.symm _ _ hkey hoth h))
    rw [if_pos hthi, if_neg hnot, if_pos hthi]
  · rw [if_neg hthi, if_neg hthi]

/-- **A key that is inserted stands for its value**, and the others stand for what they stood for. -/
theorem find_insert (hprop : Proper same used) (hused : ∀ entry ∈ entries, used entry.1) (hkey : used key) (hoth : used other) :
    find same (insert same entries key value) other =
      if same key other then some value else find same entries other := by
  induction entries with
  | nil => rw [insert_nil, find_cons]
  | cons entry entries ih =>
    have hent := hused entry mem_cons_self
    have hrest := ih fun entry hmem => hused entry (mem_cons_of_mem _ hmem)
    rw [insert_cons, find_cons _ _ entries]
    by_cases hsame : same entry.1 key = true
    · rw [if_pos hsame, find_cons]
      rw [hprop.congr hent hkey hoth hsame]
      by_cases hthi : same key other = true
      · rw [if_pos hthi, if_pos hthi]
      · rw [if_neg hthi, if_neg hthi, if_neg hthi]
    · rw [if_neg hsame, find_cons, hrest, hprop.swap hent hkey hoth hsame]

/-- **A key that is removed stands for nothing**, and the others stand for what they stood for. -/
theorem find_remove (hprop : Proper same used) (hdist : Distinct same used entries) (hkey : used key) (hoth : used other) :
    find same (remove same entries key) other = if same key other then none else find same entries other := by
  induction entries with
  | nil =>
    split <;> rfl
  | cons entry entries ih =>
    have hent := hdist.used entry mem_cons_self
    obtain ⟨hapa, hrest⟩ := pairwise_cons.mp hdist.apart
    have hused := fun entry hmem => hdist.used entry (mem_cons_of_mem _ hmem)
    rw [remove_cons, find_cons _ _ entries]
    by_cases hsame : same entry.1 key = true
    · rw [if_pos hsame]
      by_cases hthi : same key other = true
      · rw [if_pos hthi, find_eq_none]
        intro later hmem hlat
        have hthru := hprop.trans _ _ _ hent hkey hoth hsame hthi
        exact hapa later hmem (hprop.trans _ _ _ hent hoth (hused later hmem) hthru (hprop.symm _ _ (hused later hmem) hoth hlat))
      · rw [hprop.congr hent hkey hoth hsame, if_neg hthi, if_neg hthi]
    · rw [if_neg hsame, find_cons, ih ⟨hused, hrest⟩, hprop.swap hent hkey hoth hsame]

theorem Distinct.insert (hdist : Distinct same used entries) (hkey : used key) :
    Distinct same used (insert same entries key value) := by
  have hused : ∀ entry ∈ Assoc.insert same entries key value, used entry.1 := by
    intro entry hmem
    rcases mem_insert hmem with hsame | ⟨before, hbef, hsame⟩
    · rw [hsame]
      exact hkey
    · rw [← hsame]
      exact hdist.used before hbef
  refine ⟨hused, ?_⟩
  clear hused
  induction entries with
  | nil => exact pairwise_singleton _ _
  | cons entry entries ih =>
    obtain ⟨hapa, hrest⟩ := pairwise_cons.mp hdist.apart
    have htail : Distinct same used entries := ⟨fun entry hmem => hdist.used entry (mem_cons_of_mem _ hmem), hrest⟩
    rw [insert_cons]
    split
    · exact pairwise_cons.mpr ⟨hapa, hrest⟩
    · rename_i hsame
      refine pairwise_cons.mpr ⟨fun later hmem => ?_, ih htail⟩
      rcases mem_insert hmem with hlat | ⟨before, hbef, hlat⟩
      · rw [hlat]
        exact hsame
      · rw [← hlat]
        exact hapa before hbef

theorem Distinct.remove (hdist : Distinct same used entries) : Distinct same used (remove same entries key) :=
  ⟨fun entry hmem => hdist.used entry (remove_sublist.subset hmem), hdist.apart.sublist remove_sublist⟩

theorem Distinct.nil : Distinct same used ([] : List (K × V)) := ⟨forall_mem_nil _, .nil⟩

end Table

end Assoc
