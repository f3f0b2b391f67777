import Mathlib.Algebra.Group.Nat.Defs
import Mathlib.Data.List.Basic

/-!
# Texts in parts

Parts put one after another with a separator between them can be told apart again
where the separator is not in them: from the front (`split_first`), from the end
(`split_last`), and by a split into a number of parts (`splitn_front`). The decimal
digits of a whole number, with its sign, are such a part.
-/

namespace Separated

open List Nat

section
variable {A : Type} {c : A} {front rest front' rest' : List A}

theorem split_first (hfrt : c ∉ front) (hfrt' : c ∉ front') (h : front ++ c :: rest = front' ++ c :: rest') :
    front = front' ∧ rest = rest' := by
  induction front generalizing front' with
  | nil =>
    cases front' with
    | nil => exact ⟨rfl, (cons.inj h).2⟩
    | cons => exact absurd (cons.inj h).1 fun hc => hfrt' (hc ▸ mem_cons_self)
  | cons d more ih =>
    cases front' with
    | nil => exact absurd (cons.inj h).1 fun hc => hfrt (hc ▸ mem_cons_self)
    | cons =>
      obtain ⟨hhead, htail⟩ := cons.inj h
      obtain ⟨hmore, hrest⟩ := ih (fun hmem => hfrt (mem_cons_of_mem _ hmem)) (fun hmem => hfrt' (mem_cons_of_mem _ hmem)) htail
      exact ⟨by rw [hhead, hmore], hrest⟩

theorem split_last (hrest : c ∉ rest) (hrest' : c ∉ rest') (h : front ++ c :: rest = front' ++ c :: rest') :
    front = front' ∧ rest = rest' := by
  have hreverse := congrArg reverse h
  rw [reverse_append, reverse_append, reverse_cons, reverse_cons, append_assoc, append_assoc,
    singleton_append, singleton_append] at hreverse
  have hparts := split_first (fun hmem => hrest (mem_reverse.mp hmem)) (fun hmem => hrest' (mem_reverse.mp hmem)) hreverse
  exact ⟨reverse_injective hparts.2, reverse_injective hparts.1⟩

variable [DecidableEq A]

/-- At most `n` parts, the last one being what is left. -/
def splitn : Nat → A → List A → List (List A)
  | 0, _, _ => []
  | 1, _, text => [text]
  | n + 2, c, text =>
    match text.dropWhile (· ≠ c) with
    | [] => [text]
    | _ :: rest => text.takeWhile (· ≠ c) :: splitn (n + 1) c rest

theorem splitn_front {n : Nat} (hfrt : c ∉ front) :
    splitn (n + 2) c (front ++ c :: rest) = front :: splitn (n + 1) c rest := by
  have hall : ∀ a ∈ front, decide (a ≠ c) = true := fun a ha => decide_eq_true fun h => hfrt (h ▸ ha)
  have hdrop : (front ++ c :: rest).dropWhile (fun a => decide (a ≠ c)) = c :: rest := by
    rw [dropWhile_append_of_pos hall, dropWhile_cons_of_neg (by simp)]
  have htake : (front ++ c :: rest).takeWhile (fun a => decide (a ≠ c)) = front := by
    rw [takeWhile_append_of_pos hall, takeWhile_cons_of_neg (by simp), append_nil]
  rw [splitn, hdrop, htake]

end

/-! ## Whole numbers -/

/-- The sign and the digits of a number. -/
def digitsOf (n : Int) : List Char :=
  if n < 0 then '-' :: Nat.toDigits 10 n.natAbs else Nat.toDigits 10 n.natAbs

theorem toList_toString (n : Int) : (toString n).toList = digitsOf n := by
  unfold digitsOf
  cases n with
  | ofNat m =>
    show (Nat.repr m).toList = _
    rw [toList_repr]
    rfl
  | negSucc m =>
    rw [if_pos (Int.negSucc_lt_zero m)]
    show ("-" ++ Nat.repr (m + 1)).toList = _
    rw [String.toList_append, toList_repr]
    rfl

theorem mem_digitsOf {n : Int} {c : Char} (h : c ∈ digitsOf n) : c = '-' ∨ c.isDigit = true := by
  have hdigit : ∀ m : Nat, c ∈ toDigits 10 m → c.isDigit = true :=
    fun _ hc => isDigit_of_mem_toDigits (by decide) (by decide) hc
  unfold digitsOf at h
  split at h
  · rcases mem_cons.mp h with rfl | hc
    · exact .inl rfl
    · exact .inr (hdigit _ hc)
  · exact .inr (hdigit _ h)

def readDigits (text : List Char) : Option Int :=
  let digits := match text with
    | '+' :: rest | '-' :: rest => rest
    | text => text
  let magnitude : Int := Nat.ofDigitChars 10 digits 0
  if !digits.isEmpty && digits.all Char.isDigit then
    some (if text.head? = some '-' then -magnitude else magnitude)
  else none

theorem readDigits_digitsOf (n : Int) : readDigits (digitsOf n) = some n := by
  have hall : (toDigits 10 n.natAbs).all Char.isDigit = true := by
    rw [all_eq_true]
    exact fun c hc => isDigit_of_mem_toDigits (by decide) (by decide) hc
  have hne : (toDigits 10 n.natAbs).isEmpty = false := by
    rw [isEmpty_eq_false_iff]
    exact toDigits_ne_nil
  unfold digitsOf
  split
  · unfold readDigits
    have hself : -(n.natAbs : Int) = n := by omega
    simp only [hall, hne, ofDigitChars_ten_toDigits, head?_cons]
    exact congrArg some hself
  · obtain ⟨c, rest, hcons⟩ := exists_cons_of_ne_nil (toDigits_ne_nil (n := n.natAbs) (b := 10))
    have hdigit : c.isDigit = true := by
      rw [hcons] at hall
      exact (all_eq_true.mp hall) c mem_cons_self
    have hplus : c ≠ '+' := by
      rintro rfl
      exact absurd hdigit (by decide)
    have hminus : c ≠ '-' := by
      rintro rfl
      exact absurd hdigit (by decide)
    have hself : (match c :: rest with
        | '+' :: rest | '-' :: rest => rest
        | text => text) = c :: rest := by
      split
      · rename_i h
        exact absurd (cons.inj h).1 hplus
      · rename_i h
        exact absurd (cons.inj h).1 hminus
      · rfl
    unfold readDigits
    rw [hcons, hself, ← hcons]
    have hself : (n.natAbs : Int) = n := by omega
    have hhead : (c :: rest).head? ≠ some '-' := by simpa using hminus
    simp only [hall, hne, ofDigitChars_ten_toDigits]
    rw [hcons, if_neg hhead]
    exact congrArg some hself

theorem digitsOf_injective {m n : Int} (h : digitsOf m = digitsOf n) : m = n := by
  have hread := congrArg readDigits h
  rw [readDigits_digitsOf, readDigits_digitsOf] at hread
  exact Option.some.inj hread

theorem length_digitsOf_le {n : Int} {k : Nat} (hk : 0 < k) (h : n.natAbs < 10 ^ k) : (digitsOf n).length ≤ k + 1 := by
  have hdigits := (length_toDigits_le_iff (n := n.natAbs) (by decide : 1 < 10) hk).mpr h
  unfold digitsOf
  split
  · rw [length_cons]
    omega
  · omega

/-! ## Texts of one byte a character -/

theorem utf8ByteSize_of_ascii {text : String} (h : ∀ c ∈ text.toList, c.utf8Size = 1) : text.utf8ByteSize = text.toList.length := by
  have hsize : ∀ chars : List Char, (∀ c ∈ chars, c.utf8Size = 1) → (String.ofList chars).utf8ByteSize = chars.length := by
    intro chars hchars
    induction chars with
    | nil => rfl
    | cons c rest ih =>
      rw [String.ofList_cons, String.utf8ByteSize_append, String.utf8ByteSize_singleton,
        ih fun d hd => hchars d (mem_cons_of_mem _ hd), hchars c mem_cons_self, length_cons]
      omega
  have hlist := hsize text.toList h
  rwa [String.ofList_toList] at hlist

end Separated
