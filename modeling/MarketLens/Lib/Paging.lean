import Mathlib.Data.List.Basic

/-!
# Reading a list in pages

An ordered list is read in pages of at most `limit` rows. A page that leaves rows over
names the key of its last row, and the next page has the rows after that key. Because
no two rows have one key, the pages cut the list (`follow_cuts`).
-/

namespace Paging

open List Option

variable {Row K P C : Type}

def after (lt : K → K → Bool) (key : Row → K) (rows : List Row) : Option K → List Row
  | none => rows
  | some k => rows.filter fun row => lt k (key row)

/-- A page, and the key it goes on after. -/
structure Cut (Row K : Type) where
  rows : List Row
  next : Option K

/-- The first `limit` of the rows, and the key of the last of them if there are more. -/
def cut (key : Row → K) (limit : Nat) (rows : List Row) : Cut Row K :=
  ⟨rows.take limit, if limit < rows.length then rows[limit - 1]?.map key else none⟩

/-- Reading one page after another until one names no next. A read may fail, and each is told how
many there were before it. -/
def follow (read : Nat → Option C → Option P) (next : P → Option C) : Nat → Nat → Option C → Option (List P)
  | 0, _, _ => none
  | fuel + 1, n, cursor =>
    (read n cursor).bind fun page =>
      match next page with
      | none => some [page]
      | some cursor => (follow read next fuel (n + 1) (some cursor)).map (page :: ·)

section
variable {lt : K → K → Bool} {key : Row → K} {front rest : List Row}

/-- After the last row of an initial part comes the rest. -/
theorem after_front (hasymm : ∀ a b, lt a b = true → lt b a = false)
    (hsrt : (front ++ rest).Pairwise fun a b => lt (key a) (key b) = true) :
    after lt key (front ++ rest) (front.getLast?.map key) = rest := by
  rcases eq_nil_or_concat front with rfl | ⟨init, last, rfl⟩
  · rfl
  rw [concat_eq_append, getLast?_concat, map_some]
  rw [concat_eq_append, pairwise_append] at hsrt
  obtain ⟨hfrt, -, hacross⟩ := hsrt
  have hirrefl : ∀ a, lt a a = false := by
    intro a
    cases h : lt a a with
    | false => rfl
    | true => exact absurd (hasymm a a h) (by rw [h]; decide)
  show (init ++ [last] ++ rest).filter (fun row => lt (key last) (key row)) = rest
  rw [filter_append]
  have hnone : (init ++ [last]).filter (fun row => lt (key last) (key row)) = [] := by
    rw [filter_eq_nil_iff]
    intro row hrow
    rw [Bool.not_eq_true]
    rcases mem_append.mp hrow with hinit | hlast
    · exact hasymm _ _ ((pairwise_append.mp hfrt).2.2 row hinit last (mem_singleton_self _))
    · rw [mem_singleton.mp hlast]
      exact hirrefl _
  rw [hnone, nil_append, filter_eq_self]
  exact fun row hrow => hacross last (mem_append_right _ (mem_singleton_self _)) row hrow

section
variable (read : Nat → Option C → Option P) (next : P → Option C) (render : Cut Row K → P) (encode : K → C)
  (limit : Nat) (rows : List Row) (hasymm : ∀ a b, lt a b = true → lt b a = false)
  (hsrt : rows.Pairwise fun a b => lt (key a) (key b) = true) (hlimit : 0 < limit)
  (hnext : ∀ part, next (render part) = part.next.map encode)
  (hread : ∀ n position, (∀ k, position = some k → ∃ row ∈ rows, key row = k) →
    read n (position.map encode) = some (render (cut key limit (after lt key rows position))))
include hasymm hsrt hlimit hnext hread

/-- The pages of what is left, as they follow from the cursor they begin at. -/
theorem follow_from :
    ∀ (rest front : List Row), rows = front ++ rest → ∃ cuts : List (Cut Row K), cuts.flatMap Cut.rows = rest ∧
      (∀ part ∈ cuts, part.rows.length ≤ limit) ∧
      (∀ part ∈ cuts.dropLast, part.rows.length = limit) ∧
      (∀ part ∈ cuts, ∀ k, part.next = some k → part.rows.getLast?.map key = some k) ∧
      ∀ fuel n, rest.length < fuel → follow read next fuel n ((front.getLast?.map key).map encode) = some (cuts.map render) := by
  intro rest
  induction hlng : rest.length using Nat.strongRecOn generalizing rest with
  | _ length ih =>
    intro front hrows
    subst hlng
    -- by strong induction on what is left; `front` is what the earlier pages have shown
    have haft : after lt key rows (front.getLast?.map key) = rest := by
      rw [hrows] at hsrt ⊢
      exact after_front hasymm hsrt
    have hkno : ∀ k, front.getLast?.map key = some k → ∃ row ∈ rows, key row = k := by
      intro k hk
      obtain ⟨row, hrow, hkey⟩ := map_eq_some_iff.mp hk
      rw [hrows]
      exact ⟨row, mem_append_left _ (mem_of_getLast? hrow), hkey⟩
    by_cases hmore : limit < rest.length
    · -- A whole page, and the rest of the rest after it.
      have hdrop : (rest.drop limit).length < rest.length := by
        rw [length_drop]
        omega
      obtain ⟨cuts, hflat, hle, hfull, hkeys, hfollow⟩ := ih _ hdrop (rest.drop limit) rfl (front ++ rest.take limit)
        (by rw [append_assoc, take_append_drop, hrows])
      have hlast : (rest.take limit).getLast? = rest[limit - 1]? := by
        have hsome : rest[limit - 1]? = some rest[limit - 1] := getElem?_eq_getElem (by omega)
        rw [getLast?_take, if_neg (by omega), hsome]
        rfl
      have hcut : cut key limit rest = ⟨rest.take limit, (rest.take limit).getLast?.map key⟩ := by
        unfold cut
        rw [if_pos hmore, hlast]
      have hne : cuts ≠ [] := by
        rintro rfl
        rw [flatMap_nil] at hflat
        have := congrArg length hflat
        rw [length_drop, length_nil] at this
        omega
      refine ⟨cut key limit rest :: cuts, ?_, ?_, ?_, ?_, ?_⟩
      · rw [flatMap_cons, hflat, hcut]
        exact take_append_drop limit rest
      · intro part hpart
        rcases mem_cons.mp hpart with rfl | hpart
        · exact length_take_le _ _
        · exact hle part hpart
      · rw [dropLast_cons_of_ne_nil hne]
        intro part hpart
        rcases mem_cons.mp hpart with rfl | hpart
        · exact length_take_of_le (by omega)
        · exact hfull part hpart
      · intro part hpart k hk
        rcases mem_cons.mp hpart with rfl | hpart
        · rw [hcut] at hk ⊢
          exact hk
        · exact hkeys part hpart k hk
      · intro fuel n hfuel
        cases fuel with
        | zero => omega
        | succ fuel =>
          have hsome : ∃ last, (rest.take limit).getLast? = some last := by
            rw [hlast]
            exact ⟨_, getElem?_eq_getElem (by omega)⟩
          obtain ⟨last, hlastRow⟩ := hsome
          have hbegin : ((front ++ rest.take limit).getLast?.map key).map encode = some (encode (key last)) := by
            rw [getLast?_append, hlastRow]
            rfl
          have hfollow := hfollow fuel (n + 1) (by omega)
          rw [hbegin] at hfollow
          rw [follow, hread n _ hkno, haft, bind_some, hnext, hcut, hlastRow]
          show (follow read next fuel (n + 1) (some (encode (key last)))).map _ = _
          rw [hfollow]
          rfl
    · have hcut : cut key limit rest = ⟨rest, none⟩ := by
        unfold cut
        rw [if_neg hmore, take_of_length_le (by omega)]
      refine ⟨[cut key limit rest], ?_, ?_, ?_, ?_, ?_⟩
      · rw [flatMap_singleton, hcut]
      · intro part hpart
        rw [mem_singleton.mp hpart, hcut]
        exact Nat.le_of_not_lt hmore
      · exact forall_mem_nil _
      · intro part hpart k hk
        rw [mem_singleton.mp hpart, hcut] at hk
        cases hk
      · intro fuel n hfuel
        cases fuel with
        | zero => omega
        | succ =>
          rw [follow, hread n _ hkno, haft, bind_some, hnext, hcut]
          rfl

/-- **The pages cut the list**: read from the front, each but the last is full, and each goes on
after its last row. -/
theorem follow_cuts :
    ∃ cuts : List (Cut Row K), cuts.flatMap Cut.rows = rows ∧ (∀ part ∈ cuts, part.rows.length ≤ limit) ∧
      (∀ part ∈ cuts.dropLast, part.rows.length = limit) ∧
      (∀ part ∈ cuts, ∀ k, part.next = some k → part.rows.getLast?.map key = some k) ∧
      ∀ fuel n, rows.length < fuel → follow read next fuel n none = some (cuts.map render) :=
  follow_from read next render encode limit rows hasymm hsrt hlimit hnext hread rows [] rfl

end

end

end Paging
