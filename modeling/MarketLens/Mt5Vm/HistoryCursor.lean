import MarketLens.Mt5Vm.HistoryPages

/-!
# Cursors

A cursor is read back as the place it was written for, because a ticket has no colon,
and only for the account and the window it was signed for, because none of what is
signed after the account has a bar.
-/

namespace MarketLens.Mt5Vm

open List Option Bool Char Fallible Separated

variable {digest : Digest} {accountId accountId' : AccountId} {fromMs toMs fromMs' toMs' : Int} {place : Place}

structure Place.Stored (place : Place) : Prop where
  family : place.family = "orders_history" ∨ place.family = "deals"
  ticket : validTicket place.ticket = true
  time : isI64 place.eventMs = true

/-! ## Characters -/

def isCursorChar (c : Char) : Bool := isAsciiAlphanumeric c || c = '_' || c = '-'

variable {c : Char}

theorem isCursorChar_ascii (h : isCursorChar c = true) : c.utf8Size = 1 := by
  rw [utf8Size_eq_one_iff]
  simp only [isCursorChar, isAsciiAlphanumeric, isAsciiDigit, or_eq_true, and_eq_true, decide_eq_true_eq, le_def] at h
  rcases h with (((⟨-, h⟩ | ⟨-, h⟩) | ⟨-, h⟩) | rfl) | rfl
  · exact UInt32.le_trans h (by decide)
  · exact UInt32.le_trans h (by decide)
  · exact UInt32.le_trans h (by decide)
  · decide
  · decide

theorem not_mem_of_cursorChars {chars : List Char} (h : ∀ d ∈ chars, isCursorChar d = true)
    (hc : isCursorChar c = false) : c ∉ chars := fun hmem => by
  rw [h c hmem] at hc
  cases hc

theorem digitsOf_cursorChars (n : Int) : ∀ c ∈ digitsOf n, isCursorChar c = true := by
  intro c hc
  rcases mem_digitsOf hc with rfl | hdigit
  · decide
  · have hascii : isAsciiDigit c = true := by
      simp only [isDigit, and_eq_true, decide_eq_true_eq] at hdigit
      simp only [isAsciiDigit, and_eq_true, decide_eq_true_eq, le_def]
      exact hdigit
    simp [isCursorChar, isAsciiAlphanumeric, hascii]

theorem hexdigit_cursorChar (h : isAsciiHexdigit c = true) : isCursorChar c = true := by
  simp only [isAsciiHexdigit, or_eq_true, and_eq_true, decide_eq_true_eq] at h
  simp only [isCursorChar, isAsciiAlphanumeric, or_eq_true, and_eq_true, decide_eq_true_eq]
  have hle : ∀ d : Char, d ≤ 'f' → d ≤ 'z' := fun d hd => Char.le_trans hd (by decide)
  have hle' : ∀ d : Char, d ≤ 'F' → d ≤ 'Z' := fun d hd => Char.le_trans hd (by decide)
  rcases h with (h | ⟨hlow, hhigh⟩) | ⟨hlow, hhigh⟩
  · exact .inl (.inl (.inl (.inl h)))
  · exact .inl (.inl (.inl (.inr ⟨hlow, hle _ hhigh⟩)))
  · exact .inl (.inl (.inr ⟨hlow, hle' _ hhigh⟩))

theorem Place.Stored.family_chars (h : place.Stored) : ∀ c ∈ place.family.toList, isCursorChar c = true := by
  have hall : ∀ text, (text = "orders_history" ∨ text = "deals") → text.toList.all isCursorChar = true := by
    rintro text (rfl | rfl) <;> rfl
  exact all_eq_true.mp (hall _ h.family)

theorem Place.Stored.ticket_chars (h : place.Stored) : ∀ c ∈ place.ticket.toList, isCursorChar c = true := by
  have htkt := h.ticket
  simp only [validTicket, Bool.and_eq_true, List.all_eq_true] at htkt
  exact htkt.2

theorem signature_chars : ∀ c ∈ (historyCursorSignature digest accountId fromMs toMs place).toList, isCursorChar c = true :=
  fun c hc => hexdigit_cursorChar (all_eq_true.mp (digest.digits _) c hc)

theorem length_signature : (historyCursorSignature digest accountId fromMs toMs place).toList.length = 64 := digest.length _

theorem utf8ByteSize_of_cursorChars {text : String} (h : ∀ c ∈ text.toList, isCursorChar c = true) :
    text.utf8ByteSize = text.toList.length :=
  utf8ByteSize_of_ascii fun c hc => isCursorChar_ascii (h c hc)

/-! ## Reading a cursor back -/

theorem toList_historyCursor : (historyCursor digest accountId fromMs toMs place).toList =
    place.family.toList ++ ':' :: (digitsOf place.eventMs ++ ':' :: (place.ticket.toList ++ ':' ::
      (historyCursorSignature digest accountId fromMs toMs place).toList)) := by
  unfold historyCursor
  simp only [String.toList_append, toList_toString, append_assoc]
  rfl

theorem splitn_historyCursor (h : place.Stored) :
    splitn 4 ':' (historyCursor digest accountId fromMs toMs place).toList =
      [place.family.toList, digitsOf place.eventMs, place.ticket.toList,
        (historyCursorSignature digest accountId fromMs toMs place).toList] := by
  rw [toList_historyCursor, splitn_front (not_mem_of_cursorChars h.family_chars (by decide)),
    splitn_front (not_mem_of_cursorChars (digitsOf_cursorChars _) (by decide)),
    splitn_front (not_mem_of_cursorChars h.ticket_chars (by decide)), splitn]

/-- A cursor is short enough to be read. -/
theorem historyCursor_size (h : place.Stored) : (historyCursor digest accountId fromMs toMs place).utf8ByteSize ≤ 256 := by
  have hascii : ∀ c ∈ (historyCursor digest accountId fromMs toMs place).toList, c.utf8Size = 1 := by
    intro c hc
    rw [toList_historyCursor] at hc
    simp only [mem_append, mem_cons] at hc
    rcases hc with hc | rfl | hc | rfl | hc | rfl | hc
    · exact isCursorChar_ascii (h.family_chars c hc)
    · decide
    · exact isCursorChar_ascii (digitsOf_cursorChars _ c hc)
    · decide
    · exact isCursorChar_ascii (h.ticket_chars c hc)
    · decide
    · exact isCursorChar_ascii (signature_chars c hc)
  rw [utf8ByteSize_of_ascii hascii, toList_historyCursor]
  simp only [length_append, length_cons, length_signature]
  have hfam : place.family.toList.length ≤ 14 := by
    rcases h.family with h | h <;> rw [h] <;> decide
  have htkt : place.ticket.toList.length ≤ 64 := by
    have htkt := h.ticket
    simp only [validTicket, and_eq_true, decide_eq_true_eq] at htkt
    exact htkt.1.2
  have htime : (digitsOf place.eventMs).length ≤ 19 + 1 := by
    have htime := h.time
    simp only [isI64, and_eq_true, decide_eq_true_eq] at htime
    exact length_digitsOf_le (by decide) (by omega)
  omega

/-- **A cursor is read as its place, or refused**: it depends on the signature alone. -/
theorem decode_historyCursor (h : place.Stored) :
    decodeHistoryCursor digest (some (historyCursor digest accountId fromMs toMs place)) accountId' fromMs' toMs' =
      if historyCursorSignature digest accountId' fromMs' toMs' place = historyCursorSignature digest accountId fromMs toMs place
      then .ok (some place) else .error (invalidSnapshot "history cursor is invalid") := by
  have hsize : (historyCursor digest accountId fromMs toMs place).utf8ByteSize ≤ 256 := historyCursor_size h
  have hsignature : (historyCursorSignature digest accountId fromMs toMs place).utf8ByteSize = 64 := by
    rw [utf8ByteSize_of_cursorChars signature_chars, length_signature]
  have hdigits : (historyCursorSignature digest accountId fromMs toMs place).toList.all isAsciiHexdigit = true := digest.digits _
  have htime : parseI64 (digitsOf place.eventMs) = some place.eventMs := by
    unfold parseI64
    rw [readDigits_digitsOf, filter_some, h.time, if_pos rfl]
  have htkt : place.ticket.isEmpty = false := by
    have htkt := h.ticket
    simp only [validTicket, and_eq_true, decide_eq_true_eq] at htkt
    rw [eq_false_iff]
    intro hemp
    rw [String.isEmpty_iff.mp hemp] at htkt
    exact absurd htkt.1.1 (by decide)
  have hfam : (place.family = "orders_history" || place.family = "deals") = true := by
    rcases h.family with h | h <;> rw [h] <;> decide
  unfold decodeHistoryCursor
  dsimp only
  rw [splitn_historyCursor h]
  simp only [getD_cons_zero, getD_cons_succ, String.ofList_toList, htime]
  rw [hfam, htkt, hdigits, hsignature, decide_eq_false (Nat.not_lt.mpr hsize)]
  -- every check but that of the signature is passed
  show (refuseIf (decide (historyCursorSignature digest accountId' fromMs' toMs' place
      ≠ historyCursorSignature digest accountId fromMs toMs place)) _ >>= fun _ => Except.ok (some place)) = _
  split
  · rename_i hsame
    rw [hsame, decide_eq_false fun hne => hne rfl]
    rfl
  · rename_i hoth
    rw [decide_eq_true hoth]
    rfl

theorem decode_issued (h : place.Stored) :
    decodeHistoryCursor digest (some (historyCursor digest accountId fromMs toMs place)) accountId fromMs toMs
      = .ok (some place) := by
  rw [decode_historyCursor h, if_pos rfl]

/-! ## Another account or window -/

theorem toList_signedText : (signedText accountId fromMs toMs place).toList =
    accountId.toList ++ '|' :: digitsOf fromMs ++ '|' :: digitsOf toMs ++
      '|' :: (place.family.toList ++ '|' :: (digitsOf place.eventMs ++ '|' :: place.ticket.toList)) := by
  unfold signedText
  simp only [String.toList_append, toList_toString, append_assoc, cons_append]
  rfl

theorem signedText_injective (h : signedText accountId' fromMs' toMs' place = signedText accountId fromMs toMs place) :
    accountId' = accountId ∧ fromMs' = fromMs ∧ toMs' = toMs := by
  have hbar : ∀ n, '|' ∉ digitsOf n := fun n => not_mem_of_cursorChars (digitsOf_cursorChars n) (by decide)
  have hchars := congrArg String.toList h
  rw [toList_signedText, toList_signedText] at hchars
  obtain ⟨hfrt, hto⟩ := split_last (hbar _) (hbar _) (append_cancel_right hchars)
  obtain ⟨hacct, hfrom⟩ := split_last (hbar _) (hbar _) hfrt
  exact ⟨String.toList_injective hacct, digitsOf_injective hfrom, digitsOf_injective hto⟩

/-- **A cursor is refused for another account or window**, unless the digest takes the two texts for one. -/
theorem decode_elsewhere (h : place.Stored) (hoth : (accountId', fromMs', toMs') ≠ (accountId, fromMs, toMs))
    (hcollision : digest.hex (signedText accountId' fromMs' toMs' place) = digest.hex (signedText accountId fromMs toMs place) →
      signedText accountId' fromMs' toMs' place = signedText accountId fromMs toMs place) :
    decodeHistoryCursor digest (some (historyCursor digest accountId fromMs toMs place)) accountId' fromMs' toMs'
      = .error (invalidSnapshot "history cursor is invalid") := by
  rw [decode_historyCursor h, if_neg]
  intro hsignature
  obtain ⟨rfl, rfl, rfl⟩ := signedText_injective (hcollision hsignature)
  exact hoth rfl

end MarketLens.Mt5Vm
