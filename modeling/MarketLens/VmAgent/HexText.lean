import Mathlib.Data.List.Forall2
import Mathlib.Data.String.Basic
import MarketLens.VmAgent.Channel

/-!
# Texts that are read as hex digits

The seal of a frame and a key come as texts, from whoever writes them, and are
read two bytes at a time. A number of two characters may begin with a plus sign,
and a cut may fall inside a character; so a text may stand for the bytes another
one stands for, and a text may stop the reader for good. What follows says of
which texts that is.
-/

namespace MarketLens.VmAgent

open List Option String FrameVerifier Attempts JsonText Fallible

/-- `IpcKey::from_hex`. -/
def IpcKey.fromHex (value : String) : Except Fault IpcKey :=
  if value.utf8ByteSize ≠ ipcKeyBytes * 2 then .error (.protocol .invalidKey)
  else
    match hexPairs value.toList with
    | .decoded bytes => (IpcKey.fromBytes bytes).mapError .protocol
    | .malformed => .error (.protocol .invalidKey)
    | .panics => .error .panic

/-! ## Where a cut falls -/

/-- Characters written one pair after another. -/
def spelled (pairs : List (Char × Char)) : List Char := pairs.flatMap fun pair => [pair.1, pair.2]

/-- The next cut of a text falls inside a character. -/
def CutsNext (rest : List Char) : Prop :=
  (∃ a b more, rest = a :: b :: more ∧ a.utf8Size = 1 ∧ 1 < b.utf8Size) ∨ ∃ a more, rest = a :: more ∧ 2 < a.utf8Size

/-- After pairs that are numbers, a cut of the text falls inside a character. -/
def CutsCharacter (chars : List Char) : Prop :=
  ∃ pairs rest, chars = spelled pairs ++ rest ∧ (∀ pair ∈ pairs, (hexPair pair.1 pair.2).isSome = true) ∧ CutsNext rest

variable {chars rest : List Char} {a b : Char} {byte : UInt8} {bytes : List UInt8} {value : String}

theorem utf8Size_of_hexValue {c : Char} {n : Nat} (h : hexValue c = some n) : c.utf8Size = 1 := by
  have hsmall : c.toNat < 128 := by
    unfold hexValue at h
    simp only [Char.le_def, UInt32.le_iff_toNat_le] at h
    have h9 : ('9' : Char).val.toNat = 57 := by decide
    have hf : ('f' : Char).val.toNat = 102 := by decide
    have hF : ('F' : Char).val.toNat = 70 := by decide
    show c.val.toNat < 128
    split at h
    · omega
    · split at h
      · omega
      · split at h
        · omega
        · cases h
  unfold Char.utf8Size
  rw [if_pos]
  rw [UInt32.le_iff_toNat_le]
  show c.val.toNat ≤ 127
  have : c.val.toNat < 128 := hsmall
  omega

/-- A number is spelled by characters of one byte: a digit or the sign, and a digit. -/
theorem hexPair_some (h : hexPair a b = some byte) :
    a.utf8Size = 1 ∧ b.utf8Size = 1 ∧ (a = '+' ∨ (hexValue a).isSome = true) ∧ (hexValue b).isSome = true := by
  unfold hexPair at h
  split at h
  · rename_i hplus
    obtain ⟨low, hlow, -⟩ := map_eq_some_iff.mp h
    subst hplus
    exact ⟨by decide, utf8Size_of_hexValue hlow, .inl rfl, by rw [hlow]; rfl⟩
  · cases hhigh : hexValue a with
    | none =>
      rw [hhigh] at h
      cases h
    | some =>
      cases hlow : hexValue b with
      | none =>
        rw [hhigh, hlow] at h
        cases h
      | some => exact ⟨utf8Size_of_hexValue hhigh, utf8Size_of_hexValue hlow, .inr rfl, rfl⟩

/-- A byte in front of what has been read. -/
def HexBytes.after (byte : UInt8) : HexBytes → HexBytes
  | .decoded bytes => .decoded (byte :: bytes)
  | other => other

theorem hexPairs_number (h : hexPair a b = some byte) : hexPairs (a :: b :: rest) = (hexPairs rest).after byte := by
  obtain ⟨ha, hb, -, -⟩ := hexPair_some h
  conv_lhs => unfold hexPairs
  rw [if_pos ha, if_pos hb, h]
  rfl

theorem after_panics {read : HexBytes} : read.after byte = .panics ↔ read = .panics := by
  cases read <;> simp [HexBytes.after]

theorem after_decoded {read : HexBytes} : read.after byte = .decoded bytes ↔ ∃ more, read = .decoded more ∧ bytes = byte :: more := by
  cases read <;> simp [HexBytes.after, eq_comm]

theorem cutsCharacter_cons :
    CutsCharacter (a :: b :: rest) ↔ CutsNext (a :: b :: rest) ∨ (hexPair a b).isSome = true ∧ CutsCharacter rest := by
  constructor
  · rintro ⟨pairs, tail, hchars, hnumbers, hcuts⟩
    cases pairs with
    | nil =>
      left
      rw [hchars]
      exact hcuts
    | cons pair pairs =>
      obtain ⟨hnum, hnumbers⟩ := forall_mem_cons.mp hnumbers
      have hchars : a :: b :: rest = pair.1 :: pair.2 :: (spelled pairs ++ tail) := hchars
      injection hchars with ha hchars
      injection hchars with hb hrest
      right
      rw [ha, hb]
      exact ⟨hnum, pairs, tail, hrest, hnumbers, hcuts⟩
  · rintro (hcuts | ⟨hnum, pairs, tail, rfl, hnumbers, hcuts⟩)
    · exact ⟨[], _, rfl, nofun, hcuts⟩
    · exact ⟨(a, b) :: pairs, tail, rfl, forall_mem_cons.mpr ⟨hnum, hnumbers⟩, hcuts⟩

theorem not_cutsNext_number (h : hexPair a b = some byte) : ¬ CutsNext (a :: b :: rest) := by
  obtain ⟨ha, hb, -, -⟩ := hexPair_some h
  rintro (⟨_, _, _, hchars, -, hlong⟩ | ⟨_, _, hchars, hlong⟩)
  · cases hchars
    omega
  · cases hchars
    omega

/-- **The reader stops for good exactly where a cut falls inside a character.** -/
theorem hexPairs_panics_iff : ∀ chars : List Char, String.utf8Len chars % 2 = 0 → (hexPairs chars = .panics ↔ CutsCharacter chars)
  | [], _ => by
    refine iff_of_false (by simp [hexPairs]) ?_
    rintro ⟨pairs, rest, hchars, -, hcuts⟩
    have hrest := (append_eq_nil_iff.mp hchars.symm).2
    subst hrest
    rcases hcuts with ⟨_, _, _, hnil, -⟩ | ⟨_, _, hnil, -⟩ <;> cases hnil
  | [a], heven => by
    have heven : a.utf8Size % 2 = 0 := by simpa using heven
    have hpos := a.utf8Size_pos
    have hcuts : CutsCharacter [a] ↔ 2 < a.utf8Size := by
      constructor
      · rintro ⟨pairs, rest, hchars, -, hcuts⟩
        cases pairs with
        | nil =>
          have hchars : [a] = rest := hchars
          subst hchars
          rcases hcuts with ⟨_, _, _, hone, -⟩ | ⟨_, _, hone, hlong⟩
          · cases hone
          · cases hone
            exact hlong
        | cons =>
          have hlng := congrArg List.length hchars
          simp [spelled] at hlng
      · intro hlong
        exact ⟨[], [a], rfl, nofun, .inr ⟨a, [], rfl, hlong⟩⟩
    rw [hcuts]
    unfold hexPairs
    split
    · exact iff_of_false (by simp) (by omega)
    · exact iff_of_true rfl (by omega)
  | a :: b :: rest, heven => by
    rw [cutsCharacter_cons]
    have heven : (utf8Len rest + b.utf8Size + a.utf8Size) % 2 = 0 := heven
    cases hpair : hexPair a b with
    | some =>
      obtain ⟨ha, hb, -, -⟩ := hexPair_some hpair
      have hrest := hexPairs_panics_iff rest (by omega)
      rw [hexPairs_number hpair, after_panics, hrest]
      simp [not_cutsNext_number hpair]
    | none =>
      have ha := a.utf8Size_pos
      have hb := b.utf8Size_pos
      have hcuts : CutsNext (a :: b :: rest) ↔ a.utf8Size = 1 ∧ 1 < b.utf8Size ∨ 2 < a.utf8Size := by
        unfold CutsNext
        constructor
        · rintro (⟨_, _, _, hchars, hshort, hlong⟩ | ⟨_, _, hchars, hlong⟩)
          · cases hchars
            exact .inl ⟨hshort, hlong⟩
          · cases hchars
            exact .inr hlong
        · rintro (⟨hshort, hlong⟩ | hlong)
          · exact .inl ⟨a, b, rest, rfl, hshort, hlong⟩
          · exact .inr ⟨a, b :: rest, rfl, hlong⟩
      unfold hexPairs
      rw [hpair, hcuts]
      split
      · split
        · exact iff_of_false (by simp) (by simp; omega)
        · exact iff_of_true rfl (.inl (.inl ⟨by omega, by omega⟩))
      · split
        · exact iff_of_false (by simp) (by simp; omega)
        · exact iff_of_true rfl (.inl (.inr (by omega)))

theorem utf8ByteSize_toList (value : String) : value.utf8ByteSize = String.utf8Len value.toList := by
  have h := utf8ByteSize_ofList value.toList
  rwa [ofList_toList] at h

theorem decodeHex_panics_iff : decodeHex value = .panics ↔ value.utf8ByteSize % 2 = 0 ∧ CutsCharacter value.toList := by
  unfold decodeHex
  split
  · rename_i heven
    rw [hexPairs_panics_iff _ (utf8ByteSize_toList value ▸ heven)]
    exact ⟨fun h => ⟨heven, h⟩, fun h => h.2⟩
  · rename_i hodd
    exact iff_of_false (by simp) fun h => hodd h.1

/-! ## Keys and frames -/

theorem fromHex_panics_iff :
    IpcKey.fromHex value = .error .panic ↔ value.utf8ByteSize = ipcKeyBytes * 2 ∧ CutsCharacter value.toList := by
  unfold IpcKey.fromHex
  by_cases hsize : value.utf8ByteSize = ipcKeyBytes * 2
  · have heven : utf8Len value.toList % 2 = 0 := by
      rw [← utf8ByteSize_toList, hsize]
      decide
    rw [if_neg (not_not_intro hsize), ← hexPairs_panics_iff _ heven]
    cases hread : hexPairs value.toList with
    | decoded =>
      refine iff_of_false ?_ (by simp)
      unfold IpcKey.fromBytes
      dsimp only
      split <;> simp [Except.mapError]
    | malformed => exact iff_of_false (by simp) (by simp)
    | panics => exact iff_of_true rfl ⟨hsize, rfl⟩
  · rw [if_pos hsize]
    exact iff_of_false (by simp) fun h => hsize h.1

/-- The frame passes what is checked before its seal. -/
structure ReachesSeal (frame : AuthenticatedFrame) (expectedAccountId : String) (expectedLeaseGeneration nowMs : UInt64)
    (verifier : FrameVerifier) : Prop where
  protocol : frame.protocolVersion = agentProtocolVersion
  worker : frame.workerId = verifier.workerId
  account : frame.accountId = expectedAccountId
  safe : isSafeIdentifier frame.accountId = true
  leased : expectedLeaseGeneration ≠ 0
  lease : frame.leaseGeneration = expectedLeaseGeneration
  unexpired : ¬ frame.expiresAtMs < nowMs
  sent : ¬ saturatingAdd nowMs maxFutureSkewMs < frame.sentAtMs
  ordered : ¬ frame.expiresAtMs < frame.sentAtMs
  brief : ¬ maxFrameTtlMs < saturatingSub frame.expiresAtMs frame.sentAtMs
  further : verifier.lastOf expectedAccountId < frame.sequence

section Verify

variable {T : Type} {hmac : Hmac} {decode : String → Option T} {frame : AuthenticatedFrame} {expectedAccountId : String}
  {expectedLeaseGeneration nowMs : UInt64} {verifier : FrameVerifier}

theorem checkSeal_panics_iff {key : IpcKey} :
    FrameVerifier.checkSeal hmac key frame = .error .panic ↔ decodeHex frame.macHex = .panics := by
  unfold checkSeal sealBytes
  cases hread : decodeHex frame.macHex with
  | decoded mac =>
    refine iff_of_false ?_ (by simp)
    cases frameSigningBytes frame with
    | error =>
      intro h
      cases h
    | ok bytes =>
      intro h
      have h : refuseIf (decide (mac ≠ hmac key.bytes bytes)) (Fault.protocol .authenticationFailed) = .error .panic := h
      unfold refuseIf at h
      split at h <;> cases h
  | malformed => exact iff_of_false nofun (by simp)
  | panics => exact iff_of_true rfl rfl

/-- **A verification panics exactly where a frame comes as far as its seal, and that cuts a character.** -/
theorem verify_panics_iff :
    (FrameVerifier.verify hmac decode frame expectedAccountId expectedLeaseGeneration nowMs verifier).1 = .error .panic ↔
      ReachesSeal frame expectedAccountId expectedLeaseGeneration nowMs verifier ∧
        frame.macHex.utf8ByteSize % 2 = 0 ∧ CutsCharacter frame.macHex.toList := by
  rw [← decodeHex_panics_iff]
  let P (result : Except Fault T × FrameVerifier) : Prop := result.1 = .error .panic ↔
    ReachesSeal frame expectedAccountId expectedLeaseGeneration nowMs verifier ∧ decodeHex frame.macHex = .panics
  show P _
  unfold verify
  rw [Attempt.bind_of_ok (Attempt.get_apply verifier)]
  refine Attempt.refuseIf_bind (P := P) (fun hbad => ?_) fun hprotocol => ?_
  · exact iff_of_false nofun fun h => of_decide_eq_true hbad h.1.protocol
  refine Attempt.refuseIf_bind (P := P) (fun hbad => ?_) fun hident => ?_
  · refine iff_of_false nofun fun h => ?_
    simp only [Bool.or_eq_true, decide_eq_true_eq, Bool.not_eq_true'] at hbad
    rcases hbad with (hbad | hbad) | hbad
    · exact hbad h.1.worker
    · exact hbad h.1.account
    · rw [h.1.safe] at hbad
      cases hbad
  refine Attempt.refuseIf_bind (P := P) (fun hbad => ?_) fun hls => ?_
  · refine iff_of_false nofun fun h => ?_
    simp [h.1.leased, h.1.lease] at hbad
  refine Attempt.refuseIf_bind (P := P) (fun hbad => ?_) fun htime => ?_
  · refine iff_of_false nofun fun h => ?_
    simp only [Bool.or_eq_true, decide_eq_true_eq] at hbad
    rcases hbad with ((hbad | hbad) | hbad) | hbad
    · exact h.1.unexpired hbad
    · exact h.1.sent hbad
    · exact h.1.ordered hbad
    · exact h.1.brief hbad
  refine Attempt.refuseIf_bind (P := P) (fun hbad => ?_) fun hfurther => ?_
  · refine iff_of_false nofun fun h => ?_
    have hback := of_decide_eq_true hbad
    exact absurd h.1.further (UInt64.not_lt.mpr hback)
  -- past the checks, only the seal can panic
  have hreaches : ReachesSeal frame expectedAccountId expectedLeaseGeneration nowMs verifier := by
    simp only [Bool.or_eq_false_iff, decide_eq_false_iff_not, not_not, Bool.not_eq_false'] at hprotocol hident hls htime hfurther
    exact ⟨hprotocol, hident.1.1, hident.1.2, hident.2, hls.1, hls.2, htime.1.1.1, htime.1.1.2, htime.1.2, htime.2,
      UInt64.not_le.mp hfurther⟩
  have hpanics : checkSeal hmac verifier.key frame = .error .panic ↔ _ := checkSeal_panics_iff
  refine Attempt.ofExcept_bind (P := P) (fun fault hfault => ?_) fun _ hseal => ?_
  · show Except.error fault = .error Fault.panic ↔ _
    rw [← hpanics, hfault]
    exact ⟨fun h => ⟨hreaches, congrArg _ (Except.error.inj h)⟩, fun h => congrArg _ (Except.error.inj h.2)⟩
  · have hnot : decodeHex frame.macHex ≠ .panics := by
      rw [Ne, ← hpanics, hseal]
      intro h
      cases h
    refine Attempt.require_bind (P := P) (fun _ => ?_) fun payload _ => ?_
    · exact iff_of_false nofun fun h => hnot h.2
    · exact iff_of_false nofun fun h => hnot h.2

end Verify

/-! ## One text for some bytes -/

/-- A text without capital letters. -/
def LowerCase (value : String) : Prop := ∀ c ∈ value.toList, ¬ ('A' ≤ c ∧ c ≤ 'Z')

def byteDigits (byte : UInt8) : Char × Char := (hexDigit (byte.toNat / 16), hexDigit (byte.toNat % 16))

theorem hexValue_plus : hexValue '+' = none := by decide

theorem hexDigit_of_hexValue : ∀ {c : Char} {n : Nat}, hexValue c = some n → ¬ ('A' ≤ c ∧ c ≤ 'Z') → n < 16 ∧ c = hexDigit n := by
  intro c n h hlower
  unfold hexValue at h
  simp only [Char.le_def, UInt32.le_iff_toNat_le] at h hlower
  have hA : ('A' : Char).val.toNat = 65 := by decide
  have hZ : ('Z' : Char).val.toNat = 90 := by decide
  have hF : ('F' : Char).val.toNat = 70 := by decide
  have ha : ('a' : Char).val.toNat = 97 := by decide
  have hf : ('f' : Char).val.toNat = 102 := by decide
  have h0 : ('0' : Char).val.toNat = 48 := by decide
  have h9 : ('9' : Char).val.toNat = 57 := by decide
  have hdigit : ∀ n < 16, (hexDigit n).toNat = if n < 10 then n + 48 else n + 87 := by decide
  split at h
  · cases h
    have hsmall : c.toNat - '0'.toNat < 16 := by
      show c.val.toNat - ('0' : Char).val.toNat < 16
      omega
    refine ⟨hsmall, Char.toNat_inj.mp ?_⟩
    rw [hdigit _ hsmall]
    show c.val.toNat = if c.val.toNat - ('0' : Char).val.toNat < 10 then c.val.toNat - ('0' : Char).val.toNat + 48 else _
    rw [if_pos (by omega)]
    omega
  · split at h
    · cases h
      have hsmall : c.toNat - 'a'.toNat + 10 < 16 := by
        show c.val.toNat - ('a' : Char).val.toNat + 10 < 16
        omega
      refine ⟨hsmall, Char.toNat_inj.mp ?_⟩
      rw [hdigit _ hsmall]
      show c.val.toNat = if c.val.toNat - ('a' : Char).val.toNat + 10 < 10 then _ else c.val.toNat - ('a' : Char).val.toNat + 10 + 87
      rw [if_neg (by omega)]
      omega
    · split at h
      · omega
      · cases h

theorem hexDigit_plain : ∀ n < 16, hexDigit n ≠ '+' ∧ ¬ ('A' ≤ hexDigit n ∧ hexDigit n ≤ 'Z') := by decide

def Reads (pair : Char × Char) (byte : UInt8) : Prop := hexPair pair.1 pair.2 = some byte

theorem reads_byteDigits (byte : UInt8) : Reads (byteDigits byte) byte := by
  have hbyte := byte.toNat_lt
  have hhigh := hexValue_hexDigit (byte.toNat / 16) (by omega)
  have hlow := hexValue_hexDigit (byte.toNat % 16) (by omega)
  unfold Reads byteDigits hexPair
  rw [if_neg (hexDigit_plain _ (by omega)).1, hhigh, hlow]
  show some (UInt8.ofNat (byte.toNat / 16 * 16 + byte.toNat % 16)) = some byte
  rw [show byte.toNat / 16 * 16 + byte.toNat % 16 = byte.toNat by omega, UInt8.ofNat_toNat]

theorem reads_sign (h : byte.toNat < 16) : Reads ('+', hexDigit byte.toNat) byte := by
  unfold Reads hexPair
  rw [if_pos rfl, hexValue_hexDigit _ h, map_some, UInt8.ofNat_toNat]

/-- Without the sign there is one way to write a byte in small letters. -/
theorem eq_byteDigits_of_reads {pair : Char × Char} (h : Reads pair byte) (hlarge : 16 ≤ byte.toNat)
    (hfs : ¬ ('A' ≤ pair.1 ∧ pair.1 ≤ 'Z')) (hsec : ¬ ('A' ≤ pair.2 ∧ pair.2 ≤ 'Z')) : pair = byteDigits byte := by
  unfold Reads hexPair at h
  split at h
  · obtain ⟨low, hlow, hbyte⟩ := map_eq_some_iff.mp h
    have hsmall := (hexDigit_of_hexValue hlow hsec).1
    have hnat := congrArg UInt8.toNat hbyte
    rw [UInt8.toNat_ofNat'] at hnat
    omega
  · cases hhigh : hexValue pair.1 with
    | none =>
      rw [hhigh] at h
      cases h
    | some high =>
      cases hlow : hexValue pair.2 with
      | none =>
        rw [hhigh, hlow] at h
        cases h
      | some low =>
        rw [hhigh, hlow] at h
        obtain ⟨hhigh16, hfs⟩ := hexDigit_of_hexValue hhigh hfs
        obtain ⟨hlow16, hsec⟩ := hexDigit_of_hexValue hlow hsec
        have hnat := congrArg UInt8.toNat (Option.some.inj h)
        rw [UInt8.toNat_ofNat'] at hnat
        unfold byteDigits
        rw [show byte.toNat / 16 = high by omega, show byte.toNat % 16 = low by omega, ← hfs, ← hsec]

theorem hexPairs_decoded_iff : ∀ (chars : List Char) (bytes : List UInt8),
    hexPairs chars = .decoded bytes ↔ ∃ pairs, chars = spelled pairs ∧ Forall₂ Reads pairs bytes
  | [], _ => by
    constructor
    · intro h
      cases h
      exact ⟨[], rfl, .nil⟩
    · rintro ⟨pairs, hchars, hreads⟩
      cases hreads with
      | nil => rfl
      | cons => cases hchars
  | [a], _ => by
    refine iff_of_false ?_ ?_
    · unfold hexPairs
      split <;> simp
    · rintro ⟨pairs, hchars, -⟩
      cases pairs <;> cases hchars
  | a :: b :: rest, _ => by
    constructor
    · intro h
      cases hpair : hexPair a b with
      | none =>
        unfold hexPairs at h
        rw [hpair] at h
        split at h
        · split at h <;> cases h
        · split at h <;> cases h
      | some =>
        rw [hexPairs_number hpair] at h
        obtain ⟨more, hmore, rfl⟩ := after_decoded.mp h
        obtain ⟨pairs, rfl, hreads⟩ := (hexPairs_decoded_iff rest more).mp hmore
        exact ⟨(a, b) :: pairs, rfl, .cons hpair hreads⟩
    · rintro ⟨pairs, hchars, hreads⟩
      cases hreads with
      | nil => cases hchars
      | @cons pair byte pairs bytes hpair hreads =>
        injection hchars with ha hchars
        injection hchars with hb hrest
        have hnum : hexPair a b = some byte := by
          rw [ha, hb]
          exact hpair
        rw [hexPairs_number hnum]
        exact after_decoded.mpr ⟨_, (hexPairs_decoded_iff rest _).mpr ⟨_, hrest, hreads⟩, rfl⟩

theorem utf8Len_spelled {pairs : List (Char × Char)} (h : Forall₂ Reads pairs bytes) :
    String.utf8Len (spelled pairs) % 2 = 0 := by
  induction h with
  | nil => rfl
  | @cons pair byte pairs bytes hpair =>
    obtain ⟨ha, hb, -, -⟩ := hexPair_some hpair
    show (utf8Len (spelled pairs) + pair.2.utf8Size + pair.1.utf8Size) % 2 = 0
    omega

theorem decodeHex_decoded_iff :
    decodeHex value = .decoded bytes ↔ ∃ pairs, value.toList = spelled pairs ∧ Forall₂ Reads pairs bytes := by
  unfold decodeHex
  split
  · exact hexPairs_decoded_iff _ _
  · rename_i hodd
    refine iff_of_false (by simp) ?_
    rintro ⟨pairs, hchars, hreads⟩
    rw [utf8ByteSize_toList, hchars] at hodd
    exact hodd (utf8Len_spelled hreads)

/-- **What is decoded is a text of digits, unless there is a sign in it.** -/
theorem decodeHex_digits_iff (h : decodeHex value = .decoded bytes) :
    (∀ c ∈ value.toList, (hexValue c).isSome = true) ↔ '+' ∉ value.toList := by
  obtain ⟨pairs, hchars, hreads⟩ := decodeHex_decoded_iff.mp h
  rw [hchars]
  constructor
  · intro hdigits hmem
    have hplus := hdigits '+' hmem
    rw [hexValue_plus] at hplus
    cases hplus
  · intro hplain c hmem
    clear h hchars
    induction hreads with
    | nil => cases hmem
    | @cons pair byte pairs bytes hpair _ ih =>
      obtain ⟨-, -, hfs, hsec⟩ := hexPair_some hpair
      have hspelled : spelled (pair :: pairs) = pair.1 :: pair.2 :: spelled pairs := rfl
      rw [hspelled] at hplain hmem
      simp only [List.mem_cons, not_or] at hplain hmem
      rcases hmem with rfl | rfl | hmem
      · exact hfs.resolve_left fun hplus => hplain.1 hplus.symm
      · exact hsec
      · exact ih hplain.2.2 hmem

theorem forall₂_byteDigits (bytes : List UInt8) : Forall₂ Reads (bytes.map byteDigits) bytes := by
  induction bytes with
  | nil => exact .nil
  | cons byte bytes ih => exact .cons (reads_byteDigits byte) ih

/-- The pairs of a text in small letters are the digits of its bytes, if these are not small. -/
theorem eq_byteDigits {pairs : List (Char × Char)} (h : Forall₂ Reads pairs bytes) (hlarge : ∀ byte ∈ bytes, 16 ≤ byte.toNat)
    (hlower : ∀ c ∈ spelled pairs, ¬ ('A' ≤ c ∧ c ≤ 'Z')) : pairs = bytes.map byteDigits := by
  induction h with
  | nil => rfl
  | @cons pair byte pairs bytes hpair _ ih =>
    obtain ⟨hfs, hlower⟩ := forall_mem_cons.mp (show ∀ c ∈ pair.1 :: pair.2 :: spelled pairs, _ from hlower)
    obtain ⟨hsec, hlower⟩ := forall_mem_cons.mp hlower
    obtain ⟨hbyte, hlarge⟩ := forall_mem_cons.mp hlarge
    rw [eq_byteDigits_of_reads hpair hbyte hfs hsec, ih hlarge hlower, map_cons]

theorem lower_spelled_byteDigits (bytes : List UInt8) : ∀ c ∈ spelled (bytes.map byteDigits), ¬ ('A' ≤ c ∧ c ≤ 'Z') := by
  intro c hmem
  obtain ⟨pair, hpair, hc⟩ := mem_flatMap.mp hmem
  obtain ⟨byte, -, rfl⟩ := mem_map.mp hpair
  have hbyte := byte.toNat_lt
  rcases mem_cons.mp hc with rfl | hc
  · exact (hexDigit_plain _ (by omega)).2
  · rw [mem_singleton.mp hc]
    exact (hexDigit_plain _ (by omega)).2

/-- **Some bytes have one text in small letters exactly where none of them could be written with a sign.** -/
theorem oneText_iff (bytes : List UInt8) :
    (∀ value other, LowerCase value → LowerCase other → decodeHex value = .decoded bytes → decodeHex other = .decoded bytes →
      value = other) ↔ ∀ byte ∈ bytes, 16 ≤ byte.toNat := by
  constructor
  · intro hone byte hmem
    by_contra hsmall
    obtain ⟨before, more, rfl⟩ := append_of_mem hmem
    -- the byte once with two digits, once with the sign
    let plain := spelled ((before ++ byte :: more).map byteDigits)
    let signed := spelled (before.map byteDigits ++ ('+', hexDigit byte.toNat) :: more.map byteDigits)
    have hplain : decodeHex (ofList plain) = .decoded (before ++ byte :: more) :=
      decodeHex_decoded_iff.mpr ⟨_, toList_ofList, forall₂_byteDigits _⟩
    have hsig : decodeHex (ofList signed) = .decoded (before ++ byte :: more) :=
      decodeHex_decoded_iff.mpr ⟨_, toList_ofList,
        rel_append (forall₂_byteDigits before) (.cons (reads_sign (by omega)) (forall₂_byteDigits more))⟩
    have hlower : LowerCase (ofList signed) := by
      intro c hmem
      rw [toList_ofList] at hmem
      have hspelled : signed = spelled (before.map byteDigits) ++ '+' :: hexDigit byte.toNat :: spelled (more.map byteDigits) := by
        show spelled _ = _
        unfold spelled
        rw [flatMap_append]
        rfl
      rw [hspelled] at hmem
      simp only [mem_append, mem_cons] at hmem
      rcases hmem with hmem | rfl | rfl | hmem
      · exact lower_spelled_byteDigits before c hmem
      · decide
      · exact (hexDigit_plain _ (by omega)).2
      · exact lower_spelled_byteDigits more c hmem
    have hsame := hone _ _ (fun c hmem => lower_spelled_byteDigits _ c (by rwa [toList_ofList] at hmem)) hlower hplain hsig
    have hchars := congrArg String.toList hsame
    rw [toList_ofList, toList_ofList] at hchars
    have hchars : spelled (before.map byteDigits) ++ spelled (byteDigits byte :: more.map byteDigits)
        = spelled (before.map byteDigits) ++ spelled (('+', hexDigit byte.toNat) :: more.map byteDigits) := by
      have hspl : ∀ pairs others : List (Char × Char), spelled (pairs ++ others) = spelled pairs ++ spelled others := by
        intro pairs others
        exact flatMap_append
      rw [← hspl, ← hspl, ← map_cons, ← map_append]
      exact hchars
    have hhead := append_cancel_left hchars
    injection hhead with hdigit
    exact (hexDigit_plain _ (by omega)).1 hdigit
  · intro hlarge value other hvalue hoth hdecoded hdecoded'
    obtain ⟨pairs, hchars, hreads⟩ := decodeHex_decoded_iff.mp hdecoded
    obtain ⟨pairs', hchars', hreads'⟩ := decodeHex_decoded_iff.mp hdecoded'
    have hpairs := eq_byteDigits hreads hlarge (hchars ▸ hvalue)
    have hpairs' := eq_byteDigits hreads' hlarge (hchars' ▸ hoth)
    refine toList_inj.mp ?_
    rw [hchars, hchars', hpairs, hpairs']

/-- **What a text must not be.** A verification panics exactly where the seal of a frame that comes as far
cuts a character, and so does the reading of a key of the right size; what is decoded is a text of digits
unless there is a sign in it, and bytes have one text in small letters unless one of them is small. -/
theorem hex_texts {T : Type} (hmac : Hmac) (decode : String → Option T) :
    (∀ (frame : AuthenticatedFrame) (expectedAccountId : String) (expectedLeaseGeneration nowMs : UInt64)
      (verifier : FrameVerifier),
      (FrameVerifier.verify hmac decode frame expectedAccountId expectedLeaseGeneration nowMs verifier).1 ≠ .error .panic ↔
        ¬ (ReachesSeal frame expectedAccountId expectedLeaseGeneration nowMs verifier ∧
          frame.macHex.utf8ByteSize % 2 = 0 ∧ CutsCharacter frame.macHex.toList)) ∧
    (∀ value, IpcKey.fromHex value ≠ .error .panic ↔ ¬ (value.utf8ByteSize = ipcKeyBytes * 2 ∧ CutsCharacter value.toList)) ∧
    (∀ value bytes, decodeHex value = .decoded bytes → ((∀ c ∈ value.toList, (hexValue c).isSome = true) ↔ '+' ∉ value.toList)) ∧
    ∀ bytes, (∀ value other, LowerCase value → LowerCase other → decodeHex value = .decoded bytes →
      decodeHex other = .decoded bytes → value = other) ↔ ∀ byte ∈ bytes, 16 ≤ byte.toNat :=
  ⟨fun _ _ _ _ _ => not_congr verify_panics_iff, fun _ => not_congr fromHex_panics_iff,
    fun _ _ h => decodeHex_digits_iff h, oneText_iff⟩

/-- A seal with an accent, and the byte fifteen written in two ways. -/
theorem accented_seal_panics :
    (FrameVerifier.verify heartbeatHmac some { heartbeatFrame with macHex := "0é0" } "account-a" 7 1500
      heartbeatSession.verifier).1 = .error .panic ∧
    decodeHex "+f" = .decoded [15] ∧ decodeHex "0f" = .decoded [15] := by
  refine ⟨verify_panics_iff.mpr ⟨?_, by decide, [], _, rfl, List.forall_mem_nil _, ?_⟩, by decide, by decide⟩
  · constructor <;> decide
  · exact .inl ⟨'0', 'é', ['0'], by decide, by decide, by decide⟩

end MarketLens.VmAgent
