import MarketLens.Lib.Run
import MarketLens.VmAgent.Protocol

/-!
# What the signed channel guarantees

The bytes under a seal determine the frame they are of, and the line of a frame
is read back as the frame. A session is any number of signers with one key, a
verifier, and frames that anyone presents in any order: what the verifier
accepts was signed, each frame at most once, and each account's frames in the
order of their numbers. What keeps a frame from being made up is that no one
finds the HMAC of bytes no signer has sealed (`Unforged`).
-/

namespace MarketLens.VmAgent

open List Option Runs AuthenticatedFrame FrameVerifier Attempts JsonText Fallible
open Std (ExtTreeMap)

/-! ## The bytes under a seal -/

theorem utf8_inj {s t : String} (h : utf8 s = utf8 t) : s = t := by
  unfold utf8 at h
  have hdata : s.toUTF8.data = t.toUTF8.data := Array.toList_inj.mp h
  have hbytes : s.toByteArray = t.toByteArray := ByteArray.ext hdata
  exact String.toByteArray_inj.mp hbytes

theorem toString_inj {m n : Nat} (h : toString m = toString n) : m = n := by
  have hdigits := congrArg String.toList h
  rw [Nat.toString_eq_repr, Nat.toString_eq_repr, Nat.toList_repr, Nat.toList_repr] at hdigits
  rw [← Nat.ofDigitChars_ten_toDigits (n := m), hdigits, Nat.ofDigitChars_ten_toDigits]

/-- The frame without its seal. -/
def AuthenticatedFrame.unsealed (frame : AuthenticatedFrame) : AuthenticatedFrame := { frame with macHex := "" }

theorem unsealed_of_sealedFields {frame other : AuthenticatedFrame} (h : frame.sealedFields = other.sealedFields) :
    frame.unsealed = other.unsealed := by
  unfold sealedFields at h
  simp only [List.cons.injEq, and_true] at h
  obtain ⟨hver, hwkr, hacct, hls, hmessage, hsent, hexpires, hsequence, hkind, hpld⟩ := h
  have hver := UInt32.toNat_inj.mp (toString_inj hver)
  have hls := UInt64.toNat_inj.mp (toString_inj hls)
  have hsent := UInt64.toNat_inj.mp (toString_inj hsent)
  have hexpires := UInt64.toNat_inj.mp (toString_inj hexpires)
  have hsequence := UInt64.toNat_inj.mp (toString_inj hsequence)
  have hkind := MessageKind.asStr_inj hkind
  unfold unsealed
  rw [hver, hwkr, hacct, hls, hmessage, hsent, hexpires, hsequence, hkind, hpld]

theorem frameSigningBytes_ok {frame : AuthenticatedFrame} {bytes : List UInt8} (h : frameSigningBytes frame = .ok bytes) :
    bytes = Framing.frames (frame.sealedFields.map utf8) ∧ ∀ field ∈ frame.sealedFields.map utf8, field.length < 2 ^ 32 := by
  unfold frameSigningBytes at h
  obtain ⟨hlengths, h⟩ := unit_bind_ok.mp h
  obtain ⟨-, h⟩ := unit_bind_ok.mp h
  cases h
  refine ⟨rfl, fun field hfield => ?_⟩
  rw [refuseIf_ok, List.any_eq_false] at hlengths
  have hlng := hlengths field hfield
  rw [decide_eq_true_eq] at hlng
  omega

/-- **The bytes under a seal determine the frame.** -/
theorem frameSigningBytes_inj {frame other : AuthenticatedFrame} {bytes : List UInt8}
    (h : frameSigningBytes frame = .ok bytes) (hoth : frameSigningBytes other = .ok bytes) :
    frame.unsealed = other.unsealed := by
  obtain ⟨hbytes, hlengths⟩ := frameSigningBytes_ok h
  obtain ⟨hbytes', hlengths'⟩ := frameSigningBytes_ok hoth
  have hfields := Framing.frames_inj hlengths hlengths' (hbytes.symm.trans hbytes')
  exact unsealed_of_sealedFields (map_injective_iff.mpr (fun _ _ => utf8_inj) hfields)

/-! ## Lines -/

theorem asU32_natural (n : UInt32) : asU32 (.natural n.toNat) = some n := by
  show (if n.toNat < 2 ^ 32 then some (UInt32.ofNat n.toNat) else none) = _
  rw [if_pos n.toNat_lt, UInt32.ofNat_toNat]

theorem asU64_natural (n : UInt64) : asU64 (.natural n.toNat) = some n := by
  show (if n.toNat < 2 ^ 64 then some (UInt64.ofNat n.toNat) else none) = _
  rw [if_pos n.toNat_lt, UInt64.ofNat_toNat]

theorem ofJson_toJson (frame : AuthenticatedFrame) : AuthenticatedFrame.ofJson frame.toJson = some frame := by
  have hkind : asMessageKind (.string frame.kind.asStr) = some frame.kind := MessageKind.ofStr_asStr frame.kind
  unfold toJson ofJson ofMembers
  simp [field, membersOf, asU32_natural, asU64_natural, asString, hkind]

/-- What is written of a frame is plain, and one object deep. -/
theorem toJson_plain (frame : AuthenticatedFrame) : frame.toJson.Plain := by
  simp [toJson, Json.Plain, Json.Plain.PlainMembers]

theorem toJson_depth (frame : AuthenticatedFrame) : frame.toJson.depth < 128 := by
  simp [toJson, Json.depth, Json.depth.depthMembers]

/-- **A line that is written is read back.** -/
theorem frameFromLine_frameToLine {serde : SerdeJson} (hserde : serde.Conforms) {frame : AuthenticatedFrame} {line : String}
    (h : frameToLine serde frame = .ok line) : frameFromLine serde line = .ok frame := by
  unfold frameToLine at h
  obtain ⟨written, hwritten, h⟩ := bind_ok.mp h
  obtain ⟨hsize, h⟩ := unit_bind_ok.mp h
  cases h
  rw [require_ok, hserde.writes] at hwritten
  cases hwritten
  have hread := hserde.reads _ _ (read_text (toJson_plain frame)) (toJson_depth frame)
  unfold frameFromLine
  rw [hread, bind_some, ofJson_toJson]
  exact unit_bind_ok.mpr ⟨hsize, rfl⟩

/-! ## Verifying -/

section Verify

variable {T : Type} {hmac : Hmac} {decode : String → Option T} {frame : AuthenticatedFrame} {expectedAccountId : String}
  {expectedLeaseGeneration nowMs : UInt64} {verifier : FrameVerifier}

theorem checkSeal_ok {key : IpcKey} (h : FrameVerifier.checkSeal hmac key frame = .ok ()) :
    ∃ bytes, frameSigningBytes frame = .ok bytes ∧ decodeHex frame.macHex = .decoded (hmac key.bytes bytes) := by
  unfold checkSeal at h
  obtain ⟨mac, hmac', h⟩ := bind_ok.mp h
  obtain ⟨bytes, hbytes, h⟩ := bind_ok.mp h
  rw [refuseIf_ok] at h
  have hequal : mac = hmac key.bytes bytes := by simpa using h
  refine ⟨bytes, ?_, ?_⟩
  · cases hsig : frameSigningBytes frame with
    | error =>
      rw [hsig] at hbytes
      cases hbytes
    | ok =>
      rw [hsig] at hbytes
      cases hbytes
      rfl
  · unfold sealBytes at hmac'
    cases hdecoded : decodeHex frame.macHex with
    | decoded =>
      rw [hdecoded] at hmac'
      cases hmac'
      rw [hequal]
    | malformed | panics =>
      rw [hdecoded] at hmac'
      cases hmac'

structure Accepts (hmac : Hmac) (frame : AuthenticatedFrame) (expectedAccountId : String) (expectedLeaseGeneration : UInt64)
    (verifier : FrameVerifier) : Prop where
  worker : frame.workerId = verifier.workerId
  account : frame.accountId = expectedAccountId
  lease : frame.leaseGeneration = expectedLeaseGeneration
  fresh : verifier.lastOf expectedAccountId < frame.sequence
  sealed : ∃ bytes, frameSigningBytes frame = .ok bytes ∧ decodeHex frame.macHex = .decoded (hmac verifier.key.bytes bytes)

section
variable (hmac : Hmac) (decode : String → Option T) (frame : AuthenticatedFrame) (expectedAccountId : String)

/-- The two ends of a verification: the frame is turned away and the verifier is as it was, or the
frame passes every check, its payload is read and its number becomes the last of its account. -/
def Verdict
    (expectedLeaseGeneration : UInt64) (verifier : FrameVerifier) (result : Except Fault T × FrameVerifier) : Prop :=
  (∃ fault, result = (.error fault, verifier))
  ∨ ∃ payload, result
      = (.ok payload, { verifier with lastSequence := verifier.lastSequence.insert expectedAccountId frame.sequence })
    ∧ decode frame.payloadJson = some payload ∧ Accepts hmac frame expectedAccountId expectedLeaseGeneration verifier

theorem verify_verdict
    (expectedLeaseGeneration nowMs : UInt64) (verifier : FrameVerifier) :
    Verdict hmac decode frame expectedAccountId expectedLeaseGeneration verifier
      (FrameVerifier.verify hmac decode frame expectedAccountId expectedLeaseGeneration nowMs verifier) := by
  unfold verify
  rw [Attempt.bind_of_ok (Attempt.get_apply verifier)]
  refine Attempt.refuseIf_bind (P := Verdict _ _ _ _ _ _) (fun _ => .inl ⟨_, rfl⟩) fun _ => ?_
  refine Attempt.refuseIf_bind (P := Verdict _ _ _ _ _ _) (fun _ => .inl ⟨_, rfl⟩) fun hident => ?_
  refine Attempt.refuseIf_bind (P := Verdict _ _ _ _ _ _) (fun _ => .inl ⟨_, rfl⟩) fun hls => ?_
  refine Attempt.refuseIf_bind (P := Verdict _ _ _ _ _ _) (fun _ => .inl ⟨_, rfl⟩) fun _ => ?_
  refine Attempt.refuseIf_bind (P := Verdict _ _ _ _ _ _) (fun _ => .inl ⟨_, rfl⟩) fun hfsh => ?_
  refine Attempt.ofExcept_bind (P := Verdict _ _ _ _ _ _) (fun _ _ => .inl ⟨_, rfl⟩) fun _ hseal => ?_
  refine Attempt.require_bind (P := Verdict _ _ _ _ _ _) (fun _ => .inl ⟨_, rfl⟩) fun payload hpld => ?_
  simp only [Bool.or_eq_false_iff, decide_eq_false_iff_not, not_not, Bool.not_eq_false'] at hident hls hfsh
  have hlat : verifier.lastOf expectedAccountId < frame.sequence := UInt64.not_le.mp hfsh
  exact .inr ⟨payload, rfl, hpld, ⟨hident.1.1, hident.1.2, hls.2, hlat, checkSeal_ok hseal⟩⟩

end

/-- A frame that is turned away leaves the verifier as it was. -/
theorem verify_error {fault : Fault}
    (h : (FrameVerifier.verify hmac decode frame expectedAccountId expectedLeaseGeneration nowMs verifier).1 = .error fault) :
    (FrameVerifier.verify hmac decode frame expectedAccountId expectedLeaseGeneration nowMs verifier).2 = verifier := by
  rcases verify_verdict hmac decode frame expectedAccountId expectedLeaseGeneration nowMs verifier with
    ⟨fault', hresult⟩ | ⟨payload, hresult, -, -⟩
  · rw [hresult]
  · rw [hresult] at h
    cases h

theorem verify_ok {payload : T}
    (h : (FrameVerifier.verify hmac decode frame expectedAccountId expectedLeaseGeneration nowMs verifier).1 = .ok payload) :
    decode frame.payloadJson = some payload ∧ Accepts hmac frame expectedAccountId expectedLeaseGeneration verifier := by
  rcases verify_verdict hmac decode frame expectedAccountId expectedLeaseGeneration nowMs verifier with
    ⟨fault, hresult⟩ | ⟨found, hresult, hpld, haccs⟩
  · rw [hresult] at h
    cases h
  · rw [hresult] at h
    cases h
    exact ⟨hpld, haccs⟩

end Verify

/-! ## Sessions -/

/-- A session: the signers that have its key, its verifier, and in order the frames that were
signed and the frames that were accepted. -/
structure Session where
  signers : List FrameSigner
  verifier : FrameVerifier
  signed : List AuthenticatedFrame
  accepted : List AuthenticatedFrame

inductive Event (T : Type) where
  | sign (signer : Nat) (accountId : String) (leaseGeneration : UInt64) (kind : MessageKind) (payload : Option String)
      (nowMs ttlMs : UInt64) (messageId : String)
  | present (decode : String → Option T) (frame : AuthenticatedFrame) (expectedAccountId : String)
      (expectedLeaseGeneration nowMs : UInt64)

namespace Session

variable {T : Type}

structure Fresh (session : Session) : Prop where
  keys : ∀ signer ∈ session.signers, signer.key = session.verifier.key
  unheard : session.verifier.lastSequence = ∅
  unsigned : session.signed = []
  unaccepted : session.accepted = []

def step (hmac : Hmac) (session : Session) : Event T → Option Session
  | .sign index accountId leaseGeneration kind payload nowMs ttlMs messageId =>
    session.signers[index]?.map fun signer =>
      match FrameSigner.sign hmac accountId leaseGeneration kind payload nowMs ttlMs messageId signer with
      | (.ok frame, signer) => { session with signers := session.signers.set index signer, signed := session.signed ++ [frame] }
      | (.error _, signer) => { session with signers := session.signers.set index signer }
  | .present decode frame expectedAccountId expectedLeaseGeneration nowMs =>
    match FrameVerifier.verify hmac decode frame expectedAccountId expectedLeaseGeneration nowMs session.verifier with
    | (.ok _, verifier) => some { session with verifier, accepted := session.accepted ++ [frame] }
    | (.error _, verifier) => some { session with verifier }

def Unforged (hmac : Hmac) (session : Session) : Event T → Prop
  | .present _ frame _ _ _ => ∀ bytes, frameSigningBytes frame = .ok bytes →
    decodeHex frame.macHex = .decoded (hmac session.verifier.key.bytes bytes) →
    ∃ original ∈ session.signed, frameSigningBytes original = .ok bytes
  | .sign .. => True

/-- What holds of a session at any time. -/
structure Faithful (session : Session) : Prop where
  /-- What is accepted was signed, the seal apart. -/
  authentic : ∀ frame ∈ session.accepted, ∃ original ∈ session.signed, frame.unsealed = original.unsealed
  /-- The frames of an account are accepted in the order of their numbers. -/
  increasing : session.accepted.Pairwise fun frame later => frame.accountId = later.accountId → frame.sequence < later.sequence
  /-- The verifier knows the last number of each account. -/
  known : ∀ frame ∈ session.accepted, frame.sequence ≤ session.verifier.lastOf frame.accountId

theorem Fresh.faithful {session : Session} (h : session.Fresh) : session.Faithful := by
  refine ⟨?_, ?_, ?_⟩
  all_goals rw [h.unaccepted]
  · exact nofun
  · exact List.Pairwise.nil
  · exact nofun

theorem lastOf_insert (verifier : FrameVerifier) (accountId other : String) (sequence : UInt64) :
    FrameVerifier.lastOf { verifier with lastSequence := verifier.lastSequence.insert accountId sequence } other
      = if accountId = other then sequence else verifier.lastOf other := by
  unfold lastOf
  rw [ExtTreeMap.getElem?_insert]
  by_cases hsame : accountId = other
  · rw [if_pos hsame, if_pos (Std.LawfulEqOrd.compare_eq_iff_eq.mpr hsame), getD_some]
  · rw [if_neg hsame, if_neg (mt Std.LawfulEqOrd.compare_eq_iff_eq.mp hsame)]

/-- A frame is accepted only if it was signed and its number is above the last of its account. -/
theorem Faithful.step {hmac : Hmac} {session session' : Session} {event : Event T} (h : session.Faithful)
    (hunforged : session.Unforged hmac event) (hstep : session.step hmac event = some session') : session'.Faithful := by
  cases event with
  | sign =>
    obtain ⟨signer, -, hstep⟩ := map_eq_some_iff.mp hstep
    have hkept : session'.accepted = session.accepted ∧ session'.verifier = session.verifier
        ∧ ∀ original ∈ session.signed, original ∈ session'.signed := by
      split at hstep
      · subst hstep
        exact ⟨rfl, rfl, fun original horiginal => mem_append_left _ horiginal⟩
      · subst hstep
        exact ⟨rfl, rfl, fun original horiginal => horiginal⟩
    obtain ⟨haccp, hverifier, hsig⟩ := hkept
    refine ⟨fun frame hfrm => ?_, ?_, ?_⟩
    · rw [haccp] at hfrm
      obtain ⟨original, horiginal, hsame⟩ := h.authentic frame hfrm
      exact ⟨original, hsig original horiginal, hsame⟩
    · rw [haccp]
      exact h.increasing
    · rw [haccp, hverifier]
      exact h.known
  | present decode frame expectedAccountId expectedLeaseGeneration nowMs =>
    unfold Session.step at hstep
    dsimp only at hstep
    rcases verify_verdict hmac decode frame expectedAccountId expectedLeaseGeneration nowMs session.verifier with
      ⟨fault, hresult⟩ | ⟨payload, hresult, -, haccs⟩
    · rw [hresult] at hstep
      cases hstep
      exact h
    · rw [hresult] at hstep
      cases hstep
      -- accepted, so sealed; and nobody else could seal it
      obtain ⟨bytes, hbytes, hseal⟩ := haccs.sealed
      obtain ⟨original, horiginal, hsig⟩ := hunforged bytes hbytes hseal
      refine ⟨fun other hoth => ?_, ?_, fun other hoth => ?_⟩
      · rcases mem_append.mp hoth with hoth | hoth
        · exact h.authentic other hoth
        · obtain rfl := mem_singleton.mp hoth
          exact ⟨original, horiginal, frameSigningBytes_inj hbytes hsig⟩
      · -- the new frame is further on than any accepted for its account
        refine pairwise_append.mpr ⟨h.increasing, pairwise_singleton _ _, fun earlier hearl later hlat => ?_⟩
        obtain rfl := mem_singleton.mp hlat
        intro hacct
        have hkno := h.known earlier hearl
        rw [hacct, haccs.account] at hkno
        exact UInt64.lt_of_le_of_lt hkno haccs.fresh
      · rw [lastOf_insert]
        split
        · rename_i hacct
          rcases mem_append.mp hoth with hoth | hoth
          · have hkno := h.known other hoth
            rw [← hacct] at hkno
            exact UInt64.le_of_lt (UInt64.lt_of_le_of_lt hkno haccs.fresh)
          · obtain rfl := mem_singleton.mp hoth
            exact UInt64.le_refl _
        · rename_i hacct
          rcases mem_append.mp hoth with hoth | hoth
          · exact h.known other hoth
          · obtain rfl := mem_singleton.mp hoth
            exact absurd haccs.account.symm hacct

/-- Whatever happens in a session, what is accepted stays faithful to what was signed. -/
theorem Fresh.reaches {hmac : Hmac} {start session : Session} (h : start.Fresh)
    (hrun : Reaches (Session.step (T := T) hmac) (Session.Unforged hmac) start session) : session.Faithful :=
  hrun.invariant Session.Faithful h.faithful fun _ _ _ hfaithful hunforged hstep => hfaithful.step hunforged hstep

/-- No signed frame is accepted twice, whatever its seal is written like. -/
theorem Faithful.nodup {session : Session} (h : session.Faithful) : (session.accepted.map AuthenticatedFrame.unsealed).Nodup := by
  refine pairwise_map.mpr (h.increasing.imp ?_)
  intro frame later hless hsame
  have hacct : frame.unsealed.accountId = later.unsealed.accountId := congrArg _ hsame
  have hsequence : frame.unsealed.sequence = later.unsealed.sequence := congrArg _ hsame
  have hlt : frame.unsealed.sequence < later.unsealed.sequence := hless hacct
  rw [hsequence] at hlt
  exact UInt64.lt_irrefl _ hlt

end Session

/-- **The signed channel.** In any session, whatever is presented in whatever order, each signed
frame is accepted once at most, the numbers accepted for an account increase, and what is accepted
is what was signed. A frame that is turned away leaves the verifier as it was, the bytes under a
seal determine what they are of, and lines are read back. -/
theorem channel_faithful {T : Type} (hmac : Hmac) {start session : Session} (hstart : start.Fresh)
    (hrun : Runs.Reaches (Session.step (T := T) hmac) (Session.Unforged hmac) start session)
    {serde : SerdeJson} (hserde : serde.Conforms) :
    (session.accepted.map AuthenticatedFrame.unsealed).Nodup
    ∧ (session.accepted.Pairwise fun frame later => frame.accountId = later.accountId → frame.sequence < later.sequence)
    ∧ (∀ frame ∈ session.accepted, ∃ original ∈ session.signed, frame.unsealed = original.unsealed)
    ∧ (∀ (decode : String → Option T) frame expectedAccountId expectedLeaseGeneration nowMs verifier fault,
        (FrameVerifier.verify hmac decode frame expectedAccountId expectedLeaseGeneration nowMs verifier).1 = .error fault →
        (FrameVerifier.verify hmac decode frame expectedAccountId expectedLeaseGeneration nowMs verifier).2 = verifier)
    ∧ (∀ (decode : String → Option T) frame expectedAccountId expectedLeaseGeneration nowMs verifier payload,
        (FrameVerifier.verify hmac decode frame expectedAccountId expectedLeaseGeneration nowMs verifier).1 = .ok payload →
        decode frame.payloadJson = some payload ∧ Accepts hmac frame expectedAccountId expectedLeaseGeneration verifier)
    ∧ (∀ frame other bytes, frameSigningBytes frame = .ok bytes → frameSigningBytes other = .ok bytes →
        frame.unsealed = other.unsealed)
    ∧ ∀ frame line, frameToLine serde frame = .ok line → frameFromLine serde line = .ok frame := by
  have hfaithful := hstart.reaches hrun
  exact ⟨hfaithful.nodup, hfaithful.increasing, hfaithful.authentic, fun _ _ _ _ _ _ _ => verify_error,
    fun _ _ _ _ _ _ _ => verify_ok, fun _ _ _ => frameSigningBytes_inj, fun _ _ => frameFromLine_frameToLine hserde⟩

/-! ### One heartbeat -/

def heartbeatKey : IpcKey := ⟨List.replicate 32 7, by decide⟩

def heartbeatTag : List UInt8 :=
  [0, 184, 101, 198, 41, 172, 124, 152, 247, 209, 44, 240, 93, 31, 68, 201, 16, 119, 26, 63,
    62, 189, 32, 191, 26, 205, 167, 140, 190, 21, 160, 32]

/-- What HMAC-SHA256 makes of the heartbeat under the key. -/
def heartbeatHmac : Hmac := fun _ _ => heartbeatTag

def heartbeatSession : Session where
  signers := [⟨heartbeatKey, "worker-01", ∅⟩]
  verifier := ⟨heartbeatKey, "worker-01", ∅⟩
  signed := []
  accepted := []

def heartbeatPayload : String := "\x7b\"healthy\":true\x7d"

def heartbeatFrame : AuthenticatedFrame :=
  { protocolVersion := 1, workerId := "worker-01", accountId := "account-a", leaseGeneration := 7
    messageId := "3f0c9a52-6d1e-4b7a-9c35-1f2e8d4b6a70", sentAtMs := 1000, expiresAtMs := 6000, sequence := 1
    kind := .agentHeartbeat, payloadJson := heartbeatPayload, macHex := encodeHex heartbeatTag }

/-- A heartbeat is signed, presented, and presented again. -/
def heartbeatEvents : List (Event String) := [
  .sign 0 "account-a" 7 .agentHeartbeat (some heartbeatPayload) 1000 5000 "3f0c9a52-6d1e-4b7a-9c35-1f2e8d4b6a70",
  .present some heartbeatFrame "account-a" 7 1500,
  .present some heartbeatFrame "account-a" 7 1600]

def sealedBefore (session : Session) : Event String → Bool
  | .present _ frame _ _ _ => session.signed.any fun original =>
    (frameSigningBytes original).toOption = (frameSigningBytes frame).toOption
  | .sign .. => true

theorem unforged_of_sealedBefore (hmac : Hmac) (session : Session) (event : Event String)
    (h : sealedBefore session event = true) : session.Unforged hmac event := by
  cases event with
  | sign => trivial
  | present =>
    intro bytes hbytes _
    obtain ⟨original, horiginal, hsame⟩ := any_eq_true.mp h
    rw [decide_eq_true_eq, hbytes] at hsame
    exact ⟨original, horiginal, toOption_some hsame⟩

/-- A JSON library that writes and reads as it should. -/
def plainSerde : SerdeJson := ⟨fun value => some (text value), read⟩

theorem plainSerde_conforms : plainSerde.Conforms := ⟨fun _ => rfl, fun _ _ h _ => h⟩

/-- The heartbeat is accepted once. -/
theorem channel_faithful_heartbeat : ∃ session : Session, session.accepted = [heartbeatFrame]
    ∧ (session.accepted.map AuthenticatedFrame.unsealed).Nodup
    ∧ ∀ frame ∈ session.accepted, ∃ original ∈ session.signed, frame.unsealed = original.unsealed := by
  have hexec : (Runs.exec (Session.step heartbeatHmac) sealedBefore heartbeatSession heartbeatEvents).map (·.accepted)
      = some [heartbeatFrame] := by decide +kernel
  obtain ⟨session, hsess, haccp⟩ := Option.map_eq_some_iff.mp hexec
  have hrun := Runs.reaches_of_exec (unforged_of_sealedBefore heartbeatHmac) hsess
  have hfsh : heartbeatSession.Fresh := by
    refine ⟨fun signer hsigner => ?_, rfl, rfl, rfl⟩
    rw [List.mem_singleton.mp hsigner]
    rfl
  obtain ⟨hndp, -, hauthentic, -⟩ := channel_faithful heartbeatHmac hfsh hrun plainSerde_conforms
  exact ⟨session, haccp, hndp, hauthentic⟩

end MarketLens.VmAgent
