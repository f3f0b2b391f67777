import MarketLens.Lib.Attempt
import MarketLens.Lib.Framing
import MarketLens.Lib.Json
import MarketLens.VmAgent.Registry

/-!
# The signed channel between agent and adapter

A frame names a worker, an account, the lease it speaks under and its place in
the sequence of the account, and carries a payload. A signer numbers the frames
of each account and seals them with an HMAC; a verifier accepts what is sealed,
in time, and further on in the sequence than anything it has accepted. The HMAC
and the JSON library are parameters: of the first nothing is assumed here, of the
second that it writes and reads JSON (`SerdeJson.Conforms`).
-/

namespace MarketLens.VmAgent

open Attempts JsonText
open Fallible (refuseIf)
open Std (ExtTreeMap)

def agentProtocolVersion : UInt32 := 1
def ipcKeyBytes : Nat := 32
def maxFrameBytes : Nat := 64 * 1024
def maxFrameTtlMs : UInt64 := 60000
def maxFutureSkewMs : UInt64 := 30000

/-- `u64::saturating_add`. -/
def saturatingAdd (a b : UInt64) : UInt64 := UInt64.ofNat (min (2 ^ 64 - 1) (a.toNat + b.toNat))

/-- `u64::saturating_sub`. -/
def saturatingSub (a b : UInt64) : UInt64 := UInt64.ofNat (a.toNat - b.toNat)

inductive MessageKind where
  | agentHello
  | agentHeartbeat
  | provisionAccount
  | stopAccount
  | restartAccount
  | forceTerminalCrash
  | accountRuntimeStatus
  | accountSnapshot
  | snapshotSync
  | historySync
  | instrumentSnapshot
  | ordersHistorySnapshot
  | dealsSnapshot
  | validationReport
deriving DecidableEq

namespace MessageKind

/-- `as_str`, which is also the name on the wire. -/
def asStr : MessageKind → String
  | agentHello => "agent_hello"
  | agentHeartbeat => "agent_heartbeat"
  | provisionAccount => "provision_account"
  | stopAccount => "stop_account"
  | restartAccount => "restart_account"
  | forceTerminalCrash => "force_terminal_crash"
  | accountRuntimeStatus => "account_runtime_status"
  | accountSnapshot => "account_snapshot"
  | snapshotSync => "snapshot_sync"
  | historySync => "history_sync"
  | instrumentSnapshot => "instrument_snapshot"
  | ordersHistorySnapshot => "orders_history_snapshot"
  | dealsSnapshot => "deals_snapshot"
  | validationReport => "validation_report"

def all : List MessageKind :=
  [agentHello, agentHeartbeat, provisionAccount, stopAccount, restartAccount, forceTerminalCrash, accountRuntimeStatus,
    accountSnapshot, snapshotSync, historySync, instrumentSnapshot, ordersHistorySnapshot, dealsSnapshot, validationReport]

def ofStr (name : String) : Option MessageKind := all.find? fun kind => kind.asStr = name

theorem ofStr_asStr (kind : MessageKind) : ofStr kind.asStr = some kind := by
  cases kind <;> decide

theorem asStr_inj {kind kind' : MessageKind} (h : kind.asStr = kind'.asStr) : kind = kind' := by
  have hback := ofStr_asStr kind
  rw [h, ofStr_asStr] at hback
  exact (Option.some.inj hback).symm

end MessageKind

structure AuthenticatedFrame where
  protocolVersion : UInt32
  workerId : String
  accountId : String
  leaseGeneration : UInt64
  messageId : String
  sentAtMs : UInt64
  expiresAtMs : UInt64
  sequence : UInt64
  kind : MessageKind
  payloadJson : String
  macHex : String
deriving DecidableEq

inductive ProtocolError where
  | frameTooLarge
  | malformedFrame
  | protocolMismatch
  | identityMismatch
  | leaseMismatch
  | invalidTimestamp
  | replayDetected
  | authenticationFailed
  | invalidKey
  | malformedPayload

/-- `IpcKey`: a key of the length of keys. -/
structure IpcKey where
  bytes : List UInt8
  size : bytes.length = ipcKeyBytes

/-- `IpcKey::from_bytes`. -/
def IpcKey.fromBytes (bytes : List UInt8) : Except ProtocolError IpcKey :=
  if size : bytes.length = ipcKeyBytes then .ok ⟨bytes, size⟩ else .error .invalidKey

/-! ## Seals -/

/-- The HMAC of a message under a key. -/
abbrev Hmac : Type := List UInt8 → List UInt8 → List UInt8

/-- The bytes of a text. -/
def utf8 (value : String) : List UInt8 := value.toUTF8.data.toList

/-- The fields under the seal, in order: everything but the seal. -/
def AuthenticatedFrame.sealedFields (frame : AuthenticatedFrame) : List String :=
  [toString frame.protocolVersion.toNat, frame.workerId, frame.accountId, toString frame.leaseGeneration.toNat,
    frame.messageId, toString frame.sentAtMs.toNat, toString frame.expiresAtMs.toNat, toString frame.sequence.toNat,
    frame.kind.asStr, frame.payloadJson]

/-- `frame_signing_bytes`. -/
def frameSigningBytes (frame : AuthenticatedFrame) : Except ProtocolError (List UInt8) := do
  let fields := frame.sealedFields.map utf8
  refuseIf (fields.any fun field => 2 ^ 32 ≤ field.length) .frameTooLarge
  let bytes := Framing.frames fields
  refuseIf (maxFrameBytes < bytes.length) .frameTooLarge
  return bytes

/-- `encode_hex`. -/
def encodeHex (bytes : List UInt8) : String :=
  String.ofList (bytes.flatMap fun byte => [hexDigit (byte.toNat / 16), hexDigit (byte.toNat % 16)])

/-- What becomes of a text read as hex digits: slicing inside a character panics. -/
inductive HexBytes where
  | decoded (bytes : List UInt8)
  | malformed
  | panics
deriving DecidableEq

/-- `u8::from_str_radix` of two characters: the first may be a plus sign. -/
def hexPair (a b : Char) : Option UInt8 :=
  if a = '+' then (hexValue b).map UInt8.ofNat
  else
    match hexValue a, hexValue b with
    | some high, some low => some (UInt8.ofNat (high * 16 + low))
    | _, _ => none

/-- The bytes of a text two at a time, up to the first pair that is none. -/
def hexPairs : List Char → HexBytes
  | [] => .decoded []
  | [a] => if a.utf8Size = 2 then .malformed else .panics
  | a :: b :: rest =>
    if a.utf8Size = 1 then
      if b.utf8Size = 1 then
        match hexPair a b with
        | none => .malformed
        | some byte =>
          match hexPairs rest with
          | .decoded bytes => .decoded (byte :: bytes)
          | other => other
      else .panics
    else if a.utf8Size = 2 then .malformed
    else .panics

/-- `decode_hex`. -/
def decodeHex (value : String) : HexBytes :=
  if value.utf8ByteSize % 2 = 0 then hexPairs value.toList else .malformed

/-! ## Signing -/

structure FrameSigner where
  key : IpcKey
  workerId : String
  nextSequence : ExtTreeMap String UInt64 compare

namespace FrameSigner

/-- `FrameSigner::new`. -/
def new (key : IpcKey) (workerId : String) : Except ProtocolError FrameSigner := do
  refuseIf (!isSafeIdentifier workerId) .identityMismatch
  return ⟨key, workerId, ∅⟩

def nextOf (signer : FrameSigner) (accountId : String) : UInt64 :=
  match signer.nextSequence[accountId]? with
  | some value => saturatingAdd value 1
  | none => 1

/-- `sign`; `payload` is the payload as the JSON library writes it, `messageId` the fresh message id. -/
def sign (hmac : Hmac) (accountId : String) (leaseGeneration : UInt64) (kind : MessageKind) (payload : Option String)
    (nowMs ttlMs : UInt64) (messageId : String) : Attempt FrameSigner ProtocolError AuthenticatedFrame := do
  Attempt.refuseIf (!isSafeIdentifier accountId || leaseGeneration = 0) .identityMismatch
  Attempt.refuseIf (ttlMs = 0 || maxFrameTtlMs < ttlMs) .invalidTimestamp
  let payloadJson ← Attempt.require payload .malformedPayload
  Attempt.refuseIf (maxFrameBytes / 2 < payloadJson.utf8ByteSize) .frameTooLarge
  let signer ← Attempt.get
  let sequence := signer.nextOf accountId
  Attempt.modify fun signer => { signer with nextSequence := signer.nextSequence.insert accountId sequence }
  let frame : AuthenticatedFrame :=
    { protocolVersion := agentProtocolVersion, workerId := signer.workerId, accountId, leaseGeneration, messageId
      sentAtMs := nowMs, expiresAtMs := saturatingAdd nowMs ttlMs, sequence, kind, payloadJson, macHex := "" }
  let bytes ← Attempt.ofExcept (frameSigningBytes frame)
  return { frame with macHex := encodeHex (hmac signer.key.bytes bytes) }

end FrameSigner

/-! ## Verifying -/

structure FrameVerifier where
  key : IpcKey
  workerId : String
  lastSequence : ExtTreeMap String UInt64 compare

/-- How a frame is turned away: with an error, or by a panic. -/
inductive Fault where
  | protocol (error : ProtocolError)
  | panic

namespace FrameVerifier

/-- `FrameVerifier::new`. -/
def new (key : IpcKey) (workerId : String) : Except ProtocolError FrameVerifier := do
  refuseIf (!isSafeIdentifier workerId) .identityMismatch
  return ⟨key, workerId, ∅⟩

/-- The last sequence number accepted for an account. -/
def lastOf (verifier : FrameVerifier) (accountId : String) : UInt64 := verifier.lastSequence[accountId]?.getD 0

def sealBytes (frame : AuthenticatedFrame) : Except Fault (List UInt8) :=
  match decodeHex frame.macHex with
  | .decoded bytes => .ok bytes
  | .malformed => .error (.protocol .authenticationFailed)
  | .panics => .error .panic

def checkSeal (hmac : Hmac) (key : IpcKey) (frame : AuthenticatedFrame) : Except Fault Unit := do
  let mac ← sealBytes frame
  let bytes ← (frameSigningBytes frame).mapError .protocol
  refuseIf (mac ≠ hmac key.bytes bytes) (.protocol .authenticationFailed)

/-- `verify`; `decode` reads the payload as the type that is asked for. -/
def verify {T : Type} (hmac : Hmac) (decode : String → Option T) (frame : AuthenticatedFrame) (expectedAccountId : String)
    (expectedLeaseGeneration nowMs : UInt64) : Attempt FrameVerifier Fault T := do
  let verifier ← Attempt.get
  Attempt.refuseIf (frame.protocolVersion ≠ agentProtocolVersion) (.protocol .protocolMismatch)
  Attempt.refuseIf (frame.workerId ≠ verifier.workerId || frame.accountId ≠ expectedAccountId
    || !isSafeIdentifier frame.accountId) (.protocol .identityMismatch)
  Attempt.refuseIf (expectedLeaseGeneration = 0 || frame.leaseGeneration ≠ expectedLeaseGeneration)
    (.protocol .leaseMismatch)
  Attempt.refuseIf (frame.expiresAtMs < nowMs || saturatingAdd nowMs maxFutureSkewMs < frame.sentAtMs
    || frame.expiresAtMs < frame.sentAtMs || maxFrameTtlMs < saturatingSub frame.expiresAtMs frame.sentAtMs)
    (.protocol .invalidTimestamp)
  Attempt.refuseIf (frame.sequence ≤ verifier.lastOf expectedAccountId) (.protocol .replayDetected)
  Attempt.ofExcept (checkSeal hmac verifier.key frame)
  let payload ← Attempt.require (decode frame.payloadJson) (.protocol .malformedPayload)
  Attempt.modify fun verifier =>
    { verifier with lastSequence := verifier.lastSequence.insert expectedAccountId frame.sequence }
  return payload

end FrameVerifier

/-! ## Lines -/

/-- The JSON library: a value as its text, and a text as its value. -/
structure SerdeJson where
  toString : Json → Option String
  fromStr : String → Option Json

/-- It writes compact JSON, and reads whatever is JSON and not nested beyond its limit. -/
structure SerdeJson.Conforms (serde : SerdeJson) : Prop where
  writes : ∀ value, serde.toString value = some (text value)
  reads : ∀ input value, read input = some value → value.depth < 128 → serde.fromStr input = some value

/-- A value read as a `u32`. -/
def asU32 : Json → Option UInt32
  | .natural n => if n < 2 ^ 32 then some (UInt32.ofNat n) else none
  | _ => none

/-- A value read as a `u64`. -/
def asU64 : Json → Option UInt64
  | .natural n => if n < 2 ^ 64 then some (UInt64.ofNat n) else none
  | _ => none

def asString : Json → Option String
  | .string value => some value
  | _ => none

def asMessageKind : Json → Option MessageKind
  | .string name => MessageKind.ofStr name
  | .object [(name, .null)] => MessageKind.ofStr name
  | _ => none

def membersOf (members : List (String × Json)) (name : String) : List Json :=
  members.filterMap fun member => if member.1 = name then some member.2 else none

def field {T : Type} (members : List (String × Json)) (name : String) (decode : Json → Option T) : Option T :=
  match membersOf members name with
  | [value] => decode value
  | _ => none

namespace AuthenticatedFrame

/-- The derived `Serialize`. -/
def toJson (frame : AuthenticatedFrame) : Json :=
  .object [
    ("protocol_version", .natural frame.protocolVersion.toNat),
    ("worker_id", .string frame.workerId),
    ("account_id", .string frame.accountId),
    ("lease_generation", .natural frame.leaseGeneration.toNat),
    ("message_id", .string frame.messageId),
    ("sent_at_ms", .natural frame.sentAtMs.toNat),
    ("expires_at_ms", .natural frame.expiresAtMs.toNat),
    ("sequence", .natural frame.sequence.toNat),
    ("kind", .string frame.kind.asStr),
    ("payload_json", .string frame.payloadJson),
    ("mac_hex", .string frame.macHex)]

/-- A frame of its members: each field once, others passed over. -/
def ofMembers (members : List (String × Json)) : Option AuthenticatedFrame := do
  let protocolVersion ← field members "protocol_version" asU32
  let workerId ← field members "worker_id" asString
  let accountId ← field members "account_id" asString
  let leaseGeneration ← field members "lease_generation" asU64
  let messageId ← field members "message_id" asString
  let sentAtMs ← field members "sent_at_ms" asU64
  let expiresAtMs ← field members "expires_at_ms" asU64
  let sequence ← field members "sequence" asU64
  let kind ← field members "kind" asMessageKind
  let payloadJson ← field members "payload_json" asString
  let macHex ← field members "mac_hex" asString
  return { protocolVersion, workerId, accountId, leaseGeneration, messageId, sentAtMs, expiresAtMs, sequence, kind
           payloadJson, macHex }

def fieldNames : List String :=
  ["protocol_version", "worker_id", "account_id", "lease_generation", "message_id", "sent_at_ms", "expires_at_ms",
    "sequence", "kind", "payload_json", "mac_hex"]

/-- The derived `Deserialize`: an object, or the fields in a row. -/
def ofJson : Json → Option AuthenticatedFrame
  | .object members => ofMembers members
  | .array items => if items.length = fieldNames.length then ofMembers (fieldNames.zip items) else none
  | _ => none

end AuthenticatedFrame

/-- `frame_to_line`. -/
def frameToLine (serde : SerdeJson) (frame : AuthenticatedFrame) : Except ProtocolError String := do
  let line ← Fallible.require (serde.toString frame.toJson) .malformedFrame
  refuseIf (maxFrameBytes < line.utf8ByteSize) .frameTooLarge
  return line

/-- `frame_from_line`. -/
def frameFromLine (serde : SerdeJson) (line : String) : Except ProtocolError AuthenticatedFrame := do
  refuseIf (maxFrameBytes < line.utf8ByteSize) .frameTooLarge
  Fallible.require ((serde.fromStr line).bind AuthenticatedFrame.ofJson) .malformedFrame

end MarketLens.VmAgent
