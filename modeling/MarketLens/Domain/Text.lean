import Mathlib.Algebra.Order.Field.Rat
import MarketLens.Lib.Fallible

/-!
# Request errors and the text checks of the gateway

Every validator of the gateway answers with an `ApiError`: an HTTP status, a
stable code and a message. The text checks below are the ones the EA batch
validators are built from. Strings are measured in UTF-8 bytes, as in the source,
and trimmed of Unicode white space.

`Decimal` is the exact rational the decimal denotes; the scale (how many trailing
zeros the broker wrote) is not kept.
-/

namespace MarketLens

open Fallible

/-- An exact decimal quantity, price or amount of money. -/
abbrev Decimal := ℚ

/-- The HTTP statuses the gateway answers with. -/
inductive StatusCode where
  | badRequest
  | unauthorized
  | forbidden
  | notFound
  | conflict
  | payloadTooLarge
  | unprocessableEntity
  | tooManyRequests
  | serviceUnavailable
  | internalServerError
deriving DecidableEq

/-- A failed request: status, stable code, message. -/
structure ApiError where
  status : StatusCode
  code : String
  message : String
deriving DecidableEq

/-- `ApiError::internal`, and what a failed statement becomes. -/
def internalError : ApiError :=
  ⟨.internalServerError, "INTERNAL_ERROR", "execution service could not complete the request"⟩

/-- Unicode `White_Space`, the characters a trim removes. -/
def isWhiteSpace (c : Char) : Bool :=
  let n := c.toNat
  (9 ≤ n && n ≤ 13) || n = 32 || n = 0x85 || n = 0xA0 || n = 0x1680 ||
    (0x2000 ≤ n && n ≤ 0x200A) || n = 0x2028 || n = 0x2029 || n = 0x202F ||
    n = 0x205F || n = 0x3000

/-- Unicode control characters (`Cc`). -/
def isControl (c : Char) : Bool :=
  c.toNat < 32 || (127 ≤ c.toNat && c.toNat < 160)

/-- The text without its leading and trailing white space. -/
def trim (value : String) : String :=
  String.ofList
    ((value.toList.dropWhile isWhiteSpace).reverse.dropWhile isWhiteSpace).reverse

def isAsciiDigit (c : Char) : Bool := '0' ≤ c && c ≤ '9'

def isAsciiAlphanumeric (c : Char) : Bool :=
  isAsciiDigit c || ('a' ≤ c && c ≤ 'z') || ('A' ≤ c && c ≤ 'Z')

/-- `validate_plain_text`: a trimmed length in bytes and no control characters. -/
def validatePlainText (field value : String) (minimum maximum : Nat) : Except ApiError Unit :=
  let value := trim value
  refuseIf
    (!(minimum ≤ value.utf8ByteSize && value.utf8ByteSize ≤ maximum)
      || value.toList.any isControl)
    ⟨.badRequest, "TEXT_FIELD_INVALID",
      field ++ " has an invalid length or contains control characters"⟩

/-- `validate_identifier`: a non-empty identifier over letters, digits and `._:-`. -/
def validateIdentifier (field value : String) (maximum : Nat) : Except ApiError Unit :=
  refuseIf
    (value.isEmpty || value.utf8ByteSize > maximum
      || !value.toList.all (fun c =>
        isAsciiAlphanumeric c || c = '.' || c = '_' || c = ':' || c = '-'))
    ⟨.badRequest, "IDENTIFIER_INVALID", field ++ " contains unsupported characters"⟩

/-- `validate_broker_ticket`: 1 to 32 digits. -/
def validateBrokerTicket (field value : String) : Except ApiError Unit :=
  refuseIf (value.isEmpty || value.utf8ByteSize > 32 || !value.toList.all isAsciiDigit)
    ⟨.badRequest, "BROKER_TICKET_INVALID", field ++ " must contain 1 to 32 digits"⟩

def validateOptionalTicket (field : String) : Option String → Except ApiError Unit
  | none => .ok ()
  | some value => validateBrokerTicket field value

end MarketLens
