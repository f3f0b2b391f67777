import MarketLens.Pine.Candles

/-!
# Colors

The named colors, color literals and what transparency makes of them, and the functions of
Go's library whose results are taken as they come: transcendental functions of a double
and the printing of numbers.
-/

namespace MarketLens.Pine

/-- Functions of the standard library on numbers and text. -/
structure Library where
  /-- `math.Exp` and its like, by their names in a script. -/
  unary : String → Decimal → Point
  sqrt : Decimal → Point
  pow : Decimal → Decimal → Point
  /-- `strconv.FormatFloat(x, 'f', -1, 64)`. -/
  decimal : Decimal → String
  /-- `fmt.Sprintf("%.*f", n, x)`. -/
  fixed : Nat → Decimal → String
  /-- `fmt.Sprintf("%g", x)`. -/
  general : Decimal → String
  lower : String → String
  upper : String → String
  /-- `time.Unix(…).In(…).Format("2006-01-02")`, in a time zone. -/
  date : Decimal → String → String

def namedColor (name : String) : Option String :=
  match name with
  | "color.blue" | "blue" => some "#2196f3"
  | "color.orange" | "orange" => some "#ff9800"
  | "color.green" | "green" => some "#4caf50"
  | "color.red" | "red" => some "#f44336"
  | "color.purple" | "purple" => some "#9c27b0"
  | "color.aqua" | "aqua" => some "#00bcd4"
  | "color.lime" | "lime" => some "#00e676"
  | "color.fuchsia" | "fuchsia" => some "#e040fb"
  | "color.maroon" | "maroon" => some "#880e4f"
  | "color.navy" | "navy" => some "#311b92"
  | "color.olive" | "olive" => some "#808000"
  | "color.teal" | "teal" => some "#00897b"
  | "color.yellow" | "yellow" => some "#fdd835"
  | "color.white" | "white" => some "#ffffff"
  | "color.black" | "black" => some "#000000"
  | "color.gray" | "gray" | "color.grey" | "grey" => some "#787b86"
  | "color.silver" | "silver" => some "#b2b5be"
  | _ => none

/-- `defaultColors[0]`, the color of what is given none. -/
def defaultColor : String := "#2962ff"

def hexDigit (c : Char) : Option Nat :=
  if '0' ≤ c && c ≤ '9' then some (c.toNat - '0'.toNat)
  else if 'a' ≤ c && c ≤ 'f' then some (c.toNat - 'a'.toNat + 10)
  else if 'A' ≤ c && c ≤ 'F' then some (c.toNat - 'A'.toNat + 10)
  else none

/-- `hexPair`; zero if a digit is not one. -/
def hexPair (digits : List Char) : Nat :=
  (digits.foldl (fun value c => value.bind fun n => (hexDigit c).map fun d => 16 * n + d) (some 0)).getD 0

/-- `scanPineColorLiteral` at the start of a text: the digits after `#`, if there are six or eight,
and the rest. -/
def scanPineColorLiteral (text : List Char) : Option (List Char × List Char) :=
  match text with
  | '#' :: rest =>
    let digits := rest.takeWhile fun c => (hexDigit c).isSome
    if digits.length = 6 || digits.length = 8 then some ('#' :: digits, rest.drop digits.length) else none
  | _ => none

/-- `parsePineColorLiteral`. -/
def parsePineColorLiteral (text : String) : Option (List Char) :=
  (scanPineColorLiteral (trim text).toList).bind fun (literal, rest) => if rest.isEmpty then some literal else none

/-- `withTransparency`. -/
def withTransparency (library : Library) (color : String) (transparency : Decimal) : String :=
  match parsePineColorLiteral color with
  | none => color
  | some literal =>
    let alpha := 1 - max 0 (min 100 transparency) / 100
    let pair := fun at_ => toString (hexPair ((literal.drop at_).take 2))
    "rgba(" ++ pair 1 ++ ", " ++ pair 3 ++ ", " ++ pair 5 ++ ", " ++ library.fixed 3 alpha ++ ")"

/-- A number scanned by `%d`, blanks before it skipped. -/
def scanInt (text : List Char) : Option (Int × List Char) :=
  let text := text.dropWhile (· = ' ')
  let (sign, text) : List Char × List Char := match text with
    | '-' :: rest => (['-'], rest)
    | '+' :: rest => ([], rest)
    | _ => ([], text)
  let digits := text.takeWhile Char.isDigit
  (parseInt (sign ++ digits)).map fun value => (value, text.drop digits.length)

/-- Three numbers scanned after a prefix, with commas between them. -/
def scanComponents (lead text : List Char) : Option (Int × Int × Int) :=
  if !lead.isPrefixOf text then none
  else
    (scanInt (text.drop lead.length)).bind fun (r, text) =>
      match text with
      | ',' :: text => (scanInt text).bind fun (g, text) =>
        match text with
        | ',' :: text => (scanInt text).map fun (b, _) => (r, g, b)
        | _ => none
      | _ => none

/-- `statefulRGBComponents`. -/
def statefulRGBComponents (color : String) : Int × Int × Int :=
  let text := (trim color).toList
  if 7 ≤ text.length && text.head? = some '#' then
    (hexPair ((text.drop 1).take 2), hexPair ((text.drop 3).take 2), hexPair ((text.drop 5).take 2))
  else
    ((scanComponents "rgba(".toList text).orElse fun _ => scanComponents "rgb(".toList text).getD (0, 0, 0)

end MarketLens.Pine
