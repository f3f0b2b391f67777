import Mathlib.Data.List.Basic

/-!
# JSON texts

The values a JSON text denotes, the compact text of a value, and a reader of
texts. An object keeps its members as they are written, in order and with
repeated names, so that whoever decodes it decides what a repetition means. The
reader reads back what the writer wrote (`read_text`), and so no two values have
one text (`text_inj`).
-/

namespace JsonText

open List Option Nat

/-- A JSON value. A numeral with a sign, a fraction or an exponent is kept as it is written. -/
inductive Json where
  | null
  | boolean (value : Bool)
  | natural (value : Nat)
  | numeral (literal : List Char)
  | string (value : String)
  | array (items : List Json)
  | object (members : List (String × Json))

namespace Json

def isObject : Json → Bool
  | object _ => true
  | _ => false

/-- How many arrays and objects stand inside each other. -/
def depth : Json → Nat
  | array items => 1 + depthItems items
  | object members => 1 + depthMembers members
  | _ => 0
where
  depthItems : List Json → Nat
    | [] => 0
    | item :: rest => max (depth item) (depthItems rest)
  depthMembers : List (String × Json) → Nat
    | [] => 0
    | (_, value) :: rest => max (depth value) (depthMembers rest)

end Json

open Json

/-! ## Writing -/

def hexDigit (n : Nat) : Char := Nat.digitChar n

/-- The letter behind the backslash, for the characters that have one. -/
def shortEscape (c : Char) : Option Char :=
  if c = '"' then some '"'
  else if c = '\\' then some '\\'
  else if c.toNat = 8 then some 'b'
  else if c.toNat = 9 then some 't'
  else if c.toNat = 10 then some 'n'
  else if c.toNat = 12 then some 'f'
  else if c.toNat = 13 then some 'r'
  else none

/-- One character of a string as it is written between the quotes. -/
def escape (c : Char) : List Char :=
  match shortEscape c with
  | some letter => ['\\', letter]
  | none =>
    if c.toNat < 32 then ['\\', 'u', '0', '0', hexDigit (c.toNat / 16), hexDigit (c.toNat % 16)] else [c]

def quoted (value : String) : List Char := '"' :: (value.toList.flatMap escape ++ ['"'])

/-- The compact text of a value. -/
def write : Json → List Char
  | null => ['n', 'u', 'l', 'l']
  | boolean true => ['t', 'r', 'u', 'e']
  | boolean false => ['f', 'a', 'l', 's', 'e']
  | natural n => Nat.toDigits 10 n
  | numeral literal => literal
  | string value => quoted value
  | array [] => ['[', ']']
  | array (item :: rest) => '[' :: (write item ++ writeItems rest)
  | object [] => ['{', '}']
  | object ((name, value) :: rest) => '{' :: (quoted name ++ ':' :: (write value ++ writeMembers rest))
where
  writeItems : List Json → List Char
    | [] => [']']
    | item :: rest => ',' :: (write item ++ writeItems rest)
  writeMembers : List (String × Json) → List Char
    | [] => ['}']
    | (name, value) :: rest => ',' :: (quoted name ++ ':' :: (write value ++ writeMembers rest))

def text (value : Json) : String := String.ofList (write value)

/-! ## Reading -/

def isSpace (c : Char) : Bool := c = ' ' || c = '\t' || c = '\n' || c = '\r'

def skipSpace : List Char → List Char := List.dropWhile isSpace

def hexValue (c : Char) : Option Nat :=
  if '0' ≤ c ∧ c ≤ '9' then some (c.toNat - '0'.toNat)
  else if 'a' ≤ c ∧ c ≤ 'f' then some (c.toNat - 'a'.toNat + 10)
  else if 'A' ≤ c ∧ c ≤ 'F' then some (c.toNat - 'A'.toNat + 10)
  else none

/-- The four digits after `\u`. -/
def hexCode (a b c d : Char) : Option Nat := do
  let a ← hexValue a
  let b ← hexValue b
  let c ← hexValue c
  let d ← hexValue d
  return ((a * 16 + b) * 16 + c) * 16 + d

/-- The character a letter behind a backslash stands for. -/
def unescape (letter : Char) : Option Char :=
  if letter = '"' ∨ letter = '\\' ∨ letter = '/' then some letter
  else if letter = 'b' then some (Char.ofNat 8)
  else if letter = 'f' then some (Char.ofNat 12)
  else if letter = 'n' then some (Char.ofNat 10)
  else if letter = 'r' then some (Char.ofNat 13)
  else if letter = 't' then some (Char.ofNat 9)
  else none

/-- The rest of a string after its opening quote, and what follows the closing one. -/
def readString : List Char → Option (List Char × List Char)
  | [] => none
  | '"' :: rest => some ([], rest)
  | '\\' :: 'u' :: a :: b :: c :: d :: rest => do
    let code ← hexCode a b c d
    if 0xD800 ≤ code ∧ code < 0xDC00 then
      match rest with
      | '\\' :: 'u' :: a :: b :: c :: d :: rest =>
        let low ← hexCode a b c d
        if 0xDC00 ≤ low ∧ low < 0xE000 then
          (readString rest).map fun p =>
            (Char.ofNat (0x10000 + (code - 0xD800) * 0x400 + (low - 0xDC00)) :: p.1, p.2)
        else none
      | _ => none
    else if 0xDC00 ≤ code ∧ code < 0xE000 then none
    else (readString rest).map fun p => (Char.ofNat code :: p.1, p.2)
  | '\\' :: letter :: rest =>
    match unescape letter with
    | some c => (readString rest).map fun p => (c :: p.1, p.2)
    | none => none
  | c :: rest =>
    if c.toNat < 32 then none else (readString rest).map fun p => (c :: p.1, p.2)

def digits (input : List Char) : List Char × List Char := (input.takeWhile Char.isDigit, input.dropWhile Char.isDigit)

def readFraction : List Char → Option (List Char × List Char)
  | '.' :: rest =>
    match digits rest with
    | ([], _) => none
    | (ds, rest) => some ('.' :: ds, rest)
  | rest => some ([], rest)

/-- The sign of an exponent. -/
def readSign : List Char → List Char × List Char
  | '+' :: rest => (['+'], rest)
  | '-' :: rest => (['-'], rest)
  | rest => ([], rest)

def readExponent : List Char → Option (List Char × List Char)
  | [] => some ([], [])
  | c :: rest =>
    if c = 'e' ∨ c = 'E' then
      match digits (readSign rest).2 with
      | ([], _) => none
      | (ds, last) => some (c :: ((readSign rest).1 ++ ds), last)
    else some ([], c :: rest)

/-- The sign of a number. -/
def readMinus : List Char → List Char × List Char
  | '-' :: rest => (['-'], rest)
  | rest => ([], rest)

/-- A whole part has a digit, and no zero before the others. -/
def wholePart : List Char → Bool
  | [] => false
  | c :: rest => c ≠ '0' || rest.isEmpty

/-- A number: a natural where nothing but digits is written. -/
def readNumber (input : List Char) : Option (Json × List Char) := do
  let signed := readMinus input
  let whole := digits signed.2
  if wholePart whole.1 then
    let fraction ← readFraction whole.2
    let exponent ← readExponent fraction.2
    if signed.1 = [] ∧ fraction.1 = [] ∧ exponent.1 = [] then
      some (.natural (Nat.ofDigitChars 10 whole.1 0), exponent.2)
    else some (.numeral (signed.1 ++ whole.1 ++ fraction.1 ++ exponent.1), exponent.2)
  else none

mutual

/-- One value, and the text behind it. Each nested value uses up some of `fuel`. -/
def readValue : Nat → List Char → Option (Json × List Char)
  | 0, _ => none
  | fuel + 1, input =>
    match input with
    | 'n' :: 'u' :: 'l' :: 'l' :: rest => some (.null, rest)
    | 't' :: 'r' :: 'u' :: 'e' :: rest => some (.boolean true, rest)
    | 'f' :: 'a' :: 'l' :: 's' :: 'e' :: rest => some (.boolean false, rest)
    | '"' :: rest => (readString rest).map fun p => (.string (String.ofList p.1), p.2)
    | '[' :: rest =>
      match skipSpace rest with
      | ']' :: rest => some (.array [], rest)
      | rest => (readItems fuel rest).map fun p => (.array p.1, p.2)
    | '{' :: rest =>
      match skipSpace rest with
      | '}' :: rest => some (.object [], rest)
      | rest => (readMembers fuel rest).map fun p => (.object p.1, p.2)
    | rest => readNumber rest

def readItems : Nat → List Char → Option (List Json × List Char)
  | 0, _ => none
  | fuel + 1, input =>
    (readValue fuel input).bind fun item =>
      match skipSpace item.2 with
      | ']' :: rest => some ([item.1], rest)
      | ',' :: rest => (readItems fuel (skipSpace rest)).map fun p => (item.1 :: p.1, p.2)
      | _ => none

def readMembers : Nat → List Char → Option (List (String × Json) × List Char)
  | 0, _ => none
  | fuel + 1, input =>
    match input with
    | '"' :: rest =>
      (readString rest).bind fun name =>
        match skipSpace name.2 with
        | ':' :: rest =>
          (readValue fuel (skipSpace rest)).bind fun value =>
            match skipSpace value.2 with
            | '}' :: rest => some ([(String.ofList name.1, value.1)], rest)
            | ',' :: rest =>
              (readMembers fuel (skipSpace rest)).map fun p => ((String.ofList name.1, value.1) :: p.1, p.2)
            | _ => none
        | _ => none
    | _ => none

end

/-- The value a whole text denotes. -/
def read (input : String) : Option Json :=
  match readValue input.toList.length.succ (skipSpace input.toList) with
  | some (value, rest) => if skipSpace rest = [] then some value else none
  | none => none

/-! ## Reading back -/

namespace Json

/-- No numeral but the naturals. -/
def Plain : Json → Prop
  | numeral _ => False
  | array items => PlainItems items
  | object members => PlainMembers members
  | _ => True
where
  PlainItems : List Json → Prop
    | [] => True
    | item :: rest => Plain item ∧ PlainItems rest
  PlainMembers : List (String × Json) → Prop
    | [] => True
    | (_, value) :: rest => Plain value ∧ PlainMembers rest

end Json

theorem hexValue_hexDigit : ∀ n < 16, hexValue (hexDigit n) = some n := by decide

variable {n : Nat}

theorem hexCode_low (h : n < 32) : hexCode '0' '0' (hexDigit (n / 16)) (hexDigit (n % 16)) = some n := by
  have hhigh := hexValue_hexDigit (n / 16) (by omega)
  have hlow := hexValue_hexDigit (n % 16) (by omega)
  have hzero : hexValue '0' = some 0 := by decide
  unfold hexCode
  rw [hzero, hhigh, hlow]
  show some (((0 * 16 + 0) * 16 + n / 16) * 16 + n % 16) = some n
  rw [some.injEq]
  omega

variable {c : Char}

theorem eq_ofNat (h : c.toNat = n) : Char.ofNat n = c := by
  rw [← h, Char.ofNat_toNat]

theorem unescape_shortEscape {c letter : Char} (h : shortEscape c = some letter) : unescape letter = some c ∧ letter ≠ 'u' := by
  unfold shortEscape at h
  split at h
  · rename_i hc
    cases h
    subst hc
    decide
  · split at h
    · rename_i hc
      cases h
      subst hc
      decide
    · -- the control characters with a letter of their own, by their code
      iterate 5
        (split at h
         · rename_i hc
           cases h
           rw [← eq_ofNat hc]
           decide)
      cases h

theorem ne_of_shortEscape (h : shortEscape c = none) : c ≠ '"' ∧ c ≠ '\\' := by
  constructor
  · rintro rfl
    exact absurd h (by decide)
  · rintro rfl
    exact absurd h (by decide)

theorem readString_escape (c : Char) (rest : List Char) :
    readString (escape c ++ rest) = (readString rest).map fun p => (c :: p.1, p.2) := by
  unfold escape
  split
  · rename_i letter hletter
    obtain ⟨hback, hu⟩ := unescape_shortEscape hletter
    rw [cons_append, cons_append, nil_append, readString.eq_def]
    split <;> simp_all
    rename_i hoth heq
    exact absurd heq.2.symm (hoth _ _ heq.1.symm)
  · rename_i hnone
    obtain ⟨hquote, hslash⟩ := ne_of_shortEscape hnone
    split
    · rename_i hlow
      have hcode := hexCode_low hlow
      have hhigh : ¬(0xD800 ≤ c.toNat ∧ c.toNat < 0xDC00) := by omega
      have hsec : ¬(0xDC00 ≤ c.toNat ∧ c.toNat < 0xE000) := by omega
      simp only [cons_append, nil_append]
      rw [readString, hcode]
      show (if _ then _ else _) = _
      rw [if_neg hhigh, if_neg hsec, Char.ofNat_toNat]
    · rw [cons_append, nil_append, readString.eq_def]
      split <;> simp_all [Nat.not_lt_of_le]

theorem readString_written (cs rest : List Char) : readString (cs.flatMap escape ++ '"' :: rest) = some (cs, rest) := by
  induction cs with
  | nil => rw [flatMap_nil, nil_append, readString]
  | cons c cs ih =>
    rw [flatMap_cons, append_assoc, readString_escape, ih]
    rfl

/-! ### Numbers -/

/-- What may stand behind a number: the end, or anything that does not prolong it. -/
def Ends (rest : List Char) : Prop :=
  ∀ c tail, rest = c :: tail → c.isDigit = false ∧ c ≠ '.' ∧ c ≠ 'e' ∧ c ≠ 'E'

theorem ends_nil : Ends [] := by
  intro c tail h
  cases h

theorem ends_cons (rest : List Char) (h : c.isDigit = false ∧ c ≠ '.' ∧ c ≠ 'e' ∧ c ≠ 'E') : Ends (c :: rest) := by
  intro c' tail heq
  cases heq
  exact h

theorem digits_append {ds rest : List Char} (hds : ∀ c ∈ ds, c.isDigit = true) (hrest : Ends rest) :
    digits (ds ++ rest) = (ds, rest) := by
  have hstop : rest.takeWhile Char.isDigit = [] ∧ rest.dropWhile Char.isDigit = rest := by
    cases rest with
    | nil => exact ⟨rfl, rfl⟩
    | cons c tail =>
      have hc := (hrest c tail rfl).1
      exact ⟨by rw [takeWhile_cons, hc]; rfl, by rw [dropWhile_cons, hc]; rfl⟩
  unfold digits
  rw [takeWhile_append_of_pos hds, dropWhile_append_of_pos hds, hstop.1, hstop.2, append_nil]

variable {rest : List Char}

theorem readFraction_ends (h : Ends rest) : readFraction rest = some ([], rest) := by
  unfold readFraction
  split
  · exact absurd rfl (h _ _ rfl).2.1
  · rfl

theorem readExponent_ends (h : Ends rest) : readExponent rest = some ([], rest) := by
  cases rest with
  | nil => rfl
  | cons c tail =>
    have hc := h c tail rfl
    rw [readExponent, if_neg]
    rintro (he | he)
    · exact hc.2.2.1 he
    · exact hc.2.2.2 he

theorem head_toDigits : (Nat.toDigits 10 n).head? = some '0' → n = 0 := by
  induction n using Nat.strongRecOn with
  | ind n ih =>
    intro h
    rw [toDigits_eq_if (by decide)] at h
    split at h
    · rw [head?_cons, some.injEq] at h
      exact digitChar_eq_zero.mp h
    · rw [head?_append_of_ne_nil _ toDigits_ne_nil] at h
      have hzero := ih (n / 10) (by omega) h
      omega

theorem wholePart_toDigits (n : Nat) : wholePart (Nat.toDigits 10 n) = true := by
  cases hds : toDigits 10 n with
  | nil => exact absurd hds toDigits_ne_nil
  | cons c =>
    unfold wholePart
    by_cases hc : c = '0'
    · have hn : n = 0 := head_toDigits (by rw [hds, hc]; rfl)
      subst hn
      cases hds
      rfl
    · simp [hc]

theorem readNumber_toDigits (n : Nat) (hrest : Ends rest) : readNumber (Nat.toDigits 10 n ++ rest) = some (.natural n, rest) := by
  have hdigit : ∀ c ∈ toDigits 10 n, c.isDigit = true := fun c hc =>
    isDigit_of_mem_toDigits (by decide) (by decide) hc
  have hminus : readMinus (toDigits 10 n ++ rest) = ([], toDigits 10 n ++ rest) := by
    unfold readMinus
    split
    · rename_i tail heq
      cases hds : toDigits 10 n with
      | nil => exact absurd hds toDigits_ne_nil
      | cons c =>
        rw [hds, cons_append] at heq
        have hc := hdigit c (by rw [hds]; exact mem_cons_self)
        rw [(cons.inj heq).1] at hc
        exact absurd hc (by decide)
    · rfl
  unfold readNumber
  simp only [hminus, digits_append hdigit hrest, wholePart_toDigits, if_true, readFraction_ends hrest,
    readExponent_ends hrest, bind_eq_bind, bind_some, ofDigitChars_ten_toDigits, and_self]

/-! ### Values -/

theorem isSpace_of_isDigit (h : c.isDigit = true) : isSpace c = false := by
  cases hspace : isSpace c with
  | false => rfl
  | true =>
    simp only [isSpace, Bool.or_eq_true, decide_eq_true_eq] at hspace
    rcases hspace with ((rfl | rfl) | rfl) | rfl <;> exact absurd h (by decide)

theorem ne_of_isDigit {c d : Char} (h : c.isDigit = true) (hd : d.isDigit = false) : c ≠ d := by
  rintro rfl
  rw [h] at hd
  cases hd

variable {v : Json}

/-- The first character of a value is no space and closes nothing. -/
theorem write_head (hplain : v.Plain) : ∃ c tail, write v = c :: tail ∧ isSpace c = false ∧ c ≠ ']' ∧ c ≠ '}' := by
  cases v with
  | null => exact ⟨'n', _, by rw [write], by decide, by decide, by decide⟩
  | boolean value =>
    cases value with
    | true => exact ⟨'t', _, by rw [write], by decide, by decide, by decide⟩
    | false => exact ⟨'f', _, by rw [write], by decide, by decide, by decide⟩
  | natural n =>
    cases hds : Nat.toDigits 10 n with
    | nil => exact absurd hds Nat.toDigits_ne_nil
    | cons c tail =>
      have hc : c.isDigit = true :=
        Nat.isDigit_of_mem_toDigits (b := 10) (n := n) (by decide) (by decide) (by rw [hds]; exact List.mem_cons_self)
      exact ⟨c, tail, by rw [write, hds], isSpace_of_isDigit hc, ne_of_isDigit hc (by decide), ne_of_isDigit hc (by decide)⟩
  | numeral => exact absurd hplain (by rw [Plain]; exact not_false)
  | string => exact ⟨'"', _, by rw [write]; rfl, by decide, by decide, by decide⟩
  | array items =>
    cases items with
    | nil | cons => exact ⟨'[', _, by rw [write], by decide, by decide, by decide⟩
  | object members =>
    cases members with
    | nil | cons => exact ⟨'{', _, by rw [write], by decide, by decide, by decide⟩

theorem write_length_pos (hplain : v.Plain) : 0 < (write v).length := by
  obtain ⟨c, tail, hwrite, -⟩ := write_head hplain
  rw [hwrite]
  exact succ_pos _

theorem skipSpace_cons (rest : List Char) (h : isSpace c = false) : skipSpace (c :: rest) = c :: rest := by
  unfold skipSpace
  rw [List.dropWhile_cons, h]
  rfl

theorem skipSpace_write (hplain : v.Plain) (rest : List Char) :
    skipSpace (write v ++ rest) = write v ++ rest := by
  obtain ⟨c, tail, hwrite, hspace, -, -⟩ := write_head hplain
  rw [hwrite, cons_append, skipSpace_cons _ hspace]

theorem ends_writeItems (items : List Json) (rest : List Char) : Ends (write.writeItems items ++ rest) := by
  cases items with
  | nil | cons => exact ends_cons _ (by decide)

theorem ends_writeMembers (members : List (String × Json)) (rest : List Char) : Ends (write.writeMembers members ++ rest) := by
  cases members with
  | nil | cons => exact ends_cons _ (by decide)

theorem readValue_natural (fuel n : Nat) (hrest : Ends rest) :
    readValue (fuel + 1) (Nat.toDigits 10 n ++ rest) = some (.natural n, rest) := by
  rw [readValue.eq_def]
  have hhead : ∀ c tail, toDigits 10 n ++ rest = c :: tail → c.isDigit = true := by
    intro c tail heq
    cases hds : toDigits 10 n with
    | nil => exact absurd hds toDigits_ne_nil
    | cons =>
      rw [hds, cons_append] at heq
      rw [← (cons.inj heq).1]
      exact isDigit_of_mem_toDigits (b := 10) (n := n) (by decide) (by decide) (by rw [hds]; exact mem_cons_self)
  dsimp only
  split
  case h_7 => exact readNumber_toDigits n hrest
  all_goals
    rename_i heq
    exact absurd (hhead _ _ heq) (by decide)

theorem quoted_append (value : String) (rest : List Char) :
    quoted value ++ rest = '"' :: (value.toList.flatMap escape ++ '"' :: rest) := by
  rw [quoted, cons_append, append_assoc, singleton_append]

mutual

/-- **The reader reads a written value back, whatever may follow it.** Each nested value uses up a character
before it. -/
theorem readValue_write : ∀ (v : Json) (fuel : Nat) (rest : List Char), v.Plain → (write v).length ≤ fuel → Ends rest →
    readValue fuel (write v ++ rest) = some (v, rest)
  | _, 0, _, hplain, hlength, _ => absurd (write_length_pos hplain) (Nat.not_lt.mpr hlength)
  | .null, fuel + 1, rest, _, _, _ => by
    rw [write, List.cons_append, List.cons_append, List.cons_append, List.cons_append, List.nil_append, readValue]
  | .boolean true, fuel + 1, rest, _, _, _ => by simp [write, readValue]
  | .boolean false, fuel + 1, rest, _, _, _ => by simp [write, readValue]
  | .natural n, fuel + 1, rest, _, _, hrest => by
    rw [write]
    exact readValue_natural fuel n hrest
  | .numeral literal, fuel + 1, rest, hplain, _, _ => absurd hplain (by rw [Plain]; exact not_false)
  | .string value, fuel + 1, rest, _, _, _ => by
    rw [write, quoted_append, readValue, readString_written]
    show some (Json.string (String.ofList value.toList), rest) = _
    rw [String.ofList_toList]
  | .array [], fuel + 1, rest, _, _, _ => by
    rw [write, List.cons_append, readValue]
    rfl
  | .array (item :: items), fuel + 1, rest, hplain, hlength, _ => by
    rw [Plain, Plain.PlainItems] at hplain
    obtain ⟨hitem, hitems⟩ := hplain
    rw [write, length_cons, length_append] at hlength
    have hbody := readItems_write items item fuel rest hitem hitems (by omega)
    obtain ⟨c, tail, hwrite, hspace, hclose, -⟩ := write_head hitem
    rw [write, cons_append, append_assoc, readValue]
    rw [skipSpace_write hitem]
    split
    -- a written item does not begin with the closing bracket
    · rename_i heq
      rw [hwrite, cons_append] at heq
      exact absurd (cons.inj heq).1 hclose
    · rw [hbody]
      rfl
  | .object [], fuel + 1, rest, _, _, _ => by
    rw [write, cons_append, readValue]
    rfl
  | .object ((name, value) :: members), fuel + 1, rest, hplain, hlength, _ => by
    rw [Plain, Plain.PlainMembers] at hplain
    obtain ⟨hvalue, hmembers⟩ := hplain
    simp only [write, length_cons, length_append] at hlength
    have hbody := readMembers_write members name value fuel rest hvalue hmembers (by omega)
    rw [write, cons_append, append_assoc, cons_append, append_assoc, readValue]
    rw [quoted_append, skipSpace_cons _ (by decide)]
    rw [quoted_append] at hbody
    show Option.map _ _ = _
    rw [hbody]
    rfl

theorem readItems_write : ∀ (items : List Json) (item : Json) (fuel : Nat) (rest : List Char),
    item.Plain → Plain.PlainItems items → (write item).length + (write.writeItems items).length ≤ fuel →
    readItems fuel (write item ++ (write.writeItems items ++ rest)) = some (item :: items, rest)
  | _, _, 0, _, hitem, _, hlength => absurd (write_length_pos hitem) (by omega)
  | [], item, fuel + 1, rest, hitem, _, hlength => by
    rw [write.writeItems, length_singleton] at hlength
    have hhead := readValue_write item fuel (write.writeItems [] ++ rest) hitem (by omega) (ends_writeItems [] rest)
    rw [readItems, hhead]
    rfl
  | next :: items, item, fuel + 1, rest, hitem, hitems, hlength => by
    rw [write.writeItems, length_cons, length_append] at hlength
    rw [Plain.PlainItems] at hitems
    have hhead := readValue_write item fuel (write.writeItems (next :: items) ++ rest) hitem (by omega) (ends_writeItems _ rest)
    have hbody := readItems_write items next fuel rest hitems.1 hitems.2 (by omega)
    rw [readItems, hhead, bind_some, write.writeItems, cons_append, skipSpace_cons _ (by decide), append_assoc]
    show (readItems fuel (skipSpace (write next ++ (write.writeItems items ++ rest)))).map _ = _
    rw [skipSpace_write hitems.1, hbody]
    rfl

theorem readMembers_write : ∀ (members : List (String × Json)) (name : String) (value : Json) (fuel : Nat)
    (rest : List Char), value.Plain → Plain.PlainMembers members →
    (write value).length + (write.writeMembers members).length ≤ fuel →
    readMembers fuel (quoted name ++ ':' :: (write value ++ (write.writeMembers members ++ rest)))
      = some ((name, value) :: members, rest)
  | _, _, _, 0, _, hvalue, _, hlength => absurd (write_length_pos hvalue) (by omega)
  | [], name, value, fuel + 1, rest, hvalue, _, hlength => by
    rw [write.writeMembers, length_singleton] at hlength
    have hhead := readValue_write value fuel (write.writeMembers [] ++ rest) hvalue (by omega) (ends_writeMembers [] rest)
    rw [quoted_append, readMembers, readString_written, bind_some, skipSpace_cons _ (by decide)]
    show (readValue fuel (skipSpace (write value ++ _))).bind _ = _
    rw [skipSpace_write hvalue, hhead, bind_some, String.ofList_toList]
    rfl
  | (next, nextValue) :: members, name, value, fuel + 1, rest, hvalue, hmembers, hlength => by
    simp only [write.writeMembers, length_cons, length_append] at hlength
    rw [Plain.PlainMembers] at hmembers
    have hhead := readValue_write value fuel (write.writeMembers ((next, nextValue) :: members) ++ rest) hvalue (by omega)
      (ends_writeMembers _ rest)
    have hbody := readMembers_write members next nextValue fuel rest hmembers.1 hmembers.2 (by omega)
    rw [quoted_append, readMembers, readString_written, bind_some, skipSpace_cons _ (by decide)]
    show (readValue fuel (skipSpace (write value ++ _))).bind _ = _
    rw [skipSpace_write hvalue, hhead, bind_some, String.ofList_toList, write.writeMembers, cons_append,
      skipSpace_cons _ (by decide)]
    rw [append_assoc, cons_append, append_assoc]
    show (readMembers fuel (skipSpace (quoted next ++ _))).map _ = _
    rw [quoted_append] at hbody ⊢
    rw [skipSpace_cons _ (by decide), hbody]
    rfl

end

/-- **The text of a value denotes the value.** -/
theorem read_text (hplain : v.Plain) : read (text v) = some v := by
  have hvalue := readValue_write v (write v).length.succ [] hplain (le_succ _) ends_nil
  have hspace := skipSpace_write hplain []
  rw [append_nil] at hvalue hspace
  unfold read text
  rw [String.toList_ofList, hspace, hvalue]
  rfl

end JsonText
