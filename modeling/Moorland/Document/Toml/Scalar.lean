import Moorland.Decimal.Shortest
import Moorland.Document.Toml.Tree
import Moorland.Text.Hexadecimal
/-!
# The scalars of TOML

Every function here reads something at the start of a text and gives what it read with the rest of
the text. Numbers and dates begin alike; `Moorland.Toml.takeNumeric?` tells them apart by what
follows the first digits, and once it is clear what is meant a mistake is final.

Texts come in four kinds, with one or three quotes of two sorts. Between double quotes a backslash
is an escape; between three quotes lines may end.
-/

namespace Moorland.Toml

open Text (hexValue?)

/-! ### Characters -/

/-- White space within a line. -/
def isBlank (c : Char) : Bool := c = ' ' || c = '\t'

/-- The character may stand in a comment: a tab, or no control character. -/
def isPrintable (c : Char) : Bool := c = '\t' || (0x20 ≤ c.toNat && c.toNat ≠ 0x7F)

/-- The rest of a text after the white space within the line. -/
def skipBlank (s : List Char) : List Char := s.dropWhile isBlank

/-- The rest of a text after the end of a line, which may have a carriage return. -/
def newline? : List Char → Option (List Char)
  | '\n' :: s => some s
  | '\r' :: '\n' :: s => some s
  | _ => none

/-- The rest of a text after a comment, if one starts it. -/
def skipComment : List Char → List Char
  | '#' :: s => s.dropWhile isPrintable
  | s => s

/-- **The rest of a text after what may follow a value on its line**: white space, a comment, and
the end of the line or of the text. -/
def endLine? (s : List Char) : Option (List Char) :=
  match skipComment (skipBlank s) with
  | [] => some []
  | s => newline? s

/-! ### Texts -/

/-- The character with a number given by exactly `count` hexadecimal digits. -/
def takeHex? (n : Nat) : (count : Nat) → List Char → Option (Char × List Char)
  | 0, s => if n.isValidChar then some (Char.ofNat n, s) else none
  | count + 1, c :: s => do takeHex? (n * 16 + (← hexValue? c)) count s
  | _ + 1, [] => none

/-- The character that an escape stands for, after its backslash. -/
def takeEscape? : List Char → Option (Char × List Char)
  | 'b' :: s => some ('\x08', s)
  | 'f' :: s => some ('\x0c', s)
  | 'n' :: s => some ('\n', s)
  | 'r' :: s => some ('\r', s)
  | 't' :: s => some ('\t', s)
  | '\\' :: s => some ('\\', s)
  | '"' :: s => some ('"', s)
  | 'u' :: s => takeHex? 0 4 s
  | 'U' :: s => takeHex? 0 8 s
  | _ => none

/-- The rest of a line after an opening double quote, up to the closing one. Each of at most `fuel`
steps reads one character. -/
def takeBasic? (acc : List Char) : (fuel : Nat) → List Char → Option (List Char × List Char)
  | 0, _ => none
  | fuel + 1, s =>
    match s with
    | [] => none
    | '"' :: s => some (acc.reverse, s)
    | '\\' :: s => do
      let (c, s) ← takeEscape? s
      takeBasic? (c :: acc) fuel s
    | c :: s => if isPrintable c then takeBasic? (c :: acc) fuel s else none

/-- The rest of a line after an opening single quote, up to the closing one. -/
def takeLiteral? (acc : List Char) : List Char → Option (List Char × List Char)
  | [] => none
  | '\'' :: s => some (acc.reverse, s)
  | c :: s => if isPrintable c then takeLiteral? (c :: acc) s else none

/-- The rest of a text after white space and ends of lines. -/
def skipBlankLines : List Char → List Char
  | ' ' :: s | '\t' :: s | '\n' :: s => skipBlankLines s
  | '\r' :: '\n' :: s => skipBlankLines s
  | s => s

/-- The rest of a text after a backslash that joins lines: white space and the end of the line, and
any more of both. -/
def joinLines? (s : List Char) : Option (List Char) :=
  (newline? (skipBlank s)).map skipBlankLines

/-- **The end of a text in three quotes**, after the third. Up to two quotes more belong to the
text; a sixth cannot be read. -/
def closeThree? (quote : Char) (acc : List Char) : List Char → Option (List Char × List Char)
  | a :: b :: c :: s =>
    if a = quote ∧ b = quote then
      if c = quote then none else some ((quote :: quote :: acc).reverse, c :: s)
    else if a = quote then some ((quote :: acc).reverse, b :: c :: s)
    else some (acc.reverse, a :: b :: c :: s)
  | [a, b] =>
    if a = quote ∧ b = quote then some ((quote :: quote :: acc).reverse, [])
    else if a = quote then some ((quote :: acc).reverse, [b])
    else some (acc.reverse, [a, b])
  | [a] => if a = quote then some ((quote :: acc).reverse, []) else some (acc.reverse, [a])
  | [] => some (acc.reverse, [])

/-- The rest of a text after three double quotes, up to the closing ones. -/
def takeBasicLines? (acc : List Char) : (fuel : Nat) → List Char → Option (List Char × List Char)
  | 0, _ => none
  | fuel + 1, s =>
    match s with
    | [] => none
    | '"' :: '"' :: '"' :: s => closeThree? '"' acc s
    | '\\' :: s =>
      match joinLines? s with
      | some s => takeBasicLines? acc fuel s
      | none => do
        let (c, s) ← takeEscape? s
        takeBasicLines? (c :: acc) fuel s
    | '\n' :: s | '\r' :: '\n' :: s => takeBasicLines? ('\n' :: acc) fuel s
    | c :: s => if isPrintable c then takeBasicLines? (c :: acc) fuel s else none

/-- The rest of a text after three single quotes, up to the closing ones. -/
def takeLiteralLines? (acc : List Char) : List Char → Option (List Char × List Char)
  | [] => none
  | '\'' :: '\'' :: '\'' :: s => closeThree? '\'' acc s
  | '\n' :: s | '\r' :: '\n' :: s => takeLiteralLines? ('\n' :: acc) s
  | c :: s => if isPrintable c then takeLiteralLines? (c :: acc) s else none

/-- The rest of a text in three quotes after the end of its first line, if that is empty. -/
def skipFirstNewline (s : List Char) : List Char := (newline? s).getD s

/-- **A text of any kind.** -/
def takeText? (s : List Char) : Option (List Char × List Char) :=
  match s with
  | '"' :: '"' :: '"' :: s => takeBasicLines? [] (s.length + 1) (skipFirstNewline s)
  | '"' :: s => takeBasic? [] (s.length + 1) s
  | '\'' :: '\'' :: '\'' :: s => takeLiteralLines? [] (skipFirstNewline s)
  | '\'' :: s => takeLiteral? [] s
  | _ => none

/-! ### Keys -/

/-- The character may stand in a key without quotes. -/
def isKeyChar (c : Char) : Bool := c.isAlphanum || c = '_' || c = '-'

/-- One part of a key. -/
def takePart? (s : List Char) : Option (String × List Char) :=
  match s with
  | '"' :: s => (takeBasic? [] (s.length + 1) s).map fun (t, s) => (String.ofList t, s)
  | '\'' :: s => (takeLiteral? [] s).map fun (t, s) => (String.ofList t, s)
  | s =>
    match s.span isKeyChar with
    | ([], _) => none
    | (part, s) => some (String.ofList part, s)

/-- The parts of a key from the last to the first, after those in `acc`. -/
def takeParts? (acc : List String) : (fuel : Nat) → List Char → Option (List String × List Char)
  | 0, _ => none
  | fuel + 1, s => do
    let (part, s) ← takePart? (skipBlank s)
    match skipBlank s with
    | '.' :: s => takeParts? (part :: acc) fuel s
    | s => return (part :: acc, s)

/-- The number of parts that a key stays below. -/
def maxParts : Nat := 80

/-- **A key**: its parts but the last, and the last. -/
def takeKey? (s : List Char) : Option ((List String × String) × List Char) := do
  let (parts, s) ← takeParts? [] (s.length + 1) s
  match parts with
  | [] => none
  | last :: earlier =>
    if parts.length < maxParts then return ((earlier.reverse, last), s) else none

/-! ### Numbers -/

/-- The digits that continue a number, after those in `acc`. An underscore stands between two
digits. -/
def moreDigits? (isDigit : Char → Bool) (acc : List Char) :
    List Char → Option (List Char × List Char)
  | '_' :: c :: s => if isDigit c then moreDigits? isDigit (c :: acc) s else none
  | '_' :: [] => none
  | c :: s => if isDigit c then moreDigits? isDigit (c :: acc) s else some (acc.reverse, c :: s)
  | [] => some (acc.reverse, [])

/-- A run of digits, with leading zeros allowed. -/
def takeDigits? (isDigit : Char → Bool) : List Char → Option (List Char × List Char)
  | c :: s => if isDigit c then moreDigits? isDigit [c] s else none
  | [] => none

/-- The digits of a whole number: a zero, or a run that does not start with one. -/
def takeWhole? : List Char → Option (List Char × List Char)
  | '0' :: s => some (['0'], s)
  | s => takeDigits? Char.isDigit s

/-- The number that digits stand for in a base. -/
def ofDigits (base : Nat) (digits : List Char) : Nat :=
  digits.foldl (fun n c => n * base + (hexValue? c).getD 0) 0

/-- An integer, if it fits in 64 bits with a sign. -/
def integer? (n : Int) : Option Node :=
  if Int64.minValue.toInt ≤ n ∧ n ≤ Int64.maxValue.toInt then some (.value (.integer n)) else none

/-- A sign, if one starts the text: whether it is a minus, and the rest. -/
def takeSign : List Char → Option Bool × List Char
  | '+' :: s => (some false, s)
  | '-' :: s => (some true, s)
  | s => (none, s)

/-- An exponent after its letter. -/
def takeExponent? (s : List Char) : Option (Int × List Char) := do
  let (sign, s) := takeSign s
  let (digits, s) ← takeDigits? Char.isDigit s
  let n : Int := ofDigits 10 digits
  return (if sign = some true then -n else n, s)

/-- **A number in double precision**, nearest to a decimal. What is too large to be finite is
refused unless it is negative. -/
def number? (negative : Bool) (whole fraction : List Char) (exponent : Int) : Option Node :=
  let size := Decimal.toDouble ⟨ofDigits 10 (whole ++ fraction), exponent - fraction.length⟩
  if negative then some (.value (.number (-size)))
  else if size.isInf then none
  else some (.value (.number size))

/-- **What follows the digits of a whole number**: a fraction, an exponent, both, or neither. -/
def takeTail? (negative : Bool) (whole : List Char) : List Char → Option (Node × List Char)
  | '.' :: s => do
    let (fraction, s) ← takeDigits? Char.isDigit s
    match s with
    | 'e' :: s | 'E' :: s =>
      let (exponent, s) ← takeExponent? s
      return (← number? negative whole fraction exponent, s)
    | s => return (← number? negative whole fraction 0, s)
  | 'e' :: s | 'E' :: s => do
    let (exponent, s) ← takeExponent? s
    return (← number? negative whole [] exponent, s)
  | s => do
    let n : Int := ofDigits 10 whole
    return (← integer? (if negative then -n else n), s)

/-- An integer in another base, after its prefix. -/
def takeBased? (base : Nat) (isDigit : Char → Bool) (s : List Char) :
    Option (Node × List Char) := do
  let (digits, s) ← takeDigits? isDigit s
  return (← integer? (ofDigits base digits), s)

/-- **An infinity or a NaN**, with the sign that it was given. -/
def takeSpecial? (negative : Bool) : List Char → Option (Node × List Char)
  | 'i' :: 'n' :: 'f' :: s =>
    some (.value (.number (if negative then -1 / 0 else 1 / 0)), s)
  | 'n' :: 'a' :: 'n' :: s => some (.value (.number (0 / 0)), s)
  | _ => none

/-! ### Dates and times -/

/-- Two digits whose value is in a range. -/
def takeTwo? (low high : Nat) : List Char → Option (Nat × List Char)
  | a :: b :: s =>
    let n := ofDigits 10 [a, b]
    if a.isDigit ∧ b.isDigit ∧ low ≤ n ∧ n ≤ high then some (n, s) else none
  | _ => none

/-- The number of days of a month. -/
def daysOf (year month : Nat) : Nat :=
  if month = 2 then
    if year % 4 = 0 ∧ (year % 100 ≠ 0 ∨ year % 400 = 0) then 29 else 28
  else if month = 4 ∨ month = 6 ∨ month = 9 ∨ month = 11 then 30
  else 31

/-- The text starts with a year and a hyphen. -/
def startsDate : List Char → Bool
  | a :: b :: c :: d :: '-' :: _ => a.isDigit && b.isDigit && c.isDigit && d.isDigit
  | _ => false

/-- The text starts with an hour and a colon. -/
def startsTime : List Char → Bool
  | a :: b :: ':' :: _ => a.isDigit && b.isDigit
  | _ => false

/-- The rest of a text after a fraction of a second, if there is one. -/
def skipSecondFraction? : List Char → Option (List Char)
  | '.' :: c :: s => if c.isDigit then some (s.dropWhile Char.isDigit) else some ('.' :: c :: s)
  | s => some s

/-- The rest of a text after a time of day. -/
def skipTime? (s : List Char) : Option (List Char) := do
  let (_, s) ← takeTwo? 0 23 s
  match s with
  | ':' :: s =>
    let (_, s) ← takeTwo? 0 59 s
    match s with
    | ':' :: s =>
      let (_, s) ← takeTwo? 0 60 s
      skipSecondFraction? s
    | _ => none
  | _ => none

/-- The rest of a text after the offset of a time zone, if there is one. -/
def skipZone? : List Char → Option (List Char)
  | 'Z' :: s | 'z' :: s => some s
  | '+' :: s | '-' :: s => do
    let (_, s) ← takeTwo? 0 23 s
    match s with
    | ':' :: s => return (← takeTwo? 0 59 s).2
    | _ => none
  | s => some s

/-- The rest of a text after a date, which may be followed by a time of day and a zone. -/
def skipDate? (s : List Char) : Option (List Char) := do
  let year := ofDigits 10 (s.take 4)
  let (month, s) ← takeTwo? 1 12 (s.drop 5)
  match s with
  | '-' :: s =>
    let (day, s) ← takeTwo? 1 31 s
    if daysOf year month < day then none
    else
      match s with
      | c :: t =>
        if (c = 'T' ∨ c = 't' ∨ c = ' ') ∧ startsTime t then do skipZone? (← skipTime? t)
        else some s
      | [] => some s
  | _ => none

/-- **A number, a date or a time.** -/
def takeNumeric? (s : List Char) : Option (Node × List Char) :=
  if startsDate s then (skipDate? s).map fun s => (.value .moment, s)
  else if startsTime s then (skipTime? s).map fun s => (.value .moment, s)
  else
    match s with
    | '0' :: 'x' :: s => takeBased? 16 (fun c => (hexValue? c).isSome) s
    | '0' :: 'o' :: s => takeBased? 8 (fun c => '0' ≤ c && c ≤ '7') s
    | '0' :: 'b' :: s => takeBased? 2 (fun c => c = '0' || c = '1') s
    | s =>
      let (sign, t) := takeSign s
      let negative := sign = some true
      match takeSpecial? negative t with
      | some taken => some taken
      | none => do
        let (whole, t) ← takeWhole? t
        takeTail? negative whole t

/-- **A scalar.** -/
def takeScalar? (s : List Char) : Option (Node × List Char) :=
  match s with
  | 't' :: 'r' :: 'u' :: 'e' :: s => some (.value (.flag true), s)
  | 'f' :: 'a' :: 'l' :: 's' :: 'e' :: s => some (.value (.flag false), s)
  | '"' :: _ | '\'' :: _ => (takeText? s).map fun (t, s) => (.value (.text (String.ofList t)), s)
  | s => takeNumeric? s

end Moorland.Toml
