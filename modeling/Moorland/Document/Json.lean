import Moorland.Document
import Moorland.Decimal.Style
import Moorland.Text.Hexadecimal
/-!
# JSON

Reading goes in two passes. The text is first cut into **tokens** (`Moorland.Json.tokens?`), and the
tokens are then fed one by one to a machine that keeps a stack of the lists and tables that are
still open (`Moorland.Json.Machine.feed?`). The text is a document if the machine ends with one
finished value and nothing open.

A name that is written twice in a table keeps the place of the first and the value of the last.

A number without fraction and exponent is an integer if it fits in 64 bits; any other number is the
significand, cut to 64 bits, scaled by a power of ten in double precision.
-/

namespace Moorland.Json

open Text (hexDigit hexValue?)

/-! ### Numbers -/

/-- The greatest significand, and the greatest integer. -/
def maxWord : Nat := UInt64.size - 1

/-- A power of ten in double precision. -/
def powerOfTen (n : Nat) : Float := Float.ofScientific 1 false n

/-- **A significand scaled by a power of ten**: one product or one quotient, after one quotient by
the greatest power if the exponent is too small for that. Nothing if the result is too large. -/
def scale? (significand : Nat) (exponent : Int) : Option Float :=
  let f := Float.ofNat significand
  if significand = 0 then some f
  else if 308 < exponent then none
  else if 0 ≤ exponent then
    let v := f * powerOfTen exponent.toNat
    if v.isInf then none else some v
  else if -308 ≤ exponent then some (f / powerOfTen (-exponent).toNat)
  else if -616 ≤ exponent then some (f / powerOfTen 308 / powerOfTen (-exponent - 308).toNat)
  else some 0

/-- The value of a digit. -/
def digitValue (c : Char) : Nat := c.toNat - 48

/-- **Add digits to a significand** as long as it stays within 64 bits. Gives the significand, the
number of digits added, and the number of digits from the first one that did not fit. -/
def accumulate (significand : Nat) (added : Nat) : List Char → Nat × Nat × Nat
  | [] => (significand, added, 0)
  | c :: rest =>
    let next := significand * 10 + digitValue c
    if maxWord < next then (significand, added, rest.length + 1)
    else accumulate next (added + 1) rest

/-- The value of a run of digits, or nothing if it has more than 31 bits. -/
def smallExponent? (digits : List Char) : Option Nat :=
  let n := digits.foldl (fun n c => min (UInt32.size / 2) (n * 10 + digitValue c)) 0
  if n < UInt32.size / 2 then some n else none

/-- **The parts of a number** as it is written. -/
structure NumberText where
  /-- There is a minus sign. -/
  negative : Bool
  /-- The digits before the point. -/
  whole : List Char
  /-- The digits after the point, if there is one. -/
  fraction : Option (List Char)
  /-- The sign and the digits of the exponent, if there is one. -/
  exponent : Option (Bool × List Char)

/-- The value of a number with a fraction or an exponent, or of an integer that does not fit. -/
def NumberText.double? (t : NumberText) : Option Float := do
  let (significand, _, dropped) := accumulate 0 0 t.whole
  let (significand, added, _) := accumulate significand 0 (t.fraction.getD [])
  let start : Int := (dropped : Int) - added
  let size ← match t.exponent with
    | none => scale? significand start
    | some (below, digits) =>
      match smallExponent? digits with
      | some e => scale? significand (if below then start - e else start + e)
      | none => if significand ≠ 0 ∧ !below then none else some 0
  return if t.negative then -size else size

/-- **The document of a number.** A negative integer is kept down to the least one of 64 bits; minus
zero is a number with a sign. -/
def NumberText.document? (t : NumberText) : Option Document :=
  match t.fraction, t.exponent, accumulate 0 0 t.whole with
  | none, none, (n, _, 0) =>
    if !t.negative then some (.integer n)
    else if n ≠ 0 ∧ n ≤ UInt64.size / 2 then some (.integer (-n))
    else some (.number (-(Float.ofNat n)))
  | _, _, _ => t.double?.map .number

/-- The digits at the start of a text, and the rest. -/
def takeDigits (s : List Char) : List Char × List Char := s.span Char.isDigit

/-- The fraction at the start of a text. A point without digits is refused. -/
def takeFraction? : List Char → Option (Option (List Char) × List Char)
  | '.' :: s =>
    match takeDigits s with
    | ([], _) => none
    | (digits, rest) => some (some digits, rest)
  | s => some (none, s)

/-- The digits of an exponent after its sign. -/
def takeExponentDigits? (below : Bool) (s : List Char) :
    Option (Option (Bool × List Char) × List Char) :=
  match takeDigits s with
  | ([], _) => none
  | (digits, rest) => some (some (below, digits), rest)

/-- The exponent at the start of a text. An exponent without digits is refused. -/
def takeExponent? : List Char → Option (Option (Bool × List Char) × List Char)
  | 'e' :: s | 'E' :: s =>
    match s with
    | '+' :: s => takeExponentDigits? false s
    | '-' :: s => takeExponentDigits? true s
    | s => takeExponentDigits? false s
  | s => some (none, s)

/-- **A number at the start of a text.** A whole part of more than one digit has no leading zero. -/
def takeNumber? (s : List Char) : Option (NumberText × List Char) := do
  let (negative, s) := match s with
    | '-' :: s => (true, s)
    | s => (false, s)
  let (whole, s) := takeDigits s
  match whole with
  | [] => none
  | '0' :: _ :: _ => none
  | _ =>
    let (fraction, s) ← takeFraction? s
    let (exponent, s) ← takeExponent? s
    return (⟨negative, whole, fraction, exponent⟩, s)

/-! ### Texts -/

/-- The value of four hexadecimal digits. -/
def hex4? (a b c d : Char) : Option Nat := do
  return (((← hexValue? a) * 16 + (← hexValue? b)) * 16 + (← hexValue? c)) * 16 + (← hexValue? d)

/-- The character that an escape of one letter stands for. -/
def escape? : Char → Option Char
  | '"' => some '"'
  | '\\' => some '\\'
  | '/' => some '/'
  | 'b' => some '\x08'
  | 'f' => some '\x0c'
  | 'n' => some '\n'
  | 'r' => some '\r'
  | 't' => some '\t'
  | _ => none

/-- The character of a pair of surrogates. -/
def surrogatePair? (high low : Nat) : Option Char :=
  if 0xDC00 ≤ low ∧ low < 0xE000 then
    some (Char.ofNat (0x10000 + (high - 0xD800) * 0x400 + (low - 0xDC00)))
  else none

/-- **The rest of a text after its opening quote**: its characters, and what follows the closing
quote. A half of a pair of surrogates by itself is refused, and so is a control character. -/
def takeText? (acc : List Char) : List Char → Option (List Char × List Char)
  | [] => none
  | '"' :: rest => some (acc.reverse, rest)
  | '\\' :: 'u' :: a :: b :: c :: d :: rest =>
    match hex4? a b c d with
    | none => none
    | some n =>
      if 0xD800 ≤ n ∧ n < 0xDC00 then
        match rest with
        | '\\' :: 'u' :: e :: f :: g :: h :: rest =>
          match (hex4? e f g h).bind (surrogatePair? n) with
          | some c => takeText? (c :: acc) rest
          | none => none
        | _ => none
      else if 0xDC00 ≤ n ∧ n < 0xE000 then none
      else takeText? (Char.ofNat n :: acc) rest
  | '\\' :: c :: rest =>
    match escape? c with
    | some e => takeText? (e :: acc) rest
    | none => none
  | c :: rest => if c.toNat < 0x20 then none else takeText? (c :: acc) rest

/-! ### Tokens -/

/-- **A token.** -/
inductive Token
  /-- A mark of punctuation. -/
  | mark (c : Char)
  /-- A text, which may be a value or a name. -/
  | text (s : String)
  /-- A value that is complete in one token, other than a text. -/
  | value (d : Document)

/-- White space between tokens. -/
def isBlank (c : Char) : Bool := c = ' ' || c = '\n' || c = '\t' || c = '\r'

/-- The character is a mark of punctuation. -/
def isMark (c : Char) : Bool := "[]\x7b\x7d:,".toList.contains c

/-- The token at the start of a text without white space before it, and the rest. -/
def takeToken? : List Char → Option (Token × List Char)
  | 't' :: 'r' :: 'u' :: 'e' :: rest => some (.value (.flag true), rest)
  | 'f' :: 'a' :: 'l' :: 's' :: 'e' :: rest => some (.value (.flag false), rest)
  | 'n' :: 'u' :: 'l' :: 'l' :: rest => some (.value .null, rest)
  | '"' :: rest => (takeText? [] rest).map fun (s, rest) => (.text (String.ofList s), rest)
  | c :: rest =>
    if isMark c then some (.mark c, rest)
    else do
      let (t, rest) ← takeNumber? (c :: rest)
      return (.value (← t.document?), rest)
  | [] => none

/-- Cut a text into at most `count` tokens. -/
def tokensUpTo? : (count : Nat) → List Char → Option (List Token)
  | 0, s => if s.all isBlank then some [] else none
  | count + 1, s =>
    match s.dropWhile isBlank with
    | [] => some []
    | c :: rest => do
      let (t, rest) ← takeToken? (c :: rest)
      return t :: (← tokensUpTo? count rest)

/-- **The tokens of a text.** Each has at least one character. -/
def tokens? (s : String) : Option (List Token) := tokensUpTo? s.length s.toList

/-! ### The machine -/

/-- **A list or a table that is still open.** -/
inductive Frame
  /-- A list, its elements so far from the last to the first. -/
  | list (elements : List Document)
  /-- A table, its entries so far, and the name of the entry that is being read. -/
  | table (entries : List (String × Document)) (name : String)

/-- **What the machine waits for.** -/
inductive Need
  /-- A value. -/
  | value
  /-- A value, or the end of a list that has just been opened. -/
  | valueOrEnd
  /-- A name. -/
  | name
  /-- A name, or the end of a table that has just been opened. -/
  | nameOrEnd
  /-- The colon after a name. -/
  | colon
  /-- A comma, or the end of the innermost open frame. -/
  | more
  /-- Nothing: the document is complete. -/
  | nothing
deriving DecidableEq

/-- **The machine**: what it waits for, what is open from the inside out, and the document once it
is complete. -/
structure Machine where
  /-- What is waited for. -/
  need : Need
  /-- What is open. -/
  frames : List Frame
  /-- The document, once it is complete. -/
  result : Document

namespace Machine

/-- The machine before the first token. -/
def start : Machine := ⟨.value, [], .null⟩

/-- How many lists and tables may be open at a time. -/
def maxDepth : Nat := 127

/-- A value is complete: it goes to the innermost open frame, or is the document. -/
def complete (m : Machine) (d : Document) : Machine :=
  match m.frames with
  | [] => ⟨.nothing, [], d⟩
  | .list elements :: rest => ⟨.more, .list (d :: elements) :: rest, m.result⟩
  | .table entries name :: rest =>
    ⟨.more, .table (Document.insert name d entries) name :: rest, m.result⟩

/-- Open a list or a table, unless too many are open. -/
def enter? (m : Machine) (need : Need) (frame : Frame) : Option Machine :=
  if m.frames.length < maxDepth then some ⟨need, frame :: m.frames, m.result⟩ else none

/-- The end of the innermost open list. -/
def endList? (m : Machine) : Option Machine :=
  match m.frames with
  | .list elements :: rest => some ({ m with frames := rest }.complete (.list elements.reverse))
  | _ => none

/-- The end of the innermost open table. -/
def endTable? (m : Machine) : Option Machine :=
  match m.frames with
  | .table entries _ :: rest => some ({ m with frames := rest }.complete (.table entries))
  | _ => none

/-- A comma between the values of the innermost open frame. -/
def comma? (m : Machine) : Option Machine :=
  match m.frames with
  | .list _ :: _ => some { m with need := .value }
  | .table _ _ :: _ => some { m with need := .name }
  | [] => none

/-- The name of the next entry of the innermost open table. -/
def name? (m : Machine) (name : String) : Option Machine :=
  match m.frames with
  | .table entries _ :: rest => some ⟨.colon, .table entries name :: rest, m.result⟩
  | _ => none

/-- **Feed one token**, if it is one of those that are waited for. -/
def feed? (m : Machine) (t : Token) : Option Machine :=
  match m.need, t with
  | .value, .value d | .valueOrEnd, .value d => some (m.complete d)
  | .value, .text s | .valueOrEnd, .text s => some (m.complete (.text s))
  | .value, .mark '[' | .valueOrEnd, .mark '[' => m.enter? .valueOrEnd (.list [])
  | .value, .mark '\x7b' | .valueOrEnd, .mark '\x7b' => m.enter? .nameOrEnd (.table [] "")
  | .valueOrEnd, .mark ']' | .more, .mark ']' => m.endList?
  | .nameOrEnd, .mark '\x7d' | .more, .mark '\x7d' => m.endTable?
  | .name, .text s | .nameOrEnd, .text s => m.name? s
  | .colon, .mark ':' => some { m with need := .value }
  | .more, .mark ',' => m.comma?
  | _, _ => none

/-- The document, if it is complete. -/
def result? (m : Machine) : Option Document := if m.need = .nothing then some m.result else none

end Machine

/-- **The document that a text stands for.** -/
def read? (s : String) : Option Document := do
  let m ← (← tokens? s).foldlM Machine.feed? Machine.start
  m.result?

/-! ### Writing -/

/-- The characters of a text between quotes. -/
def quotedChar (c : Char) : String :=
  match c with
  | '"' => "\\\""
  | '\\' => "\\\\"
  | '\x08' => "\\b"
  | '\x0c' => "\\f"
  | '\n' => "\\n"
  | '\r' => "\\r"
  | '\t' => "\\t"
  | c =>
    if c.toNat < 0x20 then
      "\\u00" ++ String.ofList [hexDigit (c.toNat / 16), hexDigit (c.toNat % 16)]
    else c.toString

/-- A text between quotes. -/
def quote (s : String) : String := "\"" ++ String.join (s.toList.map quotedChar) ++ "\""

mutual

/-- **The text of a document**, without white space. Numbers are written at single precision, which
is that of all numbers here, and those that are not finite as null. -/
def write : Document → String
  | .null => "null"
  | .flag b => if b then "true" else "false"
  | .integer n => toString n
  | .number v => if v.isFinite then Style.json.single (narrow v) else "null"
  | .text s => quote s
  | .moment => "null"
  | .list elements => "[" ++ ",".intercalate (writeElements elements) ++ "]"
  | .table entries => "\x7b" ++ ",".intercalate (writeEntries entries) ++ "\x7d"

/-- The texts of the elements of a list. -/
def writeElements : List Document → List String
  | [] => []
  | d :: rest => write d :: writeElements rest

/-- The texts of the entries of a table. -/
def writeEntries : List (String × Document) → List String
  | [] => []
  | (name, d) :: rest => (quote name ++ ":" ++ write d) :: writeEntries rest

end

end Moorland.Json
