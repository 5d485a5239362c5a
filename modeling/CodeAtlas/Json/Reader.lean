import CodeAtlas.Json.Basic
import CodeAtlas.Text.Find

/-!
# Reading JSON

A strict reader: no comments, no trailing commas, no unpaired surrogates, no number too large for a
64-bit float. Each reader takes the text from where it stands and gives the value and the rest, or
`none` if the text does not go on with one. Containers may be nested up to a given depth.
-/

namespace CodeAtlas.Json

/-- Whether `c` may stand between the parts of a JSON text. -/
def isSpace (c : Char) : Bool :=
  c == ' ' || c == '\n' || c == '\t' || c == '\r'

def skipSpace (text : List Char) : List Char :=
  text.dropWhile isSpace

/-! ### Numbers -/

def digitsValue (digits : List Char) : Nat :=
  digits.foldl (fun n c => n * 10 + (c.toNat - '0'.toNat)) 0

/-- `n` rounded to the nearest number of at most 53 significant bits, ties to even. -/
def roundTo53 (n : Nat) : Nat :=
  let shift := n.log2 + 1 - 53
  let unit := Nat.pow 2 shift
  let quotient := n / unit
  let remainder := n % unit
  if 2 * remainder > unit || (2 * remainder == unit && quotient % 2 == 1) then (quotient + 1) * unit
  else quotient * unit

/-- The least natural number that rounds to infinity as a 64-bit float. -/
def floatLimit : Nat := Nat.pow 2 1024 - Nat.pow 2 970

/-- The digits that enter the significand: as many leading ones as fit an unsigned 64-bit word. -/
def significand (digits : List Char) : Nat × Nat :=
  digits.foldl
    (fun (value, dropped) c =>
      let next := value * 10 + (c.toNat - '0'.toNat)
      if dropped == 0 && next < UInt64.size then (next, 0) else (value, dropped + 1))
    (0, 0)

/-- Whether `whole.fraction` times ten to the power `exponent` is a finite 64-bit float. -/
def isFinite (whole fraction : List Char) (exponent : Int) : Bool :=
  let (value, dropped) := significand (whole ++ fraction)
  let power := exponent - fraction.length + dropped
  value == 0 || power < 0 ||
    (power ≤ 308 && roundTo53 value * roundTo53 (Nat.pow 10 power.toNat) < floatLimit)

def takeDigits (text : List Char) : List Char × List Char :=
  (text.takeWhile Char.isDigit, text.dropWhile Char.isDigit)

/-- The digits before the point: a zero alone, or a run that starts with another digit. -/
def readWhole? (text : List Char) : Option (List Char × List Char) :=
  match takeDigits text with
  | ([], _) => none
  | (['0'], rest) => some (['0'], rest)
  | ('0' :: _, _) => none
  | (digits, rest) => some (digits, rest)

/-- The digits after the point, if there is one. -/
def readFraction? : List Char → Option (List Char × List Char)
  | '.' :: rest =>
    match takeDigits rest with
    | ([], _) => none
    | (digits, rest) => some (digits, rest)
  | rest => some ([], rest)

/-- The exponent after its mark: a sign and digits. -/
def readSigned? (text : List Char) : Option (Int × List Char) :=
  let (minus, text) := match text with
    | '-' :: rest => (true, rest)
    | '+' :: rest => (false, rest)
    | rest => (false, rest)
  match takeDigits text with
  | ([], _) => none
  | (digits, rest) =>
    let value : Int := digitsValue digits
    some (if minus then -value else value, rest)

def readExponent? : List Char → Option (Option Int × List Char)
  | 'e' :: rest | 'E' :: rest => (readSigned? rest).map fun (value, rest) => (some value, rest)
  | rest => some (none, rest)

/-- The value of a number with the given sign and parts. -/
def numberValue? (minus : Bool) (whole fraction : List Char) (exponent : Option Int)
    (literal : List Char) : Option Json :=
  let integer := digitsValue whole
  if fraction.isEmpty && exponent.isNone && !minus && integer < UInt64.size then
    some (.natural integer)
  else if fraction.isEmpty && exponent.isNone && minus && 0 < integer && integer ≤ UInt64.size / 2 then
    some (.negative integer)
  else if isFinite whole fraction (exponent.getD 0) then some (.decimal (String.ofList literal))
  else none

def readNumber? (text : List Char) : Option (Json × List Char) := do
  let (minus, afterSign) := match text with
    | '-' :: rest => (true, rest)
    | rest => (false, rest)
  let (whole, afterWhole) ← readWhole? afterSign
  let (fraction, afterFraction) ← readFraction? afterWhole
  let (exponent, rest) ← readExponent? afterFraction
  let literal := text.take (text.length - rest.length)
  let value ← numberValue? minus whole fraction exponent literal
  return (value, rest)

/-! ### Strings -/

def hexValue? (c : Char) : Option Nat :=
  if c.isDigit then some (c.toNat - '0'.toNat)
  else if 'a' ≤ c && c ≤ 'f' then some (c.toNat - 'a'.toNat + 10)
  else if 'A' ≤ c && c ≤ 'F' then some (c.toNat - 'A'.toNat + 10)
  else none

/-- Four hexadecimal digits. -/
def readUnit? : List Char → Option (Nat × List Char)
  | a :: b :: c :: d :: rest => do
    let a ← hexValue? a
    let b ← hexValue? b
    let c ← hexValue? c
    let d ← hexValue? d
    return (((a * 16 + b) * 16 + c) * 16 + d, rest)
  | _ => none

/-- The character that a `\u` escape stands for, from after the `u`. A high surrogate needs its low
one in the escape that follows. -/
def readUnicode? (text : List Char) : Option (Char × List Char) := do
  let (high, rest) ← readUnit? text
  if 0xd800 ≤ high && high ≤ 0xdbff then
    match rest with
    | '\\' :: 'u' :: rest =>
      let (low, rest) ← readUnit? rest
      if 0xdc00 ≤ low && low ≤ 0xdfff then
        return (Char.ofNat (0x10000 + (high - 0xd800) * 0x400 + (low - 0xdc00)), rest)
      else none
    | _ => none
  else if 0xdc00 ≤ high && high ≤ 0xdfff then none
  else return (Char.ofNat high, rest)

/-- The character that an escape stands for, from after the backslash. -/
def readEscape? : List Char → Option (Char × List Char)
  | '"' :: rest => some ('"', rest)
  | '\\' :: rest => some ('\\', rest)
  | '/' :: rest => some ('/', rest)
  | 'b' :: rest => some ('\x08', rest)
  | 'f' :: rest => some ('\x0c', rest)
  | 'n' :: rest => some ('\n', rest)
  | 'r' :: rest => some ('\r', rest)
  | 't' :: rest => some ('\t', rest)
  | 'u' :: rest => readUnicode? rest
  | _ => none

/-- The rest of a string after its opening quote. `done` holds the characters read so far, last
first; each step reads at least one character, so `steps` need not exceed the text's length. -/
def readStringFrom? (done : List Char) : (steps : Nat) → List Char → Option (String × List Char)
  | 0, _ => none
  | _ + 1, [] => none
  | _ + 1, '"' :: rest => some (String.ofList done.reverse, rest)
  | steps + 1, '\\' :: rest =>
    match readEscape? rest with
    | some (c, rest) => readStringFrom? (c :: done) steps rest
    | none => none
  | steps + 1, c :: rest => if c.toNat < 0x20 then none else readStringFrom? (c :: done) steps rest

def readString? : List Char → Option (String × List Char)
  | '"' :: rest => readStringFrom? [] rest.length rest
  | _ => none

/-! ### Values -/

/-- A field of an object, given how its value is read. -/
def readField? (value? : List Char → Option (Json × List Char)) (text : List Char) :
    Option ((String × Json) × List Char) := do
  let (name, rest) ← readString? (skipSpace text)
  match skipSpace rest with
  | ':' :: rest =>
    let (value, rest) ← value? rest
    return ((name, value), rest)
  | _ => none

/-- The rest of a container after an item was begun: items separated by commas, up to the closing
bracket. `done` holds the items read so far, last first. -/
def readItemsFrom? {α : Type} (item? : List Char → Option (α × List Char)) (close : Char)
    (done : List α) : (steps : Nat) → List Char → Option (List α × List Char)
  | 0, _ => none
  | steps + 1, text =>
    match item? text with
    | none => none
    | some (item, rest) =>
      match skipSpace rest with
      | ',' :: rest => readItemsFrom? item? close (item :: done) steps rest
      | c :: rest => if c == close then some ((item :: done).reverse, rest) else none
      | [] => none

/-- The rest of a container after its opening bracket. -/
def readItems? {α : Type} (item? : List Char → Option (α × List Char)) (close : Char)
    (text : List Char) : Option (List α × List Char) :=
  match skipSpace text with
  | c :: rest =>
    if c == close then some ([], rest) else readItemsFrom? item? close [] text.length text
  | [] => none

def readWord? (word : String) (text : List Char) : Option (List Char) :=
  Text.dropRun? word.toList text

/-- A value whose containers are nested at most `depth` deep. -/
def readValue? : (depth : Nat) → List Char → Option (Json × List Char)
  | depth, text =>
    match skipSpace text with
    | 'n' :: rest => (readWord? "ull" rest).map fun rest => (.null, rest)
    | 't' :: rest => (readWord? "rue" rest).map fun rest => (.bool true, rest)
    | 'f' :: rest => (readWord? "alse" rest).map fun rest => (.bool false, rest)
    | '"' :: rest => (readString? ('"' :: rest)).map fun (value, rest) => (.string value, rest)
    | '[' :: rest =>
      match depth with
      | 0 => none
      | depth + 1 =>
        (readItems? (readValue? depth) ']' rest).map fun (items, rest) => (.array items, rest)
    | '{' :: rest =>
      match depth with
      | 0 => none
      | depth + 1 =>
        (readItems? (readField? (readValue? depth)) '}' rest).map fun (fields, rest) =>
          (.object fields, rest)
    | rest => readNumber? rest

/-- How deep the containers of a JSON text may be nested. -/
def maxDepth : Nat := 127

/-- The value that the whole of `text` is, space around it apart. -/
def read? (text : List Char) : Option Json :=
  match readValue? maxDepth text with
  | some (value, rest) => if (skipSpace rest).isEmpty then some value else none
  | none => none

end CodeAtlas.Json
