/-!
# Tables of characters

A table is written as text: code points in hexadecimal, divided by blanks. A row is one code point
(`ad`), a range (`300-314`) or every second code point of a range (`100-12e/2`). After `>` a row may
say what its code points stand for, in code points divided by commas (`fb00>66,66`). That holds of
the first code point of a range; what a later one stands for lies as far behind.
-/

namespace CodeAtlas.Text

structure TableRow where
  low : Nat
  high : Nat
  stride : Nat
  image : List Nat
  deriving DecidableEq, Repr

namespace TableRow

def digitValue (c : Char) : Nat :=
  if c.isDigit then c.toNat - '0'.toNat else c.toNat - 'a'.toNat + 10

def number (digits : List Char) : Nat :=
  digits.foldl (fun n c => n * 16 + digitValue c) 0

/-- The row of a code point or of a range of them. -/
def ofRange (text : List Char) : TableRow :=
  match text.splitOn '-' with
  | [low, high] => ⟨number low, number high, 1, []⟩
  | _ => ⟨number text, number text, 1, []⟩

def ofSource (text : List Char) : TableRow :=
  match text.splitOn '/' with
  | [range, stride] => { ofRange range with stride := number stride }
  | _ => ofRange text

def ofText (text : List Char) : TableRow :=
  match text.splitOn '>' with
  | [source, image] => { ofSource source with image := (image.splitOn ',').map number }
  | _ => ofSource text

def covers (row : TableRow) (c : Char) : Bool :=
  row.low ≤ c.toNat && c.toNat ≤ row.high && (c.toNat - row.low) % row.stride == 0

def imageOf (row : TableRow) (c : Char) : List Char :=
  row.image.map fun n => Char.ofNat (n + (c.toNat - row.low))

end TableRow

abbrev CharTable := List TableRow

namespace CharTable

def ofText (text : String) : CharTable :=
  let words := (text.toList.map fun c => if c == '\n' then ' ' else c).splitOn ' '
  (words.filter fun word => !word.isEmpty).map TableRow.ofText

def row? (table : CharTable) (c : Char) : Option TableRow :=
  table.find? (·.covers c)

def covers (table : CharTable) (c : Char) : Bool :=
  table.any (·.covers c)

end CharTable

end CodeAtlas.Text
