import CodeAtlas.Dump.Id
import CodeAtlas.Text.Lines
import CodeAtlas.Text.Utf8

/-!
# Source texts

The text of a document, with the places where its lines start. Places are counted in bytes.
-/

namespace CodeAtlas

structure SourceText where
  text : List Char
  lineStarts : Array Nat

namespace SourceText

/-- The places after the newlines of `text`, which itself starts at the place `start`. -/
def startsAfter (start : Nat) : (text : List Char) → List Nat
  | [] => []
  | c :: text =>
    let next := start + c.utf8Size
    if c = '\n' then next :: startsAfter next text else startsAfter next text

def ofText (text : List Char) : SourceText :=
  ⟨text, (0 :: startsAfter 0 text).toArray⟩

def lineCount (source : SourceText) : Nat :=
  source.lineStarts.size

/-- The line with the given number, counted from zero, without its end. A line stops before the newline
that the next one starts after. -/
def line? (source : SourceText) (number : Nat) : Option (List Char) := do
  let start ← source.lineStarts[number]?
  let stop := (source.lineStarts[number + 1]?.map (· - 1)).getD (Text.byteLength source.text)
  let line ← Text.slice? source.text start stop
  return Text.dropReturn line

end SourceText

abbrev SourceMap := Std.TreeMap ElementId SourceText

/-- A line of a document, if its text is there and long enough. -/
def SourceMap.line? (sources : SourceMap) (document : ElementId) (number : Nat) :
    Option (List Char) :=
  sources[document]?.bind fun source => source.line? number

end CodeAtlas
