/-!
# Lines and blanks

A text falls into pieces at its newlines. `pieces` keeps every piece; `lines` reads a newline as the
end of a line, so that a text ending in one has no empty last line, and a carriage return before the
newline belongs to the line's end. Blanks are the Unicode white space characters.
-/

namespace CodeAtlas.Text

/-- The newline-separated pieces of `text`: one more than it has newlines. -/
def pieces (text : List Char) : List (List Char) :=
  text.splitOn '\n'

/-- `line` without one trailing carriage return. -/
def dropReturn (line : List Char) : List Char :=
  if line.getLast? = some '\r' then line.dropLast else line

/-- The last piece as a line: it has no newline of its own, so it counts only if it is not empty. -/
def lastLine : List Char → List (List Char)
  | [] => []
  | line => [line]

/-- The lines of `text`, each without the newline (or carriage return and newline) that ends it. -/
def lines (text : List Char) : List (List Char) :=
  let all := pieces text
  all.dropLast.map dropReturn ++ lastLine (all.getLast?.getD [])

/-- Whether `c` is a Unicode white space character. -/
def isBlank (c : Char) : Bool :=
  let n := c.toNat
  (0x09 ≤ n && n ≤ 0x0d) || n == 0x20 || n == 0x85 || n == 0xa0 || n == 0x1680 ||
    (0x2000 ≤ n && n ≤ 0x200a) || n == 0x2028 || n == 0x2029 || n == 0x202f || n == 0x205f ||
    n == 0x3000

def trimStart (text : List Char) : List Char :=
  text.dropWhile isBlank

def trimEnd (text : List Char) : List Char :=
  (text.reverse.dropWhile isBlank).reverse

def trim (text : List Char) : List Char :=
  trimEnd (trimStart text)

/-- The first maximal run of non-blank characters, empty if there is none. -/
def firstWord (text : List Char) : List Char :=
  (trimStart text).takeWhile fun c => !isBlank c

end CodeAtlas.Text
