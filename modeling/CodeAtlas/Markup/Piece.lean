import CodeAtlas.Text.Utf8

/-!
# Pieces of markup

Markup that shows a text falls into pieces: tags, which show nothing; newlines; entities, which show
one character; and the characters that show themselves. Each piece takes as many columns of the text
as it shows UTF-16 units.
-/

namespace CodeAtlas.Markup

inductive Piece where
  /-- From `<` through the next `>`, or to the end if there is none. -/
  | tag (text : List Char)
  | newline
  /-- From `&` through `;`, given by what stands between. -/
  | entity (body : List Char)
  /-- A character that shows itself. -/
  | glyph (c : Char)
  deriving DecidableEq, Repr

namespace Piece

/-- The piece as it stands in the markup. -/
def text : Piece → List Char
  | .tag text => text
  | .newline => ['\n']
  | .entity body => '&' :: (body ++ [';'])
  | .glyph c => [c]

def columns : Piece → Nat
  | .tag _ => 0
  | .newline => 0
  | .entity _ => 1
  | .glyph c => Text.units16 c

end Piece

/-- Whether an entity may have this between its `&` and its `;`: one to 32 letters and digits, of which
the first may be a `#` instead. -/
def isEntityBody : List Char → Bool
  | [] => false
  | c :: cs => (c.isAlphanum || c == '#') && cs.all Char.isAlphanum && cs.length < 32

/-- What stands between the `&` just passed and the first `;` of `text`, if that makes an entity. -/
def entityBody? (text : List Char) : Option (List Char) :=
  let body := text.takeWhile fun c => c != ';'
  if body.length < text.length && isEntityBody body then some body else none

/-- The length of the entity that the text `'&' :: text` starts with, `&` and `;` included. -/
def entityLength? (text : List Char) : Option Nat :=
  (entityBody? text).map fun body => body.length + 2

/-- The piece at the start of `c :: rest`, and how many characters of `rest` belong to it. -/
def firstPiece (c : Char) (rest : List Char) : Piece × Nat :=
  if c = '<' then
    let inside := rest.takeWhile fun c => c != '>'
    let used := if inside.length < rest.length then inside.length + 1 else inside.length
    (.tag (c :: rest.take used), used)
  else if c = '\n' then (.newline, 0)
  else if c = '&' then
    match entityBody? rest with
    | some body => (.entity body, body.length + 1)
    | none => (.glyph c, 0)
  else (.glyph c, 0)

/-- The pieces of `markup` after those in `done`, which are listed last first. -/
def piecesFrom (done : List Piece) : List Char → List Piece
  | [] => done.reverse
  | c :: rest =>
    let (piece, used) := firstPiece c rest
    piecesFrom (piece :: done) (rest.drop used)
termination_by markup => markup.length

def pieces (markup : List Char) : List Piece :=
  piecesFrom [] markup

end CodeAtlas.Markup
