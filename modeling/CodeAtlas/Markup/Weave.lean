import CodeAtlas.Dump.Element
import CodeAtlas.Markup.Piece

/-!
# Weaving insertions into markup

Insertions are given by their place in the text that the markup shows. Weaving walks over the pieces
of the markup with the line and column of the text, and writes each insertion directly before the
first piece other than a tag that stands at or after its place. A place past the end of its line is
reached by the newline, and a place past the end of the text by the end.
-/

namespace CodeAtlas.Markup

/-- A text to be put at a place of the text that some markup shows. -/
structure Insertion where
  position : Position
  text : List Char
  deriving DecidableEq, Repr

namespace Insertion

/-- Whether the insertion is due at the given line and column. -/
def dueAt (line column : Nat) (insertion : Insertion) : Bool :=
  insertion.position.line.toNat < line ||
    (insertion.position.line.toNat == line && insertion.position.character.toNat ≤ column)

/-- Whether the insertion is due at the end of the given line. -/
def dueBy (line : Nat) (insertion : Insertion) : Bool :=
  insertion.position.line.toNat ≤ line

/-- Whether `a` stands at or before `b`. -/
def before (a b : Insertion) : Bool :=
  a.dueAt b.position.line.toNat b.position.character.toNat

end Insertion

/-- A walk over markup: the place reached in the text, the insertions still to come in order of their
places, and what has been written, last character first. -/
structure Weaving where
  line : Nat
  column : Nat
  pending : List Insertion
  written : List Char

namespace Weaving

def write (w : Weaving) (text : List Char) : Weaving :=
  { w with written := text.reverseAux w.written }

/-- Writes the insertions at the head of the pending ones that are due. -/
def flush (w : Weaving) (due : Insertion → Bool) : Weaving :=
  { w with
    pending := w.pending.dropWhile due
    written := (w.pending.takeWhile due).foldl (fun out i => i.text.reverseAux out) w.written }

def step (w : Weaving) (piece : Piece) : Weaving :=
  match piece with
  | .tag text => w.write text
  | .newline =>
    { ((w.flush (Insertion.dueBy w.line)).write ['\n']) with line := w.line + 1, column := 0 }
  | piece =>
    { ((w.flush (Insertion.dueAt w.line w.column)).write piece.text) with
      column := w.column + piece.columns }

end Weaving

/-- `markup` with every insertion written at its place; insertions at one place keep their order. -/
def weave (markup : List Char) (insertions : List Insertion) : List Char :=
  let start : Weaving := ⟨0, 0, insertions.mergeSort Insertion.before, []⟩
  (((pieces markup).foldl Weaving.step start).flush fun _ => true).written.reverse

end CodeAtlas.Markup
