import CodeAtlas.Json.Writer
import CodeAtlas.Text.Utf8
import Std.Data.TreeMap

/-!
# Element ids

Every vertex and edge of a dump has an id. A dump writes it as a string or as a natural number; a
number is the string of its decimal digits. Ids are ordered by the code points of their text.
-/

namespace CodeAtlas

structure ElementId where
  name : String
  deriving DecidableEq, Repr, Inhabited

namespace ElementId

instance : Ord ElementId where
  compare a b := compare a.name b.name

instance : Std.TransOrd ElementId where
  eq_swap {a b} := Std.OrientedOrd.eq_swap (a := a.name) (b := b.name)
  isLE_trans {a b c} hab hbc := Std.TransOrd.isLE_trans (a := a.name) (b := b.name) (c := c.name) hab hbc

instance : Std.LawfulEqOrd ElementId where
  compare_self {a} := Std.ReflOrd.compare_self (a := a.name)
  eq_of_compare {a b} h := by
    have same : a.name = b.name := Std.LawfulEqOrd.eq_of_compare h
    cases a
    cases b
    simpa using same

/-- The id that a dump writes as the natural number `n`. -/
def ofNat (n : Nat) : ElementId :=
  ⟨String.ofList (Nat.toDigits 10 n)⟩

/-- Whether a byte of an id stands for itself in a file name. -/
def isPlainByte (b : UInt8) : Bool :=
  (0x30 ≤ b && b ≤ 0x39) || (0x41 ≤ b && b ≤ 0x5a) || (0x61 ≤ b && b ≤ 0x7a) || b == 0x2d

def stemByte (b : UInt8) : List Char :=
  if isPlainByte b then [Char.ofNat b.toNat]
  else ['_', Json.hexDigit (b.toNat / 16), Json.hexDigit (b.toNat % 16)]

/-- The id as the stem of a file name: letters, digits and `-` stand for themselves, and every other
byte is written `_` and two hexadecimal digits. -/
def fileStem (id : ElementId) : String :=
  String.ofList ((Text.bytesOf id.name).flatMap stemByte)

end ElementId

end CodeAtlas
