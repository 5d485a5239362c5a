import CodeAtlas.Domain.Compose
import CodeAtlas.Domain.Direction
import CodeAtlas.Domain.Joiner
import CodeAtlas.Domain.Mapping
import CodeAtlas.Domain.Punycode

/-!
# Domain names

A domain name in its normal form: each character is replaced by what it stands for, the whole is
composed, and labels that are written in ASCII for others are read. A text that breaks a rule on the
characters of names, on marks, joiners or writing directions is no name.
-/

namespace CodeAtlas.Domain

def isForbidden (c : Char) : Bool :=
  c.toNat ≤ 0x20 || c.toNat == 0x7f || "#%/:<>?@[\\]^|".toList.contains c

def isAscii (text : List Char) : Bool :=
  text.all fun c => c.toNat < 0x80

/-- The longest label outside ASCII, in characters. -/
def maxLabel : Nat :=
  1000

/-- The longest label that is written in ASCII for another, in characters after its mark. -/
def maxCode : Nat :=
  2000

/-- The label that `code` after the mark of such labels is written for. It has to be in normal form
and not ASCII. -/
def decodedLabel? (code : List Char) : Option (List Char) := do
  let label ← if isAscii code && code.length ≤ maxCode then Punycode.decode? code else none
  if !isAscii label && label.all isPlain && composedForm label == label then some label else none

/-- Whether a label in normal form may be part of a name. -/
def isLabel (label : List Char) : Bool :=
  !label.any isForbidden &&
    !(label.head?.any isMark) &&
    joinersFit [] label &&
    (isAscii label || label.length ≤ maxLabel)

/-- The label in normal form that a composed label stands for. -/
def label? (text : List Char) : Option (List Char) := do
  let label ←
    match text with
    | 'x' :: 'n' :: '-' :: '-' :: code => decodedLabel? code
    | _ => some text
  if isLabel label then some label else none

def labels? (text : List Char) : Option (List (List Char)) := do
  let name := composedForm (← mapped? text)
  let labels ← (name.splitOn '.').mapM label?
  if !labels.any needsDirection || labels.all isOneWay then some labels else none

/-- The name that `text` is, in normal form. -/
def name? (text : List Char) : Option (List Char) :=
  (labels? text).map fun labels => ['.'].intercalate labels

end CodeAtlas.Domain
