/-!
# Punycode

Labels outside ASCII are also written in ASCII: first their ASCII characters and a hyphen, then, in
base 36, where the other characters go and which they are. These come in the order of their code
points. Each is given by its distance from the one before, counted over all places where a character
can go; digits of low value end a number, and what counts as low adapts to the numbers before.
-/

namespace CodeAtlas.Domain.Punycode

def digit? (c : Char) : Option Nat :=
  if 'a' ≤ c && c ≤ 'z' then some (c.toNat - 'a'.toNat)
  else if '0' ≤ c && c ≤ '9' then some (c.toNat - '0'.toNat + 26)
  else none

/-- The least digit that does not end a number, at the given place. -/
def threshold (place bias : Nat) : Nat :=
  if place ≤ bias then 1 else if bias + 26 ≤ place then 26 else place - bias

/-- The bias for numbers of about the size of `delta`. -/
def biasOf (delta : Nat) : Nat :=
  if 455 < delta then 36 + biasOf (delta / 35) else 36 * delta / (delta + 38)
termination_by delta

/-- The bias after the number `delta`, when the label has `length` characters. The first number is
as a rule far greater than the others. -/
def adapt (delta length : Nat) (isFirst : Bool) : Nat :=
  let delta := if isFirst then delta / 700 else delta / 2
  biasOf (delta + delta / length)

/-- A label that is being read: its characters so far, the code point of the last one outside ASCII,
and the number that is being read. -/
structure State where
  label : List Char
  point : Nat
  bias : Nat
  /-- The place behind the last character outside ASCII, from which the number counts. -/
  start : Nat
  /-- What the digits of the number so far lead to. -/
  total : Nat
  /-- What the next digit counts for. -/
  weight : Nat
  /-- The place of the next digit, in steps of 36. -/
  place : Nat

namespace State

def atNumber (label : List Char) (point bias start : Nat) : State :=
  ⟨label, point, bias, start, start, 1, 36⟩

/-- The state after a number that leads to `total`, which puts one more character into the label. -/
def insert? (state : State) (total : Nat) : Option State :=
  let length := state.label.length + 1
  let point := state.point + total / length
  let index := total % length
  if point.isValidChar then
    let label := state.label.take index ++ Char.ofNat point :: state.label.drop index
    let bias := adapt (total - state.start) length (state.start == 0)
    some (atNumber label point bias (index + 1))
  else none

def step? (state : State) (c : Char) : Option State := do
  let digit ← digit? c
  let total := state.total + digit * state.weight
  let least := threshold state.place state.bias
  if digit < least then state.insert? total
  else
    let weight := state.weight * (36 - least)
    some { state with total := total, weight := weight, place := state.place + 36 }

end State

/-- The label of the ASCII characters `basic` and of others given by `digits`. -/
def decodeDigits? (basic digits : List Char) : Option (List Char) := do
  let state ← digits.foldlM State.step? (State.atNumber basic 0x80 72 0)
  if state.place == 36 then some state.label else none

def decode? (code : List Char) : Option (List Char) :=
  if code.contains '-' then
    let digits := (code.reverse.takeWhile (· != '-')).reverse
    let basic := code.take (code.length - digits.length - 1)
    if basic.isEmpty then none else decodeDigits? basic digits
  else decodeDigits? [] code

end CodeAtlas.Domain.Punycode
