/-!
# JSON values

A JSON value as a dump holds it. Integers that fit a signed or unsigned 64-bit word are kept exactly;
every other number is kept as it was written. An object is the list of its fields in the order they
were written, repeated names included.
-/

namespace CodeAtlas

inductive Json where
  | null
  | bool (value : Bool)
  /-- An integer from 0 up to the largest unsigned 64-bit word. -/
  | natural (value : Nat)
  /-- The integer `-value`, down to the least signed 64-bit word. -/
  | negative (value : Nat)
  /-- Any other number, as written. -/
  | decimal (literal : String)
  | string (value : String)
  | array (items : List Json)
  | object (fields : List (String × Json))
  deriving Inhabited, Repr, BEq

namespace Json

abbrev Fields := List (String × Json)

/-- The value of a field that may stand once at most: `none` if it stands more than once,
`some none` if it is absent. -/
def Fields.unique? (fields : Fields) (name : String) : Option (Option Json) :=
  match fields.filter fun field => field.1 == name with
  | [] => some none
  | [field] => some (some field.2)
  | _ => none

/-- The last value written for `name`. -/
def Fields.last? (fields : Fields) (name : String) : Option Json :=
  (fields.filter fun field => field.1 == name).getLast?.map (·.2)

/-- The field `name` put in its place if it stands already, and after the others if not. -/
def Fields.put (fields : Fields) (name : String) (value : Json) : Fields :=
  if fields.any fun field => field.1 == name then
    fields.map fun field => if field.1 == name then (name, value) else field
  else fields ++ [(name, value)]

end Json

end CodeAtlas
