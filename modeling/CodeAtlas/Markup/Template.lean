import CodeAtlas.Text.Find

/-!
# Templates

A template holds places for values, each written as a key between doubled braces. Filling looks at
the template only: what a value holds is never read as a place, and a key that has no value stays as
it stands.
-/

namespace CodeAtlas.Markup

/-- Values by key. Of two values for one key the first counts. -/
abbrev Values := List (List Char × List Char)

def Values.get? (values : Values) (key : List Char) : Option (List Char) :=
  (values.find? fun entry => entry.1 = key).map (·.2)

/-- The value of the place whose opening braces were just passed, and how many characters of `text`
the rest of the place takes. -/
def placeValue? (values : Values) (text : List Char) : Option (List Char × Nat) :=
  match Text.splitAtRun ['}', '}'] text with
  | none => none
  | some (key, _) => (values.get? key).map fun value => (value, key.length + 2)

/-- `template` with the value of each key that has one in its place. -/
def fill (values : Values) : (template : List Char) → List Char
  | '{' :: '{' :: rest =>
    match placeValue? values rest with
    | some (value, used) => value ++ fill values (rest.drop used)
    | none => '{' :: '{' :: fill values rest
  | c :: rest => c :: fill values rest
  | [] => []
termination_by template => template.length
decreasing_by all_goals simp <;> omega

end CodeAtlas.Markup
