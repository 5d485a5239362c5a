/-!
# Finding a run of characters

`dropRun?` cuts a given run of characters from the start of a text, and `splitAtRun` cuts a text at
the first place where the run begins.
-/

namespace CodeAtlas.Text

/-- The rest of `text` after `run`, if it starts with it. -/
def dropRun? : (run text : List Char) → Option (List Char)
  | [], text => some text
  | _ :: _, [] => none
  | r :: run, c :: text => if r = c then dropRun? run text else none

theorem dropRun?_eq_some_iff {run text rest : List Char} :
    dropRun? run text = some rest ↔ text = run ++ rest := by
  induction run generalizing text with
  | nil => simp [dropRun?]
  | cons r run ih =>
    cases text with
    | nil => simp [dropRun?]
    | cons c text =>
      by_cases same : r = c
      · simp [dropRun?, same, ih]
      · simp [dropRun?, same, Ne.symm same]

/-- The part of `text` before the first place where `run` begins, and the part from there on; `none`
if `run` does not occur. `before` holds the characters passed so far, last first. -/
def splitAtRunFrom (run : List Char) (before : List Char) : List Char → Option (List Char × List Char)
  | [] => if run.isEmpty then some (before.reverse, []) else none
  | c :: cs =>
    if run.isPrefixOf (c :: cs) then some (before.reverse, c :: cs)
    else splitAtRunFrom run (c :: before) cs

/-- The part of `text` before the first place where `run` begins, and the part from there on. -/
def splitAtRun (run text : List Char) : Option (List Char × List Char) :=
  splitAtRunFrom run [] text

def containsRun (run text : List Char) : Bool :=
  (splitAtRun run text).isSome

theorem containsRun_iff {run text : List Char} : containsRun run text = true ↔ run <:+: text := by
  have found : ∀ before, (splitAtRunFrom run before text).isSome = true ↔ run <:+: text := by
    induction text with
    | nil => intro before; cases run <;> simp [splitAtRunFrom]
    | cons c text ih =>
      intro before
      rw [splitAtRunFrom, List.infix_cons_iff]
      split
      · rename_i starts
        simp [List.isPrefixOf_iff_prefix.mp starts]
      · rename_i differs
        rw [ih, or_iff_right (mt List.isPrefixOf_iff_prefix.mpr differs)]
  exact found []

end CodeAtlas.Text
