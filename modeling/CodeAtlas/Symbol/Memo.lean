import CodeAtlas.Fault
import CodeAtlas.Symbol.Hover
import CodeAtlas.Symbol.Reference

/-!
# Answers kept by id

Many ranges share a hover text or a reference set. Each is worked out when it is first asked for and
kept under its id; a failure is not kept. What is asked of the kept answers, and in which order, is a
`Query`; those who work on a site each follow a query of their own, with the kept answers between them.
-/

namespace CodeAtlas

abbrev Memo (α : Type) := Std.TreeMap ElementId α

/-- The answer kept for `id`, or else the one worked out now, which is then kept. -/
def Memo.fetch {α ε : Type} (memo : Memo α) (id : ElementId) (answer : Unit → Except ε α) :
    Except ε α × Memo α :=
  match memo[id]? with
  | some value => (.ok value, memo)
  | none =>
    match answer () with
    | .ok value => (.ok value, memo.insert id value)
    | .error fault => (.error fault, memo)

/-- What an answer is kept for. -/
inductive Question where
  | hover (id : ElementId)
  | references (id : ElementId)
  deriving DecidableEq, Repr

/-- What a question is answered with: markup, or the reference set if there is one. -/
abbrev Question.Answer : Question → Type
  | .hover _ => List Char
  | .references _ => Option ReferenceSet

/-- What has been worked out so far: hover texts as markup and reference sets. -/
structure Answers where
  hovers : Memo (List Char)
  references : Memo (Option ReferenceSet)

namespace Answers

def empty : Answers :=
  ⟨∅, ∅⟩

def kept? (answers : Answers) : (question : Question) → Option question.Answer
  | .hover id => answers.hovers[id]?
  | .references id => answers.references[id]?

def fetch (answers : Answers) : (question : Question) →
    (Unit → Except SiteFault question.Answer) → Except SiteFault question.Answer × Answers
  | .hover id, answer =>
    let (result, hovers) := answers.hovers.fetch id answer
    (result, { answers with hovers })
  | .references id, answer =>
    let (result, references) := answers.references.fetch id answer
    (result, { answers with references })

/-- The reference sets, in the order of the ids of their results. -/
def referenceSets (answers : Answers) : List (ElementId × ReferenceSet) :=
  answers.references.toList.filterMap fun (id, set) => set.map fun set => (id, set)

end Answers

/-- A question about the dump that may use and add kept answers: its result, or what to ask for next,
how to work that out, and how to go on from there. -/
inductive Query (α : Type) where
  | done (result : Except SiteFault α)
  | ask (question : Question) (answer : Unit → Except SiteFault question.Answer)
      (rest : Except SiteFault question.Answer → Query α)

namespace Query

def bind {α β : Type} : Query α → (α → Query β) → Query β
  | .done (.ok value), next => next value
  | .done (.error fault), _ => .done (.error fault)
  | .ask question answer rest, next => .ask question answer fun result => (rest result).bind next

/-- A query, and another one in case that it fails. -/
def orElse {α : Type} : Query α → (SiteFault → Query α) → Query α
  | .done (.ok value), _ => .done (.ok value)
  | .done (.error fault), next => next fault
  | .ask question answer rest, next => .ask question answer fun result => (rest result).orElse next

instance : Monad Query where
  pure value := .done (.ok value)
  bind := bind

instance : MonadExceptOf SiteFault Query where
  throw fault := .done (.error fault)
  tryCatch := orElse

instance : MonadLift (Except DumpFault) Query where
  monadLift result := .done (result.mapError .dump)

instance : MonadLift (Except HighlightFault) Query where
  monadLift result := .done (result.mapError .highlight)

/-- The result of a query that has the kept answers to itself. -/
def run {α : Type} : Query α → StateM Answers (Except SiteFault α)
  | .done result => fun answers => (result, answers)
  | .ask question answer rest => fun answers =>
    let (result, answers) := answers.fetch question answer
    (rest result).run answers

def hoverMarkup (renderer : MarkdownRenderer) (id : ElementId) (contents : Json) :
    Except SiteFault (List Char) := do
  let text ← (HoverText.ofContents id contents).mapError SiteFault.dump
  (text.render renderer).mapError SiteFault.highlight

def hover (renderer : MarkdownRenderer) (id : ElementId) (contents : Json) : Query (List Char) :=
  .ask (.hover id) (fun _ => hoverMarkup renderer id contents) .done

def referenceSet (locator : Locator) (id : ElementId) : Query (Option ReferenceSet) :=
  .ask (.references id) (fun _ => (locator.referenceSet? id).mapError .dump) .done

end Query

end CodeAtlas
