import CodeAtlas.Render.Basic
import CodeAtlas.Text.Lines
import CodeAtlas.Text.Word

/-!
# Inline Markdown

Code spans, links, strong emphasis and emphasis. Code spans are cut out first; the text between them
is escaped and then goes through three rules in turn, each of which sees what the one before left. A
rule is applied at the leftmost places it fits, none of which overlap.
-/

namespace CodeAtlas.Inline

/-- A place where a rule fits: how many characters it takes after the first, and what stands for
them. -/
structure Fit where
  taken : Nat
  output : List Char

/-- A rule looks at the character before a place, the character there, and those after it. -/
abbrev Rule := Option Char → Char → List Char → Option Fit

/-- Applies a rule throughout a text, given the character before it and what is written so far, last
character first. -/
def applyFrom (rule : Rule) (previous : Option Char) (written : List Char) : List Char → List Char
  | [] => written.reverse
  | c :: rest =>
    match rule previous c rest with
    | none => applyFrom rule (some c) (c :: written) rest
    | some ⟨taken, output⟩ =>
      applyFrom rule (some ((rest.take taken).getLast?.getD c)) (output.reverseAux written)
        (rest.drop taken)
termination_by text => text.length
decreasing_by all_goals (simp only [List.length_cons, List.length_drop]; omega)

def applyRule (rule : Rule) (text : List Char) : List Char :=
  applyFrom rule none [] text

/-- What stands between a mark just passed and the next one, if there is a next one and the space
between is not empty. -/
def upTo? (mark : Char) (text : List Char) : Option (List Char) :=
  let body := text.takeWhile fun c => c != mark
  if body.isEmpty || body.length == text.length then none else some body

/-- Whether the next character is not part of a word. -/
def leavesWord : Option Char → Bool
  | none => true
  | some c => !Text.isWord c

/-- Whether a link may lead to `url`: a web page, a place on this page, or a path. -/
def isSafeUrl (url : List Char) : Bool :=
  "https://".toList.isPrefixOf url || "http://".toList.isPrefixOf url || url.head? == some '#' ||
    !url.contains ':'

/-- A link as markup. A link that leads nowhere safe is its text. -/
def linkMarkup (text url : List Char) : List Char :=
  if isSafeUrl url then "<a href=\"".toList ++ url ++ "\">".toList ++ text ++ "</a>".toList else text

/-- Links: a text in square brackets and then a place in parentheses, which has no blanks. -/
def link : Rule := fun _ c rest =>
  if c = '[' then
    match upTo? ']' rest with
    | none => none
    | some text =>
      match rest.drop (text.length + 1) with
      | '(' :: after =>
        let url := after.takeWhile fun c => c != ')' && !Text.isBlank c
        if url.isEmpty || after[url.length]? != some ')' then none
        else some ⟨text.length + 2 + url.length + 1, linkMarkup text url⟩
      | _ => none
  else none

def inElement (name : String) (text : List Char) : List Char :=
  s!"<{name}>".toList ++ text ++ s!"</{name}>".toList

/-- Strong emphasis between doubled marks. -/
def strongBy (mark : Char) (c : Char) (rest : List Char) : Option Fit :=
  if c = mark && rest.head? == some mark then
    match upTo? mark (rest.drop 1) with
    | none => none
    | some text =>
      if rest[text.length + 2]? == some mark then
        some ⟨text.length + 3, inElement "strong" text⟩
      else none
  else none

def strong : Rule := fun _ c rest =>
  (strongBy '*' c rest).or (strongBy '_' c rest)

/-- The text of emphasis from after its first mark: it does not start with a blank. -/
def emphasized? (mark : Char) (rest : List Char) : Option (List Char) :=
  match upTo? mark rest with
  | none => none
  | some text => if (text.head?.map Text.isBlank).getD true then none else some text

/-- Emphasis between single marks; between underscores only if they stand at the edges of words. -/
def emphasis : Rule := fun previous c rest =>
  if c = '*' then
    (emphasized? '*' rest).map fun text => ⟨text.length + 1, inElement "em" text⟩
  else if c = '_' && leavesWord previous then
    match emphasized? '_' rest with
    | none => none
    | some text =>
      if leavesWord rest[text.length + 1]? then some ⟨text.length + 1, inElement "em" text⟩ else none
  else none

/-- Text without code spans, as markup. -/
def formatText (text : List Char) : List Char :=
  applyRule emphasis (applyRule strong (applyRule link (Markup.escape text)))

/-- A stretch of plain text or a code span. -/
inductive Span where
  | plain (content : List Char)
  | code (content : List Char)
  deriving DecidableEq, Repr

/-- The spans of a text after those in `done` and after the characters `before`, both last first. -/
def spansFrom (done : List Span) (before : List Char) : List Char → List Span
  | [] => (Span.plain before.reverse :: done).reverse
  | c :: rest =>
    match if c = '`' then upTo? '`' rest else none with
    | none => spansFrom done (c :: before) rest
    | some code =>
      spansFrom (.code code :: .plain before.reverse :: done) [] (rest.drop (code.length + 1))
termination_by text => text.length
decreasing_by all_goals (simp only [List.length_cons, List.length_drop]; omega)

def spans (text : List Char) : List Span :=
  spansFrom [] [] text

def Span.render : Span → List Char
  | .plain content => formatText content
  | .code content => inElement "code" (Markup.escape content)

def render (text : List Char) : List Char :=
  (spans text).flatMap Span.render

end CodeAtlas.Inline
