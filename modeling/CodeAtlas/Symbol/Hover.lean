import CodeAtlas.Fault
import CodeAtlas.Render.Basic

/-!
# Hover texts

What the contents of a hover result say. They come in several shapes: a marked string, which is
Markdown or code in some language; a list of those, shown as sections; and a text with its kind.
-/

namespace CodeAtlas

/-- A hover text, to be rendered by its kind. -/
inductive HoverText where
  | markdown (text : List Char)
  | plain (text : List Char)
  deriving DecidableEq, Repr

namespace HoverText

def separator : List Char :=
  "\n\n---\n\n".toList

/-- The length of the longest run of backticks in a text, given the length of the run that ends where
it starts and the longest one before. -/
def longestRun (run longest : Nat) : List Char → Nat
  | [] => longest
  | c :: text =>
    if c = '`' then longestRun (run + 1) (max longest (run + 1)) text else longestRun 0 longest text

/-- The fence around `code`: longer than any run of backticks inside it. -/
def fenceFor (code : List Char) : List Char :=
  List.replicate (max (longestRun 0 0 code) 2 + 1) '`'

/-- Code as a fenced block of Markdown. -/
def fenced (language code : List Char) : List Char :=
  fenceFor code ++ language ++ '\n' :: code ++ '\n' :: fenceFor code

/-- The Markdown of a marked string: a string as it is, and code with its language as a fenced
block. -/
def ofMarked? : Json → Option (List Char)
  | .string text => some text.toList
  | .array [.string language, .string code] => some (fenced language.toList code.toList)
  | .object fields =>
    match Json.Fields.last? fields "language", Json.Fields.last? fields "value" with
    | some (.string language), some (.string code) => some (fenced language.toList code.toList)
    | _, _ => none
  | _ => none

def ofKindName? (kind : String) (text : String) : Option HoverText :=
  if kind = "markdown" then some (.markdown text.toList)
  else if kind = "plaintext" then some (.plain text.toList)
  else none

/-- A text of a kind given by its name, or by an object with that name. -/
def ofKind? : (kind text : Json) → Option HoverText
  | .string kind, .string text => ofKindName? kind text
  | .object [(kind, .null)], .string text => ofKindName? kind text
  | _, _ => none

def ofMarkup? : Json → Option HoverText
  | .array [kind, text] => ofKind? kind text
  | .object fields =>
    match Json.Fields.last? fields "kind", Json.Fields.last? fields "value" with
    | some kind, some text => ofKind? kind text
    | _, _ => none
  | _ => none

/-- Marked strings as sections of one text. -/
def ofSections? : Json → Option HoverText
  | .array items => (items.mapM ofMarked?).map fun sections => .markdown (separator.intercalate sections)
  | _ => none

def ofJson? (contents : Json) : Option HoverText :=
  ((ofMarked? contents).map .markdown).or ((ofSections? contents).or (ofMarkup? contents))

def ofContents (id : ElementId) (contents : Json) : Except DumpFault HoverText :=
  match ofJson? contents with
  | some text => .ok text
  | none => .error (.unrecognizedHover id)

end HoverText

/-- A hover text as markup. Plain text is shown as it is. -/
def HoverText.render (renderer : MarkdownRenderer) : HoverText → Except HighlightFault (List Char)
  | .markdown text => renderer text
  | .plain text => .ok (Markup.preformatted text)

end CodeAtlas
