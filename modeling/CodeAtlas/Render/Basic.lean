/-!
# Showing text

Text as it stands in HTML, between tags or in a quoted attribute value, and what makes markup of source
and of Markdown. Both can fail; the plain presentation never does.
-/

namespace CodeAtlas

namespace Markup

def escapeChar (c : Char) : List Char :=
  match c with
  | '&' => "&amp;".toList
  | '<' => "&lt;".toList
  | '>' => "&gt;".toList
  | '"' => "&quot;".toList
  | '\'' => "&#39;".toList
  | c => [c]

def escape (text : List Char) : List Char :=
  text.flatMap escapeChar

/-- A text shown as it is, in a block of its own. -/
def preformatted (text : List Char) : List Char :=
  "<pre>".toList ++ escape text ++ "</pre>".toList

end Markup

/-- Why source in a language cannot be highlighted. -/
structure HighlightFault where
  language : String
  reason : String
  deriving DecidableEq, Repr

def HighlightFault.message (fault : HighlightFault) : String :=
  s!"highlighting {fault.language} failed: {fault.reason}"

abbrev Highlighter :=
  (source : List Char) → (languageId : String) → Except HighlightFault (List Char)

abbrev MarkdownRenderer := (text : List Char) → Except HighlightFault (List Char)

/-- How source and Markdown are shown. -/
structure Presentation where
  source : Highlighter
  markdown : MarkdownRenderer

/-- All text as it is. -/
def Presentation.plain : Presentation where
  source text _ := .ok (Markup.escape text)
  markdown text := .ok (Markup.preformatted text)

end CodeAtlas
