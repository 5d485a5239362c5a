import CodeAtlas.Render.Inline
import CodeAtlas.Render.Token

/-!
# Markdown

The part of Markdown that hover texts use. A text is read line by line into blocks: fenced code,
headings, thematic breaks, bullet lists and paragraphs. All else is text.
-/

namespace CodeAtlas.Markdown

inductive Block where
  | code (info : List Char) (lines : List (List Char))
  | heading (level : Nat) (text : List Char)
  | thematicBreak
  | list (items : List (List Char))
  | paragraph (lines : List (List Char))
  deriving DecidableEq, Repr

/-- The fence that opens a code block: its mark, its length, and what stands after it. -/
structure Fence where
  mark : Char
  length : Nat
  info : List Char
  deriving DecidableEq, Repr

/-- The fence that a line is, from after its leading blanks: three or more backticks or tildes. After
backticks there may be no others on the line. -/
def fence? (line : List Char) : Option Fence :=
  match line with
  | [] => none
  | mark :: _ =>
    if mark = '`' || mark = '~' then
      let length := (line.takeWhile (· == mark)).length
      let info := line.dropWhile (· == mark)
      if length < 3 || (mark == '`' && info.contains '`') then none
      else some ⟨mark, length, Text.trim info⟩
    else none

/-- Whether `line` closes a code block: only marks of its fence, at least as many. -/
def Fence.isClosedBy (fence : Fence) (line : List Char) : Bool :=
  let line := Text.trim line
  fence.length ≤ line.length && line.all (· == fence.mark)

/-- The level and text of the heading that a line is, from after its leading blanks: one to six `#`
and a blank. Blanks and `#` at the end of the line are not part of the text. -/
def heading? (line : List Char) : Option (Nat × List Char) :=
  let level := (line.takeWhile (· == '#')).length
  let rest := line.dropWhile (· == '#')
  if 1 ≤ level && level ≤ 6 && (rest.head?.map Text.isBlank).getD false then
    let text := Text.trimEnd (Text.trimStart rest)
    some (level, Text.trimEnd (text.reverse.dropWhile (· == '#')).reverse)
  else none

/-- Whether a line is a thematic break: three or more of one mark, with or without blanks between. -/
def isThematicBreak (line : List Char) : Bool :=
  let marks := line.filter fun c => !Text.isBlank c
  3 ≤ marks.length && ['-', '*', '_'].any fun mark => marks.all (· == mark)

def bullet? (line : List Char) : Option (List Char) :=
  match Text.trimStart line with
  | [] => none
  | mark :: rest =>
    if (mark == '-' || mark == '*' || mark == '+') && (rest.head?.map Text.isBlank).getD false then
      some (Text.trimStart rest)
    else none

/-- The block that the lines read so far have left open. Lists are last first. -/
inductive Pending where
  | nothing
  | paragraph (lines : List (List Char))
  | list (items : List (List Char))
  | code (fence : Fence) (lines : List (List Char))

/-- The open block as it stands. -/
def Pending.close : Pending → List Block
  | .nothing => []
  | .paragraph lines => [.paragraph lines.reverse]
  | .list items => [.list items.reverse]
  | .code fence lines => [.code fence.info lines.reverse]

/-- The open block after one more item of a list. -/
def Pending.addItem (open' : Pending) (item : List Char) : List Block × Pending :=
  match open' with
  | .list items => ([], .list (item :: items))
  | open' => (open'.close, .list [item])

/-- The open block after a line of plain text, from after its leading blanks. -/
def Pending.addText (open' : Pending) (line : List Char) : List Block × Pending :=
  match open' with
  | .paragraph lines => ([], .paragraph (line :: lines))
  | .list (last :: items) => ([], .list ((last ++ ' ' :: line) :: items))
  | open' => (open'.close, .paragraph [line])

/-- The blocks that a line outside code blocks ends, and the block it leaves open. -/
def Pending.addLine (open' : Pending) (line : List Char) : List Block × Pending :=
  let trimmed := Text.trimStart line
  match fence? trimmed with
  | some fence => (open'.close, .code fence [])
  | none =>
    if trimmed.isEmpty then (open'.close, .nothing)
    else
      match heading? trimmed with
      | some (level, text) => (open'.close ++ [.heading level text], .nothing)
      | none =>
        if isThematicBreak trimmed then (open'.close ++ [.thematicBreak], .nothing)
        else
          match bullet? line with
          | some item => open'.addItem item
          | none => open'.addText trimmed

/-- The blocks that a line ends, and the block it leaves open. -/
def Pending.step (open' : Pending) (line : List Char) : List Block × Pending :=
  match open' with
  | .code fence lines =>
    if fence.isClosedBy line then ((Pending.code fence lines).close, .nothing)
    else ([], .code fence (line :: lines))
  | open' => open'.addLine line

def blocksFrom (open' : Pending) : List (List Char) → List Block
  | [] => open'.close
  | line :: lines =>
    let (blocks, open') := open'.step line
    blocks ++ blocksFrom open' lines

def blocks (text : List Char) : List Block :=
  blocksFrom .nothing (Text.lines text)

/-- A code block as markup. The first word of its info is its language. -/
def codeMarkup (highlighter : Highlighter) (info code : List Char) :
    Except HighlightFault (List Char) :=
  let language := Text.firstWord info
  if language.isEmpty then
    .ok ("<pre><code>".toList ++ Markup.escape code ++ "</code></pre>".toList)
  else
    (highlighter code (String.ofList language)).map fun body =>
      "<pre><code class=\"language-".toList ++ Markup.escape language ++ "\">".toList ++ body ++
        "</code></pre>".toList

def joinLines (lines : List (List Char)) : List Char :=
  ['\n'].intercalate lines

/-- A block as markup. Only code can fail to be shown. -/
def Block.render (highlighter : Highlighter) : Block → Except HighlightFault (List Char)
  | .code info lines => codeMarkup highlighter info (joinLines lines)
  | .heading level text => .ok (Inline.inElement s!"h{level}" (Inline.render text))
  | .thematicBreak => .ok "<hr>".toList
  | .list items =>
    .ok (Inline.inElement "ul"
      (items.flatMap fun item => Inline.inElement "li" (Inline.render item)))
  | .paragraph lines => .ok (Inline.inElement "p" (Inline.render (joinLines lines)))

def render (highlighter : Highlighter) (text : List Char) : Except HighlightFault (List Char) :=
  ((blocks text).mapM (Block.render highlighter)).map List.flatten

end CodeAtlas.Markdown

namespace CodeAtlas

/-- Source highlighted by its parse trees, Markdown rendered, and the code in it highlighted too. -/
def Presentation.rich (parse : Parse) : Presentation where
  source := highlight parse
  markdown := Markdown.render (highlight parse)

end CodeAtlas
