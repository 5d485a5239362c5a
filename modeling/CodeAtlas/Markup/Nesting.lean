import CodeAtlas.Text.Lines
import CodeAtlas.Text.Find

/-!
# Nesting of tags

The structural check of a page: entities and comments are terminated, and every element that is
opened is closed, innermost first. Void elements and tags that end in `/` open nothing. What a
`script` or `style` element holds is raw text, up to the next closing tag of its name.
-/

namespace CodeAtlas.Markup

/-- Why markup is not well nested. The number is a line, counted from one. -/
inductive NestingFault where
  | openEntity (line : Nat)
  | openComment (line : Nat)
  | openTag (line : Nat)
  | strayBracket (line : Nat)
  | strayClosing (line : Nat) (name : List Char)
  | wrongClosing (line : Nat) (name expected : List Char)
  | rawUnclosed (line : Nat) (name : List Char)
  | unclosed (name : List Char)
  deriving DecidableEq, Repr

def NestingFault.message : NestingFault → String
  | .openEntity line => s!"line {line}: unterminated entity"
  | .openComment line => s!"line {line}: unterminated comment"
  | .openTag line => s!"line {line}: unterminated tag"
  | .strayBracket line => s!"line {line}: stray '<'"
  | .strayClosing line name => s!"line {line}: stray </" ++ String.ofList name ++ ">"
  | .wrongClosing line name expected =>
    s!"line {line}: </" ++ String.ofList name ++ "> closes <" ++ String.ofList expected ++ ">"
  | .rawUnclosed line name => s!"line {line}: <" ++ String.ofList name ++ "> is never closed"
  | .unclosed name => "<" ++ String.ofList name ++ "> is never closed"

namespace Nesting

def voidElements : List (List Char) :=
  ["area", "base", "br", "col", "embed", "hr", "img", "input", "link", "meta", "source", "track",
    "wbr"].map String.toList

def rawElements : List (List Char) :=
  ["script", "style"].map String.toList

def lower (name : List Char) : List Char :=
  name.map Char.toLower

/-- The length of the entity that `'&' :: text` starts with, `&` and `;` included: one to 32 letters,
digits or `#` up to a `;`. -/
def entityLength? (text : List Char) : Option Nat :=
  let body := (text.take 33).takeWhile fun c => c.isAlphanum || c == '#'
  if text[body.length]? = some ';' && 0 < body.length && body.length < 33 then
    some (body.length + 2)
  else none

/-- The number of characters before the `>` that ends a tag, from after its `<`: the first one outside
quotes, unless a `<` outside quotes comes before it. -/
def tagLength? (quote : Option Char) (passed : Nat) : List Char → Option Nat
  | [] => none
  | c :: rest =>
    match quote with
    | some q => tagLength? (if c = q then none else quote) (passed + 1) rest
    | none =>
      if c = '>' then some passed
      else if c = '<' then none
      else if c = '"' || c = '\'' then tagLength? (some c) (passed + 1) rest
      else tagLength? none (passed + 1) rest

/-- The name that a start tag opens, in lower case, if it starts with a letter. -/
def tagName? (tag : List Char) : Option (List Char) :=
  match tag.takeWhile fun c => c.isAlphanum || c == '-' with
  | [] => none
  | c :: rest => if c.isAlpha then some (lower (c :: rest)) else none

/-- The name that a closing tag closes, from after its `/`. -/
def closingName (tag : List Char) : List Char :=
  lower (Text.trim tag)

/-- The number of characters before the next closing tag of a raw element. -/
def rawLength? (name text : List Char) : Option Nat :=
  (Text.splitAtRun ('<' :: '/' :: name) (lower text)).map fun (before, _) => before.length

/-- What one step of the scan does at a `<` or `&`: passes this many characters after it, with these
elements open. -/
structure Step where
  passed : Nat
  opened : List (List Char)

def stepClosing (line : Nat) (opened : List (List Char)) (name : List Char) (passed : Nat) :
    Except NestingFault Step :=
  match opened with
  | [] => .error (.strayClosing line name)
  | expected :: outer =>
    if expected = name then .ok ⟨passed, outer⟩ else .error (.wrongClosing line name expected)

/-- A start tag, where `after` is the text behind it. -/
def stepOpening (line : Nat) (opened : List (List Char)) (tag after : List Char) (passed : Nat) :
    Except NestingFault Step :=
  match tagName? tag with
  | none => .error (.strayBracket line)
  | some name =>
    if tag.getLast? = some '/' || name ∈ voidElements then .ok ⟨passed, opened⟩
    else if name ∈ rawElements then
      match rawLength? name after with
      | none => .error (.rawUnclosed line name)
      | some skipped => .ok ⟨passed + skipped, name :: opened⟩
    else .ok ⟨passed, name :: opened⟩

/-- A tag other than a comment, from after its `<`. -/
def stepTag (line : Nat) (opened : List (List Char)) (rest : List Char) : Except NestingFault Step :=
  match tagLength? none 0 rest with
  | none => .error (.openTag line)
  | some length =>
    match rest.take length with
    | '!' :: _ | '?' :: _ => .ok ⟨length + 1, opened⟩
    | '/' :: name => stepClosing line opened (closingName name) (length + 1)
    | tag => stepOpening line opened tag (rest.drop (length + 1)) (length + 1)

def stepBracket (line : Nat) (opened : List (List Char)) (rest : List Char) :
    Except NestingFault Step :=
  match Text.dropRun? ['!', '-', '-'] rest with
  | some body =>
    match Text.splitAtRun ['-', '-', '>'] body with
    | none => .error (.openComment line)
    | some (comment, _) => .ok ⟨3 + comment.length + 3, opened⟩
  | none => stepTag line opened rest

def stepEntity (line : Nat) (opened : List (List Char)) (rest : List Char) :
    Except NestingFault Step :=
  match entityLength? rest with
  | none => .error (.openEntity line)
  | some length => .ok ⟨length - 1, opened⟩

/-- Scans the text from the given line on, with the given elements open, innermost first. -/
def scan (line : Nat) (opened : List (List Char)) : List Char → Except NestingFault Unit
  | [] =>
    match opened with
    | [] => .ok ()
    | name :: _ => .error (.unclosed name)
  | c :: rest =>
    if c = '<' || c = '&' then
      match if c = '<' then stepBracket line opened rest else stepEntity line opened rest with
      | .error fault => .error fault
      | .ok ⟨passed, opened⟩ =>
        scan (line + (rest.take passed).count '\n') opened (rest.drop passed)
    else scan (if c = '\n' then line + 1 else line) opened rest
termination_by text => text.length

end Nesting

def checkNesting (markup : List Char) : Except NestingFault Unit :=
  Nesting.scan 1 [] markup

end CodeAtlas.Markup
