import CodeAtlas.Render.Basic
import CodeAtlas.Render.Language
import CodeAtlas.Text.Find
import CodeAtlas.Text.Utf8

/-!
# Highlighted source

Source is highlighted from its parse tree. The tokens are the leaves of the tree, comments and string
literals counting as one leaf each; a cursor that walks through the tree collects them. The class of a
token follows from the kind of its node, its text and the kind of the node around it. Every character of
the source is written once, escaped; the text of a classified token is wrapped in a span.
-/

namespace CodeAtlas

/-- A node of a parse tree, with its place in the source in bytes. -/
inductive ParseNode where
  | node (kind : String) (named : Bool) (start stop : Nat) (children : List ParseNode)
  deriving Inhabited, Repr

namespace ParseNode

def kind : ParseNode → String
  | .node kind _ _ _ _ => kind

def named : ParseNode → Bool
  | .node _ named _ _ _ => named

def start : ParseNode → Nat
  | .node _ _ start _ _ => start

def stop : ParseNode → Nat
  | .node _ _ _ stop _ => stop

def children : ParseNode → List ParseNode
  | .node _ _ _ _ children => children

end ParseNode

/-- A parser: why it cannot be set to a language, or the trees that it then has for sources. -/
abbrev Parse := (language : Language) → Except String ((source : List Char) → Option ParseNode)

inductive TokenClass where
  | comment
  | string
  | constant
  | keyword
  | number
  | type
  | function
  deriving DecidableEq, Repr

def TokenClass.style : TokenClass → String
  | .comment => "hl-comment"
  | .string => "hl-string"
  | .constant => "hl-constant"
  | .keyword => "hl-keyword"
  | .number => "hl-number"
  | .type => "hl-type"
  | .function => "hl-function"

/-- A leaf of a parse tree, with its place in the source in bytes and the kind of the node around
it. -/
structure Token where
  outer : Option String
  kind : String
  named : Bool
  start : Nat
  stop : Nat
  deriving DecidableEq, Repr

namespace Token

def stringKinds : List String :=
  ["string", "string_literal", "raw_string_literal", "interpreted_string_literal", "template_string",
    "char_literal", "character_literal", "rune_literal"]

def numberKinds : List String :=
  ["integer", "float", "number", "integer_literal", "float_literal", "int_literal",
    "imaginary_literal", "decimal_integer_literal", "decimal_floating_point_literal",
    "hex_integer_literal", "octal_integer_literal", "binary_integer_literal"]

def typeKinds : List String :=
  ["type_identifier", "primitive_type", "predefined_type", "integral_type", "floating_point_type",
    "boolean_type", "void_type"]

def constants : List String :=
  ["true", "false", "nil", "null", "None", "True", "False", "undefined", "iota"]

def kindHas (kind part : String) : Bool :=
  Text.containsRun part.toList kind.toList

def isComment (kind : String) : Bool :=
  kindHas kind "comment"

/-- Whether a node of this kind is one token, whatever is inside it. -/
def isAtomic (kind : String) : Bool :=
  isComment kind || stringKinds.contains kind

/-- Whether a name inside a node of this kind is the name of a function. -/
def namesFunction (outer : Option String) : Bool :=
  match outer with
  | none => false
  | some kind =>
    kindHas kind "function" || kindHas kind "method" || "call".toList.isPrefixOf kind.toList

def classify (token : Token) (text : String) : Option TokenClass :=
  if isComment token.kind then some .comment
  else if stringKinds.contains token.kind then some .string
  else if constants.contains text || token.kind == "boolean" || token.kind == "null_literal" then
    some .constant
  else if !token.named then
    if 1 < token.kind.utf8ByteSize && token.kind.toList.all fun c => c.isAlpha || c == '_' then
      some .keyword
    else none
  else if numberKinds.contains token.kind then some .number
  else if typeKinds.contains token.kind then some .type
  else if "identifier".toList.isSuffixOf token.kind.toList && namesFunction token.outer then
    some .function
  else none

end Token

/-- Whether a node is one token: it has nothing inside it, or what is inside does not count. -/
def ParseNode.isLeaf (node : ParseNode) : Bool :=
  node.children.isEmpty || Token.isAtomic node.kind

namespace ParseNode

mutual

def size : ParseNode → Nat
  | .node _ _ _ _ children => 1 + sizes children

def sizes : List ParseNode → Nat
  | [] => 0
  | tree :: trees => size tree + sizes trees

end

theorem size_eq (tree : ParseNode) : tree.size = 1 + sizes tree.children := by
  cases tree with
  | node kind named start stop children => rw [size]; rfl

end ParseNode

/-- A place in a parse tree: a node, those that come after it inside the same node, and the nodes around
it, innermost first, each with those that come after it. -/
structure Cursor where
  node : ParseNode
  later : List ParseNode
  around : List (ParseNode × List ParseNode)

namespace Cursor

def root (tree : ParseNode) : Cursor :=
  ⟨tree, [], []⟩

def firstChild? (cursor : Cursor) : Option Cursor :=
  match cursor.node.children with
  | [] => none
  | child :: later => some ⟨child, later, (cursor.node, cursor.later) :: cursor.around⟩

def nextSibling? (cursor : Cursor) : Option Cursor :=
  match cursor.later with
  | [] => none
  | next :: later => some ⟨next, later, cursor.around⟩

def parent? (cursor : Cursor) : Option Cursor :=
  match cursor.around with
  | [] => none
  | (parent, later) :: around => some ⟨parent, later, around⟩

theorem length_around_parent? {cursor above : Cursor} (moved : cursor.parent? = some above) :
    above.around.length < cursor.around.length := by
  unfold parent? at moved
  split at moved
  · cases moved
  · rename_i outer
    cases moved
    simp [outer]

/-- The next node that is not inside the one at the cursor: up from node to node until one has a next
sibling. -/
def onward? (cursor : Cursor) : Option Cursor :=
  match cursor.nextSibling? with
  | some next => some next
  | none =>
    match _ : cursor.parent? with
    | some above => above.onward?
    | none => none
termination_by cursor.around.length
decreasing_by exact length_around_parent? ‹_›

/-- The number of nodes that come after the one at the cursor and those inside it. -/
def beyond (cursor : Cursor) : Nat :=
  ParseNode.sizes cursor.later +
    cursor.around.foldr (fun (_, later) nodes => ParseNode.sizes later + nodes) 0

/-- The number of nodes that the walk has not passed yet. -/
def ahead (cursor : Cursor) : Nat :=
  cursor.node.size + cursor.beyond

theorem ahead_firstChild? {cursor child : Cursor} (moved : cursor.firstChild? = some child) :
    child.ahead < cursor.ahead := by
  unfold firstChild? at moved
  split at moved
  · cases moved
  · rename_i first later inside
    cases moved
    simp only [ahead, beyond, List.foldr_cons, ParseNode.size_eq cursor.node, inside, ParseNode.sizes]
    omega

theorem ahead_nextSibling? {cursor next : Cursor} (moved : cursor.nextSibling? = some next) :
    next.ahead = cursor.beyond := by
  unfold nextSibling? at moved
  split at moved
  · cases moved
  · rename_i first later inside
    cases moved
    simp only [ahead, beyond, inside, ParseNode.sizes, Nat.add_assoc]

theorem beyond_parent? {cursor above : Cursor} (last : cursor.nextSibling? = none)
    (moved : cursor.parent? = some above) : above.beyond = cursor.beyond := by
  unfold nextSibling? at last
  split at last
  · rename_i none
    unfold parent? at moved
    split at moved
    · cases moved
    · rename_i parent later around outer
      cases moved
      simp only [beyond, none, outer, List.foldr_cons, ParseNode.sizes, Nat.zero_add]
  · cases last

theorem ahead_onward? {cursor next : Cursor} (moved : cursor.onward? = some next) :
    next.ahead = cursor.beyond := by
  fun_induction onward? cursor with
  | case1 cursor sibling found =>
    cases moved
    exact ahead_nextSibling? found
  | case2 cursor last above found ih => rw [ih moved, beyond_parent? last found]
  | case3 => cases moved

def token (cursor : Cursor) : Token where
  outer := cursor.around.head?.map fun (parent, _) => parent.kind
  kind := cursor.node.kind
  named := cursor.node.named
  start := cursor.node.start
  stop := cursor.node.stop

/-- The tokens from the cursor on, after those collected so far. Leaves without a text are no tokens. -/
def collect (cursor : Cursor) (tokens : Array Token) : Array Token :=
  let atomic := cursor.node.isLeaf
  match _ : if atomic then none else cursor.firstChild? with
  | some child => child.collect tokens
  | none =>
    let tokens :=
      if atomic && cursor.node.start < cursor.node.stop then tokens.push cursor.token else tokens
    match _ : cursor.onward? with
    | some next => next.collect tokens
    | none => tokens
termination_by cursor.ahead
decreasing_by
  · exact ahead_firstChild? (by simp_all)
  · rw [ahead_onward? ‹_›, ahead, ParseNode.size_eq]
    omega

end Cursor

namespace Token

def ofTree (tree : ParseNode) : List Token :=
  ((Cursor.root tree).collect #[]).toList

/-- A token's escaped text, in a span if the token has a class. -/
def wrap (tokenClass : Option TokenClass) (text : List Char) : List Char :=
  match tokenClass with
  | none => text
  | some c => "<span class=\"".toList ++ c.style.toList ++ "\">".toList ++ text ++ "</span>".toList

/-- Highlighted source in the making: how many bytes are written, what is left, and the markup so far,
last character first. -/
structure Rendering where
  position : Nat
  rest : List Char
  written : List Char

/-- Writes the text up to a token and the token. One that starts before what is written or ends after
the source, which takes `size` bytes, is passed over. -/
def Rendering.step (size : Nat) (r : Rendering) (token : Token) : Rendering :=
  if token.start < r.position || size < token.stop then r
  else
    let (gap, rest) := Text.splitBytes (token.start - r.position) r.rest
    let (text, rest) := Text.splitBytes (token.stop - token.start) rest
    ⟨token.stop, rest,
      (wrap (token.classify (String.ofList text)) (Markup.escape text)).reverseAux
        ((Markup.escape gap).reverseAux r.written)⟩

def render (source : List Char) (tokens : List Token) : List Char :=
  let last := tokens.foldl (Rendering.step (Text.byteLength source)) ⟨0, source, []⟩
  last.written.reverse ++ Markup.escape last.rest

end Token

/-- The source as markup, highlighted if its language has a grammar. -/
def highlight (parse : Parse) : Highlighter := fun source languageId =>
  match Language.ofId? languageId with
  | none => .ok (Markup.escape source)
  | some language =>
    match parse language with
    | .error reason => .error ⟨language.id, reason⟩
    | .ok tree? =>
      match tree? source with
      | none => .error ⟨language.id, "parser returned no tree"⟩
      | some tree => .ok (Token.render source (Token.ofTree tree))

end CodeAtlas
