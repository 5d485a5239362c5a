import CodeAtlas.Proofs.Render.Highlighting

/-!
# Every token of a well-formed tree is marked

The walk through a tree ends, and has collected the tokens of the tree in its order (`collect_eq`): its
outermost leaves that have a text. In a tree whose nodes lie side by side inside the nodes around them the
tokens lie side by side as well, so none of them is passed over: the markup is the text of each token,
marked by its class, and what stands between (`Laid`).
-/

namespace CodeAtlas

namespace ParseNode

mutual

theorem induction {motive : ParseNode → Prop}
    (step : ∀ tree : ParseNode, (∀ child ∈ tree.children, motive child) → motive tree) :
    (tree : ParseNode) → motive tree
  | .node kind named start stop children =>
    step (.node kind named start stop children) (forall_of_step step children)

theorem forall_of_step {motive : ParseNode → Prop}
    (step : ∀ tree : ParseNode, (∀ child ∈ tree.children, motive child) → motive tree) :
    (trees : List ParseNode) → ∀ tree ∈ trees, motive tree
  | [] => fun _ mem => absurd mem List.not_mem_nil
  | tree :: trees => List.forall_mem_cons.mpr ⟨induction step tree, forall_of_step step trees⟩

end

/-! ### Outermost leaves -/

def IsCommentKind (kind : String) : Prop :=
  "comment".toList <:+: kind.toList

def IsLiteralKind (kind : String) : Prop :=
  kind ∈ ["string", "string_literal", "raw_string_literal", "interpreted_string_literal",
    "template_string", "char_literal", "character_literal", "rune_literal"]

/-- A node that is one token, if it has a text and is in no other such node. -/
def IsWhole (node : ParseNode) : Prop :=
  node.children = [] ∨ IsCommentKind node.kind ∨ IsLiteralKind node.kind

theorem isLeaf_iff (node : ParseNode) : node.isLeaf = true ↔ node.IsWhole := by
  simp only [isLeaf, Token.isAtomic, Token.isComment, Token.kindHas, Bool.or_eq_true, List.isEmpty_iff,
    Text.containsRun_iff, List.contains_iff_mem]
  rfl

instance (node : ParseNode) : Decidable node.IsWhole :=
  decidable_of_iff _ node.isLeaf_iff

structure Place where
  /-- The nodes around it, innermost first. -/
  around : List ParseNode
  node : ParseNode

/-- The node at the place is one token, and no node around it is. -/
def Place.IsToken (place : Place) : Prop :=
  place.node.IsWhole ∧ (∀ outer ∈ place.around, ¬ outer.IsWhole) ∧ place.node.start < place.node.stop

instance (place : Place) : Decidable place.IsToken :=
  inferInstanceAs (Decidable (_ ∧ _))

def Place.token (place : Place) : Token where
  outer := place.around.head?.map kind
  kind := place.node.kind
  named := place.node.named
  start := place.node.start
  stop := place.node.stop

mutual

/-- All nodes of a tree inside the nodes `around`, each before those inside it. -/
def places (around : List ParseNode) : ParseNode → List Place
  | .node kind named start stop children =>
    ⟨around, .node kind named start stop children⟩ ::
      placesIn (.node kind named start stop children :: around) children

def placesIn (around : List ParseNode) : List ParseNode → List Place
  | [] => []
  | tree :: trees => tree.places around ++ placesIn around trees

end

theorem placesIn_eq (around trees : List ParseNode) :
    placesIn around trees = trees.flatMap (places around) := by
  induction trees with
  | nil => rfl
  | cons tree trees ih => rw [placesIn, ih, List.flatMap_cons]

theorem places_eq (around : List ParseNode) (tree : ParseNode) :
    tree.places around = ⟨around, tree⟩ :: tree.children.flatMap (places (tree :: around)) := by
  cases tree with
  | node kind named start stop inner =>
    rw [places, placesIn_eq]
    rfl

/-- Inside a node that is one token there are no further tokens. -/
theorem not_isToken_of_whole_around {around : List ParseNode} {whole : ParseNode} (isWhole : whole.IsWhole)
    (mem : whole ∈ around) (tree : ParseNode) : ∀ place ∈ tree.places around, ¬ place.IsToken := by
  induction tree using ParseNode.induction generalizing around with
  | step tree ih =>
    intro place listed token
    rw [places_eq] at listed
    rcases List.mem_cons.mp listed with rfl | inside
    · exact token.2.1 whole mem isWhole
    · obtain ⟨child, isChild, inside⟩ := List.mem_flatMap.mp inside
      exact ih child isChild (List.mem_cons_of_mem _ mem) place inside token

/-! ### Nodes side by side -/

/-- Of two nodes that have a text, the first ends before the second starts. -/
def Precedes (first second : ParseNode) : Prop :=
  first.start < first.stop → second.start < second.stop → first.stop ≤ second.start

instance : DecidableRel Precedes :=
  fun first second => inferInstanceAs (Decidable
    (first.start < first.stop → second.start < second.stop → first.stop ≤ second.start))

/-- The node starts and stops between characters of the source, and the nodes inside it lie within it and
side by side. -/
def Fits (source : List Char) (tree : ParseNode) : Prop :=
  Text.IsBoundary source tree.start ∧ Text.IsBoundary source tree.stop ∧
    (∀ child ∈ tree.children, tree.start ≤ child.start ∧ child.stop ≤ tree.stop) ∧
    tree.children.Pairwise Precedes

instance (source : List Char) (tree : ParseNode) : Decidable (tree.Fits source) :=
  inferInstanceAs (Decidable (_ ∧ _))

def Arranged (source : List Char) (tree : ParseNode) : Prop :=
  ∀ place ∈ tree.places [], place.node.Fits source

instance (source : List Char) (tree : ParseNode) : Decidable (tree.Arranged source) :=
  inferInstanceAs (Decidable (∀ place ∈ _, _))

theorem map_node_places (around : List ParseNode) (tree : ParseNode) :
    (tree.places around).map Place.node = (tree.places []).map Place.node := by
  induction tree using ParseNode.induction generalizing around with
  | step tree ih =>
    rw [places_eq, places_eq [], List.map_cons, List.map_cons, List.map_flatMap, List.map_flatMap]
    refine congrArg (tree :: ·) (List.flatMap_congr fun child mem => ?_)
    rw [ih child mem, ih child mem [tree]]

theorem Arranged.fits {source : List Char} {tree : ParseNode} (arranged : tree.Arranged source) :
    tree.Fits source := by
  refine arranged ⟨[], tree⟩ ?_
  rw [places_eq]
  exact List.mem_cons_self

theorem Arranged.child {source : List Char} {tree child : ParseNode} (arranged : tree.Arranged source)
    (mem : child ∈ tree.children) : child.Arranged source := by
  intro place listed
  have inside : place.node ∈ (child.places [tree]).map Place.node := by
    rw [map_node_places]
    exact List.mem_map_of_mem listed
  obtain ⟨other, listed, same⟩ := List.mem_map.mp inside
  rw [← same]
  refine arranged other ?_
  rw [places_eq]
  exact List.mem_cons_of_mem _ (List.mem_flatMap.mpr ⟨child, mem, listed⟩)

end ParseNode

namespace Token

open ParseNode (Place)

mutual

/-- The tokens of a tree inside a node of kind `outer`, in the order of the tree. -/
def ofNode (outer : Option String) : ParseNode → List Token
  | .node kind named start stop children =>
    if (ParseNode.node kind named start stop children).isLeaf then
      if start < stop then [⟨outer, kind, named, start, stop⟩] else []
    else ofNodes kind children

def ofNodes (outer : String) : List ParseNode → List Token
  | [] => []
  | tree :: trees => ofNode (some outer) tree ++ ofNodes outer trees

end

theorem ofNodes_eq (outer : String) (trees : List ParseNode) :
    ofNodes outer trees = trees.flatMap (ofNode (some outer)) := by
  induction trees with
  | nil => rfl
  | cons tree trees ih => rw [ofNodes, ih, List.flatMap_cons]

theorem ofNode_eq (outer : Option String) (tree : ParseNode) :
    ofNode outer tree =
      if tree.isLeaf then
        if tree.start < tree.stop then [⟨outer, tree.kind, tree.named, tree.start, tree.stop⟩] else []
      else tree.children.flatMap (ofNode (some tree.kind)) := by
  cases tree with
  | node kind named start stop children =>
    rw [ofNode, ofNodes_eq]
    rfl

/-- The tokens of a tree are its outermost whole nodes that have a text. -/
theorem ofNode_eq_places {around : List ParseNode} (inner : ∀ outer ∈ around, ¬ outer.IsWhole)
    (tree : ParseNode) :
    ofNode (around.head?.map ParseNode.kind) tree =
      ((tree.places around).filter fun place => decide place.IsToken).map Place.token := by
  induction tree using ParseNode.induction generalizing around with
  | step tree ih =>
    rw [ofNode_eq, ParseNode.places_eq]
    by_cases whole : tree.IsWhole
    · have inside : (tree.children.flatMap (ParseNode.places (tree :: around))).filter
          (fun place => decide place.IsToken) = [] := by
        rw [List.filter_eq_nil_iff]
        intro place mem
        obtain ⟨child, _, mem⟩ := List.mem_flatMap.mp mem
        simpa using ParseNode.not_isToken_of_whole_around whole List.mem_cons_self child place mem
      rw [if_pos (tree.isLeaf_iff.mpr whole), List.filter_cons, inside]
      by_cases text : tree.start < tree.stop
      · have here : Place.IsToken ⟨around, tree⟩ := ⟨whole, inner, text⟩
        simp [here, text, Place.token]
      · have here : ¬ Place.IsToken ⟨around, tree⟩ := fun token => text token.2.2
        simp [here, text]
    · have here : ¬ Place.IsToken ⟨around, tree⟩ := fun token => whole token.1
      have below : ∀ outer ∈ tree :: around, ¬ outer.IsWhole := List.forall_mem_cons.mpr ⟨whole, inner⟩
      rw [if_neg (mt tree.isLeaf_iff.mp whole), List.filter_cons_of_neg (by simpa using here),
        List.filter_flatMap, List.map_flatMap]
      exact List.flatMap_congr fun child mem => ih child mem below

end Token

/-! ### The walk -/

namespace Cursor

open Token (ofNode)

def outerKind (around : List (ParseNode × List ParseNode)) : Option String :=
  around.head?.map fun (parent, _) => parent.kind

/-- The tokens of what comes after the nodes around a place. -/
def outside : (around : List (ParseNode × List ParseNode)) → List Token
  | [] => []
  | (_, later) :: around => later.flatMap (ofNode (outerKind around)) ++ outside around

/-- The tokens of what comes after the node at the cursor. -/
def coming (cursor : Cursor) : List Token :=
  cursor.later.flatMap (ofNode (outerKind cursor.around)) ++ outside cursor.around

theorem coming_nextSibling? {cursor next : Cursor} (moved : cursor.nextSibling? = some next) :
    cursor.coming = ofNode (outerKind next.around) next.node ++ next.coming := by
  unfold nextSibling? at moved
  split at moved
  · cases moved
  · rename_i sibling later after
    cases moved
    simp [coming, after]

theorem later_of_nextSibling? {cursor : Cursor} (last : cursor.nextSibling? = none) : cursor.later = [] := by
  unfold nextSibling? at last
  split at last
  · assumption
  · cases last

theorem coming_parent? {cursor above : Cursor} (last : cursor.nextSibling? = none)
    (moved : cursor.parent? = some above) : above.coming = cursor.coming := by
  have none := later_of_nextSibling? last
  unfold parent? at moved
  split at moved
  · cases moved
  · rename_i parent later around outer
    cases moved
    simp [coming, none, outer, outside]

theorem coming_onward? {cursor next : Cursor} (moved : cursor.onward? = some next) :
    cursor.coming = ofNode (outerKind next.around) next.node ++ next.coming := by
  fun_induction onward? cursor with
  | case1 cursor sibling found =>
    cases moved
    exact coming_nextSibling? found
  | case2 cursor last above found ih => rw [← coming_parent? last found, ih moved]
  | case3 => cases moved

theorem coming_of_onward?_eq_none {cursor : Cursor} (ends : cursor.onward? = none) :
    cursor.coming = [] := by
  fun_induction onward? cursor with
  | case1 => cases ends
  | case2 cursor last above found ih => rw [← coming_parent? last found, ih ends]
  | case3 cursor last found =>
    have none := later_of_nextSibling? last
    unfold parent? at found
    split at found
    · rename_i outermost
      simp [coming, none, outermost, outside]
    · cases found

theorem coming_firstChild? {cursor child : Cursor} (divided : cursor.node.isLeaf = false)
    (moved : cursor.firstChild? = some child) :
    ofNode (outerKind cursor.around) cursor.node ++ cursor.coming =
      ofNode (outerKind child.around) child.node ++ child.coming := by
  rw [Token.ofNode_eq, divided]
  unfold firstChild? at moved
  split at moved
  · cases moved
  · rename_i first later inside
    cases moved
    simp [coming, outside, outerKind, inside]

theorem isLeaf_of_stays {cursor : Cursor}
    (stays : (if cursor.node.isLeaf then none else cursor.firstChild?) = none) :
    cursor.node.isLeaf = true := by
  by_contra divided
  rw [if_neg divided] at stays
  unfold firstChild? at stays
  split at stays
  · rename_i childless
    simp [ParseNode.isLeaf, childless] at divided
  · cases stays

theorem toList_push_token {cursor : Cursor} (leaf : cursor.node.isLeaf = true) (tokens : Array Token) :
    (if cursor.node.isLeaf && cursor.node.start < cursor.node.stop then tokens.push cursor.token
      else tokens).toList = tokens.toList ++ ofNode (outerKind cursor.around) cursor.node := by
  rw [Token.ofNode_eq, leaf]
  by_cases text : cursor.node.start < cursor.node.stop <;> simp [text, token, outerKind]

/-- The walk collects the tokens of the node at the cursor, and of all that comes after it. -/
theorem collect_eq (cursor : Cursor) (tokens : Array Token) :
    (cursor.collect tokens).toList =
      tokens.toList ++ (ofNode (outerKind cursor.around) cursor.node ++ cursor.coming) := by
  fun_induction collect cursor tokens with
  | case1 cursor tokens atomic child down ih =>
    obtain ⟨divided, moved⟩ : ¬ cursor.node.isLeaf = true ∧ cursor.firstChild? = some child := by
      simpa [atomic] using down
    rw [ih, coming_firstChild? (Bool.not_eq_true _ ▸ divided) moved]
  | case2 cursor tokens atomic stays passed next moved ih =>
    rw [ih, coming_onward? moved, ← List.append_assoc tokens.toList]
    exact congrArg (· ++ _) (toList_push_token (isLeaf_of_stays stays) tokens)
  | case3 cursor tokens atomic stays passed ends =>
    rw [coming_of_onward?_eq_none ends, List.append_nil]
    exact toList_push_token (isLeaf_of_stays stays) tokens

end Cursor

namespace Token

open ParseNode (Place)
open Markup (escape)

theorem ofTree_eq (tree : ParseNode) : ofTree tree = ofNode none tree := by
  rw [ofTree, Cursor.collect_eq]
  simp [Cursor.root, Cursor.outerKind, Cursor.coming, Cursor.outside]

/-! ### Tokens side by side -/

/-- The token has a text and lies between the given bytes, and divides no character of the source. -/
structure Within (source : List Char) (start stop : Nat) (token : Token) : Prop where
  start_le : start ≤ token.start
  start_lt_stop : token.start < token.stop
  stop_le : token.stop ≤ stop
  starts : Text.IsBoundary source token.start
  stops : Text.IsBoundary source token.stop

theorem within_of_arranged {source : List Char} {tree : ParseNode} (arranged : tree.Arranged source)
    (outer : Option String) : ∀ token ∈ ofNode outer tree, Within source tree.start tree.stop token := by
  induction tree using ParseNode.induction generalizing outer with
  | step tree ih =>
    intro token mem
    obtain ⟨starts, stops, inside, _⟩ := arranged.fits
    rw [ofNode_eq] at mem
    split at mem
    · split at mem
      · rename_i text
        obtain rfl := List.mem_singleton.mp mem
        exact ⟨Nat.le_refl _, text, Nat.le_refl _, starts, stops⟩
      · cases mem
    · obtain ⟨child, isChild, mem⟩ := List.mem_flatMap.mp mem
      have within := ih child isChild (arranged.child isChild) _ token mem
      obtain ⟨first, last⟩ := inside child isChild
      exact { within with
        start_le := first.trans within.start_le
        stop_le := within.stop_le.trans last }

theorem sorted_of_arranged {source : List Char} {tree : ParseNode} (arranged : tree.Arranged source)
    (outer : Option String) : (ofNode outer tree).Pairwise fun first second => first.stop ≤ second.start := by
  induction tree using ParseNode.induction generalizing outer with
  | step tree ih =>
    obtain ⟨_, _, _, apart⟩ := arranged.fits
    rw [ofNode_eq]
    split
    · split
      · exact List.pairwise_singleton _ _
      · exact .nil
    · rw [List.pairwise_flatMap]
      refine ⟨fun child mem => ih child mem (arranged.child mem) _, apart.imp_of_mem ?_⟩
      intro left right isLeft isRight precedes first memFirst second memSecond
      have one := within_of_arranged (arranged.child isLeft) _ first memFirst
      have two := within_of_arranged (arranged.child isRight) _ second memSecond
      have leftText := (one.start_le.trans_lt one.start_lt_stop).trans_le one.stop_le
      have rightText := (two.start_le.trans_lt two.start_lt_stop).trans_le two.stop_le
      exact one.stop_le.trans ((precedes leftText rightText).trans two.start_le)

/-! ### The markup of tokens side by side -/

/-- Markup that has every token's text in it, in a span of its class or unmarked if it has none, and what
stands between the tokens unmarked. `text` is what follows the first `position` bytes of the source. -/
inductive Laid : (position : Nat) → (text : List Char) → List Token → (markup : List Char) → Prop where
  | rest {position : Nat} {text : List Char} : Laid position text [] (escape text)
  | marked {position : Nat} {gap text rest : List Char} {token : Token} {tokens : List Token}
      {markup : List Char} {tokenClass : TokenClass} :
    position + Text.byteLength gap = token.start → token.start + Text.byteLength text = token.stop →
    token.classify (String.ofList text) = some tokenClass →
    Laid token.stop rest tokens markup →
    Laid position (gap ++ (text ++ rest)) (token :: tokens)
      (escape gap ++ ("<span class=\"".toList ++ tokenClass.style.toList ++ "\">".toList ++ escape text ++
        "</span>".toList ++ markup))
  | unmarked {position : Nat} {gap text rest : List Char} {token : Token} {tokens : List Token}
      {markup : List Char} :
    position + Text.byteLength gap = token.start → token.start + Text.byteLength text = token.stop →
    token.classify (String.ofList text) = none →
    Laid token.stop rest tokens markup →
    Laid position (gap ++ (text ++ rest)) (token :: tokens) (escape gap ++ (escape text ++ markup))

theorem Laid.wrapped {position : Nat} {gap text rest : List Char} {token : Token} {tokens : List Token}
    {markup : List Char} (gapBytes : position + Text.byteLength gap = token.start)
    (textBytes : token.start + Text.byteLength text = token.stop) (laid : Laid token.stop rest tokens markup) :
    Laid position (gap ++ (text ++ rest)) (token :: tokens)
      (escape gap ++ (wrap (token.classify (String.ofList text)) (escape text) ++ markup)) := by
  cases class? : token.classify (String.ofList text) with
  | none => exact .unmarked gapBytes textBytes class? laid
  | some tokenClass => exact .marked gapBytes textBytes class? laid

def Rendering.Reaches (r : Rendering) (source : List Char) : Prop :=
  ∃ done, source = done ++ r.rest ∧ Text.byteLength done = r.position

/-- A token that comes next is not passed over. -/
theorem Rendering.step_of_within {r : Rendering} {source : List Char} {token : Token}
    (reaches : r.Reaches source) (within : Within source r.position (Text.byteLength source) token) :
    ∃ gap text rest, r.rest = gap ++ (text ++ rest) ∧
      r.position + Text.byteLength gap = token.start ∧
      token.start + Text.byteLength text = token.stop ∧
      r.step (Text.byteLength source) token =
        ⟨token.stop, rest, (r.written.reverse ++ (escape gap ++
          wrap (token.classify (String.ofList text)) (escape text))).reverse⟩ := by
  obtain ⟨done, split, bytes⟩ := reaches
  have starts := within.starts
  rw [split] at starts
  obtain ⟨gap, after, passed, gapBytes⟩ := starts.between (bytes ▸ within.start_le)
  have stops := within.stops
  rw [split, passed, ← List.append_assoc] at stops
  have reached : Text.byteLength (done ++ gap) = token.start := by
    rw [Text.byteLength_append, gapBytes]
  obtain ⟨text, rest, tail, textBytes⟩ := stops.between (reached ▸ within.start_lt_stop.le)
  subst tail
  refine ⟨gap, text, rest, passed, by omega, by omega, ?_⟩
  have notPassedOver : (token.start < r.position || Text.byteLength source < token.stop) = false := by
    have := within.start_le
    have := within.stop_le
    simp
    omega
  have first : token.start - r.position = Text.byteLength gap := by omega
  have second : token.stop - token.start = Text.byteLength text := by omega
  unfold step
  rw [notPassedOver, if_neg Bool.false_ne_true, passed, first, second, Text.splitBytes_byteLength]
  simp [Text.splitBytes_byteLength, List.reverseAux_eq]

theorem Rendering.laid_of_within {source : List Char} {tokens : List Token} {r : Rendering}
    (reaches : r.Reaches source)
    (within : ∀ token ∈ tokens, Within source r.position (Text.byteLength source) token)
    (sorted : tokens.Pairwise fun first second => first.stop ≤ second.start) :
    ∃ markup, Laid r.position r.rest tokens markup ∧
      (tokens.foldl (step (Text.byteLength source)) r).written.reverse ++
        escape (tokens.foldl (step (Text.byteLength source)) r).rest = r.written.reverse ++ markup := by
  induction tokens generalizing r with
  | nil => exact ⟨escape r.rest, .rest, rfl⟩
  | cons token tokens ih =>
    obtain ⟨next, later⟩ := List.forall_mem_cons.mp within
    obtain ⟨before, sorted⟩ := List.pairwise_cons.mp sorted
    obtain ⟨gap, text, rest, passed, gapBytes, textBytes, stepped⟩ := step_of_within reaches next
    rw [List.foldl_cons, stepped, passed]
    generalize written : (r.written.reverse ++ (escape gap ++
      wrap (token.classify (String.ofList text)) (escape text))).reverse = all
    have reachesNext : Reaches ⟨token.stop, rest, all⟩ source := by
      obtain ⟨done, split, bytes⟩ := reaches
      refine ⟨done ++ (gap ++ text), ?_, ?_⟩
      · rw [split, passed]
        simp
      · simp only [Text.byteLength_append]
        omega
    have withinNext : ∀ other ∈ tokens, Within source token.stop (Text.byteLength source) other :=
      fun other mem => { later other mem with start_le := before other mem }
    obtain ⟨markup, laid, rendered⟩ := ih reachesNext withinNext sorted
    refine ⟨_, .wrapped gapBytes textBytes laid, ?_⟩
    rw [rendered, ← written]
    simp

theorem render_laid {source : List Char} {tree : ParseNode} (arranged : tree.Arranged source)
    (inside : tree.stop ≤ Text.byteLength source) (outer : Option String) :
    Laid 0 source (ofNode outer tree) (render source (ofNode outer tree)) := by
  have start : Rendering.Reaches ⟨0, source, []⟩ source := ⟨[], rfl, rfl⟩
  have within : ∀ token ∈ ofNode outer tree, Within source 0 (Text.byteLength source) token := by
    intro token mem
    have within := within_of_arranged arranged outer token mem
    exact { within with
      start_le := Nat.zero_le _
      stop_le := within.stop_le.trans inside }
  obtain ⟨markup, laid, rendered⟩ :=
    Rendering.laid_of_within start within (sorted_of_arranged arranged outer)
  rw [render, rendered]
  exact laid

/-- In a tree whose nodes lie side by side, inside a source and between its characters, the tokens are the
outermost whole nodes that have a text, one after the other and without overlap. All of them are written:
each with its text, in a span of its class if it has one, and with what stands between them unmarked. -/
theorem arranged_tokens_marked {source : List Char} {tree : ParseNode} (arranged : tree.Arranged source)
    (inside : tree.stop ≤ Text.byteLength source) :
    ofTree tree = ((tree.places []).filter fun place => decide place.IsToken).map Place.token ∧
    (∀ token ∈ ofTree tree, token.start < token.stop) ∧
    ((ofTree tree).Pairwise fun first second => first.stop ≤ second.start) ∧
    Laid 0 source (ofTree tree) (render source (ofTree tree)) := by
  rw [ofTree_eq]
  have outermost : ∀ outer ∈ ([] : List ParseNode), ¬ outer.IsWhole := fun _ mem => absurd mem List.not_mem_nil
  refine ⟨ofNode_eq_places outermost tree, ?_, sorted_of_arranged arranged none,
    render_laid arranged inside none⟩
  intro token mem
  exact (within_of_arranged arranged none token mem).start_lt_stop

/-- A call with a string literal in which there are nodes as well, an empty node after it, and a comment
that is divided into nodes. -/
def callTree : ParseNode :=
  .node "source_file" true 0 16
    [.node "return_statement" true 0 14
      [.node "return" false 0 6 [],
        .node "call" true 7 14 [.node "identifier" true 7 8 [], .node "(" false 8 9 [],
          .node "string" true 9 13 [.node "\"" false 9 10 [], .node "\"" false 12 13 []],
          .node ")" false 13 14 [], .node "newline" true 14 14 []]],
      .node "line_comment" true 14 16 [.node "#" false 14 15 [], .node "content" true 15 16 []]]

def callSource : List Char :=
  "return f(\"é\")#<".toList

theorem arranged_tokens_marked_call :
    callTree.Arranged callSource ∧ callTree.stop ≤ Text.byteLength callSource ∧
      (ofTree callTree).map Token.start = [0, 7, 8, 9, 13, 14] ∧
      Laid 0 callSource (ofTree callTree)
        ("<span class=\"hl-keyword\">return</span> <span class=\"hl-function\">f</span>(" ++
          "<span class=\"hl-string\">&quot;é&quot;</span>)" ++
          "<span class=\"hl-comment\">#&lt;</span>").toList := by
  have arranged : callTree.Arranged callSource := by decide
  have inside : callTree.stop ≤ Text.byteLength callSource := by decide
  have written : render callSource (ofTree callTree) =
      ("<span class=\"hl-keyword\">return</span> <span class=\"hl-function\">f</span>(" ++
        "<span class=\"hl-string\">&quot;é&quot;</span>)" ++
        "<span class=\"hl-comment\">#&lt;</span>").toList := by decide +kernel
  obtain ⟨_, _, _, laid⟩ := arranged_tokens_marked arranged inside
  exact ⟨arranged, inside, by decide +kernel, written ▸ laid⟩

end Token

end CodeAtlas
