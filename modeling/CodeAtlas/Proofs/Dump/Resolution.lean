import CodeAtlas.Dump.Chain
import CodeAtlas.Proofs.Dump.Adjacency
import Mathlib.Data.List.Nodup

/-!
# First match along the chain

`Resolves` says what the answer to a question along a chain is: the target of the first edge asked
for, nothing if the chain ends without one, and otherwise the vertex at which the chain closes.
A walk gives this answer from wherever it has come (`resolves_follow`), and there is no other.
-/

namespace CodeAtlas

/-! ### Chains -/

def firstLinkIn (elements : List Element) (id : ElementId) (label : EdgeLabel) : Option Link :=
  (linksFrom elements id).find? fun link => link.edge.label == label

/-- The vertex after `id` on its chain: the first target of the first `next` edge. -/
def nextIn (elements : List Element) (id : ElementId) : Option ElementId :=
  (firstLinkIn elements id .next).map fun link => link.edge.target

def chainAt (elements : List Element) (start : ElementId) : Nat → Option ElementId
  | 0 => some start
  | place + 1 => (chainAt elements start place).bind (nextIn elements)

/-- No vertex of the chain before the given place has an edge with the label. -/
def Unanswered (elements : List Element) (start : ElementId) (label : EdgeLabel) (place : Nat) :
    Prop :=
  ∀ earlier < place, ∀ id, chainAt elements start earlier = some id →
    firstLinkIn elements id label = none

def Unrepeated (elements : List Element) (start : ElementId) (place : Nat) : Prop :=
  ∀ i j, i < j → j < place → chainAt elements start i ≠ chainAt elements start j

/-- What the answer to a question along the chain from `start` is. -/
inductive Resolves (elements : List Element) (start : ElementId) (label : EdgeLabel) :
    Except DumpFault (Option (ElementId × Vertex)) → Prop where
  /-- A vertex has an edge with the label, and none before it on the chain has one. -/
  | found {place : Nat} {id : ElementId} {link : Link} {vertex : Vertex} :
    chainAt elements start place = some id → Unanswered elements start label place →
      firstLinkIn elements id label = some link →
      ⟨link.edge.target, .vertex vertex⟩ ∈ elements →
      Resolves elements start label (.ok (some (link.edge.target, vertex)))
  /-- The chain ends, and no vertex of it has an edge with the label. -/
  | ended {place : Nat} :
    chainAt elements start place = none → Unanswered elements start label place →
      Resolves elements start label (.ok none)
  /-- The chain goes on for ever without an answer. It closes at `id`, the first of its vertices that
  was there before; no vertex before `id` comes again. -/
  | closed {entry place : Nat} {id : ElementId} :
    (∀ k, chainAt elements start k ≠ none) → (∀ k, Unanswered elements start label k) →
      entry < place → chainAt elements start entry = some id →
      chainAt elements start place = some id → Unrepeated elements start place →
      (∀ i < entry, ∀ j, i < j → chainAt elements start i ≠ chainAt elements start j) →
      Resolves elements start label (.error (.cycle start id))

section Chain

variable {elements : List Element} {start : ElementId}

theorem chainAt_succ {place : Nat} {id : ElementId} (here : chainAt elements start place = some id) :
    chainAt elements start (place + 1) = nextIn elements id := by
  rw [chainAt, here, Option.bind_some]

theorem chainAt_eq_none_of_le {k place : Nat} (ended : chainAt elements start k = none)
    (le : k ≤ place) : chainAt elements start place = none := by
  induction le with
  | refl => exact ended
  | step _ ih => rw [chainAt, ih, Option.bind_none]

theorem chainAt_add_eq {i j : Nat} (same : chainAt elements start i = chainAt elements start j)
    (n : Nat) : chainAt elements start (i + n) = chainAt elements start (j + n) := by
  induction n with
  | zero => exact same
  | succ n ih => rw [← Nat.add_assoc, ← Nat.add_assoc, chainAt, chainAt, ih]

/-- After a chain has come back to its entry, every later vertex is one of the loop. -/
theorem exists_chainAt_eq {entry place : Nat} (before : entry < place)
    (same : chainAt elements start entry = chainAt elements start place) (k : Nat) (le : entry ≤ k) :
    ∃ j, entry ≤ j ∧ j < place ∧ chainAt elements start j = chainAt elements start k := by
  induction k using Nat.strongRecOn with
  | ind k ih =>
    by_cases inside : k < place
    · exact ⟨k, le, inside, rfl⟩
    · obtain ⟨n, rfl⟩ := Nat.exists_eq_add_of_le (Nat.le_of_not_lt inside)
      obtain ⟨j, above, below, equal⟩ := ih (entry + n) (by omega) (by omega)
      exact ⟨j, above, below, equal.trans (chainAt_add_eq same n)⟩

end Chain

/-! ### The walk -/

/-- A walk along the chain has come to `current` at the given place, without an answer so far, and
`visited` are the vertices before. -/
structure Walked (elements : List Element) (start : ElementId) (label : EdgeLabel) (place : Nat)
    (visited : List ElementId) (current : ElementId) : Prop where
  reached : chainAt elements start place = some current
  passed : ∀ id, id ∈ visited ↔ ∃ earlier < place, chainAt elements start earlier = some id
  unrepeated : Unrepeated elements start place
  unanswered : Unanswered elements start label place

namespace Walked

variable {elements : List Element} {start current : ElementId} {label : EdgeLabel} {place : Nat}
  {visited : List ElementId}

theorem initial (elements : List Element) (start : ElementId) (label : EdgeLabel) :
    Walked elements start label 0 [] start where
  reached := rfl
  passed := by simp
  unrepeated := by intro i j _ below; omega
  unanswered := by intro earlier below; omega

theorem unanswered_succ (walked : Walked elements start label place visited current)
    (none : firstLinkIn elements current label = none) :
    Unanswered elements start label (place + 1) := by
  intro earlier below id here
  by_cases last : earlier = place
  · subst last
    rw [walked.reached] at here
    cases here
    exact none
  · exact walked.unanswered earlier (by omega) id here

theorem step (walked : Walked elements start label place visited current)
    (fresh : current ∉ visited) (none : firstLinkIn elements current label = none)
    {next : ElementId} (after : nextIn elements current = some next) :
    Walked elements start label (place + 1) (current :: visited) next where
  reached := (chainAt_succ walked.reached).trans after
  passed := by
    intro id
    rw [List.mem_cons, walked.passed]
    constructor
    · rintro (rfl | ⟨earlier, below, here⟩)
      · exact ⟨place, Nat.lt_succ_self _, walked.reached⟩
      · exact ⟨earlier, by omega, here⟩
    · rintro ⟨earlier, below, here⟩
      by_cases last : earlier = place
      · subst last
        rw [walked.reached] at here
        exact Or.inl (Option.some.inj here).symm
      · exact Or.inr ⟨earlier, by omega, here⟩
  unrepeated := by
    intro i j before below same
    by_cases last : j = place
    · subst last
      exact fresh ((walked.passed current).mpr ⟨i, before, same.trans walked.reached⟩)
    · exact walked.unrepeated i j before (by omega) same
  unanswered := walked.unanswered_succ none

theorem resolves_cycle (walked : Walked elements start label place visited current)
    (seen : current ∈ visited) :
    Resolves elements start label (.error (.cycle start current)) := by
  obtain ⟨entry, before, again⟩ := (walked.passed current).mp seen
  have loop := exists_chainAt_eq before (again.trans walked.reached.symm)
  -- Every vertex of the endless chain is one of those up to the place where it closes.
  have known : ∀ k, ∃ j < place, chainAt elements start j = chainAt elements start k := by
    intro k
    by_cases early : k < entry
    · exact ⟨k, by omega, rfl⟩
    · obtain ⟨j, _, below, same⟩ := loop k (by omega)
      exact ⟨j, below, same⟩
  refine .closed ?_ ?_ before again walked.reached walked.unrepeated ?_
  · intro k ended
    obtain ⟨j, below, same⟩ := known k
    have beyond := chainAt_eq_none_of_le (same.trans ended) (Nat.le_of_lt below)
    rw [walked.reached] at beyond
    cases beyond
  · intro k earlier _ id here
    obtain ⟨j, below, same⟩ := known earlier
    exact walked.unanswered j below id (same.trans here)
  · intro i early j before same
    by_cases below : j < place
    · exact walked.unrepeated i j before below same
    · obtain ⟨other, above, inside, equal⟩ := loop j (by omega)
      exact walked.unrepeated i other (by omega) inside (same.trans equal.symm)

end Walked

theorem mem_linksOf_of_firstLinkIn {elements : List Element} {id : ElementId} {label : EdgeLabel}
    {link : Link} (first : firstLinkIn elements id label = some link) : link ∈ linksOf elements :=
  (List.mem_filter.mp (List.mem_of_find?_eq_some first)).1

namespace Graph

variable {graph : Graph} {elements : List Element}

theorem Describes.firstLink?_eq (describes : graph.Describes elements) (id : ElementId)
    (label : EdgeLabel) : graph.firstLink? id label = firstLinkIn elements id label := by
  rw [firstLink?, describes.outgoing, firstLinkIn]

theorem Describes.next?_eq (describes : graph.Describes elements) (id : ElementId) :
    graph.next? id = nextIn elements id := by
  rw [next?, describes.firstLink?_eq, nextIn]

/-- From wherever a walk has come, the rest of it gives the answer along the whole chain. -/
theorem resolves_follow (describes : graph.Describes elements) {start current : ElementId}
    {label : EdgeLabel} {place : Nat} {visited : List ElementId}
    (walked : Walked elements start label place visited current) :
    Resolves elements start label (graph.follow label start visited current) := by
  fun_induction graph.follow label start visited current generalizing place with
  | case1 visited current seen => exact walked.resolves_cycle seen
  | case2 visited current fresh link first =>
    rw [describes.firstLink?_eq] at first
    obtain ⟨vertex, isVertex, mem⟩ := describes.vertex_endpoint (mem_linksOf_of_firstLinkIn first)
      (show link.edge.target ∈ link.edge.endpoints by simp [Edge.endpoints, Edge.targets])
    rw [isVertex]
    exact .found walked.reached walked.unanswered first mem
  | case3 visited current fresh first last =>
    rw [describes.firstLink?_eq] at first
    rw [describes.next?_eq] at last
    exact .ended ((chainAt_succ walked.reached).trans last) (walked.unanswered_succ first)
  | case4 visited current fresh first next after ih =>
    rw [describes.firstLink?_eq] at first
    rw [describes.next?_eq] at after
    exact ih (walked.step fresh first after)

end Graph

/-! ### One answer -/

section Unique

variable {elements : List Element} {start : ElementId} {label : EdgeLabel}

theorem Unanswered.le_of_first {place other : Nat} {id : ElementId} {link : Link}
    (unanswered : Unanswered elements start label other)
    (here : chainAt elements start place = some id)
    (first : firstLinkIn elements id label = some link) : other ≤ place := by
  by_contra beyond
  rw [unanswered place (by omega) id here] at first
  cases first

theorem Unrepeated.le_of_repeated {entry place other : Nat} {id : ElementId}
    (unrepeated : Unrepeated elements start other) (before : entry < place)
    (first : chainAt elements start entry = some id)
    (again : chainAt elements start place = some id) : other ≤ place := by
  by_contra beyond
  exact unrepeated entry place before (by omega) (first.trans again.symm)

theorem Element.eq_of_id_eq (ids : (elements.map Element.id).Nodup) {a b : Element}
    (first : a ∈ elements) (second : b ∈ elements) (same : a.id = b.id) : a = b :=
  List.inj_on_of_nodup_map ids first second same

theorem Resolves.unique (ids : (elements.map Element.id).Nodup)
    {result other : Except DumpFault (Option (ElementId × Vertex))}
    (one : Resolves elements start label result) (two : Resolves elements start label other) :
    result = other := by
  cases one with
  | @found place id link vertex here unanswered first mem =>
    cases two with
    | @found place' id' link' vertex' here' unanswered' first' mem' =>
      have samePlace : place = place' :=
        Nat.le_antisymm (unanswered.le_of_first here' first') (unanswered'.le_of_first here first)
      subst samePlace
      cases Option.some.inj (here.symm.trans here')
      cases Option.some.inj (first.symm.trans first')
      cases Element.eq_of_id_eq ids mem mem' rfl
      rfl
    | ended ended unanswered' =>
      have beyond := chainAt_eq_none_of_le ended (unanswered'.le_of_first here first)
      cases here.symm.trans beyond
    | closed _ never =>
      have beyond := (never (place + 1)).le_of_first here first
      omega
  | ended ended unanswered =>
    cases two with
    | found here _ first _ =>
      have beyond := chainAt_eq_none_of_le ended (unanswered.le_of_first here first)
      cases here.symm.trans beyond
    | ended => rfl
    | closed endless => exact absurd ended (endless _)
  | @closed entry place id endless never before first again unrepeated =>
    cases two with
    | @found place' _ _ _ here _ found _ =>
      have beyond := (never (place' + 1)).le_of_first here found
      omega
    | ended ended => exact absurd ended (endless _)
    | @closed entry' place' id' _ _ before' first' again' unrepeated' =>
      have samePlace : place = place' :=
        Nat.le_antisymm (unrepeated.le_of_repeated before' first' again')
          (unrepeated'.le_of_repeated before first again)
      subst samePlace
      cases Option.some.inj (again.symm.trans again')
      rfl

end Unique

namespace Graph

/-- For every accepted dump, `resolve` gives the first match along the chain, nothing if the chain ends
without one, and otherwise the vertex at which the chain closes. -/
theorem resolve_iff_resolves {text : List Char} {graph : Graph}
    (accepted : parse text = .ok graph) :
    ∃ elements, decodeLines [] 1 (Text.lines text) = .ok elements ∧
      ∀ start label result, graph.resolve start label = result ↔
        Resolves elements start label result := by
  obtain ⟨elements, decoded, describes⟩ := describes_of_parse accepted
  refine ⟨elements, decoded, ?_⟩
  intro start label result
  have answer : Resolves elements start label (graph.resolve start label) :=
    resolves_follow describes (Walked.initial elements start label)
  constructor
  · rintro rfl
    exact answer
  · exact fun other => answer.unique describes.ids other

/-- A dump whose vertex 1 leads to vertex 2, which leads to itself. -/
def loopDump : List Char :=
  ("\x7b\"id\":1,\"type\":\"vertex\",\"label\":\"metaData\",\"projectRoot\":\"\"\x7d\n" ++
    "\x7b\"id\":2,\"type\":\"vertex\",\"label\":\"resultSet\"\x7d\n" ++
    "\x7b\"id\":3,\"type\":\"edge\",\"label\":\"next\",\"outV\":1,\"inV\":2\x7d\n" ++
    "\x7b\"id\":4,\"type\":\"edge\",\"label\":\"next\",\"outV\":2,\"inV\":2\x7d").toList

theorem resolve_iff_resolves_loopDump :
    ∃ graph, parse loopDump = .ok graph ∧
      ∃ elements, decodeLines [] 1 (Text.lines loopDump) = .ok elements ∧
        ∀ start label result, graph.resolve start label = result ↔
          Resolves elements start label result := by
  obtain ⟨graph, accepted⟩ := exists_eq_ok (show (parse loopDump).isOk = true by decide +kernel)
  exact ⟨graph, accepted, resolve_iff_resolves accepted⟩

end Graph

end CodeAtlas
