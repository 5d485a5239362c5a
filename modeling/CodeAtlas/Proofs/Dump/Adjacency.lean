import CodeAtlas.Dump.Graph
import CodeAtlas.Proofs.Outcome
import Mathlib.Data.List.Perm.Basic

/-!
# What a graph says of its dump

The lookups of a graph are questions about the list of elements that it was built from. `Describes`
answers each of them from the list alone; `describes_of_ofElements` shows that the graph gives these
answers, by an invariant of the index that every element keeps.
-/

namespace CodeAtlas

/-! ### Questions about a list of elements -/

def Element.link? (element : Element) : Option Link :=
  match element.kind with
  | .edge edge => some ⟨element.id, edge⟩
  | .vertex _ => none

def Element.document? (element : Element) : Option (ElementId × Document) :=
  match element.kind with
  | .vertex (.document document) => some (element.id, document)
  | _ => none

def Element.metaData? (element : Element) : Option MetaData :=
  match element.kind with
  | .vertex (.metaData data) => some data
  | _ => none

theorem Element.link?_eq (element : Element) :
    element.link? = element.edge?.map fun edge => ⟨element.id, edge⟩ := by
  unfold link? edge?
  cases element.kind <;> rfl

def linksOf (elements : List Element) : List Link :=
  elements.filterMap Element.link?

def linksFrom (elements : List Element) (id : ElementId) : List Link :=
  (linksOf elements).filter fun link => link.edge.source == id

/-- The edges that reach `id`, in order, each as often as it names `id`. -/
def linksTo (elements : List Element) (id : ElementId) : List Link :=
  (linksOf elements).flatMap fun link => List.replicate (link.edge.targets.count id) link

theorem linksFrom_append (first second : List Element) (id : ElementId) :
    linksFrom (first ++ second) id = linksFrom first id ++ linksFrom second id := by
  simp [linksFrom, linksOf]

theorem linksTo_append (first second : List Element) (id : ElementId) :
    linksTo (first ++ second) id = linksTo first id ++ linksTo second id := by
  simp [linksTo, linksOf]

/-! ### Tables of links -/

theorem LinkTable.at_empty (id : ElementId) : LinkTable.at ∅ id = [] := by
  simp [LinkTable.at]

theorem LinkTable.at_add (table : LinkTable) (id other : ElementId) (link : Link) :
    (table.add id link).at other = table.at other ++ if id = other then [link] else [] := by
  by_cases same : id = other
  · subst same
    simp [LinkTable.at, LinkTable.add, Std.TreeMap.getD_eq_getD_getElem?]
  · simp [LinkTable.at, LinkTable.add, Std.TreeMap.getD_alter, same]

theorem LinkTable.at_foldl_add (table : LinkTable) (targets : List ElementId) (id : ElementId)
    (link : Link) :
    (targets.foldl (fun table target => table.add target link) table).at id =
      table.at id ++ List.replicate (targets.count id) link := by
  induction targets generalizing table with
  | nil => simp
  | cons target targets ih =>
    rw [List.foldl_cons, ih, at_add, List.count_cons, List.append_assoc]
    by_cases same : target = id
    · simp [same, List.replicate_succ]
    · simp [same]

/-! ### The index of what was read -/

theorem filterMap_singleton {α β : Type} (f : α → Option β) (a : α) :
    [a].filterMap f = (f a).toList := by
  cases found : f a <;> simp [found]

/-- The index says of every id what the elements read so far say of it. -/
structure Index.Holds (index : Index) (elements : List Element) : Prop where
  ids : (elements.map Element.id).Nodup
  byId : ∀ id, index.byId[id]? = elements.find? fun element => element.id == id
  outgoing : ∀ id, index.outgoing.at id = linksFrom elements id
  incoming : ∀ id, index.incoming.at id = linksTo elements id
  metaData : elements.filterMap Element.metaData? = index.metaData.toList
  documents : index.documents.reverse = elements.filterMap Element.document?

namespace Index

theorem empty_holds : empty.Holds [] where
  ids := List.nodup_nil
  byId := by simp [empty]
  outgoing := LinkTable.at_empty
  incoming := LinkTable.at_empty
  metaData := rfl
  documents := rfl

structure Extends (index : Index) (element : Element) (next : Index) : Prop where
  fresh : element.id ∉ index.byId
  byId : next.byId = index.byId.insert element.id element
  outgoing : ∀ id, next.outgoing.at id = index.outgoing.at id ++ linksFrom [element] id
  incoming : ∀ id, next.incoming.at id = index.incoming.at id ++ linksTo [element] id
  metaData : next.metaData.toList = index.metaData.toList ++ element.metaData?.toList
  documents : next.documents.reverse = index.documents.reverse ++ element.document?.toList

theorem addLink_extends {index : Index} {id : ElementId} {edge : Edge}
    (fresh : id ∉ index.byId) :
    index.Extends ⟨id, .edge edge⟩
      ({ index with byId := index.byId.insert id ⟨id, .edge edge⟩ }.addLink ⟨id, edge⟩) where
  fresh := fresh
  byId := rfl
  outgoing other := by
    by_cases same : edge.source = other <;>
      simp [addLink, LinkTable.at_add, linksFrom, linksOf, Element.link?, same]
  incoming other := by
    simp [addLink, LinkTable.at_foldl_add, linksTo, linksOf, Element.link?]
  metaData := by simp [addLink, Element.metaData?]
  documents := by simp [addLink, Element.document?]

theorem addVertex_extends {index next : Index} {id : ElementId} {vertex : Vertex}
    (fresh : id ∉ index.byId)
    (added : { index with byId := index.byId.insert id ⟨id, .vertex vertex⟩ }.addVertex id vertex =
      .ok next) : index.Extends ⟨id, .vertex vertex⟩ next := by
  have noLink : ∀ other, linksFrom [⟨id, .vertex vertex⟩] other = [] ∧
      linksTo [⟨id, .vertex vertex⟩] other = [] := by
    intro other
    exact ⟨rfl, rfl⟩
  cases vertex with
  | metaData data =>
    simp only [addVertex] at added
    split at added
    · cases added
    · rename_i none
      cases added
      exact ⟨fresh, rfl, by simp [noLink], by simp [noLink], by simp [none, Element.metaData?],
        by simp [Element.document?]⟩
  | _ =>
    cases added
    exact ⟨fresh, rfl, by simp [noLink], by simp [noLink], by simp [Element.metaData?],
      by simp [Element.document?]⟩

theorem add_extends {index next : Index} {element : Element}
    (added : index.add element = .ok next) : index.Extends element next := by
  obtain ⟨id, kind⟩ := element
  unfold add at added
  split at added
  · cases added
  · rename_i fresh
    cases kind with
    | edge edge =>
      cases added
      exact addLink_extends (by simpa using fresh)
    | vertex vertex => exact addVertex_extends (by simpa using fresh) added

theorem Extends.holds {index next : Index} {elements : List Element} {element : Element}
    (step : index.Extends element next) (holds : index.Holds elements) :
    next.Holds (elements ++ [element]) := by
  have absent : elements.find? (fun other => other.id == element.id) = none := by
    rw [← holds.byId]
    simpa using step.fresh
  refine ⟨?_, ?_, ?_, ?_, ?_, ?_⟩
  · rw [List.map_append, List.nodup_append]
    refine ⟨holds.ids, by simp, ?_⟩
    intro id old other new
    obtain ⟨same, mem, rfl⟩ := List.mem_map.mp old
    have different := List.find?_eq_none.mp absent same mem
    simp only [List.map_cons, List.map_nil, List.mem_singleton] at new
    simpa [new] using different
  · intro id
    rw [step.byId, Std.TreeMap.getElem?_insert, List.find?_append, holds.byId]
    by_cases same : element.id = id
    · subst same
      simp [absent]
    · simp [same]
  · intro id
    rw [step.outgoing, holds.outgoing, linksFrom_append]
  · intro id
    rw [step.incoming, holds.incoming, linksTo_append]
  · rw [step.metaData, List.filterMap_append, holds.metaData, filterMap_singleton]
  · rw [step.documents, List.filterMap_append, holds.documents, filterMap_singleton]

theorem foldlM_holds {index final : Index} {done elements : List Element}
    (holds : index.Holds done) (read : elements.foldlM add index = .ok final) :
    final.Holds (done ++ elements) := by
  induction elements generalizing index done with
  | nil =>
    cases read
    simpa using holds
  | cons element elements ih =>
    rw [List.foldlM_cons] at read
    cases added : index.add element with
    | error fault => simp [added, bind, Except.bind] at read
    | ok next =>
      rw [added] at read
      have rest := ih ((add_extends added).holds holds) read
      simpa using rest

theorem ofElements_holds {index : Index} {elements : List Element}
    (read : ofElements elements = .ok index) : index.Holds elements := by
  simpa using foldlM_holds empty_holds read

end Index

namespace Graph

/-- The graph answers every question from the given elements, and its edges lead between vertices. -/
structure Describes (graph : Graph) (elements : List Element) : Prop where
  listed : graph.elements = elements
  ids : (elements.map Element.id).Nodup
  get : ∀ id, graph.get? id = elements.find? fun element => element.id == id
  outgoing : ∀ id, graph.outgoing id = linksFrom elements id
  incoming : ∀ id, graph.incoming id = linksTo elements id
  metaData : elements.filterMap Element.metaData? = [graph.metaData]
  documents : graph.documents = elements.filterMap Element.document?
  endpoints : ∀ link ∈ linksOf elements, ∀ id ∈ link.edge.endpoints,
    ∃ vertex, graph.get? id = some ⟨id, .vertex vertex⟩

theorem endpointFault?_eq_none {graph : Graph} {edge endpoint : ElementId}
    (sound : graph.endpointFault? edge endpoint = none) :
    ∃ element vertex, graph.get? endpoint = some element ∧ element.kind = .vertex vertex := by
  unfold endpointFault? at sound
  split at sound
  · cases sound
  · rename_i element found
    split at sound
    · rename_i vertex isVertex
      exact ⟨element, vertex, found, isVertex⟩
    · cases sound

theorem endpointFaults_eq_none {graph : Graph} {elements : List Element}
    (sound : graph.endpointFaults elements = none) {link : Link} (mem : link ∈ linksOf elements)
    {endpoint : ElementId} (named : endpoint ∈ link.edge.endpoints) :
    graph.endpointFault? link.id endpoint = none := by
  obtain ⟨element, present, same⟩ := List.mem_filterMap.mp mem
  rw [Element.link?_eq] at same
  obtain ⟨edge, isEdge, rfl⟩ := Option.map_eq_some_iff.mp same
  have faultless := List.findSome?_eq_none_iff.mp sound element present
  rw [isEdge, Option.bind_some, List.findSome?_eq_none_iff] at faultless
  exact faultless endpoint named

theorem describes_of_ofElements {elements : List Element} {graph : Graph}
    (built : ofElements elements = .ok graph) : graph.Describes elements := by
  unfold ofElements at built
  cases read : Index.ofElements elements with
  | error fault => simp [read, bind, Except.bind] at built
  | ok index =>
    have holds := Index.ofElements_holds read
    simp only [read, bind, Except.bind] at built
    split at built
    · cases built
    · rename_i metaData found
      split at built
      · cases built
      · rename_i sound
        cases built
        refine ⟨rfl, holds.ids, holds.byId, holds.outgoing, holds.incoming, ?_, holds.documents, ?_⟩
        · rw [holds.metaData, found]
          rfl
        · intro link mem id named
          obtain ⟨⟨other, kind⟩, vertex, present, rfl⟩ :=
            endpointFault?_eq_none (endpointFaults_eq_none sound mem named)
          have same : other = id := by
            have matched := List.find?_some ((holds.byId id).symm.trans present)
            simpa using matched
          exact ⟨vertex, same ▸ present⟩

theorem Describes.mem_of_get? {graph : Graph} {elements : List Element}
    (describes : graph.Describes elements) {id : ElementId} {element : Element}
    (found : graph.get? id = some element) : element ∈ elements :=
  List.mem_of_find?_eq_some ((describes.get id).symm.trans found)

theorem Describes.vertex_endpoint {graph : Graph} {elements : List Element}
    (describes : graph.Describes elements) {link : Link} (mem : link ∈ linksOf elements)
    {id : ElementId} (named : id ∈ link.edge.endpoints) :
    ∃ vertex, graph.vertex id = .ok vertex ∧ ⟨id, .vertex vertex⟩ ∈ elements := by
  obtain ⟨vertex, found⟩ := describes.endpoints link mem id named
  refine ⟨vertex, ?_, describes.mem_of_get? found⟩
  simp [Graph.vertex, require, found]

theorem describes_of_parse {text : List Char} {graph : Graph} (accepted : parse text = .ok graph) :
    ∃ elements, decodeLines [] 1 (Text.lines text) = .ok elements ∧ graph.Describes elements := by
  unfold parse at accepted
  cases decoded : decodeLines [] 1 (Text.lines text) with
  | error fault => simp [decoded, bind, Except.bind] at accepted
  | ok elements =>
    rw [decoded] at accepted
    exact ⟨elements, rfl, describes_of_ofElements accepted⟩

end Graph

/-! ### Sums over all ids -/

/-- The parts of a list by a key, over keys without repetition that are all there, make up the list. -/
theorem flatMap_filter_perm {α κ : Type} [DecidableEq κ] {keys : List κ} (distinct : keys.Nodup)
    (key : α → κ) {list : List α} (all : ∀ a ∈ list, key a ∈ keys) :
    (keys.flatMap fun k => list.filter fun a => key a == k).Perm list := by
  induction list with
  | nil => simp
  | cons first rest ih =>
    obtain ⟨here, later⟩ := List.forall_mem_cons.mp all
    have once : (keys.flatMap fun k => if key first == k then [first] else []) = [first] := by
      obtain ⟨before, after, rfl⟩ := List.append_of_mem here
      have others : ∀ part : List κ, key first ∉ part →
          (part.flatMap fun k => if key first == k then [first] else []) = [] := by
        intro part absent
        rw [List.flatMap_eq_nil_iff]
        intro k mem
        simpa using fun same : key first = k => absent (same ▸ mem)
      have unrepeated := List.perm_middle.nodup_iff.mp distinct
      rw [List.nodup_cons, List.mem_append, not_or] at unrepeated
      rw [List.flatMap_append, List.flatMap_cons, others before unrepeated.1.1,
        others after unrepeated.1.2]
      simp
    have split : (fun k => (first :: rest).filter fun a => key a == k) =
        fun k => (if key first == k then [first] else []) ++ rest.filter fun a => key a == k := by
      funext k
      rw [List.filter_cons]
      split <;> rfl
    rw [split]
    refine (List.flatMap_append_perm keys _ _).symm.trans ?_
    rw [once]
    exact (ih later).cons first

/-- The edges of a dump with their targets, one pair for each place in a list of targets. -/
def targetedLinks (elements : List Element) : List (Link × ElementId) :=
  (linksOf elements).flatMap fun link => link.edge.targets.map fun target => (link, target)

theorem map_linksTo (elements : List Element) (id : ElementId) :
    ((linksTo elements id).map fun link => (link, id)) =
      (targetedLinks elements).filter fun pair => pair.2 == id := by
  rw [linksTo, targetedLinks, List.map_flatMap, List.filter_flatMap]
  congr 1
  funext link
  rw [List.map_replicate, List.filter_map]
  have part : link.edge.targets.filter (fun target => target == id) =
      List.replicate (link.edge.targets.count id) id := List.filter_beq id
  simp [Function.comp_def, part]

theorem filter_id_eq {elements : List Element} (distinct : (elements.map Element.id).Nodup)
    (id : ElementId) :
    elements.filter (fun element => element.id == id) =
      (elements.find? fun element => element.id == id).toList := by
  induction elements with
  | nil => rfl
  | cons first rest ih =>
    rw [List.map_cons, List.nodup_cons] at distinct
    by_cases same : first.id = id
    · have none : rest.filter (fun element => element.id == id) = [] := by
        rw [List.filter_eq_nil_iff]
        intro element mem
        have different : element.id ≠ first.id := fun equal =>
          distinct.1 (equal ▸ List.mem_map_of_mem mem)
        simpa [same] using different
      simp [same, none]
    · simp [same, ih distinct.2]

namespace Graph

/-- A graph's lookups are exact: each says neither more nor less than the list of elements does, and
over all ids the edges are listed once by their sources and once a target by their targets. -/
theorem ofElements_exact {elements : List Element} {graph : Graph}
    (built : ofElements elements = .ok graph) :
    (∀ id, elements.filter (fun element => element.id == id) = (graph.get? id).toList) ∧
    (∀ id, graph.outgoing id = linksFrom elements id) ∧
    (∀ id, graph.incoming id = linksTo elements id) ∧
    graph.documents = elements.filterMap Element.document? ∧
    elements.filterMap Element.metaData? = [graph.metaData] ∧
    ∀ ids : List ElementId, ids.Nodup → (∀ element ∈ elements, element.id ∈ ids) →
      (ids.flatMap graph.outgoing).Perm (linksOf elements) ∧
      (ids.flatMap fun id => (graph.incoming id).map fun link => (link, id)).Perm
        (targetedLinks elements) := by
  have describes := describes_of_ofElements built
  refine ⟨?_, describes.outgoing, describes.incoming, describes.documents, describes.metaData, ?_⟩
  · intro id
    rw [describes.get, filter_id_eq describes.ids]
  · intro ids distinct all
    have listed : ∀ link ∈ linksOf elements, ∀ id ∈ link.edge.endpoints, id ∈ ids := by
      intro link mem id named
      obtain ⟨vertex, found⟩ := describes.endpoints link mem id named
      exact all ⟨id, .vertex vertex⟩ (describes.mem_of_get? found)
    constructor
    · rw [funext describes.outgoing]
      apply flatMap_filter_perm distinct fun link : Link => link.edge.source
      intro link mem
      exact listed link mem _ (by simp [Edge.endpoints])
    · have pairs : (fun id => (graph.incoming id).map fun link => (link, id)) =
          fun id => (targetedLinks elements).filter fun pair => pair.2 == id := by
        funext id
        rw [describes.incoming, map_linksTo]
      rw [pairs]
      apply flatMap_filter_perm distinct
      intro pair mem
      obtain ⟨link, present, target⟩ := List.mem_flatMap.mp mem
      obtain ⟨id, named, rfl⟩ := List.mem_map.mp target
      exact listed link present id (by simp [Edge.endpoints, named])

/-- A dump with an edge that comes before its ends and names one of them twice, and with an edge from a
vertex to itself. -/
def sharedTargets : List Element :=
  [⟨.ofNat 5, .edge ⟨.contains, .ofNat 2, .ofNat 3, [.ofNat 4, .ofNat 3], none, none⟩⟩,
    ⟨.ofNat 1, .vertex (.metaData ⟨"file:///repo", none, none⟩)⟩,
    ⟨.ofNat 2, .vertex (.document ⟨"file:///repo/a.go", "go"⟩)⟩,
    ⟨.ofNat 3, .vertex .resultSet⟩,
    ⟨.ofNat 4, .vertex .resultSet⟩,
    ⟨.ofNat 6, .edge ⟨.next, .ofNat 3, .ofNat 3, [], none, none⟩⟩]

theorem ofElements_exact_sharedTargets :
    ∃ graph, ofElements sharedTargets = .ok graph ∧
      (graph.get? (.ofNat 7)).toList = [] ∧
      (graph.outgoing (.ofNat 3)).map Link.id = [.ofNat 6] ∧
      (graph.incoming (.ofNat 3)).map Link.id = [.ofNat 5, .ofNat 5, .ofNat 6] ∧
      ((sharedTargets.map Element.id).flatMap graph.outgoing).Perm (linksOf sharedTargets) := by
  obtain ⟨graph, built⟩ := exists_eq_ok
    (show (ofElements sharedTargets).isOk = true by decide)
  obtain ⟨get, outgoing, incoming, _, _, sums⟩ := ofElements_exact built
  refine ⟨graph, built, ?_, ?_, ?_, ?_⟩
  · rw [← get]
    decide
  · rw [outgoing]
    decide
  · rw [incoming]
    decide
  · exact (sums _ (by decide) fun element mem => List.mem_map_of_mem mem).1

end Graph

end CodeAtlas
