import CodeAtlas.Proofs.Outcome
import CodeAtlas.Symbol.Reference
import Mathlib.Data.List.Perm.Basic
import Mathlib.Logic.Relation

/-!
# Nested results are walked depth first

`Walk` is the depth-first walk over reference results, without a record of what it has entered: a result
that is nested again is walked again, and one that nests itself has no walk. Collecting the items of a
result gives those that its walk meets, in order, just if the walk enters no result twice.
-/

namespace CodeAtlas

def Graph.itemEdges (graph : Graph) (result : ElementId) : List Edge :=
  ((graph.outgoing result).filter fun link => link.edge.label == .item).map Link.edge

def Edge.nests (edge : Edge) : Bool :=
  edge.property = some .referenceResults

def Edge.defines (edge : Edge) : Bool :=
  edge.property = some .definitions

/-- Whether the targets of the edge are references: they are neither definitions nor nested results nor
symbols of other projects. -/
def Edge.refers (edge : Edge) : Bool :=
  !([some .definitions, some .referenceResults, some .referenceLinks].contains edge.property)

def Graph.Nests (graph : Graph) (result nested : ElementId) : Prop :=
  ∃ edge ∈ graph.itemEdges result, edge.nests = true ∧ nested ∈ edge.targets

namespace Items

variable {graph : Graph}

/-- The steps lead depth first through the results `entered` and past the edges `met`. -/
inductive Walk (graph : Graph) : List Visit → List ElementId → List Edge → Prop where
  | nil : Walk graph [] [] []
  | enter {id : ElementId} {steps : List Visit} {inside behind : List ElementId}
      {met later : List Edge} :
      Walk graph ((graph.itemEdges id).map .pass) inside met → Walk graph steps behind later →
      Walk graph (.enter id :: steps) (id :: (inside ++ behind)) (met ++ later)
  | nest {edge : Edge} {steps : List Visit} {inside behind : List ElementId} {met later : List Edge} :
      edge.nests = true →
      Walk graph (edge.targets.map .enter) inside met → Walk graph steps behind later →
      Walk graph (.pass edge :: steps) (inside ++ behind) (met ++ later)
  | meet {edge : Edge} {steps : List Visit} {behind : List ElementId} {later : List Edge} :
      edge.nests = false → Walk graph steps behind later →
      Walk graph (.pass edge :: steps) behind (edge :: later)

theorem edgesOf_eq (id : ElementId) : edgesOf graph id = (graph.itemEdges id).map .pass := by
  rw [edgesOf, Graph.outgoingLabeled, Graph.itemEdges, List.map_map]
  rfl

/-! ### Walks one after the other -/

theorem Walk.append {first second : List Visit} {entered behind : List ElementId} {met later : List Edge}
    (walk : Walk graph first entered met) (next : Walk graph second behind later) :
    Walk graph (first ++ second) (entered ++ behind) (met ++ later) := by
  induction walk with
  | nil => exact next
  | enter inner _ _ ih =>
    rw [List.cons_append, List.cons_append, List.append_assoc, List.append_assoc]
    exact .enter inner ih
  | nest nests inner _ _ ih =>
    rw [List.append_assoc, List.append_assoc]
    exact .nest nests inner ih
  | meet meets _ ih => exact .meet meets ih

theorem Walk.of_append {first second : List Visit} {entered : List ElementId} {met : List Edge}
    (walk : Walk graph (first ++ second) entered met) :
    ∃ before behind earlier later, Walk graph first before earlier ∧ Walk graph second behind later ∧
      entered = before ++ behind ∧ met = earlier ++ later := by
  induction first generalizing entered met with
  | nil => exact ⟨[], entered, [], met, .nil, walk, rfl, rfl⟩
  | cons step first ih =>
    cases walk with
    | enter inner rest =>
      obtain ⟨before, behind, earlier, later, one, two, rfl, rfl⟩ := ih rest
      exact ⟨_, _, _, _, .enter inner one, two, by simp, by simp⟩
    | nest nests inner rest =>
      obtain ⟨before, behind, earlier, later, one, two, rfl, rfl⟩ := ih rest
      exact ⟨_, _, _, _, .nest nests inner one, two, by simp, by simp⟩
    | meet meets rest =>
      obtain ⟨before, behind, earlier, later, one, two, rfl, rfl⟩ := ih rest
      exact ⟨_, _, _, _, .meet meets one, two, rfl, by simp⟩

/-! ### Where walks get to -/

def Visit.Starts (id : ElementId) : Visit → Prop
  | .enter result => result = id
  | .pass edge => edge.nests = true ∧ id ∈ edge.targets

/-- A walk enters the results that can be reached from those it starts with. -/
theorem Walk.mem_entered_iff {steps : List Visit} {entered : List ElementId} {met : List Edge}
    (walk : Walk graph steps entered met) (id : ElementId) :
    id ∈ entered ↔
      ∃ step ∈ steps, ∃ start, step.Starts start ∧ Relation.ReflTransGen graph.Nests start id := by
  induction walk with
  | nil => simp
  | @enter result steps _ _ _ _ _ _ inner rest =>
    have below : (∃ step ∈ (graph.itemEdges result).map Visit.pass, ∃ start, step.Starts start ∧
        Relation.ReflTransGen graph.Nests start id) ↔
          ∃ nested, graph.Nests result nested ∧ Relation.ReflTransGen graph.Nests nested id := by
      constructor
      · rintro ⟨_, listed, start, starts, leads⟩
        obtain ⟨edge, mem, rfl⟩ := List.mem_map.mp listed
        exact ⟨start, ⟨edge, mem, starts⟩, leads⟩
      · rintro ⟨nested, ⟨edge, mem, starts⟩, leads⟩
        exact ⟨.pass edge, List.mem_map_of_mem mem, nested, starts, leads⟩
    have first : (∃ start, (Visit.enter result).Starts start ∧
        Relation.ReflTransGen graph.Nests start id) ↔ Relation.ReflTransGen graph.Nests result id :=
      exists_eq_left'
    rw [List.mem_cons, List.mem_append, inner, rest, below, List.exists_mem_cons_iff, first,
      Relation.ReflTransGen.cases_head_iff, @eq_comm _ id, or_assoc]
  | @nest edge steps _ _ _ _ nests _ _ inner rest =>
    have below : (∃ step ∈ edge.targets.map Visit.enter, ∃ start, step.Starts start ∧
        Relation.ReflTransGen graph.Nests start id) ↔
          ∃ start, (Visit.pass edge).Starts start ∧ Relation.ReflTransGen graph.Nests start id := by
      constructor
      · rintro ⟨_, listed, start, starts, leads⟩
        obtain ⟨target, mem, rfl⟩ := List.mem_map.mp listed
        cases starts
        exact ⟨start, ⟨nests, mem⟩, leads⟩
      · rintro ⟨start, ⟨_, mem⟩, leads⟩
        exact ⟨.enter start, List.mem_map_of_mem mem, start, rfl, leads⟩
    rw [List.mem_append, inner, rest, below, List.exists_mem_cons_iff]
  | @meet edge steps _ _ meets _ ih =>
    have none : ¬ ∃ start, (Visit.pass edge).Starts start ∧
        Relation.ReflTransGen graph.Nests start id := by
      rintro ⟨start, ⟨nests, _⟩, _⟩
      cases meets.symm.trans nests
    rw [ih, List.exists_mem_cons_iff, or_iff_right none]

/-- The edges of a result that its walk meets on its own account. -/
def ownEdges (graph : Graph) (id : ElementId) : List Edge :=
  (graph.itemEdges id).filter fun edge => !edge.nests

def Visit.meets : Visit → List Edge
  | .enter _ => []
  | .pass edge => if edge.nests then [] else [edge]

/-- A walk meets its own edges and those of the results it enters, each as often as it comes there. -/
theorem Walk.met_perm {steps : List Visit} {entered : List ElementId} {met : List Edge}
    (walk : Walk graph steps entered met) :
    met.Perm (steps.flatMap Visit.meets ++ entered.flatMap (ownEdges graph)) := by
  induction walk with
  | nil => exact .nil
  | @enter result steps _ _ _ _ _ _ inner rest =>
    have own : ((graph.itemEdges result).map Visit.pass).flatMap Visit.meets = ownEdges graph result := by
      rw [ownEdges]
      generalize graph.itemEdges result = edges
      induction edges with
      | nil => rfl
      | cons edge edges ih =>
        rw [List.map_cons, List.flatMap_cons, ih, List.filter_cons]
        cases nests : edge.nests <;> simp [Visit.meets, nests]
    rw [own] at inner
    refine (inner.append rest).trans (List.perm_iff_count.mpr fun edge => ?_)
    simp only [List.count_append, List.flatMap_cons, List.flatMap_append, Visit.meets, List.nil_append]
    omega
  | @nest edge steps _ _ _ _ nests _ _ inner rest =>
    have none : (edge.targets.map Visit.enter).flatMap Visit.meets = [] := by
      simp [List.flatMap_map, Visit.meets]
    rw [none, List.nil_append] at inner
    refine (inner.append rest).trans (List.perm_iff_count.mpr fun other => ?_)
    simp only [List.count_append, List.flatMap_cons, List.flatMap_append, Visit.meets, nests, if_true,
      List.nil_append]
    omega
  | @meet edge steps _ _ meets _ ih =>
    simp only [List.flatMap_cons, Visit.meets, meets, Bool.false_eq_true, if_false]
    exact ih.cons edge

/-! ### What is collected -/

def ofEdges (met : List Edge) : Items where
  definitions := (met.filter Edge.defines).flatMap Edge.items
  references := (met.filter Edge.refers).flatMap Edge.items
  hasDefinitions := met.any Edge.defines

theorem ofEdges_cons_of_definitions {edge : Edge} (property : edge.property = some .definitions)
    (met : List Edge) : ofEdges (edge :: met) = (ofEdges met).withDefinitions edge := by
  simp [ofEdges, withDefinitions, Edge.defines, Edge.refers, property]

theorem ofEdges_cons_of_links {edge : Edge} (property : edge.property = some .referenceLinks)
    (met : List Edge) : ofEdges (edge :: met) = ofEdges met := by
  simp [ofEdges, Edge.defines, Edge.refers, property]

theorem ofEdges_cons_of_references {edge : Edge} (notDefinitions : edge.property ≠ some .definitions)
    (notNested : edge.property ≠ some .referenceResults)
    (notLinks : edge.property ≠ some .referenceLinks) (met : List Edge) :
    ofEdges (edge :: met) = (ofEdges met).withReferences edge := by
  simp [ofEdges, withReferences, Edge.defines, Edge.refers, notDefinitions, notNested, notLinks]

/-- The steps have a walk that enters each result once and none of those entered before. -/
def Collects (graph : Graph) (visited : List ElementId) (steps : List Visit) (items : Items) : Prop :=
  ∃ entered met, Walk graph steps entered met ∧ entered.Nodup ∧ entered.Disjoint visited ∧
    items = ofEdges met

theorem collects_pass_iff {visited : List ElementId} {edge : Edge} {steps : List Visit}
    (meets : edge.nests = false) {add : Items → Items}
    (adds : ∀ met, ofEdges (edge :: met) = add (ofEdges met)) (items : Items) :
    Collects graph visited (.pass edge :: steps) items ↔
      ∃ rest, Collects graph visited steps rest ∧ add rest = items := by
  constructor
  · rintro ⟨entered, met, walk, once, apart, rfl⟩
    cases walk with
    | nest nests => cases meets.symm.trans nests
    | meet _ walk => exact ⟨_, ⟨_, _, walk, once, apart, rfl⟩, (adds _).symm⟩
  · rintro ⟨_, ⟨entered, met, walk, once, apart, rfl⟩, rfl⟩
    exact ⟨entered, edge :: met, .meet meets walk, once, apart, (adds met).symm⟩

theorem collects_nest_iff {visited : List ElementId} {edge : Edge} {steps : List Visit}
    (nests : edge.nests = true) (items : Items) :
    Collects graph visited (.pass edge :: steps) items ↔
      Collects graph visited (nestedBy edge ++ steps) items := by
  constructor
  · rintro ⟨entered, met, walk, kept⟩
    cases walk with
    | nest _ inner rest => exact ⟨_, _, inner.append rest, kept⟩
    | meet meets => cases meets.symm.trans nests
  · rintro ⟨entered, met, walk, kept⟩
    obtain ⟨_, _, _, _, inner, rest, rfl, rfl⟩ := walk.of_append
    exact ⟨_, _, .nest nests inner rest, kept⟩

theorem collects_enter_iff {visited : List ElementId} {id : ElementId} {steps : List Visit}
    (fresh : id ∉ visited) (items : Items) :
    Collects graph visited (.enter id :: steps) items ↔
      Collects graph (id :: visited) (edgesOf graph id ++ steps) items := by
  rw [edgesOf_eq]
  constructor
  · rintro ⟨entered, met, walk, once, apart, same⟩
    cases walk with
    | enter inner rest =>
      obtain ⟨new, once⟩ := List.nodup_cons.mp once
      refine ⟨_, _, inner.append rest, once, ?_, same⟩
      rw [List.disjoint_cons_right]
      exact ⟨new, (List.disjoint_cons_left.mp apart).2⟩
  · rintro ⟨entered, met, walk, once, apart, same⟩
    obtain ⟨_, _, _, _, inner, rest, rfl, rfl⟩ := walk.of_append
    obtain ⟨new, apart⟩ := List.disjoint_cons_right.mp apart
    exact ⟨_, _, .enter inner rest, List.nodup_cons.mpr ⟨new, once⟩,
      List.disjoint_cons_left.mpr ⟨fresh, apart⟩, same⟩

theorem collect_eq_ok_iff (graph : Graph) (root : ElementId) (visited : List ElementId)
    (steps : List Visit) (items : Items) :
    collect graph root visited steps = .ok items ↔ Collects graph visited steps items := by
  induction visited, steps using collect.induct graph generalizing items with
  | case1 visited =>
    rw [collect, Except.ok.injEq]
    constructor
    · rintro rfl
      exact ⟨[], [], .nil, .nil, List.disjoint_nil_left _, rfl⟩
    · rintro ⟨entered, met, walk, _, _, rfl⟩
      cases walk
      rfl
  | case2 visited id rest seen =>
    rw [collect, dif_pos seen]
    constructor
    · intro ok
      cases ok
    · rintro ⟨entered, met, walk, _, apart, _⟩
      cases walk with
      | enter => exact absurd seen (apart List.mem_cons_self)
  | case3 visited id rest fresh ih => rw [collect, dif_neg fresh, ih, collects_enter_iff fresh]
  | case4 visited edge rest property ih =>
    have meets : edge.nests = false := by simp [Edge.nests, property]
    simp only [collect, property, map_eq_ok_iff, ih]
    rw [collects_pass_iff meets (ofEdges_cons_of_definitions property)]
  | case5 visited edge rest property ih =>
    have nests : edge.nests = true := by simp [Edge.nests, property]
    simp only [collect, property, ih]
    rw [collects_nest_iff nests]
  | case6 visited edge rest property ih =>
    have meets : edge.nests = false := by simp [Edge.nests, property]
    have adds : ∀ met, ofEdges (edge :: met) = id (ofEdges met) := ofEdges_cons_of_links property
    simp only [collect, property, ih]
    rw [collects_pass_iff meets adds]
    simp
  | case7 visited edge rest notDefinitions notNested notLinks ih =>
    have meets : edge.nests = false := by simpa [Edge.nests] using notNested
    rw [collects_pass_iff meets (ofEdges_cons_of_references notDefinitions notNested notLinks)]
    rw [collect]
    simp only [map_eq_ok_iff, ih]

theorem Walk.any_defines_iff {id : ElementId} {entered : List ElementId} {met : List Edge}
    (walk : Walk graph [.enter id] entered met) :
    met.any Edge.defines = true ↔
      ∃ result ∈ entered, ∃ edge ∈ graph.itemEdges result, edge.property = some .definitions := by
  have mem : ∀ edge, edge ∈ met ↔ ∃ result ∈ entered, edge ∈ ownEdges graph result := by
    intro edge
    rw [walk.met_perm.mem_iff]
    simp [Visit.meets]
  rw [List.any_eq_true]
  constructor
  · rintro ⟨edge, listed, defines⟩
    obtain ⟨result, inside, own⟩ := (mem edge).mp listed
    exact ⟨result, inside, edge, (List.mem_filter.mp own).1, by simpa [Edge.defines] using defines⟩
  · rintro ⟨result, inside, edge, listed, property⟩
    have own : edge ∈ ownEdges graph result :=
      List.mem_filter.mpr ⟨listed, by simp [Edge.nests, property]⟩
    exact ⟨edge, (mem edge).mpr ⟨result, inside, own⟩, by simp [Edge.defines, property]⟩

end Items

/-- The items of a result are found, or the result is refused because the walk came to a result again. They
are found just if the depth-first walk from the result enters no result twice. Then it enters just the
results that can be reached, and meets each of their edges once, but for those that nest; the items are the
targets of these edges, in the order of the walk. -/
theorem Graph.items_iff_walk (graph : Graph) (result : ElementId) :
    ((∃ items, graph.items result = .ok items) ∨
      ∃ again, graph.items result = .error (.cycle result again)) ∧
    ∀ items, graph.items result = .ok items ↔
      ∃ entered met, Items.Walk graph [.enter result] entered met ∧ entered.Nodup ∧
        (∀ id, id ∈ entered ↔ Relation.ReflTransGen graph.Nests result id) ∧
        met.Perm (entered.flatMap fun id => (graph.itemEdges id).filter fun edge => !edge.nests) ∧
        items.definitions = (met.filter Edge.defines).flatMap Edge.items ∧
        items.references = (met.filter Edge.refers).flatMap Edge.items ∧
        (items.hasDefinitions = true ↔
          ∃ id ∈ entered, ∃ edge ∈ graph.itemEdges id, edge.property = some .definitions) := by
  constructor
  · cases outcome : graph.items result with
    | ok items => exact .inl ⟨items, rfl⟩
    | error fault =>
      obtain ⟨again, rfl⟩ := Items.collect_error outcome
      exact .inr ⟨again, rfl⟩
  · intro items
    rw [Graph.items, Items.collect_eq_ok_iff]
    constructor
    · rintro ⟨entered, met, walk, once, _, rfl⟩
      have reached : ∀ id, id ∈ entered ↔ Relation.ReflTransGen graph.Nests result id := by
        intro id
        rw [walk.mem_entered_iff]
        simp [Items.Visit.Starts]
      exact ⟨entered, met, walk, once, reached, walk.met_perm, rfl, rfl, walk.any_defines_iff⟩
    · rintro ⟨entered, met, walk, once, _, _, definitions, references, defined⟩
      refine ⟨entered, met, walk, once, List.disjoint_nil_right _, ?_⟩
      have some_defined : items.hasDefinitions = met.any Edge.defines := by
        rw [Bool.eq_iff_iff, defined, walk.any_defines_iff]
      cases items
      simp only [Items.ofEdges, Items.mk.injEq]
      exact ⟨definitions, references, some_defined⟩

/-- A result that nests another, with an edge of each kind. -/
def nestedDump : List Element :=
  [⟨⟨"1"⟩, .vertex (.metaData ⟨"file:///", none, none⟩)⟩,
    ⟨⟨"2"⟩, .vertex (.document ⟨"file:///a", "x"⟩)⟩,
    ⟨⟨"3"⟩, .vertex (.range ⟨⟨0, 0⟩, ⟨0, 1⟩⟩)⟩,
    ⟨⟨"4"⟩, .vertex (.range ⟨⟨1, 0⟩, ⟨1, 1⟩⟩)⟩,
    ⟨⟨"5"⟩, .vertex .referenceResult⟩,
    ⟨⟨"6"⟩, .vertex .referenceResult⟩,
    ⟨⟨"7"⟩, .edge ⟨.item, ⟨"5"⟩, ⟨"3"⟩, [], some ⟨"2"⟩, some .definitions⟩⟩,
    ⟨⟨"8"⟩, .edge ⟨.item, ⟨"5"⟩, ⟨"6"⟩, [], none, some .referenceResults⟩⟩,
    ⟨⟨"9"⟩, .edge ⟨.item, ⟨"5"⟩, ⟨"4"⟩, [], some ⟨"2"⟩, some .references⟩⟩,
    ⟨⟨"10"⟩, .edge ⟨.item, ⟨"5"⟩, ⟨"4"⟩, [], none, some .referenceLinks⟩⟩,
    ⟨⟨"11"⟩, .edge ⟨.next, ⟨"5"⟩, ⟨"3"⟩, [], none, none⟩⟩,
    ⟨⟨"12"⟩, .edge ⟨.item, ⟨"6"⟩, ⟨"4"⟩, [⟨"3"⟩], none, some .declarations⟩⟩]

theorem Graph.items_iff_walk_nestedDump :
    ∃ graph, ofElements nestedDump = .ok graph ∧
      graph.items ⟨"5"⟩ = .ok ⟨[(⟨"3"⟩, some ⟨"2"⟩)],
        [(⟨"4"⟩, none), (⟨"3"⟩, none), (⟨"4"⟩, some ⟨"2"⟩)], true⟩ ∧
      ∃ entered met, Items.Walk graph [.enter ⟨"5"⟩] entered met ∧ entered.Nodup ∧
        ∀ id, id ∈ entered ↔ Relation.ReflTransGen graph.Nests ⟨"5"⟩ id := by
  have evaluated : (ofElements nestedDump).toOption.map (fun graph => graph.items ⟨"5"⟩) =
      some (.ok ⟨[(⟨"3"⟩, some ⟨"2"⟩)], [(⟨"4"⟩, none), (⟨"3"⟩, none), (⟨"4"⟩, some ⟨"2"⟩)], true⟩) := by
    decide +kernel
  obtain ⟨graph, built, found⟩ := Option.map_eq_some_iff.mp evaluated
  obtain ⟨entered, met, walk, once, reached, _⟩ := ((items_iff_walk graph ⟨"5"⟩).2 _).mp found
  exact ⟨graph, ok_of_toOption_eq_some built, found, entered, met, walk, once, reached⟩

end CodeAtlas
