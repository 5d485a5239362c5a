import CodeAtlas.Proofs.Dump.Adjacency

/-!
# Which dumps are refused, and why

`WellFormed` says which lists of elements make a graph, and `Refuses` which fault any other list is
refused for: a clash with an earlier element before a missing project, and that before a bad end of an
edge, each at the first place where it shows. `ofElements_outcome_iff` is that loading does just this.
-/

namespace CodeAtlas

/-! ### Faults of a list of elements -/

/-- Some vertex of the list has the given id. -/
def NamesVertex (elements : List Element) (id : ElementId) : Prop :=
  ∃ vertex, ⟨id, .vertex vertex⟩ ∈ elements

/-- The ids are all different, one element is a `metaData` vertex, and every edge leads from a vertex to
vertices, and to a document that is one. -/
structure WellFormed (elements : List Element) : Prop where
  ids : (elements.map Element.id).Nodup
  metaData : elements.countP (fun element => element.metaData?.isSome) = 1
  source : ∀ link ∈ linksOf elements, NamesVertex elements link.edge.source
  targets : ∀ link ∈ linksOf elements, ∀ id ∈ link.edge.target :: link.edge.moreTargets,
    NamesVertex elements id
  document : ∀ link ∈ linksOf elements, ∀ id, link.edge.document = some id → NamesVertex elements id

/-- How an element clashes with the elements before it. A repeated id counts before all else. -/
inductive Clashes (before : List Element) (element : Element) : DumpFault → Prop where
  | duplicateId : element.id ∈ before.map Element.id →
      Clashes before element (.duplicateId element.id)
  | duplicateMetaData : element.id ∉ before.map Element.id → element.metaData?.isSome →
      (∃ earlier ∈ before, earlier.metaData?.isSome) →
      Clashes before element (.duplicateMetaData element.id)

def ClashAt (elements : List Element) (place : Nat) (fault : DumpFault) : Prop :=
  ∃ element, elements[place]? = some element ∧ Clashes (elements.take place) element fault

/-- No element at an earlier place clashes with those before it. -/
def UnclashedTo (elements : List Element) (place : Nat) : Prop :=
  ∀ earlier < place, ∀ fault, ¬ ClashAt elements earlier fault

def Unclashed (elements : List Element) : Prop :=
  ∀ place, UnclashedTo elements place

/-- `a` is the first of the list with the property. -/
def FirstWith {α : Type} (P : α → Prop) (list : List α) (a : α) : Prop :=
  P a ∧ ∃ before after, list = before ++ a :: after ∧ ∀ b ∈ before, ¬ P b

/-- What is wrong with an edge whose end is no vertex. -/
inductive BadEndpoint (elements : List Element) (edge endpoint : ElementId) : DumpFault → Prop where
  | missing : (∀ element ∈ elements, element.id ≠ endpoint) →
      BadEndpoint elements edge endpoint (.missingElement endpoint)
  | isEdge {other : Edge} : ⟨endpoint, .edge other⟩ ∈ elements →
      BadEndpoint elements edge endpoint (.edgeEndpoint edge endpoint)

/-- The first end of the edge that is no vertex. The source comes before the targets, these come in their
order, and the document is last. -/
inductive LooseEnd (elements : List Element) (edge : Edge) : ElementId → Prop where
  | source : ¬ NamesVertex elements edge.source → LooseEnd elements edge edge.source
  | target {id : ElementId} : NamesVertex elements edge.source →
      FirstWith (fun id => ¬ NamesVertex elements id) (edge.target :: edge.moreTargets) id →
      LooseEnd elements edge id
  | document {id : ElementId} : NamesVertex elements edge.source →
      (∀ target ∈ edge.target :: edge.moreTargets, NamesVertex elements target) →
      edge.document = some id → ¬ NamesVertex elements id → LooseEnd elements edge id

def Dangles (elements : List Element) (link : Link) : Prop :=
  ∃ id, LooseEnd elements link.edge id

/-- The fault that a list of elements is refused for. -/
inductive Refuses (elements : List Element) : DumpFault → Prop where
  /-- Of the elements that clash with earlier ones, the first decides. -/
  | clash {place : Nat} {fault : DumpFault} : ClashAt elements place fault →
      UnclashedTo elements place → Refuses elements fault
  | missingMetaData : Unclashed elements → (∀ element ∈ elements, element.metaData? = none) →
      Refuses elements .missingMetaData
  /-- Of the edges that lead from or to something else than a vertex, the first decides, and of its
  ends the first such one. -/
  | endpoint {link : Link} {id : ElementId} {fault : DumpFault} : Unclashed elements →
      (∃ element ∈ elements, element.metaData?.isSome) →
      FirstWith (Dangles elements) (linksOf elements) link →
      LooseEnd elements link.edge id →
      BadEndpoint elements link.id id fault → Refuses elements fault

/-! ### The first of a list -/

section First

variable {α : Type} {P : α → Prop} {list : List α} {a b : α}

open Classical in
theorem firstWith_iff_find? : FirstWith P list a ↔ list.find? (fun b => decide (P b)) = some a := by
  rw [List.find?_eq_some_iff_append]
  simp [FirstWith]

theorem FirstWith.unique (one : FirstWith P list a) (two : FirstWith P list b) : a = b :=
  Option.some.inj ((firstWith_iff_find?.mp one).symm.trans (firstWith_iff_find?.mp two))

theorem firstWith_append_iff {other : List α} :
    FirstWith P (list ++ other) a ↔ FirstWith P list a ∨ (∀ b ∈ list, ¬ P b) ∧ FirstWith P other a := by
  classical
  simp [firstWith_iff_find?, List.find?_append, Option.or_eq_some_iff]

theorem firstWith_cons_iff :
    FirstWith P (b :: list) a ↔ (P b ∧ a = b) ∨ ¬ P b ∧ FirstWith P list a := by
  classical
  by_cases holds : P b <;> simp [firstWith_iff_find?, holds, eq_comm]

theorem exists_firstWith_iff : (∃ a, FirstWith P list a) ↔ ∃ a ∈ list, P a := by
  classical
  simp only [firstWith_iff_find?, ← Option.isSome_iff_exists, List.find?_isSome, decide_eq_true_eq]

end First

/-! ### The ends of an edge in a row -/

theorem looseEnd_iff {elements : List Element} {edge : Edge} {id : ElementId} :
    LooseEnd elements edge id ↔ FirstWith (fun id => ¬ NamesVertex elements id) edge.endpoints id := by
  have last : FirstWith (fun id => ¬ NamesVertex elements id) edge.document.toList id ↔
      edge.document = some id ∧ ¬ NamesVertex elements id := by
    cases edge.document with
    | none => simp [FirstWith]
    | some only =>
      rw [Option.toList_some, firstWith_cons_iff, Option.some.injEq]
      constructor
      · rintro (⟨noVertex, rfl⟩ | ⟨_, _, before, after, empty, _⟩)
        · exact ⟨rfl, noVertex⟩
        · simp at empty
      · rintro ⟨rfl, noVertex⟩
        exact .inl ⟨noVertex, rfl⟩
  rw [Edge.endpoints, Edge.targets, List.cons_append, firstWith_cons_iff, firstWith_append_iff, last]
  constructor
  · intro loose
    cases loose with
    | source noVertex => exact .inl ⟨noVertex, rfl⟩
    | target source first => exact .inr ⟨not_not.mpr source, .inl first⟩
    | document source targets named noVertex =>
      exact .inr ⟨not_not.mpr source, .inr ⟨fun id mem => not_not.mpr (targets id mem), named, noVertex⟩⟩
  · rintro (⟨noVertex, rfl⟩ | ⟨source, first | ⟨targets, named, noVertex⟩⟩)
    · exact .source noVertex
    · exact .target (not_not.mp source) first
    · exact .document (not_not.mp source) (fun id mem => not_not.mp (targets id mem)) named noVertex

theorem dangles_iff {elements : List Element} {link : Link} :
    Dangles elements link ↔ ∃ id ∈ link.edge.endpoints, ¬ NamesVertex elements id := by
  unfold Dangles
  simp only [looseEnd_iff]
  exact exists_firstWith_iff

theorem WellFormed.endpoints {elements : List Element} (wellFormed : WellFormed elements) :
    ∀ link ∈ linksOf elements, ∀ id ∈ link.edge.endpoints, NamesVertex elements id := by
  intro link mem id named
  rw [Edge.endpoints, List.cons_append, List.mem_cons, List.mem_append, Option.mem_toList] at named
  rcases named with rfl | target | document
  · exact wellFormed.source link mem
  · exact wellFormed.targets link mem id target
  · exact wellFormed.document link mem id document

theorem wellFormed_of_endpoints {elements : List Element} (ids : (elements.map Element.id).Nodup)
    (metaData : elements.countP (fun element => element.metaData?.isSome) = 1)
    (ends : ∀ link ∈ linksOf elements, ∀ id ∈ link.edge.endpoints, NamesVertex elements id) :
    WellFormed elements where
  ids := ids
  metaData := metaData
  source link mem := ends link mem _ (by simp [Edge.endpoints])
  targets link mem id named := ends link mem id (by
    rw [Edge.endpoints, Edge.targets]
    exact List.mem_append_left _ (List.mem_cons_of_mem _ named))
  document link mem id named := ends link mem id (by simp [Edge.endpoints, named])

/-! ### One fault at most -/

theorem Clashes.unique {before : List Element} {element : Element} {fault other : DumpFault}
    (one : Clashes before element fault) (two : Clashes before element other) : fault = other := by
  cases one with
  | duplicateId repeated =>
    cases two with
    | duplicateId => rfl
    | duplicateMetaData fresh => exact absurd repeated fresh
  | duplicateMetaData fresh =>
    cases two with
    | duplicateId repeated => exact absurd repeated fresh
    | duplicateMetaData => rfl

theorem ClashAt.unique {elements : List Element} {place : Nat} {fault other : DumpFault}
    (one : ClashAt elements place fault) (two : ClashAt elements place other) : fault = other := by
  obtain ⟨element, here, clashes⟩ := one
  obtain ⟨element', here', clashes'⟩ := two
  cases Option.some.inj (here.symm.trans here')
  exact clashes.unique clashes'

theorem BadEndpoint.unique {elements : List Element} {edge endpoint : ElementId}
    {fault other : DumpFault} (one : BadEndpoint elements edge endpoint fault)
    (two : BadEndpoint elements edge endpoint other) : fault = other := by
  cases one with
  | missing absent =>
    cases two with
    | missing => rfl
    | isEdge mem => exact absurd rfl (absent _ mem)
  | isEdge mem =>
    cases two with
    | missing absent => exact absurd rfl (absent _ mem)
    | isEdge => rfl

theorem Refuses.unique {elements : List Element} {fault other : DumpFault}
    (one : Refuses elements fault) (two : Refuses elements other) : fault = other := by
  cases one with
  | @clash place _ clash first =>
    cases two with
    | @clash place' _ clash' first' =>
      rcases Nat.lt_trichotomy place place' with before | rfl | after
      · exact absurd clash (first' place before _)
      · exact clash.unique clash'
      · exact absurd clash' (first place' after _)
    | missingMetaData unclashed => exact absurd clash (unclashed _ place (Nat.lt_succ_self _) _)
    | endpoint unclashed => exact absurd clash (unclashed _ place (Nat.lt_succ_self _) _)
  | missingMetaData unclashed none =>
    cases two with
    | @clash place _ clash => exact absurd clash (unclashed _ place (Nat.lt_succ_self _) _)
    | missingMetaData => rfl
    | endpoint _ some =>
      obtain ⟨element, mem, isMetaData⟩ := some
      simp [none element mem] at isMetaData
  | endpoint unclashed some firstEdge firstEnd bad =>
    cases two with
    | @clash place _ clash => exact absurd clash (unclashed _ place (Nat.lt_succ_self _) _)
    | missingMetaData _ none =>
      obtain ⟨element, mem, isMetaData⟩ := some
      simp [none element mem] at isMetaData
    | endpoint _ _ firstEdge' firstEnd' bad' =>
      cases firstEdge.unique firstEdge'
      cases (looseEnd_iff.mp firstEnd).unique (looseEnd_iff.mp firstEnd')
      exact bad.unique bad'

/-! ### The elements one after another -/

namespace Index

variable {index : Index} {before : List Element}

theorem Holds.contains_iff (holds : index.Holds before) (id : ElementId) :
    index.byId.contains id = true ↔ id ∈ before.map Element.id := by
  rw [Std.TreeMap.contains_eq_isSome_getElem?, holds.byId, List.find?_isSome, List.mem_map]
  simp

theorem Holds.metaData_isSome_iff (holds : index.Holds before) :
    index.metaData.isSome ↔ ∃ element ∈ before, element.metaData?.isSome := by
  have listed : ∀ data, data ∈ before.filterMap Element.metaData? ↔ index.metaData = some data := by
    intro data
    rw [holds.metaData, Option.mem_toList]
  constructor
  · intro some
    obtain ⟨data, found⟩ := Option.isSome_iff_exists.mp some
    obtain ⟨element, mem, isData⟩ := List.mem_filterMap.mp ((listed data).mpr found)
    exact ⟨element, mem, by simp [isData]⟩
  · rintro ⟨element, mem, isMetaData⟩
    obtain ⟨data, isData⟩ := Option.isSome_iff_exists.mp isMetaData
    simp [(listed data).mp (List.mem_filterMap.mpr ⟨element, mem, isData⟩)]

/-- An element is refused exactly for its clash with those before it. -/
theorem Holds.add_eq_error_iff (holds : index.Holds before) (element : Element)
    (fault : DumpFault) : index.add element = .error fault ↔ Clashes before element fault := by
  by_cases repeated : element.id ∈ before.map Element.id
  · have refused : index.add element = .error (.duplicateId element.id) := by
      rw [add, if_pos ((holds.contains_iff _).mpr repeated)]
    rw [refused]
    constructor
    · intro same
      cases same
      exact .duplicateId repeated
    · intro clash
      rw [(Clashes.duplicateId repeated).unique clash]
  · have fresh : ¬ index.byId.contains element.id = true := fun there =>
      repeated ((holds.contains_iff _).mp there)
    have second : index.metaData.isSome ↔ _ := holds.metaData_isSome_iff
    obtain ⟨id, kind⟩ := element
    rw [add, if_neg fresh]
    constructor
    · intro refused
      cases kind with
      | edge edge => cases refused
      | vertex vertex =>
        cases vertex with
        | metaData data =>
          simp only [addVertex] at refused
          split at refused
          · rename_i found
            cases refused
            exact .duplicateMetaData repeated rfl (second.mp (by simp [found]))
          · cases refused
        | _ => cases refused
    · intro clash
      cases clash with
      | duplicateId again => exact absurd again repeated
      | duplicateMetaData _ isMetaData earlier =>
        obtain ⟨data, found⟩ := Option.isSome_iff_exists.mp (second.mpr earlier)
        cases kind with
        | edge edge => cases isMetaData
        | vertex vertex =>
          cases vertex with
          | metaData data => simp [addVertex, found]
          | _ => cases isMetaData

theorem clashAt_length_iff {after : List Element} {element : Element} {fault : DumpFault} :
    ClashAt (before ++ element :: after) before.length fault ↔ Clashes before element fault := by
  simp [ClashAt]

/-- The elements that are left are read up to the first that clashes, if there is one. -/
theorem foldlM_outcome {elements : List Element} (holds : index.Holds before)
    (clear : UnclashedTo (before ++ elements) before.length) :
    (∀ fault, elements.foldlM add index = .error fault → ∃ place,
      ClashAt (before ++ elements) place fault ∧ UnclashedTo (before ++ elements) place) ∧
    (∀ final, elements.foldlM add index = .ok final → Unclashed (before ++ elements)) := by
  -- The index holds the elements before, which grow by one with each element that is read.
  induction elements generalizing index before with
  | nil =>
    refine ⟨fun fault refused => (by cases refused), fun _ _ place earlier _ fault clash => ?_⟩
    by_cases below : earlier < before.length
    · exact clear earlier (by simpa using below) fault clash
    · obtain ⟨element, here, _⟩ := clash
      rw [List.append_nil, List.getElem?_eq_none (by omega)] at here
      cases here
  | cons element elements ih =>
    rw [List.foldlM_cons]
    cases added : index.add element with
    | error fault =>
      refine ⟨fun other refused => ?_, fun final read => (by cases read)⟩
      cases refused
      exact ⟨before.length, clashAt_length_iff.mpr ((holds.add_eq_error_iff _ _).mp added), clear⟩
    | ok next =>
      have further : UnclashedTo (before ++ [element] ++ elements) (before ++ [element]).length := by
        intro earlier below fault clash
        rw [List.append_assoc] at clash
        by_cases last : earlier = before.length
        · subst last
          have refused := (holds.add_eq_error_iff _ _).mpr (clashAt_length_iff.mp clash)
          rw [added] at refused
          cases refused
        · exact clear earlier (by simp at below; omega) fault clash
      have rest := ih ((add_extends added).holds holds) further
      rwa [List.append_assoc] at rest

end Index

/-! ### The ends of edges -/

theorem find?_id_eq_some_iff {elements : List Element} (ids : (elements.map Element.id).Nodup)
    {id : ElementId} {element : Element} :
    elements.find? (fun element => element.id == id) = some element ↔
      element ∈ elements ∧ element.id = id := by
  rw [← Option.mem_toList, ← filter_id_eq ids, List.mem_filter, beq_iff_eq]

namespace Graph

variable {graph : Graph} {elements : List Element}

theorem endpointFault?_eq_some {edge endpoint : ElementId} {fault : DumpFault}
    (bad : graph.endpointFault? edge endpoint = some fault)
    (get : ∀ id, graph.get? id = elements.find? fun element => element.id == id)
    (ids : (elements.map Element.id).Nodup) :
    ¬ NamesVertex elements endpoint ∧ BadEndpoint elements edge endpoint fault := by
  unfold endpointFault? at bad
  rw [get] at bad
  split at bad
  · rename_i absent
    cases bad
    rw [List.find?_eq_none] at absent
    have missing : ∀ element ∈ elements, element.id ≠ endpoint := fun element mem => by
      simpa using absent element mem
    exact ⟨fun ⟨vertex, mem⟩ => missing _ mem rfl, .missing missing⟩
  · rename_i element found
    obtain ⟨mem, rfl⟩ := (find?_id_eq_some_iff ids).mp found
    split at bad
    · cases bad
    · rename_i other isEdge
      cases bad
      obtain ⟨id, kind⟩ := element
      cases isEdge
      refine ⟨fun ⟨vertex, also⟩ => ?_, .isEdge mem⟩
      have same := (find?_id_eq_some_iff ids).mpr ⟨also, rfl⟩
      rw [found] at same
      cases same

theorem namesVertex_of_endpointFault? {edge endpoint : ElementId}
    (sound : graph.endpointFault? edge endpoint = none)
    (get : ∀ id, graph.get? id = elements.find? fun element => element.id == id)
    (ids : (elements.map Element.id).Nodup) : NamesVertex elements endpoint := by
  obtain ⟨⟨id, kind⟩, vertex, found, rfl⟩ := endpointFault?_eq_none sound
  obtain ⟨mem, rfl⟩ := (find?_id_eq_some_iff ids).mp ((get _).symm.trans found)
  exact ⟨vertex, mem⟩

theorem endpointFaults_eq_some {fault : DumpFault}
    (bad : graph.endpointFaults elements = some fault)
    (get : ∀ id, graph.get? id = elements.find? fun element => element.id == id)
    (ids : (elements.map Element.id).Nodup) :
    ∃ link id, FirstWith (Dangles elements) (linksOf elements) link ∧
      LooseEnd elements link.edge id ∧ BadEndpoint elements link.id id fault := by
  -- The scan is over all elements, and `linksOf` lists the edges among them in the same order.
  obtain ⟨before, element, after, split, found, sound⟩ := List.findSome?_eq_some_iff.mp bad
  obtain ⟨edge, isEdge, faulty⟩ := Option.bind_eq_some_iff.mp found
  obtain ⟨good, id, rest, ends, wrong, vertices⟩ := List.findSome?_eq_some_iff.mp faulty
  obtain ⟨unnamed, badEndpoint⟩ := endpointFault?_eq_some wrong get ids
  have loose : LooseEnd elements edge id := by
    refine looseEnd_iff.mpr ⟨unnamed, good, rest, ends, fun other mem noVertex => ?_⟩
    exact noVertex (namesVertex_of_endpointFault? (vertices other mem) get ids)
  refine ⟨⟨element.id, edge⟩, id, ⟨⟨id, loose⟩, linksOf before, linksOf after, ?_, ?_⟩, loose, badEndpoint⟩
  · simp [split, linksOf, Element.link?_eq, isEdge]
  · intro link mem dangles
    obtain ⟨other, named, noVertex⟩ := dangles_iff.mp dangles
    have vertex := endpointFaults_eq_none (List.findSome?_eq_none_iff.mpr sound) mem named
    exact noVertex (namesVertex_of_endpointFault? vertex get ids)

/-! ### Loading -/

theorem refuses_of_ofElements {fault : DumpFault} (refused : ofElements elements = .error fault) :
    Refuses elements fault := by
  have outcome := @Index.foldlM_outcome _ _ elements Index.empty_holds
    (fun _ below => absurd below (Nat.not_lt_zero _))
  unfold ofElements at refused
  cases read : Index.ofElements elements with
  | error clash =>
    rw [read] at refused
    cases refused
    obtain ⟨place, clash, first⟩ := outcome.1 _ read
    exact .clash clash first
  | ok index =>
    have holds := Index.ofElements_holds read
    have unclashed : Unclashed elements := outcome.2 _ read
    simp only [read, bind, Except.bind] at refused
    split at refused
    · rename_i none
      cases refused
      refine .missingMetaData unclashed fun element mem => ?_
      by_contra isMetaData
      have found := holds.metaData_isSome_iff.mpr
        ⟨element, mem, Option.isSome_iff_ne_none.mpr isMetaData⟩
      simp [none] at found
    · rename_i metaData found
      split at refused
      · rename_i bad
        cases refused
        obtain ⟨link, id, firstEdge, firstEnd, badEndpoint⟩ :=
          endpointFaults_eq_some bad holds.byId holds.ids
        exact .endpoint unclashed (holds.metaData_isSome_iff.mp (by simp [found])) firstEdge firstEnd
          badEndpoint
      · cases refused

theorem Describes.wellFormed (describes : graph.Describes elements) : WellFormed elements := by
  refine wellFormed_of_endpoints describes.ids ?_ fun link mem id named => ?_
  · rw [← List.length_filterMap_eq_countP, describes.metaData, List.length_singleton]
  · obtain ⟨vertex, found⟩ := describes.endpoints link mem id named
    exact ⟨vertex, describes.mem_of_get? found⟩

end Graph

theorem WellFormed.not_clashAt {elements : List Element} (wellFormed : WellFormed elements)
    (place : Nat) (fault : DumpFault) : ¬ ClashAt elements place fault := by
  rintro ⟨element, here, clashes⟩
  obtain ⟨below, rfl⟩ := List.getElem?_eq_some_iff.mp here
  have split : elements = elements.take place ++ elements[place] :: elements.drop (place + 1) := by
    rw [← List.drop_eq_getElem_cons below, List.take_append_drop]
  cases clashes with
  | duplicateId repeated =>
    have ids := wellFormed.ids
    rw [split, List.map_append, List.map_cons, List.nodup_append] at ids
    exact ids.2.2 _ repeated _ List.mem_cons_self rfl
  | duplicateMetaData _ isMetaData earlier =>
    have one := wellFormed.metaData
    have before : 0 < (elements.take place).countP fun element => element.metaData?.isSome :=
      List.countP_pos_iff.mpr earlier
    rw [split, List.countP_append, List.countP_cons, if_pos isMetaData] at one
    omega

theorem WellFormed.not_refuses {elements : List Element} (wellFormed : WellFormed elements)
    (fault : DumpFault) : ¬ Refuses elements fault := by
  intro refuses
  cases refuses with
  | clash clash => exact wellFormed.not_clashAt _ _ clash
  | missingMetaData _ none =>
    have zero : elements.countP (fun element => element.metaData?.isSome) = 0 :=
      List.countP_eq_zero.mpr fun element mem => by simp [none element mem]
    rw [wellFormed.metaData] at zero
    cases zero
  | endpoint _ _ firstEdge =>
    obtain ⟨dangles, before, after, split, _⟩ := firstEdge
    obtain ⟨id, named, noVertex⟩ := dangles_iff.mp dangles
    exact noVertex (wellFormed.endpoints _ (by simp [split]) id named)

namespace Graph

theorem exists_ofElements_iff (elements : List Element) :
    (∃ graph, ofElements elements = .ok graph) ↔ WellFormed elements := by
  constructor
  · rintro ⟨graph, built⟩
    exact (describes_of_ofElements built).wellFormed
  · intro wellFormed
    cases built : ofElements elements with
    | ok graph => exact ⟨graph, rfl⟩
    | error fault => exact absurd (refuses_of_ofElements built) (wellFormed.not_refuses fault)

/-- A list of elements makes a graph exactly if it is well formed, and any other is refused for the one
fault that its order of elements and ends picks. -/
theorem ofElements_outcome_iff (elements : List Element) :
    ((∃ graph, ofElements elements = .ok graph) ↔ WellFormed elements) ∧
    ∀ fault, ofElements elements = .error fault ↔ Refuses elements fault := by
  refine ⟨exists_ofElements_iff elements, fun fault => ⟨refuses_of_ofElements, ?_⟩⟩
  intro refuses
  cases built : ofElements elements with
  | ok graph =>
    exact absurd refuses ((describes_of_ofElements built).wellFormed.not_refuses fault)
  | error other => rw [(refuses_of_ofElements built).unique refuses]

/-- A dump with an edge between the given ends, and another edge after it. -/
def endsDump (source : String) (targets : List String) (document : Option String) : List Element :=
  [⟨⟨"5"⟩, .edge ⟨.item, ⟨source⟩, ⟨"2"⟩, targets.map ElementId.mk, document.map ElementId.mk, none⟩⟩,
    ⟨⟨"1"⟩, .vertex (.metaData ⟨"file:///", none, none⟩)⟩,
    ⟨⟨"2"⟩, .vertex .definitionResult⟩,
    ⟨⟨"3"⟩, .vertex (.document ⟨"file:///a", "x"⟩)⟩,
    ⟨⟨"6"⟩, .edge ⟨.next, ⟨"2"⟩, ⟨"9"⟩, [], none, none⟩⟩]

theorem ofElements_outcome_iff_endsDump :
    Refuses (endsDump "7" ["8"] (some "9")) (.missingElement ⟨"7"⟩) ∧
    Refuses (endsDump "2" ["3", "8", "7"] (some "9")) (.missingElement ⟨"8"⟩) ∧
    Refuses (endsDump "2" ["3"] (some "6")) (.edgeEndpoint ⟨"5"⟩ ⟨"6"⟩) ∧
    Refuses (endsDump "2" ["3"] (some "3")) (.missingElement ⟨"9"⟩) ∧
    WellFormed ((endsDump "2" ["3"] (some "3")).take 4) := by
  refine ⟨?_, ?_, ?_, ?_, ?_⟩
  · exact ((ofElements_outcome_iff _).2 _).mp (by rfl)
  · exact ((ofElements_outcome_iff _).2 _).mp (by rfl)
  · exact ((ofElements_outcome_iff _).2 _).mp (by rfl)
  · exact ((ofElements_outcome_iff _).2 _).mp (by rfl)
  · exact (ofElements_outcome_iff _).1.mp ⟨_, by rfl⟩

end Graph

end CodeAtlas
