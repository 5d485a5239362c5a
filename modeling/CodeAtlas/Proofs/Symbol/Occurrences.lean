import CodeAtlas.Proofs.Site.Interleaving

/-!
# What is found about a range

The query for a range in its parts: what it gives from scratch, and what it asks for on the way. A range
names a reference result just if it has asked for its set and got one.
-/

namespace CodeAtlas

/-- A definition is that of the result that the range's chain leads to, and is where the first item of
the result leads. -/
theorem Locator.resolve_of_definitionOf? {locator : Locator} {rangeId id : ElementId}
    {location : Location} (found : locator.definitionOf? rangeId = .ok (some (id, location))) :
    (∃ vertex, locator.graph.resolve rangeId .definition = .ok (some (id, vertex))) ∧
      ∃ link, locator.graph.firstLink? id .item = some link ∧
        locator.locate link.edge.target link.edge.document = .ok (some location) := by
  unfold definitionOf? at found
  obtain ⟨result, resolved, found⟩ := ok_of_bind_eq_ok found
  split at found
  · cases found
  · rename_i own vertex
    obtain ⟨place, defined, same⟩ := ok_of_bind_eq_ok found
    obtain ⟨_, rfl, same⟩ := Option.map_eq_some_iff.mp (Except.ok.inj same)
    cases same
    unfold definition? at defined
    split at defined
    · cases defined
    · rename_i link first
      split at defined
      · cases defined
      · exact ⟨⟨vertex, resolved⟩, link, first, defined⟩

namespace Query

variable {locator : Locator} {renderer : MarkdownRenderer}

theorem outcome_referenceSet (id : ElementId) :
    (referenceSet locator id).outcome (locator.answer renderer) =
      (locator.referenceSet? id).mapError .dump := rfl

theorem asked_referenceSet (id : ElementId) :
    (referenceSet locator id).asked (locator.answer renderer) = [.references id] := rfl

theorem asked_pure {α : Type} (value : α) (scratch : Scratch) :
    (pure value : Query α).asked scratch = [] := rfl

/-- A range names a reference result just if it has asked for its set and got one. -/
theorem referencesOf_eq_some_iff {rangeId : ElementId} {found : Option ElementId}
    (done : (referencesOf locator rangeId).outcome (locator.answer renderer) = .ok found)
    (id : ElementId) :
    found = some id ↔ .references id ∈ (referencesOf locator rangeId).asked (locator.answer renderer) ∧
      ∃ set, locator.referenceSet? id = .ok (some set) := by
  unfold referencesOf at done ⊢
  rw [lift_dump_eq] at done ⊢
  cases chain : locator.graph.resolve rangeId .references with
  | error fault =>
    rw [chain] at done
    cases done
  | ok result =>
    rw [chain, mapError_ok, bind_done_ok] at done
    rw [mapError_ok, bind_done_ok]
    cases result with
    | none =>
      cases done
      simp [asked_pure]
    | some result =>
      obtain ⟨own, vertex⟩ := result
      dsimp only at done ⊢
      rw [outcome_bind, outcome_referenceSet] at done
      obtain ⟨set, worked, same⟩ := ok_of_bind_eq_ok done
      cases same
      rw [asked_bind_of_ok ((outcome_referenceSet own).trans worked), asked_referenceSet, asked_pure,
        List.append_nil, List.mem_singleton]
      rw [mapError_eq_ok_iff] at worked
      constructor
      · intro named
        obtain ⟨set, rfl, rfl⟩ := Option.map_eq_some_iff.mp named
        exact ⟨rfl, set, worked⟩
      · rintro ⟨same, set, other⟩
        cases same
        cases worked.symm.trans other
        rfl

theorem references_notMem_asked_hoverOf {rangeId : ElementId} {found : Option (ElementId × List Char)}
    (done : (hoverOf locator renderer rangeId).outcome (locator.answer renderer) = .ok found)
    (id : ElementId) :
    .references id ∉ (hoverOf locator renderer rangeId).asked (locator.answer renderer) := by
  unfold hoverOf at done ⊢
  rw [lift_dump_eq] at done ⊢
  cases chain : locator.graph.resolve rangeId .hover with
  | error fault =>
    rw [chain] at done
    cases done
  | ok result =>
    rw [chain, mapError_ok, bind_done_ok] at done
    rw [mapError_ok, bind_done_ok]
    cases result with
    | none => simp [asked_pure]
    | some result =>
      obtain ⟨own, vertex⟩ := result
      cases vertex with
      | hoverResult contents =>
        dsimp only at done ⊢
        rw [outcome_bind] at done
        obtain ⟨html, worked, _⟩ := ok_of_bind_eq_ok done
        rw [asked_bind_of_ok worked, asked_pure]
        simp [hover, asked]
      | _ => cases done

/-- The parts of what is found about an element that a document contains. -/
inductive Found (locator : Locator) (renderer : MarkdownRenderer) (id : ElementId) :
    Option Occurrence → List Question → Prop where
  | nothing : Found locator renderer id none []
  | parts {range : Range} {hover : Option (ElementId × List Char)}
      {definition : Option (ElementId × Location)} {references : Option ElementId} :
      locator.graph.vertex id = .ok (.range range) → range.isEmpty = false →
      (hoverOf locator renderer id).outcome (locator.answer renderer) = .ok hover →
      locator.definitionOf? id = .ok definition →
      (referencesOf locator id).outcome (locator.answer renderer) = .ok references →
      Found locator renderer id (Occurrence.ofParts id range hover definition references)
        ((hoverOf locator renderer id).asked (locator.answer renderer) ++
          (referencesOf locator id).asked (locator.answer renderer))

theorem found_of_occurrence {id : ElementId} {found : Option Occurrence}
    (done : (occurrence locator renderer id).outcome (locator.answer renderer) = .ok found) :
    Found locator renderer id found
      ((occurrence locator renderer id).asked (locator.answer renderer)) := by
  unfold occurrence at done ⊢
  rw [lift_dump_eq] at done ⊢
  cases vertex : locator.graph.vertex id with
  | error fault =>
    rw [vertex] at done
    cases done
  | ok element =>
    rw [vertex, mapError_ok, bind_done_ok] at done
    rw [mapError_ok, bind_done_ok]
    cases element with
    | range range =>
      dsimp only at done ⊢
      split at done
      · rw [if_pos ‹_›]
        cases done
        exact .nothing
      · rename_i nonempty
        rw [if_neg nonempty]
        rw [outcome_bind] at done
        obtain ⟨hover, hovers, done⟩ := ok_of_bind_eq_ok done
        rw [lift_dump_eq, outcome_bind] at done
        obtain ⟨definition, defines, done⟩ := ok_of_bind_eq_ok done
        rw [outcome_bind] at done
        obtain ⟨references, refers, done⟩ := ok_of_bind_eq_ok done
        cases done
        rw [asked_bind_of_ok hovers, lift_dump_eq, asked_bind_of_ok defines, asked_bind_of_ok refers,
          asked_pure, List.append_nil]
        exact .parts vertex (by simpa using nonempty) hovers (mapError_eq_ok_iff.mp defines) refers
    | _ =>
      cases done
      exact .nothing

theorem ofParts_eq_some {id : ElementId} {range : Range} {hover : Option (ElementId × List Char)}
    {definition : Option (ElementId × Location)} {references : Option ElementId}
    {occurrence : Occurrence}
    (made : Occurrence.ofParts id range hover definition references = some occurrence) :
    occurrence = ⟨id, range, hover, definition, references⟩ := by
  unfold Occurrence.ofParts at made
  split at made
  · cases made
  · exact (Option.some.inj made).symm

theorem Found.some_inv {id : ElementId} {occurrence : Occurrence} {asked : List Question}
    (found : Found locator renderer id (some occurrence) asked) :
    occurrence.rangeId = id ∧ locator.graph.vertex id = .ok (.range occurrence.range) ∧
      occurrence.range.isEmpty = false ∧
      locator.definitionOf? id = .ok occurrence.definition := by
  generalize same : some occurrence = result at found
  cases found with
  | nothing => cases same
  | parts vertex nonempty _ defines _ =>
    obtain rfl := ofParts_eq_some same.symm
    exact ⟨rfl, vertex, nonempty, defines⟩

/-- An occurrence names a reference result just if its query has asked for the set and got one. -/
theorem Found.references_iff {rangeId : ElementId} {found : Option Occurrence} {asked : List Question}
    (about : Found locator renderer rangeId found asked) (id : ElementId) :
    (∃ occurrence, found = some occurrence ∧ occurrence.references = some id) ↔
      .references id ∈ asked ∧ ∃ set, locator.referenceSet? id = .ok (some set) := by
  cases about with
  | nothing => simp
  | parts vertex nonempty hovers defines refers =>
    have asks := referencesOf_eq_some_iff refers id
    rw [List.mem_append, or_iff_right (references_notMem_asked_hoverOf hovers id), ← asks]
    constructor
    · rintro ⟨occurrence, made, named⟩
      obtain rfl := ofParts_eq_some made
      exact named
    · intro named
      refine ⟨_, if_neg ?_, named⟩
      simp [named]

def contained (locator : Locator) (document : ElementId) : List ElementId :=
  (locator.graph.outgoingLabeled document .contains).flatMap (·.edge.targets)

theorem occurrences_eq_ok {document : ElementId} {found : List Occurrence}
    (done : (occurrences locator renderer document).outcome (locator.answer renderer) = .ok found) :
    ∃ each, ((contained locator document).mapM fun id =>
        (occurrence locator renderer id).outcome (locator.answer renderer)) = .ok each ∧
      found = each.filterMap id ∧
      (occurrences locator renderer document).asked (locator.answer renderer) =
        (contained locator document).flatMap fun id =>
          (occurrence locator renderer id).asked (locator.answer renderer) := by
  unfold occurrences at done ⊢
  rw [outcome_bind, outcome_mapM] at done
  obtain ⟨each, worked, same⟩ := ok_of_bind_eq_ok done
  cases same
  refine ⟨each, worked, rfl, ?_⟩
  rw [asked_bind_of_ok ((outcome_mapM _ _).trans worked), asked_mapM_of_ok worked, asked_pure,
    List.append_nil]
  rfl

theorem outcome_of_mem_occurrences {document : ElementId} {found : List Occurrence}
    (done : (occurrences locator renderer document).outcome (locator.answer renderer) = .ok found)
    {occurrence : Occurrence} (mem : occurrence ∈ found) :
    ∃ id ∈ contained locator document,
      (Query.occurrence locator renderer id).outcome (locator.answer renderer) =
        .ok (some occurrence) := by
  obtain ⟨each, worked, rfl, _⟩ := occurrences_eq_ok done
  obtain ⟨_, listed, rfl⟩ := List.mem_filterMap.mp mem
  exact (mem_of_mapM_eq_ok worked _).mp listed

/-- Some occurrence of a document names a reference result just if its query has asked for the set and
got one. -/
theorem occurrences_references_iff {document : ElementId} {found : List Occurrence}
    (done : (occurrences locator renderer document).outcome (locator.answer renderer) = .ok found)
    (id : ElementId) :
    (∃ occurrence ∈ found, occurrence.references = some id) ↔
      .references id ∈ (occurrences locator renderer document).asked (locator.answer renderer) ∧
        ∃ set, locator.referenceSet? id = .ok (some set) := by
  obtain ⟨each, worked, rfl, asks⟩ := occurrences_eq_ok done
  rw [asks, List.mem_flatMap]
  constructor
  · rintro ⟨occurrence, mem, named⟩
    obtain ⟨_, listed, rfl⟩ := List.mem_filterMap.mp mem
    obtain ⟨element, inside, gave⟩ := (mem_of_mapM_eq_ok worked _).mp listed
    obtain ⟨asked, set⟩ := ((found_of_occurrence gave).references_iff id).mp ⟨occurrence, rfl, named⟩
    exact ⟨⟨element, inside, asked⟩, set⟩
  · rintro ⟨⟨element, inside, asked⟩, set⟩
    have mapped := (mapM_eq_ok_iff _ _ _).mp worked
    obtain ⟨gave, listed, same⟩ := List.mem_map.mp (mapped ▸ List.mem_map_of_mem inside)
    obtain ⟨occurrence, rfl, named⟩ :=
      ((found_of_occurrence same.symm).references_iff id).mpr ⟨asked, set⟩
    exact ⟨occurrence, List.mem_filterMap.mpr ⟨_, listed, rfl⟩, named⟩

end Query

end CodeAtlas
