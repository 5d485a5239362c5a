import CodeAtlas.Disk.Store
import CodeAtlas.Proofs.Text.Encoding
import Mathlib.Logic.Function.Basic

/-!
# What operations do to the files of a disk

Each operation by the files it leaves (`Store.file?`). Making folders touches no file; a write puts one
file at the place that its path leads to; removing a folder takes away the files below it. Folders stay
folders under the first two, so that a path that was followed once can be followed again.
-/

namespace CodeAtlas

/-! ### Where paths lead -/

/-- The place that a step leads to from a folder. -/
def DiskPath.follow (place : Place) (step : DiskPath.Step) : Place :=
  if isIdle step then place
  else if step = above then place.dropLast
  else place ++ [step]

def DiskNode.contents? : DiskNode → Option (List UInt8)
  | .folder => none
  | .file contents => some contents

namespace Store

def file? (store : Store) (place : Place) : Option (List UInt8) :=
  (store.node? place).bind DiskNode.contents?

/-- The place that a path leads to if all folders on the way are there. -/
def destination (store : Store) (path : DiskPath) : Place :=
  path.steps.foldl DiskPath.follow (if path.isAbsolute then [] else store.current)

/-- Paths start from the same place, and all folders are still there. -/
structure Keeps (before after : Store) : Prop where
  current : after.current = before.current
  folder : ∀ place, before.node? place = some .folder → after.node? place = some .folder

variable {store after : Store} {path : DiskPath} {place : Place} {contents : List UInt8}

theorem Keeps.refl (store : Store) : store.Keeps store :=
  ⟨rfl, fun _ there => there⟩

theorem Keeps.trans {later : Store} (first : store.Keeps after) (second : after.Keeps later) :
    store.Keeps later :=
  ⟨second.current.trans first.current, fun place there => second.folder place (first.folder place there)⟩

theorem Keeps.destination_eq (keeps : store.Keeps after) (path : DiskPath) :
    after.destination path = store.destination path := by
  rw [destination, destination, keeps.current]

theorem node?_put (store : Store) (place : Place) (node : DiskNode) (top : place ≠ []) (other : Place) :
    (store.put place node).node? other = if other = place then some node else store.node? other := by
  cases other with
  | nil => simp [node?, Ne.symm top]
  | cons step other =>
    simp only [node?, put, Std.TreeMap.getElem?_insert, List.isEmpty_cons, Bool.false_eq_true, if_false,
      Std.compare_eq_iff_eq, @eq_comm _ (step :: other)]

theorem file?_put_file (top : place ≠ []) (store : Store) (contents : List UInt8) :
    (store.put place (.file contents)).file? = Function.update store.file? place (some contents) := by
  funext other
  rw [Function.update_apply, file?, node?_put _ _ _ top, apply_ite (Option.bind · DiskNode.contents?)]
  rfl

theorem keeps_put (top : place ≠ []) {node : DiskNode} (free : store.node? place ≠ some .folder) :
    store.Keeps (store.put place node) := by
  refine ⟨rfl, fun other there => ?_⟩
  rw [node?_put _ _ _ top, if_neg]
  · exact there
  · rintro rfl
    exact free there

theorem foldl_follow_of_walk {steps : List DiskPath.Step} {final : Place}
    (walked : store.walk place steps = .ok final) : final = steps.foldl DiskPath.follow place := by
  induction steps generalizing place with
  | nil =>
    cases walked
    rfl
  | cons step steps ih =>
    rw [walk] at walked
    split at walked
    · cases walked
    · cases walked
    · rw [List.foldl_cons, DiskPath.follow]
      split at walked
      · rw [if_pos ‹_›]
        exact ih walked
      · rw [if_neg ‹_›]
        split at walked
        · rw [if_pos ‹_›]
          exact ih walked
        · rw [if_neg ‹_›]
          split at walked
          · cases walked
          · exact ih walked

theorem Keeps.walk (keeps : store.Keeps after) {steps : List DiskPath.Step} {final : Place}
    (walked : store.walk place steps = .ok final) : after.walk place steps = .ok final := by
  induction steps generalizing place with
  | nil => exact walked
  | cons step steps ih =>
    rw [Store.walk] at walked ⊢
    split at walked
    · cases walked
    · cases walked
    · rw [keeps.folder place ‹_›]
      dsimp only
      split at walked
      · rw [if_pos ‹_›]
        exact ih walked
      · rw [if_neg ‹_›]
        split at walked
        · rw [if_pos ‹_›]
          exact ih walked
        · rw [if_neg ‹_›]
          split at walked
          · cases walked
          · rw [if_neg ‹_›]
            exact ih walked

theorem start_eq_ok (started : store.start path = .ok place) :
    place = if path.isAbsolute then [] else store.current := by
  unfold start at started
  split at started
  · cases started
  · split at started
    · cases started
    · split at started
      · cases started
      · exact (Except.ok.inj started).symm

theorem Keeps.start_eq (keeps : store.Keeps after) (path : DiskPath) :
    after.start path = store.start path := by
  rw [start, start, keeps.current]

theorem locate_eq_ok_iff :
    store.locate path = .ok place ↔
      ∃ top, store.start path = .ok top ∧ store.walk top path.steps = .ok place := by
  unfold locate
  cases store.start path <;> simp [bind, Except.bind]

theorem destination_of_locate (located : store.locate path = .ok place) :
    place = store.destination path := by
  obtain ⟨top, started, walked⟩ := locate_eq_ok_iff.mp located
  rw [foldl_follow_of_walk walked, start_eq_ok started, destination]

theorem Keeps.locate (keeps : store.Keeps after) (located : store.locate path = .ok place) :
    after.locate path = .ok place := by
  obtain ⟨top, started, walked⟩ := locate_eq_ok_iff.mp located
  exact locate_eq_ok_iff.mpr ⟨top, (keeps.start_eq path).trans started, keeps.walk walked⟩

theorem read_of_file? (located : store.locate path = .ok place)
    (there : store.file? place = some contents) : store.read path = .ok contents := by
  obtain ⟨node, found, held⟩ := Option.bind_eq_some_iff.mp there
  cases node with
  | folder => cases held
  | file other =>
    cases held
    simp [Store.read, lookup, located, found, bind, Except.bind]

/-! ### Making folders -/

/-- Making folders touches no file and removes no folder. -/
theorem makeSteps_spec (store : Store) (place : Place) (steps : List DiskPath.Step) :
    (store.makeSteps place steps).2.file? = store.file? ∧
      store.Keeps (store.makeSteps place steps).2 := by
  induction steps generalizing store place with
  | nil => exact ⟨rfl, .refl store⟩
  | cons step steps ih =>
    rw [makeSteps]
    split
    · exact ih store _
    · split
      · exact ⟨rfl, .refl store⟩
      · have top : place ++ [step] ≠ [] := by simp
        dsimp only
        split
        · exact ih store _
        · exact ⟨rfl, .refl store⟩
        · rename_i free
          obtain ⟨files, keeps⟩ := ih (store.put (place ++ [step]) .folder) (place ++ [step])
          refine ⟨files.trans ?_, (keeps_put top (by simp [free])).trans keeps⟩
          funext other
          rw [file?, file?, node?_put _ _ _ top]
          split
          · simp [DiskNode.contents?, *]
          · rfl

theorem makeFolders_spec (store : Store) (path : DiskPath) :
    (store.makeFolders path).2.file? = store.file? ∧ store.Keeps (store.makeFolders path).2 := by
  unfold makeFolders
  split
  · exact ⟨rfl, .refl store⟩
  · split
    · exact ⟨rfl, .refl store⟩
    · exact makeSteps_spec store _ _

/-! ### Writing files -/

/-- After a file was written, its path leads to it and all other files are as before. -/
theorem write_spec (written : store.write path contents = .ok after) :
    after.file? = Function.update store.file? (store.destination path) (some contents) ∧
      store.Keeps after ∧ after.locate path = .ok (store.destination path) := by
  unfold write at written
  cases started : store.start path with
  | error fault => simp [started, bind, Except.bind] at written
  | ok top =>
    simp only [started, bind, Except.bind] at written
    split at written
    · cases walked : store.walk top path.steps with
      | error fault => simp [walked] at written
      | ok place =>
        simp only [walked] at written
        have located : store.locate path = .ok place := locate_eq_ok_iff.mpr ⟨top, started, walked⟩
        have free : store.node? place ≠ some .folder := by
          intro there
          simp [there] at written
        have stored : store.put place (.file contents) = after := by
          split at written
          · cases written
          · exact Except.ok.inj written
        have top : place ≠ [] := by
          rintro rfl
          exact free rfl
        rw [← stored, ← destination_of_locate located]
        have keeps : store.Keeps (store.put place (.file contents)) := keeps_put top free
        exact ⟨file?_put_file top store contents, keeps, keeps.locate located⟩
    · split at written <;> cases written

/-! ### Removing folders -/

theorem node?_clear (store : Store) (place other : Place) :
    (store.clear place).node? other =
      if place <+: other ∧ place ≠ other then none else store.node? other := by
  cases other with
  | nil =>
    rw [if_neg]
    · rfl
    · rintro ⟨below, apart⟩
      exact apart (List.prefix_nil.mp below)
  | cons step other =>
    simp only [node?, clear, List.isEmpty_cons, Bool.false_eq_true, if_false]
    rw [Std.TreeMap.getElem?_filter']
    by_cases below : place <+: step :: other ∧ place ≠ step :: other
    · have gone : (!(place.isPrefixOf (step :: other) && place != step :: other)) = false := by
        simpa using below
      rw [if_pos below, gone]
      cases store.nodes[step :: other]? <;> rfl
    · have left : (!(place.isPrefixOf (step :: other) && place != step :: other)) = true := by
        rw [Bool.not_eq_true', ← Bool.not_eq_true, Bool.and_eq_true, List.isPrefixOf_iff_prefix]
        simpa using below
      rw [if_neg below, left]
      cases store.nodes[step :: other]? <;> rfl

theorem lookup_eq_ok_iff {node : DiskNode} :
    store.lookup path = .ok (place, node) ↔
      store.locate path = .ok place ∧ store.node? place = some node := by
  unfold lookup
  cases store.locate path with
  | error fault => simp [bind, Except.bind]
  | ok found =>
    simp only [bind, Except.bind, Except.ok.injEq]
    split
    · rename_i missing
      simp only [reduceCtorEq, false_iff]
      rintro ⟨rfl, there⟩
      rw [missing] at there
      cases there
    · rename_i there
      constructor
      · rintro ⟨⟩
        exact ⟨rfl, there⟩
      · rintro ⟨rfl, same⟩
        rw [there] at same
        cases same
        rfl

theorem file?_erase (store : Store) (place : Place) (folder : store.file? place = none) :
    { store with nodes := store.nodes.erase place }.file? = store.file? := by
  funext other
  by_cases same : place = other
  · subst same
    cases place with
    | nil => rfl
    | cons step rest =>
      rw [folder, file?, node?]
      simp
  · cases other with
    | nil => rfl
    | cons step rest => simp [file?, node?, Std.TreeMap.getElem?_erase, same]

/-- Removing a folder takes away the files below it and no others, even if the folder itself stays. -/
theorem removeTree_spec (found : store.lookup path = .ok (place, .folder)) :
    (store.removeTree path).2.current = store.current ∧
      ∀ other, (store.removeTree path).2.file? other =
        if place <+: other then none else store.file? other := by
  obtain ⟨located, there⟩ := lookup_eq_ok_iff.mp found
  have cleared : ∀ other, (store.clear place).file? other =
      if place <+: other then none else store.file? other := by
    intro other
    rw [file?, node?_clear]
    by_cases same : place = other
    · subst same
      simp [there, DiskNode.contents?]
    · simp only [ne_eq, same, not_false_eq_true, and_true]
      split <;> rfl
  have own : (store.clear place).file? place = none := by simp [cleared]
  unfold removeTree
  rw [found]
  dsimp only
  split
  · exact ⟨rfl, cleared⟩
  · split
    · exact ⟨rfl, cleared⟩
    · exact ⟨rfl, fun other => by rw [file?_erase _ _ own, cleared]⟩

theorem removeTree_nodes (store : Store) (path : DiskPath) {place : Place}
    (there : place ∈ (store.removeTree path).2.nodes) : place ∈ store.nodes := by
  unfold removeTree at there
  split at there
  · exact there
  · exact there
  · dsimp only at there
    have cleared : ∀ {top}, place ∈ (store.clear top).nodes → place ∈ store.nodes := by
      intro top mem
      exact Std.TreeMap.mem_of_mem_filter mem
    split at there
    · exact cleared there
    · split at there
      · exact cleared there
      · exact cleared (Std.TreeMap.mem_of_mem_erase there)

end Store

/-- The step is a name: it leads one folder down. -/
def DiskPath.IsName (step : DiskPath.Step) : Prop :=
  isIdle step = false ∧ step ≠ above

namespace Store

variable {store : Store} {path : DiskPath} {place : Place}

/-! ### Disks in order -/

/-- All steps of all places are names. -/
def Named (store : Store) : Prop :=
  ∀ place, place ∈ store.nodes → ∀ step ∈ place, DiskPath.IsName step ∧ DiskPath.slash ∉ step

/-- What is at a place is in a folder, places are made of names, and relative paths start from a
folder. -/
structure WellFormed (store : Store) : Prop where
  named : store.Named
  parent : ∀ place step, place ++ [step] ∈ store.nodes → store.node? place = some .folder
  current : store.node? store.current = some .folder

theorem WellFormed.node?_append (wellFormed : store.WellFormed) (missing : store.node? place = none)
    (rest : Place) : store.node? (place ++ rest) = none := by
  induction rest generalizing place with
  | nil => simpa using missing
  | cons step rest ih =>
    rw [← List.singleton_append, ← List.append_assoc]
    apply ih
    have free : place ++ [step] ∉ store.nodes := by
      intro there
      cases missing.symm.trans (wellFormed.parent place step there)
    simpa [node?] using free

theorem exists_foldl_follow {steps : List DiskPath.Step} (down : DiskPath.above ∉ steps) (place : Place) :
    ∃ rest, steps.foldl DiskPath.follow place = place ++ rest := by
  induction steps generalizing place with
  | nil => exact ⟨[], by simp⟩
  | cons step steps ih =>
    obtain ⟨notAbove, later⟩ := not_or.mp (mt List.mem_cons.mpr down)
    rw [List.foldl_cons, DiskPath.follow, if_neg (Ne.symm notAbove)]
    split
    · exact ih later place
    · obtain ⟨rest, same⟩ := ih later (place ++ [step])
      exact ⟨step :: rest, by simp [same]⟩

/-- A walk that comes to nothing has nothing below where it would lead, unless it goes up again. -/
theorem WellFormed.node?_of_walk (wellFormed : store.WellFormed) {steps : List DiskPath.Step}
    (down : DiskPath.above ∉ steps) (stuck : store.walk place steps = .error .notFound) (rest : Place) :
    store.node? (steps.foldl DiskPath.follow place ++ rest) = none := by
  induction steps generalizing place with
  | nil => cases stuck
  | cons step steps ih =>
    rw [walk] at stuck
    split at stuck
    · rename_i missing
      obtain ⟨more, same⟩ := exists_foldl_follow down place
      rw [same, List.append_assoc]
      exact wellFormed.node?_append missing _
    · cases stuck
    · obtain ⟨notAbove, later⟩ := not_or.mp (mt List.mem_cons.mpr down)
      rw [List.foldl_cons, DiskPath.follow, if_neg (Ne.symm notAbove)]
      split at stuck
      · rw [if_pos ‹_›]
        exact ih later stuck
      · rw [if_neg ‹_›]
        rw [if_neg (Ne.symm notAbove)] at stuck
        split at stuck
        · cases stuck
        · exact ih later stuck

theorem start_ne_notFound (store : Store) (given : path.bytes ≠ []) :
    store.start path ≠ .error .notFound := by
  unfold start
  split
  · simp
  · rw [if_neg (by simpa using given)]
    split <;> simp

/-- If the folder at a path that never goes up cannot be found, there is no file below it. -/
theorem WellFormed.file?_of_notFound (wellFormed : store.WellFormed) (given : path.bytes ≠ [])
    (down : DiskPath.above ∉ path.steps) (missing : store.lookup path = .error .notFound)
    (rest : Place) : store.file? (store.destination path ++ rest) = none := by
  have nothing : store.node? (store.destination path ++ rest) = none := by
    unfold lookup at missing
    cases located : store.locate path with
    | ok place =>
      rw [← destination_of_locate located]
      simp only [located, bind, Except.bind] at missing
      split at missing
      · exact wellFormed.node?_append ‹_› rest
      · cases missing
    | error fault =>
      simp only [located, bind, Except.bind] at missing
      cases missing
      unfold locate at located
      cases started : store.start path with
      | error fault =>
        simp only [started, bind, Except.bind] at located
        cases located
        exact absurd started (start_ne_notFound store given)
      | ok top =>
        simp only [started, bind, Except.bind] at located
        rw [destination, ← start_eq_ok started]
        exact wellFormed.node?_of_walk down located rest
  rw [file?, nothing]
  rfl

end Store

end CodeAtlas
