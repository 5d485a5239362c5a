import CodeAtlas.Proofs.Site.Loading

/-!
# Files written at the same time

A file is written in two steps, and the steps of different files may fall in any order: a schedule picks
one, and every order is that of some schedule (`interleaving_iff`). However they fall, the files were
written one after the other in some order (`exists_wrote`), so that a file holds what was written there
last.
-/

namespace CodeAtlas

/-! ### Orders of steps -/

/-- An order in which the steps of some tasks can run at the same time: it takes the first step of some
task, as long as there is one. -/
inductive Interleaving {α : Type} : List (List α) → List α → Prop where
  | done {tasks : List (List α)} : (∀ task ∈ tasks, task = []) → Interleaving tasks []
  | step {before after : List (List α)} {task : List α} {first : α} {trace : List α} :
      Interleaving (before ++ task :: after) trace →
      Interleaving (before ++ (first :: task) :: after) (first :: trace)

namespace Interleaving

variable {α : Type} {tasks : List (List α)} {trace : List α}

theorem perm (order : Interleaving tasks trace) : trace.Perm tasks.flatten := by
  induction order with
  | done idle => rw [List.flatten_eq_nil_iff.mpr idle]
  | @step before after task first trace _ ih =>
    rw [List.flatten_append, List.flatten_cons] at ih ⊢
    exact (ih.cons first).trans List.perm_middle.symm

theorem cons_nil (order : Interleaving tasks trace) : Interleaving ([] :: tasks) trace := by
  induction order with
  | done idle => exact .done (List.forall_mem_cons.mpr ⟨rfl, idle⟩)
  | @step before after task first trace _ ih =>
    exact show Interleaving (([] :: before) ++ (first :: task) :: after) (first :: trace) from .step ih

theorem flatten (tasks : List (List α)) : Interleaving tasks tasks.flatten := by
  induction tasks with
  | nil => exact .done fun _ mem => by cases mem
  | cons task tasks ih =>
    rw [List.flatten_cons]
    induction task with
    | nil => exact ih.cons_nil
    | cons first task rest =>
      exact show Interleaving ([] ++ (first :: task) :: tasks) _ from .step rest

theorem of_schedule (schedule : Site.Schedule) (tasks : List (List α)) :
    Interleaving tasks (Site.interleave schedule tasks) := by
  induction schedule generalizing tasks with
  | nil => exact flatten tasks
  | cons turn schedule ih =>
    unfold Site.interleave
    split
    · rename_i first rest next
      obtain ⟨inside, next⟩ := List.getElem?_eq_some_iff.mp next
      have whole : tasks.take turn ++ (first :: rest) :: tasks.drop (turn + 1) = tasks := by
        rw [← next, List.getElem_cons_drop, List.take_append_drop]
      have left : tasks.set turn rest = tasks.take turn ++ rest :: tasks.drop (turn + 1) := by
        rw [List.set_eq_take_append_cons_drop, if_pos inside]
      have taken : Interleaving (tasks.take turn ++ (first :: rest) :: tasks.drop (turn + 1))
          (first :: Site.interleave schedule (tasks.set turn rest)) := .step (left ▸ ih _)
      rwa [whole] at taken
    · exact ih tasks

theorem exists_schedule (order : Interleaving tasks trace) :
    ∃ schedule, Site.interleave schedule tasks = trace := by
  induction order with
  | done idle => exact ⟨[], List.flatten_eq_nil_iff.mpr idle⟩
  | @step before after task first trace _ ih =>
    obtain ⟨schedule, rfl⟩ := ih
    refine ⟨before.length :: schedule, ?_⟩
    simp [Site.interleave]

end Interleaving

/-- Every order is that of some schedule. -/
theorem interleaving_iff {α : Type} {tasks : List (List α)} {trace : List α} :
    Interleaving tasks trace ↔ ∃ schedule, Site.interleave schedule tasks = trace := by
  refine ⟨fun order => order.exists_schedule, ?_⟩
  rintro ⟨schedule, rfl⟩
  exact .of_schedule schedule tasks

namespace Site

variable {store after : Store}

/-! ### Writing files -/

def putAll (store : Store) (files : List OutputFile) (disk : Place → Option (List UInt8)) :
    Place → Option (List UInt8) :=
  files.foldl (fun disk file => Function.update disk (store.destination file.path) (some file.contents))
    disk

structure Wrote (store : Store) (files : List OutputFile) (after : Store) : Prop where
  file? : after.file? = putAll store files store.file?
  keeps : store.Keeps after
  locate : ∀ file ∈ files, after.locate file.path = .ok (store.destination file.path)

theorem putAll_append (store : Store) (first second : List OutputFile)
    (disk : Place → Option (List UInt8)) :
    putAll store (first ++ second) disk = putAll store second (putAll store first disk) :=
  List.foldl_append

theorem putAll_of_forall_ne {files : List OutputFile} {place : Place}
    (apart : ∀ file ∈ files, store.destination file.path ≠ place)
    (disk : Place → Option (List UInt8)) : putAll store files disk place = disk place := by
  induction files generalizing disk with
  | nil => rfl
  | cons file files ih =>
    obtain ⟨first, rest⟩ := List.forall_mem_cons.mp apart
    rw [putAll, List.foldl_cons]
    exact (ih rest _).trans (Function.update_of_ne first.symm _ _)

/-- Where a file went, the last of those that go there is left. -/
theorem exists_putAll_eq {files : List OutputFile} {file : OutputFile} (mem : file ∈ files)
    (disk : Place → Option (List UInt8)) :
    ∃ last ∈ files, store.destination last.path = store.destination file.path ∧
      putAll store files disk (store.destination file.path) = some last.contents := by
  induction files generalizing disk file with
  | nil => cases mem
  | cons first files ih =>
    by_cases later : ∃ other ∈ files, store.destination other.path = store.destination file.path
    · obtain ⟨other, listed, place⟩ := later
      rw [putAll, List.foldl_cons, ← place]
      obtain ⟨last, inside, there, held⟩ := ih listed (Function.update disk _ (some first.contents))
      exact ⟨last, List.mem_cons_of_mem _ inside, there, held⟩
    · have apart : ∀ other ∈ files, store.destination other.path ≠ store.destination file.path :=
        fun other listed place => later ⟨other, listed, place⟩
      obtain rfl : file = first := by
        rcases List.mem_cons.mp mem with same | listed
        · exact same
        · exact absurd rfl (apart file listed)
      refine ⟨file, List.mem_cons_self, rfl, ?_⟩
      rw [putAll, List.foldl_cons]
      exact (putAll_of_forall_ne apart _).trans (Function.update_self ..)

/-- A file is as it was written if all that go to its place have the same contents. -/
theorem putAll_of_mem {files : List OutputFile} {file : OutputFile} (mem : file ∈ files)
    (alike : ∀ other ∈ files, store.destination other.path = store.destination file.path →
      other.contents = file.contents) (disk : Place → Option (List UInt8)) :
    putAll store files disk (store.destination file.path) = some file.contents := by
  obtain ⟨last, inside, place, held⟩ := exists_putAll_eq mem disk
  rw [held, alike last inside place]

theorem putAll_eq_of_keeps (keeps : store.Keeps after) : putAll after = putAll store := by
  funext files disk
  simp only [putAll, keeps.destination_eq]

theorem Wrote.append {middle : Store} {first second : List OutputFile} (wrote : Wrote store first middle)
    (later : Wrote middle second after) : Wrote store (first ++ second) after where
  file? := by
    rw [later.file?, wrote.file?, putAll_append, putAll_eq_of_keeps wrote.keeps]
  keeps := wrote.keeps.trans later.keeps
  locate := by
    intro file mem
    rcases List.mem_append.mp mem with early | late
    · exact later.keeps.locate (wrote.locate file early)
    · rw [← wrote.keeps.destination_eq]
      exact later.locate file late

theorem run_onDisk {α : Type} {path : DiskPath} {answer : StateM Store (Except DiskFault α)} {value : α}
    (done : runOn (onDisk path answer) store = (.ok value, after)) :
    answer.run store = (.ok value, after) := by
  unfold runOn onDisk at done
  rw [ExceptT.run_mk, StateT.run_bind] at done
  cases ran : answer.run store with
  | mk result later =>
    rw [ran] at done
    cases result with
    | error fault => cases done
    | ok other =>
      cases done
      rfl

theorem wrote_of_write {path : DiskPath} {contents : List UInt8}
    (done : runOn (onDisk path (Disk.write path contents)) store = (.ok (), after)) :
    Wrote store [⟨path, contents⟩] after := by
  have ran := run_onDisk done
  have written : store.write path contents = .ok after := by
    cases answer : store.write path contents with
    | error fault =>
      simp only [Disk.write, StateT.run, answer] at ran
      cases ran
    | ok later =>
      simp only [Disk.write, StateT.run, answer] at ran
      cases ran
      rfl
  obtain ⟨files, keeps, located⟩ := Store.write_spec written
  exact ⟨files, keeps, by simpa using located⟩

theorem wrote_of_makeFolders {path : DiskPath}
    (done : runOn (onDisk path (Disk.makeFolders path)) store = (.ok (), after)) :
    Wrote store [] after := by
  have same : (store.makeFolders path).2 = after := congrArg Prod.snd (run_onDisk done)
  obtain ⟨files, keeps⟩ := store.makeFolders_spec path
  rw [same] at files keeps
  exact ⟨files, keeps, fun _ mem => by cases mem⟩

namespace WriteStep

def file? : WriteStep → Option OutputFile
  | .folders _ => none
  | .contents file => some file

theorem filterMap_file?_flatten (files : List OutputFile) :
    (files.map ofFile).flatten.filterMap file? = files := by
  induction files with
  | nil => rfl
  | cons file files ih =>
    have own : (ofFile file).filterMap file? = [file] := by
      unfold ofFile
      cases file.path.parent? <;> rfl
    rw [List.map_cons, List.flatten_cons, List.filterMap_append, ih, own]
    rfl

theorem wrote_of_perform {step : WriteStep} (done : runOn step.perform store = (.ok (), after)) :
    Wrote store step.file?.toList after := by
  cases step with
  | folders path => exact wrote_of_makeFolders done
  | contents file => exact wrote_of_write done

theorem wrote_of_forM {trace : List WriteStep}
    (done : runOn (trace.forM perform) store = (.ok (), after)) :
    Wrote store (trace.filterMap file?) after := by
  induction trace generalizing store with
  | nil =>
    cases done
    exact ⟨rfl, .refl _, fun _ mem => by cases mem⟩
  | cons step trace ih =>
    obtain ⟨_, middle, first, rest⟩ := ok_of_run_bind done
    have wrote := (wrote_of_perform first).append (ih rest)
    cases step <;> exact wrote

end WriteStep

/-- Whatever the schedule was, the files were written one after the other in some order; without one, in
their own. -/
theorem exists_wrote {schedule : Schedule} {files : List OutputFile}
    (done : runOn (writeAll schedule files) store = (.ok (), after)) :
    ∃ written, written.Perm files ∧ (schedule = [] → written = files) ∧ Wrote store written after := by
  refine ⟨(interleave schedule (files.map WriteStep.ofFile)).filterMap WriteStep.file?, ?_, ?_,
    WriteStep.wrote_of_forM done⟩
  · have perm := (Interleaving.of_schedule schedule (files.map WriteStep.ofFile)).perm
    have files := perm.filterMap WriteStep.file?
    rwa [WriteStep.filterMap_file?_flatten] at files
  · rintro rfl
    exact WriteStep.filterMap_file?_flatten files

/-- The files can all be written at the same time, with one disk leading to the other. -/
def WritesTo (files : List OutputFile) (store after : Store) : Prop :=
  ∃ trace, Interleaving (files.map WriteStep.ofFile) trace ∧
    runOn (trace.forM WriteStep.perform) store = (.ok (), after)

theorem writesTo_iff {files : List OutputFile} :
    WritesTo files store after ↔ ∃ schedule, runOn (writeAll schedule files) store = (.ok (), after) := by
  simp only [WritesTo, interleaving_iff]
  constructor
  · rintro ⟨trace, ⟨schedule, rfl⟩, done⟩
    exact ⟨schedule, done⟩
  · rintro ⟨schedule, done⟩
    exact ⟨_, ⟨schedule, rfl⟩, done⟩

/-- Where a file was written, the last of those that go there can be read. -/
theorem WritesTo.read {files : List OutputFile} (writes : WritesTo files store after) {file : OutputFile}
    (mem : file ∈ files) :
    ∃ last ∈ files, store.destination last.path = store.destination file.path ∧
      after.read file.path = .ok last.contents := by
  obtain ⟨schedule, done⟩ := writesTo_iff.mp writes
  obtain ⟨written, perm, _, wrote⟩ := exists_wrote done
  have listed := perm.mem_iff.mpr mem
  obtain ⟨last, inside, place, held⟩ := exists_putAll_eq listed store.file?
  refine ⟨last, perm.mem_iff.mp inside, place, Store.read_of_file? (wrote.locate file listed) ?_⟩
  rw [wrote.file?, held]

end Site

end CodeAtlas
