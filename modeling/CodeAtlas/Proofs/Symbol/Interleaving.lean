import CodeAtlas.Proofs.Symbol.Queries
import Mathlib.Data.List.Perm.Basic
import Mathlib.Data.List.Nodup
import Mathlib.Data.Set.List
import Mathlib.Logic.Relation

/-!
# Workers with shared answers

Several workers follow queries of their own and share the kept answers. A worker that asks a question
first looks it up; if that is in vain it comes back for the entry of the question, and only then, in one
step, looks once more, works the answer out and keeps it. In between, all others may go on.

`Sound` is the invariant of every interleaving. It is kept by each `Move` of a worker, for which the
lemmas before it say what a move returns, works out, keeps and leaves to be asked.
-/

namespace CodeAtlas

/-- A worker on its way through a query. One that `missed` has looked for an answer in vain. -/
inductive Worker (α : Type) where
  | active (rest : Query α)
  | missed (question : Question) (answer : Unit → Except SiteFault question.Answer)
      (rest : Except SiteFault question.Answer → Query α)

structure Reply where
  question : Question
  result : Except SiteFault question.Answer

def Reply.succeeded (reply : Reply) : Bool :=
  reply.result.isOk

/-- What a move adds to the history of a team: the questions of calls that begin, what is worked out,
and what calls return. -/
structure Record where
  asked : List Question
  worked : List Reply
  returned : List Reply

/-- What is recorded of a worker that enters a question: its answer is worked out if none is kept. -/
def Record.entry (answers : Answers) (question : Question)
    (answer : Unit → Except SiteFault question.Answer) : Record where
  asked := []
  worked :=
    match answers.kept? question with
    | some _ => []
    | none => [⟨question, answer ()⟩]
  returned := [⟨question, (answers.fetch question answer).1⟩]

/-- One step of a worker: the worker and the answers before and after, and what is recorded. -/
inductive Move {α : Type} (answers : Answers) : Worker α → Worker α → Answers → Record → Prop where
  | found {question : Question} {answer : Unit → Except SiteFault question.Answer}
      {rest : Except SiteFault question.Answer → Query α} {value : question.Answer} :
      answers.kept? question = some value →
      Move answers (.active (.ask question answer rest)) (.active (rest (.ok value))) answers
        ⟨[question], [], [⟨question, .ok value⟩]⟩
  | missed {question : Question} {answer : Unit → Except SiteFault question.Answer}
      {rest : Except SiteFault question.Answer → Query α} :
      answers.kept? question = none →
      Move answers (.active (.ask question answer rest)) (.missed question answer rest) answers
        ⟨[question], [], []⟩
  -- The other workers may have kept the answer since, so that it is looked for once more.
  | entered {question : Question} {answer : Unit → Except SiteFault question.Answer}
      {rest : Except SiteFault question.Answer → Query α} :
      Move answers (.missed question answer rest)
        (.active (rest (answers.fetch question answer).1)) (answers.fetch question answer).2
        (.entry answers question answer)

/-- Workers with shared answers, and what they have done so far, last first. -/
structure Team (α : Type) where
  answers : Answers
  workers : List (Worker α)
  asked : List Question
  worked : List Reply
  returned : List Reply

namespace Team

variable {α : Type}

def start (queries : List (Query α)) : Team α :=
  ⟨.empty, queries.map .active, [], [], []⟩

inductive Step : Team α → Team α → Prop where
  | move (before after : List (Worker α)) {answers next : Answers} {worker moved : Worker α}
      {asked : List Question} {worked returned : List Reply} {record : Record} :
      Move answers worker moved next record →
      Step ⟨answers, before ++ worker :: after, asked, worked, returned⟩
        ⟨next, before ++ moved :: after, record.asked ++ asked, record.worked ++ worked,
          record.returned ++ returned⟩

abbrev Run : Team α → Team α → Prop :=
  Relation.ReflTransGen Step

def Finished (team : Team α) (results : List (Except SiteFault α)) : Prop :=
  team.workers = results.map fun result => .active (.done result)

end Team

namespace Worker

variable {α : Type}

def query : Worker α → Query α
  | .active rest => rest
  | .missed question answer rest => .ask question answer rest

/-- The question of a call that has begun and not returned. -/
def pending : Worker α → List Question
  | .active _ => []
  | .missed question _ _ => [question]

/-- The questions whose calls have not begun, if all answers are as from scratch. -/
def toAsk (scratch : Scratch) : Worker α → List Question
  | .active rest => rest.asked scratch
  | .missed question _ rest => (rest (scratch question)).asked scratch

end Worker

/-! ### One move -/

namespace Move

variable {α : Type} {answers next : Answers} {worker moved : Worker α} {record : Record}
  {scratch : Scratch}

theorem faithful (move : Move answers worker moved next record)
    (before : worker.query.Faithful scratch) : moved.query.Faithful scratch := by
  cases move with
  | found => exact before.2 _
  | missed => exact before
  | entered => exact before.2 _

theorem outcome (move : Move answers worker moved next record) (right : answers.Right scratch)
    (faithful : worker.query.Faithful scratch) :
    moved.query.outcome scratch = worker.query.outcome scratch := by
  cases move with
  | found kept => simp only [Worker.query, Query.outcome, right _ _ kept]
  | missed => rfl
  | @entered question answer rest =>
    have result := ((answers.fetched_fetch question answer).right right faithful.1).1
    simp only [Worker.query, Query.outcome, result]

theorem toAsk (move : Move answers worker moved next record) (right : answers.Right scratch)
    (faithful : worker.query.Faithful scratch) :
    worker.toAsk scratch = record.asked ++ moved.toAsk scratch := by
  cases move with
  | found kept => simp only [Worker.toAsk, Query.asked, right _ _ kept, List.singleton_append]
  | missed => rfl
  | @entered question answer rest =>
    have result := ((answers.fetched_fetch question answer).right right faithful.1).1
    simp only [Worker.toAsk, result, Record.entry, List.nil_append]

theorem calls (move : Move answers worker moved next record) :
    record.asked ++ worker.pending = record.returned.map Reply.question ++ moved.pending := by
  cases move <;> rfl

theorem right (move : Move answers worker moved next record) (right : answers.Right scratch)
    (faithful : worker.query.Faithful scratch) : next.Right scratch := by
  cases move with
  | found => exact right
  | missed => exact right
  | @entered question answer rest =>
    exact ((answers.fetched_fetch question answer).right right faithful.1).2.1

/-- What is recorded is as from scratch, and what is worked out was not kept before. -/
theorem recorded (move : Move answers worker moved next record) (right : answers.Right scratch)
    (faithful : worker.query.Faithful scratch) :
    (∀ reply ∈ record.returned, reply.result = scratch reply.question) ∧
    ∀ reply ∈ record.worked, reply.result = scratch reply.question ∧
      answers.kept? reply.question = none := by
  cases move with
  | found kept => simp [right _ _ kept]
  | missed => simp
  | @entered question answer rest =>
    have result := ((answers.fetched_fetch question answer).right right faithful.1).1
    refine ⟨by simp [Record.entry, result], ?_⟩
    cases kept : answers.kept? question with
    | some value => simp [Record.entry, kept]
    | none =>
      simp only [Record.entry, kept, List.mem_singleton]
      rintro reply rfl
      exact ⟨faithful.1, kept⟩

/-- The answers that are new are those worked out and those returned. -/
theorem kept_iff (move : Move answers worker moved next record) (question : Question)
    (value : question.Answer) :
    (next.kept? question = some value ↔
      answers.kept? question = some value ∨ ⟨question, .ok value⟩ ∈ record.worked) ∧
    (next.kept? question = some value ↔
      answers.kept? question = some value ∨ ⟨question, .ok value⟩ ∈ record.returned) := by
  cases move with
  | found kept =>
    refine ⟨by simp, ⟨Or.inl, ?_⟩⟩
    rintro (old | new)
    · exact old
    · cases List.mem_singleton.mp new
      exact kept
  | missed => simp
  | @entered other answer rest =>
    have step := answers.fetched_fetch other answer
    unfold Record.entry
    generalize answers.fetch other answer = fetched at step
    cases step with
    | kept kept =>
      simp only [kept, List.not_mem_nil, or_false, true_and]
      refine ⟨Or.inl, ?_⟩
      rintro (old | new)
      · exact old
      · cases List.mem_singleton.mp new
        exact kept
    | failed none failed =>
      simp only [none, failed, and_self]
      refine ⟨Or.inl, ?_⟩
      rintro (old | new)
      · exact old
      · cases List.mem_singleton.mp new
    | @added result later none worked new others =>
      simp only [none, worked, and_self]
      by_cases same : question = other
      · subst same
        simp [new, none, eq_comm]
      · simp [others question same, same]

theorem worked_length (move : Move answers worker moved next record) :
    record.worked.length ≤ 1 := by
  cases move with
  | found => simp
  | missed => simp
  | @entered question answer rest =>
    simp only [Record.entry]
    split <;> simp

theorem recorded_pos (move : Move answers worker moved next record) :
    0 < record.asked.length + record.returned.length := by
  cases move <;> simp [Record.entry]

theorem exists_of_busy (answers : Answers) (busy : ∀ result, worker ≠ .active (.done result)) :
    ∃ moved next record, Move answers worker moved next record := by
  cases worker with
  | missed question answer rest => exact ⟨_, _, _, .entered⟩
  | active rest =>
    cases rest with
    | done result => exact absurd rfl (busy result)
    | ask question answer rest =>
      cases kept : answers.kept? question with
      | some value => exact ⟨_, _, _, .found kept⟩
      | none => exact ⟨_, _, _, .missed kept⟩

theorem next_eq_of_error (move : Move answers worker moved next record) {reply : Reply}
    {fault : SiteFault} (worked : reply ∈ record.worked) (failed : reply.result = .error fault) :
    next = answers := by
  cases move with
  | found => rfl
  | missed => rfl
  | @entered question answer rest =>
    have step := answers.fetched_fetch question answer
    unfold Record.entry at worked
    generalize answers.fetch question answer = fetched at step
    cases step with
    | kept => rfl
    | failed => rfl
    | added none ok =>
      simp only [none, List.mem_singleton] at worked
      subst worked
      cases ok.symm.trans failed

end Move

/-! ### Whole runs -/

namespace Team

variable {α : Type} {queries : List (Query α)} {team next : Team α} {scratch : Scratch}

/-- What holds of a team in the midst of following some queries. -/
structure Sound (scratch : Scratch) (queries : List (Query α)) (team : Team α) : Prop where
  right : team.answers.Right scratch
  faithful : ∀ worker ∈ team.workers, worker.query.Faithful scratch
  outcomes : team.workers.map (fun worker => worker.query.outcome scratch) =
    queries.map fun query => query.outcome scratch
  questions : (queries.flatMap fun query => query.asked scratch).Perm
    (team.asked ++ team.workers.flatMap fun worker => worker.toAsk scratch)
  calls : team.asked.Perm (team.returned.map Reply.question ++ team.workers.flatMap Worker.pending)
  returned : ∀ reply ∈ team.returned, reply.result = scratch reply.question
  worked : ∀ reply ∈ team.worked, reply.result = scratch reply.question
  kept_returned : ∀ question value, team.answers.kept? question = some value ↔
    ⟨question, .ok value⟩ ∈ team.returned
  kept_worked : ∀ question value, team.answers.kept? question = some value ↔
    ⟨question, .ok value⟩ ∈ team.worked
  once : ((team.worked.filter Reply.succeeded).map Reply.question).Nodup

theorem start_sound (faithful : ∀ query ∈ queries, query.Faithful scratch) :
    Sound scratch queries (start queries) where
  right := Answers.empty_right
  faithful := by simpa [start, Worker.query] using faithful
  outcomes := by simp [start, Worker.query, Function.comp_def]
  questions := by simp [start, List.flatMap_map, Worker.toAsk]
  calls := by simp [start, List.flatMap_map, Worker.pending]
  returned := by simp [start]
  worked := by simp [start]
  kept_returned := by simp [start, Answers.kept?_empty]
  kept_worked := by simp [start, Answers.kept?_empty]
  once := by simp [start]

theorem Sound.once_append (sound : Sound scratch queries team) {worked : List Reply}
    (single : worked.length ≤ 1)
    (fresh : ∀ reply ∈ worked, team.answers.kept? reply.question = none) :
    (((worked ++ team.worked).filter Reply.succeeded).map Reply.question).Nodup := by
  cases worked with
  | nil => exact sound.once
  | cons reply others =>
    have alone : others = [] := by simpa using single
    subst alone
    rw [List.singleton_append, List.filter_cons]
    split
    · rw [List.map_cons, List.nodup_cons]
      refine ⟨fun again => ?_, sound.once⟩
      obtain ⟨earlier, succeeded, same⟩ := List.mem_map.mp again
      obtain ⟨mem, ok⟩ := List.mem_filter.mp succeeded
      obtain ⟨question, result⟩ := earlier
      cases result with
      | error fault => cases ok
      | ok value =>
        -- What was worked out before is kept, and what is kept is not worked out again.
        have kept := (sound.kept_worked question value).mpr mem
        have none := fresh reply List.mem_cons_self
        rw [← same, kept] at none
        cases none
    · exact sound.once

theorem Step.sound (step : Step team next) (sound : Sound scratch queries team) :
    Sound scratch queries next := by
  cases step with
  | @move before after answers later worker moved asked worked returned record move =>
    have faithful := sound.faithful worker (by simp)
    have toAsk := move.toAsk sound.right faithful
    obtain ⟨returns, works⟩ := move.recorded sound.right faithful
    refine ⟨move.right sound.right faithful, ?_, ?_, ?_, ?_, ?_, ?_, ?_, ?_, ?_⟩
    · intro other mem
      rcases List.mem_append.mp mem with left | right
      · exact sound.faithful other (by simp [left])
      · rcases List.mem_cons.mp right with rfl | right
        · exact move.faithful faithful
        · exact sound.faithful other (by simp [right])
    · rw [← sound.outcomes]
      simp [move.outcome sound.right faithful]
    · refine sound.questions.trans ?_
      simp only [List.flatMap_append, List.flatMap_cons, toAsk, List.perm_iff_count,
        List.count_append]
      omega
    · have calls := sound.calls
      simp only [List.flatMap_append, List.flatMap_cons, List.map_append, List.perm_iff_count,
        List.count_append] at calls ⊢
      intro question
      have begun := calls question
      have exchanged := congrArg (List.count question) move.calls
      simp only [List.count_append] at exchanged
      omega
    · intro reply mem
      rcases List.mem_append.mp mem with new | old
      · exact returns reply new
      · exact sound.returned reply old
    · intro reply mem
      rcases List.mem_append.mp mem with new | old
      · exact (works reply new).1
      · exact sound.worked reply old
    · intro question value
      rw [(move.kept_iff question value).2, sound.kept_returned, List.mem_append, or_comm]
    · intro question value
      rw [(move.kept_iff question value).1, sound.kept_worked, List.mem_append, or_comm]
    · exact sound.once_append move.worked_length fun reply mem => (works reply mem).2

theorem Step.answers_eq_of_error (step : Step team next) {reply : Reply} {fault : SiteFault}
    (worked : next.worked = reply :: team.worked) (failed : reply.result = .error fault) :
    next.answers = team.answers := by
  cases step with
  | move before after move =>
    have new := List.append_cancel_right (worked.trans (List.singleton_append).symm)
    exact move.next_eq_of_error (by simp [new]) failed

theorem Run.sound (run : Run team next) (sound : Sound scratch queries team) :
    Sound scratch queries next := by
  induction run with
  | refl => exact sound
  | tail _ step ih => exact step.sound ih

/-! ### The end of a run -/

section Finished

variable {results : List (Except SiteFault α)}

theorem Finished.pending (finished : team.Finished results) :
    team.workers.flatMap Worker.pending = [] := by
  rw [finished]
  simp [List.flatMap_map, Worker.pending]

theorem Finished.toAsk (finished : team.Finished results) :
    (team.workers.flatMap fun worker => worker.toAsk scratch) = [] := by
  rw [finished]
  simp [List.flatMap_map, Worker.toAsk, Query.asked]

theorem Sound.results_eq (sound : Sound scratch queries team) (finished : team.Finished results) :
    results = queries.map fun query => query.outcome scratch := by
  rw [← sound.outcomes, finished]
  simp [Function.comp_def, Worker.query, Query.outcome]

theorem Sound.asked (sound : Sound scratch queries team) (finished : team.Finished results) :
    team.asked.Perm (queries.flatMap fun query => query.asked scratch) := by
  have questions := sound.questions.symm
  rwa [finished.toAsk, List.append_nil] at questions

theorem Sound.answered (sound : Sound scratch queries team) (finished : team.Finished results) :
    team.asked.Perm (team.returned.map Reply.question) := by
  have calls := sound.calls
  rwa [finished.pending, List.append_nil] at calls

/-- In the end the answers kept are those that were asked for and can be worked out. -/
theorem Sound.kept_iff (sound : Sound scratch queries team) (finished : team.Finished results)
    (question : Question) (value : question.Answer) :
    team.answers.kept? question = some value ↔
      question ∈ team.asked ∧ scratch question = .ok value := by
  rw [sound.kept_returned, (sound.answered finished).mem_iff]
  constructor
  · intro returned
    exact ⟨List.mem_map_of_mem returned, (sound.returned _ returned).symm⟩
  · rintro ⟨asked, ok⟩
    obtain ⟨⟨_, result⟩, returned, rfl⟩ := List.mem_map.mp asked
    have same : result = scratch _ := sound.returned _ returned
    rwa [same, ok] at returned

end Finished

/-! ### Every run can be finished -/

theorem finished_or_step (team : Team α) :
    (∃ results, team.Finished results) ∨ ∃ next, Step team next := by
  by_cases idle : ∃ worker ∈ team.workers, ∀ result, worker ≠ .active (.done result)
  · obtain ⟨worker, mem, busy⟩ := idle
    obtain ⟨answers, workers, asked, worked, returned⟩ := team
    obtain ⟨before, after, rfl⟩ := List.append_of_mem mem
    obtain ⟨moved, next, record, move⟩ := Move.exists_of_busy answers busy
    exact .inr ⟨_, .move before after move⟩
  · refine .inl ?_
    have done : team.workers ∈ Set.range (List.map fun result => Worker.active (.done result)) := by
      rw [Set.range_list_map]
      intro worker mem
      by_contra busy
      exact idle ⟨worker, mem, fun result same => busy ⟨result, same.symm⟩⟩
    obtain ⟨results, same⟩ := done
    exact ⟨results, same.symm⟩

/-- The moves that are left: at most two for each call to come, one for each that is pending. -/
def left (scratch : Scratch) (team : Team α) : Nat :=
  2 * (team.workers.flatMap fun worker => worker.toAsk scratch).length +
    (team.workers.flatMap Worker.pending).length

theorem Step.left_lt (step : Step team next) (sound : Sound scratch queries team) :
    next.left scratch < team.left scratch := by
  cases step with
  | @move before after answers later worker moved asked worked returned record move =>
    have toAsk := congrArg List.length (move.toAsk sound.right (sound.faithful worker (by simp)))
    have calls := congrArg List.length move.calls
    have recorded := move.recorded_pos
    simp only [List.length_append, List.length_map] at toAsk calls
    simp only [left, List.flatMap_append, List.flatMap_cons, List.length_append]
    omega

/-- However far a team has come, it can go on until all its workers are done. -/
theorem Sound.exists_finished (sound : Sound scratch queries team) :
    ∃ last results, Run team last ∧ last.Finished results := by
  -- Each move lowers `left`, so that the induction is on its value.
  generalize moves : team.left scratch = count
  induction count using Nat.strong_induction_on generalizing team with
  | _ count ih =>
    rcases team.finished_or_step with ⟨results, finished⟩ | ⟨next, step⟩
    · exact ⟨team, results, .refl, finished⟩
    · subst moves
      obtain ⟨last, results, run, finished⟩ := ih _ (step.left_lt sound) (step.sound sound) rfl
      exact ⟨last, results, .head step run, finished⟩

end Team

end CodeAtlas
