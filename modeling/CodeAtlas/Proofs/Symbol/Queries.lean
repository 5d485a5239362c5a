import CodeAtlas.Symbol.Memo

/-!
# Queries and the answers they leave

A query whose every question is worked out as its id says is `Faithful`. Run on kept answers that are
right, such a query gives what it gives when all is worked out from scratch, and leaves the answers
that it asked for and could have (`run_faithful`).
-/

namespace CodeAtlas

/-! ### Kept answers -/

theorem Memo.fetch_cases {α ε : Type} (memo : Memo α) (id : ElementId)
    (answer : Unit → Except ε α) :
    (∃ value, memo[id]? = some value ∧ memo.fetch id answer = (.ok value, memo)) ∨
    memo[id]? = none ∧
      ((∃ fault, answer () = .error fault ∧ memo.fetch id answer = (.error fault, memo)) ∨
        ∃ value, answer () = .ok value ∧ memo.fetch id answer = (.ok value, memo.insert id value)) := by
  unfold Memo.fetch
  cases kept : memo[id]? with
  | some value => exact Or.inl ⟨value, rfl, rfl⟩
  | none =>
    refine Or.inr ⟨rfl, ?_⟩
    cases answer () with
    | error fault => exact Or.inl ⟨fault, rfl, rfl⟩
    | ok value => exact Or.inr ⟨value, rfl, rfl⟩

theorem Memo.getElem?_insert_of_ne {α : Type} (memo : Memo α) {id other : ElementId} (value : α)
    (different : other ≠ id) : (memo.insert id value)[other]? = memo[other]? := by
  simp [Std.TreeMap.getElem?_insert, Ne.symm different]

namespace Answers

/-- What becomes of a question: the result, and the answers afterwards. -/
inductive Fetched (answers : Answers) (question : Question)
    (answer : Unit → Except SiteFault question.Answer) :
    Except SiteFault question.Answer × Answers → Prop where
  | kept {value : question.Answer} : answers.kept? question = some value →
      Fetched answers question answer (.ok value, answers)
  | failed {fault : SiteFault} : answers.kept? question = none → answer () = .error fault →
      Fetched answers question answer (.error fault, answers)
  | added {value : question.Answer} {next : Answers} : answers.kept? question = none →
      answer () = .ok value → next.kept? question = some value →
      (∀ other, other ≠ question → next.kept? other = answers.kept? other) →
      Fetched answers question answer (.ok value, next)

theorem fetched_fetch (answers : Answers) (question : Question)
    (answer : Unit → Except SiteFault question.Answer) :
    Fetched answers question answer (answers.fetch question answer) := by
  cases question with
  | hover id =>
    rw [fetch]
    rcases answers.hovers.fetch_cases id answer with
      ⟨value, kept, same⟩ | ⟨none, ⟨fault, failed, same⟩ | ⟨value, worked, same⟩⟩
    · rw [same]
      exact .kept kept
    · rw [same]
      exact .failed none failed
    · rw [same]
      refine .added none worked Std.TreeMap.getElem?_insert_self fun other different => ?_
      cases other with
      | hover other => exact Memo.getElem?_insert_of_ne _ _ (by simpa using different)
      | references other => rfl
  | references id =>
    rw [fetch]
    rcases answers.references.fetch_cases id answer with
      ⟨value, kept, same⟩ | ⟨none, ⟨fault, failed, same⟩ | ⟨value, worked, same⟩⟩
    · rw [same]
      exact .kept kept
    · rw [same]
      exact .failed none failed
    · rw [same]
      refine .added none worked Std.TreeMap.getElem?_insert_self fun other different => ?_
      cases other with
      | hover other => rfl
      | references other => exact Memo.getElem?_insert_of_ne _ _ (by simpa using different)

theorem kept?_empty (question : Question) : empty.kept? question = none := by
  cases question <;> simp [kept?, empty]

theorem mem_referenceSets_iff (answers : Answers) (id : ElementId) (set : ReferenceSet) :
    (id, set) ∈ answers.referenceSets ↔ answers.kept? (.references id) = some (some set) := by
  constructor
  · intro mem
    obtain ⟨⟨_, value⟩, listed, same⟩ := List.mem_filterMap.mp mem
    cases value with
    | none => cases same
    | some value =>
      cases same
      exact Std.TreeMap.mem_toList_iff_getElem?_eq_some.mp listed
  · intro kept
    refine List.mem_filterMap.mpr ⟨(id, some set), ?_, rfl⟩
    exact Std.TreeMap.mem_toList_iff_getElem?_eq_some.mpr kept

theorem referenceSets_sorted (answers : Answers) :
    answers.referenceSets.Pairwise fun before after => compare before.1 after.1 = .lt := by
  refine Std.TreeMap.ordered_keys_toList.filterMap _ fun before after less => ?_
  obtain ⟨first, _ | firstSet⟩ := before
  · simp
  · obtain ⟨second, _ | secondSet⟩ := after
    · simp
    · simpa using less

theorem referenceSets_eq {answers other : Answers}
    (same : ∀ question value, answers.kept? question = some value ↔
      other.kept? question = some value) : answers.referenceSets = other.referenceSets := by
  have equal : answers.references.toList = other.references.toList := by
    apply Std.TreeMap.Equiv.toList_eq
    apply Std.TreeMap.Equiv.of_forall_constGet?_eq
    exact fun id => Option.ext fun value => same (.references id) value
  rw [referenceSets, referenceSets, equal]

end Answers

/-- What each question gives if it is worked out from scratch. -/
abbrev Scratch := (question : Question) → Except SiteFault question.Answer

/-- Every kept answer is what its question gives from scratch. -/
def Answers.Right (answers : Answers) (scratch : Scratch) : Prop :=
  ∀ question value, answers.kept? question = some value → scratch question = .ok value

namespace Answers

variable {answers : Answers} {scratch : Scratch} {question : Question}
  {answer : Unit → Except SiteFault question.Answer}
  {fetched : Except SiteFault question.Answer × Answers}

theorem empty_right : empty.Right scratch := by
  intro question value kept
  rw [kept?_empty] at kept
  cases kept

/-- A question worked out as from scratch gets that result, and it is the one answer that may be new. -/
theorem Fetched.right (step : Fetched answers question answer fetched)
    (right : answers.Right scratch) (faithful : answer () = scratch question) :
    fetched.1 = scratch question ∧ fetched.2.Right scratch ∧
      ∀ other value, fetched.2.kept? other = some value ↔
        answers.kept? other = some value ∨ other = question ∧ scratch other = .ok value := by
  cases step with
  | kept kept =>
    refine ⟨(right _ _ kept).symm, right, fun other value => ⟨Or.inl, ?_⟩⟩
    rintro (old | ⟨rfl, worked⟩)
    · exact old
    · cases (right _ _ kept).symm.trans worked
      exact kept
  | failed _ failed =>
    refine ⟨failed.symm.trans faithful, right, fun other value => ⟨Or.inl, ?_⟩⟩
    rintro (old | ⟨rfl, worked⟩)
    · exact old
    · cases (faithful.symm.trans failed).symm.trans worked
  | @added value next none worked new others =>
    have answered := faithful.symm.trans worked
    have listed : ∀ other value, next.kept? other = some value ↔
        answers.kept? other = some value ∨ other = question ∧ scratch other = .ok value := by
      intro other value
      by_cases same : other = question
      · subst same
        rw [new, none, answered]
        simp
      · rw [others other same]
        simp [same]
    refine ⟨answered.symm, fun other value kept => ?_, listed⟩
    rcases (listed other value).mp kept with old | ⟨_, ok⟩
    · exact right _ _ old
    · exact ok

end Answers

/-! ### Queries -/

namespace Query

variable {α β : Type}

theorem bind_done_ok (value : α) (next : α → Query β) : done (.ok value) >>= next = next value := rfl

theorem bind_ask (question : Question) (answer : Unit → Except SiteFault question.Answer)
    (rest : Except SiteFault question.Answer → Query α) (next : α → Query β) :
    ask question answer rest >>= next = ask question answer fun result => rest result >>= next := rfl

theorem liftExcept_eq (result : Except SiteFault α) : (liftExcept result : Query α) = done result := by
  cases result <;> rfl

theorem lift_dump_eq (result : Except DumpFault α) :
    (liftM result : Query α) = done (result.mapError .dump) := rfl

theorem lift_highlight_eq (result : Except HighlightFault α) :
    (liftM result : Query α) = done (result.mapError .highlight) := rfl

theorem bind_pure (query : Query α) : query >>= (fun value => done (.ok value)) = query := by
  induction query with
  | done result => cases result <;> rfl
  | ask question answer rest ih =>
    rw [bind_ask]
    congr 1
    funext result
    exact ih result

theorem bind_assoc {γ : Type} (query : Query α) (next : α → Query β) (last : β → Query γ) :
    query >>= next >>= last = query >>= fun value => next value >>= last := by
  induction query with
  | done result => cases result <;> rfl
  | ask question answer rest ih =>
    simp only [bind_ask]
    congr 1
    funext result
    exact ih result

instance : LawfulMonad Query :=
  LawfulMonad.mk' Query bind_pure (fun _ _ => rfl) bind_assoc

/-- Every question of the query is worked out as from scratch, whatever the answers so far. -/
def Faithful (scratch : Scratch) : Query α → Prop
  | .done _ => True
  | .ask question answer rest =>
    answer () = scratch question ∧ ∀ result, (rest result).Faithful scratch

/-- The result of a query whose questions are all worked out from scratch. -/
def outcome (scratch : Scratch) : Query α → Except SiteFault α
  | .done result => result
  | .ask question _ rest => (rest (scratch question)).outcome scratch

/-- The questions of a query that are asked if all are worked out from scratch, in their order. -/
def asked (scratch : Scratch) : Query α → List Question
  | .done _ => []
  | .ask question _ rest => question :: (rest (scratch question)).asked scratch

variable {scratch : Scratch}

theorem Faithful.bind {query : Query α} {next : α → Query β} (first : query.Faithful scratch)
    (second : ∀ value, (next value).Faithful scratch) : (query >>= next).Faithful scratch := by
  induction query with
  | done result =>
    cases result with
    | ok value => exact second value
    | error fault => trivial
  | ask question answer rest ih => exact ⟨first.1, fun result => ih result (first.2 result)⟩

theorem Faithful.mapM {γ : Type} {next : γ → Query α}
    (each : ∀ value, (next value).Faithful scratch) (list : List γ) :
    (list.mapM next).Faithful scratch := by
  induction list with
  | nil => trivial
  | cons first rest ih =>
    rw [List.mapM_cons]
    exact (each first).bind fun _ => ih.bind fun _ => trivial

theorem outcome_bind (query : Query α) (next : α → Query β) :
    (query >>= next).outcome scratch =
      query.outcome scratch >>= fun value => (next value).outcome scratch := by
  induction query with
  | done result => cases result <;> rfl
  | ask question answer rest ih => exact ih (scratch question)

theorem outcome_mapM {γ : Type} (next : γ → Query α) (list : List γ) :
    (list.mapM next).outcome scratch = list.mapM fun value => (next value).outcome scratch := by
  induction list with
  | nil => rfl
  | cons first rest ih =>
    simp only [List.mapM_cons, outcome_bind, ih]
    rfl

theorem asked_bind_of_ok {query : Query α} {value : α} (ok : query.outcome scratch = .ok value)
    (next : α → Query β) :
    (query >>= next).asked scratch = query.asked scratch ++ (next value).asked scratch := by
  induction query with
  | done result =>
    cases ok
    rfl
  | ask question answer rest ih => exact congrArg (question :: ·) (ih _ ok)

theorem asked_mapM_of_ok {γ : Type} {next : γ → Query α} {list : List γ} {values : List α}
    (ok : (list.mapM fun value => (next value).outcome scratch) = .ok values) :
    (list.mapM next).asked scratch = list.flatMap fun value => (next value).asked scratch := by
  induction list generalizing values with
  | nil => rfl
  | cons first rest ih =>
    rw [List.mapM_cons] at ok
    cases head : (next first).outcome scratch with
    | error fault => simp [head, Bind.bind, Except.bind] at ok
    | ok value =>
      cases tail : (rest.mapM fun value => (next value).outcome scratch) with
      | error fault => simp [head, tail, Bind.bind, Except.bind] at ok
      | ok others =>
        have later : (rest.mapM next).outcome scratch = .ok others := by rw [outcome_mapM, tail]
        rw [List.mapM_cons, asked_bind_of_ok head, asked_bind_of_ok later, ih tail,
          List.flatMap_cons]
        exact congrArg _ (List.append_nil _)

theorem run_ask (question : Question) (answer : Unit → Except SiteFault question.Answer)
    (rest : Except SiteFault question.Answer → Query α) (answers : Answers) :
    (ask question answer rest).run answers =
      (rest (answers.fetch question answer).1).run (answers.fetch question answer).2 := rfl

/-- A faithful query on right answers gives what it gives from scratch, and adds the answers that it
asks for and that can be worked out. -/
theorem run_faithful {query : Query α} (faithful : query.Faithful scratch) {answers : Answers}
    (right : answers.Right scratch) :
    (query.run answers).1 = query.outcome scratch ∧ (query.run answers).2.Right scratch ∧
      ∀ question value, (query.run answers).2.kept? question = some value ↔
        answers.kept? question = some value ∨
          question ∈ query.asked scratch ∧ scratch question = .ok value := by
  -- The answers so far vary along the query; that they are right is what carries the induction.
  induction query generalizing answers with
  | done result => exact ⟨rfl, right, fun question value => by simp [run, asked]⟩
  | ask question answer rest ih =>
    obtain ⟨same, nextRight, listed⟩ :=
      (answers.fetched_fetch question answer).right right faithful.1
    obtain ⟨result, finalRight, final⟩ := ih _ (faithful.2 _) nextRight
    rw [run_ask, outcome, asked, ← same]
    refine ⟨result, finalRight, fun other value => ?_⟩
    rw [final, listed, List.mem_cons, or_and_right, or_assoc]

end Query

end CodeAtlas
