/-!
# Outcomes

What has become of the parts of a computation that may fail, read off what has become of the whole. A bound
on faults (`FaultIn`) is carried from the parts to the whole.
-/

namespace CodeAtlas

variable {ε ε' α β : Type}

theorem exists_eq_ok {result : Except ε α} (ok : result.isOk = true) :
    ∃ a, result = .ok a := by
  cases result with
  | error fault => cases ok
  | ok a => exact ⟨a, rfl⟩

theorem ok_of_toOption_eq_some {result : Except ε α} {value : α}
    (some : result.toOption = some value) : result = .ok value := by
  cases result with
  | error fault => cases some
  | ok a =>
    cases some
    rfl

theorem map_eq_ok_iff {result : Except ε α} {f : α → β} {value : β} :
    result.map f = .ok value ↔ ∃ a, result = .ok a ∧ f a = value := by
  cases result <;> simp [Except.map]

theorem ok_of_bind_eq_ok {first : Except ε α} {next : α → Except ε β} {value : β}
    (ok : first >>= next = .ok value) : ∃ a, first = .ok a ∧ next a = .ok value := by
  cases first with
  | error fault => cases ok
  | ok a => exact ⟨a, rfl, ok⟩

theorem mapError_ok (f : ε → ε') (a : α) : (Except.ok a).mapError f = .ok a := rfl

theorem mapError_error (f : ε → ε') (fault : ε) :
    (Except.error fault : Except ε α).mapError f = .error (f fault) := rfl

theorem mapError_eq_ok_iff {f : ε → ε'} {result : Except ε α} {value : α} :
    result.mapError f = .ok value ↔ result = .ok value := by
  cases result <;> simp [mapError_ok, mapError_error]

theorem mapM_eq_ok_iff (f : α → Except ε β) (list : List α) (values : List β) :
    list.mapM f = .ok values ↔ list.map f = values.map .ok := by
  induction list generalizing values with
  | nil => cases values <;> simp [pure, Except.pure]
  | cons first rest ih =>
    rw [List.mapM_cons]
    cases head : f first with
    | error fault => cases values <;> simp [bind, Except.bind, head]
    | ok value =>
      cases tail : rest.mapM f with
      | error fault => cases values <;> simp [bind, Except.bind, head, tail, ← ih]
      | ok others => cases values <;> simp [bind, Except.bind, pure, Except.pure, head, tail, ← ih]

theorem mem_of_mapM_eq_ok {f : α → Except ε β} {list : List α} {values : List β}
    (done : list.mapM f = .ok values) (value : β) :
    value ∈ values ↔ ∃ a ∈ list, f a = .ok value := by
  have mapped := (mapM_eq_ok_iff f list values).mp done
  have listed : Except.ok value ∈ values.map (Except.ok : β → Except ε β) ↔ ∃ a ∈ list, f a = .ok value := by
    rw [← mapped, List.mem_map]
  rw [← listed, List.mem_map]
  simp

theorem exists_mapM_iff {f : α → Except ε β} {list : List α} :
    (∃ values, list.mapM f = .ok values) ↔ ∀ a ∈ list, ∃ value, f a = .ok value := by
  simp only [mapM_eq_ok_iff]
  induction list with
  | nil => exact ⟨fun _ a mem => absurd mem List.not_mem_nil, fun _ => ⟨[], rfl⟩⟩
  | cons first rest ih =>
    rw [List.forall_mem_cons, ← ih]
    constructor
    · rintro ⟨values, same⟩
      cases values with
      | nil => cases same
      | cons value values => exact ⟨⟨value, (List.cons.inj same).1⟩, values, (List.cons.inj same).2⟩
    · rintro ⟨⟨value, head⟩, values, tail⟩
      exact ⟨value :: values, by rw [List.map_cons, List.map_cons, head, tail]⟩

/-- Where each item has a result, the results are those of a function. -/
theorem exists_map_of_mapM_eq_ok [Inhabited β] {f : α → Except ε β} {list : List α} {values : List β}
    (done : list.mapM f = .ok values) :
    ∃ g : α → β, (∀ a ∈ list, f a = .ok (g a)) ∧ values = list.map g := by
  have each := (mapM_eq_ok_iff f list values).mp done
  refine ⟨fun a => (f a).toOption.getD default, fun a mem => ?_, ?_⟩
  · have listed : f a ∈ values.map Except.ok := each ▸ List.mem_map_of_mem mem
    obtain ⟨value, _, same⟩ := List.mem_map.mp listed
    simp [← same, Except.toOption]
  · have read := congrArg (List.map fun result : Except ε β => result.toOption.getD default) each
    simpa [List.map_map, Function.comp_def, Except.toOption] using read.symm

/-! ### Bounds on faults -/

/-- If the result is a fault, then one of the given kinds. -/
def FaultIn (kinds : ε → Prop) (result : Except ε α) : Prop :=
  ∀ fault, result = .error fault → kinds fault

namespace FaultIn

variable {kinds : ε → Prop}

theorem ok (value : α) : FaultIn kinds (.ok value) := by
  intro fault failed
  cases failed

theorem error {fault : ε} (kind : kinds fault) : FaultIn kinds (.error fault : Except ε α) := by
  intro other failed
  cases failed
  exact kind

theorem mono {wider : ε → Prop} {result : Except ε α} (bound : FaultIn kinds result)
    (wide : ∀ fault, kinds fault → wider fault) : FaultIn wider result :=
  fun fault failed => wide fault (bound fault failed)

theorem map {result : Except ε α} (bound : FaultIn kinds result) (f : α → β) :
    FaultIn kinds (result.map f) := by
  cases result with
  | ok value => exact .ok _
  | error fault => exact .error (bound fault rfl)

theorem mapError {wider : ε' → Prop} {f : ε → ε'} {result : Except ε α} (bound : FaultIn kinds result)
    (wide : ∀ fault, kinds fault → wider (f fault)) : FaultIn wider (result.mapError f) := by
  cases result with
  | ok value => exact .ok _
  | error fault => exact .error (wide fault (bound fault rfl))

theorem bind {result : Except ε α} {next : α → Except ε β} (first : FaultIn kinds result)
    (second : ∀ value, result = .ok value → FaultIn kinds (next value)) :
    FaultIn kinds (result >>= next) := by
  cases result with
  | ok value => exact second value rfl
  | error fault => exact .error (first fault rfl)

theorem mapM {next : α → Except ε β} {list : List α}
    (each : ∀ value ∈ list, FaultIn kinds (next value)) : FaultIn kinds (list.mapM next) := by
  induction list with
  | nil => exact .ok _
  | cons first rest ih =>
    rw [List.mapM_cons]
    obtain ⟨here, later⟩ := List.forall_mem_cons.mp each
    exact here.bind fun _ _ => (ih later).bind fun _ _ => .ok _

end FaultIn

end CodeAtlas
