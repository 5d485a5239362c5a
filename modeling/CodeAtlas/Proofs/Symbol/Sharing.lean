import CodeAtlas.Proofs.Dump.Adjacency
import CodeAtlas.Proofs.Symbol.Traversal
import Mathlib.Data.List.Nodup
import Mathlib.Data.List.Pairwise

/-!
# Shared results are refused like cycles

The walk over nested results keeps a list of all the results it has entered, not of those on the way to
the present one. So it stops at a cycle, but also at a result that is only nested at two places. The items
of a result are refused just if one of the two is within reach (`cycle_fault_iff`).
-/

namespace CodeAtlas

namespace Graph

open Relation

variable {graph : Graph} {result : ElementId}

/-- The results that a result nests, each as often as its edges name it. -/
def nested (graph : Graph) (result : ElementId) : List ElementId :=
  ((graph.itemEdges result).filter Edge.nests).flatMap Edge.targets

theorem mem_nested_iff {inner : ElementId} : inner ∈ graph.nested result ↔ graph.Nests result inner := by
  simp [nested, Nests, and_assoc]

/-- Some result within reach nests itself, at once or through others. -/
def Cyclic (graph : Graph) (result : ElementId) : Prop :=
  ∃ id, ReflTransGen graph.Nests result id ∧ TransGen graph.Nests id id

/-- Within the reach of `result`, `id` is nested at two places. -/
inductive SharesAt (graph : Graph) (result id : ElementId) : Prop where
  | twice {outer : ElementId} :
    ReflTransGen graph.Nests result outer → 2 ≤ (graph.nested outer).count id → SharesAt graph result id
  | both {outer other : ElementId} :
    ReflTransGen graph.Nests result outer → ReflTransGen graph.Nests result other → outer ≠ other →
      graph.Nests outer id → graph.Nests other id → SharesAt graph result id

def Shares (graph : Graph) (result : ElementId) : Prop :=
  ∃ id, graph.SharesAt result id

/-- Where nothing is shared, a cycle can be entered nowhere but at the start. -/
theorem Cyclic.start_or_shares (cyclic : graph.Cyclic result) :
    TransGen graph.Nests result result ∨ graph.Shares result := by
  obtain ⟨id, reach, loop⟩ := cyclic
  induction reach with
  | refl => exact .inl loop
  | @tail outer id reach nests ih =>
    obtain ⟨last, around, back⟩ := TransGen.tail'_iff.mp loop
    by_cases same : last = outer
    · subst same
      exact ih (TransGen.head' nests around)
    · have within := (reach.tail nests).trans around
      exact .inr ⟨id, .both within reach same back nests⟩

end Graph

namespace Items

open Relation

variable {graph : Graph} {root : ElementId}

/-- The results that a step enters at once, each as often as it is named. -/
def Visit.starts : Visit → List ElementId
  | .enter id => [id]
  | .pass edge => if edge.nests then edge.targets else []

theorem starts_passes (edges : List Edge) :
    (edges.map Visit.pass).flatMap Visit.starts = (edges.filter Edge.nests).flatMap Edge.targets := by
  induction edges with
  | nil => rfl
  | cons edge edges ih =>
    rw [List.map_cons, List.flatMap_cons, ih, List.filter_cons]
    cases nests : edge.nests with
    | true => simp [Visit.starts, nests]
    | false => simp [Visit.starts, nests]

theorem starts_edgesOf (id : ElementId) : (edgesOf graph id).flatMap Visit.starts = graph.nested id := by
  rw [edgesOf_eq, starts_passes, Graph.nested]

theorem starts_enters (ids : List ElementId) : (ids.map Visit.enter).flatMap Visit.starts = ids := by
  simp [List.flatMap_map, Visit.starts]

/-! ### What a walk has entered and will enter -/

/-- A walk from `root` that has entered `visited` and has the steps `steps` to do: apart from the root, what
it has entered and what it is about to enter are the results nested by those entered. -/
structure Traced (graph : Graph) (root : ElementId) (visited : List ElementId) (steps : List Visit) :
    Prop where
  once : visited.Nodup
  reached : ∀ id ∈ visited, ReflTransGen graph.Nests root id
  counted : (visited ++ steps.flatMap Visit.starts).Perm (root :: visited.flatMap graph.nested)

theorem traced_start (graph : Graph) (root : ElementId) : Traced graph root [] [.enter root] where
  once := List.nodup_nil
  reached := by simp
  counted := .refl [root]

theorem Traced.pass {visited : List ElementId} {edge : Edge} {rest : List Visit}
    (traced : Traced graph root visited (.pass edge :: rest)) (meets : edge.nests = false) :
    Traced graph root visited rest where
  once := traced.once
  reached := traced.reached
  counted := by simpa [Visit.starts, meets] using traced.counted

theorem Traced.nest {visited : List ElementId} {edge : Edge} {rest : List Visit}
    (traced : Traced graph root visited (.pass edge :: rest)) (nests : edge.nests = true) :
    Traced graph root visited (nestedBy edge ++ rest) where
  once := traced.once
  reached := traced.reached
  counted := by
    rw [List.flatMap_append, nestedBy, starts_enters]
    simpa [Visit.starts, nests] using traced.counted

theorem Traced.reached_next {visited : List ElementId} {id : ElementId} {rest : List Visit}
    (traced : Traced graph root visited (.enter id :: rest)) : ReflTransGen graph.Nests root id := by
  have listed : id ∈ root :: visited.flatMap graph.nested :=
    traced.counted.mem_iff.mp (by simp [Visit.starts])
  rcases List.mem_cons.mp listed with rfl | inside
  · exact .refl
  · obtain ⟨outer, entered, nests⟩ := List.mem_flatMap.mp inside
    exact (traced.reached outer entered).tail (Graph.mem_nested_iff.mp nests)

theorem Traced.enter {visited : List ElementId} {id : ElementId} {rest : List Visit}
    (traced : Traced graph root visited (.enter id :: rest)) (fresh : id ∉ visited) :
    Traced graph root (id :: visited) (edgesOf graph id ++ rest) where
  once := List.nodup_cons.mpr ⟨fresh, traced.once⟩
  reached := by
    intro other mem
    rcases List.mem_cons.mp mem with rfl | old
    · exact traced.reached_next
    · exact traced.reached other old
  counted := by
    refine List.perm_iff_count.mpr fun other => ?_
    have before := traced.counted.count_eq other
    simp only [List.count_append, List.flatMap_cons, List.count_cons, Visit.starts, List.flatMap_append,
      starts_edgesOf, List.count_nil] at before ⊢
    omega

/-- Two of the entries in lists of items: one item has both, or two items have one each. -/
theorem twice_or_both {α β : Type} [DecidableEq β] {items : List α} {entries : α → List β} {x : β}
    (once : items.Nodup) (count : 2 ≤ (items.flatMap entries).count x) :
    (∃ a ∈ items, 2 ≤ (entries a).count x) ∨
      ∃ a ∈ items, ∃ b ∈ items, a ≠ b ∧ x ∈ entries a ∧ x ∈ entries b := by
  induction items with
  | nil => simp at count
  | cons a items ih =>
    obtain ⟨new, once⟩ := List.nodup_cons.mp once
    rw [List.flatMap_cons, List.count_append] at count
    by_cases many : 2 ≤ (entries a).count x
    · exact .inl ⟨a, List.mem_cons_self, many⟩
    by_cases one : x ∈ entries a
    · have later : 0 < (items.flatMap entries).count x := by omega
      obtain ⟨b, mem, inside⟩ := List.mem_flatMap.mp (List.count_pos_iff.mp later)
      have different : a ≠ b := fun same => new (same ▸ mem)
      exact .inr ⟨a, List.mem_cons_self, b, List.mem_cons_of_mem _ mem, different, one, inside⟩
    · rw [List.count_eq_zero_of_not_mem one, Nat.zero_add] at count
      rcases ih once count with ⟨b, mem, many⟩ | ⟨b, mem, c, mem', both⟩
      · exact .inl ⟨b, List.mem_cons_of_mem _ mem, many⟩
      · exact .inr ⟨b, List.mem_cons_of_mem _ mem, c, List.mem_cons_of_mem _ mem', both⟩

/-- A result that is about to be entered again is the root, on a cycle, or it is shared. -/
theorem Traced.again {visited : List ElementId} {id : ElementId} {rest : List Visit}
    (traced : Traced graph root visited (.enter id :: rest)) (seen : id ∈ visited) :
    (id = root ∧ TransGen graph.Nests root root) ∨ graph.SharesAt root id := by
  have counted := traced.counted.count_eq id
  have before : 0 < visited.count id := List.count_pos_iff.mpr seen
  simp only [List.count_append, List.flatMap_cons, List.count_cons, Visit.starts, List.count_nil,
    beq_self_eq_true, if_true] at counted
  by_cases start : root = id
  · subst start
    rw [if_pos (beq_self_eq_true root)] at counted
    have inside : 0 < (visited.flatMap graph.nested).count root := by omega
    obtain ⟨outer, entered, nests⟩ := List.mem_flatMap.mp (List.count_pos_iff.mp inside)
    exact .inl ⟨rfl, .tail' (traced.reached outer entered) (Graph.mem_nested_iff.mp nests)⟩
  · rw [if_neg (by simpa using start)] at counted
    have inside : 2 ≤ (visited.flatMap graph.nested).count id := by omega
    rcases twice_or_both traced.once inside with ⟨outer, entered, many⟩ |
      ⟨outer, entered, other, entered', different, first, second⟩
    · exact .inr (.twice (traced.reached outer entered) many)
    · exact .inr (.both (traced.reached outer entered) (traced.reached other entered') different
        (Graph.mem_nested_iff.mp first) (Graph.mem_nested_iff.mp second))

theorem Traced.of_collect_error {visited : List ElementId} {steps : List Visit} {start again : ElementId}
    (traced : Traced graph root visited steps)
    (failed : collect graph root visited steps = .error (.cycle start again)) :
    (again = root ∧ TransGen graph.Nests root root) ∨ graph.SharesAt root again := by
  induction visited, steps using collect.induct graph with
  | case1 visited =>
    rw [collect] at failed
    cases failed
  | case2 visited id rest seen =>
    rw [collect, dif_pos seen] at failed
    cases failed
    exact traced.again seen
  | case3 visited id rest fresh ih =>
    rw [collect, dif_neg fresh] at failed
    exact ih (traced.enter fresh) failed
  | case4 visited edge rest property ih =>
    simp only [collect, property] at failed
    exact ih (traced.pass (by simp [Edge.nests, property])) (error_of_map_eq_error failed)
  | case5 visited edge rest property ih =>
    simp only [collect, property] at failed
    exact ih (traced.nest (by simp [Edge.nests, property])) failed
  | case6 visited edge rest property ih =>
    simp only [collect, property] at failed
    exact ih (traced.pass (by simp [Edge.nests, property])) failed
  | case7 visited edge rest notDefinitions notNested notLinks ih =>
    simp only [collect] at failed
    exact ih (traced.pass (by simpa [Edge.nests] using notNested)) (error_of_map_eq_error failed)

/-! ### Walks that enter nothing twice -/

/-- A walk enters what its steps start with and what is nested by those it enters. -/
theorem Walk.entered_perm {steps : List Visit} {entered : List ElementId} {met : List Edge}
    (walk : Walk graph steps entered met) :
    entered.Perm (steps.flatMap Visit.starts ++ entered.flatMap graph.nested) := by
  refine List.perm_iff_count.mpr fun id => ?_
  induction walk with
  | nil => rfl
  | @enter result steps inside behind _ _ _ _ inner rest =>
    rw [starts_passes] at inner
    simp only [List.count_append, List.count_cons, List.flatMap_cons, List.flatMap_append, Visit.starts,
      List.count_nil, Graph.nested] at inner rest ⊢
    omega
  | @nest edge steps inside behind _ _ nests _ _ inner rest =>
    rw [starts_enters] at inner
    simp only [List.count_append, List.flatMap_cons, List.flatMap_append, Visit.starts, nests,
      if_true] at inner rest ⊢
    omega
  | @meet edge steps behind _ meets _ ih =>
    simp only [List.flatMap_cons, Visit.starts, meets, Bool.false_eq_true, if_false, List.nil_append]
    exact ih

theorem Walk.not_cyclic_or_shares {entered : List ElementId} {met : List Edge}
    (walk : Walk graph [.enter root] entered met) (once : entered.Nodup) :
    ¬ (TransGen graph.Nests root root ∨ graph.Shares root) := by
  have reached : ∀ id, ReflTransGen graph.Nests root id → id ∈ entered := by
    intro id reach
    exact (walk.mem_entered_iff id).mpr ⟨_, List.mem_singleton_self _, root, rfl, reach⟩
  have counted : (root :: entered.flatMap graph.nested).Nodup := by
    have perm := walk.entered_perm
    rw [List.flatMap_singleton, Visit.starts, List.singleton_append] at perm
    exact perm.nodup_iff.mp once
  obtain ⟨notNested, once⟩ := List.nodup_cons.mp counted
  obtain ⟨single, apart⟩ := List.nodup_flatMap.mp once
  rintro (loop | ⟨id, shares⟩)
  · obtain ⟨last, reach, nests⟩ := TransGen.tail'_iff.mp loop
    exact notNested (List.mem_flatMap.mpr ⟨last, reached last reach, Graph.mem_nested_iff.mpr nests⟩)
  · cases shares with
    | @twice outer reach many =>
      have few := List.nodup_iff_count_le_one.mp (single outer (reached outer reach)) id
      omega
    | @both outer other reach reach' different nests nests' =>
      have symmetric : Std.Symm (Function.onFun List.Disjoint graph.nested) :=
        ⟨fun _ _ disjoint _ first second => disjoint second first⟩
      have disjoint := apart.forall (reached outer reach) (reached other reach') different
      exact disjoint (Graph.mem_nested_iff.mpr nests) (Graph.mem_nested_iff.mpr nests')

end Items

namespace Graph

open Relation

variable {graph : Graph} {result : ElementId}

theorem cycle_or_shares_of_fault {again : ElementId}
    (failed : graph.items result = .error (.cycle result again)) :
    (again = result ∧ TransGen graph.Nests result result) ∨ graph.SharesAt result again :=
  (Items.traced_start graph result).of_collect_error failed

theorem exists_fault_iff :
    (∃ again, graph.items result = .error (.cycle result again)) ↔
      graph.Cyclic result ∨ graph.Shares result := by
  constructor
  · rintro ⟨again, failed⟩
    rcases cycle_or_shares_of_fault failed with ⟨_, loop⟩ | shares
    · exact .inl ⟨result, .refl, loop⟩
    · exact .inr ⟨again, shares⟩
  · intro refused
    cases outcome : graph.items result with
    | error fault =>
      obtain ⟨again, rfl⟩ := Items.collect_error outcome
      exact ⟨again, rfl⟩
    | ok items =>
      obtain ⟨entered, met, walk, once, _⟩ := (Items.collect_eq_ok_iff ..).mp outcome
      exact absurd (refused.elim Cyclic.start_or_shares .inr) (walk.not_cyclic_or_shares once)

/-- The items of a result are refused as a cycle just if there is a cycle within reach, or a result within
reach is nested at two places; it is such a result that the fault names. So a fault means a cycle just where
nothing is shared, or there is a cycle as well. -/
theorem cycle_fault_iff (graph : Graph) (result : ElementId) :
    ((∃ again, graph.items result = .error (.cycle result again)) ↔
      graph.Cyclic result ∨ graph.Shares result) ∧
    (∀ again, graph.items result = .error (.cycle result again) →
      (again = result ∧ TransGen graph.Nests result result) ∨ graph.SharesAt result again) ∧
    (((∃ again, graph.items result = .error (.cycle result again)) ↔ graph.Cyclic result) ↔
      (graph.Shares result → graph.Cyclic result)) := by
  refine ⟨exists_fault_iff, fun again => cycle_or_shares_of_fault, ?_⟩
  rw [exists_fault_iff]
  constructor
  · intro means shares
    exact means.mp (.inr shares)
  · intro only
    exact ⟨fun refused => refused.elim id only, .inl⟩

/-! ### Two results that nest a third one -/

/-- The list has every result that one of its own nests, at a later place. -/
def sortsNested (graph : Graph) (order : List ElementId) : Bool :=
  order.all fun id => (graph.nested id).all fun inner =>
    order.contains inner && decide (order.idxOf id < order.idxOf inner)

theorem not_cyclic_of_sortsNested {order : List ElementId} (start : result ∈ order)
    (sorted : graph.sortsNested order = true) : ¬ graph.Cyclic result := by
  have ahead : ∀ {id inner}, id ∈ order → graph.Nests id inner →
      inner ∈ order ∧ order.idxOf id < order.idxOf inner := by
    intro id inner mem nests
    have inside := List.all_eq_true.mp (List.all_eq_true.mp sorted id mem) inner (mem_nested_iff.mpr nests)
    simpa using inside
  rintro ⟨id, reach, loop⟩
  have listed : id ∈ order := by
    clear loop
    induction reach with
    | refl => exact start
    | tail _ nests ih => exact (ahead ih nests).1
  have later : ∀ {inner}, TransGen graph.Nests id inner →
      inner ∈ order ∧ order.idxOf id < order.idxOf inner := by
    intro inner path
    induction path with
    | single nests => exact ahead listed nests
    | tail _ nests ih =>
      obtain ⟨mem, less⟩ := ahead ih.1 nests
      exact ⟨mem, Nat.lt_trans ih.2 less⟩
  exact Nat.lt_irrefl _ (later loop).2

def nestingEdge (source target : Nat) (more : List Nat) : ElementKind :=
  .edge ⟨.item, .ofNat source, .ofNat target, more.map .ofNat, none, some .referenceResults⟩

/-- A dump in which 2 nests 3 and 4, and both nest 5. -/
def diamond : List Element :=
  [⟨.ofNat 1, .vertex (.metaData ⟨"file:///repo", none, none⟩)⟩,
    ⟨.ofNat 2, .vertex .referenceResult⟩, ⟨.ofNat 3, .vertex .referenceResult⟩,
    ⟨.ofNat 4, .vertex .referenceResult⟩, ⟨.ofNat 5, .vertex .referenceResult⟩,
    ⟨.ofNat 6, nestingEdge 2 3 [4]⟩, ⟨.ofNat 7, nestingEdge 3 5 []⟩, ⟨.ofNat 8, nestingEdge 4 5 []⟩]

theorem evaluate_diamond :
    ∃ graph, ofElements diamond = .ok graph ∧ graph.sortsNested ([2, 3, 4, 5].map .ofNat) = true ∧
      graph.items (.ofNat 2) = .error (.cycle (.ofNat 2) (.ofNat 5)) := by
  have evaluated : (ofElements diamond).toOption.map (fun graph =>
      (graph.sortsNested ([2, 3, 4, 5].map .ofNat), graph.items (.ofNat 2))) =
      some (true, .error (.cycle (.ofNat 2) (.ofNat 5))) := by
    decide +kernel
  obtain ⟨graph, built, values⟩ := Option.map_eq_some_iff.mp evaluated
  obtain ⟨sorted, refused⟩ := Prod.mk.inj values
  exact ⟨graph, ok_of_toOption_eq_some built, sorted, refused⟩

theorem cycle_fault_iff_diamond :
    ∃ graph, ofElements diamond = .ok graph ∧
      graph.items (.ofNat 2) = .error (.cycle (.ofNat 2) (.ofNat 5)) ∧
      graph.SharesAt (.ofNat 2) (.ofNat 5) := by
  obtain ⟨graph, built, _, refused⟩ := evaluate_diamond
  obtain ⟨_, named, _⟩ := cycle_fault_iff graph (.ofNat 2)
  have different : ElementId.ofNat 5 ≠ .ofNat 2 := by decide
  exact ⟨graph, built, refused, (named _ refused).resolve_left fun start => different start.1⟩

/-- The diamond has no cycle, and its items are refused as one. -/
theorem diamond_refused :
    ∃ graph, ofElements diamond = .ok graph ∧ ¬ graph.Cyclic (.ofNat 2) ∧
      graph.items (.ofNat 2) = .error (.cycle (.ofNat 2) (.ofNat 5)) := by
  obtain ⟨graph, built, sorted, refused⟩ := evaluate_diamond
  have start : ElementId.ofNat 2 ∈ [2, 3, 4, 5].map ElementId.ofNat := List.mem_cons_self
  exact ⟨graph, built, not_cyclic_of_sortsNested start sorted, refused⟩

end Graph

end CodeAtlas
