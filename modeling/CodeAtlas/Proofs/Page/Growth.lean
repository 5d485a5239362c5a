import CodeAtlas.Proofs.Page.Navigation
import Mathlib.Data.List.Induction

/-!
# Trees of paths

A path is read as a route: its names, from the top down to a file. A tree can be made of a list of paths if
no route leads on from the end of another; the first path for which one does is refused. The tree then has
the routes that were given, each once, and at every level the names stand in the order in which the paths
first bring them up (`NavNode.ofPaths_outcome`).

The invariant is `Grown`: what a level has to hold is read off the routes that come through it.
-/

namespace CodeAtlas.NavNode

/-! ### Routes -/

/-- The names on a path: what stands between its slashes, where there is something. -/
def namesOf (path : String) : List String :=
  ((path.toList.splitOn '/').filter fun name => !name.isEmpty).map String.ofList

theorem segments_eq_namesOf : segments = namesOf := rfl

/-- The routes of the given paths. A path without names has none. -/
def routesOf (paths : List String) : List (List String) :=
  (paths.map namesOf).filter fun route => !route.isEmpty

/-- No route leads on from the end of another. -/
def Apart (routes : List (List String)) : Prop :=
  ∀ first ∈ routes, ∀ second ∈ routes, first <+: second → first = second

/-- What is left of the routes through `above`, from there on. -/
def beyond (above : List String) (routes : List (List String)) : List (List String) :=
  routes.filterMap fun route => route.dropPrefix? above

def heads (routes : List (List String)) : List String :=
  routes.filterMap List.head?

theorem routesOf_append (first second : List String) :
    routesOf (first ++ second) = routesOf first ++ routesOf second := by
  simp [routesOf]

theorem routesOf_singleton (path : String) :
    routesOf [path] = if namesOf path = [] then [] else [namesOf path] := by
  by_cases empty : namesOf path = [] <;> simp [routesOf, empty]

theorem ne_nil_of_mem_routesOf {paths : List String} {route : List String} (mem : route ∈ routesOf paths) :
    route ≠ [] := by
  simpa using (List.mem_filter.mp mem).2

theorem dropPrefix?_eq_some {above route rest : List String} :
    route.dropPrefix? above = some rest ↔ route = above ++ rest := by
  simp [List.dropPrefix?_eq_some_iff]

theorem mem_beyond {above rest : List String} {routes : List (List String)} :
    rest ∈ beyond above routes ↔ above ++ rest ∈ routes := by
  simp [beyond, dropPrefix?_eq_some]

theorem beyond_top (routes : List (List String)) : beyond [] routes = routes := by
  have whole : (fun route : List String => route.dropPrefix? []) = some :=
    funext fun route => dropPrefix?_eq_some.mpr rfl
  rw [beyond, whole, List.filterMap_some]

theorem beyond_append (above : List String) (first second : List (List String)) :
    beyond above (first ++ second) = beyond above first ++ beyond above second :=
  List.filterMap_append

theorem beyond_concat (above : List String) (name : String) (routes : List (List String)) :
    beyond (above ++ [name]) routes = beyond [name] (beyond above routes) := by
  rw [beyond, beyond, beyond, List.filterMap_filterMap]
  refine List.filterMap_congr fun route _ => Option.ext fun rest => ?_
  simp only [dropPrefix?_eq_some, Option.bind_eq_some_iff]
  constructor
  · rintro rfl
    exact ⟨name :: rest, by simp, rfl⟩
  · rintro ⟨_, rfl, rfl⟩
    simp

theorem beyond_own (name : String) (rest : List String) : beyond [name] [name :: rest] = [rest] :=
  List.filterMap_cons_some (dropPrefix?_eq_some.mpr rfl)

theorem beyond_other {name other : String} (differ : other ≠ name) (rest : List String) :
    beyond [other] [name :: rest] = [] := by
  rw [List.eq_nil_iff_forall_not_mem]
  intro left mem
  have same : name = other := by
    simpa using congrArg List.head? (List.mem_singleton.mp (mem_beyond.mp mem)).symm
  exact differ same.symm

theorem mem_heads {name : String} {routes : List (List String)} :
    name ∈ heads routes ↔ ∃ rest, name :: rest ∈ routes := by
  simp only [heads, List.mem_filterMap, List.head?_eq_some_iff]
  constructor
  · rintro ⟨route, mem, rest, rfl⟩
    exact ⟨rest, mem⟩
  · rintro ⟨rest, mem⟩
    exact ⟨name :: rest, mem, rest, rfl⟩

theorem beyond_ne_nil_iff {name : String} {routes : List (List String)} :
    beyond [name] routes ≠ [] ↔ name ∈ heads routes := by
  simp only [ne_eq, List.eq_nil_iff_forall_not_mem, not_forall, not_not, mem_beyond, mem_heads,
    List.singleton_append]

theorem nodup_eraseDups (names : List String) : names.eraseDups.Nodup := by
  induction length : names.length using Nat.strong_induction_on generalizing names with
  | _ size ih =>
    cases names with
    | nil => exact List.nodup_nil
    | cons name names =>
      have shorter := List.length_filter_le (fun other => !other == name) names
      rw [List.length_cons] at length
      rw [List.eraseDups_cons, List.nodup_cons, List.mem_eraseDups]
      exact ⟨by simp, ih _ (by omega) _ rfl⟩

theorem eraseDups_concat (names : List String) (name : String) :
    (names ++ [name]).eraseDups = if name ∈ names then names.eraseDups else names.eraseDups ++ [name] := by
  rw [List.eraseDups_append]
  by_cases known : name ∈ names <;> simp [List.removeAll, List.eraseDups_cons, known]

theorem eraseDups_heads_concat (routes : List (List String)) (name : String) (rest : List String) :
    (heads (routes ++ [name :: rest])).eraseDups =
      if name ∈ heads routes then (heads routes).eraseDups else (heads routes).eraseDups ++ [name] := by
  rw [← eraseDups_concat]
  simp [heads]

/-! ### Levels that routes come through -/

/-- What a node has to be for what is left of the routes through it: a file if they all end there, and a
folder of the names that they go on with if none does. -/
inductive Holds : List (List String) → NavNode → Prop
  | file {rests : List (List String)} {name : String} (ends : ∀ rest ∈ rests, rest = []) :
      Holds rests (.file name)
  | folder {rests : List (List String)} {name : String} {children : List NavNode} (goes : [] ∉ rests)
      (names : children.map NavNode.name = (heads rests).eraseDups)
      (each : ∀ node ∈ children, Holds (beyond [node.name] rests) node) : Holds rests (.folder name children)

/-- The level has the names that the routes start with, in the order of first appearance, and each node is
what the routes through it ask for. -/
structure Grown (routes : List (List String)) (level : List NavNode) : Prop where
  names : level.map NavNode.name = (heads routes).eraseDups
  each : ∀ node ∈ level, Holds (beyond [node.name] routes) node

@[simp]
theorem name_file (name : String) : (NavNode.file name).name = name := rfl

@[simp]
theorem name_folder (name : String) (children : List NavNode) : (NavNode.folder name children).name = name := rfl

section Level

variable {routes : List (List String)} {level : List NavNode} {name : String}

theorem grown_nil : Grown [] [] :=
  ⟨rfl, by simp⟩

theorem Grown.mem_heads_iff (grown : Grown routes level) :
    name ∈ heads routes ↔ ∃ node ∈ level, node.name = name := by
  rw [← List.mem_eraseDups, ← grown.names, List.mem_map]

theorem Grown.nodup_names (grown : Grown routes level) : (level.map NavNode.name).Nodup :=
  grown.names ▸ nodup_eraseDups _

/-- What stands under a name, by what is left of the routes through it. -/
theorem Grown.lookup (grown : Grown routes level) (name : String) :
    named? level name = none ∧ beyond [name] routes = [] ∨
    named? level name = some (.file name) ∧ [] ∈ beyond [name] routes ∧
      (∀ rest ∈ beyond [name] routes, rest = []) ∨
    ∃ children, named? level name = some (.folder name children) ∧ beyond [name] routes ≠ [] ∧
      [] ∉ beyond [name] routes ∧ Grown (beyond [name] routes) children := by
  cases found : named? level name with
  | none =>
    refine .inl ⟨rfl, ?_⟩
    rw [← not_ne_iff, beyond_ne_nil_iff, grown.mem_heads_iff]
    rintro ⟨node, mem, same⟩
    exact named?_eq_none found node mem same
  | some node =>
    obtain ⟨rfl, before, after, rfl, _⟩ := named?_eq_some found
    have mem : node ∈ before ++ node :: after := by simp
    have onward : beyond [node.name] routes ≠ [] :=
      beyond_ne_nil_iff.mpr (grown.mem_heads_iff.mpr ⟨node, mem, rfl⟩)
    have holds := grown.each node mem
    generalize beyond [node.name] routes = rests at onward holds
    cases holds with
    | file ends =>
      obtain ⟨rest, left⟩ := List.exists_mem_of_ne_nil _ onward
      exact .inr (.inl ⟨rfl, ends rest left ▸ left, ends⟩)
    | folder goes names each => exact .inr (.inr ⟨_, rfl, onward, goes, names, each⟩)

/-- One more route through `name` leaves the level in order if it only changes the node of that name. -/
theorem Grown.extend (grown : Grown routes level) {rest : List String} {next : List NavNode}
    (names : next.map NavNode.name = (heads (routes ++ [name :: rest])).eraseDups)
    (others : ∀ node ∈ next, node.name ≠ name → node ∈ level)
    (own : ∀ node ∈ next, node.name = name → Holds (beyond [name] routes ++ [rest]) node) :
    Grown (routes ++ [name :: rest]) next := by
  refine ⟨names, fun node mem => ?_⟩
  rw [beyond_append]
  by_cases same : node.name = name
  · rw [same, beyond_own]
    exact own node mem same
  · rw [beyond_other same, List.append_nil]
    exact grown.each node (others node mem same)

theorem Grown.concat (grown : Grown routes level) (node : NavNode) (rest : List String)
    (fresh : named? level node.name = none) (nothing : beyond [node.name] routes = [])
    (holds : Holds [rest] node) : Grown (routes ++ [node.name :: rest]) (level ++ [node]) := by
  have unknown : node.name ∉ heads routes := by
    rw [← beyond_ne_nil_iff, not_ne_iff]
    exact nothing
  refine grown.extend ?_ (fun other mem differ => ?_) fun other mem same => ?_
  · rw [eraseDups_heads_concat, if_neg unknown, List.map_append, grown.names, List.map_singleton]
  · rcases List.mem_append.mp mem with earlier | last
    · exact earlier
    · exact absurd (congrArg NavNode.name (List.mem_singleton.mp last)) differ
  · rcases List.mem_append.mp mem with earlier | last
    · exact absurd same (named?_eq_none fresh other earlier)
    · rw [nothing, List.mem_singleton.mp last]
      exact holds

theorem Grown.file_again (grown : Grown routes level) (found : named? level name = some (.file name))
    (ends : ∀ rest ∈ beyond [name] routes, rest = []) : Grown (routes ++ [[name]]) level := by
  obtain ⟨_, before, after, shape, _⟩ := named?_eq_some found
  have mem : .file name ∈ level := shape ▸ by simp
  refine grown.extend ?_ (fun other listed _ => listed) fun other listed same => ?_
  · have known : name ∈ heads routes := grown.mem_heads_iff.mpr ⟨_, mem, rfl⟩
    rw [eraseDups_heads_concat, if_pos known, grown.names]
  · rw [List.inj_on_of_nodup_map grown.nodup_names listed mem same]
    refine .file fun rest left => ?_
    rcases List.mem_append.mp left with earlier | last
    · exact ends rest earlier
    · exact List.mem_singleton.mp last

theorem names_putChildren (level : List NavNode) (name : String) (children : List NavNode) :
    (putChildren level name children).map NavNode.name = level.map NavNode.name := by
  rw [putChildren, List.map_map]
  refine List.map_congr_left fun node _ => ?_
  by_cases same : node.name = name <;> simp [same]

theorem Grown.folder_again (grown : Grown routes level) {rest : List String} {children : List NavNode}
    (known : beyond [name] routes ≠ []) (goes : [] ∉ beyond [name] routes ++ [rest])
    (inside : Grown (beyond [name] routes ++ [rest]) children) :
    Grown (routes ++ [name :: rest]) (putChildren level name children) := by
  refine grown.extend ?_ (fun node mem differ => ?_) fun node mem same => ?_
  · rw [names_putChildren, eraseDups_heads_concat, if_pos (beyond_ne_nil_iff.mp known), grown.names]
  · obtain ⟨old, listed, rfl⟩ := List.mem_map.mp mem
    by_cases hit : old.name = name
    · simp [hit] at differ
    · simpa [hit] using listed
  · obtain ⟨old, _, rfl⟩ := List.mem_map.mp mem
    by_cases hit : old.name = name
    · rw [if_pos (by simpa using hit)]
      exact .folder goes inside.names inside.each
    · simp [hit] at same

end Level

/-! ### Putting one path into the tree -/

section Insert

variable {path : String} {route : List String} {routes : List (List String)} {level : List NavNode}

/-- A route beside which all others can stand finds its place. -/
theorem Grown.insert_ok (passed : List String) (nonempty : route ≠ []) (grown : Grown routes level)
    (clear : ∀ other ∈ routes, (other <+: route → other = route) ∧ (route <+: other → route = other)) :
    ∃ next, insert path passed route level = .ok next ∧ Grown (routes ++ [route]) next := by
  induction route generalizing routes level passed with
  | nil => exact absurd rfl nonempty
  | cons name rest ih =>
    -- What is left of the routes through `name` is as clear of `rest` as the routes are of the whole.
    have clearRest : ∀ other ∈ beyond [name] routes,
        (other <+: rest → other = rest) ∧ (rest <+: other → rest = other) := by
      intro other mem
      simpa using clear _ (mem_beyond.mp mem)
    cases rest with
    | nil =>
      rcases grown.lookup name with ⟨found, nothing⟩ | ⟨found, _, ends⟩ | ⟨children, found, onward, goes, _⟩
      · refine ⟨level ++ [.file name], by simp [insert, found], ?_⟩
        exact grown.concat (.file name) [] found nothing (.file (by simp))
      · exact ⟨level, by simp [insert, found], grown.file_again found ends⟩
      · obtain ⟨other, mem⟩ := List.exists_mem_of_ne_nil _ onward
        exact absurd ((clearRest other mem).2 List.nil_prefix ▸ mem) goes
    | cons second more =>
      rcases grown.lookup name with
        ⟨found, nothing⟩ | ⟨found, ended, _⟩ | ⟨children, found, onward, goes, inside⟩
      · obtain ⟨children, added, inside⟩ := ih (passed ++ [name]) (by simp) grown_nil (by simp)
        refine ⟨level ++ [.folder name children], by simp [insert, found, added, Except.map], ?_⟩
        exact grown.concat (.folder name children) (second :: more) found nothing
          (.folder (by simp) inside.names inside.each)
      · cases (clearRest [] ended).1 List.nil_prefix
      · obtain ⟨children', added, inside⟩ := ih (passed ++ [name]) (by simp) inside clearRest
        refine ⟨putChildren level name children', by simp [insert, found, added, Except.map], ?_⟩
        exact grown.folder_again onward (by simpa using goes) inside

/-- A file in the way is named by its route. -/
theorem Grown.insert_through (passed : List String) {earlier : List String} (grown : Grown routes level)
    (mem : earlier ∈ routes) (nonempty : earlier ≠ []) (through : earlier <+: route) (differ : earlier ≠ route) :
    insert path passed route level = .error ⟨"/".intercalate (passed ++ earlier)⟩ := by
  induction route generalizing routes level passed earlier with
  | nil => exact absurd (List.prefix_nil.mp through) differ
  | cons name rest ih =>
    obtain ⟨first, left, rfl⟩ := List.exists_cons_of_ne_nil nonempty
    obtain ⟨rfl, goesOn⟩ := List.cons_prefix_cons.mp through
    have differ : left ≠ rest := by simpa using differ
    have mem : left ∈ beyond [first] routes := mem_beyond.mpr mem
    cases rest with
    | nil => exact absurd (List.prefix_nil.mp goesOn) differ
    | cons second more =>
      rcases grown.lookup first with ⟨_, nothing⟩ | ⟨found, _, ends⟩ | ⟨children, found, _, goes, inside⟩
      · exact absurd (nothing ▸ mem) List.not_mem_nil
      · rw [ends left mem]
        simp [insert, found]
      · have failed := ih (passed ++ [first]) inside mem (fun empty => goes (empty ▸ mem)) goesOn differ
        simp [insert, found, failed, Except.map]

/-- A folder in the place of the file is refused by the whole path. -/
theorem Grown.insert_onto (passed : List String) {later : List String} (grown : Grown routes level)
    (mem : later ∈ routes) (nonempty : route ≠ []) (onto : route <+: later) (differ : route ≠ later) :
    insert path passed route level = .error ⟨path⟩ := by
  induction route generalizing routes level passed later with
  | nil => exact absurd rfl nonempty
  | cons name rest ih =>
    obtain ⟨left, rfl⟩ : ∃ left, later = name :: left := by
      obtain ⟨left, rfl⟩ := onto
      exact ⟨rest ++ left, rfl⟩
    have onto : rest <+: left := (List.cons_prefix_cons.mp onto).2
    have differ : rest ≠ left := by simpa using differ
    have mem : left ∈ beyond [name] routes := mem_beyond.mpr mem
    rcases grown.lookup name with ⟨_, nothing⟩ | ⟨_, _, ends⟩ | ⟨children, found, _, _, inside⟩
    · exact absurd (nothing ▸ mem) List.not_mem_nil
    · rw [ends left mem] at onto differ
      exact absurd (List.prefix_nil.mp onto) differ
    · cases rest with
      | nil => simp [insert, found]
      | cons second more =>
        have failed := ih (passed ++ [name]) inside mem (by simp) onto differ
        simp [insert, found, failed, Except.map]

end Insert

/-! ### Trees of lists of paths -/

/-- The first path that cannot stand beside the ones before it, and what the conflict says: the file that it
leads on from, or the path itself if another leads on from its end. -/
def Refused (paths : List String) (conflict : NavConflict) : Prop :=
  ∃ before path after, paths = before ++ path :: after ∧ Apart (routesOf before) ∧ namesOf path ≠ [] ∧
    ((∃ earlier ∈ routesOf before, earlier <+: namesOf path ∧ earlier ≠ namesOf path ∧
        conflict.path = "/".intercalate earlier) ∨
      (∃ earlier ∈ routesOf before, namesOf path <+: earlier ∧ namesOf path ≠ earlier) ∧
        conflict.path = path)

theorem ofPaths_append {before : List String} {tree : List NavNode} (built : ofPaths before = .ok tree)
    (path : String) (after : List String) :
    ofPaths (before ++ path :: after) = (do
      let next ← insert path [] (namesOf path) tree
      after.foldlM (fun level path => insert path [] (namesOf path) level) next) := by
  unfold ofPaths at built ⊢
  rw [List.foldlM_append, built, segments_eq_namesOf]
  rfl

theorem Apart.of_append {first second : List (List String)} (apart : Apart (first ++ second)) : Apart first :=
  fun one here other there => apart one (List.mem_append_left _ here) other (List.mem_append_left _ there)

theorem exists_grown {paths : List String} (apart : Apart (routesOf paths)) :
    ∃ tree, ofPaths paths = .ok tree ∧ Grown (routesOf paths) tree := by
  induction paths using List.reverseRecOn with
  | nil => exact ⟨[], rfl, grown_nil⟩
  | append_singleton before path ih =>
    rw [routesOf_append, routesOf_singleton] at apart ⊢
    obtain ⟨tree, built, grown⟩ := ih apart.of_append
    rw [ofPaths_append built]
    by_cases empty : namesOf path = []
    · rw [empty, if_pos rfl, List.append_nil]
      exact ⟨tree, rfl, grown⟩
    · rw [if_neg empty] at apart ⊢
      have clear : ∀ other ∈ routesOf before,
          (other <+: namesOf path → other = namesOf path) ∧ (namesOf path <+: other → namesOf path = other) :=
        fun other mem => ⟨apart other (by simp [mem]) _ (by simp), apart _ (by simp) other (by simp [mem])⟩
      obtain ⟨next, added, grown⟩ := grown.insert_ok [] empty clear
      refine ⟨next, ?_, grown⟩
      rw [added]
      rfl

theorem Refused.ofPaths_eq {paths : List String} {conflict : NavConflict} (refused : Refused paths conflict) :
    ofPaths paths = .error conflict := by
  obtain ⟨before, path, after, rfl, apart, nonempty, clash⟩ := refused
  obtain ⟨tree, built, grown⟩ := exists_grown apart
  have failed : insert path [] (namesOf path) tree = .error conflict := by
    obtain ⟨said⟩ := conflict
    rcases clash with ⟨earlier, mem, through, differ, rfl⟩ | ⟨⟨later, mem, onto, differ⟩, rfl⟩
    · exact grown.insert_through [] mem (ne_nil_of_mem_routesOf mem) through differ
    · exact grown.insert_onto [] mem nonempty onto differ
  rw [ofPaths_append built, failed]
  rfl

theorem Refused.append {paths : List String} {conflict : NavConflict} (refused : Refused paths conflict)
    (more : List String) : Refused (paths ++ more) conflict := by
  obtain ⟨before, path, after, rfl, rest⟩ := refused
  exact ⟨before, path, after ++ more, by simp, rest⟩

theorem exists_refused {paths : List String} (clash : ¬ Apart (routesOf paths)) :
    ∃ conflict, Refused paths conflict := by
  induction paths using List.reverseRecOn with
  | nil => exact absurd (fun _ mem => absurd mem List.not_mem_nil) clash
  | append_singleton before path ih =>
    by_cases apart : Apart (routesOf before)
    · rw [routesOf_append, routesOf_singleton] at clash
      have nonempty : namesOf path ≠ [] := by
        intro empty
        rw [if_pos empty, List.append_nil] at clash
        exact clash apart
      simp only [if_neg nonempty, Apart, not_forall, List.mem_append, List.mem_singleton] at clash
      obtain ⟨first, here, second, there, leads, differ⟩ := clash
      rcases here with here | rfl <;> rcases there with there | rfl
      · exact absurd (apart first here second there leads) differ
      · refine ⟨⟨"/".intercalate first⟩, before, path, [], rfl, apart, nonempty, ?_⟩
        exact .inl ⟨first, here, leads, differ, rfl⟩
      · refine ⟨⟨path⟩, before, path, [], rfl, apart, nonempty, ?_⟩
        exact .inr ⟨⟨second, there, leads, differ⟩, rfl⟩
      · exact absurd rfl differ
    · obtain ⟨conflict, refused⟩ := ih apart
      exact ⟨conflict, refused.append [path]⟩

theorem ofPaths_eq_error_iff (paths : List String) (conflict : NavConflict) :
    ofPaths paths = .error conflict ↔ Refused paths conflict := by
  refine ⟨fun failed => ?_, Refused.ofPaths_eq⟩
  have clash : ¬ Apart (routesOf paths) := by
    intro apart
    obtain ⟨tree, built, _⟩ := exists_grown apart
    cases built.symm.trans failed
  obtain ⟨other, refused⟩ := exists_refused clash
  cases refused.ofPaths_eq.symm.trans failed
  exact refused

theorem grown_of_ofPaths {paths : List String} {tree : List NavNode} (built : ofPaths paths = .ok tree) :
    Apart (routesOf paths) ∧ Grown (routesOf paths) tree := by
  have apart : Apart (routesOf paths) := by
    by_contra clash
    obtain ⟨conflict, refused⟩ := exists_refused clash
    cases refused.ofPaths_eq.symm.trans built
  obtain ⟨other, same, grown⟩ := exists_grown apart
  cases same.symm.trans built
  exact ⟨apart, grown⟩

/-! ### Levels and routes of a tree -/

/-- The siblings in the folder to which the names `above` lead. -/
inductive LevelAt (tree : List NavNode) : List String → List NavNode → Prop
  | top : LevelAt tree [] tree
  | inside {above : List String} {level : List NavNode} {name : String} {children : List NavNode}
      (outer : LevelAt tree above level) (mem : .folder name children ∈ level) :
      LevelAt tree (above ++ [name]) children

mutual

def routes : NavNode → List (List String)
  | .file name => [[name]]
  | .folder name children => (routesIn children).map (name :: ·)

def routesIn : List NavNode → List (List String)
  | [] => []
  | node :: nodes => routes node ++ routesIn nodes

end

theorem routesIn_eq (level : List NavNode) : routesIn level = level.flatMap routes := by
  induction level with
  | nil => rfl
  | cons node nodes ih => rw [routesIn, ih, List.flatMap_cons]

section Tree

variable {given : List (List String)} {tree level : List NavNode}

theorem Grown.levelAt (grown : Grown given tree) {above : List String} (reached : LevelAt tree above level) :
    Grown (beyond above given) level ∧ (above ≠ [] → level ≠ []) := by
  induction reached with
  | top =>
    rw [beyond_top]
    exact ⟨grown, fun nonempty => absurd rfl nonempty⟩
  | inside _ mem ih =>
    rename_i above level name children _
    rw [beyond_concat]
    have onward : beyond [name] (beyond above given) ≠ [] :=
      beyond_ne_nil_iff.mpr (ih.1.mem_heads_iff.mpr ⟨_, mem, rfl⟩)
    have holds := ih.1.each _ mem
    cases holds with
    | folder goes names each =>
      refine ⟨⟨names, each⟩, fun _ empty => ?_⟩
      subst empty
      -- Some route goes on from the folder, and its next name is in the level.
      obtain ⟨route, left⟩ := List.exists_mem_of_ne_nil _ onward
      obtain ⟨next, rest, rfl⟩ := List.exists_cons_of_ne_nil fun ended : route = [] => goes (ended ▸ left)
      have listed : next ∈ (heads (beyond [name] (beyond above given))).eraseDups :=
        List.mem_eraseDups.mpr (mem_heads.mpr ⟨rest, left⟩)
      exact absurd (names ▸ listed) List.not_mem_nil

def Carries (rests : List (List String)) (node : NavNode) : Prop :=
  node.routes.Nodup ∧ ∀ route, route ∈ node.routes ↔ ∃ rest ∈ rests, route = node.name :: rest

theorem carries_level (names : level.map NavNode.name = (heads given).eraseDups) (goes : [] ∉ given)
    (each : ∀ node ∈ level, Carries (beyond [node.name] given) node) :
    (routesIn level).Nodup ∧ ∀ route, route ∈ routesIn level ↔ route ∈ given := by
  rw [routesIn_eq]
  constructor
  · refine List.nodup_flatMap.mpr ⟨fun node mem => (each node mem).1, ?_⟩
    have distinct := nodup_eraseDups (heads given)
    rw [← names, List.Nodup, List.pairwise_map] at distinct
    refine distinct.imp_of_mem fun {first second} here there differ route one other => differ ?_
    obtain ⟨_, _, rfl⟩ := ((each first here).2 route).mp one
    obtain ⟨_, _, same⟩ := ((each second there).2 _).mp other
    exact (List.cons.inj same).1
  · intro route
    rw [List.mem_flatMap]
    constructor
    · rintro ⟨node, mem, through⟩
      obtain ⟨rest, left, rfl⟩ := ((each node mem).2 route).mp through
      exact mem_beyond.mp left
    · intro mem
      obtain ⟨name, rest, rfl⟩ := List.exists_cons_of_ne_nil fun empty : route = [] => goes (empty ▸ mem)
      have listed : name ∈ level.map NavNode.name := by
        rw [names, List.mem_eraseDups]
        exact mem_heads.mpr ⟨rest, mem⟩
      obtain ⟨node, there, rfl⟩ := List.mem_map.mp listed
      exact ⟨node, there, ((each node there).2 _).mpr ⟨rest, mem_beyond.mpr mem, rfl⟩⟩

theorem Holds.carries {rests : List (List String)} {node : NavNode} (holds : Holds rests node)
    (onward : rests ≠ []) : Carries rests node := by
  induction holds with
  | file ends =>
    rename_i rests name
    obtain ⟨rest, left⟩ := List.exists_mem_of_ne_nil _ onward
    have ended : [] ∈ rests := ends rest left ▸ left
    refine ⟨List.nodup_singleton _, fun route => ?_⟩
    rw [routes, List.mem_singleton, name_file]
    constructor
    · rintro rfl
      exact ⟨[], ended, rfl⟩
    · rintro ⟨rest, left, rfl⟩
      rw [ends rest left]
  | folder goes names _ ih =>
    rename_i rests name children _
    have inside : (routesIn children).Nodup ∧ ∀ route, route ∈ routesIn children ↔ route ∈ rests := by
      refine carries_level names goes fun node mem => ih node mem ?_
      rw [beyond_ne_nil_iff, ← List.mem_eraseDups, ← names]
      exact List.mem_map_of_mem mem
    refine ⟨inside.1.map fun first second same => (List.cons.inj same).2, fun route => ?_⟩
    rw [routes, List.mem_map, name_folder]
    exact exists_congr fun rest => and_congr (inside.2 rest) eq_comm

theorem Grown.routesIn_spec (grown : Grown given tree) (goes : [] ∉ given) :
    (routesIn tree).Nodup ∧ ∀ route, route ∈ routesIn tree ↔ route ∈ given := by
  refine carries_level grown.names goes fun node mem => (grown.each node mem).carries ?_
  exact beyond_ne_nil_iff.mpr (grown.mem_heads_iff.mpr ⟨node, mem, rfl⟩)

end Tree

/-- A tree is made of a list of paths exactly if no route leads on from the end of another. If one does, the
list is refused at the first path for which it does. Otherwise the tree has the given routes, each once; at
every level the names are different and in the order of first appearance, and no folder is empty. -/
theorem ofPaths_outcome (paths : List String) :
    ((∃ conflict, ofPaths paths = .error conflict) ↔
      ∃ first ∈ routesOf paths, ∃ second ∈ routesOf paths, first <+: second ∧ first ≠ second) ∧
    (∀ conflict, ofPaths paths = .error conflict ↔ Refused paths conflict) ∧
    ∀ tree, ofPaths paths = .ok tree →
      (∀ above level, LevelAt tree above level →
        (level.map NavNode.name).Nodup ∧
        level.map NavNode.name = (heads (beyond above (routesOf paths))).eraseDups ∧
        (above ≠ [] → level ≠ [])) ∧
      (routesIn tree).Nodup ∧ ∀ route, route ∈ routesIn tree ↔ route ∈ routesOf paths := by
  refine ⟨⟨?_, ?_⟩, ofPaths_eq_error_iff paths, fun tree built => ?_⟩
  · rintro ⟨conflict, failed⟩
    by_contra none
    push Not at none
    obtain ⟨tree, built, _⟩ := exists_grown none
    cases built.symm.trans failed
  · rintro ⟨first, here, second, there, leads, differ⟩
    obtain ⟨conflict, refused⟩ := exists_refused fun apart => differ (apart first here second there leads)
    exact ⟨conflict, refused.ofPaths_eq⟩
  · obtain ⟨_, grown⟩ := grown_of_ofPaths built
    refine ⟨fun above level reached => ?_, grown.routesIn_spec fun mem => ne_nil_of_mem_routesOf mem rfl⟩
    obtain ⟨inside, nonempty⟩ := grown.levelAt reached
    exact ⟨inside.nodup_names, inside.names, nonempty⟩

/-- Empty names are passed over, and a path is refused at either end of another. -/
theorem ofPaths_outcome_slashes :
    ofPaths ["a//b", "/c", "a/d/"] = .ok [.folder "a" [.file "b", .file "d"], .file "c"] ∧
    (∀ route, route ∈ routesIn [.folder "a" [.file "b", .file "d"], .file "c"] ↔
      route ∈ [["a", "b"], ["c"], ["a", "d"]]) ∧
    Refused ["x", "a/b", "/a/b/c", "x/y"] ⟨"a/b"⟩ ∧ Refused ["a/b/c", "a//b"] ⟨"a//b"⟩ := by
  have built : ofPaths ["a//b", "/c", "a/d/"] = .ok [.folder "a" [.file "b", .file "d"], .file "c"] := by
    rfl
  have routes : routesOf ["a//b", "/c", "a/d/"] = [["a", "b"], ["c"], ["a", "d"]] := by decide
  refine ⟨built, ?_, ?_, ?_⟩
  · rw [← routes]
    exact ((ofPaths_outcome _).2.2 _ built).2.2
  · exact ((ofPaths_outcome _).2.1 _).mp (by rfl)
  · exact ((ofPaths_outcome _).2.1 _).mp (by rfl)

end CodeAtlas.NavNode
