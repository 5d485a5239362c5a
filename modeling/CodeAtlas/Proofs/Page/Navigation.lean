import CodeAtlas.Proofs.Page.Tags
import CodeAtlas.Proofs.Site.Loading
import CodeAtlas.Proofs.Text.Order

/-!
# The pages in the navigation tree

Pages are put into the tree in the order of their paths. All paths of one folder stand together in that order,
so a new page always goes to the end of the tree, and the tree lists the pages in the order they were given
(`NavNode.files_ofPaths`). On each page the tree links every page once, and marks only the page itself
(`NavNode.nav_lists_pages`).
-/

namespace CodeAtlas

open Markup

namespace NavNode

/-! ### Files of a tree -/

mutual

def nodeFiles (folder : String) : NavNode → List String
  | .file name => [pathIn folder name]
  | .folder name children => filesIn (pathIn folder name) children

/-- The paths of the files of siblings in the folder at `folder`, depth first. -/
def filesIn (folder : String) : List NavNode → List String
  | [] => []
  | node :: nodes => nodeFiles folder node ++ filesIn folder nodes

end

def files (tree : List NavNode) : List String :=
  filesIn "" tree

theorem filesIn_append (folder : String) (first second : List NavNode) :
    filesIn folder (first ++ second) = filesIn folder first ++ filesIn folder second := by
  induction first with
  | nil => rfl
  | cons node first ih => rw [List.cons_append, filesIn, filesIn, ih, List.append_assoc]

theorem filesIn_singleton (folder : String) (node : NavNode) :
    filesIn folder [node] = nodeFiles folder node := by
  rw [filesIn, filesIn, List.append_nil]

/-! ### Paths -/

def IsSegment (name : String) : Prop :=
  name ≠ "" ∧ '/' ∉ name.toList

theorem pathIn_empty (name : String) : pathIn "" name = name := rfl

theorem toList_pathIn {folder : String} (nonempty : folder ≠ "") (name : String) :
    (pathIn folder name).toList = folder.toList ++ '/' :: name.toList := by
  rw [pathIn, if_neg (by simpa using nonempty)]
  simp [ToString.toString]

theorem pathIn_ne_empty (folder : String) {name : String} (nonempty : name ≠ "") :
    pathIn folder name ≠ "" := by
  unfold pathIn
  split
  · exact nonempty
  · intro empty
    have chars := congrArg String.toList empty
    simp [ToString.toString] at chars

theorem pathIn_pathIn {name : String} (nonempty : name ≠ "") (folder rest : String) :
    pathIn (pathIn folder name) rest = pathIn folder (pathIn name rest) := by
  by_cases top : folder = ""
  · rw [top, pathIn_empty, pathIn_empty]
  · apply String.toList_injective
    rw [toList_pathIn (pathIn_ne_empty folder nonempty), toList_pathIn top, toList_pathIn top,
      toList_pathIn nonempty]
    simp

def pathOf (names : List String) : String :=
  String.ofList (['/'].intercalate (names.map String.toList))

theorem pathOf_singleton (name : String) : pathOf [name] = name := by
  simp [pathOf]

theorem pathOf_cons_cons {name : String} (nonempty : name ≠ "") (next : String) (more : List String) :
    pathOf (name :: next :: more) = pathIn name (pathOf (next :: more)) := by
  apply String.toList_injective
  rw [toList_pathIn nonempty, pathOf, pathOf, String.toList_ofList, String.toList_ofList, List.map_cons,
    List.map_cons, List.intercalate_cons_cons]
  simp

def topOf (path : String) : List Char :=
  path.toList.takeWhile (· != '/')

theorem topOf_of_segment {name : String} (segment : IsSegment name) : topOf name = name.toList := by
  rw [topOf, List.takeWhile_eq_self_iff]
  intro c mem
  simpa using fun same : c = '/' => segment.2 (same ▸ mem)

theorem prefix_pathIn {folder : String} (nonempty : folder ≠ "") (rest : String) :
    folder.toList ++ ['/'] <+: (pathIn folder rest).toList :=
  ⟨rest.toList, by rw [toList_pathIn nonempty, List.append_assoc, List.singleton_append]⟩

theorem topOf_of_starts {name path : String} (segment : IsSegment name)
    (starts : name.toList ++ ['/'] <+: path.toList) : topOf path = name.toList := by
  obtain ⟨rest, same⟩ := starts
  have inside : ∀ c ∈ name.toList, (c != '/') = true := by
    intro c mem
    simpa using fun same : c = '/' => segment.2 (same ▸ mem)
  rw [topOf, ← same, List.append_assoc, List.takeWhile_append_of_pos inside]
  simp

theorem pathIn_lt_pathIn_iff {folder : String} (nonempty : folder ≠ "") {first second : String} :
    pathIn folder first < pathIn folder second ↔ first < second := by
  rw [String.lt_iff_toList_lt, toList_pathIn nonempty, toList_pathIn nonempty, Text.append_lt_append_iff,
    String.lt_iff_toList_lt]
  exact Text.append_lt_append_iff ['/'] first.toList second.toList

/-! ### Proper trees -/

/-- Siblings have different names, which are segments, and every folder has something in it. -/
inductive Proper : List NavNode → Prop
  | nil : Proper []
  | file {name : String} {nodes : List NavNode} (segment : IsSegment name)
      (other : ∀ node ∈ nodes, node.name ≠ name) (rest : Proper nodes) : Proper (.file name :: nodes)
  | folder {name : String} {children nodes : List NavNode} (segment : IsSegment name)
      (other : ∀ node ∈ nodes, node.name ≠ name) (some : children ≠ []) (inside : Proper children)
      (rest : Proper nodes) : Proper (.folder name children :: nodes)

theorem Proper.concat {level : List NavNode} {node : NavNode} (proper : Proper level) (single : Proper [node])
    (apart : ∀ other ∈ level, other.name ≠ node.name) : Proper (level ++ [node]) := by
  induction proper with
  | nil => exact single
  | file segment other _ ih =>
    obtain ⟨here, apart⟩ := List.forall_mem_cons.mp apart
    refine .file segment (fun third mem => ?_) (ih apart)
    rcases List.mem_append.mp mem with earlier | last
    · exact other third earlier
    · exact List.mem_singleton.mp last ▸ here.symm
  | folder segment other some inside _ _ ih =>
    obtain ⟨here, apart⟩ := List.forall_mem_cons.mp apart
    refine .folder segment (fun third mem => ?_) some inside (ih apart)
    rcases List.mem_append.mp mem with earlier | last
    · exact other third earlier
    · exact List.mem_singleton.mp last ▸ here.symm

theorem Proper.of_append {first second : List NavNode} (proper : Proper (first ++ second)) :
    Proper first ∧ Proper second := by
  induction first with
  | nil => exact ⟨.nil, proper⟩
  | cons node first ih =>
    cases proper with
    | file segment other rest =>
      obtain ⟨before, after⟩ := ih rest
      exact ⟨.file segment (fun node mem => other node (List.mem_append_left _ mem)) before, after⟩
    | folder segment other some inside rest =>
      obtain ⟨before, after⟩ := ih rest
      exact ⟨.folder segment (fun node mem => other node (List.mem_append_left _ mem)) some inside before, after⟩

theorem Proper.filesIn_eq {level : List NavNode} (proper : Proper level) {folder : String}
    (nonempty : folder ≠ "") : filesIn folder level = (filesIn "" level).map (pathIn folder) := by
  induction proper generalizing folder with
  | nil => rfl
  | file segment _ _ ih =>
    rw [filesIn, filesIn, nodeFiles, nodeFiles, ih nonempty, pathIn_empty]
    rfl
  | folder segment _ _ _ _ inside ih =>
    rw [filesIn, filesIn, nodeFiles, nodeFiles, ih nonempty, pathIn_empty, List.map_append,
      inside segment.1, inside (pathIn_ne_empty folder segment.1), List.map_map]
    refine congrArg (· ++ _) (List.map_congr_left fun path _ => ?_)
    exact pathIn_pathIn segment.1 folder path

theorem Proper.filesIn_ne_nil {level : List NavNode} (proper : Proper level) (some : level ≠ [])
    (folder : String) : filesIn folder level ≠ [] := by
  induction proper generalizing folder with
  | nil => exact absurd rfl some
  | file => exact List.cons_ne_nil _ _
  | folder _ _ nonempty _ _ inside _ =>
    rw [filesIn, nodeFiles]
    exact List.append_ne_nil_of_left_ne_nil (inside nonempty _) _

theorem Proper.topOf_eq {node : NavNode} (proper : Proper [node]) {path : String}
    (mem : path ∈ nodeFiles "" node) : topOf path = node.name.toList := by
  cases proper with
  | file segment =>
    obtain rfl := List.mem_singleton.mp mem
    exact topOf_of_segment segment
  | folder segment _ _ inside =>
    rw [nodeFiles, pathIn_empty, inside.filesIn_eq segment.1] at mem
    obtain ⟨rest, _, rfl⟩ := List.mem_map.mp mem
    have starts := topOf_of_starts segment (prefix_pathIn segment.1 rest)
    exact starts

/-! ### Putting a page into the tree -/

theorem named?_eq_none {level : List NavNode} {name : String} (none : named? level name = none) :
    ∀ node ∈ level, node.name ≠ name := by
  intro node mem same
  exact absurd (List.find?_eq_none.mp none node mem) (by simp [same])

theorem named?_eq_some {level : List NavNode} {name : String} {node : NavNode}
    (found : named? level name = some node) : node.name = name ∧
      ∃ before after, level = before ++ node :: after ∧ ∀ other ∈ before, other.name ≠ name := by
  obtain ⟨same, before, after, shape, apart⟩ := List.find?_eq_some_iff_append.mp found
  exact ⟨by simpa using same, before, after, shape, fun other mem => by simpa using apart other mem⟩

theorem putChildren_last {before : List NavNode} {name : String}
    (apart : ∀ node ∈ before, node.name ≠ name) (old children : List NavNode) :
    putChildren (before ++ [.folder name old]) name children = before ++ [.folder name children] := by
  have kept : before.map (fun node => if node.name == name then .folder name children else node) = before := by
    refine (List.map_congr_left fun node mem => ?_).trans (List.map_id before)
    simp [apart node mem]
  rw [putChildren, List.map_append, kept]
  simp [NavNode.name]

/-- A folder that a later path goes through is the last of its siblings: the files of any sibling behind it
would stand between two paths of the folder. -/
theorem Proper.last_of_sorted {before after children : List NavNode} {name path : String}
    (proper : Proper (before ++ .folder name children :: after))
    (sorted : (filesIn "" (before ++ .folder name children :: after) ++ [pathIn name path]).Pairwise (· < ·)) :
    after = [] := by
  obtain ⟨_, here⟩ := proper.of_append
  cases here with
  | folder segment other some inside rest =>
    cases after with
    | nil => rfl
    | cons node after =>
      obtain ⟨first, mem⟩ := List.exists_mem_of_ne_nil _ (inside.filesIn_ne_nil some "")
      have single : Proper [node] := (Proper.of_append (show Proper ([node] ++ after) from rest)).1
      have someNode : nodeFiles "" node ≠ [] := by
        rw [← filesIn_singleton]
        exact single.filesIn_ne_nil (List.cons_ne_nil _ _) ""
      obtain ⟨second, between⟩ := List.exists_mem_of_ne_nil _ someNode
      -- `first` is in the folder and `second` in the sibling behind it.
      have ordered : [pathIn name first, second, pathIn name path].Pairwise (· < ·) := by
        have firstIn : [pathIn name first].Sublist (nodeFiles "" (.folder name children)) := by
          rw [nodeFiles, pathIn_empty, inside.filesIn_eq segment.1, List.singleton_sublist]
          exact List.mem_map_of_mem mem
        have secondIn : [second].Sublist (filesIn "" (node :: after)) := by
          rw [filesIn, List.singleton_sublist]
          exact List.mem_append_left _ between
        refine sorted.sublist ?_
        rw [filesIn_append, filesIn]
        exact ((firstIn.append secondIn).trans (List.sublist_append_right _ _)).append (.refl _)
      simp only [List.pairwise_cons, List.mem_cons, List.not_mem_nil, or_false, forall_eq_or_imp, forall_eq,
        String.lt_iff_toList_lt] at ordered
      have starts := prefix_pathIn segment.1
      have same := topOf_of_starts segment
        (Text.prefix_of_between (starts first) (starts path) ordered.1.1 ordered.2.1)
      rw [single.topOf_eq between] at same
      exact absurd (String.toList_injective same) (other node List.mem_cons_self)

theorem Proper.filesIn_concat {children : List NavNode} (inside : Proper children) {name : String}
    (nonempty : name ≠ "") (before : List NavNode) :
    filesIn "" (before ++ [.folder name children]) =
      filesIn "" before ++ (filesIn "" children).map (pathIn name) := by
  rw [filesIn_append, filesIn_singleton, nodeFiles, pathIn_empty, inside.filesIn_eq nonempty]

/-- In the last folder the files come before a later path through it. -/
theorem Proper.sorted_inside {before children : List NavNode} (inside : Proper children) {name path : String}
    (nonempty : name ≠ "")
    (sorted : (filesIn "" (before ++ [.folder name children]) ++ [pathIn name path]).Pairwise (· < ·)) :
    (filesIn "" children ++ [path]).Pairwise (· < ·) := by
  have part : ((filesIn "" children ++ [path]).map (pathIn name)).Pairwise (· < ·) := by
    refine sorted.sublist ?_
    rw [inside.filesIn_concat nonempty, List.map_append, List.append_assoc]
    exact List.sublist_append_right _ _
  rw [List.pairwise_map] at part
  exact part.imp (pathIn_lt_pathIn_iff nonempty).mp

/-- A path that comes after all others becomes the last file. -/
theorem files_insert {path : String} {names : List String} (some : names ≠ [])
    (segments : ∀ name ∈ names, IsSegment name) {passed : List String} {level next : List NavNode}
    (proper : Proper level) (sorted : (filesIn "" level ++ [pathOf names]).Pairwise (· < ·))
    (inserted : insert path passed names level = .ok next) :
    Proper next ∧ next ≠ [] ∧ filesIn "" next = filesIn "" level ++ [pathOf names] := by
  induction names generalizing passed level next with
  | nil => exact absurd rfl some
  | cons name names ih =>
    obtain ⟨segment, others⟩ := List.forall_mem_cons.mp segments
    cases names with
    | nil =>
      rw [insert] at inserted
      split at inserted
      · rename_i fresh
        cases inserted
        refine ⟨proper.concat (.file segment (by simp) .nil) (named?_eq_none fresh), by simp, ?_⟩
        rw [filesIn_append, filesIn_singleton, nodeFiles, pathIn_empty, pathOf_singleton]
      · rename_i other found
        -- The file is there already, so its path is not after all others.
        obtain ⟨same, before, after, rfl, _⟩ := named?_eq_some found
        obtain rfl : other = name := same
        have listed : pathOf [other] ∈ filesIn "" (before ++ .file other :: after) := by
          rw [filesIn_append, filesIn, nodeFiles, pathIn_empty, pathOf_singleton]
          simp
        exact absurd ((List.pairwise_append.mp sorted).2.2 _ listed _ (List.mem_singleton_self _))
          (lt_irrefl _)
      · cases inserted
    | cons second more =>
      rw [pathOf_cons_cons segment.1] at sorted ⊢
      rw [insert] at inserted
      split at inserted
      · rename_i fresh
        obtain ⟨children, added, rfl⟩ := map_eq_ok_iff.mp inserted
        obtain ⟨inside, nonempty, files⟩ := ih (List.cons_ne_nil _ _) others .nil (by simp [filesIn]) added
        refine ⟨proper.concat (.folder segment (by simp) nonempty inside .nil) (named?_eq_none fresh), by simp, ?_⟩
        rw [inside.filesIn_concat segment.1, files]
        rfl
      · cases inserted
      · rename_i other old found
        obtain ⟨same, before, after, rfl, apart⟩ := named?_eq_some found
        obtain rfl : other = name := same
        obtain rfl := proper.last_of_sorted sorted
        obtain ⟨children, added, rfl⟩ := map_eq_ok_iff.mp inserted
        obtain ⟨earlier, here⟩ := proper.of_append
        cases here with
        | folder _ _ _ before' _ =>
          obtain ⟨inside, nonempty, files⟩ :=
            ih (List.cons_ne_nil _ _) others before' (before'.sorted_inside segment.1 sorted) added
          rw [putChildren_last apart]
          refine ⟨earlier.concat (.folder segment (by simp) nonempty inside .nil) apart, by simp, ?_⟩
          rw [inside.filesIn_concat segment.1, before'.filesIn_concat segment.1, files, List.map_append,
            List.append_assoc]
          rfl

/-- The segments of a plain path are its names. -/
theorem segments_of_isPlain {path : String} (plain : PagePath.IsPlain path.toList) :
    segments path ≠ [] ∧ (∀ name ∈ segments path, IsSegment name) ∧ pathOf (segments path) = path := by
  have nonempty : ∀ segment ∈ path.toList.splitOn '/', (!segment.isEmpty) = true := by
    intro segment mem
    simpa using ((PagePath.isPlainName_iff segment).mp (plain segment mem)).1
  have whole : segments path = (path.toList.splitOn '/').map String.ofList := by
    rw [segments, List.filter_eq_self.mpr nonempty]
  refine ⟨?_, ?_, ?_⟩
  · rw [whole, ne_eq, List.map_eq_nil_iff]
    exact List.splitOn_ne_nil _ _
  · intro name mem
    rw [whole] at mem
    obtain ⟨segment, listed, rfl⟩ := List.mem_map.mp mem
    refine ⟨fun empty => ?_, ?_⟩
    · exact absurd (nonempty segment listed) (by simpa using empty)
    · rw [String.toList_ofList]
      exact Text.notMem_of_mem_splitOn listed
  · rw [pathOf, whole, List.map_map]
    have same : String.toList ∘ String.ofList = id := funext fun _ => String.toList_ofList
    rw [same, List.map_id, List.intercalate_splitOn, String.ofList_toList]

/-- Pages put into a tree in the order of their paths are listed in that order. -/
theorem files_foldlM {paths : List String} (plain : ∀ path ∈ paths, PagePath.IsPlain path.toList)
    {level tree : List NavNode} (proper : Proper level)
    (sorted : (filesIn "" level ++ paths).Pairwise (· < ·))
    (built : paths.foldlM (fun level path => insert path [] (segments path) level) level = .ok tree) :
    Proper tree ∧ files tree = filesIn "" level ++ paths := by
  induction paths generalizing level with
  | nil =>
    cases built
    exact ⟨proper, (List.append_nil _).symm⟩
  | cons path paths ih =>
    obtain ⟨first, plain⟩ := List.forall_mem_cons.mp plain
    obtain ⟨some, names, same⟩ := segments_of_isPlain first
    rw [List.foldlM_cons] at built
    obtain ⟨next, inserted, built⟩ := ok_of_bind_eq_ok built
    rw [List.append_cons] at sorted
    have earlier : (filesIn "" level ++ [pathOf (segments path)]).Pairwise (· < ·) := by
      rw [same]
      exact sorted.sublist (List.sublist_append_left _ _)
    obtain ⟨proper, _, grown⟩ := files_insert some names proper earlier inserted
    rw [same] at grown
    have whole := ih plain proper (grown ▸ sorted) built
    rwa [grown, List.append_assoc] at whole

theorem files_ofPaths {paths : List String} (plain : ∀ path ∈ paths, PagePath.IsPlain path.toList)
    (sorted : paths.Pairwise (· < ·)) {tree : List NavNode} (built : ofPaths paths = .ok tree) :
    files tree = paths :=
  (files_foldlM plain .nil sorted built).2

/-! ### Links of the tree -/

def linkTo? : Tag Char → Option (List Char)
  | .opening name attributes =>
    if name = "a".toList then
      attributes.findSome? fun entry => if entry.name = "href".toList then entry.value else none
    else none
  | _ => none

def isMarked : Tag Char → Bool
  | .opening _ attributes => attributes.any fun entry =>
      entry.name == "class".toList && ((entry.value.getD []).splitOn ' ').contains "current-file".toList
  | _ => false

/-- The address of the page at `path`, from a page that has `toRoot` to go up. -/
def address (toRoot path : String) : List Char :=
  toRoot.toList ++ path.toList ++ ".html".toList

variable {toRoot current path : String}

theorem links_linkStart (toRoot : String) (current : Option String) (path : String) :
    (linkStart toRoot current path).filterMap linkTo? = [address toRoot path] := by
  have item : ∀ attributes, linkTo? (.opening "li".toList attributes) = none := by simp [linkTo?]
  have anchor : linkTo? (.opening "a".toList [⟨"href".toList, some (address toRoot path)⟩]) =
      some (address toRoot path) := by
    simp [linkTo?]
  rw [linkStart, List.filterMap_cons_none (item _)]
  exact List.filterMap_cons_some anchor

mutual

theorem links_nodeTags (toRoot : String) (current : Option String) (folder : String) : (node : NavNode) →
    (nodeTags toRoot current folder node).filterMap linkTo? = (nodeFiles folder node).map (address toRoot)
  | .file name => by
    rw [nodeTags, List.filterMap_append, links_linkStart, nodeFiles]
    rfl
  | .folder name children => by
    rw [nodeTags, nodeFiles, List.filterMap_append, List.filterMap_append,
      links_levelTags toRoot current (pathIn folder name) children]
    exact List.append_nil _

theorem links_levelTags (toRoot : String) (current : Option String) (folder : String) :
    (level : List NavNode) →
      (levelTags toRoot current folder level).filterMap linkTo? = (filesIn folder level).map (address toRoot)
  | [] => rfl
  | node :: nodes => by
    rw [levelTags, filesIn, List.filterMap_append, List.map_append,
      links_nodeTags toRoot current folder node, links_levelTags toRoot current folder nodes]

end

theorem countP_linkStart (toRoot current path : String) :
    (linkStart toRoot (some current) path).countP isMarked = [path].count current := by
  have anchor : ∀ value, isMarked (.opening "a".toList [⟨"href".toList, some value⟩]) = false := by
    simp [isMarked]
  have marked : isMarked (.opening "li".toList [⟨"class".toList, some "current-file".toList⟩]) = true := by
    decide
  rw [linkStart, List.countP_cons, List.countP_singleton, anchor, List.count_singleton]
  by_cases same : path = current
  · subst same
    rw [if_pos BEq.rfl, marked]
    simp
  · have other : (some current == some path) = false := by simp [Ne.symm same]
    rw [other]
    simp [same, isMarked]

mutual

theorem countP_nodeTags (toRoot current folder : String) : (node : NavNode) →
    (nodeTags toRoot (some current) folder node).countP isMarked = (nodeFiles folder node).count current
  | .file name => by
    rw [nodeTags, nodeFiles, List.countP_append, countP_linkStart]
    rfl
  | .folder name children => by
    have starts : (folderStart ++ [Tag.closing "span".toList, .opening "ul".toList []]).countP isMarked = 0 := by
      decide
    rw [nodeTags, nodeFiles, List.countP_append, List.countP_append, starts,
      countP_levelTags toRoot current (pathIn folder name) children, Nat.zero_add]
    rfl

theorem countP_levelTags (toRoot current folder : String) : (level : List NavNode) →
    (levelTags toRoot (some current) folder level).countP isMarked = (filesIn folder level).count current
  | [] => rfl
  | node :: nodes => by
    rw [levelTags, filesIn, List.countP_append, List.count_append,
      countP_nodeTags toRoot current folder node, countP_levelTags toRoot current folder nodes]

end

mutual

theorem infix_nodeTags (toRoot : String) (current : Option String) {folder path : String} :
    (node : NavNode) → path ∈ nodeFiles folder node →
      linkStart toRoot current path <:+: nodeTags toRoot current folder node
  | .file name => by
    intro mem
    obtain rfl := List.mem_singleton.mp mem
    exact (List.prefix_append _ _).isInfix
  | .folder name children => by
    intro mem
    exact (infix_levelTags toRoot current children mem).trans ⟨_, _, rfl⟩

theorem infix_levelTags (toRoot : String) (current : Option String) {folder path : String} :
    (level : List NavNode) → path ∈ filesIn folder level →
      linkStart toRoot current path <:+: levelTags toRoot current folder level
  | [] => fun mem => absurd mem List.not_mem_nil
  | node :: nodes => by
    intro mem
    rcases List.mem_append.mp mem with here | later
    · exact (infix_nodeTags toRoot current node here).trans (List.prefix_append _ _).isInfix
    · exact (infix_levelTags toRoot current nodes later).trans (List.suffix_append _ _).isInfix

end

theorem tags_eq (tree : List NavNode) (current : String) :
    tags tree (some current) = .opening "ul".toList [] ::
      (levelTags (PagePath.toRoot current) (some current) "" tree ++ [.closing "ul".toList]) :=
  rfl

theorem links_tags (tree : List NavNode) (current : String) :
    (tags tree (some current)).filterMap linkTo? = (files tree).map (address (PagePath.toRoot current)) := by
  rw [tags_eq, List.filterMap_cons_none (by decide), List.filterMap_append, links_levelTags]
  exact List.append_nil _

/-- A page that is in the tree once is marked once, at its link. -/
theorem exists_marked {tree : List NavNode} {current : String} (once : (files tree).count current = 1) :
    ∃ before after, tags tree (some current) =
      before ++ linkStart (PagePath.toRoot current) (some current) current ++ after ∧
      ∀ tag ∈ before ++ after, isMarked tag = false := by
  have mem : current ∈ files tree := List.count_pos_iff.mp (by omega)
  have link : linkStart (PagePath.toRoot current) (some current) current <:+: tags tree (some current) :=
    (infix_levelTags _ _ tree mem).trans ⟨[.opening "ul".toList []], [.closing "ul".toList], rfl⟩
  obtain ⟨before, after, shape⟩ := link
  have marks : (tags tree (some current)).countP isMarked = 1 := by
    rw [tags_eq, List.countP_cons, List.countP_append, countP_levelTags]
    exact once
  refine ⟨before, after, shape.symm, ?_⟩
  rw [← shape, List.countP_append, List.countP_append, countP_linkStart, List.count_singleton_self] at marks
  have none : (before ++ after).countP isMarked = 0 := by
    rw [List.countP_append]
    omega
  simpa using List.countP_eq_zero.mp none

/-! ### Where the links lead -/

theorem foldl_follow_above (up : Nat) (place : Place) :
    (List.replicate up DiskPath.above).foldl DiskPath.follow place = place.take (place.length - up) := by
  induction up generalizing place with
  | zero => simp
  | succ up ih =>
    rw [List.replicate_succ, List.foldl_cons, ih]
    have step : DiskPath.follow place DiskPath.above = place.dropLast := rfl
    rw [step, List.dropLast_eq_take, List.take_take, List.length_take]
    congr 1
    omega

def folderOf (path : String) : Place :=
  (DiskPath.ofString path).steps.dropLast

/-- From the folder of a page, wherever the site is, the address of another page leads to that page. -/
theorem foldl_follow_address (current : String) {path : String} (plain : PagePath.IsPlain path.toList)
    (root : Place) :
    (DiskPath.ofString (String.ofList (address (PagePath.toRoot current) path))).steps.foldl DiskPath.follow
      (root ++ folderOf current) = root ++ (DiskPath.ofString (path ++ ".html")).steps := by
  have up : Text.encodeUtf8 ['.', '.'] = DiskPath.above := rfl
  have file : PagePath.IsPlain (path ++ ".html").toList := by
    rw [String.toList_append]
    exact plain.append (by decide) (by decide) (by decide) (by decide)
  have steps : (DiskPath.ofString (String.ofList (address (PagePath.toRoot current) path))).steps =
      List.replicate (PagePath.depth current) DiskPath.above ++ (DiskPath.ofString (path ++ ".html")).steps := by
    rw [DiskPath.steps_ofString, DiskPath.steps_ofString, String.toList_ofList, String.toList_append, address,
      PagePath.toRoot, String.toList_join, List.append_assoc, PagePath.splitOn_toRoot, List.map_append,
      List.map_replicate, up]
  have deep : (folderOf current).length = PagePath.depth current := by
    rw [folderOf, List.length_dropLast, DiskPath.steps_ofString, List.length_map, Text.length_splitOn,
      Nat.add_sub_cancel, PagePath.depth]
  rw [steps, List.foldl_append, foldl_follow_above, List.length_append, deep, Nat.add_sub_cancel,
    List.take_left, DiskPath.foldl_follow_of_names (DiskPath.isName_of_mem_steps file)]

end NavNode

/-! ### The tree of a plan -/

namespace Plan

variable {graph : Graph} {pages : PageMap} {plan : Plan}

theorem sorted_paths (planned : ofGraph graph pages = .ok plan) : plan.paths.Pairwise (· < ·) := by
  have once := (ofGraph_paths planned).1
  unfold ofGraph at planned
  obtain ⟨final, _, rfl⟩ := map_eq_ok_iff.mp planned
  have ordered : (final.documents.mergeSort fun a b => decide (a.path ≤ b.path)).Pairwise
      fun a b => decide (a.path ≤ b.path) = true := by
    refine List.pairwise_mergeSort ?_ ?_ _
    · intro a b c first second
      simp only [decide_eq_true_eq] at first second ⊢
      exact le_trans first second
    · intro a b
      simpa using le_total a.path b.path
  have ordered : (final.documents.mergeSort fun a b => decide (a.path ≤ b.path)).Pairwise
      fun a b => a.path ≤ b.path := ordered.imp of_decide_eq_true
  rw [paths, List.Nodup, List.pairwise_map] at once
  rw [paths, List.pairwise_map]
  exact (ordered.and once).imp fun both => lt_of_le_of_ne both.1 both.2

theorem isPlain_of_mem_paths (planned : ofGraph graph pages = .ok plan) {path : String}
    (mem : path ∈ plan.paths) : PagePath.IsPlain path.toList := by
  obtain ⟨entry, _, mapped⟩ := ((ofGraph_paths planned).2 path).mp mem
  exact PagePath.isPlain_of_isContained (PageMap.isContained_of_path? mapped)

end Plan

namespace NavNode

/-- The tree of a plan has the planned paths as its files, in the order of their bytes. On the page at `current` it links
them in the same order; each address leads from the folder of that page to the page it names, and only the item
of the page itself is marked. -/
theorem nav_lists_pages (decoder : Decoder) {graph : Graph} {pages : PageMap} {plan : Plan}
    {tree : List NavNode} (planned : Plan.ofGraph graph pages = .ok plan) (built : ofPaths plan.paths = .ok tree) :
    files tree = plan.paths ∧ (plan.paths.map Text.bytesOf).Pairwise (· < ·) ∧
    ∀ current ∈ plan.paths, ∃ tags, decoder.tags? (render tree (some current)) = some tags ∧
      tags.filterMap linkTo? = plan.paths.map (address (PagePath.toRoot current)) ∧
      (∀ path ∈ plan.paths, ∀ root : Place,
        (DiskPath.ofString (String.ofList (address (PagePath.toRoot current) path))).steps.foldl DiskPath.follow
          (root ++ folderOf current) = root ++ (DiskPath.ofString (path ++ ".html")).steps) ∧
      ∃ before after, tags = before ++ [.opening "li".toList [⟨"class".toList, some "current-file".toList⟩],
          .opening "a".toList [⟨"href".toList, some (address (PagePath.toRoot current) current)⟩]] ++ after ∧
        ∀ tag ∈ before ++ after, isMarked tag = false := by
  have plain : ∀ path ∈ plan.paths, PagePath.IsPlain path.toList :=
    fun path => Plan.isPlain_of_mem_paths planned
  have sorted := Plan.sorted_paths planned
  have same := files_ofPaths plain sorted built
  have bytes : (plan.paths.map Text.bytesOf).Pairwise (· < ·) :=
    List.pairwise_map.mpr (sorted.imp Text.bytesOf_lt)
  refine ⟨same, bytes, fun current mem => ⟨tags tree (some current), tags?_render tree (some current), ?_, ?_, ?_⟩⟩
  · rw [links_tags, same]
  · exact fun path listed root => foldl_follow_address current (plain path listed) root
  · have once : (files tree).count current = 1 := by
      rw [same]
      exact List.count_eq_one_of_mem (sorted.imp ne_of_lt) mem
    obtain ⟨before, after, shape, others⟩ := exists_marked once
    refine ⟨before, after, ?_, others⟩
    rw [shape, linkStart, if_pos BEq.rfl]
    rfl

/-- The documents of a folder, between two whose paths start with its name. -/
def folderDump : List Element :=
  [⟨.ofNat 1, .vertex (.metaData ⟨"file:///r", none, none⟩)⟩,
    ⟨.ofNat 2, .vertex (.document ⟨"file:///r/a/c", ""⟩)⟩,
    ⟨.ofNat 3, .vertex (.document ⟨"file:///r/a0", ""⟩)⟩,
    ⟨.ofNat 4, .vertex (.document ⟨"file:///r/a/b&", ""⟩)⟩,
    ⟨.ofNat 5, .vertex (.document ⟨"file:///r/a-b", ""⟩)⟩]

theorem paths_folderDump {graph : Graph} {plan : Plan} (built : Graph.ofElements folderDump = .ok graph)
    (planned : Plan.ofGraph graph (.ofRoot "file:///r" .empty) = .ok plan) :
    plan.paths = ["a-b", "a/b&", "a/c", "a0"] := by
  have read : (folderDump.filterMap Element.document?).map
      (fun entry => (PageMap.ofRoot "file:///r" .empty).path? entry.2.uri) =
      [some "a/c", some "a0", some "a/b&", some "a-b"] := by decide
  obtain ⟨once, listed⟩ := Plan.ofGraph_paths planned
  have members : ∀ path, path ∈ plan.paths ↔ path ∈ ["a-b", "a/b&", "a/c", "a0"] := by
    intro path
    have mapped : Plan.Mapped (.ofRoot "file:///r" .empty) (folderDump.filterMap Element.document?) path ↔
        some path ∈ [some "a/c", some "a0", some "a/b&", some "a-b"] := by
      rw [← read, List.mem_map, Plan.Mapped]
    rw [listed, (Graph.describes_of_ofElements built).documents, mapped]
    simp only [List.mem_cons, Option.some.injEq, List.not_mem_nil, or_false]
    tauto
  have sorted : ["a-b", "a/b&", "a/c", "a0"].Pairwise (· < ·) := by decide
  refine List.Perm.eq_of_pairwise (fun a b _ _ first second => absurd second (lt_asymm first))
    (Plan.sorted_paths planned) sorted ?_
  exact (List.perm_ext_iff_of_nodup once (by decide)).mpr members

/-- In the order of their paths, the documents of the folder stand after `a-b` and before `a0`. -/
theorem nav_lists_pages_folderDump : ∃ graph plan tree, Graph.ofElements folderDump = .ok graph ∧
    Plan.ofGraph graph (.ofRoot "file:///r" .empty) = .ok plan ∧ ofPaths plan.paths = .ok tree ∧
    files tree = ["a-b", "a/b&", "a/c", "a0"] ∧
    ∃ tags, Decoder.basic.tags? (render tree (some "a/c")) = some tags ∧
      tags.filterMap linkTo? =
        ["../a-b.html", "../a/b&.html", "../a/c.html", "../a0.html"].map String.toList := by
  obtain ⟨graph, built⟩ := exists_eq_ok (show (Graph.ofElements folderDump).isOk = true by decide)
  obtain ⟨plan, planned⟩ : ∃ plan, Plan.ofGraph graph (.ofRoot "file:///r" .empty) = .ok plan := by
    apply exists_eq_ok
    unfold Plan.ofGraph
    rw [(Graph.describes_of_ofElements built).documents]
    decide
  have paths := paths_folderDump built planned
  obtain ⟨tree, grown⟩ : ∃ tree, ofPaths plan.paths = .ok tree := by
    apply exists_eq_ok
    rw [paths]
    decide
  obtain ⟨listed, _, links⟩ := nav_lists_pages Decoder.basic planned grown
  rw [paths] at listed links
  obtain ⟨tags, read, linked, _⟩ := links "a/c" (by decide)
  exact ⟨graph, plan, tree, built, planned, grown, listed, tags, read, linked.trans (by decide)⟩

end NavNode

end CodeAtlas
