import CodeAtlas.Proofs.Address.Containment
import CodeAtlas.Proofs.Text.Percent

/-!
# Paths that stay below a folder

A path is normalised by its text alone: steps that lead nowhere go, and a step up takes back the name before
it. However the URI of a document is spelled, the files of its page are below the output folder once their
paths are normalised, with one folder between for each slash of the page's path
(`PageMap.mapped_path_below`).
-/

namespace CodeAtlas

open DiskPath (Step IsName)

/-- A path without idle steps, in which steps up stand only at the start of a relative path. -/
structure NormalPath where
  absolute : Bool
  steps : List Step
  deriving DecidableEq, Repr

namespace NormalPath

/-- The folder above. There is none above the top of the disk, and above the start of a relative path there
is nothing to take back. -/
def up (path : NormalPath) : NormalPath :=
  match path.steps.getLast? with
  | none => if path.absolute then path else { path with steps := [DiskPath.above] }
  | some last =>
    if last = DiskPath.above then { path with steps := path.steps ++ [DiskPath.above] }
    else { path with steps := path.steps.dropLast }

def follow (path : NormalPath) (step : Step) : NormalPath :=
  if DiskPath.isIdle step then path
  else if step = DiskPath.above then path.up
  else { path with steps := path.steps ++ [step] }

def below (path : NormalPath) (names : List Step) : NormalPath :=
  { path with steps := path.steps ++ names }

theorem below_nil (path : NormalPath) : path.below [] = path := by
  simp [below]

theorem below_append (path : NormalPath) (first second : List Step) :
    path.below (first ++ second) = (path.below first).below second := by
  simp [below]

theorem follow_name {step : Step} (name : IsName step) (path : NormalPath) :
    path.follow step = path.below [step] := by
  rw [follow, if_neg (by simp [name.1]), if_neg name.2, below]

theorem foldl_follow_names {names : List Step} (isName : ∀ step ∈ names, IsName step) (path : NormalPath) :
    names.foldl follow path = path.below names := by
  induction names generalizing path with
  | nil => exact (below_nil path).symm
  | cons step names ih =>
    obtain ⟨first, rest⟩ := List.forall_mem_cons.mp isName
    rw [List.foldl_cons, follow_name first, ih rest, ← below_append, List.singleton_append]

theorem follow_above_below {name : Step} (isName : IsName name) (path : NormalPath) :
    (path.below [name]).follow DiskPath.above = path := by
  have busy : DiskPath.isIdle DiskPath.above = false := by decide
  rw [follow, if_neg (by simp [busy]), if_pos rfl, up]
  simp [below, isName.2]

/-- As many steps up as there are names lead back. -/
theorem foldl_above_below {names : List Step} (isName : ∀ step ∈ names, IsName step) (path : NormalPath) :
    (List.replicate names.length DiskPath.above).foldl follow (path.below names) = path := by
  induction names generalizing path with
  | nil => exact below_nil path
  | cons name names ih =>
    obtain ⟨first, rest⟩ := List.forall_mem_cons.mp isName
    have split : path.below (name :: names) = (path.below [name]).below names := by
      rw [← below_append, List.singleton_append]
    rw [split, List.length_cons, List.replicate_succ', List.foldl_append, ih rest, List.foldl_cons, List.foldl_nil,
      follow_above_below first]

end NormalPath

namespace DiskPath

/-- The path as it stands once it is normalised, without a look at any disk. -/
def normalise (path : DiskPath) : NormalPath :=
  path.steps.foldl NormalPath.follow ⟨path.isAbsolute, []⟩

theorem normalise_child (path : DiskPath) {name : String} (plain : PagePath.IsPlain name.toList) :
    (path.child name).normalise = path.normalise.below (ofString name).steps := by
  have names := isName_of_mem_steps plain
  have relative := isAbsolute_of_names names
  rw [normalise, child, foldl_join (fun _ => rfl) path relative, isAbsolute_join path relative,
    NormalPath.foldl_follow_names names, normalise]

theorem steps_toRoot (path : String) :
    (ofString (PagePath.toRoot path)).steps = List.replicate (PagePath.depth path) above ++ [[]] := by
  have split := PagePath.splitOn_toRoot (PagePath.depth path) []
  rw [List.append_nil] at split
  rw [steps_ofString, PagePath.toRoot, String.toList_join, split, List.map_append, List.map_replicate]
  rfl

theorem length_dropLast_steps (path : String) :
    (ofString path).steps.dropLast.length = PagePath.depth path := by
  rw [List.length_dropLast, steps_ofString, List.length_map, Text.length_splitOn, Nat.add_sub_cancel,
    PagePath.depth]

/-- The file of a path with an extension is in the folders of the path. -/
theorem exists_steps_append (path : String) {suffix : String} (flat : '/' ∉ suffix.toList)
    (plain : PagePath.IsPlain (path ++ suffix).toList) :
    ∃ file, IsName file ∧ (ofString (path ++ suffix)).steps = (ofString path).steps.dropLast ++ [file] := by
  obtain ⟨before, last, whole, longer⟩ := PagePath.splitOn_append_suffix path.toList flat
  have folders : (ofString path).steps.dropLast = before.map Text.encodeUtf8 := by
    rw [steps_ofString, whole, List.map_append, List.map_singleton, List.dropLast_concat]
  have steps : (ofString (path ++ suffix)).steps =
      (ofString path).steps.dropLast ++ [Text.encodeUtf8 (last ++ suffix.toList)] := by
    rw [folders, steps_ofString, String.toList_append, longer, List.map_append, List.map_singleton]
  exact ⟨_, isName_of_mem_steps plain _ (steps ▸ by simp), steps⟩

/-- From the folder that `folders` lead to, the way up leads back. -/
theorem foldl_toRoot {path : String} {folders : List Step} (isName : ∀ step ∈ folders, IsName step)
    (deep : folders.length = PagePath.depth path) (output : NormalPath) :
    (ofString (PagePath.toRoot path)).steps.foldl NormalPath.follow (output.below folders) = output := by
  rw [steps_toRoot, List.foldl_append, ← deep, NormalPath.foldl_above_below isName]
  rfl

end DiskPath

namespace PagePath

/-- A text of plain segments has something at its ends that is no slash. -/
theorem IsPlain.ends {path : List Char} (plain : IsPlain path) :
    path ≠ [] ∧ path.head? ≠ some '/' ∧ path.getLast? ≠ some '/' := by
  have filled : [] ∉ path.splitOn '/' := by
    intro mem
    exact ((isPlainName_iff []).mp (plain [] mem)).1 rfl
  refine ⟨?_, fun starts => ?_, fun stops => ?_⟩
  · rintro rfl
    exact filled (by simp)
  · obtain ⟨rest, rfl⟩ := List.head?_eq_some_iff.mp starts
    exact filled (by simp [List.splitOn_cons_eq_if_modifyHead])
  · obtain ⟨before, rfl⟩ := List.getLast?_eq_some_iff.mp stops
    exact filled (by simp [List.splitOn_append_cons_self])

theorem IsPlain.of_mem_files {path name : String} (plain : IsPlain path.toList)
    (mem : name ∈ [s!"{path}.html", s!"{path}.hover.json"]) :
    ∃ suffix : String, name = path ++ suffix ∧ '/' ∉ suffix.toList ∧ IsPlain (path ++ suffix).toList := by
  simp only [List.mem_cons, List.not_mem_nil, or_false] at mem
  rcases mem with rfl | rfl
  · refine ⟨".html", rfl, by decide, ?_⟩
    rw [String.toList_append]
    exact plain.append (by decide) (by decide) (by decide) (by decide)
  · refine ⟨".hover.json", rfl, by decide, ?_⟩
    rw [String.toList_append]
    exact plain.append (by decide) (by decide) (by decide) (by decide)

end PagePath

/-! ### Spelling a path as a URI -/

namespace PageMap

theorem dropWhile_slash_escapePercents {path : List Char} (starts : path.head? ≠ some '/') :
    (Text.escapePercents path).dropWhile (· == '/') = Text.escapePercents path := by
  cases path with
  | nil => rfl
  | cons c path =>
    have other : c ≠ '/' := by simpa using starts
    by_cases sign : c = '%'
    · simp [Text.escapePercents, sign]
    · simp [Text.escapePercents, sign, other]

theorem getLast?_escapePercents {path : List Char} (stops : path.getLast? ≠ some '/') :
    (Text.escapePercents path).getLast? ≠ some '/' := by
  rcases List.eq_nil_or_concat path with rfl | ⟨before, c, rfl⟩
  · simp [Text.escapePercents]
  · have other : c ≠ '/' := by simpa using stops
    by_cases sign : c = '%'
    · simp [Text.escapePercents, sign]
    · simp [Text.escapePercents, sign, other]

/-- A contained path is that of the document with its own text, escaped, below the root. -/
theorem path?_escapePercents (root : String) {path : String} (contained : PagePath.isContained path.toList = true) :
    path? ⟨root, .empty⟩ (root ++ String.ofList (Text.escapePercents path.toList)) = some path := by
  obtain ⟨nonempty, starts, stops⟩ := (PagePath.isPlain_of_isContained contained).ends
  have target : target? ⟨root, .empty⟩ (root ++ String.ofList (Text.escapePercents path.toList)) =
      some (Text.escapePercents path.toList) := by
    have cut : Text.dropRun? root.toList (root ++ String.ofList (Text.escapePercents path.toList)).toList =
        some (Text.escapePercents path.toList) := by
      rw [Text.dropRun?_eq_some_iff, String.toList_append, String.toList_ofList]
    exact cut
  have filled : Text.escapePercents path.toList ≠ [] := by
    obtain ⟨c, rest, shape⟩ := List.exists_cons_of_ne_nil nonempty
    by_cases sign : c = '%' <;> simp [Text.escapePercents, shape, sign]
  have decoded : Text.decodeUtf8? (Text.percentDecode (Text.encodeUtf8 (Text.escapePercents path.toList))) =
      some path := by
    rw [Text.percentDecode_escapePercents, Text.decodeUtf8?_encodeUtf8, String.ofList_toList]
  simp only [path?, target, Option.bind_eq_bind, Option.bind_some, dropWhile_slash_escapePercents starts]
  rw [if_neg (by simpa [filled] using getLast?_escapePercents stops), decoded]
  exact if_pos contained

/-- The path of a page consists of plain names, however its document's URI and the table are spelled. So the
files of the page are below the output folder, whatever that is, with as many folders between as the path has
slashes; and the way up from the page's folder leads to the output folder. Without a table, every path of
plain names of which the first is no drive is the path of some document. -/
theorem mapped_path_below (root : String) (table : UriMap) :
    (∀ uri path, (ofRoot root table).path? uri = some path →
      path ≠ "" ∧ path.toList.head? ≠ some '/' ∧ path.toList.getLast? ≠ some '/' ∧
      (∀ segment ∈ path.toList.splitOn '/', segment ≠ [] ∧ segment ≠ ['.'] ∧ segment ≠ ['.', '.'] ∧
        '\\' ∉ segment ∧ '\x00' ∉ segment) ∧
      ∀ output : DiskPath, ∃ folders, folders.length = PagePath.depth path ∧ (∀ step ∈ folders, IsName step) ∧
        (∀ name ∈ [s!"{path}.html", s!"{path}.hover.json"], ∃ file, IsName file ∧
          (output.child name).normalise = output.normalise.below (folders ++ [file])) ∧
        (DiskPath.ofString (PagePath.toRoot path)).steps.foldl NormalPath.follow
          (output.normalise.below folders) = output.normalise) ∧
    ∀ path, (∃ uri, (ofRoot root .empty).path? uri = some path) ↔ PagePath.isContained path.toList = true := by
  refine ⟨fun uri path mapped => ?_, fun path => ⟨?_, fun contained => ⟨_, path?_escapePercents _ contained⟩⟩⟩
  · have plain := PagePath.isPlain_of_isContained (isContained_of_path? mapped)
    obtain ⟨nonempty, starts, stops⟩ := plain.ends
    refine ⟨fun empty => nonempty (by rw [empty]; rfl), starts, stops, fun segment mem => ?_, fun output => ?_⟩
    · exact (PagePath.isPlainName_iff segment).mp (plain segment mem)
    · have inside : ∀ step ∈ (DiskPath.ofString path).steps.dropLast, IsName step :=
        fun step mem => DiskPath.isName_of_mem_steps plain step ((List.dropLast_sublist _).mem mem)
      have deep := DiskPath.length_dropLast_steps path
      refine ⟨_, deep, inside, fun name mem => ?_, DiskPath.foldl_toRoot inside deep _⟩
      obtain ⟨suffix, rfl, flat, whole⟩ := plain.of_mem_files mem
      obtain ⟨file, isName, steps⟩ := DiskPath.exists_steps_append path flat whole
      exact ⟨file, isName, by rw [DiskPath.normalise_child output whole, steps]⟩
  · rintro ⟨uri, mapped⟩
    exact isContained_of_path? mapped

end PageMap

end CodeAtlas
