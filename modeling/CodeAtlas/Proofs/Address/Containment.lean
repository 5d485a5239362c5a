import CodeAtlas.Address.PagePath
import CodeAtlas.Proofs.Disk.Writing

/-!
# Files below a folder

A name whose segments are plain leads down from any folder, one step for each segment, and never out of
it. The path of a page is such a name, and stays one with an extension. Different names lead to
different places.
-/

namespace CodeAtlas

namespace PagePath

theorem isPlainName_iff (segment : List Char) :
    isPlainName segment = true ↔ segment ≠ [] ∧ segment ≠ ['.'] ∧ segment ≠ ['.', '.'] ∧
      '\\' ∉ segment ∧ '\x00' ∉ segment := by
  simp [isPlainName, and_assoc]

def IsPlain (name : List Char) : Prop :=
  ∀ segment ∈ name.splitOn '/', isPlainName segment = true

instance (name : List Char) : Decidable (IsPlain name) :=
  inferInstanceAs (Decidable (∀ segment ∈ name.splitOn '/', isPlainName segment = true))

theorem isPlain_of_isContained {path : List Char} (contained : isContained path = true) :
    IsPlain path := by
  unfold isContained at contained
  unfold IsPlain
  cases split : path.splitOn '/' with
  | nil => exact absurd split (List.splitOn_ne_nil _ _)
  | cons first rest =>
    rw [split] at contained
    simp only [Bool.and_eq_true, List.all_eq_true] at contained
    exact List.forall_mem_cons.mpr ⟨contained.1.1, contained.2⟩

theorem splitOn_append_suffix (name : List Char) {suffix : List Char} (flat : '/' ∉ suffix) :
    ∃ before last, name.splitOn '/' = before ++ [last] ∧
      (name ++ suffix).splitOn '/' = before ++ [last ++ suffix] := by
  induction name with
  | nil => exact ⟨[], [], by simp, by simpa using List.splitOn_eq_singleton flat⟩
  | cons c name ih =>
    obtain ⟨before, last, whole, longer⟩ := ih
    rw [List.cons_append, List.splitOn_cons_eq_if_modifyHead, List.splitOn_cons_eq_if_modifyHead, whole,
      longer]
    split
    · exact ⟨[] :: before, last, rfl, rfl⟩
    · cases before with
      | nil => exact ⟨[], c :: last, rfl, rfl⟩
      | cons first before => exact ⟨(c :: first) :: before, last, rfl, rfl⟩

theorem IsPlain.append {name suffix : List Char} (plain : IsPlain name) (flat : '/' ∉ suffix)
    (backslash : '\\' ∉ suffix) (nul : '\x00' ∉ suffix) (long : 2 ≤ suffix.length) :
    IsPlain (name ++ suffix) := by
  obtain ⟨before, last, whole, longer⟩ := splitOn_append_suffix name flat
  intro segment mem
  rw [longer] at mem
  rcases List.mem_append.mp mem with early | final
  · exact plain segment (whole ▸ List.mem_append_left _ early)
  · obtain rfl := List.mem_singleton.mp final
    obtain ⟨nonempty, _, _, noBackslash, noNul⟩ :=
      (isPlainName_iff last).mp (plain last (whole ▸ List.mem_append_right _ (by simp)))
    have grown : 2 < (last ++ suffix).length := by
      have := List.length_pos_iff.mpr nonempty
      rw [List.length_append]
      omega
    refine (isPlainName_iff _).mpr ⟨?_, ?_, ?_, ?_, ?_⟩
    · rintro same
      simp [same] at grown
    · rintro same
      simp [same] at grown
    · rintro same
      simp [same] at grown
    · simp [backslash, noBackslash]
    · simp [nul, noNul]

theorem IsPlain.append_slash {first second : List Char} (plain : IsPlain first)
    (after : IsPlain second) : IsPlain (first ++ '/' :: second) := by
  intro segment mem
  rw [List.splitOn_append_cons_self] at mem
  exact (List.mem_append.mp mem).elim (plain segment) (after segment)

theorem isPlain_of_isPlainName {segment : List Char} (flat : '/' ∉ segment)
    (plain : isPlainName segment = true) : IsPlain segment := by
  intro other mem
  rw [List.splitOn_eq_singleton flat, List.mem_singleton] at mem
  rwa [mem]

theorem splitOn_toRoot (up : Nat) (rest : List Char) :
    ((List.replicate up "../").flatMap String.toList ++ rest).splitOn '/' =
      List.replicate up ['.', '.'] ++ rest.splitOn '/' := by
  induction up with
  | zero => rfl
  | succ up ih =>
    rw [List.replicate_succ, List.flatMap_cons, List.append_assoc, List.replicate_succ, List.cons_append, ← ih]
    exact List.splitOn_append_cons_self ['.', '.'] _

end PagePath

theorem PageMap.isContained_of_path? {pages : PageMap} {uri path : String}
    (mapped : pages.path? uri = some path) : PagePath.isContained path.toList = true := by
  unfold path? at mapped
  obtain ⟨target, _, mapped⟩ := Option.bind_eq_some_iff.mp mapped
  dsimp only at mapped
  split at mapped
  · cases mapped
  · obtain ⟨decoded, _, mapped⟩ := Option.bind_eq_some_iff.mp mapped
    split at mapped
    · cases mapped
      assumption
    · cases mapped

namespace DiskPath

theorem steps_ofString (name : String) :
    (ofString name).steps = (name.toList.splitOn '/').map Text.encodeUtf8 := by
  rw [steps, ofString, Text.bytesOf_eq_encodeUtf8, Text.splitOn_encodeUtf8]

theorem ofString_steps_injective {first second : String}
    (same : (ofString first).steps = (ofString second).steps) : first = second := by
  have joined := congrArg [slash].intercalate same
  rw [steps, steps, List.intercalate_splitOn, List.intercalate_splitOn] at joined
  exact Text.bytesOf_injective joined

theorem isName_encodeUtf8_of_ne {segment : List Char} (nonempty : segment ≠ []) (single : segment ≠ ['.'])
    (double : segment ≠ ['.', '.']) : IsName (Text.encodeUtf8 segment) := by
  have other : ∀ short, segment ≠ short → Text.encodeUtf8 segment ≠ Text.encodeUtf8 short :=
    fun short apart same => apart (Text.encodeUtf8_injective same)
  have notEmpty := other [] nonempty
  have notHere := other ['.'] single
  refine ⟨?_, other ['.', '.'] double⟩
  simp only [isIdle, Bool.or_eq_false_iff, List.isEmpty_eq_false_iff, beq_eq_false_iff_ne]
  exact ⟨notEmpty, notHere⟩

theorem isName_encodeUtf8 {segment : List Char} (plain : PagePath.isPlainName segment = true) :
    IsName (Text.encodeUtf8 segment) := by
  obtain ⟨nonempty, single, double, _⟩ := (PagePath.isPlainName_iff segment).mp plain
  exact isName_encodeUtf8_of_ne nonempty single double

theorem isName_of_mem_steps {name : String} (plain : PagePath.IsPlain name.toList) :
    ∀ step ∈ (ofString name).steps, IsName step := by
  intro step mem
  rw [steps_ofString] at mem
  obtain ⟨segment, listed, rfl⟩ := List.mem_map.mp mem
  exact isName_encodeUtf8 (plain segment listed)

theorem foldl_follow_of_names {steps : List Step} (names : ∀ step ∈ steps, IsName step)
    (place : Place) : steps.foldl follow place = place ++ steps := by
  induction steps generalizing place with
  | nil => simp
  | cons step steps ih =>
    obtain ⟨⟨busy, down⟩, rest⟩ := List.forall_mem_cons.mp names
    rw [List.foldl_cons, follow, if_neg (by simp [busy]), if_neg down, ih rest, List.append_assoc]
    rfl

theorem isAbsolute_of_names {path : DiskPath} (names : ∀ step ∈ path.steps, IsName step) :
    path.isAbsolute = false := by
  rw [isAbsolute, beq_eq_false_iff_ne]
  intro absolute
  obtain ⟨rest, bytes⟩ := List.head?_eq_some_iff.mp absolute
  -- A leading slash makes the first step empty.
  have empty : [] ∈ path.steps := by
    rw [steps, bytes, List.splitOn_cons_eq_if_modifyHead, if_pos (by simp)]
    exact List.mem_cons_self
  cases (names [] empty).1

theorem getLast?_of_names {path : DiskPath} (names : ∀ step ∈ path.steps, IsName step) :
    path.bytes.getLast? ≠ some slash := by
  intro closed
  obtain ⟨before, bytes⟩ := List.getLast?_eq_some_iff.mp closed
  -- A closing slash makes the last step empty.
  have empty : [] ∈ path.steps := by
    rw [steps, bytes, List.splitOn_append_cons_self]
    simp
  cases (names [] empty).1

theorem join_of_relative (path : DiskPath) {other : DiskPath} (relative : other.isAbsolute = false) :
    path.join other =
      if path.bytes.isEmpty || path.bytes.getLast? == some slash then ⟨path.bytes ++ other.bytes⟩
      else ⟨path.bytes ++ slash :: other.bytes⟩ :=
  if_neg (by simp [relative])

theorem join_join (path : DiskPath) {middle last : DiskPath} (relative : middle.isAbsolute = false)
    (relativeLast : last.isAbsolute = false) (nonempty : middle.bytes ≠ [])
    (unclosed : middle.bytes.getLast? ≠ some slash) :
    (path.join middle).join last = path.join ⟨middle.bytes ++ slash :: last.bytes⟩ := by
  have joined : (⟨middle.bytes ++ slash :: last.bytes⟩ : DiskPath).isAbsolute = false := by
    rcases middle with ⟨_ | ⟨first, bytes⟩⟩
    · exact absurd rfl nonempty
    · simpa [isAbsolute] using relative
  have ends : ∀ front : List UInt8, join ⟨front ++ middle.bytes⟩ last =
      ⟨front ++ (middle.bytes ++ slash :: last.bytes)⟩ := by
    intro front
    obtain ⟨final, last_eq⟩ := Option.ne_none_iff_exists'.mp (mt List.getLast?_eq_none_iff.mp nonempty)
    rw [last_eq] at unclosed
    rw [join_of_relative _ relativeLast, if_neg]
    · simp
    · simpa [List.getLast?_append, last_eq, nonempty] using unclosed
  rw [join_of_relative path relative, join_of_relative path joined]
  split
  · exact ends path.bytes
  · simpa using ends (path.bytes ++ [slash])

theorem child_child (path : DiskPath) {first second : String}
    (plain : PagePath.IsPlain first.toList) (after : PagePath.IsPlain second.toList) :
    (path.child first).child second = path.child s!"{first}/{second}" := by
  have names := isName_of_mem_steps plain
  have nonempty : (ofString first).bytes ≠ [] := by
    intro empty
    have only : [] ∈ (ofString first).steps := by simp [steps, empty]
    cases (names [] only).1
  have joined : ofString s!"{first}/{second}" =
      ⟨(ofString first).bytes ++ slash :: (ofString second).bytes⟩ := by
    simp [ofString, Text.bytesOf_eq_encodeUtf8, ToString.toString, Text.encodeUtf8]
    rfl
  rw [child, child, join_join path (isAbsolute_of_names names)
    (isAbsolute_of_names (isName_of_mem_steps after)) nonempty (getLast?_of_names names), child, joined]

/-- The steps to a path that is read from another, for any way to follow them that passes empty steps. -/
theorem foldl_join {α : Type} {move : α → Step → α} (idle : ∀ place, move place [] = place) (path : DiskPath)
    {other : DiskPath} (relative : other.isAbsolute = false) (place : α) :
    (path.join other).steps.foldl move place = other.steps.foldl move (path.steps.foldl move place) := by
  rw [join_of_relative path relative]
  split
  · rename_i joined
    rcases Bool.or_eq_true_iff.mp joined with empty | closed
    · have nothing : path.bytes = [] := List.isEmpty_iff.mp empty
      simp [steps, nothing, idle]
    · obtain ⟨before, bytes⟩ := List.getLast?_eq_some_iff.mp (eq_of_beq closed)
      simp [steps, bytes, List.splitOn_append_cons_self, idle]
  · simp [steps, List.splitOn_append_cons_self]

theorem foldl_follow_join (path : DiskPath) {other : DiskPath} (relative : other.isAbsolute = false)
    (place : Place) :
    (path.join other).steps.foldl follow place =
      other.steps.foldl follow (path.steps.foldl follow place) :=
  foldl_join (fun _ => rfl) path relative place

theorem isAbsolute_join (path : DiskPath) {other : DiskPath} (relative : other.isAbsolute = false) :
    (path.join other).isAbsolute = path.isAbsolute := by
  rw [join_of_relative path relative]
  rcases path with ⟨_ | ⟨first, bytes⟩⟩
  · simpa [isAbsolute] using relative
  · split <;> simp [isAbsolute]

end DiskPath

namespace Store

/-- A path of names leads down from the folder at another, one step for each name. -/
theorem destination_join (store : Store) (path : DiskPath) {other : DiskPath}
    (names : ∀ step ∈ other.steps, DiskPath.IsName step) :
    store.destination (path.join other) = store.destination path ++ other.steps := by
  have relative := DiskPath.isAbsolute_of_names names
  rw [destination, DiskPath.foldl_follow_join path relative, DiskPath.isAbsolute_join path relative,
    DiskPath.foldl_follow_of_names names, destination]

theorem destination_child (store : Store) (path : DiskPath) {name : String}
    (plain : PagePath.IsPlain name.toList) :
    store.destination (path.child name) =
      store.destination path ++ (DiskPath.ofString name).steps :=
  store.destination_join path (DiskPath.isName_of_mem_steps plain)

end Store

end CodeAtlas
