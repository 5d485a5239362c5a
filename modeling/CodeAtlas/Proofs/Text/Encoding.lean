import CodeAtlas.Disk.Path

/-!
# Texts and their bytes

Texts are told apart by their UTF-8 bytes, and a byte below 128 only stands for the character of that
number. So the steps of a path are the texts between its slashes.
-/

namespace CodeAtlas.Text

theorem bytesOf_eq_encodeUtf8 (s : String) : bytesOf s = encodeUtf8 s.toList := by
  have bytes : (String.ofList s.toList).toByteArray = s.toList.utf8Encode := String.toByteArray_ofList
  rw [String.ofList_toList] at bytes
  rw [bytesOf, String.toUTF8_eq_toByteArray, bytes, List.utf8Encode, List.data_toByteArray]
  rfl

theorem decodeUtf8?_encodeUtf8 (text : List Char) :
    decodeUtf8? (encodeUtf8 text) = some (String.ofList text) := by
  have same : (⟨(encodeUtf8 text).toArray⟩ : ByteArray) = (String.ofList text).toByteArray := by
    rw [String.toByteArray_ofList]
    apply ByteArray.ext
    rw [List.utf8Encode, List.data_toByteArray]
    rfl
  rw [decodeUtf8?, same, String.fromUTF8?, dif_pos (String.ofList text).isValidUTF8]
  rfl

theorem encodeUtf8_injective {first second : List Char} (same : encodeUtf8 first = encodeUtf8 second) :
    first = second := by
  have decoded := congrArg decodeUtf8? same
  rw [decodeUtf8?_encodeUtf8, decodeUtf8?_encodeUtf8] at decoded
  exact String.ofList_injective (Option.some.inj decoded)

theorem bytesOf_injective {first second : String} (same : bytesOf first = bytesOf second) :
    first = second := by
  rw [bytesOf_eq_encodeUtf8, bytesOf_eq_encodeUtf8] at same
  exact String.toList_injective (encodeUtf8_injective same)

/-- A byte below 128 stands for the character of that number, and is no part of any other. -/
theorem toNat_eq_of_mem_utf8EncodeChar {c : Char} {b : UInt8} (mem : b ∈ String.utf8EncodeChar c)
    (ascii : b.toNat < 0x80) : c.toNat = b.toNat := by
  have value : c.toNat = c.val.toNat := rfl
  unfold String.utf8EncodeChar at mem
  dsimp only at mem
  split at mem
  · obtain rfl := List.mem_singleton.mp mem
    rw [UInt8.toNat_ofNat']
    omega
  · -- All bytes of a longer character have their top bit set.
    have high : 0x80 ≤ b.toNat := by
      split at mem
      · simp only [List.mem_cons, List.not_mem_nil, or_false] at mem
        rcases mem with rfl | rfl <;> rw [UInt8.toNat_ofNat'] <;> omega
      · split at mem
        · simp only [List.mem_cons, List.not_mem_nil, or_false] at mem
          rcases mem with rfl | rfl | rfl <;> rw [UInt8.toNat_ofNat'] <;> omega
        · simp only [List.mem_cons, List.not_mem_nil, or_false] at mem
          rcases mem with rfl | rfl | rfl | rfl <;> rw [UInt8.toNat_ofNat'] <;> omega
    omega

theorem eq_slash_of_mem_utf8EncodeChar {c : Char} (mem : DiskPath.slash ∈ String.utf8EncodeChar c) :
    c = '/' := by
  have number : c.toNat = '/'.toNat := toNat_eq_of_mem_utf8EncodeChar mem (by decide)
  exact Char.toNat_inj.mp number

/-- What has no separator in it extends the first part of what follows. -/
theorem splitOn_append_of_notMem {α : Type} [BEq α] [LawfulBEq α] {sep : α} {run : List α}
    (apart : sep ∉ run) (rest : List α) :
    (run ++ rest).splitOn sep = (rest.splitOn sep).modifyHead (run ++ ·) := by
  induction run with
  | nil =>
    rw [List.nil_append]
    cases rest.splitOn sep <;> rfl
  | cons b run ih =>
    have other : (b == sep) = false := by
      simpa using fun same => apart (by simp [same])
    rw [List.cons_append, List.splitOn_cons_eq_if_modifyHead, other, ih (by simp_all)]
    simp [List.modifyHead_modifyHead, Function.comp_def]

theorem length_splitOn {α : Type} [BEq α] [LawfulBEq α] (sep : α) (items : List α) :
    (items.splitOn sep).length = items.count sep + 1 := by
  induction items with
  | nil => rfl
  | cons c items ih =>
    rw [List.splitOn_cons_eq_if_modifyHead, List.count_cons]
    split
    · rw [List.length_cons, ih]
    · rw [List.length_modifyHead, ih]

theorem notMem_of_mem_splitOn {α : Type} [BEq α] [LawfulBEq α] {sep : α} {items part : List α}
    (mem : part ∈ items.splitOn sep) : sep ∉ part := by
  induction items generalizing part with
  | nil =>
    obtain rfl : part = [] := by simpa using mem
    exact List.not_mem_nil
  | cons c items ih =>
    rw [List.splitOn_cons_eq_if_modifyHead] at mem
    split at mem
    · rcases List.mem_cons.mp mem with rfl | later
      · exact List.not_mem_nil
      · exact ih later
    · rename_i other
      obtain ⟨first, others, split⟩ := List.exists_cons_of_ne_nil (List.splitOn_ne_nil sep items)
      rw [split, List.modifyHead_cons] at mem
      rcases List.mem_cons.mp mem with rfl | later
      · have free : sep ∉ first := ih (split ▸ List.mem_cons_self)
        rw [List.mem_cons, not_or]
        exact ⟨fun same => other (by simp [← same]), free⟩
      · exact ih (split ▸ List.mem_cons_of_mem first later)

/-- The steps of a path are the texts between its slashes. -/
theorem splitOn_encodeUtf8 (text : List Char) :
    (encodeUtf8 text).splitOn DiskPath.slash = (text.splitOn '/').map encodeUtf8 := by
  induction text with
  | nil => simp [encodeUtf8]
  | cons c text ih =>
    rw [show encodeUtf8 (c :: text) = String.utf8EncodeChar c ++ encodeUtf8 text from rfl]
    by_cases slash : c = '/'
    · rw [slash, show String.utf8EncodeChar '/' = [DiskPath.slash] from by decide,
        List.singleton_append, List.splitOn_cons_eq_if_modifyHead, List.splitOn_cons_eq_if_modifyHead,
        ih]
      simp [encodeUtf8]
    · have apart : DiskPath.slash ∉ String.utf8EncodeChar c :=
        fun mem => slash (eq_slash_of_mem_utf8EncodeChar mem)
      rw [splitOn_append_of_notMem apart, ih, List.splitOn_cons_eq_if_modifyHead]
      cases text.splitOn '/' with
      | nil => simp [slash]
      | cons first rest => simp [slash, encodeUtf8]

end CodeAtlas.Text
