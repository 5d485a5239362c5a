import CodeAtlas.Dump.Id
import CodeAtlas.Proofs.Text.Encoding

/-!
# Ids as file names

The stem of an id is read back byte by byte, so different ids have different stems. It holds letters,
digits, `-` and `_` only.
-/

namespace CodeAtlas.ElementId

def hexValue (c : Char) : Nat :=
  if c.toNat < 'a'.toNat then c.toNat - '0'.toNat else c.toNat - 'a'.toNat + 10

def unstem : List Char → List UInt8
  | [] => []
  | c :: rest =>
    if c = '_' then
      match rest with
      | high :: low :: rest => UInt8.ofNat (hexValue high * 16 + hexValue low) :: unstem rest
      | _ => []
    else UInt8.ofNat c.toNat :: unstem rest

def isStemChar (c : Char) : Bool :=
  c.isAlphanum || c == '-' || c == '_'

theorem hexValue_hexDigit : ∀ n < 16, hexValue (Json.hexDigit n) = n := by
  decide

theorem isStemChar_hexDigit : ∀ n < 16, isStemChar (Json.hexDigit n) = true := by
  decide

/-- A byte that stands for itself is the number of a letter, a digit or a hyphen. -/
theorem plain_char : ∀ n < 256, isPlainByte (UInt8.ofNat n) = true →
    (Char.ofNat n).toNat = n ∧ Char.ofNat n ≠ '_' ∧ isStemChar (Char.ofNat n) = true := by
  decide +kernel

theorem unstem_stemByte (b : UInt8) (rest : List Char) :
    unstem (stemByte b ++ rest) = b :: unstem rest := by
  have bound : b.toNat < 256 := b.toNat_lt
  unfold stemByte
  split
  · rename_i plain
    obtain ⟨number, other, _⟩ := plain_char b.toNat bound (by simpa using plain)
    rw [List.singleton_append, unstem.eq_def]
    simp [number, other]
  · simp only [List.cons_append, List.nil_append, unstem, if_true]
    rw [hexValue_hexDigit _ (by omega), hexValue_hexDigit _ (by omega),
      show b.toNat / 16 * 16 + b.toNat % 16 = b.toNat by omega, UInt8.ofNat_toNat]

theorem unstem_flatMap (bytes : List UInt8) : unstem (bytes.flatMap stemByte) = bytes := by
  induction bytes with
  | nil => rfl
  | cons b bytes ih => rw [List.flatMap_cons, unstem_stemByte, ih]

def ofStem? (stem : String) : Option ElementId :=
  ((Text.decodeUtf8? (unstem stem.toList)).map mk).filter fun id => decide (id.fileStem = stem)

/-- A stem is read back as the id it was made from, and nothing else is read. -/
theorem ofStem?_eq_some_iff {stem : String} {id : ElementId} :
    ofStem? stem = some id ↔ id.fileStem = stem := by
  constructor
  · intro read
    exact of_decide_eq_true (Option.filter_eq_some_iff.mp read).2
  · rintro rfl
    have bytes : unstem id.fileStem.toList = Text.encodeUtf8 id.name.toList := by
      rw [fileStem, String.toList_ofList, unstem_flatMap, Text.bytesOf_eq_encodeUtf8]
    rw [ofStem?, bytes, Text.decodeUtf8?_encodeUtf8, String.ofList_toList]
    exact Option.filter_eq_some_iff.mpr ⟨rfl, decide_eq_true rfl⟩

theorem fileStem_injective {first second : ElementId} (same : first.fileStem = second.fileStem) :
    first = second := by
  have read := ofStem?_eq_some_iff.mpr same
  exact Option.some.inj ((ofStem?_eq_some_iff.mpr rfl).symm.trans read).symm

theorem isStemChar_of_mem_fileStem {id : ElementId} {c : Char} (mem : c ∈ id.fileStem.toList) :
    isStemChar c = true := by
  rw [fileStem, String.toList_ofList] at mem
  obtain ⟨b, _, mem⟩ := List.mem_flatMap.mp mem
  have bound : b.toNat < 256 := b.toNat_lt
  unfold stemByte at mem
  split at mem
  · rename_i plain
    obtain rfl := List.mem_singleton.mp mem
    exact (plain_char b.toNat bound (by simpa using plain)).2.2
  · simp only [List.mem_cons, List.not_mem_nil, or_false] at mem
    rcases mem with rfl | rfl | rfl
    · rfl
    · exact isStemChar_hexDigit _ (by omega)
    · exact isStemChar_hexDigit _ (by omega)

end CodeAtlas.ElementId
