import CodeAtlas.Text.Utf8

/-!
# Places in a text

A place in a text is a number of bytes. It divides no character if it is the length of an initial part
(`Text.IsBoundary`), and what stands between two such places is cut out whole.
-/

namespace CodeAtlas.Text

theorem byteLength_cons (c : Char) (text : List Char) :
    byteLength (c :: text) = c.utf8Size + byteLength text := rfl

theorem byteLength_append (first second : List Char) :
    byteLength (first ++ second) = byteLength first + byteLength second := by
  induction first with
  | nil => simp [byteLength]
  | cons c first ih => rw [List.cons_append, byteLength_cons, byteLength_cons, ih, Nat.add_assoc]

theorem eq_nil_of_byteLength_eq_zero {text : List Char} (empty : byteLength text = 0) : text = [] := by
  cases text with
  | nil => rfl
  | cons c text =>
    have := c.utf8Size_pos
    rw [byteLength_cons] at empty
    omega

theorem splitBytes_append (bytes : Nat) (text : List Char) :
    (splitBytes bytes text).1 ++ (splitBytes bytes text).2 = text := by
  induction text generalizing bytes with
  | nil => rfl
  | cons c text ih =>
    rw [splitBytes]
    split
    · simp [ih]
    · rfl

theorem splitBytes_byteLength (first second : List Char) :
    splitBytes (byteLength first) (first ++ second) = (first, second) := by
  induction first with
  | nil =>
    cases second with
    | nil => rfl
    | cons c second =>
      have := c.utf8Size_pos
      rw [List.nil_append, splitBytes, if_neg (by simp [byteLength]; omega)]
  | cons c first ih =>
    rw [List.cons_append, splitBytes, byteLength_cons, if_pos (by omega), Nat.add_sub_cancel_left, ih]

/-- A number of bytes after which no character of the text is divided. -/
def IsBoundary (text : List Char) (bytes : Nat) : Prop :=
  ∃ before after, text = before ++ after ∧ byteLength before = bytes

theorem isBoundary_iff {text : List Char} {bytes : Nat} :
    IsBoundary text bytes ↔ byteLength (splitBytes bytes text).1 = bytes := by
  constructor
  · rintro ⟨before, after, rfl, rfl⟩
    rw [splitBytes_byteLength]
  · intro taken
    exact ⟨_, _, (splitBytes_append bytes text).symm, taken⟩

instance (text : List Char) (bytes : Nat) : Decidable (IsBoundary text bytes) :=
  decidable_of_iff _ isBoundary_iff.symm

theorem IsBoundary.between {before rest : List Char} {stop : Nat}
    (boundary : IsBoundary (before ++ rest) stop) (later : byteLength before ≤ stop) :
    ∃ between after, rest = between ++ after ∧ byteLength before + byteLength between = stop := by
  obtain ⟨longer, after, split, bytes⟩ := boundary
  rcases List.append_eq_append_iff.mp split with ⟨between, rfl, rfl⟩ | ⟨between, rfl, rfl⟩
  · exact ⟨between, after, rfl, by rw [← byteLength_append, bytes]⟩
  · -- The boundary is not before `before`, so nothing is between.
    rw [byteLength_append] at later
    have none : between = [] := eq_nil_of_byteLength_eq_zero (by omega)
    subst none
    exact ⟨[], rest, rfl, by simpa [byteLength] using bytes⟩

theorem slice?_append (before slice after : List Char) :
    slice? (before ++ (slice ++ after)) (byteLength before) (byteLength before + byteLength slice) =
      some slice := by
  unfold slice?
  simp only [splitBytes_byteLength, Nat.add_sub_cancel_left]
  simp

end CodeAtlas.Text
