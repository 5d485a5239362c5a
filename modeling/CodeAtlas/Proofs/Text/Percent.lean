import CodeAtlas.Text.Utf8
import CodeAtlas.Proofs.Text.Encoding

/-!
# Texts with percent escapes

Reading the escapes of a text gives back the text if and only if it has none
(`Text.percentDecode_eq_self_iff`). A text whose percent signs are escaped reads as the text before that.
-/

namespace CodeAtlas.Text

def IsEscape (bytes : List UInt8) : Prop :=
  ∃ high low, bytes = [0x25, high, low] ∧ hexDigit? high ≠ none ∧ hexDigit? low ≠ none

def HasEscape (bytes : List UInt8) : Prop :=
  ∃ escape, IsEscape escape ∧ escape <:+: bytes

/-! ### One byte at a time -/

theorem percentDecode_escape {high low h l : UInt8} (first : hexDigit? high = some h)
    (second : hexDigit? low = some l) (rest : List UInt8) :
    percentDecode (0x25 :: high :: low :: rest) = (h * 16 + l) :: percentDecode rest := by
  rw [percentDecode, first, second]

theorem percentDecode_cons {b : UInt8} {rest : List UInt8}
    (apart : ∀ escape, IsEscape escape → ¬ escape <+: b :: rest) :
    percentDecode (b :: rest) = b :: percentDecode rest := by
  by_cases long : ∃ high low more, b = 0x25 ∧ rest = high :: low :: more
  · obtain ⟨high, low, more, rfl, rfl⟩ := long
    rw [percentDecode]
    split
    · rename_i first second
      exact absurd ⟨more, rfl⟩ (apart [0x25, high, low] ⟨high, low, rfl, by simp [first], by simp [second]⟩)
    · rfl
  · exact percentDecode.eq_3 b rest fun high low more same shape => long ⟨high, low, more, same, shape⟩

theorem hasEscape_cons_iff {b : UInt8} {rest : List UInt8} :
    HasEscape (b :: rest) ↔ (∃ escape, IsEscape escape ∧ escape <+: b :: rest) ∨ HasEscape rest := by
  simp only [HasEscape, List.infix_cons_iff, and_or_left, exists_or]

theorem length_percentDecode_le (bytes : List UInt8) : (percentDecode bytes).length ≤ bytes.length := by
  fun_induction percentDecode bytes with
  | case1 => exact Nat.le_refl _
  | case2 _ _ rest _ _ _ _ ih =>
    simp only [List.length_cons]
    omega
  | case3 _ _ _ _ ih => exact Nat.succ_le_succ ih
  | case4 _ _ _ ih => exact Nat.succ_le_succ ih

/-- Each escape makes a text shorter. -/
theorem percentDecode_eq_self_iff (bytes : List UInt8) : percentDecode bytes = bytes ↔ ¬ HasEscape bytes := by
  induction bytes with
  | nil =>
    refine iff_of_true rfl ?_
    rintro ⟨_, ⟨_, _, rfl, _⟩, inside⟩
    cases List.infix_nil.mp inside
  | cons b rest ih =>
    rw [hasEscape_cons_iff, not_or]
    by_cases starts : ∃ escape, IsEscape escape ∧ escape <+: b :: rest
    · refine iff_of_false (fun same => ?_) fun apart => apart.1 starts
      obtain ⟨_, ⟨high, low, rfl, first, second⟩, more, shape⟩ := starts
      obtain ⟨h, first⟩ := Option.ne_none_iff_exists'.mp first
      obtain ⟨l, second⟩ := Option.ne_none_iff_exists'.mp second
      have shorter := length_percentDecode_le more
      have lengths := congrArg List.length same
      rw [← shape] at lengths
      simp only [List.cons_append, List.nil_append, percentDecode_escape first second, List.length_cons] at lengths
      omega
    · rw [percentDecode_cons fun escape isEscape start => starts ⟨escape, isEscape, start⟩, List.cons.injEq, ih]
      simp [starts]

/-! ### Texts one after the other -/

/-- An escape does not reach into what starts with no hexadecimal digit. -/
theorem percentDecode_append (first : List UInt8) {b : UInt8} (plain : hexDigit? b = none)
    (rest : List UInt8) : percentDecode (first ++ b :: rest) = percentDecode first ++ percentDecode (b :: rest) := by
  fun_induction percentDecode first with
  | case1 => rfl
  | case2 _ _ _ _ _ low high ih =>
    rw [List.cons_append, List.cons_append, List.cons_append, percentDecode_escape high low, ih, List.cons_append]
  | case3 high low more none ih =>
    rw [List.cons_append, percentDecode_cons, ih, List.cons_append]
    rintro _ ⟨high', low', rfl, isHigh, isLow⟩ ⟨_, shape⟩
    obtain ⟨h, isHigh⟩ := Option.ne_none_iff_exists'.mp isHigh
    obtain ⟨l, isLow⟩ := Option.ne_none_iff_exists'.mp isLow
    simp only [List.cons_append, List.cons.injEq, true_and] at shape
    exact none h l (shape.1 ▸ isHigh) (shape.2.1 ▸ isLow)
  | case4 c more short ih =>
    rw [List.cons_append, percentDecode_cons, ih, List.cons_append]
    rintro _ ⟨high, low, rfl, isHigh, isLow⟩ ⟨_, shape⟩
    rw [List.cons_append, List.cons.injEq] at shape
    -- The escape needs two more bytes than `more` has.
    rcases more with _ | ⟨second, _ | ⟨third, more⟩⟩
    · simp only [List.cons_append, List.nil_append, List.cons.injEq] at shape
      exact isHigh (shape.2.1 ▸ plain)
    · simp only [List.cons_append, List.nil_append, List.cons.injEq] at shape
      exact isLow (shape.2.2.1 ▸ plain)
    · exact short second third more shape.1.symm rfl

theorem percentDecode_of_notMem {run : List UInt8} (none : 0x25 ∉ run) (rest : List UInt8) :
    percentDecode (run ++ rest) = run ++ percentDecode rest := by
  induction run with
  | nil => rfl
  | cons b run ih =>
    rw [List.mem_cons, not_or] at none
    rw [List.cons_append, percentDecode_cons, ih none.2, List.cons_append]
    rintro _ ⟨high, low, rfl, _⟩ ⟨_, shape⟩
    exact none.1 (List.cons.inj shape).1

def escapePercents (text : List Char) : List Char :=
  text.flatMap fun c => if c = '%' then ['%', '2', '5'] else [c]

theorem percentDecode_escapePercents (text : List Char) :
    percentDecode (encodeUtf8 (escapePercents text)) = encodeUtf8 text := by
  induction text with
  | nil => rfl
  | cons c text ih =>
    have tail : encodeUtf8 (escapePercents (c :: text)) =
        encodeUtf8 (if c = '%' then ['%', '2', '5'] else [c]) ++ encodeUtf8 (escapePercents text) := by
      rw [escapePercents, List.flatMap_cons, encodeUtf8, List.flatMap_append]
      rfl
    have whole : encodeUtf8 (c :: text) = String.utf8EncodeChar c ++ encodeUtf8 text := rfl
    rw [tail, whole, ← ih]
    by_cases sign : c = '%'
    · rw [if_pos sign, sign]
      exact percentDecode_escape (show hexDigit? 0x32 = some 2 by decide) (show hexDigit? 0x35 = some 5 by decide) _
    · rw [if_neg sign, show encodeUtf8 [c] = String.utf8EncodeChar c from List.append_nil _]
      refine percentDecode_of_notMem (fun mem => sign ?_) _
      exact Char.toNat_inj.mp (toNat_eq_of_mem_utf8EncodeChar mem (by decide))

end CodeAtlas.Text
