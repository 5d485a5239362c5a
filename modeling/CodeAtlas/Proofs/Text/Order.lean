import CodeAtlas.Proofs.Text.Encoding
import Mathlib.Data.String.Basic

/-!
# The order of texts

Texts are ordered as their UTF-8 bytes are. What stands between two texts with a common start has that start
too, so the texts with one start stand together.
-/

namespace CodeAtlas.Text

theorem append_lt_append_iff (start first second : List Char) :
    start ++ first < start ++ second ↔ first < second := by
  induction start with
  | nil => rfl
  | cons c start ih =>
    rw [List.cons_append, List.cons_append, List.cons_lt_cons_iff, ih]
    exact ⟨fun less => less.elim (absurd · (Char.lt_irrefl c)) (·.2), fun less => .inr ⟨rfl, less⟩⟩

theorem prefix_of_between {start first second third : List Char} (one : start <+: first)
    (three : start <+: third) (before : first < second) (after : second < third) : start <+: second := by
  induction start generalizing first second third with
  | nil => exact List.nil_prefix
  | cons c start ih =>
    obtain ⟨first, rfl⟩ := one
    obtain ⟨third, rfl⟩ := three
    cases second with
    | nil => exact absurd before (List.not_lt_nil _)
    | cons d second =>
      rw [List.cons_append, List.cons_lt_cons_iff] at before
      rw [List.cons_append, List.cons_lt_cons_iff] at after
      rcases before with less | ⟨rfl, before⟩
      · rcases after with more | ⟨rfl, _⟩
        · exact absurd more (Char.lt_asymm less)
        · exact absurd less (Char.lt_irrefl _)
      · rcases after with more | ⟨_, after⟩
        · exact absurd more (Char.lt_irrefl _)
        · exact List.cons_prefix_cons.mpr ⟨rfl, ih (List.prefix_append ..) (List.prefix_append ..) before after⟩

/-! ### Bytes -/

theorem ofNat_cons_lt {a b : Nat} {first second : List UInt8} (small : b < 256) (le : a ≤ b)
    (rest : a = b → first < second) : UInt8.ofNat a :: first < UInt8.ofNat b :: second := by
  rw [List.cons_lt_cons_iff, UInt8.lt_iff_toNat_lt, UInt8.toNat_ofNat', UInt8.toNat_ofNat']
  rcases Nat.lt_or_eq_of_le le with less | rfl
  · left
    omega
  · exact .inr ⟨rfl, rest rfl⟩

/-- The lesser character has the lesser bytes, whatever follows. -/
theorem utf8EncodeChar_append_lt {c d : Char} (less : c < d) (first second : List UInt8) :
    String.utf8EncodeChar c ++ first < String.utf8EncodeChar d ++ second := by
  have less : c.val.toNat < d.val.toNat := less
  have bound : d.val.toNat < 0x110000 := by
    rcases d.valid with low | ⟨_, high⟩
    · omega
    · exact high
  unfold String.utf8EncodeChar
  dsimp only
  -- A character of more bytes has the greater first byte; with the same number, the first difference decides.
  split
  · split
    · exact ofNat_cons_lt (by omega) (by omega) fun same => absurd same (by omega)
    · split
      · exact ofNat_cons_lt (by omega) (by omega) fun same => absurd same (by omega)
      · split <;> exact ofNat_cons_lt (by omega) (by omega) fun same => absurd same (by omega)
  · rw [if_neg (show ¬ d.val.toNat ≤ 127 by omega)]
    split
    · split
      · exact ofNat_cons_lt (by omega) (by omega) fun _ => ofNat_cons_lt (by omega) (by omega) fun same =>
          absurd same (by omega)
      · split <;> exact ofNat_cons_lt (by omega) (by omega) fun same => absurd same (by omega)
    · rw [if_neg (show ¬ d.val.toNat ≤ 2047 by omega)]
      split
      · split
        · exact ofNat_cons_lt (by omega) (by omega) fun _ => ofNat_cons_lt (by omega) (by omega) fun _ =>
            ofNat_cons_lt (by omega) (by omega) fun same => absurd same (by omega)
        · exact ofNat_cons_lt (by omega) (by omega) fun same => absurd same (by omega)
      · rw [if_neg (show ¬ d.val.toNat ≤ 65535 by omega)]
        exact ofNat_cons_lt (by omega) (by omega) fun _ => ofNat_cons_lt (by omega) (by omega) fun _ =>
          ofNat_cons_lt (by omega) (by omega) fun _ => ofNat_cons_lt (by omega) (by omega) fun same =>
            absurd same (by omega)

theorem encodeUtf8_lt {first second : List Char} (less : first < second) :
    encodeUtf8 first < encodeUtf8 second := by
  induction first generalizing second with
  | nil =>
    cases second with
    | nil => exact absurd less (List.not_lt_nil _)
    | cons d second =>
      cases bytes : String.utf8EncodeChar d with
      | nil => exact absurd bytes (by simp)
      | cons byte bytes' =>
        rw [encodeUtf8, encodeUtf8, List.flatMap_cons, bytes]
        exact List.nil_lt_cons _ _
  | cons c first ih =>
    cases second with
    | nil => exact absurd less (List.not_lt_nil _)
    | cons d second =>
      rcases List.cons_lt_cons_iff.mp less with smaller | ⟨rfl, later⟩
      · exact utf8EncodeChar_append_lt smaller _ _
      · exact List.append_left_lt (ih later)

theorem bytesOf_lt {first second : String} (less : first < second) : bytesOf first < bytesOf second := by
  rw [bytesOf_eq_encodeUtf8, bytesOf_eq_encodeUtf8]
  exact encodeUtf8_lt (String.lt_iff_toList_lt.mp less)

end CodeAtlas.Text
