import CodeAtlas.Proofs.Markup.Scanning

/-!
# Two readings of entities

Weaving and the check of nesting each have a rule for what makes an entity after an `&`. Both rules are
put as a grammar of the text between the `&` and the `;`, and compared there: they differ in where a `#`
may stand, and in nothing else.
-/

namespace CodeAtlas

theorem Text.byteLength_of_ascii {text : List Char} (ascii : ∀ c ∈ text, c.utf8Size = 1) :
    Text.byteLength text = text.length := by
  unfold Text.byteLength
  induction text with
  | nil => rfl
  | cons c text ih =>
    obtain ⟨first, rest⟩ := List.forall_mem_cons.mp ascii
    rw [List.foldr_cons, ih rest, first, List.length_cons, Nat.add_comm]

namespace Markup

open Nesting (EntityName)

/-! ### The two grammars -/

theorem entityBody_iff_entityName (body : List Char) :
    EntityBody body ↔ EntityName body ∧ '#' ∉ body.tail := by
  constructor
  · intro valid
    refine ⟨Nesting.EntityBody.entityName valid, ?_⟩
    obtain ⟨_, first, others, rfl, _, plain⟩ := valid
    intro sharp
    exact absurd (plain _ sharp) (by decide)
  · rintro ⟨⟨some, short, letters⟩, unsharp⟩
    cases body with
    | nil => exact absurd rfl some
    | cons first others =>
      refine ⟨short, first, others, rfl, ?_, fun c mem => ?_⟩
      · simpa using letters first List.mem_cons_self
      · have different : c ≠ '#' := fun same => unsharp (same ▸ mem)
        simpa [different] using letters c (List.mem_cons_of_mem first mem)

theorem entityLength?_eq_some_iff_entityBody {text : List Char} {n : Nat} :
    entityLength? text = some n ↔
      ∃ body rest, EntityBody body ∧ text = body ++ ';' :: rest ∧ n = body.length + 2 := by
  unfold entityLength?
  rw [Option.map_eq_some_iff]
  constructor
  · rintro ⟨body, found, rfl⟩
    obtain ⟨valid, rest, same⟩ := entityBody?_eq_some_iff.mp found
    exact ⟨body, rest, valid, same, rfl⟩
  · rintro ⟨body, rest, valid, same, rfl⟩
    exact ⟨body, entityBody?_eq_some_iff.mpr ⟨valid, rest, same⟩, rfl⟩

/-- The rules agree on an entity as long as a `#` comes first or not at all. -/
theorem entityLength?_eq_some_iff_nesting {text : List Char} {n : Nat} :
    entityLength? text = some n ↔
      Nesting.entityLength? text = some n ∧ '#' ∉ (text.take (n - 2)).tail := by
  rw [entityLength?_eq_some_iff_entityBody, Nesting.entityLength?_eq_some_iff]
  constructor
  · rintro ⟨body, rest, valid, rfl, rfl⟩
    obtain ⟨name, unsharp⟩ := (entityBody_iff_entityName body).mp valid
    refine ⟨⟨body, rest, name, rfl, rfl⟩, ?_⟩
    rwa [Nat.add_sub_cancel, List.take_left]
  · rintro ⟨⟨body, rest, name, rfl, rfl⟩, unsharp⟩
    rw [Nat.add_sub_cancel, List.take_left] at unsharp
    exact ⟨body, rest, (entityBody_iff_entityName body).mpr ⟨name, unsharp⟩, rfl, rfl⟩

theorem entityLength?_eq_none_iff_nesting {text : List Char} {n : Nat}
    (read : Nesting.entityLength? text = some n) :
    entityLength? text = none ↔ '#' ∈ (text.take (n - 2)).tail := by
  rw [Option.eq_none_iff_forall_ne_some]
  constructor
  · intro none
    by_contra unsharp
    exact none n (entityLength?_eq_some_iff_nesting.mpr ⟨read, unsharp⟩)
  · intro sharp m found
    obtain ⟨other, unsharp⟩ := entityLength?_eq_some_iff_nesting.mp found
    obtain rfl := Option.some.inj (read.symm.trans other)
    exact unsharp sharp

theorem utf8Size_of_entityName {body : List Char} (name : EntityName body) {c : Char} (mem : c ∈ body) :
    c.utf8Size = 1 := by
  -- Letters and digits are ranges of code points that end below 128.
  have small : c.val ≤ 127 := by
    rcases Bool.or_eq_true_iff.mp (name.2.2 c mem) with plain | sharp
    · rcases Bool.or_eq_true_iff.mp plain with letter | digit
      · rcases Bool.or_eq_true_iff.mp letter with upper | lower
        · have bound : c.val ≤ 'Z'.val := (of_decide_eq_true upper).2
          exact UInt32.le_trans bound (by decide)
        · have bound : c.val ≤ 'z'.val := of_decide_eq_true (Bool.and_eq_true_iff.mp lower).2
          exact UInt32.le_trans bound (by decide)
      · have bound : c.val ≤ '9'.val := of_decide_eq_true (Bool.and_eq_true_iff.mp digit).2
        exact UInt32.le_trans bound (by decide)
    · rw [eq_of_beq sharp]
      decide
  exact Char.utf8Size_eq_one_iff.mpr small

theorem byteLength_of_entityLength? {text : List Char} {n : Nat}
    (read : Nesting.entityLength? text = some n) : Text.byteLength (('&' :: text).take n) = n := by
  obtain ⟨body, rest, name, rfl, rfl⟩ := Nesting.entityLength?_eq_some_iff.mp read
  have taken : ('&' :: (body ++ ';' :: rest)).take (body.length + 2) = '&' :: (body ++ [';']) := by
    rw [List.take_succ_cons, List.take_length_add_append]
    rfl
  rw [taken, Text.byteLength_of_ascii]
  · simp
  · intro c mem
    simp only [List.mem_cons, List.mem_append, List.not_mem_nil, or_false] at mem
    rcases mem with rfl | inside | rfl
    · decide
    · exact utf8Size_of_entityName name inside
    · decide

/-- Weaving takes as one unit the characters that its rule counts. -/
theorem entityLength?_eq_some_iff_pieces {text : List Char} {n : Nat} :
    entityLength? text = some n ↔
      ∃ body, body.length + 2 = n ∧
        pieces ('&' :: text) = .entity body :: pieces (text.drop (n - 1)) := by
  constructor
  · intro read
    obtain ⟨body, rest, valid, rfl, rfl⟩ := entityLength?_eq_some_iff_entityBody.mp read
    refine ⟨body, rfl, ?_⟩
    rw [pieces_cons, firstPiece_entity valid]
    rfl
  · rintro ⟨body, rfl, cut⟩
    rw [pieces_cons] at cut
    have first : (firstPiece '&' text).1 = .entity body := (List.cons.inj cut).1
    unfold firstPiece at first
    cases found : entityBody? text with
    | none => simp [found] at first
    | some other =>
      have same : other = body := by simpa [found] using first
      rw [entityLength?, found, same]
      rfl

/-! ### Escaped text -/

theorem ampersand_notMem_of_entityBody {body : List Char} (valid : EntityBody body) :
    '&' ∉ body ++ [';'] := by
  intro mem
  rcases List.mem_append.mp mem with inside | last
  · exact absurd ((Nesting.EntityBody.entityName valid).2.2 _ inside) (by decide)
  · exact absurd last (by decide)

/-- An `&` in escaped text is the start of an escaped character. -/
theorem exists_of_escape_eq {source before after : List Char}
    (split : escape source = before ++ '&' :: after) :
    ∃ left c right body, source = left ++ c :: right ∧ before = escape left ∧ EntityBody body ∧
      escapeChar c = '&' :: (body ++ [';']) ∧ after = body ++ ';' :: escape right := by
  induction source generalizing before with
  | nil => simp [escape] at split
  | cons first source ih =>
    have later : ∀ tail, before = escapeChar first ++ tail → escape source = tail ++ '&' :: after →
        ∃ left c right body, first :: source = left ++ c :: right ∧ before = escape left ∧
          EntityBody body ∧ escapeChar c = '&' :: (body ++ [';']) ∧ after = body ++ ';' :: escape right := by
      intro tail shape split
      obtain ⟨left, c, right, body, rfl, rfl, rest⟩ := ih split
      exact ⟨first :: left, c, right, body, rfl, shape, rest⟩
    have whole : escapeChar first ++ escape source = before ++ '&' :: after := split
    rcases List.append_eq_append_iff.mp whole with ⟨tail, shape, rest⟩ | ⟨middle, shape, rest⟩
    · exact later tail shape rest
    · cases middle with
      | nil =>
        rw [List.append_nil] at shape
        exact later [] (by rw [List.append_nil, shape]) rest.symm
      | cons d middle =>
        obtain ⟨rfl, rfl⟩ := List.cons.inj rest
        -- The `&` is inside the escaped character, so it is its first one.
        rcases escapeChar_eq_entity first with ⟨plain, different, _⟩ | ⟨body, valid, entity⟩
        · rw [plain] at shape
          have mem : '&' ∈ [first] := by simp [shape]
          exact absurd (List.mem_singleton.mp mem).symm different
        · rw [entity] at shape
          cases before with
          | nil =>
            refine ⟨[], first, source, body, rfl, rfl, valid, entity, ?_⟩
            rw [← (List.cons.inj shape).2]
            simp
          | cons _ before =>
            have inside : '&' ∈ body ++ [';'] := by simp [(List.cons.inj shape).2]
            exact absurd inside (ampersand_notMem_of_entityBody valid)

/-- The check reads one to 32 letters, digits and `#` up to a `;`. What weaving reads as an entity, the
check reads as one of the same length, and what the check reads weaving does not just if a `#` stands in it
after the first place. The lengths count bytes as well as characters, and weaving takes that many
characters as one unit. Each `&` in escaped text starts the entity of an escaped character, which both read
to its end, whatever comes behind it. -/
theorem entity_lengths_agree :
    (∀ text n, Nesting.entityLength? text = some n ↔
      ∃ body rest, EntityName body ∧ text = body ++ ';' :: rest ∧ n = body.length + 2) ∧
    (∀ text n, entityLength? text = some n → Nesting.entityLength? text = some n) ∧
    (∀ text n, Nesting.entityLength? text = some n →
      (entityLength? text = none ↔ '#' ∈ (text.take (n - 2)).tail) ∧
        Text.byteLength (('&' :: text).take n) = n) ∧
    (∀ text n, entityLength? text = some n ↔ ∃ body, body.length + 2 = n ∧
      pieces ('&' :: text) = .entity body :: pieces (text.drop (n - 1))) ∧
    ∀ source before after, escape source = before ++ '&' :: after →
      ∃ left c right, source = left ++ c :: right ∧ before = escape left ∧
        '&' :: after = escapeChar c ++ escape right ∧
        ∀ behind, entityLength? (after ++ behind) = some (escapeChar c).length ∧
          Nesting.entityLength? (after ++ behind) = some (escapeChar c).length := by
  refine ⟨fun text n => Nesting.entityLength?_eq_some_iff,
    fun text n read => (entityLength?_eq_some_iff_nesting.mp read).1,
    fun text n read => ⟨entityLength?_eq_none_iff_nesting read, byteLength_of_entityLength? read⟩,
    fun text n => entityLength?_eq_some_iff_pieces, fun source before after split => ?_⟩
  obtain ⟨left, c, right, body, rfl, rfl, valid, entity, rfl⟩ := exists_of_escape_eq split
  refine ⟨left, c, right, rfl, rfl, by simp [entity], fun behind => ?_⟩
  have read : entityLength? (body ++ ';' :: escape right ++ behind) = some (escapeChar c).length := by
    apply entityLength?_eq_some_iff_entityBody.mpr
    exact ⟨body, escape right ++ behind, valid, by simp, by simp [entity]⟩
  exact ⟨read, (entityLength?_eq_some_iff_nesting.mp read).1⟩

/-- A body of 32 characters, a `#` in the middle of one, and an escaped apostrophe before more text. -/
theorem entity_lengths_agree_at_edges :
    entityLength? (List.replicate 32 'a' ++ [';']) = some 34 ∧
    Nesting.entityLength? (List.replicate 32 'a' ++ [';']) = some 34 ∧
    Nesting.entityLength? "a#b;c".toList = some 5 ∧ entityLength? "a#b;c".toList = none ∧
    escape "a'b".toList = ['a'] ++ '&' :: "#39;b".toList ∧
    ∃ c ∈ "a'b".toList, ∀ behind,
      entityLength? ("#39;b".toList ++ behind) = some (escapeChar c).length ∧
        Nesting.entityLength? ("#39;b".toList ++ behind) = some (escapeChar c).length := by
  obtain ⟨_, alike, differ, _, whole⟩ := entity_lengths_agree
  have long : entityLength? (List.replicate 32 'a' ++ [';']) = some 34 := by decide
  have sharp : Nesting.entityLength? "a#b;c".toList = some 5 := by decide
  have escaped : escape "a'b".toList = ['a'] ++ '&' :: "#39;b".toList := by decide
  obtain ⟨left, c, right, source, _, _, read⟩ := whole _ _ _ escaped
  exact ⟨long, alike _ _ long, sharp, (differ _ _ sharp).1.mpr (by decide), escaped, c,
    by simp [source], read⟩

end Markup

end CodeAtlas
