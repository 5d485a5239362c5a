import CodeAtlas.Markup.Nesting
import CodeAtlas.Proofs.Markup.Cutting

/-!
# What the check of nesting gets over

`Passes` says what a stretch of markup does to the open elements, whatever stands behind it. Stretches
compose, and there is one lemma for each kind of thing that a page is made of.
-/

namespace CodeAtlas.Markup.Nesting

/-- With the elements of `before` open, the scan gets over `text` and leaves those of `after` open. -/
def Passes (before : List (List Char)) (text : List Char) (after : List (List Char)) : Prop :=
  ∀ line rest, scan line before (text ++ rest) = scan (line + text.count '\n') after rest

/-- The scan gets over `text` and leaves open what was open. -/
def Balanced (text : List Char) : Prop :=
  ∀ opened, Passes opened text opened

theorem Passes.nil (opened : List (List Char)) : Passes opened [] opened :=
  fun _ _ => rfl

theorem Passes.append {before middle after : List (List Char)} {first second : List Char}
    (passes : Passes before first middle) (later : Passes middle second after) :
    Passes before (first ++ second) after := by
  intro line rest
  rw [List.append_assoc, passes, later, List.count_append, Nat.add_assoc]

theorem Balanced.nil : Balanced [] :=
  Passes.nil

theorem Balanced.append {first second : List Char} (balanced : Balanced first)
    (later : Balanced second) : Balanced (first ++ second) :=
  fun opened => (balanced opened).append (later opened)

theorem Balanced.flatMap {α : Type} {f : α → List Char} {items : List α}
    (each : ∀ item ∈ items, Balanced (f item)) : Balanced (items.flatMap f) := by
  induction items with
  | nil => exact .nil
  | cons item items ih =>
    obtain ⟨first, rest⟩ := List.forall_mem_cons.mp each
    exact first.append (ih rest)

theorem checkNesting_of_passes {markup : List Char} (passes : Passes [] markup []) :
    checkNesting markup = .ok () := by
  have whole := passes 1 []
  rw [List.append_nil] at whole
  rw [checkNesting, whole, scan]

/-! ### Text -/

theorem balanced_char {c : Char} (notBracket : c ≠ '<') (notEntity : c ≠ '&') : Balanced [c] := by
  intro opened line rest
  rw [List.singleton_append, scan, if_neg (by simp [notBracket, notEntity]), List.count_singleton]
  by_cases newline : c = '\n'
  · simp [newline]
  · simp [newline]

theorem scan_of_step {c : Char} {body rest : List Char} {before after : List (List Char)} {line : Nat}
    (special : (c = '<' || c = '&') = true)
    (step : (if c = '<' then stepBracket line before (body ++ rest)
      else stepEntity line before (body ++ rest)) = .ok ⟨body.length, after⟩) :
    scan line before (c :: (body ++ rest)) = scan (line + (c :: body).count '\n') after rest := by
  have notNewline : c ≠ '\n' := by
    rintro rfl
    exact absurd special (by decide)
  rw [scan, if_pos special, step]
  simp [List.count_cons_of_ne notNewline]

/-- What the check lets stand between the `&` and the `;` of an entity. -/
def EntityName (body : List Char) : Prop :=
  body ≠ [] ∧ body.length ≤ 32 ∧ ∀ c ∈ body, (c.isAlphanum || c == '#') = true

theorem entityLength?_eq_some_iff {text : List Char} {length : Nat} :
    entityLength? text = some length ↔
      ∃ body rest, EntityName body ∧ text = body ++ ';' :: rest ∧ length = body.length + 2 := by
  unfold entityLength?
  constructor
  · intro found
    have letters : ∀ c ∈ (text.take 33).takeWhile (fun c => c.isAlphanum || c == '#'),
        (c.isAlphanum || c == '#') = true := List.all_eq_true.mp List.all_takeWhile
    have starts : (text.take 33).takeWhile (fun c => c.isAlphanum || c == '#') <+: text :=
      (List.takeWhile_prefix _).trans (List.take_prefix 33 text)
    generalize (text.take 33).takeWhile (fun c => c.isAlphanum || c == '#') = body at *
    simp only [Option.ite_none_right_eq_some, Bool.and_eq_true, decide_eq_true_eq,
      Option.some.injEq] at found
    obtain ⟨⟨⟨ends, some⟩, short⟩, rfl⟩ := found
    obtain ⟨rest, rfl⟩ := starts
    rw [List.getElem?_append_right (Nat.le_refl _), Nat.sub_self] at ends
    cases rest with
    | nil => cases ends
    | cons c rest =>
      cases ends
      exact ⟨body, rest, ⟨List.length_pos_iff.mp some, by omega, letters⟩, rfl, rfl⟩
  · rintro ⟨body, rest, ⟨some, short, letters⟩, rfl, rfl⟩
    have nonempty := List.length_pos_iff.mpr some
    obtain ⟨room, long⟩ : ∃ room, 33 - body.length = room + 1 := ⟨32 - body.length, by omega⟩
    have taken : ((body ++ ';' :: rest).take 33).takeWhile (fun c => c.isAlphanum || c == '#') = body := by
      rw [List.take_append, List.take_of_length_le (by omega), long, List.take_succ_cons,
        List.takeWhile_append_of_pos letters, List.takeWhile_cons_of_neg (by decide), List.append_nil]
    rw [taken, if_pos]
    simp only [List.getElem?_append_right (Nat.le_refl _), Nat.sub_self, List.getElem?_cons_zero,
      decide_true, Bool.true_and, Bool.and_eq_true, decide_eq_true_eq]
    exact ⟨nonempty, by omega⟩

theorem balanced_entity {body : List Char} (valid : EntityName body) :
    Balanced ('&' :: (body ++ [';'])) := by
  intro opened line rest
  refine scan_of_step (by decide) ?_
  rw [if_neg (by decide), List.append_assoc, List.singleton_append, stepEntity,
    entityLength?_eq_some_iff.mpr ⟨body, rest, valid, rfl, rfl⟩]
  simp

theorem EntityBody.entityName {body : List Char} (valid : EntityBody body) : EntityName body := by
  obtain ⟨short, first, others, rfl, start, plain⟩ := valid
  refine ⟨by simp, short, fun c mem => ?_⟩
  rcases List.mem_cons.mp mem with rfl | later
  · simpa using start
  · simp [plain c later]

theorem balanced_escapeChar (c : Char) : Balanced (escapeChar c) := by
  rcases escapeChar_eq_entity c with ⟨plain, notEntity, notBracket⟩ | ⟨body, valid, entity⟩
  · rw [plain]
    exact balanced_char notBracket notEntity
  · rw [entity]
    exact balanced_entity (EntityBody.entityName valid)

theorem balanced_escape (text : List Char) : Balanced (escape text) :=
  Balanced.flatMap fun c _ => balanced_escapeChar c

/-- What can end text or a quoted value is not in an escaped text. -/
theorem notMem_escape {special : Char} (listed : special ∈ ['<', '>', '"', '\'']) (text : List Char) :
    special ∉ escape text := by
  intro mem
  obtain ⟨c, _, inside⟩ := List.mem_flatMap.mp mem
  have fixed : (['<', '>', '"', '\''].all fun special =>
      ["&amp;", "&lt;", "&gt;", "&quot;", "&#39;"].all fun entity => decide (special ∉ entity.toList)) =
        true := by decide
  have free : ∀ entity ∈ ["&amp;", "&lt;", "&gt;", "&quot;", "&#39;"], special ∉ entity.toList := by
    intro entity mem
    exact of_decide_eq_true (List.all_eq_true.mp (List.all_eq_true.mp fixed special listed) entity mem)
  unfold escapeChar at inside
  split at inside
  · exact free "&amp;" (by decide) inside
  · exact free "&lt;" (by decide) inside
  · exact free "&gt;" (by decide) inside
  · exact free "&quot;" (by decide) inside
  · exact free "&#39;" (by decide) inside
  · rename_i less greater double single
    obtain rfl := List.mem_singleton.mp inside
    simp only [List.mem_cons, List.not_mem_nil, or_false] at listed
    exact listed.elim less (·.elim greater (·.elim double single))

theorem quote_notMem_escape (text : List Char) : '"' ∉ escape text :=
  notMem_escape (by decide) text

/-! ### Tags -/

/-- The quote that is open after a character inside a tag; nothing if the character is a bracket outside
quotes. -/
def quoteStep (quote : Option Char) (c : Char) : Option (Option Char) :=
  match quote with
  | some q => some (if c = q then none else some q)
  | none =>
    if c = '>' || c = '<' then none else some (if c = '"' || c = '\'' then some c else none)

theorem tagLength?_append {body : List Char} {quote next : Option Char}
    (quotes : body.foldlM quoteStep quote = some next) (passed : Nat) (rest : List Char) :
    tagLength? quote passed (body ++ rest) = tagLength? next (passed + body.length) rest := by
  induction body generalizing quote passed with
  | nil =>
    cases quotes
    rfl
  | cons c body ih =>
    rw [List.foldlM_cons] at quotes
    obtain ⟨middle, step, quotes⟩ := Option.bind_eq_some_iff.mp quotes
    have shifted : passed + (c :: body).length = passed + 1 + body.length := by
      simp only [List.length_cons]
      omega
    rw [List.cons_append, shifted, ← ih quotes]
    cases quote with
    | some q =>
      cases step
      rfl
    | none =>
      rw [tagLength?.eq_def]
      unfold quoteStep at step
      by_cases bracket : c = '>' ∨ c = '<'
      · simp [bracket] at step
      · obtain ⟨notEnd, notStart⟩ := not_or.mp bracket
        simp only [notEnd, notStart, decide_false, Bool.or_self, Bool.false_eq_true, if_false,
          Option.some.injEq] at step
        subst step
        simp only [notEnd, notStart, if_false]
        split <;> rfl

theorem foldlM_quoteStep_of_notMem {q : Char} {text : List Char} (free : q ∉ text) :
    text.foldlM quoteStep (some q) = some (some q) := by
  induction text with
  | nil => rfl
  | cons c text ih =>
    obtain ⟨different, free⟩ := not_or.mp (mt List.mem_cons.mpr free)
    rw [List.foldlM_cons, quoteStep, if_neg (Ne.symm different)]
    exact ih free

/-- What stands between the brackets of a tag: all its quotes are closed, and no bracket is outside
them. -/
def IsTag (body : List Char) : Prop :=
  body.foldlM quoteStep none = some none

instance (body : List Char) : Decidable (IsTag body) :=
  inferInstanceAs (Decidable (_ = _))

theorem IsTag.tagLength?_eq {body : List Char} (tag : IsTag body) (rest : List Char) :
    tagLength? none 0 (body ++ '>' :: rest) = some body.length := by
  rw [tagLength?_append tag, tagLength?]
  simp

theorem drop_tag (body rest : List Char) : (body ++ '>' :: rest).drop (body.length + 1) = rest := by
  rw [List.drop_append]
  simp

theorem tag_append (body rest : List Char) :
    '<' :: (body ++ ['>']) ++ rest = '<' :: (body ++ '>' :: rest) := by
  simp

theorem dropRun?_comment {body : List Char} (plain : ¬ ['!', '-', '-'] <+: body) (rest : List Char) :
    Text.dropRun? ['!', '-', '-'] (body ++ '>' :: rest) = none := by
  rw [Option.eq_none_iff_forall_ne_some]
  intro after found
  have starts : ['!', '-', '-'] <+: body ++ '>' :: rest :=
    ⟨after, (Text.dropRun?_eq_some_iff.mp found).symm⟩
  match body with
  | [] => simp at starts
  | [c] => simp at starts
  | [c, d] => simp at starts
  | c :: d :: e :: more => exact plain (by simpa using starts)

theorem scan_tag {body rest : List Char} {before after : List (List Char)} {line : Nat}
    (plain : ¬ ['!', '-', '-'] <+: body)
    (step : stepTag line before (body ++ '>' :: rest) = .ok ⟨body.length + 1, after⟩) :
    scan line before ('<' :: (body ++ '>' :: rest)) =
      scan (line + ('<' :: (body ++ ['>'])).count '\n') after rest := by
  have whole : body ++ '>' :: rest = (body ++ ['>']) ++ rest := by simp
  rw [whole]
  refine scan_of_step (by decide) ?_
  rw [if_pos rfl, ← whole, stepBracket, dropRun?_comment plain]
  simpa using step

theorem passes_tag {body : List Char} {before after : List (List Char)}
    (plain : ¬ ['!', '-', '-'] <+: body)
    (step : ∀ line rest, stepTag line before (body ++ '>' :: rest) = .ok ⟨body.length + 1, after⟩) :
    Passes before ('<' :: (body ++ ['>'])) after := by
  intro line rest
  rw [tag_append]
  exact scan_tag plain (step line rest)

theorem balanced_declaration {body : List Char} (tag : IsTag body)
    (declares : body.head? = some '!' ∨ body.head? = some '?') (plain : ¬ ['!', '-', '-'] <+: body) :
    Balanced ('<' :: (body ++ ['>'])) := by
  intro opened
  refine passes_tag plain fun line rest => ?_
  rw [stepTag, tag.tagLength?_eq]
  cases body with
  | nil => simp at declares
  | cons c body =>
    simp only [List.head?_cons, Option.some.injEq] at declares
    rcases declares with rfl | rfl
    · simp
    · simp

theorem passes_closing {tag name : List Char} (closes : IsTag ('/' :: tag))
    (named : closingName tag = name) (outer : List (List Char)) :
    Passes (name :: outer) ('<' :: ('/' :: tag ++ ['>'])) outer := by
  refine passes_tag (by simp) fun line rest => ?_
  rw [stepTag, closes.tagLength?_eq]
  simp [stepClosing, named]

/-! ### Opening tags -/

/-- A tag that opens an element of the given name, and does not close it in itself. -/
structure Opens (body name : List Char) : Prop where
  tag : IsTag body
  named : tagName? body = some name
  stays : body.getLast? ≠ some '/'

theorem isAlpha_of_tagName?_eq_some {body name : List Char} (named : tagName? body = some name) :
    ∃ c rest, body = c :: rest ∧ c.isAlpha = true := by
  cases body with
  | nil => cases named
  | cons c rest =>
    refine ⟨c, rest, rfl, ?_⟩
    unfold tagName? at named
    split at named
    · cases named
    · rename_i first others taken
      split at named
      · rename_i letter
        rw [List.takeWhile_cons] at taken
        split at taken
        · cases taken
          exact letter
        · cases taken
      · cases named

theorem stepTag_of_tagName? {body name : List Char} (tag : IsTag body)
    (named : tagName? body = some name) (line : Nat) (opened : List (List Char)) (rest : List Char) :
    stepTag line opened (body ++ '>' :: rest) =
      stepOpening line opened body rest (body.length + 1) := by
  obtain ⟨c, more, rfl, letter⟩ := isAlpha_of_tagName?_eq_some named
  rw [stepTag, tag.tagLength?_eq]
  have taken : (c :: more ++ '>' :: rest).take (c :: more).length = c :: more := by simp
  simp only [taken, drop_tag]
  split
  · rename_i same
    cases same
    exact absurd letter (by decide)
  · rename_i same
    cases same
    exact absurd letter (by decide)
  · rename_i same
    cases same
    exact absurd letter (by decide)
  · rfl

theorem not_comment_of_tagName? {body name : List Char} (named : tagName? body = some name) :
    ¬ ['!', '-', '-'] <+: body := by
  obtain ⟨c, more, rfl, letter⟩ := isAlpha_of_tagName?_eq_some named
  intro starts
  obtain rfl := (List.cons_prefix_cons.mp starts).1
  exact absurd letter (by decide)

theorem balanced_single {body name : List Char} (tag : IsTag body) (named : tagName? body = some name)
    (single : name ∈ voidElements ∨ body.getLast? = some '/') : Balanced ('<' :: (body ++ ['>'])) := by
  intro opened
  refine passes_tag (not_comment_of_tagName? named) fun line rest => ?_
  rw [stepTag_of_tagName? tag named, stepOpening, named]
  rcases single with void | ended
  · simp [void]
  · simp [ended]

theorem Opens.passes {body name : List Char} (opens : Opens body name) (notVoid : name ∉ voidElements)
    (notRaw : name ∉ rawElements) (outer : List (List Char)) :
    Passes outer ('<' :: (body ++ ['>'])) (name :: outer) := by
  refine passes_tag (not_comment_of_tagName? opens.named) fun line rest => ?_
  rw [stepTag_of_tagName? opens.tag opens.named, stepOpening, opens.named]
  simp [opens.stays, notVoid, notRaw]

theorem rawLength?_of_closing {name : List Char} (small : lower name = name) (rest : List Char) :
    rawLength? name ('<' :: '/' :: (name ++ rest)) = some 0 := by
  have start : lower ('<' :: '/' :: (name ++ rest)) = '<' :: '/' :: name ++ lower rest := by
    have lowered : lower (name ++ rest) = name ++ lower rest := by
      rw [← congrArg (· ++ lower rest) small]
      exact List.map_append
    rw [List.cons_append, List.cons_append, ← lowered]
    rfl
  rw [rawLength?, start, Text.splitAtRun, List.cons_append, Text.splitAtRunFrom, if_pos]
  · rfl
  · exact List.isPrefixOf_iff_prefix.mpr (List.prefix_append ('<' :: '/' :: name) (lower rest))

theorem Opens.balanced_raw {body name text tag : List Char} (opens : Opens body name)
    (notVoid : name ∉ voidElements) (raw : name ∈ rawElements) (closes : IsTag ('/' :: tag))
    (named : closingName tag = name)
    (skips : ∀ rest, rawLength? name (text ++ ('<' :: ('/' :: tag ++ ['>']) ++ rest)) = some text.length) :
    Balanced ('<' :: (body ++ '>' :: (text ++ '<' :: ('/' :: tag ++ ['>'])))) := by
  intro opened line rest
  have whole : '<' :: (body ++ '>' :: (text ++ '<' :: ('/' :: tag ++ ['>']))) ++ rest =
      '<' :: ((body ++ '>' :: text) ++ ('<' :: ('/' :: tag ++ ['>']) ++ rest)) := by simp
  have first : scan line opened ('<' :: ((body ++ '>' :: text) ++ ('<' :: ('/' :: tag ++ ['>']) ++ rest))) =
      scan (line + ('<' :: (body ++ '>' :: text)).count '\n') (name :: opened)
        ('<' :: ('/' :: tag ++ ['>']) ++ rest) := by
    refine scan_of_step (by decide) ?_
    rw [if_pos rfl, List.append_assoc, List.cons_append, stepBracket,
      dropRun?_comment (not_comment_of_tagName? opens.named)]
    simp only [stepTag_of_tagName? opens.tag opens.named, stepOpening, opens.named, opens.stays, notVoid,
      raw, skips, decide_false, Bool.or_self, Bool.false_eq_true, if_false, if_true, List.length_append,
      List.length_cons]
    rw [Nat.add_right_comm, Nat.add_assoc]
  rw [whole, first, passes_closing closes named opened, Nat.add_assoc, ← List.count_append]
  simp

theorem Opens.balanced_raw_nil {body name : List Char} (opens : Opens body name)
    (notVoid : name ∉ voidElements) (raw : name ∈ rawElements) :
    Balanced ('<' :: (body ++ ['>']) ++ '<' :: ('/' :: name ++ ['>'])) := by
  have small : ∀ name ∈ rawElements, lower name = name ∧ closingName name = name ∧ IsTag ('/' :: name) := by
    decide
  obtain ⟨lowered, closes, tag⟩ := small name raw
  have skips : ∀ rest, rawLength? name ([] ++ ('<' :: ('/' :: name ++ ['>']) ++ rest)) = some 0 := by
    intro rest
    rw [List.nil_append, List.cons_append, List.append_assoc, List.cons_append]
    exact rawLength?_of_closing lowered (['>'] ++ rest)
  simpa using opens.balanced_raw notVoid raw tag closes skips

end CodeAtlas.Markup.Nesting
