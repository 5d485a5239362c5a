import CodeAtlas.Proofs.Markup.Filling
import CodeAtlas.Proofs.Markup.Grammar
import Mathlib.Data.List.Basic

/-!
# Templates are read before their values

Which places of a template are filled depends on the template and on the names of the values, never on the
values. `segments` cuts a template so, and `fill_by_segments` shows that it is the only cut that is right
for every assignment of values.
-/

namespace CodeAtlas.Markup

namespace Part

def spelling : Part → List Char
  | .char c => [c]
  | .place key => '{' :: '{' :: (key ++ ['}', '}'])

/-- What a part comes to if `value` gives the values. -/
def textBy (value : List Char → List Char) : Part → List Char
  | .char c => [c]
  | .place key => value key

/-- Of two values for one key the first counts. -/
theorem text_place {before : Values} {key : List Char} (fresh : key ∉ before.map Prod.fst)
    (value : List Char) (after : Values) : text (before ++ (key, value) :: after) (.place key) = value := by
  have unlisted : before.find? (fun entry => entry.1 = key) = none := by
    rw [List.find?_eq_none]
    intro entry mem same
    exact fresh (List.mem_map.mpr ⟨entry, mem, by simpa using same⟩)
  simp [text, Values.get?, unlisted]

end Part

theorem Values.contains_map_fst (values : Values) (key : List Char) :
    (values.map Prod.fst).contains key = (values.get? key).isSome := by
  rw [Bool.eq_iff_iff, List.contains_iff_mem]
  simp [get?]

/-! ### Cutting a template -/

/-- The key of the place whose opening braces were just passed, if it is listed. -/
def listedKey? (names : List (List Char)) (text : List Char) : Option (List Char) :=
  ((Text.splitAtRun ['}', '}'] text).map Prod.fst).filter names.contains

theorem listedKey?_eq_some_iff {names : List (List Char)} {text key : List Char} :
    listedKey? names text = some key ↔
      key ∈ names ∧ ∃ rest, text = key ++ '}' :: '}' :: rest ∧ Text.First ['}', '}'] key ('}' :: '}' :: rest) := by
  rw [listedKey?, Option.filter_eq_some_iff, List.contains_iff_mem, and_comm]
  refine and_congr_right fun _ => ?_
  constructor
  · intro found
    obtain ⟨⟨head, tail⟩, cut, rfl⟩ := Option.map_eq_some_iff.mp found
    obtain ⟨rfl, first⟩ := Text.splitAtRun_eq_some_iff.mp cut
    obtain ⟨rest, rfl⟩ := first.1
    exact ⟨rest, rfl, first⟩
  · rintro ⟨rest, rfl, first⟩
    rw [Text.splitAtRun_eq_some_iff.mpr ⟨rfl, first⟩]
    rfl

theorem placeValue?_eq (values : Values) (text : List Char) :
    placeValue? values text =
      (listedKey? (values.map Prod.fst) text).map fun key => (Part.text values (.place key), key.length + 2) := by
  unfold placeValue? listedKey?
  cases Text.splitAtRun ['}', '}'] text with
  | none => rfl
  | some cut =>
    obtain ⟨key, tail⟩ := cut
    simp only [Option.map_some, Option.filter_some, values.contains_map_fst]
    cases found : values.get? key with
    | none => rfl
    | some value => simp [Part.text, found]

def segments (names : List (List Char)) : (template : List Char) → List Part
  | '{' :: '{' :: rest =>
    match listedKey? names rest with
    | some key => .place key :: segments names (rest.drop (key.length + 2))
    | none => .char '{' :: .char '{' :: segments names rest
  | c :: rest => .char c :: segments names rest
  | [] => []
termination_by template => template.length
decreasing_by all_goals simp <;> omega

section

variable {names : List (List Char)}

theorem segments_place {key tail : List Char}
    (listed : listedKey? names (key ++ '}' :: '}' :: tail) = some key) :
    segments names ('{' :: '{' :: (key ++ '}' :: '}' :: tail)) = .place key :: segments names tail := by
  have cut : (key ++ '}' :: '}' :: tail).drop (key.length + 2) = tail := by simp
  rw [segments, listed]
  exact congrArg (.place key :: segments names ·) cut

theorem segments_braces {rest : List Char} (unlisted : listedKey? names rest = none) :
    segments names ('{' :: '{' :: rest) = .char '{' :: .char '{' :: segments names rest := by
  rw [segments, unlisted]

theorem segments_char {c : Char} {rest : List Char} (plain : ∀ more, c = '{' → rest ≠ '{' :: more) :
    segments names (c :: rest) = .char c :: segments names rest := by
  rw [segments]
  exact fun more brace => plain more brace

theorem segments_nil : segments names [] = [] := by
  rw [segments]

/-- The four ways in which a template goes on. -/
@[elab_as_elim]
theorem segments_induction (names : List (List Char)) {motive : List Char → Prop}
    (place : ∀ key tail, listedKey? names (key ++ '}' :: '}' :: tail) = some key → motive tail →
      motive ('{' :: '{' :: (key ++ '}' :: '}' :: tail)))
    (braces : ∀ rest, listedKey? names rest = none → motive rest → motive ('{' :: '{' :: rest))
    (char : ∀ c rest, (∀ more, c = '{' → rest ≠ '{' :: more) → motive rest → motive (c :: rest))
    (nil : motive []) (template : List Char) : motive template := by
  induction template using segments.induct names with
  | case1 rest key listed ih =>
    obtain ⟨_, tail, rfl, _⟩ := listedKey?_eq_some_iff.mp listed
    exact place key tail listed (by simpa using ih)
  | case2 rest unlisted ih => exact braces rest unlisted ih
  | case3 c rest plain ih => exact char c rest plain ih
  | case4 => exact nil

theorem mem_names_of_place_mem {template key : List Char} (mem : .place key ∈ segments names template) :
    key ∈ names := by
  induction template using segments_induction names with
  | place found tail listed ih =>
    rw [segments_place listed] at mem
    rcases List.mem_cons.mp mem with same | later
    · cases same
      exact (listedKey?_eq_some_iff.mp listed).1
    · exact ih later
  | braces rest unlisted ih =>
    rw [segments_braces unlisted] at mem
    exact ih (by simpa using mem)
  | char c rest plain ih =>
    rw [segments_char plain] at mem
    exact ih (by simpa using mem)
  | nil =>
    rw [segments_nil] at mem
    cases mem

theorem flatMap_spelling_segments (names : List (List Char)) (template : List Char) :
    (segments names template).flatMap Part.spelling = template := by
  induction template using segments_induction names with
  | place key tail listed ih =>
    rw [segments_place listed, List.flatMap_cons, ih]
    simp [Part.spelling]
  | braces rest unlisted ih => rw [segments_braces unlisted, List.flatMap_cons, List.flatMap_cons, ih]; rfl
  | char c rest plain ih => rw [segments_char plain, List.flatMap_cons, ih]; rfl
  | nil => rw [segments_nil]; rfl

theorem fill_eq_segments (values : Values) (template : List Char) :
    fill values template = (segments (values.map Prod.fst) template).flatMap (Part.text values) := by
  induction template using segments_induction (values.map Prod.fst) with
  | place key tail listed ih =>
    rw [fill, placeValue?_eq, listed, segments_place listed, List.flatMap_cons, ← ih]
    simp
  | braces rest unlisted ih =>
    rw [fill, placeValue?_eq, unlisted, segments_braces unlisted, List.flatMap_cons, List.flatMap_cons, ← ih]
    rfl
  | char c rest plain ih =>
    rw [segments_char plain, List.flatMap_cons, ← ih, fill]
    · rfl
    · exact plain
  | nil => rw [fill, segments_nil]; rfl

/-! ### The only cut -/

theorem Values.get?_map {key : List Char} (listed : key ∈ names) (value : List Char → List Char) :
    Values.get? (names.map fun name => (name, value name)) key = some (value key) := by
  have found : names.find? (fun name => decide (name = key)) = some key := by
    cases first : names.find? (fun name => decide (name = key)) with
    | none => exact absurd (List.find?_eq_none.mp first key listed) (by simp)
    | some name =>
      have same : name = key := by simpa using List.find?_some first
      rw [same]
  rw [get?, List.find?_map]
  exact congrArg (fun found => (found.map fun name => (name, value name)).map Prod.snd) found

theorem flatMap_text_map {parts : List Part} (listed : ∀ key, .place key ∈ parts → key ∈ names)
    (value : List Char → List Char) :
    parts.flatMap (Part.text (names.map fun name => (name, value name))) = parts.flatMap (Part.textBy value) := by
  refine List.flatMap_congr fun part mem => ?_
  cases part with
  | char c => rfl
  | place key => rw [Part.text, Values.get?_map (listed key mem)]; rfl

/-- Two parts can be told apart by the first character of what they come to. -/
theorem Part.exists_textBy_ne {first second : Part} (different : first ≠ second) :
    ∃ value c d, c ≠ d ∧ first.textBy value = [c] ∧ second.textBy value = [d] := by
  have another : ∀ c : Char, ∃ d, c ≠ d := fun c => by
    by_cases same : c = 'a'
    · exact ⟨'b', by simp [same]⟩
    · exact ⟨'a', same⟩
  cases first with
  | char c =>
    cases second with
    | char d => exact ⟨fun _ => [], c, d, fun same => different (by rw [same]), rfl, rfl⟩
    | place key =>
      obtain ⟨d, apart⟩ := another c
      exact ⟨fun _ => [d], c, d, apart, rfl, rfl⟩
  | place key =>
    cases second with
    | char d =>
      obtain ⟨c, apart⟩ := another d
      exact ⟨fun _ => [c], c, d, apart.symm, rfl, rfl⟩
    | place other =>
      refine ⟨fun name => if name = key then ['a'] else ['b'], 'a', 'b', by decide, if_pos rfl, if_neg ?_⟩
      exact fun same => different (by rw [same])

theorem eq_of_flatMap_textBy_eq {first second : List Part}
    (same : ∀ value, first.flatMap (Part.textBy value) = second.flatMap (Part.textBy value)) :
    first = second := by
  have nonempty : ∀ part : Part, part.textBy (fun _ => ['a']) ≠ [] := fun part => by
    cases part <;> simp [Part.textBy]
  induction first generalizing second with
  | nil =>
    cases second with
    | nil => rfl
    | cons part second =>
      have empty := (same fun _ => ['a']).symm
      rw [List.flatMap_cons, List.flatMap_nil, List.append_eq_nil_iff] at empty
      exact absurd empty.1 (nonempty part)
  | cons part first ih =>
    cases second with
    | nil =>
      have empty := same fun _ => ['a']
      rw [List.flatMap_cons, List.flatMap_nil, List.append_eq_nil_iff] at empty
      exact absurd empty.1 (nonempty part)
    | cons other second =>
      simp only [List.flatMap_cons] at same
      by_cases equal : part = other
      · subst equal
        rw [ih fun value => List.append_cancel_left (same value)]
      · obtain ⟨value, c, d, apart, here, there⟩ := Part.exists_textBy_ne equal
        have heads := same value
        rw [here, there] at heads
        exact absurd (List.cons.inj heads).1 apart

/-! ### Stretches of a template -/

/-- No listed key ends behind an opening brace, so none begins before it and ends behind it. -/
theorem listedKey?_append {more : List Char}
    (unlisted : ∀ front inside rest, '{' :: more = inside ++ '}' :: '}' :: rest → front ++ inside ∉ names)
    (text : List Char) : listedKey? names (text ++ '{' :: more) = listedKey? names text := by
  refine Option.ext fun key => ?_
  rw [listedKey?_eq_some_iff, listedKey?_eq_some_iff]
  refine and_congr_right fun listed => ⟨?_, ?_⟩
  · rintro ⟨rest, whole, first⟩
    rcases List.append_eq_append_iff.mp whole with ⟨inside, rfl, later⟩ | ⟨tail, rfl, later⟩
    · exact absurd listed (unlisted text inside rest later)
    · -- The closing braces begin in `text`, and what follows `text` is no closing brace.
      rcases tail with _ | ⟨c, _ | ⟨d, tail⟩⟩
      · simp at later
      · simp at later
      · simp only [List.cons_append, List.cons.injEq] at later
        obtain ⟨rfl, rfl, rfl⟩ := later
        exact ⟨tail, rfl, (Text.first_append_iff (by simp) ('{' :: more)).mp first⟩
  · rintro ⟨rest, rfl, first⟩
    refine ⟨rest ++ '{' :: more, by simp, ?_⟩
    exact (Text.first_append_iff (by simp) ('{' :: more)).mpr first

theorem segments_append {before more : List Char} (apart : before.getLast? ≠ some '{')
    (unlisted : ∀ front inside rest, '{' :: more = inside ++ '}' :: '}' :: rest → front ++ inside ∉ names) :
    segments names (before ++ '{' :: more) = segments names before ++ segments names ('{' :: more) := by
  have key? := listedKey?_append unlisted
  have shorter : ∀ front tail : List Char, (front ++ tail).getLast? ≠ some '{' → tail.getLast? ≠ some '{' := by
    intro front tail apart last
    exact apart (by rw [List.getLast?_append, last]; rfl)
  induction before using segments_induction names with
  | place key tail listed ih =>
    have apart' := shorter ('{' :: '{' :: (key ++ ['}', '}'])) tail (by simpa using apart)
    have there : listedKey? names (key ++ '}' :: '}' :: (tail ++ '{' :: more)) = some key := by
      simpa [listed] using key? (key ++ '}' :: '}' :: tail)
    simpa [segments_place listed, ih apart'] using segments_place there
  | braces rest missing ih =>
    rw [segments_braces missing, List.cons_append, List.cons_append, List.cons_append, List.cons_append,
      ← ih (shorter ['{', '{'] rest apart)]
    exact segments_braces ((key? rest).trans missing)
  | char c rest plain ih =>
    rw [segments_char plain, List.cons_append, List.cons_append, ← ih (shorter [c] rest apart)]
    refine segments_char fun tail brace same => ?_
    cases rest with
    | nil => simp [brace] at apart
    | cons d rest =>
      obtain ⟨rfl, _⟩ := List.cons.inj same
      exact plain _ brace rfl
  | nil => rw [segments_nil]; rfl

theorem segments_literal {text : List Char} (plain : '{' ∉ text) (rest : List Char) :
    segments names (text ++ rest) = text.map .char ++ segments names rest := by
  induction text with
  | nil => rfl
  | cons c text ih =>
    rw [List.mem_cons, not_or] at plain
    rw [List.cons_append, segments_char fun more brace => absurd brace.symm plain.1, ih plain.2]
    rfl

/-- Without closing braces there are no places. -/
theorem segments_unterminated {text : List Char} (unterminated : ¬ ['}', '}'] <:+: text) :
    segments names text = text.map .char := by
  induction text using segments_induction names with
  | place key tail listed ih =>
    exact absurd ⟨'{' :: '{' :: key, tail, by simp⟩ unterminated
  | braces rest unlisted ih =>
    have inner : ¬ ['}', '}'] <:+: rest := fun inside =>
      unterminated (inside.trans (List.suffix_append ['{', '{'] rest).isInfix)
    rw [segments_braces unlisted, ih inner]
    rfl
  | char c rest plain ih =>
    have inner : ¬ ['}', '}'] <:+: rest := fun inside =>
      unterminated (inside.trans (List.suffix_cons c rest).isInfix)
    rw [segments_char plain, ih inner]
    rfl
  | nil => rw [segments_nil]; rfl

theorem segments_append_unterminated {before rest : List Char} (apart : before.getLast? ≠ some '{')
    (unterminated : ¬ ['}', '}'] <:+: rest) :
    segments names (before ++ '{' :: '{' :: rest) =
      segments names before ++ ('{' :: '{' :: rest).map .char := by
  have none : ¬ ['}', '}'] <:+: '{' :: '{' :: rest := by
    simpa [List.infix_cons_iff] using unterminated
  rw [segments_append apart, segments_unterminated none]
  intro front inside tail same
  exact absurd ⟨inside, tail, by simpa using same.symm⟩ none

theorem listedKey?_of_notMem {key : List Char} (unclosed : '}' ∉ key) (rest : List Char) :
    listedKey? names (key ++ '}' :: '}' :: rest) = if key ∈ names then some key else none := by
  have first : Text.First ['}', '}'] key ('}' :: '}' :: rest) := by
    induction key with
    | nil => exact Text.first_nil_iff.mpr ⟨rest, rfl⟩
    | cons c key ih =>
      rw [List.mem_cons, not_or] at unclosed
      exact Text.first_cons_iff.mpr ⟨by simp [unclosed.1], ih unclosed.2⟩
  rw [listedKey?, Text.splitAtRun_eq_some_iff.mpr ⟨rfl, first⟩]
  simp [Option.filter_some]

/-- A place without braces in its key is filled if the key is listed, and stays as it is if not. -/
theorem segments_append_place (free : ∀ name ∈ names, '{' ∉ name) {before key : List Char}
    (apart : before.getLast? ≠ some '{') (unopened : '{' ∉ key) (unclosed : '}' ∉ key) (after : List Char) :
    segments names (before ++ Part.spelling (.place key) ++ after) =
      segments names before ++
        (if key ∈ names then [.place key] else (Part.spelling (.place key)).map .char) ++ segments names after := by
  have key? : listedKey? names (key ++ '}' :: '}' :: after) = if key ∈ names then some key else none :=
    listedKey?_of_notMem unclosed after
  have place : segments names ('{' :: '{' :: (key ++ '}' :: '}' :: after)) =
      (if key ∈ names then [.place key] else (Part.spelling (.place key)).map .char) ++ segments names after := by
    split
    · rename_i listed
      exact segments_place (key?.trans (if_pos listed))
    · rename_i unlisted
      have plain : '{' ∉ key ++ ['}', '}'] := by simp [unopened]
      have inner : segments names (key ++ '}' :: '}' :: after) =
          (key ++ ['}', '}']).map .char ++ segments names after := by
        simpa using segments_literal plain after
      rw [segments_braces (key?.trans (if_neg unlisted)), inner]
      rfl
  have whole : before ++ Part.spelling (.place key) ++ after =
      before ++ '{' :: '{' :: (key ++ '}' :: '}' :: after) := by
    simp [Part.spelling]
  rw [whole, segments_append apart, place, List.append_assoc]
  -- A key that ends behind the opening brace holds this brace.
  rintro front inside rest same listed
  cases inside with
  | nil => simp at same
  | cons c inside =>
    obtain ⟨rfl, _⟩ := List.cons.inj same
    exact free _ listed (by simp)

/-- A reading of `template` with places for some of `names` that is right for every assignment of values to
them. -/
structure Segmentation (names : List (List Char)) (template : List Char) (parts : List Part) : Prop where
  listed : ∀ key, .place key ∈ parts → key ∈ names
  spelled : parts.flatMap Part.spelling = template
  filled : ∀ values : Values, values.map Prod.fst = names →
    fill values template = parts.flatMap (Part.text values)

theorem segmentation_segments (names : List (List Char)) (template : List Char) :
    Segmentation names template (segments names template) where
  listed _ := mem_names_of_place_mem
  spelled := flatMap_spelling_segments names template
  filled values same := same ▸ fill_eq_segments values template

theorem Segmentation.unique {template : List Char} {first second : List Part}
    (here : Segmentation names template first) (there : Segmentation names template second) :
    first = second := by
  refine eq_of_flatMap_textBy_eq fun value => ?_
  have keys : (names.map fun name => (name, value name)).map Prod.fst = names := by
    simp [Function.comp_def]
  rw [← flatMap_text_map here.listed, ← flatMap_text_map there.listed, ← here.filled _ keys, there.filled _ keys]

end

/-- There is one way to cut a template at some names so that filling, whatever the values, copies the
literal parts and puts in the values of the keys, the first of several. In it, opening braces that are never
closed are literal, with all that follows; and if no name has an opening brace, what lies around a place
without braces in its key has no influence on it, nor it on what lies around: it is a place if its key is
listed, and literal if not. -/
theorem fill_by_segments (names : List (List Char)) (template : List Char) :
    (∀ parts, Segmentation names template parts ↔ parts = segments names template) ∧
    (∀ before key value after, key ∉ before.map Prod.fst →
      Part.text (before ++ (key, value) :: after) (.place key) = value) ∧
    (∀ before rest, template = before ++ '{' :: '{' :: rest → before.getLast? ≠ some '{' →
      ¬ ['}', '}'] <:+: rest →
        segments names template = segments names before ++ ('{' :: '{' :: rest).map .char) ∧
    ((∀ name ∈ names, '{' ∉ name) → ∀ before key after,
      template = before ++ Part.spelling (.place key) ++ after →
      before.getLast? ≠ some '{' → '{' ∉ key → '}' ∉ key →
        segments names template =
          segments names before ++
            (if key ∈ names then [.place key] else (Part.spelling (.place key)).map .char) ++
              segments names after) := by
  refine ⟨fun parts => ⟨fun cut => ?_, ?_⟩, ?_, ?_, ?_⟩
  · exact cut.unique (segmentation_segments names template)
  · rintro rfl
    exact segmentation_segments names template
  · intro before key value after fresh
    exact Part.text_place fresh value after
  · rintro before rest rfl apart unterminated
    exact segments_append_unterminated apart unterminated
  · rintro free before key after rfl apart unopened unclosed
    exact segments_append_place free apart unopened unclosed after

/-- An unknown place, then braces without an end, then a place whose value looks like the unknown one. -/
theorem fill_by_segments_unmatched :
    fill [(['A'], Part.spelling (.place ['B']))]
        (Part.spelling (.place ['B']) ++ [' ', '{', '{', ' '] ++ Part.spelling (.place ['A'])) =
      Part.spelling (.place ['B']) ++ [' ', '{', '{', ' '] ++ Part.spelling (.place ['B']) := by
  have free : ∀ name ∈ [['A']], '{' ∉ name := by simp
  obtain ⟨cut, _, _, known⟩ := fill_by_segments [['A']]
    (Part.spelling (.place ['B']) ++ [' ', '{', '{', ' '] ++ Part.spelling (.place ['A']))
  obtain ⟨_, _, unterminated, _⟩ := fill_by_segments [['A']] (Part.spelling (.place ['B']) ++ [' ', '{', '{', ' '])
  obtain ⟨_, _, _, unknown⟩ := fill_by_segments [['A']] (Part.spelling (.place ['B']) ++ [' '])
  have space : segments [['A']] [' '] = [.char ' '] := by simp [segments]
  rw [((cut _).mpr rfl).filled _ rfl,
    known free (Part.spelling (.place ['B']) ++ [' ', '{', '{', ' ']) ['A'] [] (by simp) (by decide) (by decide)
      (by decide),
    unterminated (Part.spelling (.place ['B']) ++ [' ']) [' '] rfl (by decide) (by decide),
    unknown free [] ['B'] [' '] rfl (by decide) (by decide) (by decide), space, segments_nil]
  rfl

end CodeAtlas.Markup
