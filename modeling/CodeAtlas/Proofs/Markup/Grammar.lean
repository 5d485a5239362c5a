import CodeAtlas.Proofs.Markup.Scanning

/-!
# The grammar of well-nested markup

`Doc` gives the well-nested texts by rules that know nothing of a stack or of positions.
`checkNesting_iff_doc` shows that the check accepts these texts and refuses all others.
-/

namespace CodeAtlas.Text

/-- `run` begins at the start of `tail`, and nowhere earlier in `head ++ tail`. -/
def First (run head tail : List Char) : Prop :=
  run <+: tail ∧
    ∀ before after, before ++ after = head ++ tail → run <+: after → head.length ≤ before.length

theorem first_nil_iff {run tail : List Char} : First run [] tail ↔ run <+: tail :=
  ⟨fun first => first.1, fun starts => ⟨starts, fun before _ _ _ => Nat.zero_le before.length⟩⟩

theorem first_cons_iff {run head tail : List Char} {c : Char} :
    First run (c :: head) tail ↔ ¬ run <+: c :: (head ++ tail) ∧ First run head tail := by
  constructor
  · rintro ⟨starts, least⟩
    refine ⟨fun early => ?_, starts, fun before after same later => ?_⟩
    · exact absurd (least [] _ rfl early) (by simp)
    · have shifted := least (c :: before) after (by rw [List.cons_append, same, List.cons_append]) later
      simpa using shifted
  · rintro ⟨notEarly, starts, least⟩
    refine ⟨starts, fun before after same later => ?_⟩
    cases before with
    | nil =>
      obtain rfl : after = c :: (head ++ tail) := same
      exact absurd later notEarly
    | cons b before =>
      have shorter := least before after (List.cons.inj same).2 later
      simpa using shorter

theorem prefix_append_iff {run text : List Char} (short : run.length ≤ text.length) (rest : List Char) :
    run <+: text ++ rest ↔ run <+: text :=
  ⟨fun starts => List.prefix_of_prefix_length_le starts (List.prefix_append text rest) short,
    fun starts => starts.trans (List.prefix_append text rest)⟩

/-- What comes behind a whole run does not change where it first begins. -/
theorem first_append_iff {run head tail : List Char} (short : run.length ≤ tail.length)
    (rest : List Char) : First run head (tail ++ rest) ↔ First run head tail := by
  induction head with
  | nil => rw [first_nil_iff, first_nil_iff, prefix_append_iff short]
  | cons c head ih =>
    have room : run.length ≤ (c :: (head ++ tail)).length := by
      simp only [List.length_cons, List.length_append]
      omega
    rw [first_cons_iff, first_cons_iff, ih, ← List.append_assoc, ← List.cons_append,
      prefix_append_iff room]

theorem splitAtRunFrom_eq_some_iff {run before text head tail : List Char} :
    splitAtRunFrom run before text = some (head, tail) ↔
      ∃ passed, head = before.reverse ++ passed ∧ text = passed ++ tail ∧ First run passed tail := by
  induction text generalizing before with
  | nil =>
    rw [splitAtRunFrom]
    constructor
    · intro found
      split at found
      · rename_i empty
        cases found
        obtain rfl := List.isEmpty_iff.mp empty
        exact ⟨[], by simp, rfl, first_nil_iff.mpr List.prefix_rfl⟩
      · cases found
    · rintro ⟨passed, rfl, same, first⟩
      obtain ⟨rfl, rfl⟩ := List.append_eq_nil_iff.mp same.symm
      obtain rfl := List.prefix_nil.mp first.1
      simp
  | cons c text ih =>
    rw [splitAtRunFrom]
    by_cases here : run <+: c :: text
    · rw [if_pos (List.isPrefixOf_iff_prefix.mpr here)]
      constructor
      · intro found
        cases found
        exact ⟨[], by simp, rfl, first_nil_iff.mpr here⟩
      · rintro ⟨passed, rfl, same, first⟩
        cases passed with
        | nil => simp [same]
        | cons d passed =>
          rw [List.cons_append] at same
          exact absurd (same ▸ here) (first_cons_iff.mp first).1
    · rw [if_neg (mt List.isPrefixOf_iff_prefix.mp here), ih]
      constructor
      · rintro ⟨passed, rfl, rfl, first⟩
        exact ⟨c :: passed, by simp, rfl, first_cons_iff.mpr ⟨here, first⟩⟩
      · rintro ⟨passed, rfl, same, first⟩
        cases passed with
        | nil =>
          rw [List.nil_append] at same
          exact absurd (same ▸ first.1) here
        | cons d passed =>
          obtain ⟨rfl, rfl⟩ := List.cons.inj same
          exact ⟨passed, by simp, rfl, (first_cons_iff.mp first).2⟩

theorem splitAtRun_eq_some_iff {run text head tail : List Char} :
    splitAtRun run text = some (head, tail) ↔ text = head ++ tail ∧ First run head tail := by
  rw [splitAtRun, splitAtRunFrom_eq_some_iff]
  simp

theorem length_trim_le (text : List Char) : (trim text).length ≤ text.length := by
  have start : (trimStart text).length ≤ text.length := (List.dropWhile_suffix _).length_le
  have ends : (trim text).length ≤ (trimStart text).length := by
    rw [trim, trimEnd, List.length_reverse]
    exact (List.dropWhile_suffix _).length_le.trans (Nat.le_of_eq List.length_reverse)
  omega

end CodeAtlas.Text

namespace CodeAtlas.Markup.Nesting

/-! ### The rules -/

/-- What stands between the brackets of a tag: brackets only inside quotes, and each quote closed by the
next one of its kind. -/
inductive TagText : List Char → Prop where
  | nil : TagText []
  | plain {c : Char} {rest : List Char} :
    c ≠ '<' → c ≠ '>' → c ≠ '"' → c ≠ '\'' → TagText rest → TagText (c :: rest)
  | quoted {quote : Char} {inside rest : List Char} :
    quote = '"' ∨ quote = '\'' → quote ∉ inside → TagText rest →
      TagText (quote :: (inside ++ quote :: rest))

def NameChar (c : Char) : Prop :=
  (c.isAlphanum || c == '-') = true

/-- The tag starts with a letter, and with as much of a name as there is; `name` is that in lower case. -/
def StartsWithName (body name : List Char) : Prop :=
  ∃ first others rest, body = first :: (others ++ rest) ∧ first.isAlpha = true ∧
    (∀ c ∈ others, NameChar c) ∧ (∀ c ∈ rest.head?, ¬ NameChar c) ∧ name = lower (first :: others)

structure StartTag (body name : List Char) : Prop where
  text : TagText body
  named : StartsWithName body name

/-- A start tag whose element has a closing tag. -/
structure OpeningTag (body name : List Char) : Prop extends StartTag body name where
  notVoid : name ∉ voidElements
  stays : body.getLast? ≠ some '/'

inductive ClosingTag (name : List Char) : List Char → Prop where
  | intro {tag : List Char} :
    TagText tag → lower (Text.trim tag) = name → ClosingTag name ('<' :: ('/' :: tag ++ ['>']))

mutual

/-- One thing that a well-nested text is made of. -/
inductive Item : List Char → Prop where
  | char {c : Char} : c ≠ '<' → c ≠ '&' → Item [c]
  | entity {body : List Char} : EntityName body → Item ('&' :: (body ++ [';']))
  | comment {body : List Char} :
    Text.First ['-', '-', '>'] body ['-', '-', '>'] →
      Item ('<' :: (['!', '-', '-'] ++ (body ++ ['-', '-', '>'])))
  | declaration {body : List Char} :
    TagText body → body.head? = some '!' ∨ body.head? = some '?' → ¬ ['!', '-', '-'] <+: body →
      Item ('<' :: (body ++ ['>']))
  | single {body name : List Char} :
    StartTag body name → name ∈ voidElements ∨ body.getLast? = some '/' → Item ('<' :: (body ++ ['>']))
  | element {body name inside closing : List Char} :
    OpeningTag body name → name ∉ rawElements → Doc inside → ClosingTag name closing →
      Item ('<' :: (body ++ '>' :: (inside ++ closing)))
  /-- The text ends where the closing tag is first spelled, in any case. -/
  | raw {body name text closing : List Char} :
    OpeningTag body name → name ∈ rawElements →
      Text.First ('<' :: '/' :: name) (lower text) (lower closing) → ClosingTag name closing →
        Item ('<' :: (body ++ '>' :: (text ++ closing)))

inductive Doc : List Char → Prop where
  | nil : Doc []
  | cons {first rest : List Char} : Item first → Doc rest → Doc (first ++ rest)

end

/-! ### Tags -/

/-- From inside quotes, the text goes on to the closing quote. -/
theorem exists_of_foldlM_quoted {q : Char} {text : List Char}
    (quotes : text.foldlM quoteStep (some q) = some none) :
    ∃ inside rest, text = inside ++ q :: rest ∧ q ∉ inside ∧ IsTag rest := by
  induction text with
  | nil => cases quotes
  | cons c text ih =>
    rw [List.foldlM_cons, quoteStep] at quotes
    by_cases ends : c = q
    · subst ends
      exact ⟨[], text, rfl, List.not_mem_nil, by simpa [IsTag] using quotes⟩
    · rw [if_neg ends] at quotes
      obtain ⟨inside, rest, rfl, free, tag⟩ := ih quotes
      refine ⟨c :: inside, rest, rfl, fun mem => ?_, tag⟩
      rcases List.mem_cons.mp mem with same | later
      · exact ends same.symm
      · exact free later

theorem TagText.isTag {body : List Char} (text : TagText body) : IsTag body := by
  induction text with
  | nil => rfl
  | plain notStart notEnd notDouble notSingle _ ih =>
    rw [IsTag, List.foldlM_cons, quoteStep]
    simpa [notStart, notEnd, notDouble, notSingle, IsTag] using ih
  | @quoted quote inside rest kind free _ ih =>
    have opens : quoteStep none quote = some (some quote) := by
      rcases kind with rfl | rfl
      · rfl
      · rfl
    have closes : quoteStep (some quote) quote = some none := by simp [quoteStep]
    rw [IsTag, List.foldlM_cons, opens]
    show (inside ++ quote :: rest).foldlM quoteStep (some quote) = some none
    rw [List.foldlM_append, foldlM_quoteStep_of_notMem free]
    show (quote :: rest).foldlM quoteStep (some quote) = some none
    rw [List.foldlM_cons, closes]
    exact ih

theorem IsTag.tagText {body : List Char} (tag : IsTag body) : TagText body := by
  -- on the length: a quoted stretch is passed at once
  induction size : body.length using Nat.strongRecOn generalizing body with
  | ind n ih =>
    cases body with
    | nil => exact .nil
    | cons c rest =>
      subst size
      rw [IsTag, List.foldlM_cons] at tag
      obtain ⟨next, step, tag⟩ := Option.bind_eq_some_iff.mp tag
      by_cases bracket : c = '>' ∨ c = '<'
      · simp [quoteStep, bracket] at step
      obtain ⟨notEnd, notStart⟩ := not_or.mp bracket
      by_cases kind : c = '"' ∨ c = '\''
      · obtain rfl : some c = next := by simpa [quoteStep, notEnd, notStart, kind] using step
        obtain ⟨inside, after, rfl, free, later⟩ := exists_of_foldlM_quoted tag
        refine .quoted kind free (ih _ ?_ later rfl)
        simp only [List.length_cons, List.length_append]
        omega
      · obtain rfl : none = next := by simpa [quoteStep, notEnd, notStart, kind] using step
        obtain ⟨notDouble, notSingle⟩ := not_or.mp kind
        exact .plain notStart notEnd notDouble notSingle (ih _ (Nat.lt_succ_self _) tag rfl)

theorem isTag_slash_iff {tag : List Char} : IsTag ('/' :: tag) ↔ IsTag tag :=
  Iff.rfl

/-- A tag that ends was passed up to its bracket. -/
theorem exists_of_tagLength? {quote : Option Char} {passed length : Nat} {text : List Char}
    (found : tagLength? quote passed text = some length) :
    ∃ body rest, text = body ++ '>' :: rest ∧ body.foldlM quoteStep quote = some none ∧
      length = passed + body.length := by
  induction text generalizing quote passed with
  | nil => simp [tagLength?] at found
  | cons c text ih =>
    -- what one more character in front does, whatever quote is open after it
    have longer : ∀ next, quoteStep quote c = some next → tagLength? next (passed + 1) text = some length →
        ∃ body rest, c :: text = body ++ '>' :: rest ∧ body.foldlM quoteStep quote = some none ∧
          length = passed + body.length := by
      intro next step later
      obtain ⟨body, rest, rfl, quotes, rfl⟩ := ih later
      refine ⟨c :: body, rest, rfl, ?_, ?_⟩
      · rw [List.foldlM_cons, step]
        exact quotes
      · simp only [List.length_cons]
        omega
    cases quote with
    | some q => exact longer _ rfl found
    | none =>
      rw [tagLength?] at found
      by_cases ends : c = '>'
      · subst ends
        simp only [if_true, Option.some.injEq] at found
        exact ⟨[], text, rfl, rfl, found.symm⟩
      by_cases starts : c = '<'
      · simp [starts] at found
      by_cases kind : (c = '"' || c = '\'') = true
      · rw [if_neg ends, if_neg starts, if_pos kind] at found
        exact longer (some c) (by simp [quoteStep, ends, starts, kind]) found
      · rw [if_neg ends, if_neg starts, if_neg kind] at found
        exact longer none (by simp [quoteStep, ends, starts, kind]) found

theorem tagName?_eq_some_iff {body name : List Char} :
    tagName? body = some name ↔ StartsWithName body name := by
  constructor
  · intro named
    obtain ⟨first, more, rfl, letter⟩ := isAlpha_of_tagName?_eq_some named
    have start : (first.isAlphanum || first == '-') = true := by simp [Char.isAlphanum, letter]
    rw [tagName?, List.takeWhile_cons, if_pos start] at named
    simp only [letter, if_true, Option.some.injEq] at named
    refine ⟨first, more.takeWhile _, more.dropWhile _, by rw [List.takeWhile_append_dropWhile], letter,
      List.all_eq_true.mp List.all_takeWhile, fun c head => ?_, named.symm⟩
    have stops := List.head?_dropWhile_not (fun c => c.isAlphanum || c == '-') more
    rw [Option.mem_def.mp head] at stops
    simpa [NameChar] using stops
  · rintro ⟨first, others, rest, rfl, letter, named, stops, rfl⟩
    have start : (first.isAlphanum || first == '-') = true := by simp [Char.isAlphanum, letter]
    have taken : rest.takeWhile (fun c => c.isAlphanum || c == '-') = [] := by
      cases rest with
      | nil => rfl
      | cons c rest => exact List.takeWhile_cons_of_neg (stops c rfl)
    rw [tagName?, List.takeWhile_cons, if_pos start, List.takeWhile_append_of_pos named, taken,
      List.append_nil]
    simp [letter]

theorem OpeningTag.opens {body name : List Char} (opening : OpeningTag body name) : Opens body name :=
  ⟨opening.text.isTag, tagName?_eq_some_iff.mpr opening.named, opening.stays⟩

/-! ### What the rules give is accepted -/

theorem balanced_comment {body : List Char}
    (first : Text.First ['-', '-', '>'] body ['-', '-', '>']) :
    Balanced ('<' :: (['!', '-', '-'] ++ (body ++ ['-', '-', '>']))) := by
  intro opened line rest
  refine scan_of_step (by decide) ?_
  have started : Text.dropRun? ['!', '-', '-'] (['!', '-', '-'] ++ (body ++ ['-', '-', '>']) ++ rest) =
      some (body ++ (['-', '-', '>'] ++ rest)) :=
    Text.dropRun?_eq_some_iff.mpr (by simp)
  have ended : Text.splitAtRun ['-', '-', '>'] (body ++ (['-', '-', '>'] ++ rest)) =
      some (body, ['-', '-', '>'] ++ rest) :=
    Text.splitAtRun_eq_some_iff.mpr ⟨rfl, (Text.first_append_iff (Nat.le_refl _) rest).mpr first⟩
  rw [if_pos rfl, stepBracket, started]
  simp only [ended, List.length_append, List.length_cons, List.length_nil]
  rw [Nat.add_assoc]

theorem lower_append (first second : List Char) : lower (first ++ second) = lower first ++ lower second :=
  List.map_append

theorem length_lower (text : List Char) : (lower text).length = text.length :=
  List.length_map _

theorem ClosingTag.length_le {name closing : List Char} (closes : ClosingTag name closing) :
    ('<' :: '/' :: name).length ≤ (lower closing).length := by
  cases closes with
  | @intro tag _ named =>
  subst named
  have short := Text.length_trim_le tag
  simp only [length_lower, List.length_cons, List.length_append]
  omega

theorem rawLength?_eq_some_iff {name text : List Char} {length : Nat} :
    rawLength? name text = some length ↔
      ∃ before after, text = before ++ after ∧ length = before.length ∧
        Text.First ('<' :: '/' :: name) (lower before) (lower after) := by
  rw [rawLength?, Option.map_eq_some_iff]
  constructor
  · rintro ⟨⟨head, tail⟩, found, rfl⟩
    obtain ⟨same, first⟩ := Text.splitAtRun_eq_some_iff.mp found
    obtain ⟨before, after, rfl, rfl, rfl⟩ := List.map_eq_append_iff.mp same
    exact ⟨before, after, rfl, by simp, first⟩
  · rintro ⟨before, after, rfl, rfl, first⟩
    exact ⟨(lower before, lower after),
      Text.splitAtRun_eq_some_iff.mpr ⟨lower_append before after, first⟩, length_lower before⟩

mutual

theorem Item.balanced {text : List Char} : Item text → Balanced text
  | .char notBracket notEntity => balanced_char notBracket notEntity
  | .entity valid => balanced_entity valid
  | .comment first => balanced_comment first
  | .declaration text declares plain => balanced_declaration text.isTag declares plain
  | .single start single =>
    balanced_single start.text.isTag (tagName?_eq_some_iff.mpr start.named) single
  | .element opening notRaw inside closes => by
    obtain ⟨tag, named⟩ := closes
    intro opened
    have opens := opening.opens.passes opening.notVoid notRaw opened
    have through := inside.balanced
    have ended := passes_closing (isTag_slash_iff.mpr tag.isTag) named opened
    simpa using (opens.append (through _)).append ended
  | .raw opening raw first closes => by
    have fits := closes.length_le
    obtain ⟨tag, named⟩ := closes
    refine opening.opens.balanced_raw opening.notVoid raw (isTag_slash_iff.mpr tag.isTag) named fun rest => ?_
    refine rawLength?_eq_some_iff.mpr ⟨_, _, rfl, rfl, ?_⟩
    rw [lower_append]
    exact (Text.first_append_iff fits _).mpr first

theorem Doc.balanced {text : List Char} : Doc text → Balanced text
  | .nil => .nil
  | .cons first rest => first.balanced.append rest.balanced

end

/-! ### What is accepted follows the rules -/

/-- What one step of the scan gets over, and what it leaves open. -/
inductive Advances : List (List Char) → List Char → List (List Char) → List Char → Prop where
  | item {opened : List (List Char)} {first rest : List Char} :
    Item first → Advances opened (first ++ rest) opened rest
  | close {name closing rest : List Char} {outer : List (List Char)} :
    ClosingTag name closing → Advances (name :: outer) (closing ++ rest) outer rest
  | enter {opened : List (List Char)} {body name rest : List Char} :
    OpeningTag body name → name ∉ rawElements →
      Advances opened ('<' :: (body ++ '>' :: rest)) (name :: opened) rest
  | enterRaw {opened : List (List Char)} {body name text rest : List Char} :
    OpeningTag body name → name ∈ rawElements →
      Text.First ('<' :: '/' :: name) (lower text) (lower rest) →
        Advances opened ('<' :: (body ++ '>' :: (text ++ rest))) (name :: opened) rest

/-- The text closes the open elements, innermost first, with well-nested texts before each. -/
def Closes : List (List Char) → List Char → Prop
  | [], text => Doc text
  | name :: outer, text =>
    ∃ inside closing after, text = inside ++ (closing ++ after) ∧ Doc inside ∧
      ClosingTag name closing ∧ Closes outer after

theorem Closes.item {opened : List (List Char)} {first rest : List Char} (item : Item first)
    (closes : Closes opened rest) : Closes opened (first ++ rest) := by
  cases opened with
  | nil => exact .cons item closes
  | cons name outer =>
    obtain ⟨inside, closing, after, rfl, doc, closing, later⟩ := closes
    exact ⟨first ++ inside, _, after, by simp, .cons item doc, closing, later⟩

theorem StartsWithName.exists_cons {body name : List Char} (named : StartsWithName body name) :
    ∃ c more, body = c :: more ∧ c ≠ '/' := by
  obtain ⟨first, others, rest, rfl, letter, _⟩ := named
  refine ⟨first, others ++ rest, rfl, ?_⟩
  rintro rfl
  exact absurd letter (by decide)

theorem Item.not_closing {first : List Char} (item : Item first) (rest : List Char) :
    ¬ ['<', '/'] <+: first ++ rest := by
  cases item with
  | char notBracket _ => simp [Ne.symm notBracket]
  | entity _ => simp
  | comment _ => simp
  | @declaration body _ declares _ =>
    cases body with
    | nil => simp at declares
    | cons c body =>
      simp only [List.head?_cons, Option.some.injEq] at declares
      rcases declares with rfl | rfl
      · simp
      · simp
  | single start _ =>
    obtain ⟨c, more, rfl, notSlash⟩ := start.named.exists_cons
    simp [Ne.symm notSlash]
  | element opening _ _ _ =>
    obtain ⟨c, more, rfl, notSlash⟩ := opening.named.exists_cons
    simp [Ne.symm notSlash]
  | raw opening _ _ _ =>
    obtain ⟨c, more, rfl, notSlash⟩ := opening.named.exists_cons
    simp [Ne.symm notSlash]

theorem Doc.eq_nil_of_closing {inside rest : List Char} (doc : Doc inside)
    (closing : ['<', '/'] <+: inside ++ rest) : inside = [] := by
  cases doc with
  | nil => rfl
  | cons item _ =>
    rw [List.append_assoc] at closing
    exact absurd closing (item.not_closing _)

/-- What is put in lower case comes out as a letter, far above `<` and `/`. -/
theorem eq_of_toLower_eq {c special : Char} (below : special.val.toNat < 97)
    (same : c.toLower = special) : c = special := by
  unfold Char.toLower at same
  split at same
  · rename_i upper
    have low : 65 ≤ c.val.toNat := UInt32.le_iff_toNat_le.mp upper.1
    have high : c.val.toNat ≤ 90 := UInt32.le_iff_toNat_le.mp upper.2
    have code : (c.val + 32).toNat = special.val.toNat := congrArg (fun c : Char => c.val.toNat) same
    rw [UInt32.toNat_add, show (32 : UInt32).toNat = 32 from rfl] at code
    omega
  · exact same

theorem closing_of_lower {name rest : List Char} (starts : '<' :: '/' :: name <+: lower rest) :
    ['<', '/'] <+: rest := by
  match rest with
  | [] => simp [lower] at starts
  | [c] => simp [lower] at starts
  | c :: d :: rest =>
    simp only [lower, List.map_cons, List.cons_prefix_cons] at starts
    obtain ⟨first, second, _⟩ := starts
    rw [eq_of_toLower_eq (by decide) first.symm, eq_of_toLower_eq (by decide) second.symm]
    exact List.prefix_append ['<', '/'] rest

theorem Advances.closes {opened next : List (List Char)} {text after : List Char}
    (advances : Advances opened text next after) (closes : Closes next after) : Closes opened text := by
  cases advances with
  | item item => exact closes.item item
  | close closing => exact ⟨[], _, _, rfl, .nil, closing, closes⟩
  | enter opening notRaw =>
    obtain ⟨inside, closing, later, rfl, doc, closing, outer⟩ := closes
    have element := outer.item (.element opening notRaw doc closing)
    simpa using element
  | enterRaw opening raw first =>
    obtain ⟨inside, closing, later, rfl, doc, closing, outer⟩ := closes
    -- nothing stands between the raw text and its closing tag
    obtain rfl := doc.eq_nil_of_closing (closing_of_lower first.1)
    rw [List.nil_append, lower_append] at first
    have element := outer.item (.raw opening raw
      ((Text.first_append_iff closing.length_le _).mp first) closing)
    simpa using element

theorem stepOpening_eq_ok {line passed : Nat} {opened next : List (List Char)} {body rest : List Char}
    (tag : IsTag body)
    (step : stepOpening line opened body rest (body.length + 1) = .ok ⟨passed, next⟩) :
    Advances opened ('<' :: (body ++ '>' :: rest)) next ((body ++ '>' :: rest).drop passed) := by
  unfold stepOpening at step
  cases named : tagName? body with
  | none => simp [named] at step
  | some name =>
    have start : StartTag body name := ⟨tag.tagText, tagName?_eq_some_iff.mp named⟩
    simp only [named] at step
    by_cases single : name ∈ voidElements ∨ body.getLast? = some '/'
    · rw [if_pos (by simpa using single.symm)] at step
      cases step
      rw [drop_tag, ← tag_append]
      exact .item (.single start single)
    · rw [if_neg (by simpa using mt Or.symm single)] at step
      obtain ⟨notVoid, stays⟩ := not_or.mp single
      have opening : OpeningTag body name := ⟨start, notVoid, stays⟩
      by_cases raw : name ∈ rawElements
      · rw [if_pos raw] at step
        cases found : rawLength? name rest with
        | none => simp [found] at step
        | some skipped =>
          simp only [found] at step
          cases step
          obtain ⟨text, after, rfl, rfl, first⟩ := rawLength?_eq_some_iff.mp found
          rw [← List.drop_drop, drop_tag, List.drop_left]
          exact .enterRaw opening raw first
      · rw [if_neg raw] at step
        cases step
        rw [drop_tag]
        exact .enter opening raw

theorem stepTag_eq_ok {line passed : Nat} {opened next : List (List Char)} {rest : List Char}
    (plain : ¬ ['!', '-', '-'] <+: rest) (step : stepTag line opened rest = .ok ⟨passed, next⟩) :
    Advances opened ('<' :: rest) next (rest.drop passed) := by
  unfold stepTag at step
  cases found : tagLength? none 0 rest with
  | none => simp [found] at step
  | some length =>
    obtain ⟨body, rest, rfl, tag, passes⟩ := exists_of_tagLength? found
    obtain rfl : length = body.length := passes.trans (Nat.zero_add _)
    have notComment : ¬ ['!', '-', '-'] <+: body := fun starts =>
      plain (starts.trans (List.prefix_append body _))
    have text := IsTag.tagText tag
    simp only [found, List.take_left, drop_tag] at step
    split at step
    · cases step
      rw [drop_tag, ← tag_append]
      exact .item (.declaration text (.inl rfl) notComment)
    · cases step
      rw [drop_tag, ← tag_append]
      exact .item (.declaration text (.inr rfl) notComment)
    · unfold stepClosing at step
      split at step
      · cases step
      · rename_i expected outer
        split at step
        · rename_i same
          cases step
          rw [drop_tag, ← tag_append]
          exact .close (.intro (isTag_slash_iff.mp tag).tagText same.symm)
        · cases step
    · exact stepOpening_eq_ok tag step

theorem stepBracket_eq_ok {line passed : Nat} {opened next : List (List Char)} {rest : List Char}
    (step : stepBracket line opened rest = .ok ⟨passed, next⟩) :
    Advances opened ('<' :: rest) next (rest.drop passed) := by
  unfold stepBracket at step
  cases started : Text.dropRun? ['!', '-', '-'] rest with
  | none =>
    simp only [started] at step
    refine stepTag_eq_ok (fun starts => ?_) step
    obtain ⟨body, rfl⟩ := starts
    rw [Text.dropRun?_eq_some_iff.mpr rfl] at started
    cases started
  | some body =>
    simp only [started] at step
    cases ended : Text.splitAtRun ['-', '-', '>'] body with
    | none => simp [ended] at step
    | some parts =>
      obtain ⟨comment, tail⟩ := parts
      simp only [ended] at step
      cases step
      obtain ⟨rfl, first⟩ := Text.splitAtRun_eq_some_iff.mp ended
      obtain ⟨after, rfl⟩ := first.1
      obtain rfl := Text.dropRun?_eq_some_iff.mp started
      have whole : ['!', '-', '-'] ++ (comment ++ (['-', '-', '>'] ++ after)) =
          ['!', '-', '-'] ++ (comment ++ ['-', '-', '>']) ++ after := by simp
      have behind : (['!', '-', '-'] ++ (comment ++ ['-', '-', '>']) ++ after).drop
          (3 + comment.length + 3) = after :=
        List.drop_left' (by simp; omega)
      rw [whole, behind]
      exact .item (.comment ((Text.first_append_iff (Nat.le_refl _) after).mp first))

theorem stepEntity_eq_ok {line passed : Nat} {opened next : List (List Char)} {rest : List Char}
    (step : stepEntity line opened rest = .ok ⟨passed, next⟩) :
    Advances opened ('&' :: rest) next (rest.drop passed) := by
  unfold stepEntity at step
  cases found : entityLength? rest with
  | none => simp [found] at step
  | some length =>
    simp only [found] at step
    cases step
    obtain ⟨body, after, valid, rfl, rfl⟩ := entityLength?_eq_some_iff.mp found
    have whole : body ++ ';' :: after = body ++ [';'] ++ after := by simp
    have behind : (body ++ [';'] ++ after).drop (body.length + 2 - 1) = after :=
      List.drop_left' (by simp)
    rw [whole, behind]
    exact .item (.entity valid)

theorem closes_of_scan {line : Nat} {opened : List (List Char)} {text : List Char}
    (accepted : scan line opened text = .ok ()) : Closes opened text := by
  induction size : text.length using Nat.strongRecOn generalizing line opened text with
  | ind n ih =>
    subst size
    cases text with
    | nil =>
      cases opened with
      | nil => exact Doc.nil
      | cons name outer => simp [scan] at accepted
    | cons c rest =>
      -- the rest behind a step is shorter than the text it starts at
      have further : ∀ {line passed : Nat} {next : List (List Char)},
          scan line next (rest.drop passed) = .ok () → Closes next (rest.drop passed) := by
        intro line passed next later
        refine ih _ ?_ later rfl
        simp only [List.length_drop, List.length_cons]
        omega
      rw [scan] at accepted
      by_cases special : (c = '<' || c = '&') = true
      · rw [if_pos special] at accepted
        split at accepted
        · cases accepted
        · rename_i passed next step
          by_cases bracket : c = '<'
          · subst bracket
            exact (stepBracket_eq_ok step).closes (further accepted)
          · obtain rfl : c = '&' := by simpa [bracket] using special
            exact (stepEntity_eq_ok step).closes (further accepted)
      · rw [if_neg special] at accepted
        obtain ⟨notBracket, notEntity⟩ : c ≠ '<' ∧ c ≠ '&' := by simpa using special
        have closes : Closes opened rest := ih _ (Nat.lt_succ_self _) accepted rfl
        exact closes.item (.char notBracket notEntity)

end CodeAtlas.Markup.Nesting
