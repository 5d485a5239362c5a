import CodeAtlas.Markup.Template
import CodeAtlas.Proofs.Markup.Scanning

/-!
# Templates that are well nested with any values

A template is read once, with its places still empty: a place between tags may take anything balanced, and
a place in a quoted attribute anything without a quote. `passes_fill` carries what such a reading finds over
to the filled template.
-/

namespace CodeAtlas.Markup

/-! ### The parts of a template -/

/-- A character of a template or a place for a value. -/
inductive Part where
  | char (c : Char)
  | place (key : List Char)
  deriving DecidableEq

namespace Part

def text (values : Values) : Part → List Char
  | .char c => [c]
  | .place key => (values.get? key).getD []

def literal : List Part → List Char
  | .char c :: parts => c :: literal parts
  | _ => []

end Part

def parts : (template : List Char) → List Part
  | '{' :: '{' :: rest =>
    match Text.splitAtRun ['}', '}'] rest with
    | some (key, _) => .place key :: parts (rest.drop (key.length + 2))
    | none => .char '{' :: .char '{' :: parts rest
  | c :: rest => .char c :: parts rest
  | [] => []
termination_by template => template.length
decreasing_by all_goals simp <;> omega

/-- Where every place has a value, filling puts it there. -/
theorem fill_eq_parts {values : Values} {template : List Char}
    (known : ∀ key, .place key ∈ parts template → (values.get? key).isSome = true) :
    fill values template = (parts template).flatMap (Part.text values) := by
  induction template using fill.induct values with
  | case1 rest value used found ih =>
    unfold placeValue? at found
    cases cut : Text.splitAtRun ['}', '}'] rest with
    | none =>
      rw [cut] at found
      cases found
    | some cutAt =>
      obtain ⟨key, tail⟩ := cutAt
      rw [cut] at found
      obtain ⟨other, get, same⟩ := Option.map_eq_some_iff.mp found
      cases same
      have split : parts ('{' :: '{' :: rest) = .place key :: parts (rest.drop (key.length + 2)) := by
        rw [parts, cut]
      rw [split] at known ⊢
      rw [fill, placeValue?, cut]
      simp only [get, Option.map_some, List.flatMap_cons, Part.text, Option.getD_some]
      rw [ih fun key mem => known key (List.mem_cons_of_mem _ mem)]
  | case2 rest missing ih =>
    unfold placeValue? at missing
    cases cut : Text.splitAtRun ['}', '}'] rest with
    | none =>
      have split : parts ('{' :: '{' :: rest) = .char '{' :: .char '{' :: parts rest := by
        rw [parts, cut]
      rw [split] at known ⊢
      rw [fill, placeValue?, cut]
      simp only [List.flatMap_cons, Part.text, List.singleton_append]
      rw [ih fun key mem => known key (List.mem_cons_of_mem _ (List.mem_cons_of_mem _ mem))]
    | some cutAt =>
      obtain ⟨key, tail⟩ := cutAt
      rw [cut] at missing
      have there := known key (by rw [parts, cut]; exact List.mem_cons_self)
      rw [Option.map_eq_none_iff.mp missing] at there
      cases there
  | case3 c rest plain ih =>
    have split : parts (c :: rest) = .char c :: parts rest := by
      rw [parts]
      exact plain
    rw [split] at known ⊢
    rw [fill]
    · rw [ih fun key mem => known key (List.mem_cons_of_mem _ mem)]
      rfl
    · exact plain
  | case4 => rw [fill, parts]; rfl

/-! ### Reading a template -/

namespace Nesting

/-- The quote that is open after a part of a tag. A place has to be in double quotes. -/
def quotePart (attributes : List (List Char)) (quote : Option Char) : Part → Option (Option Char)
  | .char c => quoteStep quote c
  | .place key => if quote = some '"' && attributes.contains key then some quote else none

/-- The name that the parts of a tag start with, if it ends before the first place. -/
def partsName? (tag : List Part) : Option (List Char) :=
  if (Part.literal tag).all (fun c => c.isAlphanum || c == '-') && (Part.literal tag).length != tag.length
  then none
  else tagName? (Part.literal tag)

/-- Whether the last of the parts is a character other than `/`. -/
def staysOpen (tag : List Part) : Bool :=
  match tag.getLast? with
  | some (.char c) => c != '/'
  | _ => false

/-- How far a template has been read. -/
inductive Reading where
  | text (opened : List (List Char))
  /-- In a tag, with the quote that is open. -/
  | tag (opened : List (List Char)) (passed : List Part) (quote : Option Char)
  /-- After the tag of a raw element, in its closing tag. -/
  | raw (opened : List (List Char)) (body : List Part) (name passed left : List Char)
  deriving DecidableEq

namespace Reading

def opened : Reading → List (List Char)
  | .text opened => opened
  | .tag opened _ _ => opened
  | .raw opened _ _ _ _ => opened

def finish (opened : List (List Char)) (body : List Part) : Option Reading :=
  match body with
  | .char '!' :: .char c :: _ => if c = '-' then none else some (.text opened)
  | .char '/' :: closes =>
    match opened with
    | [] => none
    | name :: outer =>
      if closes = name.map .char && closingName name = name then some (.text outer) else none
  | _ =>
    match partsName? body with
    | none => none
    | some name =>
      if voidElements.contains name then some (.text opened)
      else if !staysOpen body then none
      else if rawElements.contains name then
        some (.raw opened body name [] ('<' :: ('/' :: name ++ ['>'])))
      else some (.text (name :: opened))

/-- Reads one part. A raw element has to be closed at once. -/
def step (contents attributes : List (List Char)) : Reading → Part → Option Reading
  | .text opened, .char c =>
    if c = '<' then some (.tag opened [] none) else if c = '&' then none else some (.text opened)
  | .text opened, .place key => if contents.contains key then some (.text opened) else none
  | .tag opened passed quote, part =>
    if quote = none && part = .char '>' then finish opened passed
    else (quotePart attributes quote part).map (.tag opened (passed ++ [part]))
  | .raw opened body name passed left, part =>
    match left with
    | [] => none
    | c :: left =>
      if part = .char c then
        if left.isEmpty then some (.text opened) else some (.raw opened body name (passed ++ [c]) left)
      else none

variable (values : Values)

/-- What has been read of a tag that is not finished. -/
def pending : Reading → List Char
  | .text _ => []
  | .tag _ passed _ => '<' :: passed.flatMap (Part.text values)
  | .raw _ body _ passed _ => '<' :: (body.flatMap (Part.text values) ++ ['>']) ++ passed

def Valid : Reading → Prop
  | .text _ => True
  | .tag _ passed quote => (passed.flatMap (Part.text values)).foldlM quoteStep none = some quote
  | .raw _ body name passed left =>
    Opens (body.flatMap (Part.text values)) name ∧ name ∉ voidElements ∧ name ∈ rawElements ∧
      passed ++ left = '<' :: ('/' :: name ++ ['>'])

/-- What lies between two readings is passed, within any elements. -/
def Leads (reading : Reading) (text : List Char) (next : Reading) : Prop :=
  next.Valid values ∧ ∃ done, reading.pending values ++ text = done ++ next.pending values ∧
    ∀ outer, Passes (reading.opened ++ outer) done (next.opened ++ outer)

end Reading

/-- The values fit the places: those between tags are balanced, and those in attributes have no quote. -/
structure Fits (contents attributes : List (List Char)) (values : Values) : Prop where
  balanced : ∀ key ∈ contents, ∃ value, values.get? key = some value ∧ Balanced value
  quoted : ∀ key ∈ attributes, ∃ value, values.get? key = some value ∧ '"' ∉ value

variable {values : Values}

theorem exists_literal_append (values : Values) (tag : List Part) :
    ∃ more, tag.flatMap (Part.text values) = Part.literal tag ++ more ∧
      ((Part.literal tag).length = tag.length → more = []) := by
  induction tag with
  | nil => exact ⟨[], rfl, fun _ => rfl⟩
  | cons part tag ih =>
    cases part with
    | place key => exact ⟨_, rfl, fun same => by cases same⟩
    | char c =>
      obtain ⟨more, whole, ends⟩ := ih
      refine ⟨more, ?_, fun same => ends (Nat.succ.inj same)⟩
      rw [List.flatMap_cons, whole]
      rfl

theorem tagName?_of_partsName? (values : Values) {tag : List Part} {name : List Char}
    (named : partsName? tag = some name) : tagName? (tag.flatMap (Part.text values)) = some name := by
  obtain ⟨more, whole, ends⟩ := exists_literal_append values tag
  unfold partsName? at named
  split at named
  · cases named
  · rename_i inside
    rw [whole, ← named]
    by_cases same : (Part.literal tag).length = tag.length
    · rw [ends same, List.append_nil]
    · have notAll : ¬ ∀ c ∈ Part.literal tag, (c.isAlphanum || c == '-') = true := by
        intro all
        exact inside (by simp [same, List.all_eq_true.mpr all])
      have name : (Part.literal tag ++ more).takeWhile (fun c => c.isAlphanum || c == '-') =
          (Part.literal tag).takeWhile (fun c => c.isAlphanum || c == '-') := by
        rw [List.takeWhile_append, if_neg]
        intro full
        have taken := (List.takeWhile_sublist (l := Part.literal tag)
          (fun c => c.isAlphanum || c == '-')).eq_of_length full
        exact notAll (List.takeWhile_eq_self_iff.mp taken)
      unfold tagName?
      rw [name]

theorem getLast?_of_staysOpen {tag : List Part} (stays : staysOpen tag = true) :
    (tag.flatMap (Part.text values)).getLast? ≠ some '/' := by
  unfold staysOpen at stays
  split at stays
  · rename_i c last
    obtain ⟨front, rfl⟩ := List.getLast?_eq_some_iff.mp last
    rw [List.flatMap_append]
    simpa [Part.text] using stays
  · cases stays

theorem flatMap_text_char (values : Values) (markup : List Char) :
    (markup.map Part.char).flatMap (Part.text values) = markup := by
  simp [Part.text, List.flatMap_map]

theorem foldlM_quoteStep_text {contents attributes : List (List Char)}
    (fits : Fits contents attributes values) {quote next : Option Char} {part : Part}
    (quotes : quotePart attributes quote part = some next) :
    (part.text values).foldlM quoteStep quote = some next := by
  cases part with
  | char c =>
    rw [Part.text, List.foldlM_cons]
    exact (bind_pure _).trans quotes
  | place key =>
    rw [quotePart] at quotes
    split at quotes
    · rename_i inside
      cases quotes
      rw [Bool.and_eq_true, decide_eq_true_eq, List.contains_iff_mem] at inside
      obtain ⟨rfl, mem⟩ := inside
      obtain ⟨value, get, free⟩ := fits.quoted key mem
      rw [Part.text, get]
      exact foldlM_quoteStep_of_notMem free
    · cases quotes

namespace Reading

theorem leads_of_passes {opened after : List (List Char)} {body : List Part}
    (passes : ∀ outer, Passes (opened ++ outer) ('<' :: (body.flatMap (Part.text values) ++ ['>']))
      (after ++ outer)) :
    (Reading.tag opened body none).Leads values ['>'] (.text after) :=
  ⟨trivial, _, (List.append_nil _).symm, passes⟩

theorem finish_leads {opened : List (List Char)} {body : List Part} {next : Reading}
    (isTag : IsTag (body.flatMap (Part.text values))) (finished : finish opened body = some next) :
    (Reading.tag opened body none).Leads values ['>'] next := by
  unfold finish at finished
  split at finished
  · rename_i c more
    split at finished
    · cases finished
    · rename_i notDash
      cases finished
      have plain : ¬ ['!', '-', '-'] <+: (Part.char '!' :: Part.char c :: more).flatMap (Part.text values) := by
        simp [Part.text, Ne.symm (show c ≠ '-' by simpa using notDash)]
      exact leads_of_passes fun outer => balanced_declaration isTag (.inl rfl) plain _
  · rename_i closes
    split at finished
    · cases finished
    · rename_i name outer
      split at finished
      · rename_i same
        cases finished
        rw [Bool.and_eq_true, decide_eq_true_eq, decide_eq_true_eq] at same
        obtain ⟨rfl, closing⟩ := same
        have text : (Part.char '/' :: name.map .char).flatMap (Part.text values) = '/' :: name :=
          flatMap_text_char values ('/' :: name)
        refine leads_of_passes fun around => ?_
        rw [text] at isTag ⊢
        exact passes_closing isTag closing _
      · cases finished
  · split at finished
    · cases finished
    · rename_i name named
      have opens := tagName?_of_partsName? values named
      split at finished
      · rename_i void
        cases finished
        exact leads_of_passes fun outer => balanced_single isTag opens (.inl (List.contains_iff_mem.mp void)) _
      · rename_i notVoid
        rw [List.contains_iff_mem] at notVoid
        split at finished
        · cases finished
        · rename_i stays
          have start : Opens (body.flatMap (Part.text values)) name :=
            ⟨isTag, opens, getLast?_of_staysOpen (by simpa using stays)⟩
          split at finished
          · rename_i raw
            cases finished
            refine ⟨⟨start, notVoid, List.contains_iff_mem.mp raw, rfl⟩, [], ?_, fun outer => .nil _⟩
            simp [pending]
          · rename_i notRaw
            rw [List.contains_iff_mem] at notRaw
            cases finished
            exact leads_of_passes fun outer => start.passes notVoid notRaw _

theorem step_leads {contents attributes : List (List Char)} (fits : Fits contents attributes values)
    {reading next : Reading} {part : Part} (valid : reading.Valid values)
    (stepped : step contents attributes reading part = some next) :
    reading.Leads values (part.text values) next := by
  cases reading with
  | text opened =>
    cases part with
    | char c =>
      rw [step] at stepped
      split at stepped
      · rename_i bracket
        cases stepped
        subst bracket
        exact ⟨rfl, [], rfl, fun outer => .nil _⟩
      · rename_i notBracket
        split at stepped
        · cases stepped
        · rename_i notEntity
          cases stepped
          exact ⟨trivial, [c], rfl, fun outer => balanced_char notBracket notEntity _⟩
    | place key =>
      rw [step] at stepped
      split at stepped
      · rename_i inside
        cases stepped
        obtain ⟨value, get, balanced⟩ := fits.balanced key (List.contains_iff_mem.mp inside)
        refine ⟨trivial, value, ?_, fun outer => balanced _⟩
        simp [pending, Part.text, get]
      · cases stepped
  | tag opened passed quote =>
    rw [step] at stepped
    split at stepped
    · rename_i ends
      rw [Bool.and_eq_true, decide_eq_true_eq, decide_eq_true_eq] at ends
      obtain ⟨rfl, rfl⟩ := ends
      exact finish_leads valid stepped
    · obtain ⟨quote', quotes, rfl⟩ := Option.map_eq_some_iff.mp stepped
      refine ⟨?_, [], ?_, fun outer => .nil _⟩
      · change ((passed ++ [part]).flatMap (Part.text values)).foldlM quoteStep none = some quote'
        rw [List.flatMap_append, List.foldlM_append, show _ = some quote from valid]
        simpa using foldlM_quoteStep_text fits quotes
      · simp [pending]
  | raw opened body name passed left =>
    obtain ⟨start, notVoid, raw, whole⟩ := valid
    cases left with
    | nil => cases stepped
    | cons c left =>
      rw [step] at stepped
      split at stepped
      · rename_i same
        subst same
        split at stepped
        · rename_i last
          cases stepped
          rw [List.isEmpty_iff.mp last] at whole
          refine ⟨trivial, _, (List.append_nil _).symm, fun outer => ?_⟩
          have balanced := start.balanced_raw_nil notVoid raw (opened ++ outer)
          rw [← whole] at balanced
          simpa [pending, Reading.opened, Part.text] using balanced
        · cases stepped
          refine ⟨⟨start, notVoid, raw, by simpa using whole⟩, [], ?_, fun outer => .nil _⟩
          simp [pending, Part.text]
      · cases stepped

theorem foldlM_step_leads {contents attributes : List (List Char)}
    (fits : Fits contents attributes values) {reading next : Reading} {parts : List Part}
    (valid : reading.Valid values) (read : parts.foldlM (step contents attributes) reading = some next) :
    reading.Leads values (parts.flatMap (Part.text values)) next := by
  induction parts generalizing reading with
  | nil =>
    cases read
    exact ⟨valid, [], by simp, fun outer => .nil _⟩
  | cons part parts ih =>
    rw [List.foldlM_cons] at read
    obtain ⟨middle, stepped, read⟩ := Option.bind_eq_some_iff.mp read
    obtain ⟨valid, first, start, passes⟩ := step_leads fits valid stepped
    obtain ⟨valid, second, rest, later⟩ := ih valid read
    refine ⟨valid, first ++ second, ?_, fun outer => (passes outer).append (later outer)⟩
    rw [List.flatMap_cons, ← List.append_assoc, start, List.append_assoc, rest, List.append_assoc]

theorem mem_of_step_place {contents attributes : List (List Char)} {reading next : Reading}
    {key : List Char} (stepped : step contents attributes reading (.place key) = some next) :
    key ∈ contents ∨ key ∈ attributes := by
  cases reading with
  | text opened =>
    rw [step] at stepped
    split at stepped
    · rename_i inside
      exact .inl (List.contains_iff_mem.mp inside)
    · cases stepped
  | tag opened passed quote =>
    rw [step, if_neg (by simp)] at stepped
    obtain ⟨_, quotes, _⟩ := Option.map_eq_some_iff.mp stepped
    rw [quotePart] at quotes
    split at quotes
    · rename_i inside
      rw [Bool.and_eq_true, List.contains_iff_mem] at inside
      exact .inr inside.2
    · cases quotes
  | raw opened body name passed left => cases left <;> cases stepped

theorem mem_of_foldlM_step {contents attributes : List (List Char)} {reading next : Reading}
    {parts : List Part} (read : parts.foldlM (step contents attributes) reading = some next)
    {key : List Char} (mem : .place key ∈ parts) : key ∈ contents ∨ key ∈ attributes := by
  induction parts generalizing reading with
  | nil => cases mem
  | cons part parts ih =>
    rw [List.foldlM_cons] at read
    obtain ⟨middle, stepped, read⟩ := Option.bind_eq_some_iff.mp read
    rcases List.mem_cons.mp mem with rfl | later
    · exact mem_of_step_place stepped
    · exact ih read later

end Reading

/-- What is open after a template, or after nothing but text and tags: nothing if the template is not well
nested whatever its values. -/
def openAfter? (contents attributes opened : List (List Char)) (parts : List Part) :
    Option (List (List Char)) :=
  match parts.foldlM (Reading.step contents attributes) (.text opened) with
  | some (.text after) => some after
  | _ => none

theorem mem_of_openAfter? {contents attributes opened after : List (List Char)} {parts : List Part}
    (read : openAfter? contents attributes opened parts = some after) {key : List Char}
    (mem : .place key ∈ parts) : key ∈ contents ∨ key ∈ attributes := by
  unfold openAfter? at read
  split at read
  · rename_i whole
    exact Reading.mem_of_foldlM_step whole mem
  · cases read

theorem passes_parts {contents attributes opened after : List (List Char)} {parts : List Part}
    (fits : Fits contents attributes values)
    (read : openAfter? contents attributes opened parts = some after) (outer : List (List Char)) :
    Passes (opened ++ outer) (parts.flatMap (Part.text values)) (after ++ outer) := by
  unfold openAfter? at read
  split at read
  · rename_i whole
    cases read
    have start : (Reading.text opened).Valid values := trivial
    obtain ⟨_, done, same, passes⟩ := Reading.foldlM_step_leads fits start whole
    have text : parts.flatMap (Part.text values) = done := by simpa [Reading.pending] using same
    rw [text]
    exact passes outer
  · cases read

theorem passes_literal {opened after : List (List Char)} {markup : List Char}
    (read : openAfter? [] [] opened (markup.map .char) = some after) (outer : List (List Char)) :
    Passes (opened ++ outer) markup (after ++ outer) := by
  have fits : Fits [] [] [] := ⟨by simp, by simp⟩
  have passes := passes_parts fits read outer
  rwa [flatMap_text_char] at passes

theorem passes_attribute {opened after : List (List Char)} {head value tail : List Char}
    (read : openAfter? [] [[]] opened (head.map .char ++ .place [] :: tail.map .char) = some after)
    (free : '"' ∉ value) (outer : List (List Char)) :
    Passes (opened ++ outer) (head ++ value ++ tail) (after ++ outer) := by
  have fits : Fits [] [[]] [([], value)] := ⟨by simp, by simpa [Values.get?] using free⟩
  have passes := passes_parts fits read outer
  rw [List.flatMap_append, List.flatMap_cons, flatMap_text_char, flatMap_text_char] at passes
  simpa [Part.text, Values.get?] using passes

theorem passes_fill {contents attributes : List (List Char)} {template : List Char}
    (fits : Fits contents attributes values)
    (read : openAfter? contents attributes [] (parts template) = some []) :
    Passes [] (fill values template) [] := by
  have known : ∀ key, .place key ∈ parts template → (values.get? key).isSome = true := by
    intro key mem
    rcases mem_of_openAfter? read mem with inside | inside
    · obtain ⟨value, get, _⟩ := fits.balanced key inside
      simp [get]
    · obtain ⟨value, get, _⟩ := fits.quoted key inside
      simp [get]
  rw [fill_eq_parts known]
  exact passes_parts fits read []

end Nesting

end CodeAtlas.Markup
