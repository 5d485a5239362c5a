import CodeAtlas.Proofs.Markup.Scanning

/-!
# The tags of a text

`tags?` finds the tags of a text with their attributes; a tag ends where the check of nesting lets it end,
so a bracket in a quoted value is no bracket. It reads any attributes that a browser would. A tag that is
written with its values escaped is read back as it was (`Decoder.tags?_markup`), and escaped text has no tags.
-/

namespace CodeAtlas.Markup

open Nesting

/-- An attribute. One without a value is only a name. -/
structure Attribute (α : Type) where
  name : List Char
  value : Option (List α)
  deriving DecidableEq, Repr

/-- A tag, with attribute values made of `α`. -/
inductive Tag (α : Type) where
  | opening (name : List Char) (attributes : List (Attribute α))
  | closing (name : List Char)
  /-- A declaration, such as that of the document's type. -/
  | declaration (text : List Char)
  deriving DecidableEq, Repr

variable {α β γ : Type}

def Attribute.mapValue (f : List α → List β) (entry : Attribute α) : Attribute β :=
  ⟨entry.name, entry.value.map f⟩

def Tag.mapValues (f : List α → List β) : Tag α → Tag β
  | .opening name attributes => .opening name (attributes.map (Attribute.mapValue f))
  | .closing name => .closing name
  | .declaration text => .declaration text

def Tag.values : Tag α → List (List α)
  | .opening _ attributes => attributes.filterMap Attribute.value
  | _ => []

theorem Tag.mapValues_congr {f g : List α → List β} {tag : Tag α}
    (same : ∀ value ∈ tag.values, f value = g value) : tag.mapValues f = tag.mapValues g := by
  cases tag with
  | closing name => rfl
  | declaration text => rfl
  | opening name attributes =>
    refine congrArg (Tag.opening name) (List.map_congr_left fun entry mem => ?_)
    refine congrArg (Attribute.mk entry.name) (Option.map_congr fun value isValue => ?_)
    exact same value (List.mem_filterMap.mpr ⟨entry, mem, isValue⟩)

theorem Tag.values_mapValues (f : List α → List β) (tag : Tag α) :
    (tag.mapValues f).values = tag.values.map f := by
  cases tag with
  | closing name => rfl
  | declaration text => rfl
  | opening name attributes =>
    rw [mapValues, values, values, List.filterMap_map, List.map_filterMap]
    rfl

theorem Tag.mapValues_mapValues (f : List α → List β) (g : List β → List γ) (tag : Tag α) :
    (tag.mapValues f).mapValues g = tag.mapValues (g ∘ f) := by
  cases tag <;> simp [mapValues, Attribute.mapValue, Function.comp_def]

theorem Tag.mapValues_id (tag : Tag α) : tag.mapValues id = tag := by
  cases tag with
  | opening name attributes =>
    have same : (Attribute.mapValue id : Attribute α → Attribute α) = id := by
      funext entry
      simp [Attribute.mapValue]
    rw [mapValues, same, List.map_id]
  | closing name => rfl
  | declaration text => rfl

/-! ### Reading attributes -/

def isGap (c : Char) : Bool :=
  c == ' ' || c == '\t' || c == '\n' || c == '\r' || c == '\x0c'

/-- How far the attributes of a tag have been read. -/
inductive AttributeReader where
  | gap
  | naming (passed : List Char)
  /-- In the white space after a name. -/
  | named (name : List Char)
  /-- After the `=`. -/
  | assigned (name : List Char)
  | quoted (name : List Char) (quote : Char) (passed : List Char)
  | bare (name passed : List Char)

namespace AttributeReader

/-- Reads one character. The attribute is there once it is over. -/
def step : AttributeReader → Char → Option (Attribute Char) × AttributeReader
  | .gap, c => if isGap c || c == '/' then (none, .gap) else (none, .naming [c])
  | .naming passed, c =>
    if isGap c then (none, .named passed)
    else if c = '/' then (some ⟨passed, none⟩, .gap)
    else if c = '=' then (none, .assigned passed)
    else (none, .naming (passed ++ [c]))
  | .named name, c =>
    if isGap c then (none, .named name)
    else if c = '/' then (some ⟨name, none⟩, .gap)
    else if c = '=' then (none, .assigned name)
    else (some ⟨name, none⟩, .naming [c])
  | .assigned name, c =>
    if isGap c then (none, .assigned name)
    else if c = '"' || c = '\'' then (none, .quoted name c [])
    else (none, .bare name [c])
  | .quoted name quote passed, c =>
    if c = quote then (some ⟨name, some passed⟩, .gap) else (none, .quoted name quote (passed ++ [c]))
  | .bare name passed, c =>
    if isGap c then (some ⟨name, some passed⟩, .gap) else (none, .bare name (passed ++ [c]))

def last : AttributeReader → Option (Attribute Char)
  | .gap => none
  | .naming passed => some ⟨passed, none⟩
  | .named name => some ⟨name, none⟩
  | .assigned name => some ⟨name, some []⟩
  | .quoted name _ passed => some ⟨name, some passed⟩
  | .bare name passed => some ⟨name, some passed⟩

def read (reader : AttributeReader) : List Char → List (Attribute Char)
  | [] => reader.last.toList
  | c :: rest => (reader.step c).1.toList ++ (reader.step c).2.read rest

end AttributeReader

def Tag.read (body : List Char) : Tag Char :=
  match body with
  | '!' :: _ | '?' :: _ => .declaration body
  | '/' :: name => .closing (closingName name)
  | _ =>
    .opening (lower (body.takeWhile fun c => !(isGap c || c == '/')))
      (AttributeReader.gap.read (body.dropWhile fun c => !(isGap c || c == '/')))

/-- The tags of a text; nothing if some tag does not end. -/
def tags? : List Char → Option (List (Tag Char))
  | [] => some []
  | c :: rest =>
    if c = '<' then
      match tagLength? none 0 rest with
      | none => none
      | some length => (tags? (rest.drop (length + 1))).map (Tag.read (rest.take length) :: ·)
    else tags? rest
termination_by text => text.length

/-! ### Tags of a text and of what follows -/

theorem tagLength?_bounds {quote : Option Char} {passed length : Nat} {rest : List Char}
    (ends : tagLength? quote passed rest = some length) :
    passed ≤ length ∧ length < passed + rest.length := by
  induction rest generalizing quote passed with
  | nil => cases ends
  | cons c rest ih =>
    rw [List.length_cons]
    unfold tagLength? at ends
    split at ends
    · have := ih ends
      omega
    · split at ends
      · cases ends
        omega
      · split at ends
        · cases ends
        · split at ends <;> · have := ih ends; omega

theorem tagLength?_append_of_some {quote : Option Char} {passed length : Nat} {rest : List Char}
    (ends : tagLength? quote passed rest = some length) (more : List Char) :
    tagLength? quote passed (rest ++ more) = some length := by
  -- A tag that ends does not look past its end, so each test goes the same way as before.
  induction rest generalizing quote passed with
  | nil => cases ends
  | cons c rest ih =>
    rw [List.cons_append]
    unfold tagLength? at ends ⊢
    split at ends
    · exact ih ends
    · split at ends
      · rename_i isEnd
        rw [if_pos isEnd]
        exact ends
      · rename_i notEnd
        rw [if_neg notEnd]
        split at ends
        · cases ends
        · rename_i notStart
          rw [if_neg notStart]
          split at ends
          · rename_i isQuote
            rw [if_pos isQuote]
            exact ih ends
          · rename_i notQuote
            rw [if_neg notQuote]
            exact ih ends

theorem tags?_append {first second : List Char} {tags : List (Tag Char)} (read : tags? first = some tags) :
    tags? (first ++ second) = (tags? second).map (tags ++ ·) := by
  induction first using tags?.induct generalizing tags with
  | case1 =>
    rw [tags?] at read
    cases read
    simp
  | case2 rest unclosed =>
    rw [tags?, if_pos rfl, unclosed] at read
    cases read
  | case3 rest length ends ih =>
    rw [tags?, if_pos rfl, ends] at read
    obtain ⟨others, later, rfl⟩ := Option.map_eq_some_iff.mp read
    obtain ⟨_, inside⟩ := tagLength?_bounds ends
    have dropped : (rest ++ second).drop (length + 1) = rest.drop (length + 1) ++ second :=
      List.drop_append_of_le_length (by omega)
    have taken : (rest ++ second).take length = rest.take length :=
      List.take_append_of_le_length (by omega)
    rw [List.cons_append, tags?, if_pos rfl, tagLength?_append_of_some ends]
    simp only [dropped, taken, ih later, Option.map_map]
    rfl
  | case4 c rest notBracket ih =>
    rw [tags?, if_neg notBracket] at read
    rw [List.cons_append, tags?, if_neg notBracket]
    exact ih read

theorem tags?_of_notMem {text : List Char} (free : '<' ∉ text) : tags? text = some [] := by
  induction text with
  | nil => rw [tags?]
  | cons c text ih =>
    obtain ⟨different, free⟩ := not_or.mp (mt List.mem_cons.mpr free)
    rw [tags?, if_neg (Ne.symm different)]
    exact ih free

theorem tags?_tag {body : List Char} (tag : IsTag body) :
    tags? ('<' :: (body ++ ['>'])) = some [Tag.read body] := by
  have dropped : (body ++ ['>']).drop (body.length + 1) = [] := by simp
  rw [tags?, if_pos rfl, tag.tagLength?_eq]
  simp only [dropped, List.take_left']
  rw [tags?]
  rfl

/-! ### Writing tags -/

/-- A character of the names that are written: no capital, and nothing that ends a name. -/
def isNameChar (c : Char) : Bool :=
  c.toLower == c && !isGap c && !Text.isBlank c && !(['/', '=', '"', '\'', '<', '>', '!', '?'].contains c)

def isName (name : List Char) : Bool :=
  !name.isEmpty && name.all isNameChar

/-- The attribute as it is written, after a blank. -/
def Attribute.written (char : Char → α) (entry : Attribute α) : List α :=
  char ' ' :: (entry.name.map char ++
    match entry.value with
    | none => []
    | some value => char '=' :: char '"' :: (value ++ [char '"']))

namespace Tag

def written (char : Char → α) : Tag α → List α
  | .opening name attributes => name.map char ++ attributes.flatMap (Attribute.written char)
  | .closing name => char '/' :: name.map char
  | .declaration text => text.map char

/-- The names of the tag can be written, and its text if it is a declaration. -/
def isPlain : Tag α → Bool
  | .opening name attributes => isName name && attributes.all fun entry => isName entry.name
  | .closing name => isName name
  | .declaration text => text.head? == some '!' && decide (IsTag text)

def markup (tag : Tag Char) : List Char :=
  '<' :: ((tag.mapValues escape).written id ++ ['>'])

theorem markup_opening (name key value : List Char) :
    (opening name [⟨key, some value⟩]).markup =
      '<' :: (name ++ ' ' :: (key ++ '=' :: '"' :: (escape value ++ ['"', '>']))) := by
  simp [markup, mapValues, written, Attribute.mapValue, Attribute.written]

end Tag

section Names

variable {name : List Char}

theorem ne_of_isNameChar {c : Char} (plain : isNameChar c = true) (special : Char)
    (listed : special ∈ ['/', '=', '"', '\'', '<', '>', '!', '?']) : c ≠ special := by
  rintro rfl
  simp [isNameChar, listed] at plain

theorem not_isGap_of_isNameChar {c : Char} (plain : isNameChar c = true) : isGap c = false := by
  simp only [isNameChar, Bool.and_eq_true, Bool.not_eq_true'] at plain
  exact plain.1.1.2

theorem isNameChar_of_mem {c : Char} (plain : isName name = true) (mem : c ∈ name) :
    isNameChar c = true := by
  simp only [isName, Bool.and_eq_true, List.all_eq_true] at plain
  exact plain.2 c mem

theorem exists_cons_of_isName (plain : isName name = true) :
    ∃ c more, name = c :: more ∧ isNameChar c = true ∧ ∀ d ∈ more, isNameChar d = true := by
  cases name with
  | nil => cases plain
  | cons c more =>
    exact ⟨c, more, rfl, isNameChar_of_mem plain List.mem_cons_self, fun d mem =>
      isNameChar_of_mem plain (List.mem_cons_of_mem _ mem)⟩

theorem lower_of_isName (plain : isName name = true) : lower name = name := by
  refine (List.map_congr_left fun c mem => ?_).trans (List.map_id name)
  have char := isNameChar_of_mem plain mem
  simp only [isNameChar, Bool.and_eq_true, beq_iff_eq] at char
  exact char.1.1.1

theorem closingName_of_isName (plain : isName name = true) : closingName name = name := by
  have blank : ∀ c ∈ name, Text.isBlank c = false := by
    intro c mem
    have char := isNameChar_of_mem plain mem
    simp only [isNameChar, Bool.and_eq_true, Bool.not_eq_true'] at char
    exact char.1.2
  have start : ∀ text : List Char, (∀ c ∈ text, Text.isBlank c = false) → text.dropWhile Text.isBlank = text := by
    intro text free
    cases text with
    | nil => rfl
    | cons c text => rw [List.dropWhile_cons_of_neg (by simp [free c List.mem_cons_self])]
  have trimmed : Text.trim name = name := by
    rw [Text.trim, Text.trimEnd, Text.trimStart, start name blank, start _ (by simpa using blank),
      List.reverse_reverse]
  rw [closingName, trimmed, lower_of_isName plain]

theorem foldlM_quoteStep_name {text : List Char} (plain : ∀ c ∈ text, isNameChar c = true) :
    text.foldlM quoteStep none = some none := by
  induction text with
  | nil => rfl
  | cons c text ih =>
    obtain ⟨char, plain⟩ := List.forall_mem_cons.mp plain
    have step : quoteStep none c = some none := by
      simp [quoteStep, ne_of_isNameChar char '>' (by decide),
        ne_of_isNameChar char '<' (by decide),
        ne_of_isNameChar char '"' (by decide),
        ne_of_isNameChar char '\'' (by decide)]
    rw [List.foldlM_cons, step]
    exact ih plain

end Names

/-! ### Reading what was written -/

namespace AttributeReader

theorem read_naming {more : List Char} (plain : ∀ c ∈ more, isNameChar c = true) (passed rest : List Char) :
    (naming passed).read (more ++ rest) = (naming (passed ++ more)).read rest := by
  induction more generalizing passed with
  | nil => simp
  | cons c more ih =>
    obtain ⟨char, plain⟩ := List.forall_mem_cons.mp plain
    have step : (naming passed).step c = (none, naming (passed ++ [c])) := by
      simp [AttributeReader.step, not_isGap_of_isNameChar char, ne_of_isNameChar char '/' (by decide),
        ne_of_isNameChar char '=' (by decide)]
    rw [List.cons_append, read, step]
    simpa using ih plain (passed ++ [c])

theorem read_quoted {quote : Char} {value : List Char} (free : quote ∉ value)
    (name passed rest : List Char) :
    (quoted name quote passed).read (value ++ rest) = (quoted name quote (passed ++ value)).read rest := by
  induction value generalizing passed with
  | nil => simp
  | cons c value ih =>
    obtain ⟨different, free⟩ := not_or.mp (mt List.mem_cons.mpr free)
    have step : (quoted name quote passed).step c = (none, quoted name quote (passed ++ [c])) := by
      simp [AttributeReader.step, Ne.symm different]
    rw [List.cons_append, read, step]
    simpa using ih free (passed ++ [c])

theorem read_blank_name {reader : AttributeReader}
    (ready : reader = gap ∨ ∃ passed, reader = naming passed) {name : List Char}
    (plain : isName name = true) (rest : List Char) :
    reader.read (' ' :: (name ++ rest)) = reader.last.toList ++ (naming name).read rest := by
  obtain ⟨c, more, rfl, char, others⟩ := exists_cons_of_isName plain
  have notGap := not_isGap_of_isNameChar char
  have notSlash := ne_of_isNameChar char '/' (by decide)
  have notEquals := ne_of_isNameChar char '=' (by decide)
  have whole : (naming [c]).read (more ++ rest) = (naming (c :: more)).read rest :=
    read_naming others [c] rest
  rcases ready with rfl | ⟨passed, rfl⟩
  · have first : gap.step ' ' = (none, gap) := rfl
    have second : gap.step c = (none, naming [c]) := by simp [AttributeReader.step, notGap, notSlash]
    rw [read, first, List.cons_append, read, second, whole]
    rfl
  · have first : (naming passed).step ' ' = (none, named passed) := rfl
    have second : (named passed).step c = (some ⟨passed, none⟩, naming [c]) := by
      simp [AttributeReader.step, notGap, notSlash, notEquals]
    rw [read, first, List.cons_append, read, second, whole]
    rfl

theorem read_value {value : List Char} (free : '"' ∉ value) (name rest : List Char) :
    (naming name).read ('=' :: '"' :: (value ++ '"' :: rest)) = ⟨name, some value⟩ :: gap.read rest := by
  have first : (naming name).step '=' = (none, assigned name) := rfl
  have second : (assigned name).step '"' = (none, quoted name '"' []) := rfl
  have third : (quoted name '"' value).step '"' = (some ⟨name, some value⟩, gap) := by
    simp [AttributeReader.step]
  rw [read, first, read, second, read_quoted free, List.nil_append, read, third]
  rfl

theorem read_written {attributes : List (Attribute Char)}
    (names : ∀ entry ∈ attributes, isName entry.name = true)
    (values : ∀ entry ∈ attributes, ∀ value ∈ entry.value, '"' ∉ value) {reader : AttributeReader}
    (ready : reader = gap ∨ ∃ passed, reader = naming passed) :
    reader.read (attributes.flatMap (Attribute.written id)) = reader.last.toList ++ attributes := by
  induction attributes generalizing reader with
  | nil => simp [read]
  | cons entry attributes ih =>
    obtain ⟨plain, otherNames⟩ := List.forall_mem_cons.mp names
    obtain ⟨free, otherValues⟩ := List.forall_mem_cons.mp values
    obtain ⟨name, value⟩ := entry
    rw [List.flatMap_cons, Attribute.written, List.map_id, List.cons_append, List.append_assoc, id,
      read_blank_name ready plain]
    cases value with
    | none =>
      rw [List.nil_append, ih otherNames otherValues (.inr ⟨name, rfl⟩)]
      rfl
    | some value =>
      have quoted : (naming name).read ('=' :: '"' :: (value ++ ['"']) ++
          attributes.flatMap (Attribute.written id)) =
          ⟨name, some value⟩ :: gap.read (attributes.flatMap (Attribute.written id)) := by
        simpa using read_value (free value rfl) name (attributes.flatMap (Attribute.written id))
      exact congrArg (reader.last.toList ++ ·)
        (quoted.trans (congrArg (_ :: ·) (ih otherNames otherValues (.inl rfl))))

end AttributeReader

theorem foldlM_quoteStep_written {entry : Attribute Char} (plain : isName entry.name = true)
    (free : ∀ value ∈ entry.value, '"' ∉ value) :
    (entry.written id).foldlM quoteStep none = some none := by
  obtain ⟨name, value⟩ := entry
  have blank : quoteStep none ' ' = some none := rfl
  have named : name.foldlM quoteStep none = some none :=
    foldlM_quoteStep_name fun c => isNameChar_of_mem plain
  rw [Attribute.written, List.map_id, List.foldlM_cons, id, blank]
  cases value with
  | none => simpa using named
  | some value =>
    have inside : value.foldlM quoteStep (some '"') = some (some '"') :=
      foldlM_quoteStep_of_notMem (free value rfl)
    change (name ++ '=' :: '"' :: (value ++ ['"'])).foldlM quoteStep none = some none
    rw [List.foldlM_append, named]
    change (value ++ ['"']).foldlM quoteStep (some '"') = some none
    rw [List.foldlM_append, inside]
    rfl

theorem foldlM_quoteStep_attributes {attributes : List (Attribute Char)}
    (plain : ∀ entry ∈ attributes, isName entry.name = true)
    (free : ∀ entry ∈ attributes, ∀ value ∈ entry.value, '"' ∉ value) :
    (attributes.flatMap (Attribute.written id)).foldlM quoteStep none = some none := by
  induction attributes with
  | nil => rfl
  | cons entry attributes ih =>
    obtain ⟨name, names⟩ := List.forall_mem_cons.mp plain
    obtain ⟨value, values⟩ := List.forall_mem_cons.mp free
    rw [List.flatMap_cons, List.foldlM_append, foldlM_quoteStep_written name value]
    exact ih names values

namespace Tag

variable {tag : Tag Char}

theorem free_of_values {name : List Char} {attributes : List (Attribute Char)}
    (free : ∀ value ∈ (opening name attributes).values, '"' ∉ value) :
    ∀ entry ∈ attributes, ∀ value ∈ entry.value, '"' ∉ value :=
  fun entry mem value isValue => free value (List.mem_filterMap.mpr ⟨entry, mem, isValue⟩)

theorem isTag_written (plain : tag.isPlain = true) (free : ∀ value ∈ tag.values, '"' ∉ value) :
    IsTag (tag.written id) := by
  cases tag with
  | declaration text =>
    simp only [isPlain, Bool.and_eq_true, decide_eq_true_eq] at plain
    simpa [written] using plain.2
  | closing name =>
    have named : name.foldlM quoteStep none = some none :=
      foldlM_quoteStep_name fun c => isNameChar_of_mem plain
    rw [IsTag, written, List.map_id, List.foldlM_cons]
    exact named
  | opening name attributes =>
    simp only [isPlain, Bool.and_eq_true, List.all_eq_true] at plain
    have named : name.foldlM quoteStep none = some none :=
      foldlM_quoteStep_name fun c => isNameChar_of_mem plain.1
    rw [IsTag, written, List.map_id, List.foldlM_append, named]
    exact foldlM_quoteStep_attributes plain.2 (free_of_values free)

theorem read_name {name rest : List Char} (plain : isName name = true)
    (ends : rest = [] ∨ ∃ more, rest = ' ' :: more) :
    read (name ++ rest) = .opening name (AttributeReader.gap.read rest) := by
  have inside : ∀ c ∈ name, (!(isGap c || c == '/')) = true := by
    intro c mem
    have char := isNameChar_of_mem plain mem
    simp [not_isGap_of_isNameChar char, ne_of_isNameChar char '/' (by decide)]
  have taken : (name ++ rest).takeWhile (fun c => !(isGap c || c == '/')) = name := by
    rw [List.takeWhile_append_of_pos inside]
    rcases ends with rfl | ⟨more, rfl⟩
    · simp
    · rw [List.takeWhile_cons_of_neg (by decide), List.append_nil]
  have dropped : (name ++ rest).dropWhile (fun c => !(isGap c || c == '/')) = rest := by
    rw [List.dropWhile_append_of_pos inside]
    rcases ends with rfl | ⟨more, rfl⟩
    · rfl
    · rw [List.dropWhile_cons_of_neg (by decide)]
  have general : read (name ++ rest) =
      .opening (lower ((name ++ rest).takeWhile fun c => !(isGap c || c == '/')))
        (AttributeReader.gap.read ((name ++ rest).dropWhile fun c => !(isGap c || c == '/'))) := by
    obtain ⟨c, more, rfl, char, _⟩ := exists_cons_of_isName plain
    rw [List.cons_append, read]
    · exact fun tail same => ne_of_isNameChar char '!' (by decide) (List.cons.inj same).1
    · exact fun tail same => ne_of_isNameChar char '?' (by decide) (List.cons.inj same).1
    · exact fun tail same => ne_of_isNameChar char '/' (by decide) (List.cons.inj same).1
  rw [general, taken, dropped, lower_of_isName plain]

theorem read_written (plain : tag.isPlain = true) (free : ∀ value ∈ tag.values, '"' ∉ value) :
    read (tag.written id) = tag := by
  cases tag with
  | declaration text =>
    simp only [isPlain, Bool.and_eq_true, beq_iff_eq] at plain
    obtain ⟨rest, rfl⟩ := List.head?_eq_some_iff.mp plain.1
    simp [written, read]
  | closing name =>
    have plain : isName name = true := plain
    simp [written, read, closingName_of_isName plain]
  | opening name attributes =>
    simp only [isPlain, Bool.and_eq_true, List.all_eq_true] at plain
    have ends : attributes.flatMap (Attribute.written id) = [] ∨
        ∃ more, attributes.flatMap (Attribute.written id) = ' ' :: more := by
      cases attributes with
      | nil => exact .inl rfl
      | cons entry attributes => exact .inr ⟨_, rfl⟩
    rw [written, List.map_id, read_name plain.1 ends,
      AttributeReader.read_written plain.2 (free_of_values free) (.inl rfl)]
    rfl

/-- Whatever follows it, the first value of a tag ends at the next quote. -/
theorem read_first_value {name key value : List Char} (plain : isName name = true)
    (plainKey : isName key = true) (free : '"' ∉ value) (more : List Char) :
    read (name ++ ' ' :: (key ++ '=' :: '"' :: (value ++ '"' :: more))) =
      .opening name (⟨key, some value⟩ :: AttributeReader.gap.read more) := by
  rw [read_name plain (.inr ⟨_, rfl⟩), AttributeReader.read_blank_name (.inl rfl) plainKey,
    AttributeReader.read_value free]
  rfl

theorem isPlain_mapValues (f : List α → List β) (tag : Tag α) :
    (tag.mapValues f).isPlain = tag.isPlain := by
  cases tag <;> simp [mapValues, isPlain, Attribute.mapValue, Function.comp_def]

theorem quote_notMem_values (tag : Tag Char) : ∀ value ∈ (tag.mapValues escape).values, '"' ∉ value := by
  intro value mem
  rw [values_mapValues] at mem
  obtain ⟨text, _, rfl⟩ := List.mem_map.mp mem
  exact quote_notMem_escape text

end Tag

/-- The first tag of a text goes on at least to the end of its first value. -/
theorem head?_of_tags? {name key value more : List Char} {tags : List (Tag Char)}
    (plain : isName name = true) (plainKey : isName key = true) (free : '"' ∉ value)
    (read : tags? ('<' :: (name ++ ' ' :: (key ++ '=' :: '"' :: (value ++ '"' :: more)))) = some tags) :
    ∃ others, tags.head? = some (.opening name (⟨key, some value⟩ :: others)) := by
  let start := name ++ ' ' :: (key ++ '=' :: '"' :: (value ++ ['"']))
  have named : name.foldlM quoteStep none = some none :=
    foldlM_quoteStep_name fun c => isNameChar_of_mem plain
  have quotes : start.foldlM quoteStep none = some none := by
    have entry : ((⟨key, some value⟩ : Attribute Char).written id).foldlM quoteStep none = some none :=
      foldlM_quoteStep_written plainKey (by simpa using free)
    rw [Attribute.written, List.map_id] at entry
    rw [List.foldlM_append, named]
    exact entry
  have whole : name ++ ' ' :: (key ++ '=' :: '"' :: (value ++ '"' :: more)) = start ++ more := by
    simp [start]
  rw [whole, tags?, if_pos rfl] at read
  split at read
  · cases read
  · rename_i length ends
    obtain ⟨others, _, rfl⟩ := Option.map_eq_some_iff.mp read
    rw [tagLength?_append quotes, Nat.zero_add] at ends
    obtain ⟨long, _⟩ := tagLength?_bounds ends
    have taken : (start ++ more).take length =
        name ++ ' ' :: (key ++ '=' :: '"' :: (value ++ '"' :: more.take (length - start.length))) := by
      rw [List.take_append, List.take_of_length_le long]
      simp [start]
    rw [taken, Tag.read_first_value plain plainKey free]
    exact ⟨_, rfl⟩

/-! ### Decoded tags -/

theorem escape_append (first second : List Char) : escape (first ++ second) = escape first ++ escape second :=
  List.flatMap_append

def isUnescaped (text : List Char) : Bool :=
  text.all fun c => !(['&', '<', '>', '"', '\''].contains c)

theorem escape_of_isUnescaped {text : List Char} (plain : isUnescaped text = true) : escape text = text := by
  induction text with
  | nil => rfl
  | cons c text ih =>
    rw [isUnescaped, List.all_cons, Bool.and_eq_true] at plain
    have char : escapeChar c = [c] := by
      unfold escapeChar
      split <;> first | rfl | exact absurd plain.1 (by decide)
    rw [escape, List.flatMap_cons, char]
    exact congrArg (c :: ·) (ih plain.2)

/-- A way to decode entities: it undoes escaping, and does not make a text longer. -/
structure Decoder where
  decode : List Char → List Char
  decode_escape : ∀ text, decode (escape text) = text
  length_decode_le : ∀ text, (decode text).length ≤ text.length

namespace Decoder

def unescape : List Char → List Char
  | '&' :: 'a' :: 'm' :: 'p' :: ';' :: rest => '&' :: unescape rest
  | '&' :: 'l' :: 't' :: ';' :: rest => '<' :: unescape rest
  | '&' :: 'g' :: 't' :: ';' :: rest => '>' :: unescape rest
  | '&' :: 'q' :: 'u' :: 'o' :: 't' :: ';' :: rest => '"' :: unescape rest
  | '&' :: '#' :: '3' :: '9' :: ';' :: rest => '\'' :: unescape rest
  | c :: rest => c :: unescape rest
  | [] => []

theorem unescape_escape (text : List Char) : unescape (escape text) = text := by
  induction text with
  | nil => rfl
  | cons c text ih =>
    rw [escape, List.flatMap_cons]
    change unescape (escapeChar c ++ escape text) = c :: text
    unfold escapeChar
    split
    · exact congrArg ('&' :: ·) ih
    · exact congrArg ('<' :: ·) ih
    · exact congrArg ('>' :: ·) ih
    · exact congrArg ('"' :: ·) ih
    · exact congrArg ('\'' :: ·) ih
    · rename_i notEntity _ _ _ _
      rw [List.singleton_append, unescape, ih]
      all_goals
        intros
        contradiction

theorem length_unescape_le (text : List Char) : (unescape text).length ≤ text.length := by
  induction text using unescape.induct with
  | case7 => exact Nat.le_refl _
  | case6 c rest _ _ _ _ _ ih =>
    rw [unescape] <;> simp_all
  | _ rest ih =>
    simp only [unescape, List.length_cons]
    omega

def basic : Decoder :=
  ⟨unescape, unescape_escape, length_unescape_le⟩

variable (decoder : Decoder)

def tags? (text : List Char) : Option (List (Tag Char)) :=
  (Markup.tags? text).map (·.map (Tag.mapValues decoder.decode))

def tagsOf (text : List Char) : List (Tag Char) :=
  (decoder.tags? text).getD []

variable {decoder}

theorem tagsOf_eq {text : List Char} {tags : List (Tag Char)} (read : decoder.tags? text = some tags) :
    decoder.tagsOf text = tags := by
  rw [tagsOf, read, Option.getD_some]

theorem tags?_eq_tagsOf {text : List Char} {tags : List (Tag Char)}
    (read : decoder.tags? text = some tags) : decoder.tags? text = some (decoder.tagsOf text) := by
  rw [read, tagsOf_eq read]

theorem tags?_append {first second : List Char} {tags more : List (Tag Char)}
    (read : decoder.tags? first = some tags) (later : decoder.tags? second = some more) :
    decoder.tags? (first ++ second) = some (tags ++ more) := by
  obtain ⟨found, start, rfl⟩ := Option.map_eq_some_iff.mp read
  obtain ⟨others, rest, rfl⟩ := Option.map_eq_some_iff.mp later
  rw [tags?, Markup.tags?_append start, rest]
  simp

theorem tags?_flatMap {ι : Type} {items : List ι} {text : ι → List Char} {tags : ι → List (Tag Char)}
    (each : ∀ item ∈ items, decoder.tags? (text item) = some (tags item)) :
    decoder.tags? (items.flatMap text) = some (items.flatMap tags) := by
  induction items with
  | nil => simp [tags?, Markup.tags?]
  | cons item items ih =>
    obtain ⟨first, rest⟩ := List.forall_mem_cons.mp each
    exact tags?_append first (ih rest)

theorem tags?_of_notMem {text : List Char} (free : '<' ∉ text) : decoder.tags? text = some [] := by
  rw [tags?, Markup.tags?_of_notMem free]
  rfl

theorem tags?_escape (text : List Char) : decoder.tags? (escape text) = some [] :=
  tags?_of_notMem (notMem_escape (by decide) text)

/-- A tag that is written with its values escaped is read as it was. -/
theorem tags?_markup {tag : Tag Char} (plain : tag.isPlain = true) : decoder.tags? tag.markup = some [tag] := by
  have writes : (tag.mapValues escape).isPlain = true := (tag.isPlain_mapValues escape).trans plain
  have undone : decoder.decode ∘ escape = id := funext decoder.decode_escape
  rw [tags?, Tag.markup, tags?_tag (Tag.isTag_written writes tag.quote_notMem_values),
    Tag.read_written writes tag.quote_notMem_values, Option.map_some, List.map_singleton,
    Tag.mapValues_mapValues, undone, Tag.mapValues_id]

theorem tags?_markups {tags : List (Tag Char)} (plain : tags.all Tag.isPlain = true) :
    decoder.tags? (tags.flatMap Tag.markup) = some tags := by
  have each : ∀ tag ∈ tags, decoder.tags? tag.markup = some [tag] :=
    fun tag mem => tags?_markup (List.all_eq_true.mp plain tag mem)
  simpa using tags?_flatMap each

theorem tags?_between {starts ends tags : List (Tag Char)} {text : List Char}
    (plainStarts : starts.all Tag.isPlain = true) (read : decoder.tags? text = some tags)
    (plainEnds : ends.all Tag.isPlain = true) :
    decoder.tags? (starts.flatMap Tag.markup ++ (text ++ ends.flatMap Tag.markup)) =
      some (starts ++ (tags ++ ends)) :=
  tags?_append (tags?_markups plainStarts) (tags?_append read (tags?_markups plainEnds))

end Decoder

end CodeAtlas.Markup
