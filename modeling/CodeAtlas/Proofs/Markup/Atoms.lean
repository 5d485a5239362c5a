import CodeAtlas.Proofs.Markup.Grammar
import CodeAtlas.Proofs.Markup.Tags

/-!
# Glyphs and tags

Rendered text is a sequence of escaped characters and tags. From such a sequence both the tags that a
reader finds and what the check of nesting says can be told: the check runs the tags over a stack
(`nest`), and what stands between them has no influence.
-/

namespace CodeAtlas.Markup

open Nesting

/-! ### Tags of elements -/

/-- The name of an element whose content is not raw text. -/
def isElement (name : List Char) : Bool :=
  isName name && name.all Char.isAlphanum && (name.head?.map Char.isAlpha).getD false &&
    !rawElements.contains name

/-- The tag of an element, each of its attributes with a value that can stand in double quotes. -/
def Tag.Sound : Tag Char → Prop
  | .opening name attributes =>
    isElement name = true ∧
      ∀ entry ∈ attributes, isName entry.name = true ∧ ∃ value, entry.value = some value ∧ '"' ∉ value
  | .closing name => isElement name = true
  | .declaration _ => False

section Elements

variable {name : List Char}

theorem isName_of_isElement (element : isElement name = true) : isName name = true := by
  simp only [isElement, Bool.and_eq_true] at element
  exact element.1.1.1

theorem notMem_rawElements (element : isElement name = true) : name ∉ rawElements := by
  simp only [isElement, Bool.and_eq_true, Bool.not_eq_true', List.contains_eq_mem, decide_eq_false_iff_not] at element
  exact element.2

theorem tagName?_of_isElement (element : isElement name = true) {rest : List Char}
    (ends : rest = [] ∨ ∃ more, rest = ' ' :: more) : tagName? (name ++ rest) = some name := by
  have small := lower_of_isName (isName_of_isElement element)
  simp only [isElement, Bool.and_eq_true] at element
  obtain ⟨⟨⟨_, letters⟩, first⟩, _⟩ := element
  have taken : (name ++ rest).takeWhile (fun c => c.isAlphanum || c == '-') = name := by
    have inside : ∀ c ∈ name, (c.isAlphanum || c == '-') = true :=
      fun c mem => by rw [List.all_eq_true.mp letters c mem, Bool.true_or]
    rw [List.takeWhile_append_of_pos inside]
    rcases ends with rfl | ⟨more, rfl⟩
    · exact List.append_nil name
    · rw [List.takeWhile_cons_of_neg (by decide), List.append_nil]
  rw [tagName?, taken]
  cases name with
  | nil => cases first
  | cons c more =>
    have letter : c.isAlpha = true := first
    simp only [letter, if_true, small]

end Elements

namespace Tag

variable {tag : Tag Char}

theorem Sound.isPlain (sound : tag.Sound) : tag.isPlain = true := by
  cases tag with
  | declaration text => exact sound.elim
  | closing name => exact isName_of_isElement sound
  | opening name attributes =>
    rw [Tag.isPlain, Bool.and_eq_true, List.all_eq_true]
    exact ⟨isName_of_isElement sound.1, fun entry mem => (sound.2 entry mem).1⟩

theorem Sound.quote_notMem (sound : tag.Sound) : ∀ value ∈ tag.values, '"' ∉ value := by
  cases tag with
  | declaration text => exact sound.elim
  | closing name => exact fun value mem => absurd mem List.not_mem_nil
  | opening name attributes =>
    intro value mem
    obtain ⟨entry, listed, isValue⟩ := List.mem_filterMap.mp mem
    obtain ⟨_, other, same, free⟩ := sound.2 entry listed
    rw [same] at isValue
    cases isValue
    exact free

theorem Sound.isTag (sound : tag.Sound) : IsTag (tag.written id) :=
  isTag_written sound.isPlain sound.quote_notMem

/-- An opening tag ends in a letter of its name or in a quote. -/
theorem Sound.stays {name : List Char} {attributes : List (Attribute Char)}
    (sound : (opening name attributes).Sound) :
    ((opening name attributes).written id).getLast? ≠ some '/' := by
  rw [written, List.map_id]
  rcases List.eq_nil_or_concat attributes with rfl | ⟨front, last, rfl⟩
  · rw [List.flatMap_nil, List.append_nil]
    intro ends
    exact ne_of_isNameChar (isNameChar_of_mem (isName_of_isElement sound.1) (List.mem_of_getLast? ends))
      '/' (by decide) rfl
  · obtain ⟨_, value, isValue, _⟩ := sound.2 last (by simp)
    have quoted : last.written id = (' ' :: (last.name ++ '=' :: '"' :: value)) ++ ['"'] := by
      simp [Attribute.written, isValue]
    rw [List.concat_eq_append, List.flatMap_append, List.flatMap_singleton, quoted, ← List.append_assoc,
      ← List.append_assoc, List.getLast?_append]
    simp

theorem Sound.opens {name : List Char} {attributes : List (Attribute Char)}
    (sound : (opening name attributes).Sound) : Opens ((opening name attributes).written id) name := by
  refine ⟨sound.isTag, ?_, sound.stays⟩
  have ends : attributes.flatMap (Attribute.written id) = [] ∨
      ∃ more, attributes.flatMap (Attribute.written id) = ' ' :: more := by
    cases attributes with
    | nil => exact .inl rfl
    | cons entry attributes => exact .inr ⟨_, rfl⟩
  rw [written, List.map_id]
  exact tagName?_of_isElement sound.1 ends

end Tag

/-! ### What is outside the tags -/

/-- The characters of a text that are in none of its tags. A tag that does not end is no tag. -/
def outside : List Char → List Char
  | [] => []
  | c :: rest =>
    if c = '<' then
      match tagLength? none 0 rest with
      | none => c :: rest
      | some length => outside (rest.drop (length + 1))
    else c :: outside rest
termination_by text => text.length

theorem outside_append {first : List Char} {tags : List (Tag Char)} (read : tags? first = some tags)
    (second : List Char) : outside (first ++ second) = outside first ++ outside second := by
  induction first using tags?.induct generalizing tags with
  | case1 => rw [outside, List.nil_append, List.nil_append]
  | case2 rest unclosed =>
    rw [tags?, if_pos rfl, unclosed] at read
    cases read
  | case3 rest length ends ih =>
    rw [tags?, if_pos rfl, ends] at read
    obtain ⟨others, later, rfl⟩ := Option.map_eq_some_iff.mp read
    obtain ⟨_, inside⟩ := tagLength?_bounds ends
    have dropped : (rest ++ second).drop (length + 1) = rest.drop (length + 1) ++ second :=
      List.drop_append_of_le_length (by omega)
    rw [List.cons_append, outside, outside, if_pos rfl, if_pos rfl, tagLength?_append_of_some ends, ends]
    simp only [dropped, ih later]
  | case4 c rest notBracket ih =>
    rw [tags?, if_neg notBracket] at read
    rw [List.cons_append, outside, outside, if_neg notBracket, if_neg notBracket, ih read, List.cons_append]

theorem outside_of_notMem {text : List Char} (free : '<' ∉ text) : outside text = text := by
  induction text with
  | nil => rw [outside]
  | cons c text ih =>
    obtain ⟨different, free⟩ := not_or.mp (mt List.mem_cons.mpr free)
    rw [outside, if_neg (Ne.symm different), ih free]

theorem outside_tag {body : List Char} (tag : IsTag body) : outside ('<' :: (body ++ ['>'])) = [] := by
  have dropped : (body ++ ['>']).drop (body.length + 1) = [] := by simp
  rw [outside, if_pos rfl, tag.tagLength?_eq]
  simp only [dropped]
  rw [outside]

theorem exists_tags?_of_notMem_outside {text : List Char} (free : '<' ∉ outside text) :
    ∃ tags, tags? text = some tags := by
  induction text using outside.induct with
  | case1 => exact ⟨[], by rw [tags?]⟩
  | case2 rest unclosed =>
    rw [outside, if_pos rfl, unclosed] at free
    exact absurd List.mem_cons_self free
  | case3 rest length ends ih =>
    rw [outside, if_pos rfl, ends] at free
    obtain ⟨tags, read⟩ := ih free
    exact ⟨_, by rw [tags?, if_pos rfl, ends]; simp only [read]; rfl⟩
  | case4 c rest notBracket ih =>
    rw [outside, if_neg notBracket] at free
    obtain ⟨tags, read⟩ := ih fun mem => free (List.mem_cons_of_mem c mem)
    exact ⟨tags, by rw [tags?, if_neg notBracket, read]⟩

/-- What stands before a text that ends no tag has only tags that end. -/
theorem exists_tags?_of_append {first second : List Char} {tags : List (Tag Char)} (free : '>' ∉ second)
    (read : tags? (first ++ second) = some tags) : ∃ tags, tags? first = some tags := by
  induction first using tags?.induct generalizing tags with
  | case1 => exact ⟨[], by rw [tags?]⟩
  | case2 rest unclosed =>
    rw [List.cons_append, tags?, if_pos rfl] at read
    split at read
    · cases read
    · rename_i length ends
      -- the bracket that ends the tag is not in the second text, so it is in the first
      obtain ⟨body, more, whole, quotes, _⟩ := exists_of_tagLength? ends
      have bracket : '>' ∈ second ∨ ∃ behind, rest = body ++ '>' :: behind := by
        rcases List.append_eq_append_iff.mp whole with ⟨passed, _, same⟩ | ⟨passed, same, later⟩
        · exact .inl (same ▸ by simp)
        · cases passed with
          | nil => exact .inl (by rw [List.nil_append] at later; exact later ▸ List.mem_cons_self)
          | cons c passed =>
            obtain ⟨rfl, _⟩ := List.cons.inj later
            exact .inr ⟨passed, same⟩
      rcases bracket with mem | ⟨behind, rfl⟩
      · exact absurd mem free
      · have tag : IsTag body := quotes
        rw [tag.tagLength?_eq] at unclosed
        cases unclosed
  | case3 rest length ends ih =>
    rw [List.cons_append, tags?, if_pos rfl, tagLength?_append_of_some ends] at read
    obtain ⟨others, later, _⟩ := Option.map_eq_some_iff.mp read
    obtain ⟨_, inside⟩ := tagLength?_bounds ends
    rw [List.drop_append_of_le_length (by omega)] at later
    obtain ⟨tags, found⟩ := ih later
    exact ⟨_, by rw [tags?, if_pos rfl, ends]; simp only [found]; rfl⟩
  | case4 c rest notBracket ih =>
    rw [List.cons_append, tags?, if_neg notBracket] at read
    obtain ⟨tags, found⟩ := ih read
    exact ⟨tags, by rw [tags?, if_neg notBracket, found]⟩

/-! ### Tags over a stack -/

/-- The elements that are open after the given tags, innermost first. Each closing tag must close the
innermost one. -/
def nest : List (List Char) → List (Tag Char) → Option (List (List Char))
  | opened, [] => some opened
  | opened, .opening name _ :: tags => nest (if voidElements.contains name then opened else name :: opened) tags
  | [], .closing _ :: _ => none
  | expected :: outer, .closing name :: tags => if expected = name then nest outer tags else none
  | opened, .declaration _ :: tags => nest opened tags

theorem nest_nil (opened : List (List Char)) : nest opened [] = some opened := by
  cases opened <;> rfl

section Steps

variable {name : List Char} (opened : List (List Char)) (attributes : List (Attribute Char))
  (tags : List (Tag Char))

theorem nest_single (void : name ∈ voidElements) :
    nest opened (.opening name attributes :: tags) = nest opened tags := by
  rw [nest, if_pos (List.contains_iff_mem.mpr void)]

theorem nest_opening (notVoid : name ∉ voidElements) :
    nest opened (.opening name attributes :: tags) = nest (name :: opened) tags := by
  rw [nest, if_neg (mt List.contains_iff_mem.mp notVoid)]

theorem nest_closing : nest (name :: opened) (.closing name :: tags) = nest opened tags := by
  rw [nest, if_pos rfl]

end Steps

theorem nest_append (opened : List (List Char)) (first second : List (Tag Char)) :
    nest opened (first ++ second) = (nest opened first).bind (nest · second) := by
  fun_induction nest opened first with
  | case1 opened => rfl
  | case2 opened name attributes tags ih => rw [List.cons_append, nest, ih]
  | case3 name tags => rfl
  | case4 outer name tags ih => rw [List.cons_append, nest, if_pos rfl, ih]
  | case5 expected outer name tags different =>
    rw [List.cons_append, nest, if_neg different]
    rfl
  | case6 opened text tags ih => rw [List.cons_append, nest, ih]

/-- What is open further out makes no difference to tags that close only what they opened. -/
theorem nest_append_outer {opened after : List (List Char)} {tags : List (Tag Char)}
    (nested : nest opened tags = some after) (outer : List (List Char)) :
    nest (opened ++ outer) tags = some (after ++ outer) := by
  fun_induction nest opened tags with
  | case1 opened =>
    cases nested
    exact nest_nil _
  | case2 opened name attributes tags ih =>
    rw [nest, ← ih nested]
    split <;> rfl
  | case3 name tags => cases nested
  | case4 inner name tags ih =>
    rw [List.cons_append, nest, if_pos rfl]
    exact ih nested
  | case5 expected inner name tags different => cases nested
  | case6 opened text tags ih =>
    rw [nest]
    exact ih nested

def Tag.element? : Tag Char → Option (List Char)
  | .opening name _ => some name
  | .closing name => some name
  | .declaration _ => none

theorem nest_inside {name : List Char} {tags : List (Tag Char)}
    (apart : ∀ tag ∈ tags, tag.element? ≠ some name) (opened outer : List (List Char)) :
    nest (opened ++ name :: outer) tags = (nest opened tags).map (· ++ name :: outer) := by
  fun_induction nest opened tags with
  | case1 opened => exact nest_nil _
  | case2 opened other attributes tags ih =>
    rw [nest, ← ih (List.forall_mem_cons.mp apart).2]
    split <;> rfl
  | case3 other tags =>
    have different : name ≠ other := fun same => (List.forall_mem_cons.mp apart).1 (congrArg some same.symm)
    rw [List.nil_append, nest, if_neg different]
    rfl
  | case4 inner other tags ih =>
    rw [List.cons_append, nest, if_pos rfl]
    exact ih (List.forall_mem_cons.mp apart).2
  | case5 expected inner other tags different =>
    rw [List.cons_append, nest, if_neg different]
    rfl
  | case6 opened text tags ih =>
    rw [nest]
    exact ih (List.forall_mem_cons.mp apart).2

theorem mem_of_nest {opened after : List (List Char)} {tags : List (Tag Char)}
    (nested : nest opened tags = some after) :
    ∀ name ∈ after, name ∈ opened ∨ ∃ tag ∈ tags, tag.element? = some name := by
  fun_induction nest opened tags with
  | case1 opened =>
    cases nested
    exact fun name mem => .inl mem
  | case2 opened other attributes tags ih =>
    intro name mem
    rcases ih nested name mem with before | ⟨tag, listed, named⟩
    · split at before
      · exact .inl before
      · rcases List.mem_cons.mp before with rfl | before
        · exact .inr ⟨_, List.mem_cons_self, rfl⟩
        · exact .inl before
    · exact .inr ⟨tag, List.mem_cons_of_mem _ listed, named⟩
  | case3 other tags => cases nested
  | case4 inner other tags ih =>
    intro name mem
    rcases ih nested name mem with before | ⟨tag, listed, named⟩
    · exact .inl (List.mem_cons_of_mem _ before)
    · exact .inr ⟨tag, List.mem_cons_of_mem _ listed, named⟩
  | case5 expected inner other tags different => cases nested
  | case6 opened text tags ih =>
    intro name mem
    rcases ih nested name mem with before | ⟨tag, listed, named⟩
    · exact .inl before
    · exact .inr ⟨tag, List.mem_cons_of_mem _ listed, named⟩

/-- An element is closed just if the tags inside it, which are not its own, close all that they open. -/
theorem nest_element {name : List Char} {attributes : List (Attribute Char)} {tags : List (Tag Char)}
    (notVoid : name ∉ voidElements) (apart : ∀ tag ∈ tags, tag.element? ≠ some name)
    (opened : List (List Char)) :
    nest opened (.opening name attributes :: (tags ++ [.closing name])) =
      if nest [] tags = some [] then some opened else none := by
  rw [nest_opening opened attributes _ notVoid, nest_append, ← List.nil_append (name :: opened), nest_inside apart]
  cases inside : nest [] tags with
  | none => rfl
  | some after =>
    cases after with
    | nil =>
      rw [if_pos rfl, Option.map_some, Option.bind_some, List.nil_append, nest_closing, nest_nil]
    | cons inner more =>
      -- what is left open inside was opened inside
      have different : inner ≠ name := by
        rintro rfl
        rcases mem_of_nest inside inner List.mem_cons_self with before | ⟨tag, listed, named⟩
        · exact absurd before List.not_mem_nil
        · exact apart tag listed named
      rw [if_neg (by simp), Option.map_some, Option.bind_some, List.cons_append, nest, if_neg different]

/-! ### Sequences of glyphs and tags -/

/-- A character of the shown text, or a tag. -/
inductive Atom where
  | glyph (c : Char)
  | tag (tag : Tag Char)

namespace Atom

def text : Atom → List Char
  | .glyph c => escapeChar c
  | .tag found => '<' :: (found.written id ++ ['>'])

def tag? : Atom → Option (Tag Char)
  | .glyph _ => none
  | .tag found => some found

def glyph? : Atom → Option Char
  | .glyph c => some c
  | .tag _ => none

def markup (atoms : List Atom) : List Char :=
  atoms.flatMap text

def tags (atoms : List Atom) : List (Tag Char) :=
  atoms.filterMap tag?

def shown (atoms : List Atom) : List Char :=
  atoms.filterMap glyph?

section Equations

variable (first second atoms : List Atom) (c : Char) (tag : Tag Char)

@[simp] theorem markup_nil : markup [] = [] := rfl

@[simp] theorem markup_glyph : markup (.glyph c :: atoms) = escapeChar c ++ markup atoms := rfl

@[simp] theorem markup_tag :
    markup (.tag tag :: atoms) = '<' :: (tag.written id ++ '>' :: markup atoms) :=
  tag_append (tag.written id) (markup atoms)

@[simp] theorem markup_append : markup (first ++ second) = markup first ++ markup second :=
  List.flatMap_append

@[simp] theorem tags_nil : tags [] = [] := rfl

@[simp] theorem tags_glyph : tags (.glyph c :: atoms) = tags atoms := rfl

@[simp] theorem tags_tag : tags (.tag tag :: atoms) = tag :: tags atoms := rfl

theorem tags_cons (atom : Atom) : tags (atom :: atoms) = atom.tag?.toList ++ tags atoms := by
  cases atom <;> rfl

@[simp] theorem tags_append : tags (first ++ second) = tags first ++ tags second :=
  List.filterMap_append

def element (name : List Char) (attributes : List (Attribute Char)) (inner : List Char) : List Char :=
  markup [.tag (.opening name attributes)] ++ (inner ++ markup [.tag (.closing name)])

theorem element_markup (name : List Char) (attributes : List (Attribute Char)) :
    element name attributes (markup atoms) =
      markup (.tag (.opening name attributes) :: (atoms ++ [.tag (.closing name)])) := by
  rw [element, ← markup_append, ← markup_append]
  rfl

theorem markup_map_glyph (text : List Char) : markup (text.map .glyph) = escape text :=
  List.flatMap_map ..

theorem tags_map_glyph (text : List Char) : tags (text.map .glyph) = [] := by
  rw [tags, List.filterMap_map]
  exact List.filterMap_eq_nil_iff.mpr fun _ _ => rfl

theorem forall_tags_map_glyph (property : Tag Char → Prop) (text : List Char) :
    ∀ tag ∈ tags (text.map .glyph), property tag := by
  rw [tags_map_glyph]
  exact fun _ mem => absurd mem List.not_mem_nil

end Equations

variable {atoms : List Atom}

def Sound (atoms : List Atom) : Prop :=
  ∀ tag ∈ tags atoms, tag.Sound

theorem Sound.tags?_text (sound : Sound atoms) : ∀ atom ∈ atoms, tags? atom.text = some atom.tag?.toList := by
  intro atom mem
  cases atom with
  | glyph c =>
    rw [text, ← escape_singleton]
    exact tags?_of_notMem (notMem_escape (by decide) [c])
  | tag tag =>
    have written : tag.Sound := sound tag (List.mem_filterMap.mpr ⟨.tag tag, mem, rfl⟩)
    rw [text, tags?_tag written.isTag, Tag.read_written written.isPlain written.quote_notMem]
    rfl

/-- A part of a tag is not complete. -/
theorem tags?_of_part {found : Tag Char} (sound : found.Sound) {c d : Char} {before after : List Char}
    (part : (tag found).text = c :: before ++ d :: after) : tags? (c :: before) = none := by
  rw [text, List.cons_append] at part
  obtain ⟨rfl, body⟩ := List.cons.inj part
  have ends := sound.isTag.tagLength?_eq []
  have short := congrArg List.length body
  simp only [List.length_append, List.length_cons, List.length_nil] at short
  rw [body] at ends
  rw [tags?, if_pos rfl]
  cases inside : tagLength? none 0 before with
  | none => rfl
  | some length =>
    have bound := (tagLength?_bounds inside).2
    rw [tagLength?_append_of_some inside] at ends
    obtain rfl := Option.some.inj ends
    omega

theorem Sound.of_cons {atom : Atom} (sound : Sound (atom :: atoms)) : Sound atoms := by
  intro tag mem
  refine sound tag ?_
  rw [tags_cons]
  exact List.mem_append_right _ mem

theorem Sound.append {second : List Atom} (sound : Sound atoms) (later : Sound second) :
    Sound (atoms ++ second) := by
  intro tag mem
  rw [tags_append] at mem
  exact (List.mem_append.mp mem).elim (sound tag) (later tag)

theorem Sound.element (sound : Sound atoms) {name : List Char} {attributes : List (Attribute Char)}
    (opens : (Tag.opening name attributes).Sound) :
    Sound (.tag (.opening name attributes) :: (atoms ++ [.tag (.closing name)])) := by
  intro found mem
  rw [tags_tag, tags_append] at mem
  rcases List.mem_cons.mp mem with rfl | mem
  · exact opens
  · rcases List.mem_append.mp mem with mem | mem
    · exact sound found mem
    · obtain rfl := List.mem_singleton.mp mem
      exact opens.1

/-- A reader finds just the tags of the sequence. -/
theorem Sound.tags?_markup (sound : Sound atoms) : tags? (markup atoms) = some (tags atoms) := by
  induction atoms with
  | nil => rw [markup_nil, tags?, tags_nil]
  | cons atom atoms ih =>
    have first := sound.tags?_text atom List.mem_cons_self
    have whole : markup (atom :: atoms) = atom.text ++ markup atoms := rfl
    rw [whole, tags?_append first, ih sound.of_cons, tags_cons]
    rfl

/-- Outside the tags is the shown text, escaped. -/
theorem Sound.outside_markup (sound : Sound atoms) : outside (markup atoms) = escape (shown atoms) := by
  induction atoms with
  | nil => rw [markup_nil, outside]; rfl
  | cons atom atoms ih =>
    have whole : markup (atom :: atoms) = atom.text ++ markup atoms := rfl
    rw [whole, outside_append (sound.tags?_text atom List.mem_cons_self), ih sound.of_cons]
    cases atom with
    | glyph c =>
      rw [text, ← escape_singleton, outside_of_notMem (notMem_escape (by decide) [c])]
      exact (escape_append [c] (shown atoms)).symm
    | tag tag =>
      rw [text, outside_tag (sound tag List.mem_cons_self).isTag]
      rfl

/-! ### The check of nesting -/

/-- From here the scan ends in a fault, whatever comes behind the text. -/
def Stops (before : List (List Char)) (text : List Char) : Prop :=
  ∀ line rest, ∃ fault, scan line before (text ++ rest) = .error fault

/-- A closing tag that does not close the innermost element is a fault. -/
theorem scan_of_wrong_closing {name : List Char} (element : isElement name = true)
    {before : List (List Char)} (wrong : before.head? ≠ some name) :
    Stops before (tag (.closing name)).text := by
  intro line rest
  have sound : (Tag.closing name).Sound := element
  have tagged : IsTag ('/' :: name) := by simpa [Tag.written] using sound.isTag
  have step : ∃ fault, stepTag line before ('/' :: name ++ '>' :: rest) = .error fault := by
    have taken : ('/' :: name ++ '>' :: rest).take ('/' :: name).length = '/' :: name := List.take_left
    rw [stepTag, tagged.tagLength?_eq]
    simp only [taken, closingName_of_isName (isName_of_isElement element)]
    cases before with
    | nil => exact ⟨_, rfl⟩
    | cons expected outer =>
      have different : expected ≠ name := fun same => wrong (congrArg some same)
      exact ⟨_, if_neg different⟩
  obtain ⟨fault, step⟩ := step
  refine ⟨fault, ?_⟩
  rw [text, Tag.written, List.map_id, tag_append, scan, if_pos (by decide), if_pos rfl, stepBracket,
    dropRun?_comment (by simp)]
  simp only [id, step]

/-- Over one atom the scan goes on as the stack does, or ends where that has nothing to close. -/
theorem scan_text {atom : Atom} (sound : ∀ tag ∈ atom.tag?, tag.Sound) (before : List (List Char)) :
    (∃ after, nest before atom.tag?.toList = some after ∧ Passes before atom.text after) ∨
      nest before atom.tag?.toList = none ∧ Stops before atom.text := by
  cases atom with
  | glyph c => exact .inl ⟨before, nest_nil before, balanced_escapeChar c before⟩
  | tag tag =>
    have first : tag.Sound := sound tag rfl
    cases tag with
    | declaration text => exact first.elim
    | opening name attributes =>
      left
      by_cases void : name ∈ voidElements
      · exact ⟨before, (nest_single before attributes [] void).trans (nest_nil _),
          balanced_single first.isTag first.opens.named (.inl void) before⟩
      · exact ⟨name :: before, (nest_opening before attributes [] void).trans (nest_nil _),
          first.opens.passes void (notMem_rawElements first.1) before⟩
    | closing name =>
      by_cases innermost : before.head? = some name
      · obtain ⟨outer, rfl⟩ := List.head?_eq_some_iff.mp innermost
        have named : closingName (name.map id) = name := by
          rw [List.map_id, closingName_of_isName (isName_of_isElement first)]
        exact .inl ⟨outer, (nest_closing outer []).trans (nest_nil outer),
          passes_closing first.isTag named outer⟩
      · refine .inr ⟨?_, scan_of_wrong_closing first innermost⟩
        cases before with
        | nil => rfl
        | cons expected outer => exact if_neg fun same => innermost (congrArg some same)

theorem scan_markup (sound : Sound atoms) (before : List (List Char)) :
    (∃ after, nest before (tags atoms) = some after ∧ Passes before (markup atoms) after) ∨
      nest before (tags atoms) = none ∧ Stops before (markup atoms) := by
  induction atoms generalizing before with
  | nil => exact .inl ⟨before, nest_nil before, .nil before⟩
  | cons atom atoms ih =>
    have first : ∀ tag ∈ atom.tag?, tag.Sound := fun tag mem => sound tag (by simp_all [tags_cons])
    have whole : markup (atom :: atoms) = atom.text ++ markup atoms := rfl
    rw [tags_cons, nest_append, whole]
    rcases scan_text first before with ⟨middle, nested, passes⟩ | ⟨stuck, stops⟩
    · rw [nested]
      rcases ih sound.of_cons middle with ⟨after, later, passesLater⟩ | ⟨later, stops⟩
      · exact .inl ⟨after, later, passes.append passesLater⟩
      · refine .inr ⟨later, fun line rest => ?_⟩
        rw [List.append_assoc, passes]
        exact stops _ rest
    · refine .inr ⟨by rw [stuck]; rfl, fun line rest => ?_⟩
      rw [List.append_assoc]
      exact stops line _

/-- The check of nesting runs the tags over a stack. -/
theorem Sound.checkNesting_iff (sound : Sound atoms) :
    checkNesting (markup atoms) = .ok () ↔ nest [] (tags atoms) = some [] := by
  rcases scan_markup sound [] with ⟨after, nested, passes⟩ | ⟨stuck, stops⟩
  · rw [nested]
    cases after with
    | nil => exact iff_of_true (checkNesting_of_passes passes) rfl
    | cons name outer =>
      have ends := passes 1 []
      rw [List.append_nil] at ends
      rw [checkNesting, ends, scan]
      exact iff_of_false (by simp) (by simp)
  · obtain ⟨fault, refused⟩ := stops 1 []
    rw [List.append_nil] at refused
    rw [checkNesting, refused, stuck]
    exact iff_of_false (by simp) (by simp)

end Atom

end CodeAtlas.Markup
