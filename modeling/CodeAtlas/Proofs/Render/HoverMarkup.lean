import CodeAtlas.Proofs.Outcome
import CodeAtlas.Proofs.Render.Highlighting
import CodeAtlas.Proofs.Render.Rewriting
import CodeAtlas.Render.Markdown

/-!
# The markup of hover texts

Whatever a hover text says, its markup has only the tags of a few elements, with no attributes but a class
or a safe address, and all else in it is escaped (`hover_markup_harmless`).
-/

namespace CodeAtlas

open Markup

namespace Markup

/-! ### Harmless tags -/

/-- An address that runs no code: a web page, a place on the same page, or a path. -/
def SafeAddress (address : List Char) : Prop :=
  "https://".toList <+: address ∨ "http://".toList <+: address ∨ "#".toList <+: address ∨ ':' ∉ address

/-- The elements that stand in hover texts without attributes. -/
def bareElements : List (List Char) :=
  ["p", "ul", "li", "h1", "h2", "h3", "h4", "h5", "h6", "hr", "pre", "code", "strong", "em"].map
    String.toList

def hoverElements : List (List Char) :=
  "a".toList :: "span".toList :: bareElements

inductive Tag.Harmless : Tag Char → Prop where
  | bare {name : List Char} : name ∈ bareElements → Harmless (.opening name [])
  | styled {name style : List Char} :
    name = "code".toList ∨ name = "span".toList → Harmless (.opening name [⟨"class".toList, some style⟩])
  | link {address : List Char} :
    SafeAddress address → Harmless (.opening "a".toList [⟨"href".toList, some address⟩])
  | closing {name : List Char} : name ∈ hoverElements → Harmless (.closing name)

theorem isElement_of_mem_hoverElements {name : List Char} (listed : name ∈ hoverElements) :
    isElement name = true := by
  have each : hoverElements.all isElement = true := by decide
  exact List.all_eq_true.mp each name listed

structure Tag.Written (tag : Tag Char) : Prop where
  harmless : tag.Harmless
  quote_notMem : ∀ value ∈ tag.values, '"' ∉ value

theorem Tag.Written.sound {tag : Tag Char} (written : tag.Written) : tag.Sound := by
  obtain ⟨harmless, free⟩ := written
  have single : ∀ name ∈ hoverElements, ∀ key value : List Char, isName key = true →
      '"' ∉ value → (Tag.opening name [⟨key, some value⟩]).Sound := by
    intro name listed key value named free
    refine ⟨isElement_of_mem_hoverElements listed, fun entry mem => ?_⟩
    obtain rfl := List.mem_singleton.mp mem
    exact ⟨named, value, rfl, free⟩
  cases harmless with
  | bare listed =>
    exact ⟨isElement_of_mem_hoverElements (List.mem_cons_of_mem _ (List.mem_cons_of_mem _ listed)),
      fun entry mem => absurd mem List.not_mem_nil⟩
  | styled names =>
    refine single _ ?_ _ _ (by decide) (free _ List.mem_cons_self)
    rcases names with rfl | rfl
    · decide
    · decide
  | link safe => exact single _ List.mem_cons_self _ _ (by decide) (free _ List.mem_cons_self)
  | closing listed => exact isElement_of_mem_hoverElements listed

/-! ### Safe addresses -/

theorem Decoder.mem_of_mem_unescape {c : Char} {text : List Char} (mem : c ∈ unescape text) :
    c ∈ text ∨ c ∈ ['&', '<', '>', '"', '\''] := by
  induction text using unescape.induct with
  | case7 => exact .inl mem
  | case6 d rest _ _ _ _ _ ih =>
    rw [unescape] at mem <;> simp_all
    grind
  | _ rest ih =>
    rcases List.mem_cons.mp mem with rfl | later
    · exact .inr (by decide)
    · exact (ih later).imp_left (by simp_all)

theorem SafeAddress.unescape {address : List Char} (safe : SafeAddress address) :
    SafeAddress (Decoder.unescape address) := by
  rcases safe with ⟨rest, rfl⟩ | ⟨rest, rfl⟩ | ⟨rest, rfl⟩ | free
  · exact .inl ⟨Decoder.unescape rest, rfl⟩
  · exact .inr (.inl ⟨Decoder.unescape rest, rfl⟩)
  · exact .inr (.inr (.inl ⟨Decoder.unescape rest, rfl⟩))
  · refine .inr (.inr (.inr fun mem => ?_))
    rcases Decoder.mem_of_mem_unescape mem with mem | entity
    · exact free mem
    · exact absurd entity (by decide)

theorem Tag.Harmless.unescape {tag : Tag Char} (harmless : tag.Harmless) :
    (tag.mapValues Decoder.unescape).Harmless := by
  cases harmless with
  | bare listed => exact .bare listed
  | styled names => exact .styled names
  | link safe => exact .link safe.unescape
  | closing listed => exact .closing listed

/-! ### Texts made of such tags -/

/-- The text is a sequence of glyphs and tags with the given property. -/
def MadeOf (property : Tag Char → Prop) (text : List Char) : Prop :=
  ∃ atoms, (∀ tag ∈ Atom.tags atoms, property tag) ∧ text = Atom.markup atoms

namespace MadeOf

variable {property other : Tag Char → Prop} {first second : List Char}

theorem mono (weaker : ∀ tag, property tag → other tag) (made : MadeOf property first) :
    MadeOf other first := by
  obtain ⟨atoms, tags, rfl⟩ := made
  exact ⟨atoms, fun tag mem => weaker tag (tags tag mem), rfl⟩

theorem tags {tags : List (Tag Char)} (each : ∀ tag ∈ tags, property tag) :
    MadeOf property (Atom.markup (tags.map .tag)) := by
  refine ⟨tags.map .tag, fun tag mem => each tag ?_, rfl⟩
  rwa [Atom.tags, List.filterMap_map, show Atom.tag? ∘ Atom.tag = some from rfl, List.filterMap_some] at mem

theorem tag {tag : Tag Char} (holds : property tag) : MadeOf property (Atom.markup [.tag tag]) :=
  @tags property [tag] (by simpa using holds)

theorem escape (text : List Char) : MadeOf property (escape text) :=
  ⟨text.map .glyph, Atom.forall_tags_map_glyph property text, (Atom.markup_map_glyph text).symm⟩

theorem escapeChar (c : Char) : MadeOf property (escapeChar c) := by
  simpa [Markup.escape] using @escape property [c]

theorem append (made : MadeOf property first) (later : MadeOf property second) :
    MadeOf property (first ++ second) := by
  obtain ⟨atoms, tags, rfl⟩ := made
  obtain ⟨others, more, rfl⟩ := later
  refine ⟨atoms ++ others, fun tag mem => ?_, (Atom.markup_append atoms others).symm⟩
  rw [Atom.tags_append] at mem
  exact (List.mem_append.mp mem).elim (tags tag) (more tag)

theorem flatMap {ι : Type} {items : List ι} {text : ι → List Char}
    (each : ∀ item ∈ items, MadeOf property (text item)) : MadeOf property (items.flatMap text) := by
  induction items with
  | nil => exact escape []
  | cons item items ih =>
    obtain ⟨first, rest⟩ := List.forall_mem_cons.mp each
    exact first.append (ih rest)

theorem element {name : List Char} {attributes : List (Attribute Char)}
    (opens : property (.opening name attributes)) (closes : property (.closing name))
    (made : MadeOf property first) : MadeOf property (Atom.element name attributes first) :=
  (tag opens).append (made.append (tag closes))

end MadeOf

end Markup

namespace Inline

/-! ### Links -/

theorem safeAddress_of_isSafeUrl {url : List Char} (safe : isSafeUrl url = true) : SafeAddress url := by
  simp only [isSafeUrl, Bool.or_eq_true, List.isPrefixOf_iff_prefix, beq_iff_eq, Bool.not_eq_true',
    List.contains_eq_mem, decide_eq_false_iff_not] at safe
  rcases safe with ((web | web) | place) | path
  · exact .inl web
  · exact .inr (.inl web)
  · obtain ⟨rest, rfl⟩ := List.head?_eq_some_iff.mp place
    exact .inr (.inr (.inl ⟨rest, rfl⟩))
  · exact .inr (.inr (.inr path))

/-- What the rule of links leaves: a character, or a link that leads somewhere safe. -/
inductive Part where
  | glyph (c : Char)
  | link (label url : List Char)

namespace Part

def Safe : Part → Prop
  | .glyph _ => True
  | .link _ url => SafeAddress (escape url)

def atoms : Part → List Atom
  | .glyph c => [.glyph c]
  | .link label url =>
    .tag (.opening "a".toList [⟨"href".toList, some (escape url)⟩]) ::
      (label.map .glyph ++ [.tag (.closing "a".toList)])

end Part

theorem exists_of_escape_eq_append {m : Char} (delimiter : m ∈ delimiters) {text before after : List Char}
    (whole : escape text = before ++ m :: after) :
    ∃ first second, text = first ++ m :: second ∧ before = escape first ∧ after = escape second := by
  have free : '<' ∉ before := fun mem =>
    Nesting.notMem_escape (by decide) text (whole ▸ List.mem_append_left _ mem)
  have sound : Atom.Sound (text.map .glyph) := Atom.forall_tags_map_glyph Tag.Sound text
  rw [← Atom.markup_map_glyph] at whole
  obtain ⟨first, second, split, rfl, rfl⟩ :=
    Atom.exists_of_markup_eq_append sound delimiter (tags?_of_notMem free) whole
  obtain ⟨start, rest, rfl, rfl, later⟩ := List.map_eq_append_iff.mp split
  obtain ⟨c, rest, rfl, same, rfl⟩ := List.map_eq_cons_iff.mp later
  cases same
  exact ⟨start, rest, rfl, Atom.markup_map_glyph start, Atom.markup_map_glyph rest⟩

theorem escapeChar_ne_nil (c : Char) : escapeChar c ≠ [] := by
  unfold escapeChar
  split <;> simp

/-- Behind the first character that is written for another one, there is no delimiter. -/
theorem exists_escapeChar_eq_cons (c : Char) :
    ∃ first begun, escapeChar c = first :: begun ∧ ∀ m ∈ delimiters, m ∉ begun := by
  obtain ⟨first, begun, written⟩ := List.exists_cons_of_ne_nil (escapeChar_ne_nil c)
  refine ⟨first, begun, written, fun m delimiter mem => ?_⟩
  have inside : m ∈ escapeChar c := written ▸ List.mem_cons_of_mem first mem
  have alone := (eq_of_mem_escapeChar delimiter inside).2
  rw [written] at alone
  obtain ⟨_, rfl⟩ := List.cons.inj alone
  exact absurd mem List.not_mem_nil

/-- The four delimiters of a link are characters of the text. -/
theorem exists_of_escape_eq_link {text label url after : List Char}
    (whole : escape text = '[' :: (label ++ ']' :: '(' :: (url ++ ')' :: after))) :
    ∃ shown place rest, label = escape shown ∧ url = escape place ∧ after = escape rest := by
  have bracket : escape text = [] ++ '[' :: (label ++ ']' :: '(' :: (url ++ ')' :: after)) := whole
  obtain ⟨_, text, rfl, _, inside⟩ := exists_of_escape_eq_append (by decide) bracket
  obtain ⟨shown, text, rfl, rfl, behind⟩ := exists_of_escape_eq_append (by decide) inside.symm
  have parenthesis : escape text = [] ++ '(' :: (url ++ ')' :: after) := behind.symm
  obtain ⟨_, text, rfl, _, address⟩ := exists_of_escape_eq_append (by decide) parenthesis
  obtain ⟨place, rest, rfl, rfl, rfl⟩ := exists_of_escape_eq_append (by decide) address.symm
  exact ⟨shown, place, rest, rfl, rfl, rfl⟩

def Linked (text : List Char) : Prop :=
  ∃ parts : List Part, (∀ part ∈ parts, part.Safe) ∧ text = Atom.markup (parts.flatMap Part.atoms)

theorem Linked.append {first second : List Char} (linked : Linked first) (later : Linked second) :
    Linked (first ++ second) := by
  obtain ⟨parts, safe, rfl⟩ := linked
  obtain ⟨others, safeOthers, rfl⟩ := later
  refine ⟨parts ++ others, fun part mem => ?_, by simp⟩
  exact (List.mem_append.mp mem).elim (safe part) (safeOthers part)

theorem linked_escape (text : List Char) : Linked (escape text) := by
  refine ⟨text.map .glyph, fun part mem => ?_, ?_⟩
  · obtain ⟨c, _, rfl⟩ := List.mem_map.mp mem
    trivial
  · have glyphs : (text.map Part.glyph).flatMap Part.atoms = text.map .glyph := by
      rw [List.flatMap_map, List.map_eq_flatMap]
      rfl
    rw [glyphs, Atom.markup_map_glyph]

theorem linked_linkMarkup (label url : List Char) : Linked (linkMarkup (escape label) (escape url)) := by
  unfold linkMarkup
  split
  · rename_i safe
    refine ⟨[.link label url], fun part mem => ?_, ?_⟩
    · obtain rfl := List.mem_singleton.mp mem
      exact safeAddress_of_isSafeUrl safe
    · simp [Part.atoms, Tag.written, Attribute.written, Atom.markup_map_glyph]
  · exact linked_escape label

theorem linked_applyRule (text : List Char) : Linked (applyRule link (escape text)) := by
  -- the rule goes on inside what is written for one character, where it finds nothing
  have general := @applyRule_induction link
    (fun source _ output => ∀ begun text, '[' ∉ begun → source = begun ++ escape text →
      ∃ rest, output = begun ++ rest ∧ Linked rest) ?_ ?_ ?_ (escape text)
  · obtain ⟨rest, same, linked⟩ := general [] text List.not_mem_nil rfl
    rwa [same]
  · intro begun text _ whole
    obtain ⟨rfl, _⟩ := List.append_eq_nil_iff.mp whole.symm
    exact ⟨[], rfl, linked_escape []⟩
  · intro previous c rest takes output _ ih begun text free whole
    cases begun with
    | cons b begun =>
      obtain ⟨rfl, later⟩ := List.cons.inj whole
      obtain ⟨tail, rfl, linked⟩ := ih begun text (fun mem => free (List.mem_cons_of_mem _ mem)) later
      exact ⟨tail, rfl, linked⟩
    | nil =>
      cases text with
      | nil => cases whole
      | cons d text =>
        obtain ⟨first, begun, written, plain⟩ := exists_escapeChar_eq_cons d
        have split : escape (d :: text) = first :: (begun ++ escape text) := by
          rw [escape, List.flatMap_cons, written]
          rfl
        rw [List.nil_append, split] at whole
        obtain ⟨rfl, later⟩ := List.cons.inj whole
        obtain ⟨tail, rfl, linked⟩ := ih begun text (plain '[' (by decide)) later
        refine ⟨escape [d] ++ tail, ?_, (linked_escape [d]).append linked⟩
        simp [escape, written]
  · intro previous c rest fit takes output found ih begun text free whole
    obtain ⟨label, url, after, rfl, rfl, dropped, written⟩ := link_eq_some found
    cases begun with
    | cons b begun =>
      obtain ⟨rfl, _⟩ := List.cons.inj whole
      exact absurd List.mem_cons_self free
    | nil =>
      obtain ⟨shown, place, rest, rfl, rfl, rfl⟩ := exists_of_escape_eq_link whole.symm
      obtain ⟨tail, rfl, linked⟩ := ih [] rest List.not_mem_nil dropped
      rw [written]
      exact ⟨_, rfl, (linked_linkMarkup shown place).append linked⟩

/-! ### Marks in harmless markup -/

def inlineElements : List (List Char) :=
  ["a", "code", "strong", "em"].map String.toList

structure IsInline (tag : Tag Char) : Prop extends tag.Written where
  inline : ∃ name ∈ inlineElements, tag.element? = some name

theorem isInline_opening {name : List Char} (listed : name ∈ inlineElements) (bare : name ∈ bareElements) :
    IsInline (.opening name []) :=
  ⟨⟨.bare bare, fun _ mem => absurd mem List.not_mem_nil⟩, name, listed, rfl⟩

theorem isInline_closing {name : List Char} (listed : name ∈ inlineElements) : IsInline (.closing name) := by
  have each : inlineElements.all hoverElements.contains = true := by decide
  have hover : name ∈ hoverElements := by simpa using List.all_eq_true.mp each name listed
  exact ⟨⟨.closing hover, fun _ mem => absurd mem List.not_mem_nil⟩, name, listed, rfl⟩

namespace Remarked

variable {name first second : List Char}

theorem notMem {c : Char} (apart : c ∉ '<' :: '/' :: '>' :: name) (free : c ∉ first)
    (remarked : Remarked name first second) : c ∉ second := by
  induction remarked with
  | nil => exact free
  | keep d _ ih =>
    obtain ⟨different, free⟩ := not_or.mp (mt List.mem_cons.mpr free)
    exact fun mem => (List.mem_cons.mp mem).elim different (ih free)
  | replace mark tags _ ih =>
    intro mem
    rcases List.mem_append.mp mem with mem | mem
    · obtain ⟨atom, listed, inside⟩ := List.mem_flatMap.mp mem
      obtain ⟨tag, own, rfl⟩ := List.mem_map.mp listed
      rcases tags tag own with rfl | rfl
      · simp_all [Atom.text, Tag.written]
      · simp_all [Atom.text, Tag.written]
    · exact ih (fun mem => free (List.mem_cons_of_mem _ mem)) mem

theorem starts {start : List Char} (fixed : ∀ mark ∈ marks, mark ∉ start) (begins : start <+: first)
    (remarked : Remarked name first second) : start <+: second := by
  obtain ⟨rest, rfl⟩ := begins
  obtain ⟨front, rest, rfl, same, _⟩ := remarked.of_append
  rw [same.eq_of_notMem fixed]
  exact List.prefix_append start rest

theorem safeAddress (apart : ':' ∉ name) (remarked : Remarked name first second)
    (safe : SafeAddress first) : SafeAddress second := by
  rcases safe with web | web | place | path
  · exact .inl (remarked.starts (markless_of_all (by decide)) web)
  · exact .inr (.inl (remarked.starts (markless_of_all (by decide)) web))
  · exact .inr (.inr (.inl (remarked.starts (markless_of_all (by decide)) place)))
  · exact .inr (.inr (.inr (remarked.notMem (by simpa using apart) path)))

theorem madeOf_escapeChar (own : name = "strong".toList ∨ name = "em".toList) {c : Char}
    (remarked : Remarked name (escapeChar c) second) : MadeOf IsInline second := by
  by_cases mark : c ∈ marks
  · have alone := escapeChar_of_delimiter (mem_delimiters_of_mem_marks mark)
    rw [alone] at remarked
    cases remarked with
    | keep _ later =>
      cases later
      rw [← alone]
      exact .escapeChar c
    | replace _ tags later =>
      cases later
      rw [List.append_nil]
      refine MadeOf.tags fun tag mem => ?_
      rcases own with rfl | rfl <;> rcases tags tag mem with rfl | rfl
      · exact isInline_opening (by decide) (by decide)
      · exact isInline_closing (by decide)
      · exact isInline_opening (by decide) (by decide)
      · exact isInline_closing (by decide)
  · have fixed : ∀ mark ∈ marks, mark ∉ escapeChar c := by
      intro other listed mem
      exact mark ((eq_of_mem_escapeChar (mem_delimiters_of_mem_marks listed) mem).1 ▸ listed)
    rw [remarked.eq_of_notMem fixed]
    exact .escapeChar c

/-- In a tag with a value the marks can only stand in that value. -/
theorem exists_value {element key value : List Char} (plain : ∀ mark ∈ marks, mark ∉ element)
    (plainKey : ∀ mark ∈ marks, mark ∉ key)
    (remarked : Remarked name (Atom.tag (.opening element [⟨key, some value⟩])).text second) :
    ∃ other, Remarked name value other ∧ second = (Atom.tag (.opening element [⟨key, some other⟩])).text := by
  have shape : ∀ value, (Atom.tag (.opening element [⟨key, some value⟩])).text =
      '<' :: (element ++ ' ' :: (key ++ ['=', '"'])) ++ (value ++ ['"', '>']) := by
    intro value
    simp [Atom.text, Tag.written, Attribute.written]
  have start : ∀ mark ∈ marks, mark ∉ '<' :: (element ++ ' ' :: (key ++ ['=', '"'])) := by
    intro mark listed
    have own := plain mark listed
    have ownKey := plainKey mark listed
    have special : mark ∉ ['<', ' ', '=', '"'] := fun mem => markless_of_all (by decide) mark listed mem
    simp_all
  rw [shape] at remarked
  obtain ⟨front, rest, rfl, same, remarked⟩ := remarked.of_append
  obtain ⟨other, ends, rfl, remarked, last⟩ := remarked.of_append
  refine ⟨other, remarked, ?_⟩
  rw [shape, same.eq_of_notMem start, last.eq_of_notMem (markless_of_all (by decide))]

/-- In a tag the marks can only stand in a value, which stays in its quotes. -/
theorem exists_tag (own : name = "strong".toList ∨ name = "em".toList) {tag : Tag Char}
    (inline : IsInline tag) (remarked : Remarked name (Atom.tag tag).text second) :
    ∃ other, IsInline other ∧ second = (Atom.tag other).text := by
  have colon : ':' ∉ name := by rcases own with rfl | rfl <;> decide
  have quote : '"' ∉ '<' :: '/' :: '>' :: name := by rcases own with rfl | rfl <;> decide
  obtain ⟨⟨harmless, free⟩, named⟩ := inline
  have kept : (∀ mark ∈ marks, mark ∉ (Atom.tag tag).text) →
      ∃ other, IsInline other ∧ second = (Atom.tag other).text :=
    fun plain => ⟨tag, ⟨⟨harmless, free⟩, named⟩, remarked.eq_of_notMem plain⟩
  cases harmless with
  | bare listed =>
    exact kept (markless_of_all (List.all_eq_true.mp (by decide : (bareElements.all fun name =>
      marks.all fun mark => !(Atom.tag (.opening name [])).text.contains mark) = true) _ listed))
  | closing listed =>
    exact kept (markless_of_all (List.all_eq_true.mp (by decide : (hoverElements.all fun name =>
      marks.all fun mark => !(Atom.tag (.closing name)).text.contains mark) = true) _ listed))
  | @styled element style names =>
    have plain : ∀ mark ∈ marks, mark ∉ element := by
      rcases names with rfl | rfl <;> exact markless_of_all (by decide)
    obtain ⟨other, values, rfl⟩ := remarked.exists_value plain (markless_of_all (by decide))
    refine ⟨.opening element [⟨"class".toList, some other⟩],
      ⟨⟨.styled names, fun value mem => ?_⟩, named⟩, rfl⟩
    obtain rfl := List.mem_singleton.mp mem
    exact values.notMem quote (free style List.mem_cons_self)
  | @link address safe =>
    obtain ⟨other, values, rfl⟩ :=
      remarked.exists_value (markless_of_all (by decide)) (markless_of_all (by decide))
    refine ⟨.opening "a".toList [⟨"href".toList, some other⟩],
      ⟨⟨.link (values.safeAddress colon safe), fun value mem => ?_⟩, named⟩, rfl⟩
    obtain rfl := List.mem_singleton.mp mem
    exact values.notMem quote (free address List.mem_cons_self)

theorem madeOf (own : name = "strong".toList ∨ name = "em".toList) (made : MadeOf IsInline first)
    (remarked : Remarked name first second) : MadeOf IsInline second := by
  obtain ⟨atoms, inline, rfl⟩ := made
  induction atoms generalizing second with
  | nil =>
    cases remarked
    exact .escape []
  | cons atom atoms ih =>
    -- the marks of each atom are replaced inside it
    have split : Remarked name (atom.text ++ Atom.markup atoms) second := remarked
    obtain ⟨start, rest, rfl, first, later⟩ := split.of_append
    cases atom with
    | glyph c => exact (first.madeOf_escapeChar own).append (ih inline later)
    | tag tag =>
      obtain ⟨tagged, inline⟩ := List.forall_mem_cons.mp inline
      obtain ⟨other, written, rfl⟩ := first.exists_tag own tagged
      exact .append (by simpa [Atom.markup] using MadeOf.tag written) (ih inline later)

end Remarked

/-! ### Inline text -/

theorem madeOf_applyRule {rule : Rule} {name : String} (encloses : Encloses rule name)
    (own : name = "strong" ∨ name = "em") {text : List Char} (made : MadeOf IsInline text) :
    MadeOf IsInline (applyRule rule text) :=
  (remarked_applyRule encloses text).madeOf (own.imp (congrArg String.toList) (congrArg String.toList)) made

theorem madeOf_atoms {part : Part} (safe : part.Safe) : MadeOf IsInline (Atom.markup part.atoms) := by
  cases part with
  | glyph c => simpa [Part.atoms] using MadeOf.escapeChar c
  | link label url =>
    have opening : IsInline (.opening "a".toList [⟨"href".toList, some (escape url)⟩]) := by
      refine ⟨⟨.link safe, fun value mem => ?_⟩, "a".toList, by decide, rfl⟩
      obtain rfl := List.mem_singleton.mp mem
      exact Nesting.quote_notMem_escape url
    have closing : IsInline (.closing "a".toList) := isInline_closing (by decide)
    have whole := (MadeOf.tag opening).append ((MadeOf.escape label).append (MadeOf.tag closing))
    simpa [Part.atoms, Atom.markup_map_glyph] using whole

theorem madeOf_formatText (text : List Char) : MadeOf IsInline (formatText text) := by
  obtain ⟨parts, safe, linked⟩ := linked_applyRule text
  have made : MadeOf IsInline (applyRule link (escape text)) := by
    rw [linked, Atom.markup, List.flatMap_assoc]
    exact .flatMap fun part mem => madeOf_atoms (safe part mem)
  exact madeOf_applyRule encloses_emphasis (.inr rfl) (madeOf_applyRule encloses_strong (.inl rfl) made)

theorem madeOf_render (text : List Char) : MadeOf IsInline (render text) := by
  refine .flatMap fun span _ => ?_
  cases span with
  | plain content => exact madeOf_formatText content
  | code content =>
    rw [Span.render, inElement_eq]
    exact .element (isInline_opening (by decide) (by decide)) (isInline_closing (by decide)) (.escape content)

end Inline

namespace Markdown

/-! ### Blocks -/

def Block.Leveled : Block → Prop
  | .heading level _ => 1 ≤ level ∧ level ≤ 6
  | _ => True

theorem leveled_heading {line text : List Char} {level : Nat} (found : heading? line = some (level, text)) :
    (Block.heading level text).Leveled := by
  unfold heading? at found
  simp only at found
  split at found
  · rename_i shape
    obtain ⟨rfl, _⟩ := Prod.mk.inj (Option.some.inj found)
    simp only [Bool.and_eq_true, decide_eq_true_eq] at shape
    exact shape.1
  · cases found

theorem leveled_close (open' : Pending) : ∀ block ∈ open'.close, block.Leveled := by
  cases open' <;> simp [Pending.close, Block.Leveled]

theorem leveled_addLine (open' : Pending) (line : List Char) :
    ∀ block ∈ (open'.addLine line).1, block.Leveled := by
  have closed := leveled_close open'
  have later : ∀ block, block.Leveled → ∀ other ∈ open'.close ++ [block], other.Leveled := by
    intro block leveled other mem
    rcases List.mem_append.mp mem with mem | mem
    · exact closed other mem
    · exact List.mem_singleton.mp mem ▸ leveled
  unfold Pending.addLine
  simp only
  split
  · exact closed
  · split
    · exact closed
    · split
      · rename_i found
        exact later _ (leveled_heading found)
      · split
        · exact later _ trivial
        · split
          · unfold Pending.addItem
            split
            · simp
            · exact closed
          · unfold Pending.addText
            split
            · simp
            · simp
            · exact closed

theorem leveled_step (open' : Pending) (line : List Char) : ∀ block ∈ (open'.step line).1, block.Leveled := by
  unfold Pending.step
  split
  · rename_i fence lines
    split
    · exact leveled_close (.code fence lines)
    · simp
  · exact leveled_addLine open' line

theorem leveled_blocksFrom (open' : Pending) (lines : List (List Char)) :
    ∀ block ∈ blocksFrom open' lines, block.Leveled := by
  induction lines generalizing open' with
  | nil => exact leveled_close open'
  | cons line lines ih =>
    intro block mem
    rcases List.mem_append.mp mem with mem | mem
    · exact leveled_step open' line block mem
    · exact ih _ block mem

/-! ### Markup of blocks -/

theorem written_opening {name : List Char} (listed : name ∈ bareElements) : (Tag.opening name []).Written :=
  ⟨.bare listed, fun _ mem => absurd mem List.not_mem_nil⟩

theorem written_closing {name : List Char} (listed : name ∈ hoverElements) : (Tag.closing name).Written :=
  ⟨.closing listed, fun _ mem => absurd mem List.not_mem_nil⟩

theorem written_styled {name style : List Char} (names : name = "code".toList ∨ name = "span".toList)
    (free : '"' ∉ style) : (Tag.opening name [⟨"class".toList, some style⟩]).Written :=
  ⟨.styled names, fun value mem => by
    obtain rfl := List.mem_singleton.mp mem
    exact free⟩

theorem madeOf_inElement {name : String} (listed : name.toList ∈ bareElements) {text : List Char}
    (made : MadeOf Tag.Written text) : MadeOf Tag.Written (Inline.inElement name text) := by
  rw [Inline.inElement_eq]
  exact .element (written_opening listed)
    (written_closing (List.mem_cons_of_mem _ (List.mem_cons_of_mem _ listed))) made

theorem madeOf_inline (text : List Char) : MadeOf Tag.Written (Inline.render text) :=
  (Inline.madeOf_render text).mono fun _ inline => inline.toWritten

theorem markup_run (tokenClass : TokenClass) (text : List Char) :
    (Token.Run.mk (some tokenClass) text).markup =
      Atom.element "span".toList [⟨"class".toList, some tokenClass.style.toList⟩] (escape text) := by
  have starts : Token.opening tokenClass =
      Atom.markup [.tag (.opening "span".toList [⟨"class".toList, some tokenClass.style.toList⟩])] := by
    cases tokenClass <;> decide
  have ends : Token.closing = Atom.markup [.tag (.closing "span".toList)] := by decide
  rw [Token.Run.markup, Token.wrap_some, starts, ends, Atom.element]

theorem written_tokenClass (tokenClass : TokenClass) :
    (Tag.opening "span".toList [⟨"class".toList, some tokenClass.style.toList⟩]).Written := by
  refine written_styled (.inr rfl) ?_
  cases tokenClass <;> decide

theorem madeOf_run (run : Token.Run) : MadeOf Tag.Written run.markup := by
  obtain ⟨tokenClass, text⟩ := run
  cases tokenClass with
  | none => exact .escape text
  | some tokenClass =>
    rw [markup_run]
    exact .element (written_tokenClass tokenClass) (written_closing (by decide)) (.escape text)

theorem madeOf_highlight {parse : Parse} {source html : List Char} {languageId : String}
    (shown : highlight parse source languageId = .ok html) : MadeOf Tag.Written html := by
  obtain ⟨runs, _, markup⟩ := Token.highlight_eq_runs shown
  rw [markup]
  exact .flatMap fun run _ => madeOf_run run

def languageClass (language : List Char) : Attribute Char :=
  ⟨"class".toList, some ("language-".toList ++ escape language)⟩

theorem written_languageClass (language : List Char) :
    (Tag.opening "code".toList [languageClass language]).Written := by
  refine written_styled (.inl rfl) ?_
  rw [List.mem_append]
  exact not_or.mpr ⟨by decide, Nesting.quote_notMem_escape language⟩

theorem codeMarkup_eq_ok {highlighter : Highlighter} {info code html : List Char}
    (shown : codeMarkup highlighter info code = .ok html) :
    html = Atom.element "pre".toList [] (Atom.element "code".toList [] (escape code)) ∨
      ∃ body, highlighter code (String.ofList (Text.firstWord info)) = .ok body ∧
        html = Atom.element "pre".toList []
          (Atom.element "code".toList [languageClass (Text.firstWord info)] body) := by
  unfold codeMarkup at shown
  simp only at shown
  split at shown
  · cases shown
    left
    simp [Atom.element, Tag.written]
  · obtain ⟨body, highlighted, rfl⟩ := map_eq_ok_iff.mp shown
    right
    refine ⟨body, highlighted, ?_⟩
    simp [Atom.element, Tag.written, Attribute.written, languageClass]

theorem madeOf_codeMarkup {parse : Parse} {info code html : List Char}
    (shown : codeMarkup (highlight parse) info code = .ok html) : MadeOf Tag.Written html := by
  rcases codeMarkup_eq_ok shown with rfl | ⟨body, highlighted, rfl⟩
  all_goals refine .element (written_opening (by decide)) (written_closing (by decide)) ?_
  · exact .element (written_opening (by decide)) (written_closing (by decide)) (.escape code)
  · exact .element (written_languageClass _) (written_closing (by decide)) (madeOf_highlight highlighted)

theorem madeOf_block {parse : Parse} {block : Block} {html : List Char} (leveled : block.Leveled)
    (shown : block.render (highlight parse) = .ok html) : MadeOf Tag.Written html := by
  cases block with
  | code info lines => exact madeOf_codeMarkup shown
  | heading level text =>
    cases shown
    refine madeOf_inElement ?_ (madeOf_inline text)
    obtain ⟨least, most⟩ := leveled
    have levels : level = 1 ∨ level = 2 ∨ level = 3 ∨ level = 4 ∨ level = 5 ∨ level = 6 := by omega
    rcases levels with rfl | rfl | rfl | rfl | rfl | rfl <;> decide
  | thematicBreak =>
    cases shown
    exact .tag (written_opening (by decide : "hr".toList ∈ bareElements))
  | list items =>
    cases shown
    refine madeOf_inElement (by decide) (.flatMap fun item _ => ?_)
    exact madeOf_inElement (by decide) (madeOf_inline item)
  | paragraph lines =>
    cases shown
    exact madeOf_inElement (by decide) (madeOf_inline (joinLines lines))

/-! ### Which texts are shown -/

/-- Code that names a language gets a tree, or has no grammar and needs none. -/
def Block.Reads (parse : Parse) : Block → Prop
  | .code info lines =>
    Text.firstWord info ≠ [] → parse.Reads (joinLines lines) (String.ofList (Text.firstWord info))
  | _ => True

theorem exists_codeMarkup_iff (parse : Parse) (info code : List Char) :
    (∃ html, codeMarkup (highlight parse) info code = .ok html) ↔
      (Text.firstWord info ≠ [] → parse.Reads code (String.ofList (Text.firstWord info))) := by
  unfold codeMarkup
  simp only
  split
  · rename_i empty
    exact ⟨fun _ named => absurd (List.isEmpty_iff.mp empty) named, fun _ => ⟨_, rfl⟩⟩
  · rename_i named
    rw [← Token.exists_highlight_iff]
    constructor
    · rintro ⟨html, shown⟩ _
      obtain ⟨body, highlighted, _⟩ := map_eq_ok_iff.mp shown
      exact ⟨body, highlighted⟩
    · intro reads
      obtain ⟨body, highlighted⟩ := reads (by simpa using named)
      exact ⟨_, by rw [highlighted]; rfl⟩

theorem exists_block_iff (parse : Parse) (block : Block) :
    (∃ html, block.render (highlight parse) = .ok html) ↔ block.Reads parse := by
  cases block with
  | code info lines => exact exists_codeMarkup_iff parse info (joinLines lines)
  | _ => exact ⟨fun _ => trivial, fun _ => ⟨_, rfl⟩⟩

theorem exists_render_iff (parse : Parse) (text : List Char) :
    (∃ html, render (highlight parse) text = .ok html) ↔ ∀ block ∈ blocks text, block.Reads parse := by
  simp only [← exists_block_iff, ← exists_mapM_iff]
  constructor
  · rintro ⟨html, shown⟩
    obtain ⟨parts, shown, _⟩ := map_eq_ok_iff.mp shown
    exact ⟨parts, shown⟩
  · rintro ⟨parts, shown⟩
    exact ⟨parts.flatten, by rw [render, shown]; rfl⟩

theorem render_eq_ok {highlighter : Highlighter} {text html : List Char}
    (shown : render highlighter text = .ok html) :
    ∃ markup : Block → List Char, (∀ block ∈ blocks text, block.render highlighter = .ok (markup block)) ∧
      html = (blocks text).flatMap markup := by
  obtain ⟨parts, each, rfl⟩ := map_eq_ok_iff.mp shown
  obtain ⟨markup, made, rfl⟩ := exists_map_of_mapM_eq_ok each
  exact ⟨markup, made, rfl⟩

/-- A hover text is shown if its code is read. Hover texts can bring no markup and no unsafe link into a page:
every tag is one of a few elements, with no attributes but a class or a safe address, and is so also for a
reader that decodes the values; outside the tags no character is left that could start a tag or end a
value. -/
theorem hover_markup_harmless (parse : Parse) (text : List Char) :
    ((∃ html, render (highlight parse) text = .ok html) ↔ ∀ block ∈ blocks text, block.Reads parse) ∧
    ∀ html, render (highlight parse) text = .ok html →
      ∃ tags, tags? html = some tags ∧
        (∀ tag ∈ tags, tag.Harmless ∧ (tag.mapValues Decoder.unescape).Harmless) ∧
        ∀ c ∈ outside html, c ∉ ['<', '>', '"', '\''] := by
  refine ⟨exists_render_iff parse text, fun html shown => ?_⟩
  obtain ⟨blockMarkup, each, rfl⟩ := render_eq_ok shown
  have made : MadeOf Tag.Written ((blocks text).flatMap blockMarkup) :=
    .flatMap fun block mem => madeOf_block (leveled_blocksFrom .nothing _ block mem) (each block mem)
  obtain ⟨atoms, written, markup⟩ := made
  have sound : Atom.Sound atoms := fun tag mem => (written tag mem).sound
  rw [markup]
  refine ⟨Atom.tags atoms, sound.tags?_markup, fun tag mem => ?_, fun c mem special => ?_⟩
  · exact ⟨(written tag mem).harmless, (written tag mem).harmless.unescape⟩
  · rw [sound.outside_markup] at mem
    exact Nesting.notMem_escape special _ mem

end Markdown

end CodeAtlas
