import CodeAtlas.Proofs.Markup.Tags
import CodeAtlas.Proofs.Page.Balance
import Mathlib.Data.List.Basic

/-!
# The tags of a page

The page of a document has the tags of its template, of the navigation tree, of the line numbers and of its
source, and no others, whatever the names in it are (`SourcePage.tags?_render`).
-/

namespace CodeAtlas

namespace Markup

/-! ### The tags of a template -/

/-- The part is a place of the given keys, or a character that needs no escape. -/
def Part.isPlain (keys : List (List Char)) : Part → Bool
  | .char c => isUnescaped [c]
  | .place key => keys.contains key

/-- A tag of a template, with places in its values, or a place between tags. -/
inductive Slot where
  | tag (form : Tag Part)
  | place (key : List Char)
  deriving DecidableEq

/-- A tag of a template as it is written, or a place between tags. -/
inductive Stretch where
  | tag (body : List Part)
  | place (key : List Char)
  deriving DecidableEq

namespace Stretch

def text (values : Values) : Stretch → List Char
  | .tag body => '<' :: (body.flatMap (Part.text values) ++ ['>'])
  | .place key => Part.text values (.place key)

def pending (values : Values) : Option (List Part) → List Char
  | none => []
  | some passed => '<' :: passed.flatMap (Part.text values)

/-- The tags of a template and the places between them, from inside a tag of which something was read. -/
def split : Option (List Part) → List Part → Option (List Stretch)
  | none, [] => some []
  | some _, [] => none
  | none, .char c :: parts => if c = '<' then split (some []) parts else split none parts
  | none, .place key :: parts => (split none parts).map (.place key :: ·)
  | some passed, part :: parts =>
    if part = .char '>' then (split none parts).map (.tag passed :: ·)
    else split (some (passed ++ [part])) parts

theorem tags?_of_split {decoder : Decoder} {values : Values} {tags : Stretch → List (Tag Char)}
    {passed : Option (List Part)} {parts : List Part} {stretches : List Stretch}
    (cut : split passed parts = some stretches)
    (each : ∀ stretch ∈ stretches, decoder.tags? (stretch.text values) = some (tags stretch)) :
    decoder.tags? (pending values passed ++ parts.flatMap (Part.text values)) =
      some (stretches.flatMap tags) := by
  -- `passed` is the tag that is open; what it has so far is only read once it ends.
  induction parts generalizing passed stretches with
  | nil =>
    cases passed with
    | none =>
      cases cut
      exact Decoder.tags?_of_notMem (by simp [pending])
    | some passed => cases cut
  | cons part parts ih =>
    cases passed with
    | none =>
      cases part with
      | char c =>
        rw [split] at cut
        split at cut
        · rename_i bracket
          subst bracket
          exact ih cut each
        · rename_i notBracket
          have free : '<' ∉ [c] := by simpa using Ne.symm notBracket
          exact Decoder.tags?_append (Decoder.tags?_of_notMem free) (ih cut each)
      | place key =>
        rw [split] at cut
        obtain ⟨later, rest, rfl⟩ := Option.map_eq_some_iff.mp cut
        obtain ⟨first, others⟩ := List.forall_mem_cons.mp each
        have whole := Decoder.tags?_append first (ih rest others)
        simpa [pending, text] using whole
    | some passed =>
      rw [split] at cut
      split at cut
      · rename_i isEnd
        subst isEnd
        obtain ⟨later, rest, rfl⟩ := Option.map_eq_some_iff.mp cut
        obtain ⟨first, others⟩ := List.forall_mem_cons.mp each
        have whole := Decoder.tags?_append first (ih rest others)
        simpa [pending, text, Part.text] using whole
      · have whole := ih cut each
        simpa [pending] using whole

end Stretch

namespace Slot

def stretch : Slot → Stretch
  | .tag form => .tag (form.written .char)
  | .place key => .place key

def tags (values : Values) (contents : List (List Char × List (Tag Char))) : Slot → List (Tag Char)
  | .tag form => [form.mapValues fun parts => parts.flatMap (Part.text values)]
  | .place key => ((contents.find? fun entry => entry.1 = key).map (·.2)).getD []

theorem flatMap_written (values : Values) (form : Tag Part) :
    (form.written .char).flatMap (Part.text values) =
      (form.mapValues fun parts => parts.flatMap (Part.text values)).written id := by
  have each : ∀ entry : Attribute Part, (entry.written .char).flatMap (Part.text values) =
      (entry.mapValue fun parts => parts.flatMap (Part.text values)).written id := by
    rintro ⟨name, value⟩
    cases value <;>
      simp [Attribute.written, Attribute.mapValue, Part.text, List.flatMap_map]
  cases form with
  | opening name attributes =>
    simp only [Tag.written, Tag.mapValues, List.flatMap_append, List.flatMap_assoc, each,
      List.flatMap_map]
    simp [Part.text]
  | closing name => simp [Tag.written, Tag.mapValues, Part.text, List.flatMap_map]
  | declaration text => simp [Tag.written, Tag.mapValues, Part.text, List.flatMap_map]

/-- The slot is one of the places that are given for contents, or a tag whose names can be written and whose
values have nothing to escape but places of the given keys. -/
def isPlain (contents keys : List (List Char)) : Slot → Bool
  | .place key => contents.contains key
  | .tag form => form.isPlain && form.values.all fun parts => parts.all (Part.isPlain keys)

/-- A tag of a template is read with the plain values if the template is filled with the escaped ones. -/
theorem tags?_tag {decoder : Decoder} {values plain : Values} {contents keys : List (List Char)}
    (escaped : ∀ key ∈ keys, Part.text values (.place key) = escape (Part.text plain (.place key)))
    {form : Tag Part} (fits : (Slot.tag form).isPlain contents keys = true) :
    decoder.tags? ((Slot.tag form).stretch.text values) =
      some [form.mapValues fun parts => parts.flatMap (Part.text plain)] := by
  simp only [isPlain, Bool.and_eq_true, List.all_eq_true] at fits
  have filled : ∀ parts ∈ form.values, parts.flatMap (Part.text values) =
      escape (parts.flatMap (Part.text plain)) := by
    intro parts mem
    rw [escape, List.flatMap_assoc]
    refine List.flatMap_congr fun part inside => ?_
    have fit := fits.2 parts mem part inside
    cases part with
    | char c => exact (escape_of_isUnescaped fit).symm
    | place key => exact escaped key (List.contains_iff_mem.mp fit)
  have whole : (Slot.tag form).stretch.text values =
      (form.mapValues fun parts => parts.flatMap (Part.text plain)).markup := by
    rw [stretch, Stretch.text, flatMap_written, Tag.markup, Tag.mapValues_mapValues,
      Tag.mapValues_congr filled]
    rfl
  rw [whole]
  exact Decoder.tags?_markup ((form.isPlain_mapValues _).trans fits.1)

theorem tags?_parts {decoder : Decoder} {values : Values} {parts : List Part} {slots : List Slot}
    {tags : Slot → List (Tag Char)} (cut : Stretch.split none parts = some (slots.map stretch))
    (each : ∀ slot ∈ slots, decoder.tags? (slot.stretch.text values) = some (tags slot)) :
    decoder.tags? (parts.flatMap (Part.text values)) = some (slots.flatMap tags) := by
  have found : ∀ piece ∈ slots.map stretch, decoder.tags? (piece.text values) =
      some (decoder.tagsOf (piece.text values)) := by
    intro piece mem
    obtain ⟨slot, listed, rfl⟩ := List.mem_map.mp mem
    exact Decoder.tags?_eq_tagsOf (each slot listed)
  have whole := Stretch.tags?_of_split cut found
  rw [List.flatMap_map] at whole
  refine whole.trans (congrArg some (List.flatMap_congr fun slot mem => ?_))
  exact Decoder.tagsOf_eq (each slot mem)

end Slot

end Markup

open Markup

/-! ### The navigation tree -/

theorem PagePath.isUnescaped_toRoot (path : String) : isUnescaped (toRoot path).toList = true := by
  rw [toRoot, String.toList_join, isUnescaped, List.all_flatMap, List.all_eq_true]
  intro up listed
  rw [List.eq_of_mem_replicate listed]
  decide

namespace NavNode

def linkStart (toRoot : String) (current : Option String) (path : String) : List (Tag Char) :=
  [.opening "li".toList
      (if current == some path then [⟨"class".toList, some "current-file".toList⟩] else []),
    .opening "a".toList [⟨"href".toList, some (toRoot.toList ++ path.toList ++ ".html".toList)⟩]]

def folderStart : List (Tag Char) :=
  [.opening "li".toList [⟨"class".toList, some "folder".toList⟩], .opening "span".toList []]

mutual

def nodeTags (toRoot : String) (current : Option String) (folder : String) : NavNode → List (Tag Char)
  | .file name =>
    linkStart toRoot current (pathIn folder name) ++ [.closing "a".toList, .closing "li".toList]
  | .folder name children =>
    folderStart ++ [.closing "span".toList, .opening "ul".toList []] ++
      levelTags toRoot current (pathIn folder name) children ++
      [.closing "ul".toList, .closing "li".toList]

def levelTags (toRoot : String) (current : Option String) (folder : String) :
    List NavNode → List (Tag Char)
  | [] => []
  | node :: nodes => nodeTags toRoot current folder node ++ levelTags toRoot current folder nodes

end

def tags (tree : List NavNode) (current : Option String) : List (Tag Char) :=
  [.opening "ul".toList []] ++
    (levelTags ((current.map PagePath.toRoot).getD "") current "" tree ++ [.closing "ul".toList])

variable {decoder : Decoder} {toRoot : String} {current : Option String}

theorem link_eq (plain : isUnescaped toRoot.toList = true) (path name : String) :
    link toRoot current path name =
      (linkStart toRoot current path).flatMap Tag.markup ++ (escape name.toList ++
        [Tag.closing "a".toList, .closing "li".toList].flatMap Tag.markup) := by
  have item : (Tag.opening "li".toList (if current == some path then
      [⟨"class".toList, some "current-file".toList⟩] else [])).markup =
      (if current == some path then "<li class=\"current-file\">" else "<li>").toList := by
    split <;> decide
  have address : escape (toRoot.toList ++ path.toList ++ ".html".toList) =
      toRoot.toList ++ escape path.toList ++ ".html".toList := by
    rw [escape_append, escape_append, escape_of_isUnescaped plain,
      escape_of_isUnescaped (show isUnescaped ".html".toList = true by decide)]
  have ends : [Tag.closing "a".toList, .closing "li".toList].flatMap Tag.markup = "</a></li>".toList := by
    decide
  rw [link, linkStart, List.flatMap_cons, List.flatMap_cons, List.flatMap_nil, item, Tag.markup_opening,
    address, ends]
  simp

theorem tags?_link (plain : isUnescaped toRoot.toList = true) (path name : String) :
    decoder.tags? (link toRoot current path name) =
      some (linkStart toRoot current path ++ [.closing "a".toList, .closing "li".toList]) := by
  have starts : (linkStart toRoot current path).all Tag.isPlain = true := by
    unfold linkStart
    split <;> rfl
  rw [link_eq plain]
  exact Decoder.tags?_between starts (Decoder.tags?_escape name.toList) (by decide)

theorem tags?_folder (name : String) {children : List Char} {inside : List (Tag Char)}
    (read : decoder.tags? children = some inside) :
    decoder.tags? ("<li class=\"folder\"><span>".toList ++ escape name.toList ++ "</span><ul>".toList ++
      children ++ "</ul></li>".toList) =
      some (folderStart ++ [.closing "span".toList, .opening "ul".toList []] ++ inside ++
        [.closing "ul".toList, .closing "li".toList]) := by
  have head : decoder.tags? ("<li class=\"folder\"><span>".toList ++ escape name.toList ++
      "</span><ul>".toList) = some (folderStart ++ [.closing "span".toList, .opening "ul".toList []]) := by
    have starts : folderStart.flatMap Tag.markup = "<li class=\"folder\"><span>".toList := by decide
    have middle : [Tag.closing "span".toList, .opening "ul".toList []].flatMap Tag.markup =
        "</span><ul>".toList := by decide
    rw [← starts, ← middle, List.append_assoc]
    exact Decoder.tags?_between (by decide) (Decoder.tags?_escape name.toList) (by decide)
  have ends : [Tag.closing "ul".toList, .closing "li".toList].flatMap Tag.markup = "</ul></li>".toList := by
    decide
  rw [← ends]
  exact Decoder.tags?_append (Decoder.tags?_append head read) (Decoder.tags?_markups (by decide))

mutual

theorem tags?_renderNode (plain : isUnescaped toRoot.toList = true) (folder : String) :
    (node : NavNode) →
      decoder.tags? (renderNode toRoot current folder node) = some (nodeTags toRoot current folder node)
  | .file name => tags?_link plain (pathIn folder name) name
  | .folder name children => tags?_folder name (tags?_renderLevel plain (pathIn folder name) children)

theorem tags?_renderLevel (plain : isUnescaped toRoot.toList = true) (folder : String) :
    (nodes : List NavNode) →
      decoder.tags? (renderLevel toRoot current folder nodes) =
        some (levelTags toRoot current folder nodes)
  | [] => Decoder.tags?_of_notMem List.not_mem_nil
  | node :: nodes =>
    Decoder.tags?_append (tags?_renderNode plain folder node) (tags?_renderLevel plain folder nodes)

end

theorem tags?_render (tree : List NavNode) (current : Option String) :
    decoder.tags? (render tree current) = some (tags tree current) := by
  have plain : isUnescaped ((current.map PagePath.toRoot).getD "").toList = true := by
    cases current with
    | none => rfl
    | some path => exact PagePath.isUnescaped_toRoot path
  have starts : [Tag.opening "ul".toList []].flatMap Tag.markup = "<ul>".toList := by decide
  have ends : [Tag.closing "ul".toList].flatMap Tag.markup = "</ul>".toList := by decide
  rw [render, ← starts, ← ends, List.append_assoc]
  exact Decoder.tags?_between (by decide) (tags?_renderLevel plain "" tree) (by decide)

end NavNode

namespace Page

variable {decoder : Decoder}

/-! ### Line numbers -/

def lineStart (number : Nat) : Tag Char :=
  .opening "span".toList
    [⟨"id".toList, some ('L' :: (toString number).toList)⟩,
      ⟨"data-line".toList, some (toString number).toList⟩]

def lineTags (count : Nat) : List (Tag Char) :=
  (List.range' 1 (max count 1)).flatMap fun number => [lineStart number, .closing "span".toList]

theorem isUnescaped_toString (number : Nat) : isUnescaped (toString number).toList = true := by
  rw [isUnescaped, List.all_eq_true]
  intro c mem
  have digit := isDigit_of_mem_toString mem
  have other : (['&', '<', '>', '"', '\''].all fun special => !special.isDigit) = true := by decide
  simp only [Bool.not_eq_true', List.contains_eq_mem, decide_eq_false_iff_not]
  intro special
  have notDigit := List.all_eq_true.mp other c special
  rw [digit] at notDigit
  cases notDigit

theorem lineNumber_eq (number : Nat) :
    lineNumber number = [lineStart number].flatMap Tag.markup ++ ((toString number).toList ++
      [Tag.closing "span".toList].flatMap Tag.markup) ++ ['\n'] := by
  have start : ∀ digits : List Char, escape digits = digits →
      (Tag.opening "span".toList [⟨"id".toList, some ('L' :: digits)⟩,
        ⟨"data-line".toList, some digits⟩]).markup =
        "<span id=\"L".toList ++ digits ++ "\" data-line=\"".toList ++ digits ++ "\">".toList := by
    intro digits plain
    have named : escape ('L' :: digits) = 'L' :: digits := congrArg ('L' :: ·) plain
    simp [Tag.markup, Tag.mapValues, Tag.written, Attribute.mapValue, Attribute.written, plain, named]
  have ends : (Tag.closing "span".toList).markup = "</span>".toList := by decide
  rw [List.flatMap_cons, List.flatMap_nil, List.flatMap_cons, List.flatMap_nil, lineStart,
    start _ (escape_of_isUnescaped (isUnescaped_toString number)), ends]
  simp [lineNumber, ToString.toString]

theorem tags?_lineNumber (number : Nat) :
    decoder.tags? (lineNumber number) = some [lineStart number, .closing "span".toList] := by
  have free : '<' ∉ (toString number).toList := by
    rw [← escape_of_isUnescaped (isUnescaped_toString number)]
    exact Nesting.notMem_escape (by decide) _
  rw [lineNumber_eq]
  exact Decoder.tags?_append (Decoder.tags?_between rfl (Decoder.tags?_of_notMem free) (by decide))
    (Decoder.tags?_of_notMem (by decide))

theorem tags?_lineNumbers (count : Nat) : decoder.tags? (lineNumbers count) = some (lineTags count) :=
  Decoder.tags?_flatMap fun number _ => tags?_lineNumber number

/-! ### Pages -/

def fixed (text : String) : List Part :=
  text.toList.map .char

def place (key : String) : Part :=
  .place key.toList

def opens (name : String) (attributes : List (String × List Part)) : Slot :=
  .tag (.opening name.toList (attributes.map fun (name, value) => ⟨name.toList, some value⟩))

def opensHidden (name id : String) : Slot :=
  .tag (.opening name.toList [⟨"id".toList, some (fixed id)⟩, ⟨"hidden".toList, none⟩])

def closes (name : String) : Slot :=
  .tag (.closing name.toList)

/-- The tags of the page of a document, and the places between them. -/
def outline : List Slot :=
  [.tag (.declaration "!DOCTYPE html".toList), opens "html" [("lang", fixed "en")], opens "head" [],
    opens "meta" [("charset", fixed "utf-8")],
    opens "meta" [("name", fixed "viewport"),
      ("content", fixed "width=device-width, initial-scale=1")],
    opens "title" [], .place "FILENAME".toList, closes "title",
    opens "link" [("rel", fixed "stylesheet"), ("href", place "ASSET_PATH" :: fixed "style.css")],
    closes "head", opens "body" [],
    opens "nav" [("id", fixed "file-tree")], .place "TREE".toList, closes "nav",
    opens "main" [("id", fixed "source-view")], opens "div" [("id", fixed "code-frame")],
    opens "pre" [("id", fixed "line-numbers")], .place "LINE_NUMBERS".toList, closes "pre",
    opens "div" [("id", fixed "code-column")], opensHidden "div" "line-highlight", closes "div",
    opens "pre" [("id", fixed "code")], opens "code" [], .place "SOURCE".toList, closes "code",
    closes "pre", closes "div", closes "div", closes "main",
    opens "aside" [("id", fixed "side-panel")], opens "div" [("id", fixed "side-panel-tabs")],
    opens "button" [("id", fixed "tab-panel-hover"), ("class", fixed "enabled")], closes "button",
    opens "button" [("id", fixed "tab-panel-search")], closes "button", closes "div",
    opens "div" [("id", fixed "panel-hover")], closes "div", opensHidden "div" "panel-search",
    opens "input" [("id", fixed "search-input"),
      ("placeholder", fixed "Click a symbol to list its references")],
    opens "div" [("id", fixed "search-result")], closes "div", closes "div", closes "aside",
    opensHidden "div" "hover-popup", closes "div",
    opens "script" [("src", place "ASSET_PATH" :: fixed "main.js"), ("data-root", [place "ROOT_PATH"]),
      ("data-file", [place "FILENAME"])],
    closes "script", closes "body", closes "html"]

def names (fileName toRoot : List Char) : Values :=
  [("FILENAME".toList, fileName), ("ASSET_PATH".toList, toRoot ++ (assetFolder ++ "/").toList),
    ("ROOT_PATH".toList, toRoot)]

def tags (fileName toRoot : List Char) (nav lines source : List (Tag Char)) : List (Tag Char) :=
  outline.flatMap (Slot.tags (names fileName toRoot)
    [("TREE".toList, nav), ("LINE_NUMBERS".toList, lines), ("SOURCE".toList, source)])

theorem split_sourceTemplate :
    Stretch.split none (parts (ofLines sourceTemplate)) = some (outline.map Slot.stretch) := by
  unfold sourceTemplate
  repeat rw [ofLines_cons]
  decide +kernel

theorem outline_isPlain : outline.all (Slot.isPlain
    ["FILENAME".toList, "TREE".toList, "LINE_NUMBERS".toList, "SOURCE".toList]
    ["FILENAME".toList, "ASSET_PATH".toList, "ROOT_PATH".toList]) = true := by
  decide

theorem SourcePage.escaped_names {page : SourcePage} (plain : isUnescaped page.toRoot = true) :
    ∀ key ∈ ["FILENAME".toList, "ASSET_PATH".toList, "ROOT_PATH".toList],
      Part.text page.values (.place key) =
        escape (Part.text (names page.fileName page.toRoot) (.place key)) := by
  have root := escape_of_isUnescaped plain
  have folder := escape_of_isUnescaped (show isUnescaped (assetFolder ++ "/").toList = true by decide)
  simp only [List.forall_mem_cons, List.not_mem_nil, false_imp_iff, implies_true, and_true]
  refine ⟨rfl, ?_, root.symm⟩
  exact ((escape_append _ _).trans (congrArg₂ (· ++ ·) root folder)).symm

/-- A page has the tags of its template and of its parts, and no others. -/
theorem SourcePage.tags?_render {page : SourcePage} {navTags sourceTags : List (Tag Char)}
    (plain : isUnescaped page.toRoot = true) (nav : decoder.tags? page.nav = some navTags)
    (source : decoder.tags? page.source = some sourceTags) :
    decoder.tags? page.render =
      some (tags page.fileName page.toRoot navTags (lineTags page.lineCount) sourceTags) := by
  have known : ∀ key, .place key ∈ parts (ofLines sourceTemplate) →
      (page.values.get? key).isSome = true := by
    intro key mem
    have listed := Nesting.mem_of_openAfter? openAfter?_sourceTemplate mem
    simp only [List.mem_cons, List.not_mem_nil, or_false] at listed
    rcases listed with (rfl | rfl | rfl | rfl) | rfl | rfl | rfl <;> rfl
  rw [render, fill_eq_parts known]
  refine Slot.tags?_parts split_sourceTemplate fun slot mem => ?_
  have fits := List.all_eq_true.mp outline_isPlain slot mem
  cases slot with
  | tag form => exact Slot.tags?_tag (SourcePage.escaped_names plain) fits
  | place key =>
    have listed := List.contains_iff_mem.mp fits
    simp only [List.mem_cons, List.not_mem_nil, or_false] at listed
    rcases listed with rfl | rfl | rfl | rfl
    · exact Decoder.tags?_escape page.fileName
    · exact nav
    · exact tags?_lineNumbers page.lineCount
    · exact source

end Page

end CodeAtlas
