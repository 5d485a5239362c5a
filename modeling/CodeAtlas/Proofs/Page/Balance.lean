import CodeAtlas.Page.Layout
import CodeAtlas.Page.Nav
import CodeAtlas.Proofs.Markup.Filling

/-!
# Well nested pages

The navigation tree and the line numbers are balanced whatever they show. The templates of the two kinds of
pages are well nested with any values that fit their places, so every page is whose source is balanced.
-/

namespace CodeAtlas

open Markup Markup.Nesting

theorem PagePath.quote_notMem_toRoot (path : String) : '"' ∉ (toRoot path).toList := by
  rw [toRoot, String.toList_join]
  intro mem
  obtain ⟨up, listed, inside⟩ := List.mem_flatMap.mp mem
  rw [List.eq_of_mem_replicate listed] at inside
  exact absurd inside (by decide)

/-! ### The navigation tree -/

namespace NavNode

variable {toRoot : String} {current : Option String}

theorem balanced_link (free : '"' ∉ toRoot.toList) (path name : String) :
    Balanced (link toRoot current path name) := by
  intro outer
  have item : Passes outer
      (if current == some path then "<li class=\"current-file\">" else "<li>").toList
      ("li".toList :: outer) := by
    have marked : openAfter? [] [] [] ("<li class=\"current-file\">".toList.map .char) =
        some ["li".toList] := by decide
    have plain : openAfter? [] [] [] ("<li>".toList.map .char) = some ["li".toList] := by decide
    split
    · exact passes_literal marked outer
    · exact passes_literal plain outer
  have address : '"' ∉ toRoot.toList ++ escape path.toList := by
    rw [List.mem_append]
    exact not_or.mpr ⟨free, quote_notMem_escape _⟩
  have anchor : openAfter? [] [[]] [] ("<a href=\"".toList.map .char ++
      .place [] :: ".html\">".toList.map .char) = some ["a".toList] := by decide
  have ends : openAfter? [] [] ["a".toList, "li".toList] ("</a></li>".toList.map .char) = some [] := by
    decide
  have whole := ((item.append (passes_attribute anchor address _)).append
    (balanced_escape name.toList _)).append (passes_literal ends outer)
  simpa only [link, List.append_assoc, List.nil_append] using whole

theorem balanced_folder (name : String) {children : List Char} (balanced : Balanced children) :
    Balanced ("<li class=\"folder\"><span>".toList ++ escape name.toList ++ "</span><ul>".toList ++
      children ++ "</ul></li>".toList) := by
  intro outer
  have starts : openAfter? [] [] [] ("<li class=\"folder\"><span>".toList.map .char) =
      some ["span".toList, "li".toList] := by decide
  have middle : openAfter? [] [] ["span".toList] ("</span><ul>".toList.map .char) =
      some ["ul".toList] := by decide
  have ends : openAfter? [] [] ["ul".toList, "li".toList] ("</ul></li>".toList.map .char) = some [] := by
    decide
  exact ((((passes_literal starts outer).append (balanced_escape name.toList _)).append
    (passes_literal middle _)).append (balanced _)).append (passes_literal ends outer)

mutual

theorem balanced_renderNode (free : '"' ∉ toRoot.toList) (folder : String) :
    (node : NavNode) → Balanced (renderNode toRoot current folder node)
  | .file name => balanced_link free (pathIn folder name) name
  | .folder name children =>
    balanced_folder name (balanced_renderLevel free (pathIn folder name) children)

theorem balanced_renderLevel (free : '"' ∉ toRoot.toList) (folder : String) :
    (nodes : List NavNode) → Balanced (renderLevel toRoot current folder nodes)
  | [] => .nil
  | node :: nodes =>
    (balanced_renderNode free folder node).append (balanced_renderLevel free folder nodes)

end

theorem balanced_render (tree : List NavNode) (current : Option String) :
    Balanced (render tree current) := by
  have free : '"' ∉ ((current.map PagePath.toRoot).getD "").toList := by
    cases current with
    | none => decide
    | some path => exact PagePath.quote_notMem_toRoot path
  intro outer
  have starts : openAfter? [] [] [] ("<ul>".toList.map .char) = some ["ul".toList] := by decide
  have ends : openAfter? [] [] ["ul".toList] ("</ul>".toList.map .char) = some [] := by decide
  exact ((passes_literal starts outer).append (balanced_renderLevel free "" tree _)).append
    (passes_literal ends outer)

end NavNode

namespace Page

/-! ### Line numbers -/

theorem isDigit_of_mem_toString {number : Nat} {c : Char} (mem : c ∈ (toString number).toList) :
    c.isDigit = true := by
  rw [Nat.toString_eq_repr, Nat.toList_repr] at mem
  exact Nat.isDigit_of_mem_toDigits (by decide) (by decide) mem

theorem balanced_lineNumber (number : Nat) : Balanced (lineNumber number) := by
  have free : '"' ∉ (toString number).toList :=
    fun mem => absurd (isDigit_of_mem_toString mem) (by decide)
  have balanced : Balanced (toString number).toList := by
    have each : ∀ c ∈ (toString number).toList, Balanced [c] := by
      intro c mem
      refine balanced_char ?_ ?_
      · rintro rfl
        exact absurd (isDigit_of_mem_toString mem) (by decide)
      · rintro rfl
        exact absurd (isDigit_of_mem_toString mem) (by decide)
    simpa using Balanced.flatMap each
  have fits : Fits [[]] [[]] [([], (toString number).toList)] :=
    ⟨by simpa [Values.get?] using balanced, by simpa [Values.get?] using free⟩
  have read : openAfter? [[]] [[]] [] ("<span id=\"L".toList.map .char ++
      .place [] :: ("\" data-line=\"".toList.map .char ++
        .place [] :: ("\">".toList.map .char ++ .place [] :: "</span>\n".toList.map .char))) =
      some [] := by decide
  intro outer
  have passes := passes_parts fits read outer
  simp only [List.flatMap_append, List.flatMap_cons, flatMap_text_char, Part.text, Values.get?,
    List.find?_cons, decide_true, Option.map_some, Option.getD_some] at passes
  simpa only [lineNumber, String.toList_append, ToString.toString, List.append_assoc,
    List.nil_append] using passes

theorem balanced_lineNumbers (count : Nat) : Balanced (lineNumbers count) :=
  Balanced.flatMap fun number _ => balanced_lineNumber number

/-! ### Pages -/

/-- The template of a document's page is well nested whatever its values. -/
theorem openAfter?_sourceTemplate :
    openAfter? ["FILENAME".toList, "TREE".toList, "LINE_NUMBERS".toList, "SOURCE".toList]
      ["FILENAME".toList, "ASSET_PATH".toList, "ROOT_PATH".toList] []
      (parts (ofLines sourceTemplate)) = some [] := by
  unfold sourceTemplate
  repeat rw [ofLines_cons]
  decide +kernel

theorem SourcePage.passes_render {page : SourcePage} (free : '"' ∉ page.toRoot)
    (nav : Balanced page.nav) (source : Balanced page.source) : Passes [] page.render [] := by
  refine passes_fill ?_ openAfter?_sourceTemplate
  constructor
  · simp only [List.forall_mem_cons, List.not_mem_nil, false_imp_iff, implies_true, and_true]
    exact ⟨⟨_, rfl, balanced_escape _⟩, ⟨_, rfl, nav⟩, ⟨_, rfl, balanced_lineNumbers _⟩,
      ⟨_, rfl, source⟩⟩
  · simp only [List.forall_mem_cons, List.not_mem_nil, false_imp_iff, implies_true, and_true]
    refine ⟨⟨_, rfl, quote_notMem_escape _⟩, ⟨_, rfl, ?_⟩, ⟨_, rfl, free⟩⟩
    rw [List.mem_append]
    exact not_or.mpr ⟨free, by decide⟩

theorem passes_welcome {nav : List Char} (balanced : Balanced nav) : Passes [] (welcome nav) [] := by
  have fits : Fits ["TREE".toList] ["ASSET_PATH".toList]
      [("ASSET_PATH".toList, ("./" ++ assetFolder ++ "/").toList), ("TREE".toList, nav)] := by
    constructor
    · simp only [List.forall_mem_cons, List.not_mem_nil, false_imp_iff, implies_true, and_true]
      exact ⟨_, rfl, balanced⟩
    · simp only [List.forall_mem_cons, List.not_mem_nil, false_imp_iff, implies_true, and_true]
      exact ⟨_, rfl, by decide⟩
  refine passes_fill fits ?_
  unfold welcomeTemplate
  repeat rw [ofLines_cons]
  decide +kernel

end Page

end CodeAtlas
