import CodeAtlas.Proofs.Site.Closure
import CodeAtlas.Proofs.Site.Planning
import CodeAtlas.Proofs.Text.Percent

/-!
# Where locations lead

The URL of a location is read as any URL is: its path ends at the first `?` or `#`, and percent escapes in it
stand for other bytes. A page's path is put into the URL as it is. So the URL leads to the page if and only if
the path has none of these signs in it (`Locator.location_leads_iff`).
-/

namespace CodeAtlas

/-- What a URL refers to: the bytes of its path, and the part of the page that it names. -/
structure UrlTarget where
  path : List UInt8
  fragment : Option (List Char)
  deriving DecidableEq, Repr

namespace UrlTarget

def isInPath (c : Char) : Bool :=
  c != '?' && c != '#'

def ofUrl (url : String) : UrlTarget where
  path := Text.percentDecode (Text.encodeUtf8 (url.toList.takeWhile isInPath))
  fragment := (url.toList.dropWhile (· != '#')).tail?

def ofLine (path : String) (number : Nat) : UrlTarget where
  path := Text.bytesOf s!"{path}.html"
  fragment := some (toString number).toList

theorem ofLine_inj {path other : String} {number second : Nat} (same : ofLine path number = ofLine other second) :
    path = other ∧ number = second := by
  obtain ⟨paths, fragments⟩ := UrlTarget.mk.inj same
  constructor
  · have chars := congrArg String.toList (Text.bytesOf_injective paths)
    simp only [toString, String.toList_append] at chars
    exact String.toList_injective (List.append_cancel_right chars)
  · have digits : Nat.toDigits 10 number = Nat.toDigits 10 second := by
      simpa [Nat.toString_eq_repr, Nat.toList_repr] using fragments
    have read := congrArg (fun digits => Nat.ofDigitChars 10 digits 0) digits
    simpa [Nat.ofDigitChars_toDigits] using read

end UrlTarget

/-- A URL that spells the path as it is reads as the path. -/
def PagePath.IsLiteral (path : String) : Prop :=
  '?' ∉ path.toList ∧ '#' ∉ path.toList ∧ ¬ Text.HasEscape (Text.bytesOf path)

namespace UrlTarget

theorem toList_url (path : String) (number : Nat) :
    s!"{path}.html#{number}".toList = path.toList ++ (".html".toList ++ '#' :: (toString number).toList) := by
  simp [ToString.toString]

theorem isInPath_of_notMem {path : List Char} (query : '?' ∉ path) (hash : '#' ∉ path) :
    ∀ c ∈ path, isInPath c = true := by
  intro c mem
  simp only [isInPath, Bool.and_eq_true, bne_iff_ne]
  exact ⟨fun same => query (same ▸ mem), fun same => hash (same ▸ mem)⟩

/-- The path of a URL ends within the page's path if that has a sign at which paths end. -/
theorem takeWhile_url_of_mem {path : List Char} (stops : '?' ∈ path ∨ '#' ∈ path) (rest : List Char) :
    ∃ c after, path = (path ++ rest).takeWhile isInPath ++ c :: after := by
  induction path with
  | nil => simp at stops
  | cons c path ih =>
    by_cases goes : isInPath c = true
    · have later : '?' ∈ path ∨ '#' ∈ path := by
        simp only [isInPath, Bool.and_eq_true, bne_iff_ne] at goes
        rcases stops with query | hash
        · exact .inl ((List.mem_cons.mp query).resolve_left goes.1.symm)
        · exact .inr ((List.mem_cons.mp hash).resolve_left goes.2.symm)
      obtain ⟨stop, after, split⟩ := ih later
      refine ⟨stop, after, ?_⟩
      rw [List.cons_append, List.takeWhile_cons_of_pos goes, List.cons_append, ← split]
    · refine ⟨c, path, ?_⟩
      rw [List.cons_append, List.takeWhile_cons_of_neg goes, List.nil_append]

theorem path_ofUrl_of_notMem {path : String} (query : '?' ∉ path.toList) (hash : '#' ∉ path.toList)
    (number : Nat) : (ofUrl s!"{path}.html#{number}").path =
      Text.percentDecode (Text.bytesOf path) ++ Text.bytesOf ".html" := by
  have inside := isInPath_of_notMem query hash
  have cut : s!"{path}.html#{number}".toList.takeWhile isInPath = path.toList ++ ".html".toList := by
    have ending : ∀ c ∈ ".html".toList, isInPath c = true := isInPath_of_notMem (by decide) (by decide)
    rw [toList_url, List.takeWhile_append_of_pos inside, List.takeWhile_append_of_pos ending]
    simp [isInPath]
  have bytes : Text.encodeUtf8 (path.toList ++ ".html".toList) =
      Text.bytesOf path ++ 0x2e :: Text.bytesOf "html" := by
    have ending : ".html".toList.flatMap String.utf8EncodeChar = 0x2e :: Text.bytesOf "html" := by decide
    rw [Text.bytesOf_eq_encodeUtf8, Text.encodeUtf8, List.flatMap_append, ending]
    rfl
  have ending : Text.percentDecode (0x2e :: Text.bytesOf "html") = Text.bytesOf ".html" := by decide
  rw [ofUrl, cut, bytes, Text.percentDecode_append _ (by decide), ending]

theorem fragment_ofUrl_of_notMem {path : String} (hash : '#' ∉ path.toList) (number : Nat) :
    (ofUrl s!"{path}.html#{number}").fragment = some (toString number).toList := by
  have apart : ∀ c ∈ path.toList ++ ".html".toList, (c != '#') = true := by
    intro c mem
    rw [bne_iff_ne]
    rintro rfl
    rcases List.mem_append.mp mem with inPath | inEnd
    · exact hash inPath
    · exact absurd inEnd (by decide)
  rw [ofUrl, toList_url, ← List.append_assoc, List.dropWhile_append_of_pos apart]
  simp

/-- The URL for a line of a page reads as that line exactly if the page's path may be spelled as it is. -/
theorem ofUrl_eq_iff (path : String) (number meant : Nat) :
    ofUrl s!"{path}.html#{number}" = ofLine path meant ↔ PagePath.IsLiteral path ∧ number = meant := by
  have whole : Text.bytesOf s!"{path}.html" = Text.bytesOf path ++ Text.bytesOf ".html" := by
    simp [Text.bytesOf_eq_encodeUtf8, Text.encodeUtf8, ToString.toString]
  by_cases stops : '?' ∈ path.toList ∨ '#' ∈ path.toList
  · refine iff_of_false (fun same => ?_) fun literal => stops.elim literal.1.1 literal.1.2.1
    -- What is read is shorter than the page's path.
    obtain ⟨c, after, split⟩ := takeWhile_url_of_mem stops (".html".toList ++ '#' :: (toString number).toList)
    have bytes := congrArg List.length (congrArg UrlTarget.path same)
    have shorter := Text.length_percentDecode_le (Text.encodeUtf8 (s!"{path}.html#{number}".toList.takeWhile isInPath))
    have longer := congrArg (fun text => (Text.encodeUtf8 text).length) split
    simp only [ofUrl, ofLine, whole, List.length_append, Text.bytesOf_eq_encodeUtf8] at bytes
    rw [toList_url] at bytes shorter
    simp only [Text.encodeUtf8, List.flatMap_append, List.length_append] at longer bytes shorter
    have ending : 0 < (".html".toList.flatMap String.utf8EncodeChar).length := by decide
    omega
  · rw [not_or] at stops
    have literal : PagePath.IsLiteral path ↔ Text.percentDecode (Text.bytesOf path) = Text.bytesOf path := by
      rw [Text.percentDecode_eq_self_iff, PagePath.IsLiteral]
      exact ⟨fun literal => literal.2.2, fun escape => ⟨stops.1, stops.2, escape⟩⟩
    rw [literal]
    constructor
    · intro same
      have paths := congrArg UrlTarget.path same
      have fragments := congrArg UrlTarget.fragment same
      rw [path_ofUrl_of_notMem stops.1 stops.2, ofLine, whole] at paths
      rw [fragment_ofUrl_of_notMem stops.2] at fragments
      have again : ofLine path number = ofLine path meant := by
        rw [ofLine, fragments]
        rfl
      exact ⟨List.append_cancel_right paths, (ofLine_inj again).2⟩
    · rintro ⟨plain, rfl⟩
      have paths := path_ofUrl_of_notMem stops.1 stops.2 number
      rw [plain, ← whole] at paths
      exact congrArg₂ UrlTarget.mk paths (fragment_ofUrl_of_notMem stops.2 number)

end UrlTarget

namespace Locator

/-- What a location is made from: the document that the range is in, the path of that document and the number
of the line, counted from one. -/
structure LocatedAt (locator : Locator) (rangeId : ElementId) (hint : Option ElementId) (location : Location)
    (id : ElementId) (path : String) (number : Nat) : Prop where
  found : locator.locate rangeId hint = .ok (some location)
  owner : (locator.owner? rangeId).or hint = some id
  page : ∃ document, locator.graph.document id = .ok document ∧ locator.pages.path? document.uri = some path
  line : ∃ range, locator.graph.range rangeId = .ok range ∧ number = range.start.line.toNat + 1

/-- The page's path may be spelled as it is, the number is one that lines can have, and the page is the
document's own. -/
structure Reached (pages : PageMap) (documents : List (ElementId × Document)) (id : ElementId) (path : String)
    (number : Nat) : Prop where
  literal : PagePath.IsLiteral path
  counted : number < UInt32.size
  first : (Plan.first? pages documents path).map Prod.fst = some id

variable {locator : Locator} {rangeId : ElementId} {hint : Option ElementId} {location : Location}
  {id : ElementId} {path : String} {number : Nat}

theorem exists_locatedAt (found : locator.locate rangeId hint = .ok (some location)) :
    ∃ id path number, LocatedAt locator rangeId hint location id path number := by
  obtain ⟨range, id, document, path, owner, isRange, isDocument, mapped, _⟩ := locate_eq_some found
  exact ⟨id, path, _, found, owner, ⟨document, isDocument, mapped⟩, range, isRange, rfl⟩

theorem LocatedAt.url (located : LocatedAt locator rangeId hint location id path number) :
    location.url = s!"{path}.html#{number % UInt32.size}" := by
  obtain ⟨range, id', document, path', owner, isRange, isDocument, mapped, rfl⟩ := locate_eq_some located.found
  cases owner.symm.trans located.owner
  obtain ⟨_, same, mapped'⟩ := located.page
  cases isDocument.symm.trans same
  cases mapped.symm.trans mapped'
  obtain ⟨_, same, rfl⟩ := located.line
  cases isRange.symm.trans same
  exact url_lineOf_mod id path range

theorem LocatedAt.ofUrl_eq_iff (located : LocatedAt locator rangeId hint location id path number) :
    UrlTarget.ofUrl location.url = .ofLine path number ↔ PagePath.IsLiteral path ∧ number < UInt32.size := by
  rw [located.url, UrlTarget.ofUrl_eq_iff]
  refine and_congr_right fun _ => ⟨fun same => ?_, Nat.mod_eq_of_lt⟩
  rw [← same]
  exact Nat.mod_lt _ (by decide)

/-- Some document has the page at the path, though it need not be the one that the range is in. -/
theorem LocatedAt.exists_planned {elements : List Element} (describes : locator.graph.Describes elements)
    (located : LocatedAt locator rangeId hint location id path number) {plan : Plan}
    (planned : Plan.ofGraph locator.graph locator.pages = .ok plan) :
    ∃ shown ∈ plan.documents, shown.path = path ∧
      (shown.id = id ↔ (Plan.first? locator.pages (documentsOf elements) path).map Prod.fst = some id) := by
  obtain ⟨document, isDocument, mapped⟩ := located.page
  have documents : locator.graph.documents = documentsOf elements := describes.documents
  have known : Plan.first? locator.pages locator.graph.documents path ≠ none :=
    Plan.first?_ne_none_iff.mpr ⟨(id, document), describes.mem_documents isDocument, mapped⟩
  obtain ⟨entry, first⟩ := Option.ne_none_iff_exists'.mp known
  obtain ⟨shown, mem, samePath, sameId⟩ := (Plan.covers_of_ofGraph planned).exists_planned first
  refine ⟨shown, mem, samePath, ?_⟩
  rw [← documents, first, sameId]
  simp

/-- Locations that lead to the pages of their documents lead to one place only if they are of one line of one
document. -/
theorem LocatedAt.target_eq_iff {documents : List (ElementId × Document)}
    (located : LocatedAt locator rangeId hint location id path number)
    (reached : Reached locator.pages documents id path number)
    {rangeId' id' : ElementId} {hint' : Option ElementId} {location' : Location} {path' : String} {number' : Nat}
    (located' : LocatedAt locator rangeId' hint' location' id' path' number')
    (reached' : Reached locator.pages documents id' path' number') :
    UrlTarget.ofUrl location.url = UrlTarget.ofUrl location'.url ↔ id = id' ∧ number = number' := by
  rw [located.ofUrl_eq_iff.mpr ⟨reached.literal, reached.counted⟩,
    located'.ofUrl_eq_iff.mpr ⟨reached'.literal, reached'.counted⟩]
  constructor
  · intro same
    obtain ⟨rfl, rfl⟩ := UrlTarget.ofLine_inj same
    exact ⟨Option.some.inj (reached.first.symm.trans reached'.first), rfl⟩
  · rintro ⟨rfl, rfl⟩
    obtain ⟨document, isDocument, mapped⟩ := located.page
    obtain ⟨_, same, mapped'⟩ := located'.page
    cases isDocument.symm.trans same
    cases mapped.symm.trans mapped'
    rfl

/-- A location leads to the line of the page that has its document's path exactly if the path may be spelled
as it is in a URL and the line has a number. The page is that of the first document with the path. Where all
this holds, different lines and documents have different targets. -/
theorem location_leads_iff {elements : List Element} {graph : Graph}
    (built : Graph.ofElements elements = .ok graph) (pages : PageMap) (sources : SourceMap) :
    (∀ rangeId hint location, locate ⟨graph, pages, sources⟩ rangeId hint = .ok (some location) →
      ∃ id path number, LocatedAt ⟨graph, pages, sources⟩ rangeId hint location id path number) ∧
    (∀ rangeId hint location id path number,
      LocatedAt ⟨graph, pages, sources⟩ rangeId hint location id path number →
        (UrlTarget.ofUrl location.url = .ofLine path number ↔
          PagePath.IsLiteral path ∧ number < UInt32.size) ∧
        ∀ plan, Plan.ofGraph graph pages = .ok plan → ∃ shown ∈ plan.documents, shown.path = path ∧
          (shown.id = id ↔ (Plan.first? pages (documentsOf elements) path).map Prod.fst = some id)) ∧
    ∀ rangeId hint location id path number rangeId' hint' location' id' path' number',
      LocatedAt ⟨graph, pages, sources⟩ rangeId hint location id path number →
      Reached pages (documentsOf elements) id path number →
      LocatedAt ⟨graph, pages, sources⟩ rangeId' hint' location' id' path' number' →
      Reached pages (documentsOf elements) id' path' number' →
        (UrlTarget.ofUrl location.url = UrlTarget.ofUrl location'.url ↔ id = id' ∧ number = number') := by
  have describes := Graph.describes_of_ofElements built
  refine ⟨fun _ _ _ => exists_locatedAt, ?_, ?_⟩
  · intro _ _ _ _ _ _ located
    exact ⟨located.ofUrl_eq_iff, fun plan => located.exists_planned describes⟩
  · intro _ _ _ _ _ _ _ _ _ _ _ _ located reached located' reached'
    exact located.target_eq_iff reached located' reached'

/-- A document with ranges on its first two lines. -/
def lineDump (uri : String) : List Element :=
  [⟨.ofNat 1, .vertex (.metaData ⟨"file:///r", none, none⟩)⟩,
    ⟨.ofNat 2, .vertex (.document ⟨uri, ""⟩)⟩,
    ⟨.ofNat 3, .vertex (.range ⟨⟨0, 0⟩, ⟨0, 1⟩⟩)⟩,
    ⟨.ofNat 4, .vertex (.range ⟨⟨1, 0⟩, ⟨1, 1⟩⟩)⟩,
    ⟨.ofNat 5, .edge ⟨.contains, .ofNat 2, .ofNat 3, [.ofNat 4], none, none⟩⟩]

def linePages : PageMap :=
  .ofRoot "file:///r" .empty

def lineFacts (uri : String) (rangeId : ElementId) : Option (Option ElementId × Option Document × Option Range) :=
  (Graph.ofElements (lineDump uri)).toOption.map fun graph =>
    (owner? ⟨graph, linePages, ∅⟩ rangeId, (graph.document (.ofNat 2)).toOption, (graph.range rangeId).toOption)

theorem locatedAt_of_lineFacts {uri path : String} {rangeId : ElementId} {range : Range} {graph : Graph}
    (built : Graph.ofElements (lineDump uri) = .ok graph)
    (facts : lineFacts uri rangeId = some (some (.ofNat 2), some ⟨uri, ""⟩, some range))
    (mapped : linePages.path? uri = some path) :
    LocatedAt ⟨graph, linePages, ∅⟩ rangeId none (lineOf ⟨graph, linePages, ∅⟩ (.ofNat 2) path range) (.ofNat 2) path
      (range.start.line.toNat + 1) := by
  rw [lineFacts, built] at facts
  simp only [Except.toOption, Option.map_some, Option.some.injEq, Prod.mk.injEq] at facts
  obtain ⟨owner, isDocument, isRange⟩ := facts
  have isDocument := ok_of_toOption_eq_some isDocument
  have isRange := ok_of_toOption_eq_some isRange
  refine ⟨?_, by rw [owner]; rfl, ⟨_, isDocument, mapped⟩, range, isRange, rfl⟩
  unfold locate
  rw [isRange, owner]
  change (graph.document (.ofNat 2) >>= _) = _
  rw [isDocument]
  change Except.ok ((linePages.path? uri).map _) = _
  rw [mapped]
  rfl

/-- A percent sign without digits after it may stand in a URL. -/
theorem location_leads_lineDump : ∃ graph plan first second,
    Graph.ofElements (lineDump "file:///r/100%25.txt") = .ok graph ∧ Plan.ofGraph graph linePages = .ok plan ∧
    locate ⟨graph, linePages, ∅⟩ (.ofNat 3) none = .ok (some first) ∧
    locate ⟨graph, linePages, ∅⟩ (.ofNat 4) none = .ok (some second) ∧
    UrlTarget.ofUrl first.url = .ofLine "100%.txt" 1 ∧
    (∃ shown ∈ plan.documents, shown.path = "100%.txt" ∧ shown.id = .ofNat 2) ∧
    UrlTarget.ofUrl first.url ≠ UrlTarget.ofUrl second.url := by
  obtain ⟨graph, built⟩ := exists_eq_ok
    (show (Graph.ofElements (lineDump "file:///r/100%25.txt")).isOk = true by decide)
  obtain ⟨plan, planned⟩ : ∃ plan, Plan.ofGraph graph linePages = .ok plan := by
    apply exists_eq_ok
    unfold Plan.ofGraph
    rw [(Graph.describes_of_ofElements built).documents]
    decide
  have mapped : linePages.path? "file:///r/100%25.txt" = some "100%.txt" := by decide
  have first := locatedAt_of_lineFacts built (show lineFacts _ (.ofNat 3) = some (_, _, some ⟨⟨0, 0⟩, ⟨0, 1⟩⟩) by
    decide) mapped
  have second := locatedAt_of_lineFacts built (show lineFacts _ (.ofNat 4) = some (_, _, some ⟨⟨1, 0⟩, ⟨1, 1⟩⟩) by
    decide) mapped
  have literal : PagePath.IsLiteral "100%.txt" :=
    ⟨by decide, by decide, (Text.percentDecode_eq_self_iff _).mp (by decide)⟩
  have own : (Plan.first? linePages (documentsOf (lineDump "file:///r/100%25.txt")) "100%.txt").map Prod.fst =
      some (.ofNat 2) := by decide
  obtain ⟨_, leads, apart⟩ := location_leads_iff built linePages ∅
  obtain ⟨target, pages⟩ := leads _ _ _ _ _ _ first
  obtain ⟨shown, mem, path, isOwn⟩ := pages plan planned
  have differ := apart _ _ _ _ _ _ _ _ _ _ _ _ first ⟨literal, by decide, own⟩ second ⟨literal, by decide, own⟩
  refine ⟨graph, plan, _, _, built, planned, first.found, second.found, target.mpr ⟨literal, by decide⟩,
    ⟨shown, mem, path, isOwn.mpr own⟩, fun same => ?_⟩
  exact absurd (differ.mp same).2 (by decide)

/-- The path of the URL for a document named `a#b` ends after `a`. -/
theorem location_misses_hash : ∃ graph location,
    Graph.ofElements (lineDump "file:///r/a%23b") = .ok graph ∧
    LocatedAt ⟨graph, linePages, ∅⟩ (.ofNat 3) none location (.ofNat 2) "a#b" 1 ∧
    (UrlTarget.ofUrl location.url).path = Text.bytesOf "a" ∧
    UrlTarget.ofUrl location.url ≠ .ofLine "a#b" 1 := by
  obtain ⟨graph, built⟩ := exists_eq_ok
    (show (Graph.ofElements (lineDump "file:///r/a%23b")).isOk = true by decide)
  have located := locatedAt_of_lineFacts built (show lineFacts _ (.ofNat 3) = some (_, _, some ⟨⟨0, 0⟩, ⟨0, 1⟩⟩) by
    decide) (show linePages.path? _ = some "a#b" by decide)
  refine ⟨graph, _, built, located, ?_, fun same => ?_⟩
  · rw [located.url]
    decide
  · exact (located.ofUrl_eq_iff.mp same).1.2.1 (by decide)

end Locator

end CodeAtlas
