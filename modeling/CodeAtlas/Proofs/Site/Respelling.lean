import CodeAtlas.Proofs.Dump.Respelling
import CodeAtlas.Proofs.Render.Fences
import CodeAtlas.Proofs.Site.Closure

/-!
# Sites of respelled dumps

A build reads its dump once. So where two dumps differ only in the order of fields and in the spelling of
ids, a build from one is a build from the other, step by step and fault by fault.
-/

namespace CodeAtlas.Site

def HoldsText (store : Store) (path : DiskPath) (text : List Char) : Prop :=
  ∃ bytes, store.read path = .ok bytes ∧ Text.decodeUtf8? bytes = some (String.ofList text)

section Builds

variable {α β : Type} {store : Store}

theorem run_bind_congr {first second : ExceptT SiteFault (StateM Store) β}
    (same : runOn first store = runOn second store) (next : β → ExceptT SiteFault (StateM Store) α) :
    runOn (first >>= next) store = runOn (second >>= next) store := by
  unfold runOn at same ⊢
  rw [ExceptT.run_bind, ExceptT.run_bind, StateT.run_bind, StateT.run_bind, same]

variable {first second : List Char} (same : Graph.parse first = Graph.parse second)
  (presentation : Presentation) (config : SiteConfig) (schedule : Schedule) (input : DiskPath)

include same

theorem run_prepare_of_parse (here : HoldsText store config.input first) (there : HoldsText store input second) :
    runOn (prepare presentation config) store = runOn (prepare presentation { config with input }) store := by
  obtain ⟨bytes, read, decoded⟩ := here
  obtain ⟨others, readOther, decodedOther⟩ := there
  rw [prepare_eq, prepare_eq, run_bind_of_ok (run_readText read decoded),
    run_bind_of_ok (run_readText readOther decodedOther), String.toList_ofList, String.toList_ofList, same]

theorem run_build_of_parse (here : HoldsText store config.input first) (there : HoldsText store input second) :
    runOn (build presentation config schedule) store =
      runOn (build presentation { config with input } schedule) store := by
  -- Only the first part of a build reads the dump.
  obtain ⟨next, fromFirst, fromSecond⟩ := build_bind_prepare presentation config schedule input
  rw [fromFirst, fromSecond]
  exact run_bind_congr (run_prepare_of_parse same presentation config input here there) next

end Builds

/-- The order of an object's fields and the spelling of its ids, as numbers or as strings of digits, are not
part of an element: another spelling of a line can be written, and every text of it is the same element, or has
the same fault. Dumps of such lines are one graph, or have one fault; and a build from one does what a build
from the other does. -/
theorem respelled_dumps_alike :
    (∀ line fields others, Json.read? line = some (.object fields) → Decode.Respelled fields others →
      Json.read? (Json.write (.object others)) = some (.object others) ∧
      ∀ other, Json.read? other = some (.object others) → Element.decode other = Element.decode line) ∧
    ∀ first second, List.Forall₂ LineRespelled (Text.lines first) (Text.lines second) →
      Graph.parse first = Graph.parse second ∧
      ∀ presentation config schedule input store,
        HoldsText store config.input first → HoldsText store input second →
          runOn (build presentation config schedule) store =
            runOn (build presentation { config with input } schedule) store := by
  refine ⟨fun line fields others here respelled => ?_, fun first second respelled => ?_⟩
  · refine ⟨(respelled.readable (Json.readable_of_read? here)).read?_write, fun other there => ?_⟩
    rw [Element.decode_of_read here, Element.decode_of_read there, Decode.value, Decode.value,
      respelled.fields]
  · have same := Graph.parse_respelled respelled
    exact ⟨same, fun presentation config schedule input _ =>
      run_build_of_parse same presentation config schedule input⟩

/-! ### An edge in two spellings -/

def plainEdge : String :=
  "\x7b\"id\":4,\"type\":\"edge\",\"label\":\"contains\",\"outV\":2,\"inVs\":[3]\x7d"

/-- The edge with its fields in another order and with some of its ids as strings. -/
def mixedEdge : String :=
  "\x7b\"inVs\":[\"3\"],\"outV\":2,\"label\":\"contains\",\"type\":\"edge\",\"id\":\"4\"\x7d"

def edgeDump (edge : String) : List Char :=
  Page.ofLines [
    "\x7b\"id\":1,\"type\":\"vertex\",\"label\":\"metaData\",\"projectRoot\":\"file:///\"\x7d",
    "\x7b\"id\":2,\"type\":\"vertex\",\"label\":\"document\",\"uri\":\"file:///a\"\x7d",
    "\x7b\"id\":3,\"type\":\"vertex\",\"label\":\"range\",\"start\":[0,0],\"end\":[0,1]\x7d"] ++
  '\n' :: edge.toList

def twoDumps : Store where
  nodes := .ofList [
    ([Text.bytesOf "d"], DiskNode.file (Text.encodeUtf8 (edgeDump plainEdge))),
    ([Text.bytesOf "e"], .file (Text.encodeUtf8 (edgeDump mixedEdge))),
    ([Text.bytesOf "a"], .file (Text.bytesOf "t"))]
  current := []

def plainFields : Json.Fields :=
  [("id", .natural 4), ("type", .string "edge"), ("label", .string "contains"), ("outV", .natural 2),
    ("inVs", .array [.natural 3])]

def mixedFields : Json.Fields :=
  [("inVs", .array [.string "3"]), ("outV", .natural 2), ("label", .string "contains"),
    ("type", .string "edge"), ("id", .string "4")]

theorem fields_respelled : Decode.Respelled plainFields mixedFields :=
  ⟨_, (List.reverse_perm _).symm, .cons (.ids (.cons (.digits (by decide)) .nil)) (.cons (.refl _)
    (.cons (.refl _) (.cons (.refl _) (.cons (.id (by decide) (.digits (by decide))) .nil))))⟩

theorem read_plainEdge :
    Json.read? plainEdge.toList = some (.object plainFields) ∧ Text.trim plainEdge.toList = plainEdge.toList := by
  unfold plainEdge
  rw [String.toList_ofList]
  exact ⟨rfl, rfl⟩

theorem read_mixedEdge :
    Json.read? mixedEdge.toList = some (.object mixedFields) ∧ Text.trim mixedEdge.toList = mixedEdge.toList := by
  unfold mixedEdge
  rw [String.toList_ofList]
  exact ⟨rfl, rfl⟩

theorem edges_respelled : LineRespelled plainEdge.toList mixedEdge.toList := by
  refine .object ?_ ?_ fields_respelled
  · rw [read_plainEdge.2, read_plainEdge.1]
  · rw [read_mixedEdge.2, read_mixedEdge.1]

theorem edgeDumps_respelled :
    List.Forall₂ LineRespelled (Text.lines (edgeDump plainEdge)) (Text.lines (edgeDump mixedEdge)) := by
  have flat : '\n' ∉ plainEdge.toList ∧ '\n' ∉ mixedEdge.toList := by
    unfold plainEdge mixedEdge
    rw [String.toList_ofList, String.toList_ofList]
    decide
  have plain : Text.lines plainEdge.toList = [plainEdge.toList] :=
    Text.lines_of_notMem flat.1 (by simp [plainEdge])
  have mixed : Text.lines mixedEdge.toList = [mixedEdge.toList] :=
    Text.lines_of_notMem flat.2 (by simp [mixedEdge])
  rw [edgeDump, edgeDump, Text.lines_append_newline, Text.lines_append_newline, plain, mixed]
  exact List.rel_append (List.forall₂_same.mpr fun _ _ => .refl _) (.cons edges_respelled .nil)

theorem respelled_dumps_alike_edge :
    Element.decode mixedEdge.toList = Element.decode plainEdge.toList ∧
    Graph.parse (edgeDump plainEdge) = Graph.parse (edgeDump mixedEdge) ∧
    ∃ report after, runOn (build .plain (usedConfig "out") [4, 3, 3, 0]) twoDumps = (.ok report, after) ∧
      runOn (build .plain { usedConfig "out" with input := .ofString "e" } [4, 3, 3, 0]) twoDumps =
        (.ok report, after) := by
  have first : HoldsText twoDumps (usedConfig "out").input (edgeDump plainEdge) :=
    ⟨_, rfl, Text.decodeUtf8?_encodeUtf8 _⟩
  have second : HoldsText twoDumps (.ofString "e") (edgeDump mixedEdge) :=
    ⟨_, rfl, Text.decodeUtf8?_encodeUtf8 _⟩
  have drawn : (siteFrom .plain (usedConfig "out") [4, 3, 3, 0] twoDumps (edgeDump plainEdge)).isSome = true := by
    unfold edgeDump plainEdge
    repeat rw [Page.ofLines_cons]
    rw [String.toList_ofList]
    decide +kernel
  obtain ⟨⟨site, after⟩, made⟩ := Option.isSome_iff_exists.mp drawn
  obtain ⟨report, done, _⟩ := exists_run_build rfl rfl made
  have decoded := (respelled_dumps_alike.1 _ _ _ read_plainEdge.1 fields_respelled).2 _ read_mixedEdge.1
  obtain ⟨parsed, builds⟩ := respelled_dumps_alike.2 _ _ edgeDumps_respelled
  have same := builds .plain (usedConfig "out") [4, 3, 3, 0] (.ofString "e") twoDumps first second
  exact ⟨decoded, parsed, report, after, done, same.symm.trans done⟩

end CodeAtlas.Site
