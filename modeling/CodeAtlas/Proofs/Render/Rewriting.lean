import CodeAtlas.Proofs.Markup.Atoms
import CodeAtlas.Render.Inline

/-!
# Rewriting inline text

What each inline rule takes and what it writes for it. Strong emphasis and emphasis only replace marks by
tags (`Remarked`), wherever these marks stand: in the text, or in the address of a link.
-/

namespace CodeAtlas

open Markup

/-! ### Delimiters in markup -/

namespace Markup

def delimiters : List Char :=
  ['*', '_', '[', ']', '(', ')']

/-- A delimiter is written as it is, and is no part of what is written for another character. -/
theorem eq_of_mem_escapeChar {m c : Char} (delimiter : m ∈ delimiters) (mem : m ∈ escapeChar c) :
    c = m ∧ escapeChar c = [m] := by
  have fixed : (delimiters.all fun m =>
      ["&amp;", "&lt;", "&gt;", "&quot;", "&#39;"].all fun entity => decide (m ∉ entity.toList)) =
        true := by decide
  have free : ∀ entity ∈ ["&amp;", "&lt;", "&gt;", "&quot;", "&#39;"], m ∉ entity.toList := by
    intro entity listed
    exact of_decide_eq_true (List.all_eq_true.mp (List.all_eq_true.mp fixed m delimiter) entity listed)
  unfold escapeChar at mem ⊢
  split at mem
  · exact absurd mem (free "&amp;" (by decide))
  · exact absurd mem (free "&lt;" (by decide))
  · exact absurd mem (free "&gt;" (by decide))
  · exact absurd mem (free "&quot;" (by decide))
  · exact absurd mem (free "&#39;" (by decide))
  · obtain rfl := List.mem_singleton.mp mem
    exact ⟨rfl, rfl⟩

theorem escapeChar_of_delimiter {m : Char} (delimiter : m ∈ delimiters) : escapeChar m = [m] := by
  have fixed : (delimiters.all fun m => decide (escapeChar m = [m])) = true := by decide
  exact of_decide_eq_true (List.all_eq_true.mp fixed m delimiter)

namespace Atom

/-- A delimiter that stands outside the tags is a glyph. -/
theorem exists_of_markup_eq_append {atoms : List Atom} (sound : Sound atoms) {m : Char}
    (delimiter : m ∈ delimiters) {before after : List Char} {read : List (Tag Char)}
    (complete : tags? before = some read) (whole : markup atoms = before ++ m :: after) :
    ∃ first second, atoms = first ++ .glyph m :: second ∧ before = markup first ∧ after = markup second := by
  induction atoms generalizing before read with
  | nil => simp at whole
  | cons atom atoms ih =>
    have split : atom.text ++ markup atoms = before ++ m :: after := whole
    have later : ∀ passed, before = atom.text ++ passed → markup atoms = passed ++ m :: after →
        ∃ first second, atom :: atoms = first ++ .glyph m :: second ∧ before = markup first ∧
          after = markup second := by
      rintro passed rfl rest
      rw [tags?_append (sound.tags?_text atom List.mem_cons_self)] at complete
      obtain ⟨_, complete, _⟩ := Option.map_eq_some_iff.mp complete
      obtain ⟨first, second, rfl, rfl, rfl⟩ := ih sound.of_cons complete rest
      exact ⟨atom :: first, second, rfl, rfl, rfl⟩
    rcases List.append_eq_append_iff.mp split with ⟨passed, same, rest⟩ | ⟨passed, same, rest⟩
    · exact later passed same rest
    · cases passed with
      | nil => exact later [] (by simpa using same.symm) (by simpa using rest.symm)
      | cons d passed =>
        obtain ⟨rfl, rfl⟩ := List.cons.inj rest
        cases atom with
        | glyph c =>
          have mem : m ∈ escapeChar c := by
            have here : m ∈ before ++ m :: passed := by simp
            rwa [← same] at here
          obtain ⟨rfl, alone⟩ := eq_of_mem_escapeChar delimiter mem
          rw [text, alone] at same
          cases before with
          | nil =>
            cases same
            exact ⟨[], atoms, rfl, rfl, rfl⟩
          | cons b before => simp at same
        | tag tag =>
          cases before with
          | nil =>
            obtain ⟨rfl, _⟩ := List.cons.inj same
            exact absurd delimiter (by decide)
          | cons b before =>
            rw [tags?_of_part (sound tag List.mem_cons_self) same] at complete
            cases complete

end Atom

end Markup

namespace Inline

/-! ### Applying a rule -/

theorem applyFrom_eq_append (rule : Rule) (previous : Option Char) (written text : List Char) :
    applyFrom rule previous written text = written.reverse ++ applyFrom rule previous [] text := by
  induction size : text.length using Nat.strongRecOn generalizing previous written text with
  | ind n ih =>
    subst size
    cases text with
    | nil => rw [applyFrom, applyFrom, List.reverse_nil, List.append_nil]
    | cons c rest =>
      rw [applyFrom, applyFrom]
      cases rule previous c rest with
      | none =>
        dsimp only
        rw [ih _ (by simp) _ _ rest rfl, ih _ (by simp) _ [c] rest rfl]
        simp
      | some fit =>
        dsimp only
        have shorter : (rest.drop fit.taken).length < (c :: rest).length := by
          rw [List.length_drop, List.length_cons]
          omega
        rw [ih _ shorter _ _ _ rfl, ih _ shorter _ (fit.output.reverseAux []) _ rfl]
        simp [List.reverseAux_eq]

/-- The stretches of a text that a rule is applied to. -/
def takenFrom (rule : Rule) (previous : Option Char) : List Char → List (List Char)
  | [] => []
  | c :: rest =>
    match rule previous c rest with
    | none => takenFrom rule (some c) rest
    | some ⟨taken, _⟩ =>
      (c :: rest.take taken) ::
        takenFrom rule (some ((rest.take taken).getLast?.getD c)) (rest.drop taken)
termination_by text => text.length
decreasing_by all_goals (simp only [List.length_cons, List.length_drop]; omega)

def takenBy (rule : Rule) (text : List Char) : List (List Char) :=
  takenFrom rule none text

/-- A rule leaves a character, or writes something for a stretch that it takes. -/
theorem applyRule_induction {rule : Rule} {motive : List Char → List (List Char) → List Char → Prop}
    (nil : motive [] [] [])
    (keep : ∀ previous c rest takes output, rule previous c rest = none → motive rest takes output →
      motive (c :: rest) takes (c :: output))
    (take : ∀ previous c rest fit takes output, rule previous c rest = some fit →
      motive (rest.drop fit.taken) takes output →
        motive (c :: rest) ((c :: rest.take fit.taken) :: takes) (fit.output ++ output))
    (text : List Char) : motive text (takenBy rule text) (applyRule rule text) := by
  have general : ∀ previous, motive text (takenFrom rule previous text) (applyFrom rule previous [] text) := by
    induction size : text.length using Nat.strongRecOn generalizing text with
    | ind n ih =>
      subst size
      intro previous
      cases text with
      | nil =>
        rw [takenFrom, applyFrom]
        exact nil
      | cons c rest =>
        rw [takenFrom, applyFrom]
        cases found : rule previous c rest with
        | none =>
          dsimp only
          rw [applyFrom_eq_append]
          exact keep previous c rest _ _ found (ih _ (by simp) rest rfl (some c))
        | some fit =>
          dsimp only
          have shorter : (rest.drop fit.taken).length < (c :: rest).length := by
            rw [List.length_drop, List.length_cons]
            omega
          rw [applyFrom_eq_append, List.reverseAux_eq, List.append_nil, List.reverse_reverse]
          exact take previous c rest fit _ _ found (ih _ shorter _ rfl _)
  exact general none

/-! ### What the rules take -/

theorem upTo?_eq_some {mark : Char} {text body : List Char} (found : upTo? mark text = some body) :
    ∃ rest, text = body ++ mark :: rest ∧ mark ∉ body := by
  have free : mark ∉ text.takeWhile fun c => c != mark := by
    intro mem
    have other := List.all_eq_true.mp (List.all_takeWhile (p := fun c => c != mark) (l := text)) mark mem
    simp at other
  have split := List.takeWhile_append_dropWhile (p := fun c => c != mark) (l := text)
  have stops := List.head?_dropWhile_not (fun c => c != mark) text
  unfold upTo? at found
  simp only at found
  split at found
  · cases found
  · rename_i inside
    obtain rfl := Option.some.inj found
    cases dropped : text.dropWhile fun c => c != mark with
    | nil =>
      rw [dropped, List.append_nil] at split
      rw [split] at inside
      simp at inside
    | cons c rest =>
      rw [dropped] at stops split
      obtain rfl : c = mark := by simpa using stops
      exact ⟨rest, split.symm, free⟩

theorem link_eq_some {previous : Option Char} {c : Char} {rest : List Char} {fit : Fit}
    (found : link previous c rest = some fit) :
    ∃ label url after, c = '[' ∧ rest = label ++ ']' :: '(' :: (url ++ ')' :: after) ∧
      rest.drop fit.taken = after ∧ fit.output = linkMarkup label url := by
  unfold link at found
  split at found
  · rename_i bracket
    split at found
    · cases found
    · rename_i label labelled
      obtain ⟨tail, rfl, _⟩ := upTo?_eq_some labelled
      have passed : (label ++ ']' :: tail).drop (label.length + 1) = tail := by
        rw [List.drop_append]
        simp
      rw [passed] at found
      split at found
      · rename_i after
        simp only at found
        split at found
        · cases found
        · rename_i closed
          obtain rfl := Option.some.inj found
          have split := List.takeWhile_append_dropWhile
            (p := fun c => c != ')' && !Text.isBlank c) (l := after)
          generalize after.takeWhile (fun c => c != ')' && !Text.isBlank c) = url at *
          generalize after.dropWhile (fun c => c != ')' && !Text.isBlank c) = others at *
          subst split
          cases others with
          | nil => simp at closed
          | cons d others =>
            obtain ⟨_, rfl⟩ : url ≠ [] ∧ d = ')' := by simpa using closed
            refine ⟨label, url, others, bracket, rfl, ?_, rfl⟩
            have size : label.length + 2 + url.length + 1 =
                (label ++ ']' :: '(' :: (url ++ [')'])).length := by simp; omega
            have whole : label ++ ']' :: '(' :: (url ++ ')' :: others) =
                (label ++ ']' :: '(' :: (url ++ [')'])) ++ others := by simp
            simp only [size, whole, List.drop_left]
      · cases found
  · cases found

def marks : List Char :=
  ['*', '_']

theorem mem_delimiters_of_mem_marks {mark : Char} (listed : mark ∈ marks) : mark ∈ delimiters := by
  have each : marks.all delimiters.contains = true := by decide
  simpa using List.all_eq_true.mp each mark listed

theorem markless_of_all {text : List Char} (free : (marks.all fun mark => !text.contains mark) = true) :
    ∀ mark ∈ marks, mark ∉ text := by
  intro mark listed
  simpa using List.all_eq_true.mp free mark listed

/-- The rule takes a text between two runs of a mark, and writes it in an element. -/
def Encloses (rule : Rule) (name : String) : Prop :=
  ∀ previous c rest fit, rule previous c rest = some fit →
    ∃ mark ∈ marks, ∃ width body,
      c :: rest.take fit.taken =
        List.replicate (width + 1) mark ++ (body ++ List.replicate (width + 1) mark) ∧
      fit.output = inElement name body

theorem strongBy_eq_some {mark c : Char} {rest : List Char} {fit : Fit}
    (found : strongBy mark c rest = some fit) :
    ∃ body, c :: rest.take fit.taken = List.replicate 2 mark ++ (body ++ List.replicate 2 mark) ∧
      fit.output = inElement "strong" body := by
  unfold strongBy at found
  split at found
  · rename_i doubled
    obtain ⟨rfl, second⟩ : c = mark ∧ rest.head? = some mark := by simpa using doubled
    obtain ⟨rest, rfl⟩ := List.head?_eq_some_iff.mp second
    split at found
    · cases found
    · rename_i body bounded
      obtain ⟨after, whole, _⟩ := upTo?_eq_some bounded
      obtain rfl : rest = body ++ c :: after := whole
      split at found
      · rename_i closed
        obtain rfl := Option.some.inj found
        cases after with
        | nil => simp at closed
        | cons d after =>
          obtain rfl : d = c := by simpa [List.getElem?_append] using closed
          refine ⟨body, ?_, rfl⟩
          have whole : d :: (body ++ d :: d :: after) = d :: (body ++ [d, d]) ++ after := by simp
          have size : body.length + 3 = (d :: (body ++ [d, d])).length := by simp
          rw [whole, size, List.take_left]
          rfl
      · cases found
  · cases found

theorem encloses_strong : Encloses strong "strong" := by
  intro previous c rest fit found
  obtain ⟨mark, listed, found⟩ : ∃ mark ∈ marks, strongBy mark c rest = some fit := by
    rcases Option.or_eq_some_iff.mp found with stars | ⟨_, underscores⟩
    · exact ⟨'*', by decide, stars⟩
    · exact ⟨'_', by decide, underscores⟩
  obtain ⟨body, taken, output⟩ := strongBy_eq_some found
  exact ⟨mark, listed, 1, body, taken, output⟩

theorem emphasized?_eq_some {mark : Char} {rest body : List Char}
    (found : emphasized? mark rest = some body) :
    mark :: rest.take (body.length + 1) = List.replicate 1 mark ++ (body ++ List.replicate 1 mark) := by
  unfold emphasized? at found
  split at found
  · cases found
  · rename_i text bounded
    split at found
    · cases found
    · obtain rfl := Option.some.inj found
      obtain ⟨after, rfl, _⟩ := upTo?_eq_some bounded
      have whole : text ++ mark :: after = text ++ [mark] ++ after := by simp
      have size : text.length + 1 = (text ++ [mark]).length := by simp
      rw [whole, size, List.take_left]
      rfl

theorem encloses_emphasis : Encloses emphasis "em" := by
  intro previous c rest fit found
  unfold emphasis at found
  split at found
  · rename_i star
    subst star
    obtain ⟨body, bounded, rfl⟩ := Option.map_eq_some_iff.mp found
    exact ⟨'*', by decide, 0, body, emphasized?_eq_some bounded, rfl⟩
  · split at found
    · rename_i underscore
      obtain ⟨rfl, _⟩ : c = '_' ∧ leavesWord previous = true := by simpa using underscore
      split at found
      · cases found
      · rename_i body bounded
        split at found
        · obtain rfl := Option.some.inj found
          exact ⟨'_', by decide, 0, body, emphasized?_eq_some bounded, rfl⟩
        · cases found
    · cases found

theorem inElement_eq (name : String) (text : List Char) :
    inElement name text = Atom.element name.toList [] text := by
  simp [inElement, Atom.element, Tag.written, toString]

/-! ### Marks replaced by tags -/

/-- The second text is the first one with some of its marks replaced by tags of an element, or left
out. -/
inductive Remarked (name : List Char) : List Char → List Char → Prop where
  | nil : Remarked name [] []
  | keep (c : Char) {first second : List Char} :
    Remarked name first second → Remarked name (c :: first) (c :: second)
  | replace {mark : Char} {tags : List (Tag Char)} {first second : List Char} :
    mark ∈ marks → (∀ tag ∈ tags, tag = .opening name [] ∨ tag = .closing name) →
      Remarked name first second → Remarked name (mark :: first) (Atom.markup (tags.map .tag) ++ second)

namespace Remarked

variable {name first second : List Char}

theorem refl (text : List Char) : Remarked name text text := by
  induction text with
  | nil => exact .nil
  | cons c text ih => exact .keep c ih

theorem append {others more : List Char} (remarked : Remarked name first second)
    (later : Remarked name others more) : Remarked name (first ++ others) (second ++ more) := by
  induction remarked with
  | nil => exact later
  | keep c _ ih => exact .keep c ih
  | replace mark tags _ ih =>
    rw [List.append_assoc]
    exact .replace mark tags ih

theorem of_append {before after : List Char} (remarked : Remarked name (before ++ after) second) :
    ∃ start rest, second = start ++ rest ∧ Remarked name before start ∧ Remarked name after rest := by
  induction before generalizing second with
  | nil => exact ⟨[], second, rfl, .nil, remarked⟩
  | cons c before ih =>
    cases remarked with
    | keep _ later =>
      obtain ⟨start, rest, rfl, first, last⟩ := ih later
      exact ⟨c :: start, rest, rfl, .keep c first, last⟩
    | replace mark tags later =>
      obtain ⟨start, rest, rfl, first, last⟩ := ih later
      exact ⟨_, rest, (List.append_assoc ..).symm, .replace mark tags first, last⟩

theorem eq_of_notMem (free : ∀ mark ∈ marks, mark ∉ first) (remarked : Remarked name first second) :
    second = first := by
  induction remarked with
  | nil => rfl
  | keep c _ ih => exact congrArg (c :: ·) (ih fun mark listed mem => free mark listed (List.mem_cons_of_mem c mem))
  | replace mark tags _ _ => exact absurd List.mem_cons_self (free _ mark)

end Remarked

theorem remarked_run {name : List Char} {mark : Char} (listed : mark ∈ marks) {tags : List (Tag Char)}
    (own : ∀ tag ∈ tags, tag = .opening name [] ∨ tag = .closing name) (width : Nat) :
    Remarked name (List.replicate (width + 1) mark) (Atom.markup (tags.map .tag)) := by
  have empty : ∀ tag ∈ ([] : List (Tag Char)), tag = .opening name [] ∨ tag = .closing name := by simp
  have others : ∀ width, Remarked name (List.replicate width mark) [] := by
    intro width
    induction width with
    | zero => exact .nil
    | succ width ih => exact .replace listed empty ih
  have first := Remarked.replace listed own (others width)
  rwa [List.append_nil] at first

theorem remarked_enclosed {mark : Char} (listed : mark ∈ marks) (name : String) (width : Nat)
    (body : List Char) :
    Remarked name.toList (List.replicate (width + 1) mark ++ (body ++ List.replicate (width + 1) mark))
      (inElement name body) := by
  have starts : Remarked name.toList (List.replicate (width + 1) mark)
      (Atom.markup ([Tag.opening name.toList []].map .tag)) := remarked_run listed (by simp) width
  have ends : Remarked name.toList (List.replicate (width + 1) mark)
      (Atom.markup ([Tag.closing name.toList].map .tag)) := remarked_run listed (by simp) width
  rw [inElement_eq, Atom.element]
  exact starts.append ((Remarked.refl body).append ends)

theorem remarked_applyRule {rule : Rule} {name : String} (encloses : Encloses rule name) (text : List Char) :
    Remarked name.toList text (applyRule rule text) := by
  refine applyRule_induction (motive := fun text _ output => Remarked name.toList text output) .nil
    (fun _ c _ _ _ _ later => .keep c later) ?_ text
  intro previous c rest fit takes output found later
  obtain ⟨mark, listed, width, body, taken, written⟩ := encloses previous c rest fit found
  have whole : c :: rest = List.replicate (width + 1) mark ++
      (body ++ List.replicate (width + 1) mark) ++ rest.drop fit.taken := by
    rw [← taken, List.cons_append, List.take_append_drop]
  rw [whole, written]
  exact (remarked_enclosed listed name width body).append later

end Inline

end CodeAtlas
