import CodeAtlas.Json.Writer
import CodeAtlas.Proofs.Json.Numeral

/-!
# Reading back what is written

`Readable` says which values some text is read as (`readable_of_read?`). Each of them is read from its compact
form (`Readable.read?_write`). It does not depend on the order of fields, so an object put together from
fields that were read can be written and read as well.
-/

namespace CodeAtlas.Json

/-- A value that some text is read as, its containers nested at most `depth` deep. -/
inductive Readable : (depth : Nat) → Json → Prop where
  | null {depth : Nat} : Readable depth .null
  | bool {depth : Nat} (value : Bool) : Readable depth (.bool value)
  | natural {depth n : Nat} (small : n < UInt64.size) : Readable depth (.natural n)
  | negative {depth n : Nat} (positive : 0 < n) (small : n ≤ UInt64.size / 2) : Readable depth (.negative n)
  | decimal {depth : Nat} (numeral : Numeral)
      (kept : numeral.value? = some (.decimal (String.ofList numeral.spelled))) :
      Readable depth (.decimal (String.ofList numeral.spelled))
  | string {depth : Nat} (value : String) : Readable depth (.string value)
  | array {depth : Nat} {items : List Json} (readable : ∀ item ∈ items, Readable depth item) :
      Readable (depth + 1) (.array items)
  | object {depth : Nat} {fields : Fields} (readable : ∀ field ∈ fields, Readable depth field.2) :
      Readable (depth + 1) (.object fields)

/-! ### Values that were read -/

theorem readable_of_value? {numeral : Numeral} {value : Json} (kept : numeral.value? = some value)
    (depth : Nat) : Readable depth value := by
  have opened := kept
  unfold Numeral.value? numberValue? at opened
  dsimp only at opened
  split at opened
  · rename_i small
    cases opened
    simp only [Bool.and_eq_true, decide_eq_true_eq] at small
    exact .natural small.2
  · split at opened
    · rename_i small
      cases opened
      simp only [Bool.and_eq_true, decide_eq_true_eq] at small
      exact .negative small.1.2 small.2
    · split at opened
      · cases opened
        exact .decimal numeral kept
      · cases opened

section Items

variable {α : Type} {item? : List Char → Option (α × List Char)} {close : Char}

theorem mem_of_readItemsFrom? {done items : List α} {steps : Nat} {text rest : List Char}
    (read : readItemsFrom? item? close done steps text = some (items, rest)) :
    ∀ item ∈ items, item ∈ done ∨ ∃ text rest, item? text = some (item, rest) := by
  induction steps generalizing done text with
  | zero => cases read
  | succ steps ih =>
    unfold readItemsFrom? at read
    split at read
    · cases read
    · rename_i first after here
      have read_first : ∀ item ∈ first :: done, item ∈ done ∨ ∃ text rest, item? text = some (item, rest) := by
        intro item mem
        rcases List.mem_cons.mp mem with rfl | before
        · exact .inr ⟨_, _, here⟩
        · exact .inl before
      split at read
      · intro item mem
        rcases ih read item mem with before | found
        · exact read_first item before
        · exact .inr found
      · split at read
        · cases read
          intro item mem
          exact read_first item (List.mem_reverse.mp mem)
        · cases read
      · cases read

theorem exists_of_readItems? {items : List α} {text rest : List Char}
    (read : readItems? item? close text = some (items, rest)) :
    ∀ item ∈ items, ∃ text rest, item? text = some (item, rest) := by
  intro item mem
  unfold readItems? at read
  split at read
  · split at read
    · cases read
      cases mem
    · exact (mem_of_readItemsFrom? read item mem).resolve_left (by simp)
  · cases read

end Items

theorem exists_of_readField? {value? : List Char → Option (Json × List Char)} {field : String × Json}
    {text rest : List Char} (read : readField? value? text = some (field, rest)) :
    ∃ text rest, value? text = some (field.2, rest) := by
  unfold readField? at read
  simp only [Option.bind_eq_bind, Option.bind_eq_some_iff, Prod.exists] at read
  obtain ⟨name, after, -, read⟩ := read
  split at read
  · simp only [Option.bind_eq_some_iff, Prod.exists] at read
    obtain ⟨value, after, found, same⟩ := read
    cases same
    exact ⟨_, _, found⟩
  · cases read

theorem readable_of_readValue? {depth : Nat} {text rest : List Char} {value : Json}
    (read : readValue? depth text = some (value, rest)) : Readable depth value := by
  induction depth using Nat.strong_induction_on generalizing text rest value with
  | _ depth ih =>
    unfold readValue? at read
    split at read
    · obtain ⟨_, _, same⟩ := Option.map_eq_some_iff.mp read
      cases same
      exact .null
    · obtain ⟨_, _, same⟩ := Option.map_eq_some_iff.mp read
      cases same
      exact .bool true
    · obtain ⟨_, _, same⟩ := Option.map_eq_some_iff.mp read
      cases same
      exact .bool false
    · obtain ⟨_, _, same⟩ := Option.map_eq_some_iff.mp read
      cases same
      exact .string _
    · split at read
      · cases read
      · rename_i depth
        obtain ⟨⟨items, after⟩, found, same⟩ := Option.map_eq_some_iff.mp read
        cases same
        refine .array fun item mem => ?_
        obtain ⟨_, _, here⟩ := exists_of_readItems? found item mem
        exact ih depth (Nat.lt_succ_self depth) here
    · split at read
      · cases read
      · rename_i depth
        obtain ⟨⟨fields, after⟩, found, same⟩ := Option.map_eq_some_iff.mp read
        cases same
        refine .object fun field mem => ?_
        obtain ⟨_, _, here⟩ := exists_of_readItems? found field mem
        obtain ⟨_, _, inside⟩ := exists_of_readField? here
        exact ih depth (Nat.lt_succ_self depth) inside
    · -- Whatever starts in another way can only be a number.
      obtain ⟨numeral, _, kept⟩ := exists_numeral read
      exact readable_of_value? kept depth

/-! ### Numbers -/

theorem digitsValue_toDigits (n : Nat) : digitsValue (Nat.toDigits 10 n) = n := by
  have value := Nat.ofDigitChars_toDigits (b := 10) (n := n) (by decide) (by decide)
  rw [Nat.ofDigitChars_eq_foldl] at value
  simpa only [digitsValue, Nat.mul_comm] using value

theorem isDigits_toDigits (n : Nat) : IsDigits (Nat.toDigits 10 n) :=
  ⟨Nat.toDigits_ne_nil, fun _ mem => Nat.isDigit_of_mem_toDigits (by decide) (by decide) mem⟩

/-- A number is written without leading zeros. -/
theorem toDigits_eq_zero {n : Nat} (zero : (Nat.toDigits 10 n).head? = some '0') : Nat.toDigits 10 n = ['0'] := by
  induction n using Nat.strong_induction_on with
  | _ n ih =>
    by_cases small : n < 10
    · rw [Nat.toDigits_of_lt_base small] at zero ⊢
      rw [Option.some.inj zero]
    · -- The first digit of `n` is that of `n / 10`, so if it is zero then `n / 10` is.
      obtain ⟨c, tail, tens, _⟩ := (isDigits_toDigits (n / 10)).exists_cons
      rw [Nat.toDigits_of_base_le (by decide) (by omega), tens] at zero
      have value := digitsValue_toDigits (n / 10)
      rw [ih (n / 10) (by omega) (tens ▸ zero)] at value
      have positive : 0 < n / 10 := by omega
      exact absurd (value ▸ positive) (by decide)

def Numeral.ofInteger (minus : Bool) (n : Nat) : Numeral where
  minus := minus
  whole := Nat.toDigits 10 n
  fraction := []
  exponent := []
  power := none
  whole_digits := isDigits_toDigits n
  whole_zero := toDigits_eq_zero
  fraction_digits := by simp
  exponent_power := .absent

theorem Numeral.spelled_ofInteger (minus : Bool) (n : Nat) :
    (Numeral.ofInteger minus n).spelled = (if minus then ['-'] else []) ++ Nat.toDigits 10 n := by
  cases minus <;> simp [Numeral.spelled, Numeral.ofInteger, pointed]

theorem value?_natural {n : Nat} (small : n < UInt64.size) :
    (Numeral.ofInteger false n).value? = some (.natural n) := by
  simp [Numeral.value?, Numeral.ofInteger, numberValue?, digitsValue_toDigits, small]

theorem value?_negative {n : Nat} (positive : 0 < n) (small : n ≤ UInt64.size / 2) :
    (Numeral.ofInteger true n).value? = some (.negative n) := by
  simp [Numeral.value?, Numeral.ofInteger, numberValue?, digitsValue_toDigits, small, positive]

/-! ### Strings -/

theorem hexValue?_hexDigit : ∀ n < 16, hexValue? (hexDigit n) = some n := by
  decide

theorem readEscape?_control {c : Char} (control : c.toNat < 0x20) (tail : List Char) :
    readEscape? ('u' :: '0' :: '0' :: hexDigit (c.toNat / 16) :: hexDigit (c.toNat % 16) :: tail) =
      some (c, tail) := by
  have zero : hexValue? '0' = some 0 := rfl
  have high := hexValue?_hexDigit (c.toNat / 16) (by omega)
  have low := hexValue?_hexDigit (c.toNat % 16) (by omega)
  have unit : ((0 * 16 + 0) * 16 + c.toNat / 16) * 16 + c.toNat % 16 = c.toNat := by omega
  simp only [readEscape?, readUnicode?, readUnit?, zero, high, low, Option.bind_eq_bind, Option.bind_some,
    Option.pure_def, unit]
  rw [if_neg (by simp; omega), if_neg (by simp; omega), Char.ofNat_toNat]

theorem readStringFrom?_writeChar (c : Char) (done : List Char) (steps : Nat) (tail : List Char) :
    readStringFrom? done (steps + 1) (writeChar c ++ tail) = readStringFrom? (c :: done) steps tail := by
  unfold writeChar
  split
  case h_8 quote backslash _ _ _ _ _ =>
    split
    · rename_i control
      simp only [List.cons_append, List.nil_append, readStringFrom?, readEscape?_control control]
    · rename_i printed
      rw [List.singleton_append, readStringFrom?, if_neg printed]
      · exact quote
      · exact backslash
  all_goals rfl

theorem length_le_flatMap {α β : Type} {spell : α → List β} (nonempty : ∀ item, spell item ≠ [])
    (items : List α) : items.length ≤ (items.flatMap spell).length := by
  induction items with
  | nil => simp
  | cons item items ih =>
    have := List.length_pos_iff.mpr (nonempty item)
    simp only [List.flatMap_cons, List.length_cons, List.length_append]
    omega

theorem writeChar_ne_nil (c : Char) : writeChar c ≠ [] := by
  unfold writeChar
  repeat' split
  all_goals simp

theorem readStringFrom?_written (chars done : List Char) {steps : Nat} (enough : chars.length < steps)
    (rest : List Char) :
    readStringFrom? done steps (chars.flatMap writeChar ++ '"' :: rest) =
      some (String.ofList (done.reverse ++ chars), rest) := by
  induction chars generalizing done steps with
  | nil =>
    obtain ⟨steps, rfl⟩ := Nat.exists_eq_add_one_of_ne_zero (Nat.ne_of_gt enough)
    rw [List.append_nil]
    rfl
  | cons c chars ih =>
    rw [List.length_cons] at enough
    obtain ⟨steps, rfl⟩ : ∃ more, steps = more + 1 := ⟨steps - 1, by omega⟩
    rw [List.flatMap_cons, List.append_assoc, readStringFrom?_writeChar, ih (c :: done) (by omega),
      List.reverse_cons, List.append_assoc, List.singleton_append]

theorem readString?_writeString (s : String) (rest : List Char) :
    readString? (writeString s ++ rest) = some (s, rest) := by
  have length := length_le_flatMap writeChar_ne_nil s.toList
  rw [writeString, List.cons_append, List.append_assoc, List.singleton_append, readString?,
    readStringFrom?_written s.toList [] (by simp only [List.length_append, List.length_cons]; omega)]
  simp

/-! ### Containers -/

theorem skipSpace_cons {c : Char} (plain : isSpace c = false) (text : List Char) :
    skipSpace (c :: text) = c :: text := by
  simp [skipSpace, plain]

theorem Ends.cons {c : Char} (ends : goesOn c = false) (rest : List Char) : Ends (c :: rest) := by
  intro d mem
  obtain rfl := Option.some.inj mem
  exact ends

def spellItems {α : Type} (spell : α → List Char) (close : Char) : List α → List Char
  | [] => [close]
  | first :: items => spell first ++ (items.flatMap (fun item => ',' :: spell item) ++ [close])

section Items

variable {α : Type} {item? : List Char → Option (α × List Char)} {spell : α → List Char} {close : Char}
  (closes : close = ']' ∨ close = '}')

include closes

theorem readItemsFrom?_spelled {first : α} {items : List α}
    (reads : ∀ item ∈ first :: items, ∀ rest, Ends rest → item? (spell item ++ rest) = some (item, rest))
    (done : List α) {steps : Nat} (enough : items.length < steps) (rest : List Char) :
    readItemsFrom? item? close done steps
        (spell first ++ (items.flatMap (fun item => ',' :: spell item) ++ close :: rest)) =
      some (done.reverse ++ first :: items, rest) := by
  induction items generalizing first done steps with
  | nil =>
    obtain ⟨steps, rfl⟩ := Nat.exists_eq_add_one_of_ne_zero (Nat.ne_of_gt enough)
    have ends : Ends (close :: rest) := .cons (by rcases closes with rfl | rfl <;> decide) rest
    unfold readItemsFrom?
    rw [List.flatMap_nil, List.nil_append, reads first List.mem_cons_self _ ends]
    rcases closes with rfl | rfl <;> simp [skipSpace, isSpace]
  | cons next items ih =>
    rw [List.length_cons] at enough
    obtain ⟨steps, rfl⟩ : ∃ more, steps = more + 1 := ⟨steps - 1, by omega⟩
    have fewer : items.length < steps := by omega
    have later := ih (fun item mem => reads item (List.mem_cons_of_mem _ mem)) (first :: done) fewer
    rw [List.reverse_cons, List.append_assoc, List.singleton_append] at later
    unfold readItemsFrom?
    -- The item ends where the comma stands, also if it is a number.
    rw [List.flatMap_cons, List.cons_append, List.cons_append, List.append_assoc,
      reads first List.mem_cons_self _ (.cons (by decide) _)]
    dsimp only
    rw [skipSpace_cons (by decide)]
    exact later

theorem readItems?_spelled {items : List α}
    (reads : ∀ item ∈ items, ∀ rest, Ends rest → item? (spell item ++ rest) = some (item, rest))
    (starts : ∀ item ∈ items, ∃ c tail, spell item = c :: tail ∧ isSpace c = false ∧ c ∉ [']', '}'])
    (rest : List Char) :
    readItems? item? close (spellItems spell close items ++ rest) = some (items, rest) := by
  unfold readItems?
  cases items with
  | nil =>
    rw [spellItems, List.singleton_append,
      skipSpace_cons (by rcases closes with rfl | rfl <;> decide)]
    exact if_pos (beq_self_eq_true close)
  | cons first items =>
    obtain ⟨c, tail, spelled, plain, other⟩ := starts first List.mem_cons_self
    have inside : ¬ (c == close) = true := by
      intro same
      rw [eq_of_beq same] at other
      rcases closes with rfl | rfl <;> simp at other
    have length : items.length ≤ (items.flatMap fun item => ',' :: spell item).length :=
      length_le_flatMap (fun _ => List.cons_ne_nil _ _) items
    have enough : items.length <
        (spell first ++ (items.flatMap (fun item => ',' :: spell item) ++ close :: rest)).length := by
      simp only [List.length_append, List.length_cons]
      omega
    have read := readItemsFrom?_spelled closes reads [] enough rest
    rw [spellItems, List.append_assoc, List.append_assoc, List.singleton_append]
    split
    · rename_i here
      rw [spelled, List.cons_append, skipSpace_cons plain] at here
      cases here
      rw [if_neg inside]
      exact read
    · rename_i here
      rw [spelled, List.cons_append, skipSpace_cons plain] at here
      cases here

end Items

/-! ### Values -/

def writeField (field : String × Json) : List Char :=
  writeString field.1 ++ ':' :: write field.2

theorem writeItems_eq (items : List Json) :
    writeItems items = items.flatMap (fun item => ',' :: write item) ++ [']'] := by
  induction items with
  | nil => simp [writeItems]
  | cons item items ih => simp [writeItems, ih]

theorem writeFields_eq (fields : Fields) :
    writeFields fields = fields.flatMap (fun field => ',' :: writeField field) ++ ['}'] := by
  induction fields with
  | nil => simp [writeFields]
  | cons field fields ih => simp [writeFields, writeField, ih]

theorem write_array (items : List Json) : write (.array items) = '[' :: spellItems write ']' items := by
  cases items with
  | nil => simp [write, spellItems]
  | cons item items => simp [write, spellItems, writeItems_eq]

theorem write_object (fields : Fields) : write (.object fields) = '{' :: spellItems writeField '}' fields := by
  cases fields with
  | nil => simp [write, spellItems]
  | cons field fields => simp [write, spellItems, writeFields_eq, writeField]

theorem readField?_writeField {value? : List Char → Option (Json × List Char)} {field : String × Json}
    {rest : List Char} (read : value? (write field.2 ++ rest) = some (field.2, rest)) :
    readField? value? (writeField field ++ rest) = some (field, rest) := by
  have name := readString?_writeString field.1 (':' :: (write field.2 ++ rest))
  unfold readField?
  rw [writeField, List.append_assoc, List.cons_append]
  have start : skipSpace (writeString field.1 ++ ':' :: (write field.2 ++ rest)) =
      writeString field.1 ++ ':' :: (write field.2 ++ rest) := skipSpace_cons (by decide) _
  rw [start, name]
  simp only [Option.bind_eq_bind, Option.bind_some]
  rw [skipSpace_cons (by decide)]
  simp only [read, Option.bind_some]
  rfl

theorem readWord?_append (word : String) (rest : List Char) : readWord? word (word.toList ++ rest) = some rest :=
  Text.dropRun?_eq_some_iff.mpr rfl

/-- The characters that a value other than a number starts with, and the closing brackets. -/
def marks : List Char :=
  ['n', 't', 'f', '"', '[', '{', ']', '}']

theorem plain_of_number_start {c : Char} (starts : c.isDigit = true ∨ c = '-') :
    isSpace c = false ∧ c ∉ marks := by
  have none : ([' ', '\n', '\t', '\r'] ++ marks).all (fun d => !d.isDigit && d != '-') = true := by decide
  have apart : ∀ d ∈ [' ', '\n', '\t', '\r'] ++ marks, c ≠ d := by
    rintro d mem rfl
    have other := List.all_eq_true.mp none c mem
    rcases starts with digit | rfl
    · rw [digit] at other
      cases other
    · cases other
  refine ⟨?_, fun mem => apart c (List.mem_append_right _ mem) rfl⟩
  simp [isSpace, apart]

/-- A text that starts as a number does is read as one. -/
theorem readValue?_number {c : Char} (starts : c.isDigit = true ∨ c = '-') (depth : Nat) (text : List Char) :
    readValue? depth (c :: text) = readNumber? (c :: text) := by
  obtain ⟨plain, other⟩ := plain_of_number_start starts
  unfold readValue?
  rw [skipSpace_cons plain]
  split
  case h_7 => rfl
  all_goals
    rename_i here
    exact absurd (List.cons.inj here).1 fun same => other (same ▸ by decide)

theorem Numeral.readValue?_spelled {numeral : Numeral} {value : Json} (kept : numeral.value? = some value)
    (depth : Nat) {rest : List Char} (ends : Ends rest) :
    readValue? depth (numeral.spelled ++ rest) = some (value, rest) := by
  have read := numeral.readNumber?_spelled ends
  obtain ⟨c, tail, spelled, starts⟩ := numeral.exists_spelled_cons
  rw [spelled, List.cons_append] at read ⊢
  rw [readValue?_number starts, read, kept]
  rfl

theorem Numeral.exists_spelled_plain (numeral : Numeral) :
    ∃ c tail, numeral.spelled = c :: tail ∧ isSpace c = false ∧ c ∉ [']', '}'] := by
  obtain ⟨c, tail, spelled, starts⟩ := numeral.exists_spelled_cons
  obtain ⟨plain, other⟩ := plain_of_number_start starts
  exact ⟨c, tail, spelled, plain, fun mem => other (List.mem_append_right (marks.take 6) mem)⟩

theorem write_natural (n : Nat) : write (.natural n) = (Numeral.ofInteger false n).spelled :=
  (Numeral.spelled_ofInteger false n).symm

theorem write_negative (n : Nat) : write (.negative n) = (Numeral.ofInteger true n).spelled :=
  (Numeral.spelled_ofInteger true n).symm

theorem Readable.exists_write_cons {depth : Nat} {value : Json} (readable : Readable depth value) :
    ∃ c tail, write value = c :: tail ∧ isSpace c = false ∧ c ∉ [']', '}'] := by
  cases readable with
  | null => exact ⟨_, _, rfl, by decide, by decide⟩
  | bool value => cases value <;> exact ⟨_, _, rfl, by decide, by decide⟩
  | natural => rw [write_natural]; exact Numeral.exists_spelled_plain _
  | negative => rw [write_negative]; exact Numeral.exists_spelled_plain _
  | decimal numeral => rw [write, String.toList_ofList]; exact numeral.exists_spelled_plain
  | string => exact ⟨_, _, rfl, by decide, by decide⟩
  | array => rw [write_array]; exact ⟨_, _, rfl, by decide, by decide⟩
  | object => rw [write_object]; exact ⟨_, _, rfl, by decide, by decide⟩

/-- The compact form of a value is read as the value, whatever text follows that is not part of a number. -/
theorem Readable.readValue?_write {depth : Nat} {value : Json} (readable : Readable depth value) :
    ∀ rest, Ends rest → readValue? depth (write value ++ rest) = some (value, rest) := by
  induction readable with
  | null =>
    intro rest _
    rw [write, readValue?]
    exact congrArg (Option.map fun rest => (Json.null, rest)) (readWord?_append "ull" rest)
  | bool value =>
    intro rest _
    cases value with
    | false =>
      rw [write, readValue?]
      exact congrArg (Option.map fun rest => (Json.bool false, rest)) (readWord?_append "alse" rest)
    | true =>
      rw [write, readValue?]
      exact congrArg (Option.map fun rest => (Json.bool true, rest)) (readWord?_append "rue" rest)
  | natural small =>
    intro rest ends
    rw [write_natural]
    exact Numeral.readValue?_spelled (value?_natural small) _ ends
  | negative positive small =>
    intro rest ends
    rw [write_negative]
    exact Numeral.readValue?_spelled (value?_negative positive small) _ ends
  | decimal numeral kept =>
    intro rest ends
    rw [write, String.toList_ofList]
    exact Numeral.readValue?_spelled kept _ ends
  | string value =>
    intro rest _
    have read := readString?_writeString value rest
    rw [write, readValue?]
    exact congrArg (Option.map fun found => (Json.string found.1, found.2)) read
  | array readable ih =>
    intro rest _
    have read := readItems?_spelled (.inl rfl) ih (fun item mem => (readable item mem).exists_write_cons) rest
    rw [write_array, List.cons_append, readValue?]
    exact congrArg (Option.map fun found => (Json.array found.1, found.2)) read
  | object readable ih =>
    intro rest _
    have read := readItems?_spelled (.inr rfl)
      (fun field mem rest ends => readField?_writeField (ih field mem rest ends))
      (fun field _ => ⟨'"', _, rfl, by decide, by decide⟩) rest
    rw [write_object, List.cons_append, readValue?]
    exact congrArg (Option.map fun found => (Json.object found.1, found.2)) read

/-! ### Whole texts -/

theorem readable_of_read? {text : List Char} {value : Json} (read : read? text = some value) :
    Readable maxDepth value := by
  unfold read? at read
  split at read
  · rename_i found rest here
    split at read
    · cases read
      exact readable_of_readValue? here
    · cases read
  · cases read

theorem Readable.read?_write {value : Json} (readable : Readable maxDepth value) :
    read? (write value) = some value := by
  have read := readable.readValue?_write [] (by simp [Ends])
  rw [List.append_nil] at read
  unfold read?
  rw [read]
  rfl

end CodeAtlas.Json
