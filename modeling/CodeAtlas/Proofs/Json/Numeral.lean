import CodeAtlas.Json.Reader
import Mathlib.Data.List.TakeWhile

/-!
# Numbers as written

The grammar of numbers, and the reader against it. A numeral is read as its value where the text does not go
on with it (`Numeral.readNumber?_spelled`), and whatever is read as a number is a numeral (`exists_numeral`).
-/

namespace CodeAtlas.Json

structure IsDigits (digits : List Char) : Prop where
  nonempty : digits ≠ []
  all : ∀ c ∈ digits, c.isDigit = true

/-- Whether a number may go on with `c`, whatever part of it was read last. -/
def goesOn (c : Char) : Bool :=
  c.isDigit || c == '.' || c == 'e' || c == 'E'

/-- The text does not go on with a number that was read before it. -/
def Ends (text : List Char) : Prop :=
  ∀ c ∈ text.head?, goesOn c = false

def signedValue (sign digits : List Char) : Int :=
  if sign = ['-'] then -digitsValue digits else digitsValue digits

inductive Exponent : List Char → Option Int → Prop where
  | absent : Exponent [] none
  | present {mark : Char} {sign digits : List Char} (marked : mark = 'e' ∨ mark = 'E')
      (signed : sign ∈ [[], ['-'], ['+']]) (run : IsDigits digits) :
      Exponent (mark :: (sign ++ digits)) (some (signedValue sign digits))

/-- The parts of a number as written. There are no digits after the point if there is no point. -/
structure Numeral where
  minus : Bool
  whole : List Char
  fraction : List Char
  exponent : List Char
  power : Option Int
  whole_digits : IsDigits whole
  whole_zero : whole.head? = some '0' → whole = ['0']
  fraction_digits : ∀ c ∈ fraction, c.isDigit = true
  exponent_power : Exponent exponent power

def pointed (fraction : List Char) : List Char :=
  if fraction = [] then [] else '.' :: fraction

namespace Numeral

def spelled (numeral : Numeral) : List Char :=
  (if numeral.minus then ['-'] else []) ++
    (numeral.whole ++ (pointed numeral.fraction ++ numeral.exponent))

/-- The value of a numeral, if it is one that is kept. -/
def value? (numeral : Numeral) : Option Json :=
  numberValue? numeral.minus numeral.whole numeral.fraction numeral.power numeral.spelled

end Numeral

/-! ### Runs of digits -/

theorem takeDigits_append {digits rest : List Char} (all : ∀ c ∈ digits, c.isDigit = true)
    (stops : ∀ c ∈ rest.head?, c.isDigit = false) : takeDigits (digits ++ rest) = (digits, rest) := by
  unfold takeDigits
  rw [List.takeWhile_append_of_pos all, List.dropWhile_append_of_pos all]
  cases rest with
  | nil => simp
  | cons c rest => simp [stops c rfl]

theorem eq_append_of_takeDigits {text digits rest : List Char} (taken : takeDigits text = (digits, rest)) :
    text = digits ++ rest ∧ ∀ c ∈ digits, c.isDigit = true := by
  obtain ⟨rfl, rfl⟩ := Prod.mk.inj taken
  exact ⟨List.takeWhile_append_dropWhile.symm, fun c mem => List.mem_takeWhile_imp mem⟩

theorem IsDigits.exists_cons {digits : List Char} (run : IsDigits digits) :
    ∃ c tail, digits = c :: tail ∧ c.isDigit = true := by
  obtain ⟨c, tail, rfl⟩ := List.exists_cons_of_ne_nil run.nonempty
  exact ⟨c, tail, rfl, run.all c List.mem_cons_self⟩

theorem ne_of_isDigit {c mark : Char} (digit : c.isDigit = true) (other : mark.isDigit = false) : c ≠ mark := by
  rintro rfl
  rw [digit] at other
  cases other

theorem Ends.not_digit {rest : List Char} (ends : Ends rest) : ∀ c ∈ rest.head?, c.isDigit = false := by
  intro c mem
  have stops := ends c mem
  simp only [goesOn, Bool.or_eq_false_iff] at stops
  exact stops.1.1.1

/-! ### The parts of a number -/

theorem readWhole?_append {whole rest : List Char} (run : IsDigits whole)
    (zero : whole.head? = some '0' → whole = ['0']) (stops : ∀ c ∈ rest.head?, c.isDigit = false) :
    readWhole? (whole ++ rest) = some (whole, rest) := by
  unfold readWhole?
  rw [takeDigits_append run.all stops]
  split
  · rename_i none
    exact absurd (Prod.mk.inj none).1 run.nonempty
  · rename_i one
    rw [(Prod.mk.inj one).1, (Prod.mk.inj one).2]
  · rename_i more taken
    obtain ⟨rfl, rfl⟩ := Prod.mk.inj taken
    exact absurd (List.cons.inj (zero rfl)).2 more
  · rename_i others
    rw [others]

theorem eq_append_of_readWhole? {text whole rest : List Char} (read : readWhole? text = some (whole, rest)) :
    text = whole ++ rest ∧ IsDigits whole ∧ (whole.head? = some '0' → whole = ['0']) := by
  unfold readWhole? at read
  split at read
  · cases read
  · rename_i taken
    cases read
    obtain ⟨rfl, all⟩ := eq_append_of_takeDigits taken
    exact ⟨rfl, ⟨by simp, all⟩, fun _ => rfl⟩
  · cases read
  · rename_i nonempty single several taken
    cases read
    obtain ⟨rfl, all⟩ := eq_append_of_takeDigits taken
    refine ⟨rfl, ⟨nonempty, all⟩, fun zero => ?_⟩
    obtain ⟨tail, rfl⟩ := List.head?_eq_some_iff.mp zero
    exact absurd rfl (several tail)

theorem readFraction?_append {fraction rest : List Char} (all : ∀ c ∈ fraction, c.isDigit = true)
    (stops : ∀ c ∈ rest.head?, c.isDigit = false ∧ c ≠ '.') :
    readFraction? (pointed fraction ++ rest) = some (fraction, rest) := by
  unfold pointed
  split
  · rename_i none
    subst none
    rw [List.nil_append]
    unfold readFraction?
    split
    · exact absurd rfl (stops '.' rfl).2
    · rfl
  · rename_i some
    rw [List.cons_append]
    simp only [readFraction?]
    rw [takeDigits_append all fun c mem => (stops c mem).1]
    split
    · rename_i none
      exact absurd (Prod.mk.inj none).1 some
    · rename_i taken
      rw [taken]

theorem eq_append_of_readFraction? {text fraction rest : List Char}
    (read : readFraction? text = some (fraction, rest)) :
    text = pointed fraction ++ rest ∧ ∀ c ∈ fraction, c.isDigit = true := by
  unfold readFraction? at read
  split at read
  · split at read
    · cases read
    · rename_i nonempty taken
      cases read
      obtain ⟨rfl, all⟩ := eq_append_of_takeDigits taken
      exact ⟨by rw [pointed, if_neg nonempty, List.cons_append], all⟩
  · cases read
    exact ⟨rfl, by simp⟩

theorem readSigned?_append {sign digits rest : List Char} (signed : sign ∈ [[], ['-'], ['+']])
    (run : IsDigits digits) (stops : ∀ c ∈ rest.head?, c.isDigit = false) :
    readSigned? (sign ++ digits ++ rest) = some (signedValue sign digits, rest) := by
  have taken := takeDigits_append run.all stops
  obtain ⟨c, tail, rfl, digit⟩ := run.exists_cons
  simp only [List.mem_cons, List.not_mem_nil, or_false] at signed
  rcases signed with rfl | rfl | rfl
  · have plain : c ≠ '-' ∧ c ≠ '+' := ⟨ne_of_isDigit digit rfl, ne_of_isDigit digit rfl⟩
    unfold readSigned?
    rw [List.nil_append]
    split
    rename_i minus text sign
    split at sign
    · rename_i here
      exact absurd (List.cons.inj here).1 plain.1
    · rename_i here
      exact absurd (List.cons.inj here).1 plain.2
    · cases sign
      simp only [taken]
      rfl
  · simp only [readSigned?, List.cons_append, List.nil_append] at taken ⊢
    simp only [taken]
    rfl
  · simp only [readSigned?, List.cons_append, List.nil_append] at taken ⊢
    simp only [taken]
    rfl

theorem eq_append_of_readSigned? {text rest : List Char} {value : Int}
    (read : readSigned? text = some (value, rest)) :
    ∃ sign ∈ [[], ['-'], ['+']], ∃ digits, IsDigits digits ∧ text = sign ++ digits ++ rest ∧
      value = signedValue sign digits := by
  unfold readSigned? at read
  split at read
  rename_i minus after cut
  have split : ∃ sign ∈ [[], ['-'], ['+']], text = sign ++ after ∧ minus = decide (sign = ['-']) := by
    split at cut
    all_goals cases cut
    · exact ⟨['-'], by simp, rfl, rfl⟩
    · exact ⟨['+'], by simp, rfl, rfl⟩
    · exact ⟨[], by simp, rfl, rfl⟩
  obtain ⟨sign, signed, rfl, rfl⟩ := split
  split at read
  · cases read
  · rename_i nonempty taken
    obtain ⟨rfl, all⟩ := eq_append_of_takeDigits taken
    obtain ⟨rfl, rfl⟩ := Prod.mk.inj (Option.some.inj read)
    exact ⟨sign, signed, _, ⟨nonempty, all⟩, (List.append_assoc ..).symm, by simp [signedValue]⟩

theorem readExponent?_append {exponent rest : List Char} {power : Option Int}
    (spelled : Exponent exponent power) (ends : Ends rest) :
    readExponent? (exponent ++ rest) = some (power, rest) := by
  cases spelled with
  | absent =>
    rw [List.nil_append]
    unfold readExponent?
    split
    · exact absurd (ends 'e' rfl) (by decide)
    · exact absurd (ends 'E' rfl) (by decide)
    · rfl
  | present marked signed run =>
    have read := readSigned?_append signed run ends.not_digit
    rcases marked with rfl | rfl
    · rw [List.cons_append, readExponent?, read]
      rfl
    · rw [List.cons_append, readExponent?, read]
      rfl

theorem eq_append_of_readExponent? {text rest : List Char} {power : Option Int}
    (read : readExponent? text = some (power, rest)) :
    ∃ exponent, Exponent exponent power ∧ text = exponent ++ rest := by
  unfold readExponent? at read
  split at read
  case h_3 =>
    cases read
    exact ⟨[], .absent, rfl⟩
  all_goals
    obtain ⟨⟨value, after⟩, signed, same⟩ := Option.map_eq_some_iff.mp read
    cases same
    obtain ⟨sign, listed, digits, run, rfl, rfl⟩ := eq_append_of_readSigned? signed
  · exact ⟨_, .present (.inl rfl) listed run, rfl⟩
  · exact ⟨_, .present (.inr rfl) listed run, rfl⟩

/-! ### Numbers -/

theorem Exponent.stops {exponent rest : List Char} {power : Option Int} (spelled : Exponent exponent power)
    (ends : Ends rest) : ∀ c ∈ (exponent ++ rest).head?, c.isDigit = false ∧ c ≠ '.' := by
  intro c mem
  cases spelled with
  | absent =>
    have stops := ends c mem
    simp only [goesOn, Bool.or_eq_false_iff, beq_eq_false_iff_ne] at stops
    exact ⟨stops.1.1.1, stops.1.1.2⟩
  | present marked _ _ =>
    obtain rfl := Option.some.inj mem
    rcases marked with rfl | rfl <;> decide

theorem pointed_stops (fraction : List Char) {rest : List Char} (stops : ∀ c ∈ rest.head?, c.isDigit = false) :
    ∀ c ∈ (pointed fraction ++ rest).head?, c.isDigit = false := by
  intro c mem
  unfold pointed at mem
  split at mem
  · exact stops c mem
  · obtain rfl := Option.some.inj mem
    decide

namespace Numeral

variable (numeral : Numeral)

theorem exists_spelled_cons : ∃ c tail, numeral.spelled = c :: tail ∧ (c.isDigit = true ∨ c = '-') := by
  unfold spelled
  split
  · exact ⟨_, _, rfl, .inr rfl⟩
  · obtain ⟨c, tail, whole, digit⟩ := numeral.whole_digits.exists_cons
    rw [whole]
    exact ⟨_, _, rfl, .inl digit⟩

theorem readNumber?_spelled {rest : List Char} (ends : Ends rest) :
    readNumber? (numeral.spelled ++ rest) = numeral.value?.map fun value => (value, rest) := by
  have stops := numeral.exponent_power.stops ends
  have whole := readWhole?_append numeral.whole_digits numeral.whole_zero
    (pointed_stops numeral.fraction fun c mem => (stops c mem).1)
  have fraction := readFraction?_append numeral.fraction_digits stops
  have exponent := readExponent?_append numeral.exponent_power ends
  have literal : (numeral.spelled ++ rest).take ((numeral.spelled ++ rest).length - rest.length) =
      numeral.spelled := by
    simp
  have text : numeral.spelled ++ rest = (if numeral.minus then ['-'] else []) ++
      (numeral.whole ++ (pointed numeral.fraction ++ (numeral.exponent ++ rest))) := by
    simp [spelled]
  unfold readNumber?
  split
  rename_i minus after cut
  -- What is left after the sign starts with a digit, so a minus sign in front can only be the numeral's.
  obtain ⟨rfl, rfl⟩ : minus = numeral.minus ∧
      after = numeral.whole ++ (pointed numeral.fraction ++ (numeral.exponent ++ rest)) := by
    obtain ⟨c, tail, digits, digit⟩ := numeral.whole_digits.exists_cons
    cases sign : numeral.minus with
    | true =>
      rw [sign] at text
      split at cut
      · rename_i here
        cases cut
        exact ⟨rfl, (List.cons.inj (here.symm.trans text)).2⟩
      · rename_i plain
        exact absurd text (plain _)
    | false =>
      rw [sign] at text
      split at cut
      · rename_i here
        rw [digits] at text
        exact absurd (List.cons.inj (text.symm.trans here)).1 (ne_of_isDigit digit rfl)
      · cases cut
        exact ⟨rfl, text⟩
  simp only [whole, fraction, exponent, literal, Option.bind_eq_bind, Option.bind_some]
  exact Option.map_eq_bind.symm

end Numeral

theorem exists_numeral {text rest : List Char} {value : Json} (read : readNumber? text = some (value, rest)) :
    ∃ numeral : Numeral, text = numeral.spelled ++ rest ∧ numeral.value? = some value := by
  unfold readNumber? at read
  split at read
  rename_i minus after cut
  have text_eq : text = (if minus then ['-'] else []) ++ after := by
    split at cut
    · cases cut
      rfl
    · cases cut
      rfl
  simp only [Option.bind_eq_bind, Option.bind_eq_some_iff, Prod.exists, Option.pure_def] at read
  obtain ⟨whole, afterWhole, wholeRead, fraction, afterFraction, fractionRead, power, rest', exponentRead,
    value', kept, same⟩ := read
  obtain ⟨rfl, rfl⟩ := Prod.mk.inj (Option.some.inj same)
  obtain ⟨rfl, wholeDigits, zero⟩ := eq_append_of_readWhole? wholeRead
  obtain ⟨rfl, fractionDigits⟩ := eq_append_of_readFraction? fractionRead
  obtain ⟨exponent, spelled, rfl⟩ := eq_append_of_readExponent? exponentRead
  let numeral : Numeral := ⟨minus, whole, fraction, exponent, power, wholeDigits, zero, fractionDigits, spelled⟩
  have spelled_eq : text = numeral.spelled ++ rest' := by
    simp [text_eq, numeral, Numeral.spelled]
  refine ⟨numeral, spelled_eq, ?_⟩
  rw [spelled_eq] at kept
  rw [← kept, Numeral.value?]
  simp [numeral]

end CodeAtlas.Json
