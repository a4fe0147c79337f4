import DecimalConformance.Proofs.Decimal.LiteralParts
import DecimalConformance.Proofs.Decimal.Storage
import Mathlib.Algebra.Field.Rat

/-! Numeric strings, and the literals that are read.
Every numeric string is read as what it denotes, within the bounds of exponents.  Beyond the grammar
the reader lets pass underscores behind the first digit, and a sign behind a leading point. -/
namespace DecimalConformance.Decimal

/-- A power of ten as it is written: a mark, a sign and digits. -/
structure WrittenPower where
  mark : Char
  sign : Sign
  digits : List Char
  isMark : IsMark mark
  digits_ne_nil : digits ≠ []
  isDigit_of_mem : ∀ c ∈ digits, c.isDigit = true

namespace WrittenPower

def chars (power : WrittenPower) : List Char := power.mark :: (power.sign.chars ++ power.digits)

def value (power : WrittenPower) : Int := power.sign.apply (Nat.ofDigitChars 10 power.digits 0)

/-- Written exponents are held in words of 128 bits. -/
def InBound (power : WrittenPower) : Prop :=
  Nat.ofDigitChars 10 power.digits 0 ≤ power.sign.exponentBound

end WrittenPower

/-- The point and what stands behind it, if there is one. -/
def pointChars (behind? : Option (List Char)) : List Char := behind?.elim [] ('.' :: ·)

def powerTail (power? : Option WrittenPower) : List Char := power?.elim [] WrittenPower.chars

/-- A numeric string: a sign or none, digits with at most one point before, among or behind them,
and a power of ten or none. -/
structure NumericString where
  sign : Sign
  whole : List Char
  places? : Option (List Char)
  power? : Option WrittenPower
  digits_ne_nil : whole ++ places?.getD [] ≠ []
  isDigit_of_mem : ∀ c ∈ whole ++ places?.getD [], c.isDigit = true

namespace NumericString

def chars (n : NumericString) : List Char :=
  n.sign.chars ++ n.whole ++ pointChars n.places? ++ powerTail n.power?

def text (n : NumericString) : String := String.ofList n.chars

def coefficient (n : NumericString) : Int :=
  n.sign.apply (Nat.ofDigitChars 10 (n.whole ++ n.places?.getD []) 0)

def exponent (n : NumericString) : Int :=
  n.power?.elim 0 WrittenPower.value - (n.places?.getD []).length

end NumericString

/-- A literal that is read: the sign and the digits are those of what stands before and behind the
point together. -/
structure LooseLiteral where
  before : List Char
  behind? : Option (List Char)
  power? : Option WrittenPower
  sign : Sign
  run : List Char
  parts : before ++ behind?.getD [] = sign.chars ++ run
  grouped : IsGrouped run

namespace LooseLiteral

def mantissa (l : LooseLiteral) : List Char := l.before ++ pointChars l.behind?

def chars (l : LooseLiteral) : List Char := l.mantissa ++ powerTail l.power?

def coefficient (l : LooseLiteral) : Int := l.sign.apply (runValue l.run)

/-- A sign behind the point counts as a place. -/
def places (l : LooseLiteral) : Nat := ((l.behind?.getD []).filter (· != '_')).length

def exponent (l : LooseLiteral) : Int := l.power?.elim 0 WrittenPower.value - l.places

/-- The number that is written. -/
def value (l : LooseLiteral) : ℚ := l.coefficient * 10 ^ l.exponent

/-- Nothing that is written is beyond the words that hold it. -/
structure Readable (l : LooseLiteral) : Prop where
  power : ∀ power ∈ l.power?, power.InBound
  scale : ExponentFits (-l.exponent)

/-- The range of words has one more number below zero than above it. -/
theorem Readable.exponent_le {l : LooseLiteral} (readable : l.Readable) :
    l.exponent ≤ exponentMax + 1 := by
  have scale := readable.scale
  simp only [ExponentFits, exponentMin, exponentMax] at scale ⊢
  omega

theorem mem_parts (l : LooseLiteral) {c : Char} (h : c ∈ l.before ++ l.behind?.getD []) :
    c = '+' ∨ c = '-' ∨ c = '_' ∨ c.isDigit = true := by
  rw [l.parts, List.mem_append] at h
  rcases h with sign | run
  · rcases Sign.mem_chars sign with rfl | rfl <;> simp
  · rcases l.grouped.mem run with digit | rfl <;> simp [*]

/-- No mark, point or blank stands among signs, digits and underscores. -/
theorem ne_of_mem_parts (l : LooseLiteral) {c mark : Char} (h : c ∈ l.before ++ l.behind?.getD [])
    (other : mark ∉ ['+', '-', '_']) (noDigit : mark.isDigit = false) : c ≠ mark := by
  rcases l.mem_parts h with rfl | rfl | rfl | digit
  · rintro rfl; simp at other
  · rintro rfl; simp at other
  · rintro rfl; simp at other
  · exact Text.ne_of_isDigit digit mark noDigit

theorem mem_mantissa (l : LooseLiteral) {c : Char} (h : c ∈ l.mantissa) :
    c = '.' ∨ c ∈ l.before ++ l.behind?.getD [] := by
  unfold mantissa pointChars at h
  cases behind : l.behind? with
  | none => simp_all
  | some cs =>
    rw [behind] at h
    simp only [Option.elim_some, List.mem_append, List.mem_cons] at h
    rcases h with before | point | inside
    · simp [before]
    · simp [point]
    · simp [inside]

theorem mantissa_ne_nil (l : LooseLiteral) : l.mantissa ≠ [] := by
  intro empty
  obtain ⟨first, rest, run, -⟩ := l.grouped
  have parts := l.parts
  obtain ⟨before, behind⟩ := List.append_eq_nil_iff.mp empty
  cases hb : l.behind? with
  | none => simp [before, hb, run] at parts
  | some cs => simp [hb, pointChars] at behind

private theorem splitExponent_chars (l : LooseLiteral) :
    splitExponent l.chars =
      (l.mantissa, l.power?.map fun power => power.sign.chars ++ power.digits) := by
  have noMark : ∀ c ∈ l.mantissa, ¬ IsMark c := by
    intro c hc
    rcases l.mem_mantissa hc with rfl | inside
    · simp [IsMark]
    · exact not_or.mpr ⟨l.ne_of_mem_parts inside (by decide) (by decide),
        l.ne_of_mem_parts inside (by decide) (by decide)⟩
  cases hp : l.power? with
  | none => simpa [chars, powerTail, hp] using splitExponent_of_not_isMark noMark
  | some power =>
    simpa [chars, powerTail, hp, WrittenPower.chars] using
      splitExponent_append _ noMark power.isMark

private theorem splitPoint_mantissa (l : LooseLiteral) :
    splitPoint l.mantissa = (l.sign.chars ++ l.run, l.places) := by
  have noPoint : ∀ c ∈ l.before, c ≠ '.' := fun c hc =>
    l.ne_of_mem_parts (List.mem_append_left _ hc) (by decide) (by decide)
  rw [← l.parts, mantissa, places]
  cases l.behind? with
  | none => simpa [pointChars] using splitPoint_of_not_point noPoint
  | some places => simpa [pointChars] using splitPoint_append places noPoint

end LooseLiteral

/-! ## Reading by stages -/

private theorem readNumber_eq_ok_iff_of_split {cs mantissa digits : List Char}
    {written : Option (List Char)} {places : Nat} {d : Decimal}
    (split : splitExponent cs = (mantissa, written)) (point : splitPoint mantissa = (digits, places)) :
    readNumber cs = .ok d ↔
      ∃ exponent coefficient, written.elim (.ok 0) readExponent = .ok exponent ∧ mantissa ≠ [] ∧
        ExponentFits (places - exponent) ∧ readCoefficient digits = .ok coefficient ∧
        d = ⟨coefficient, min exponentMax (exponent - places)⟩ := by
  simp only [readNumber, split, point]
  cases written.elim (.ok 0) readExponent with
  | error flaw => simp [bind, Except.bind]
  | ok exponent =>
    by_cases empty : mantissa = []
    · simp [bind, Except.bind, empty]
    · by_cases fits : ExponentFits (places - exponent)
      · cases readCoefficient digits with
        | error flaw => simp [bind, Except.bind, empty, fits]
        | ok coefficient =>
          simp only [bind, Except.bind, pure, Except.pure, List.isEmpty_iff, empty, if_false,
            if_neg (not_not.mpr fits), Except.ok.injEq, Int.neg_sub]
          constructor
          · rintro rfl
            exact ⟨_, _, rfl, empty, fits, rfl, rfl⟩
          · rintro ⟨_, _, rfl, -, -, rfl, rfl⟩
            rfl
      · simp [bind, Except.bind, empty, fits]

private theorem exists_power_of_readExponent {cs : List Char} {n : Int} {mark : Char}
    (isMark : IsMark mark) (read : readExponent cs = .ok n) :
    ∃ power : WrittenPower, power.chars = mark :: cs := by
  obtain ⟨sign, digits, rfl, filled, all, -, -⟩ := readExponent_eq_ok_iff.mp read
  exact ⟨⟨mark, sign, digits, isMark, filled, all⟩, rfl⟩

private theorem readExponent_power_eq_ok_iff {power : WrittenPower} {n : Int} :
    readExponent (power.sign.chars ++ power.digits) = .ok n ↔ power.InBound ∧ n = power.value := by
  rw [readExponent_eq_ok_iff]
  constructor
  · rintro ⟨sign, digits, same, -, all, most, rfl⟩
    obtain ⟨rfl, rfl⟩ := Sign.append_inj same power.isDigit_of_mem all
    exact ⟨most, rfl⟩
  · rintro ⟨inBound, rfl⟩
    exact ⟨_, _, rfl, power.digits_ne_nil, power.isDigit_of_mem, inBound, rfl⟩

/-- What is read behind the mark is a power of ten, and nothing is there without a mark. -/
private theorem exists_power_of_splitExponent {cs mantissa : List Char}
    {written : Option (List Char)} {n : Int} (split : splitExponent cs = (mantissa, written))
    (read : written.elim (.ok 0) readExponent = .ok n) :
    ∃ power? : Option WrittenPower, mantissa ++ powerTail power? = cs := by
  rcases splitExponent_cases cs with whole | ⟨front, mark, behind, isMark, rfl, split'⟩
  · obtain ⟨rfl, rfl⟩ := Prod.mk.inj (split.symm.trans whole)
    exact ⟨none, List.append_nil _⟩
  · obtain ⟨rfl, rfl⟩ := Prod.mk.inj (split.symm.trans split')
    obtain ⟨power, chars⟩ := exists_power_of_readExponent isMark read
    exact ⟨some power, by rw [← chars]; rfl⟩

private theorem exists_parts_of_splitPoint {mantissa digits : List Char} {places : Nat}
    (point : splitPoint mantissa = (digits, places)) :
    ∃ before behind?, mantissa = before ++ pointChars behind? ∧
      digits = before ++ behind?.getD [] := by
  rcases splitPoint_cases mantissa with whole | ⟨before, behind, rfl, point'⟩
  · obtain ⟨rfl, -⟩ := Prod.mk.inj (point.symm.trans whole)
    exact ⟨digits, none, by simp [pointChars], by simp⟩
  · obtain ⟨rfl, -⟩ := Prod.mk.inj (point.symm.trans point')
    exact ⟨before, some behind, rfl, rfl⟩

private theorem LooseLiteral.readPower_eq_ok_iff (l : LooseLiteral) {n : Int} :
    (l.power?.map fun power => power.sign.chars ++ power.digits).elim (.ok 0) readExponent = .ok n ↔
      (∀ power ∈ l.power?, power.InBound) ∧ n = l.power?.elim 0 WrittenPower.value := by
  cases l.power? with
  | none => simpa using eq_comm
  | some power => simpa using readExponent_power_eq_ok_iff

/-- A loose literal is read if it keeps within its words, as what it denotes up to the largest
exponent. -/
theorem LooseLiteral.readNumber_chars_eq_ok_iff (l : LooseLiteral) {d : Decimal} :
    readNumber l.chars = .ok d ↔
      l.Readable ∧ d = ⟨l.coefficient, min exponentMax l.exponent⟩ := by
  have coefficient : readCoefficient (l.sign.chars ++ l.run) = .ok l.coefficient :=
    readCoefficient_eq_ok_iff.mpr ⟨_, _, rfl, l.grouped, rfl⟩
  have scale : -l.exponent = l.places - l.power?.elim 0 WrittenPower.value := by
    rw [exponent, Int.neg_sub]
  rw [readNumber_eq_ok_iff_of_split l.splitExponent_chars l.splitPoint_mantissa, coefficient]
  simp only [l.readPower_eq_ok_iff]
  constructor
  · rintro ⟨_, _, ⟨inBound, rfl⟩, -, fits, read, rfl⟩
    obtain rfl := Except.ok.inj read
    exact ⟨⟨inBound, by rwa [scale]⟩, rfl⟩
  · rintro ⟨⟨inBound, fits⟩, rfl⟩
    exact ⟨_, _, ⟨inBound, rfl⟩, l.mantissa_ne_nil, by rwa [scale] at fits, rfl, rfl⟩

/-- Only loose literals are read. -/
theorem exists_looseLiteral_of_readNumber {cs : List Char} {d : Decimal}
    (read : readNumber cs = .ok d) : ∃ l : LooseLiteral, l.chars = cs := by
  obtain ⟨⟨mantissa, written⟩, split⟩ : ∃ parts, splitExponent cs = parts := ⟨_, rfl⟩
  obtain ⟨⟨digits, places⟩, point⟩ : ∃ parts, splitPoint mantissa = parts := ⟨_, rfl⟩
  obtain ⟨exponent, coefficient, readPower, -, -, readDigits, -⟩ :=
    (readNumber_eq_ok_iff_of_split split point).mp read
  obtain ⟨power?, rfl⟩ := exists_power_of_splitExponent split readPower
  obtain ⟨before, behind?, rfl, rfl⟩ := exists_parts_of_splitPoint point
  obtain ⟨sign, run, parts, grouped, -⟩ := readCoefficient_eq_ok_iff.mp readDigits
  exact ⟨⟨before, behind?, power?, sign, run, parts, grouped⟩, rfl⟩

namespace LooseLiteral

def text (l : LooseLiteral) : String := String.ofList l.chars

theorem mem_chars (l : LooseLiteral) {c : Char} (h : c ∈ l.chars) :
    c ∈ l.run ∨ c = '.' ∨ IsMark c ∨ c = '+' ∨ c = '-' ∨ c.isDigit = true := by
  rcases List.mem_append.mp h with mantissa | behind
  · rcases l.mem_mantissa mantissa with rfl | parts
    · simp
    · rw [l.parts, List.mem_append] at parts
      rcases parts with sign | run
      · rcases Sign.mem_chars sign with rfl | rfl <;> simp
      · exact .inl run
  · cases hp : l.power? with
    | none => simp [powerTail, hp] at behind
    | some power =>
      simp only [powerTail, hp, Option.elim_some, WrittenPower.chars, List.mem_cons,
        List.mem_append] at behind
      rcases behind with rfl | sign | digit
      · simp [power.isMark]
      · rcases Sign.mem_chars sign with rfl | rfl <;> simp
      · simp [power.isDigit_of_mem c digit]

private theorem isBlank_of_mem_chars (l : LooseLiteral) {c : Char} (h : c ∈ l.chars) :
    Text.isBlank c = false := by
  rcases l.mem_chars h with run | rfl | (rfl | rfl) | rfl | rfl | digit
  · rcases l.grouped.mem run with digit | rfl
    · exact Text.isBlank_of_isDigit digit
    · decide
  · decide
  · decide
  · decide
  · decide
  · decide
  · exact Text.isBlank_of_isDigit digit

/-- A loose literal is neither empty nor blank in places. -/
theorem ofLiteral_text (l : LooseLiteral) : ofLiteral l.text = readNumber l.chars := by
  have filled : l.chars.isEmpty = false := by simp [chars, l.mantissa_ne_nil]
  have noBlank : l.chars.any Text.isBlank = false :=
    List.any_eq_false.mpr fun c hc => by simp [l.isBlank_of_mem_chars hc]
  simp [ofLiteral, text, filled, noBlank]

theorem ofLiteral_text_eq_ok_iff (l : LooseLiteral) {d : Decimal} :
    ofLiteral l.text = .ok d ↔ l.Readable ∧ d = ⟨l.coefficient, min exponentMax l.exponent⟩ := by
  rw [l.ofLiteral_text, l.readNumber_chars_eq_ok_iff]

end LooseLiteral

theorem exists_looseLiteral_of_ofLiteral {literal : String} {d : Decimal}
    (read : ofLiteral literal = .ok d) : ∃ l : LooseLiteral, l.text = literal := by
  simp only [ofLiteral] at read
  split_ifs at read
  obtain ⟨l, chars⟩ := exists_looseLiteral_of_readNumber read
  exact ⟨l, by rw [LooseLiteral.text, chars, String.ofList_toList]⟩

/-! ## Numeric strings among the loose literals -/

namespace NumericString

/-- A numeric string as the reader takes it. -/
def loose (n : NumericString) : LooseLiteral where
  before := n.sign.chars ++ n.whole
  behind? := n.places?
  power? := n.power?
  sign := n.sign
  run := n.whole ++ n.places?.getD []
  parts := List.append_assoc ..
  grouped := isGrouped_of_isDigit n.digits_ne_nil n.isDigit_of_mem

theorem text_loose (n : NumericString) : n.loose.text = n.text := rfl

theorem coefficient_loose (n : NumericString) : n.loose.coefficient = n.coefficient := by
  rw [LooseLiteral.coefficient, loose, runValue, filter_digits n.isDigit_of_mem]
  rfl

theorem exponent_loose (n : NumericString) : n.loose.exponent = n.exponent := by
  rw [LooseLiteral.exponent, LooseLiteral.places, loose,
    filter_digits fun c hc => n.isDigit_of_mem c (List.mem_append_right _ hc)]
  rfl

end NumericString

/-- A literal that starts with a point and has a sign directly behind it. -/
def PointBeforeSign (cs : List Char) : Prop :=
  ∃ sign rest, (sign = '+' ∨ sign = '-') ∧ cs = '.' :: sign :: rest

namespace LooseLiteral

private theorem mem_chars_of_mem_parts (l : LooseLiteral) {c : Char}
    (h : c ∈ l.before ++ l.behind?.getD []) : c ∈ l.chars := by
  refine List.mem_append_left _ ?_
  rw [mantissa, pointChars]
  cases hb : l.behind? with
  | none => simpa [hb] using h
  | some cs =>
    rw [hb, Option.getD_some, List.mem_append] at h
    rcases h with before | behind <;> simp [*]

/-- Without underscores the run holds digits alone. -/
private theorem isDigit_of_mem_run (l : LooseLiteral) (plain : '_' ∉ l.chars) :
    ∀ c ∈ l.run, c.isDigit = true := by
  intro c hc
  have inside : c ∈ l.before ++ l.behind?.getD [] := by
    rw [l.parts]
    exact List.mem_append_right _ hc
  refine (l.grouped.mem hc).resolve_right ?_
  rintro rfl
  exact plain (l.mem_chars_of_mem_parts inside)

/-- The sign stands in front of the point, or directly behind a point that nothing precedes. -/
private theorem sign_place (l : LooseLiteral) :
    (∃ whole, l.before = l.sign.chars ++ whole ∧ l.run = whole ++ l.behind?.getD []) ∨
      PointBeforeSign l.chars := by
  have parts := l.parts
  rcases l.sign.chars_cases with unsigned | ⟨c, isSign, signed⟩
  · exact .inl ⟨l.before, by simp [unsigned], by simpa [unsigned] using parts.symm⟩
  · rw [signed, List.singleton_append] at parts
    cases front : l.before with
    | cons first whole =>
      rw [front, List.cons_append, List.cons.injEq] at parts
      obtain ⟨rfl, run⟩ := parts
      exact .inl ⟨whole, by rw [signed, List.singleton_append], run.symm⟩
    | nil =>
      rw [front, List.nil_append] at parts
      cases hb : l.behind? with
      | none => simp [hb] at parts
      | some cs =>
        rw [hb, Option.getD_some] at parts
        exact .inr ⟨c, l.run ++ powerTail l.power?, isSign,
          by simp [chars, mantissa, front, hb, pointChars, parts]⟩

/-- A loose literal with neither of the two liberties is a numeric string. -/
theorem exists_numericString (l : LooseLiteral) (plain : '_' ∉ l.chars)
    (straight : ¬ PointBeforeSign l.chars) : ∃ n : NumericString, n.text = l.text := by
  obtain ⟨whole, before, run⟩ := l.sign_place.resolve_right straight
  have digits := l.isDigit_of_mem_run plain
  obtain ⟨first, rest, filled, -⟩ := l.grouped
  refine ⟨⟨l.sign, whole, l.behind?, l.power?, ?_, by rwa [← run]⟩, ?_⟩
  · rw [← run, filled]
    exact List.cons_ne_nil first rest
  · rw [NumericString.text, NumericString.chars, text, chars, mantissa, before]

end LooseLiteral

namespace NumericString

theorem underscore_notMem_chars (n : NumericString) : '_' ∉ n.chars := by
  intro inside
  rcases n.loose.mem_chars inside with run | point | mark | sign | sign | digit
  · exact Text.ne_of_isDigit (n.isDigit_of_mem '_' run) '_' rfl rfl
  · exact absurd point (by decide)
  · exact absurd mark (by simp [IsMark])
  · exact absurd sign (by decide)
  · exact absurd sign (by decide)
  · exact absurd digit (by decide)

theorem not_pointBeforeSign (n : NumericString) : ¬ PointBeforeSign n.chars := by
  rintro ⟨c, rest, isSign, chars⟩
  have noDigit : c.isDigit ≠ true := by rcases isSign with rfl | rfl <;> decide
  have digits := n.isDigit_of_mem
  have filled := n.digits_ne_nil
  rw [NumericString.chars] at chars
  rcases n.sign.chars_cases with unsigned | ⟨sign, isSign', signed⟩
  · cases whole : n.whole with
    | cons first more =>
      have digit := digits first (by simp [whole])
      simp only [unsigned, whole, List.nil_append, List.cons_append, List.cons.injEq] at chars
      exact Text.ne_of_isDigit digit '.' rfl chars.1
    | nil =>
      cases places : n.places? with
      | none => simp [whole, places] at filled
      | some cs =>
        obtain ⟨first, more, rfl⟩ := List.exists_cons_of_ne_nil (by simpa [whole, places] using filled)
        have digit := digits first (by simp [places])
        simp only [unsigned, whole, places, pointChars, Option.elim_some, List.nil_append,
          List.cons_append, List.cons.injEq, true_and] at chars
        exact noDigit (chars.1 ▸ digit)
  · simp only [signed, List.cons_append, List.cons.injEq] at chars
    rcases isSign' with rfl | rfl <;> exact absurd chars.1 (by decide)

end NumericString

/-- Among what is read, the numeric strings are what shows neither liberty. -/
theorem LooseLiteral.exists_numericString_iff (l : LooseLiteral) :
    (∃ n : NumericString, n.text = l.text) ↔ '_' ∉ l.chars ∧ ¬ PointBeforeSign l.chars := by
  constructor
  · rintro ⟨n, same⟩
    rw [← String.ofList_inj.mp same]
    exact ⟨n.underscore_notMem_chars, n.not_pointBeforeSign⟩
  · rintro ⟨plain, straight⟩
    exact l.exists_numericString plain straight

end DecimalConformance.Decimal

namespace DecimalConformance.Engine

open Decimal

variable {text : String}

/-- A literal is read as what its parts denote, rounded to the working precision. -/
theorem readLiteral_eq_ok_iff {precision : Nat} {value : Decimal} :
    readLiteral text precision = .ok value ↔
      ∃ l : LooseLiteral, l.text = text ∧ l.Readable ∧
        value = (Decimal.round ⟨l.coefficient, min exponentMax l.exponent⟩ precision
          .nearestEven).stored := by
  constructor
  · intro read
    unfold readLiteral at read
    split at read
    · next d found =>
      obtain ⟨l, rfl⟩ := exists_looseLiteral_of_ofLiteral found
      obtain ⟨readable, rfl⟩ := l.ofLiteral_text_eq_ok_iff.mp found
      exact ⟨l, rfl, readable, (Except.ok.inj read).symm⟩
    · cases read
  · rintro ⟨l, rfl, readable, rfl⟩
    rw [readLiteral, l.ofLiteral_text_eq_ok_iff.mpr ⟨readable, rfl⟩]

/-- What is refused at one precision is refused at every precision, for one reason. -/
theorem readLiteral_of_ne_ok {precision : Nat}
    (refused : ∀ value, readLiteral text precision ≠ .ok value) :
    ∃ reason, ∀ other, readLiteral text other = .error (.unreadable text reason) := by
  unfold readLiteral at *
  cases read : ofLiteral text with
  | ok d => exact absurd (by rw [read]) (refused _)
  | error flaw => exact ⟨flaw.reason, fun _ => rfl⟩

theorem readLiteral_text_eq_ok_iff (l : LooseLiteral) {value : Decimal} :
    readLiteral l.text 0 = .ok value ↔
      l.Readable ∧ value = ⟨l.coefficient, min exponentMax l.exponent⟩ := by
  rw [← l.ofLiteral_text_eq_ok_iff, readLiteral]
  cases found : ofLiteral l.text with
  | ok d => simp [stored_of_ofLiteral found]
  | error flaw => simp

/-- A numeric string is read as the number that it denotes.  One exponent can be written that lies
beyond the largest. -/
theorem readLiteral_numericString (n : NumericString) {value : Decimal}
    (read : readLiteral n.text 0 = .ok value) :
    n.exponent ≤ exponentMax + 1 ∧ value = ⟨n.coefficient, min exponentMax n.exponent⟩ := by
  rw [← n.text_loose, readLiteral_text_eq_ok_iff, n.coefficient_loose, n.exponent_loose] at read
  exact ⟨n.exponent_loose ▸ read.1.exponent_le, read.2⟩

end DecimalConformance.Engine
