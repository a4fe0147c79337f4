import DecimalConformance.Proofs.Decimal.LiteralParts

/-! Literals in parts: a sign, digits before and behind the point, and a power of ten.
Reading the characters of the parts gives the coefficient and the exponent that the parts denote,
whichever letter marks the power. -/
namespace DecimalConformance.Decimal

/-- The unsigned part of a literal: digits before and behind the point, and the power of ten.
Where there are no digits behind the point there is no point. -/
structure Layout where
  whole : List Char
  places : List Char
  power : Option Int
  deriving DecidableEq

/-- A literal in parts. -/
structure Spelling extends Layout where
  negative : Bool
  whole_ne_nil : whole ≠ []
  isDigit_of_mem : ∀ c ∈ whole ++ places, c.isDigit = true

/-- The point and the digits behind it. -/
def pointed (places : List Char) : List Char := if places = [] then [] else '.' :: places

/-- A power of ten with its sign behind the letter that marks it. -/
def powerChars (mark : Char) : Option Int → List Char
  | none => []
  | some n => mark :: (if n < 0 then '-' else '+') :: Nat.toDigits 10 n.natAbs

def Layout.chars (mark : Char) (layout : Layout) : List Char :=
  layout.whole ++ pointed layout.places ++ powerChars mark layout.power

namespace Spelling

def mantissaChars (s : Spelling) : List Char :=
  (if s.negative then ['-'] else []) ++ (s.whole ++ pointed s.places)

def chars (mark : Char) (s : Spelling) : List Char := s.mantissaChars ++ powerChars mark s.power

def magnitude (s : Spelling) : Nat := Nat.ofDigitChars 10 (s.whole ++ s.places) 0

def coefficient (s : Spelling) : Int := if s.negative then -(s.magnitude : Int) else s.magnitude

def exponent (s : Spelling) : Int := s.power.getD 0 - s.places.length

private theorem mem_mantissaChars {s : Spelling} {c : Char} (h : c ∈ s.mantissaChars) :
    c = '-' ∨ c = '.' ∨ c.isDigit = true := by
  simp only [mantissaChars, pointed, List.mem_append] at h
  rcases h with sign | whole | places
  · split at sign <;> simp_all
  · exact .inr (.inr (s.isDigit_of_mem c (by simp [whole])))
  · split at places
    · cases places
    · rcases List.mem_cons.mp places with point | place
      · exact .inr (.inl point)
      · exact .inr (.inr (s.isDigit_of_mem c (by simp [place])))

private theorem mem_powerChars {mark c : Char} {power : Option Int}
    (h : c ∈ powerChars mark power) : c = mark ∨ c = '-' ∨ c = '+' ∨ c.isDigit = true := by
  cases power with
  | none => cases h
  | some n =>
    rcases List.mem_cons.mp h with rfl | h
    · exact .inl rfl
    · rcases List.mem_cons.mp h with rfl | digit
      · split <;> simp
      · exact .inr (.inr (.inr (Nat.isDigit_of_mem_toDigits (by omega) (by omega) digit)))

/-- A literal holds nothing but digits and four kinds of marks. -/
theorem mem_chars {s : Spelling} {mark c : Char} (h : c ∈ s.chars mark) :
    c = '-' ∨ c = '.' ∨ c = '+' ∨ c = mark ∨ c.isDigit = true := by
  rcases List.mem_append.mp h with mantissa | power
  · rcases mem_mantissaChars mantissa with h | h | h <;> simp [h]
  · rcases mem_powerChars power with h | h | h | h <;> simp [h]

/-- The sign in front of the digits. -/
private def sign (s : Spelling) : Sign := if s.negative then .minus else .none

private theorem splitExponent_chars (s : Spelling) {mark : Char} (hm : IsMark mark) :
    splitExponent (s.chars mark) =
      (s.mantissaChars, s.power.map fun n => (if n < 0 then '-' else '+') :: Nat.toDigits 10 n.natAbs)
      := by
  have noMark : ∀ c ∈ s.mantissaChars, ¬ IsMark c := by
    intro c hc
    rcases mem_mantissaChars hc with rfl | rfl | digit
    · simp [IsMark]
    · simp [IsMark]
    · exact not_or.mpr ⟨Text.ne_of_isDigit digit 'e' rfl, Text.ne_of_isDigit digit 'E' rfl⟩
  cases hp : s.power with
  | none => simpa [chars, powerChars, hp] using splitExponent_of_not_isMark noMark
  | some n => simpa [chars, powerChars, hp] using splitExponent_append _ noMark hm

private theorem readExponent_toDigits {n : Int} (h : n.natAbs ≤ writtenExponentMax) :
    readExponent ((if n < 0 then '-' else '+') :: Nat.toDigits 10 n.natAbs) = .ok n := by
  have digits : ∀ c ∈ Nat.toDigits 10 n.natAbs, c.isDigit = true :=
    fun c hc => Nat.isDigit_of_mem_toDigits (by omega) (by omega) hc
  have value : Nat.ofDigitChars 10 (Nat.toDigits 10 n.natAbs) 0 = n.natAbs :=
    Nat.ofDigitChars_ten_toDigits
  refine readExponent_eq_ok_iff.mpr ⟨if n < 0 then .minus else .plus, Nat.toDigits 10 n.natAbs, ?_,
    Nat.toDigits_ne_nil, digits, ?_, ?_⟩
  · split <;> rfl
  · rw [value]
    split <;> simp only [Sign.exponentBound] <;> omega
  · rw [value]
    split <;> simp only [Sign.apply] <;> omega

private theorem splitPoint_mantissaChars (s : Spelling) :
    splitPoint s.mantissaChars = (s.sign.chars ++ (s.whole ++ s.places), s.places.length) := by
  have signed : (if s.negative then ['-'] else []) = s.sign.chars := by
    unfold sign
    split <;> rfl
  have front : ∀ c ∈ s.sign.chars ++ s.whole, c ≠ '.' := by
    intro c hc
    rcases List.mem_append.mp hc with sign | whole
    · rcases Sign.mem_chars sign with rfl | rfl <;> decide
    · exact Text.ne_of_isDigit (s.isDigit_of_mem c (by simp [whole])) '.' rfl
  have counted : s.places.filter (· != '_') = s.places :=
    filter_digits fun c hc => s.isDigit_of_mem c (by simp [hc])
  rw [mantissaChars, pointed, signed, ← List.append_assoc, ← List.append_assoc]
  by_cases noPlaces : s.places = []
  · simpa [noPlaces] using splitPoint_of_not_point front
  · rw [if_neg noPlaces, splitPoint_append s.places front, counted]

private theorem readCoefficient_digits (s : Spelling) :
    readCoefficient (s.sign.chars ++ (s.whole ++ s.places)) = .ok s.coefficient := by
  have grouped := isGrouped_of_isDigit (by simp [s.whole_ne_nil]) s.isDigit_of_mem
  refine readCoefficient_eq_ok_iff.mpr ⟨s.sign, _, rfl, grouped, ?_⟩
  rw [runValue, filter_digits s.isDigit_of_mem, coefficient, magnitude, sign]
  split <;> rfl

/-- Reading the characters of the parts gives what the parts denote. -/
theorem readNumber_chars (s : Spelling) {mark : Char} (hm : mark = 'e' ∨ mark = 'E')
    (hp : (s.power.getD 0).natAbs ≤ writtenExponentMax) (hs : ExponentFits (-s.exponent)) :
    readNumber (s.chars mark) = .ok ⟨s.coefficient, min exponentMax s.exponent⟩ := by
  have written : (s.power.map fun n => (if n < 0 then '-' else '+') :: Nat.toDigits 10 n.natAbs).elim
      (.ok 0) readExponent = .ok (s.power.getD 0) := by
    cases hpower : s.power with
    | none => rfl
    | some n => exact readExponent_toDigits (by simpa [hpower] using hp)
  have mantissa : s.mantissaChars.isEmpty = false := by
    simp [mantissaChars, s.whole_ne_nil]
  have scale : (s.places.length : Int) - s.power.getD 0 = -s.exponent := by
    simp only [exponent]
    omega
  simp only [readNumber, splitExponent_chars s hm, written, splitPoint_mantissaChars]
  simp [bind, Except.bind, mantissa, scale, hs, readCoefficient_digits, pure, Except.pure]

/-- Literals with the same characters denote the same coefficient, have as many places and the same
power of ten. -/
theorem eq_parts_of_chars_eq {s t : Spelling} (h : s.chars 'E' = t.chars 'E')
    (hs : (s.power.getD 0).natAbs ≤ writtenExponentMax)
    (ht : (t.power.getD 0).natAbs ≤ writtenExponentMax) :
    s.coefficient = t.coefficient ∧ s.places.length = t.places.length ∧ s.power = t.power := by
  have mark : 'E' = 'e' ∨ 'E' = 'E' := .inr rfl
  have split := splitExponent_chars s mark
  rw [h, splitExponent_chars t mark] at split
  obtain ⟨mantissa, power⟩ := Prod.mk.inj split
  have point := splitPoint_mantissaChars s
  rw [← mantissa, splitPoint_mantissaChars t] at point
  obtain ⟨digits, places⟩ := Prod.mk.inj point
  have coefficient := readCoefficient_digits s
  rw [← digits, readCoefficient_digits t] at coefficient
  refine ⟨(Except.ok.inj coefficient).symm, places.symm, ?_⟩
  cases hsp : s.power with
  | none => cases htp : t.power with
    | none => rfl
    | some m => simp [hsp, htp] at power
  | some n => cases htp : t.power with
    | none => simp [hsp, htp] at power
    | some m =>
      simp only [hsp, htp, Option.map_some, Option.some.injEq] at power
      have read := readExponent_toDigits (n := n) (by simpa [hsp] using hs)
      rw [← power, readExponent_toDigits (n := m) (by simpa [htp] using ht)] at read
      exact congrArg some (Except.ok.inj read).symm

/-- A literal is ASCII text without white space. -/
theorem isAscii_of_mem_chars {s : Spelling} {mark c : Char} (hm : mark = 'e' ∨ mark = 'E')
    (h : c ∈ s.chars mark) : c.toNat < 128 ∧ Text.isBlank c = false := by
  rcases mem_chars h with rfl | rfl | rfl | rfl | digit
  · decide
  · decide
  · decide
  · rcases hm with rfl | rfl <;> decide
  · exact ⟨Text.toNat_lt_of_isDigit digit, Text.isBlank_of_isDigit digit⟩

/-- A literal in parts is neither empty nor blank in places. -/
theorem ofLiteral_chars (s : Spelling) {mark : Char} (hm : mark = 'e' ∨ mark = 'E') :
    ofLiteral (String.ofList (s.chars mark)) = readNumber (s.chars mark) := by
  have filled : (s.chars mark).isEmpty = false := by
    simp [chars, mantissaChars, s.whole_ne_nil]
  have noBlank : (s.chars mark).any Text.isBlank = false := by
    refine List.any_eq_false.mpr fun c hc => ?_
    simp [(isAscii_of_mem_chars hm hc).2]
  simp [ofLiteral, filled, noBlank]

/-- In lower case only the mark of the power changes. -/
theorem map_toLower_chars (s : Spelling) : (s.chars 'E').map Char.toLower = s.chars 'e' := by
  have fixed : ∀ cs : List Char, (∀ c ∈ cs, c.toLower = c) → cs.map Char.toLower = cs :=
    fun cs h => (List.map_congr_left h).trans (List.map_id cs)
  have mantissa : s.mantissaChars.map Char.toLower = s.mantissaChars := by
    refine fixed _ fun c hc => ?_
    rcases mem_mantissaChars hc with rfl | rfl | digit
    · decide
    · decide
    · exact Text.toLower_of_isDigit digit
  have power : (powerChars 'E' s.power).map Char.toLower = powerChars 'e' s.power := by
    cases s.power with
    | none => rfl
    | some n =>
      have digits : (Nat.toDigits 10 n.natAbs).map Char.toLower = Nat.toDigits 10 n.natAbs :=
        fixed _ fun c hc => Text.toLower_of_isDigit
          (Nat.isDigit_of_mem_toDigits (by omega) (by omega) hc)
      have sign : (if n < 0 then '-' else '+').toLower = if n < 0 then '-' else '+' := by
        split <;> decide
      simp only [powerChars, List.map_cons, digits, sign]
      rfl
  rw [chars, List.map_append, mantissa, power, chars]

end Spelling
end DecimalConformance.Decimal
