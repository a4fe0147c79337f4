import DecimalConformance.Decimal.Literal
import DecimalConformance.Proofs.Except
import DecimalConformance.Proofs.Text.Digits
import Mathlib.Data.List.TakeWhile

/-! The stages of reading a literal, each with exactly the characters that it takes.
The power of ten starts at the first mark, and the point is the first one.  Signed digits are read in
both places, but only those of the mantissa may be grouped. -/
namespace DecimalConformance.Decimal

/-- A sign in front of digits, or none. -/
inductive Sign where
  | none
  | plus
  | minus
  deriving DecidableEq, Repr

namespace Sign

def chars : Sign → List Char
  | none => []
  | plus => ['+']
  | minus => ['-']

def apply : Sign → Nat → Int
  | none, n | plus, n => n
  | minus, n => -n

/-- The magnitude that a written exponent may have behind the sign. -/
def exponentBound : Sign → Nat
  | none | plus => writtenExponentMax
  | minus => writtenExponentMax + 1

theorem chars_cases (sign : Sign) :
    sign.chars = [] ∨ ∃ c, (c = '+' ∨ c = '-') ∧ sign.chars = [c] := by
  cases sign <;> simp [chars]

theorem mem_chars {sign : Sign} {c : Char} (h : c ∈ sign.chars) : c = '+' ∨ c = '-' := by
  cases sign <;> simp_all [chars]

/-- No digits start with a sign. -/
theorem append_inj {sign sign' : Sign} {cs cs' : List Char}
    (h : sign.chars ++ cs = sign'.chars ++ cs') (digits : ∀ c ∈ cs, c.isDigit = true)
    (digits' : ∀ c ∈ cs', c.isDigit = true) : sign = sign' ∧ cs = cs' := by
  have unsigned {cs : List Char} (digits : ∀ c ∈ cs, c.isDigit = true) (behind : List Char) :
      '+' :: behind ≠ cs ∧ '-' :: behind ≠ cs := by
    constructor <;> rintro rfl <;> simp at digits
  have left := unsigned digits cs'
  have right := unsigned digits' cs
  cases sign <;> cases sign' <;> simp_all [chars]

end Sign

/-- Digits with underscores behind the first. -/
def IsGrouped (cs : List Char) : Prop :=
  ∃ first rest, cs = first :: rest ∧ first.isDigit = true ∧
    ∀ c ∈ rest, c.isDigit = true ∨ c = '_'

theorem IsGrouped.mem {cs : List Char} (h : IsGrouped cs) {c : Char} (hc : c ∈ cs) :
    c.isDigit = true ∨ c = '_' := by
  obtain ⟨first, rest, rfl, digit, others⟩ := h
  rcases List.mem_cons.mp hc with rfl | inside
  · exact .inl digit
  · exact others c inside

/-- The number that a run of digits denotes, underscores left out. -/
def runValue (cs : List Char) : Nat := Nat.ofDigitChars 10 (cs.filter (· != '_')) 0

/-- Where there are digits only, no underscore is left out. -/
theorem filter_digits {cs : List Char} (h : ∀ c ∈ cs, c.isDigit = true) :
    cs.filter (· != '_') = cs :=
  List.filter_eq_self.mpr fun c hc => by simpa using Text.ne_of_isDigit (h c hc) '_' rfl

theorem isGrouped_of_isDigit {cs : List Char} (filled : cs ≠ [])
    (h : ∀ c ∈ cs, c.isDigit = true) : IsGrouped cs := by
  obtain ⟨first, rest, rfl⟩ := List.exists_cons_of_ne_nil filled
  exact ⟨first, rest, rfl, h first (by simp), fun c hc => .inl (h c (by simp [hc]))⟩

/-- Whether a character marks the power of ten. -/
def IsMark (c : Char) : Prop := c = 'e' ∨ c = 'E'

/-! ## Splitting -/

/-- A list has a first element of some kind, or none at all. -/
private theorem first_cases (kind : Char → Bool) (cs : List Char) :
    cs.dropWhile (!kind ·) = [] ∨
      ∃ front c behind, cs = front ++ c :: behind ∧ kind c = true ∧
        cs.takeWhile (!kind ·) = front ∧ cs.dropWhile (!kind ·) = c :: behind := by
  induction cs with
  | nil => exact .inl rfl
  | cons c cs ih =>
    cases hc : kind c with
    | true => exact .inr ⟨[], c, cs, rfl, hc, by simp [hc], by simp [hc]⟩
    | false =>
      rcases ih with dropped | ⟨front, x, behind, rfl, found, taken, dropped⟩
      · exact .inl (by simpa [hc] using dropped)
      · exact .inr ⟨c :: front, x, behind, rfl, found, by simpa [hc] using taken,
          by simpa [hc] using dropped⟩

theorem splitExponent_of_not_isMark {cs : List Char} (h : ∀ c ∈ cs, ¬ IsMark c) :
    splitExponent cs = (cs, none) := by
  have all : ∀ c ∈ cs, (!(c == 'e' || c == 'E')) = true := fun c hc => by
    simpa [IsMark] using h c hc
  simp only [splitExponent, List.dropWhile_eq_nil_iff.mpr all]

theorem splitExponent_append {cs : List Char} {mark : Char} (power : List Char)
    (h : ∀ c ∈ cs, ¬ IsMark c) (hm : IsMark mark) :
    splitExponent (cs ++ mark :: power) = (cs, some power) := by
  have all : ∀ c ∈ cs, (!(c == 'e' || c == 'E')) = true := fun c hc => by
    simpa [IsMark] using h c hc
  have stop : (!(mark == 'e' || mark == 'E')) = false := by rcases hm with rfl | rfl <;> rfl
  simp only [splitExponent, List.dropWhile_append_of_pos all, List.takeWhile_append_of_pos all,
    List.dropWhile_cons, List.takeWhile_cons, stop]
  simp

/-- What stands before the mark of the power, and what stands behind it. -/
theorem splitExponent_cases (cs : List Char) :
    splitExponent cs = (cs, none) ∨
      ∃ front mark power, IsMark mark ∧ cs = front ++ mark :: power ∧
        splitExponent cs = (front, some power) := by
  rcases first_cases (fun c => c == 'e' || c == 'E') cs with
    dropped | ⟨front, mark, power, rfl, found, taken, dropped⟩
  · exact .inl (by simp only [splitExponent, dropped])
  · refine .inr ⟨front, mark, power, by simpa [IsMark] using found, rfl, ?_⟩
    simp only [splitExponent, dropped, taken]

theorem splitPoint_of_not_point {cs : List Char} (h : ∀ c ∈ cs, c ≠ '.') :
    splitPoint cs = (cs, 0) := by
  have all : ∀ c ∈ cs, (c != '.') = true := fun c hc => by simpa using h c hc
  simp only [splitPoint, List.dropWhile_eq_nil_iff.mpr all]

theorem splitPoint_append {cs : List Char} (places : List Char) (h : ∀ c ∈ cs, c ≠ '.') :
    splitPoint (cs ++ '.' :: places) = (cs ++ places, (places.filter (· != '_')).length) := by
  have all : ∀ c ∈ cs, (c != '.') = true := fun c hc => by simpa using h c hc
  simp only [splitPoint, List.dropWhile_append_of_pos all, List.takeWhile_append_of_pos all,
    List.dropWhile_cons, List.takeWhile_cons]
  simp

theorem splitPoint_cases (cs : List Char) :
    splitPoint cs = (cs, 0) ∨
      ∃ front places, cs = front ++ '.' :: places ∧
        splitPoint cs = (front ++ places, (places.filter (· != '_')).length) := by
  rcases first_cases (· == '.') cs with dropped | ⟨front, point, places, rfl, found, taken, dropped⟩
  · exact .inl (by simp only [splitPoint, bne, dropped])
  · obtain rfl : point = '.' := by simpa using found
    refine .inr ⟨front, places, rfl, ?_⟩
    simp only [splitPoint, bne, dropped, taken]

/-! ## Reading signed digits -/

private theorem readCoefficient_of_isDigit {first : Char} (rest : List Char)
    (digit : first.isDigit = true) :
    readCoefficient (first :: rest) = (readGrouped (first :: rest)).map fun n => (n : Int) := by
  unfold readCoefficient
  split
  · next digits heq =>
    cases heq
    exact absurd digit (by decide)
  · next digits heq =>
    cases heq
    exact absurd digit (by decide)
  · rfl

private theorem groupedValue_from_eq_some_iff {cs : List Char} {value n : Nat} :
    cs.foldlM (fun value c => if c = '_' then some value
      else (Text.digitValue? c).map (value * 10 + ·)) value = some n ↔
      (∀ c ∈ cs, c.isDigit = true ∨ c = '_') ∧
        n = Nat.ofDigitChars 10 (cs.filter (· != '_')) value := by
  induction cs generalizing value with
  | nil => simpa using eq_comm
  | cons c cs ih =>
    rw [List.foldlM_cons]
    by_cases group : c = '_'
    · simp [group, ih]
    · cases digit : c.isDigit with
      | false => simp [group, digit, Text.digitValue?_of_not_isDigit digit]
      | true =>
        simp [group, digit, Text.digitValue?_of_isDigit digit, ih, Nat.ofDigitChars_cons,
          Nat.mul_comm]

/-- Digits are read with their groups, which do not count. -/
theorem readGrouped_eq_ok_iff {cs : List Char} {n : Nat} :
    readGrouped cs = .ok n ↔ IsGrouped cs ∧ n = runValue cs := by
  constructor
  · intro read
    unfold readGrouped at read
    split at read
    · cases read
    · cases read
    · next filled ungrouped =>
      cases value : groupedValue cs with
      | none =>
        rw [value] at read
        cases read
      | some m =>
        rw [value] at read
        obtain rfl := Except.ok.inj read
        obtain ⟨digits, rfl⟩ := groupedValue_from_eq_some_iff.mp value
        obtain ⟨first, rest, rfl⟩ := List.exists_cons_of_ne_nil filled
        have digit : first.isDigit = true :=
          (digits first (by simp)).resolve_right fun group => ungrouped rest (by rw [group])
        exact ⟨⟨first, rest, rfl, digit, fun c hc => digits c (by simp [hc])⟩, rfl⟩
  · rintro ⟨⟨first, rest, rfl, digit, others⟩, rfl⟩
    have digits : ∀ c ∈ first :: rest, c.isDigit = true ∨ c = '_' :=
      List.forall_mem_cons.mpr ⟨.inl digit, others⟩
    have value : groupedValue (first :: rest) = some (runValue (first :: rest)) :=
      groupedValue_from_eq_some_iff.mpr ⟨digits, rfl⟩
    unfold readGrouped
    split
    · contradiction
    · next heq =>
      cases heq
      exact absurd digit (by decide)
    · rw [value]
      rfl

/-- A coefficient is a sign and grouped digits behind it. -/
theorem readCoefficient_eq_ok_iff {cs : List Char} {n : Int} :
    readCoefficient cs = .ok n ↔
      ∃ (sign : Sign) (run : List Char), cs = sign.chars ++ run ∧ IsGrouped run ∧
        n = sign.apply (runValue run) := by
  constructor
  · intro read
    unfold readCoefficient at read
    split at read
    all_goals
      obtain ⟨m, lifted, rfl⟩ := exists_of_map_eq_ok read
      obtain ⟨value, found, cast⟩ := exists_of_bind_eq_ok lifted
      obtain rfl := Except.ok.inj cast
      obtain ⟨grouped, rfl⟩ := readGrouped_eq_ok_iff.mp found
    · exact ⟨.minus, _, rfl, grouped, rfl⟩
    · exact ⟨.plus, _, rfl, grouped, rfl⟩
    · exact ⟨.none, _, rfl, grouped, rfl⟩
  · rintro ⟨sign, run, rfl, grouped, rfl⟩
    have read := readGrouped_eq_ok_iff.mpr ⟨grouped, rfl⟩
    cases sign with
    | none =>
      obtain ⟨first, rest, rfl, digit, -⟩ := grouped
      rw [Sign.chars, List.nil_append, readCoefficient_of_isDigit rest digit, read]
      rfl
    | plus | minus =>
      rw [Sign.chars, List.singleton_append, readCoefficient, read]
      rfl

/-- The digits of a written exponent, up to a bound. -/
private def boundedDigits (bound : Nat) (tooLong : Flaw) (digits : List Char) : Except Flaw Nat :=
  match Text.readNumeral bound digits with
  | .ok n => .ok n
  | .error .aboveBound => .error tooLong
  | .error _ => .error .notDigit

private theorem boundedDigits_eq_ok_iff {bound n : Nat} {tooLong : Flaw} {digits : List Char} :
    boundedDigits bound tooLong digits = .ok n ↔
      digits ≠ [] ∧ (∀ c ∈ digits, c.isDigit = true) ∧ Nat.ofDigitChars 10 digits 0 = n ∧
        n ≤ bound := by
  rw [← Text.readNumeral_eq_ok_iff, boundedDigits]
  cases Text.readNumeral bound digits with
  | ok m => simp
  | error flaw => cases flaw <;> simp

private theorem readExponent_plus (digits : List Char) :
    readExponent ('+' :: digits) =
      (boundedDigits Sign.plus.exponentBound .exponentTooLarge digits).map fun n => (n : Int) := rfl

private theorem readExponent_minus (digits : List Char) :
    readExponent ('-' :: digits) =
      (boundedDigits Sign.minus.exponentBound .exponentTooSmall digits).map
        fun n => -(n : Int) := rfl

private theorem readExponent_of_isDigit {first : Char} (rest : List Char)
    (digit : first.isDigit = true) :
    readExponent (first :: rest) =
      (boundedDigits Sign.none.exponentBound .exponentTooLarge (first :: rest)).map
        fun n => (n : Int) := by
  unfold readExponent
  split
  · contradiction
  · next heq =>
    cases heq
    exact absurd digit (by decide)
  · next heq =>
    cases heq
    exact absurd digit (by decide)
  · rfl

/-- Digits behind the letter E are read with their sign, up to a bound. -/
theorem readExponent_eq_ok_iff {cs : List Char} {n : Int} :
    readExponent cs = .ok n ↔
      ∃ (sign : Sign) (digits : List Char), cs = sign.chars ++ digits ∧ digits ≠ [] ∧
        (∀ c ∈ digits, c.isDigit = true) ∧ Nat.ofDigitChars 10 digits 0 ≤ sign.exponentBound ∧
        n = sign.apply (Nat.ofDigitChars 10 digits 0) := by
  constructor
  · intro read
    unfold readExponent at read
    dsimp only at read
    split at read
    · cases read
    all_goals
      obtain ⟨m, lifted, rfl⟩ := exists_of_map_eq_ok read
      obtain ⟨value, found, cast⟩ := exists_of_bind_eq_ok lifted
      obtain rfl := Except.ok.inj cast
      obtain ⟨filled, digits, rfl, most⟩ := boundedDigits_eq_ok_iff.mp found
    · exact ⟨.minus, _, rfl, filled, digits, most, rfl⟩
    · exact ⟨.plus, _, rfl, filled, digits, most, rfl⟩
    · exact ⟨.none, _, rfl, filled, digits, most, rfl⟩
  · rintro ⟨sign, digits, rfl, filled, all, most, rfl⟩
    have read (tooLong : Flaw) : boundedDigits sign.exponentBound tooLong digits =
        .ok (Nat.ofDigitChars 10 digits 0) := boundedDigits_eq_ok_iff.mpr ⟨filled, all, rfl, most⟩
    cases sign with
    | none =>
      obtain ⟨first, rest, rfl⟩ := List.exists_cons_of_ne_nil filled
      rw [Sign.chars, List.nil_append, readExponent_of_isDigit rest (all first (by simp)), read]
      rfl
    | plus =>
      rw [Sign.chars, List.singleton_append, readExponent_plus, read]
      rfl
    | minus =>
      rw [Sign.chars, List.singleton_append, readExponent_minus, read]
      rfl

end DecimalConformance.Decimal
