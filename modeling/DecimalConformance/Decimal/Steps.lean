import DecimalConformance.Decimal.Basic
import DecimalConformance.Decimal.Condition

/-! Steps that nothing checks.
Most exponents are added with a check or saturate; some steps are plain and rely on the guards before
them to stay in their words.  Every calculation is written over the way its plain steps are taken, so
that the engine and a watched run of it are the same program. -/
namespace DecimalConformance.Decimal

/-- The largest degree that the counter of a series holds. -/
def degreeMax : Nat := 4294967295

/-- How the plain steps of a calculation are taken. -/
structure Steps (m : Type → Type) where
  /-- To an exponent for which the operands leave room. -/
  exponent : Int → m Int
  /-- To the exponent of the guard digit of a quotient. -/
  guardDigit : Int → m Int
  /-- To the next degree in a series. -/
  degree : Nat → m Nat

/-- The steps of the engine: two kinds of them can leave their words, and all others are taken as they
come. -/
def Steps.engine : Steps (Except Condition) where
  exponent := pure
  guardDigit e := if ExponentFits e then pure e else throw .exponentExhausted
  degree n := if n ≤ degreeMax then pure n else throw .exponentExhausted

@[simp] theorem Steps.engine_exponent : Steps.engine.exponent = pure := rfl

theorem Steps.engine_guardDigit (e : Int) :
    Steps.engine.guardDigit e = if ExponentFits e then .ok e else .error .exponentExhausted := rfl

theorem Steps.engine_degree (n : Nat) :
    Steps.engine.degree n = if n ≤ degreeMax then .ok n else .error .exponentExhausted := rfl

variable {α β : Type}

@[simp] theorem pure_eq_ok (a : α) : (pure a : Except Condition α) = .ok a := rfl

@[simp] theorem throw_eq_error (reason : Condition) :
    (throw reason : Except Condition α) = .error reason := rfl

@[simp] theorem ok_bind (a : α) (f : α → Except Condition β) :
    (.ok a : Except Condition α) >>= f = f a := rfl

/-- A refusal stays the refusal that it is. -/
@[simp] theorem ofExcept_self (answer : Except Condition α) :
    (MonadExcept.ofExcept answer : Except Condition α) = answer := by
  cases answer <;> rfl

end DecimalConformance.Decimal
