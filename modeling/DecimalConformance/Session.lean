import DecimalConformance.Dialect
import DecimalConformance.Engine.Basic

/-! The session: precision and rounding as the directives left them.
Directives change it, tests only read it, and it outlives a source. -/
namespace DecimalConformance

structure Session where
  precision : Nat
  rounding : RoundingMode
  /-- The rounding token as the script declared it. -/
  declared : String
  /-- Whether tests are skipped because the declared rounding is unsupported. -/
  skipping : Bool
  deriving DecidableEq, Repr

namespace Session

/-- A session under a mode that the engine supports. -/
def start (precision : Nat) (rounding : RoundingMode) : Session :=
  ⟨precision, rounding, rounding.token, false⟩

def setPrecision (session : Session) (precision : Nat) : Session :=
  { session with precision }

/-- Declares a rounding.  An unsupported one leaves the mode as it was, and nothing uses the
mode until a supported one is declared. -/
def setRounding (session : Session) (token : String) : RoundingDirective → Session
  | .mode rounding => { session with rounding, declared := token, skipping := false }
  | .unsupported => { session with declared := token, skipping := true }

/-- What the engine is told. -/
def context (session : Session) : Context := ⟨session.precision, session.rounding⟩

end Session
end DecimalConformance
