import DecimalConformance.Text.BinaryFloat
import DecimalConformance.Text.Blank
import DecimalConformance.Text.Numeral

/-! The meaning of plain scalars: nothing, truth values, integers, floats, and text otherwise. -/
namespace DecimalConformance.Yaml

/-- A plain scalar by its meaning; numbers stand as their canonical text. -/
inductive Scalar where
  | null
  | bool (value : Bool)
  | number (text : String)
  | text (text : String)
  deriving DecidableEq, Repr

/-- The value of a digit in a base up to sixteen. -/
def digitIn? (base : Nat) (c : Char) : Option Nat :=
  let value? :=
    if 'a' ≤ c ∧ c ≤ 'f' then some (c.toNat - 'a'.toNat + 10)
    else if 'A' ≤ c ∧ c ≤ 'F' then some (c.toNat - 'A'.toNat + 10)
    else Text.digitValue? c
  value?.filter (· < base)

/-- The value of one digit or more. -/
def unsigned? (base : Nat) (digits : List Char) : Option Nat :=
  if digits.isEmpty then none
  else digits.foldlM (fun value c => (digitIn? base c).map (value * base + ·)) 0

/-- A run of digits that starts with a zero and is longer than it is no number. -/
def isZeroPadded : List Char → Bool
  | '0' :: c :: rest => (c :: rest).all fun c => (Text.digitValue? c).isSome
  | _ => false

/-- What stands behind an optional sign. -/
def withoutSign : List Char → List Char
  | '-' :: rest | '+' :: rest => rest
  | cs => cs

/-- The magnitude of an integer without its sign, in base sixteen, eight, two or ten. -/
def magnitude? : List Char → Option Nat
  | '0' :: 'x' :: digits => unsigned? 16 digits
  | '0' :: 'o' :: digits => unsigned? 8 digits
  | '0' :: 'b' :: digits => unsigned? 2 digits
  | digits => if isZeroPadded digits then none else unsigned? 10 digits

/-- An optionally signed integer. -/
def integer? : List Char → Option Int
  | '-' :: digits => (magnitude? digits).map fun n => -(n : Int)
  | '+' :: digits => (magnitude? digits).map fun n => (n : Int)
  | digits => (magnitude? digits).map fun n => (n : Int)

/-- A decimal with optional fraction and exponent, unsigned, as coefficient and exponent. -/
def decimal? (cs : List Char) : Option (Nat × Int) :=
  let isDigit := fun c => (Text.digitValue? c).isSome
  let whole := cs.takeWhile isDigit
  let behind := cs.dropWhile isDigit
  let (places, behind) := match behind with
    | '.' :: rest => (rest.takeWhile isDigit, rest.dropWhile isDigit)
    | rest => ([], rest)
  let exponent? : Option Int := match behind with
    | [] => some 0
    | mark :: rest =>
      if mark = 'e' ∨ mark = 'E' then
        match rest with
        | '-' :: digits => (unsigned? 10 digits).map fun n => -(n : Int)
        | '+' :: digits => (unsigned? 10 digits).map fun n => (n : Int)
        | digits => (unsigned? 10 digits).map fun n => (n : Int)
      else none
  match unsigned? 10 (whole ++ places), exponent? with
  | some c, some e => some (c, e - places.length)
  | _, _ => none

/-- The text of a float; values beyond the range are no floats. -/
def float? (cs : List Char) : Option String :=
  let unsignedFloat? (sign : String) (digits : List Char) : Option String := do
    let (c, e) ← decimal? digits
    let x ← Text.BinaryFloat.nearest? c e
    return sign ++ x.text
  match String.ofList cs with
  | ".inf" | ".Inf" | ".INF" | "+.inf" | "+.Inf" | "+.INF" => some ".inf"
  | "-.inf" | "-.Inf" | "-.INF" => some "-.inf"
  | ".nan" | ".NaN" | ".NAN" => some ".nan"
  | _ =>
    match cs with
    | '-' :: digits => unsignedFloat? "-" digits
    | '+' :: digits => unsignedFloat? "" digits
    | digits => unsignedFloat? "" digits

/-- Whether a signed or an unsigned word of this width holds the integer. -/
def fitsWord (width : Nat) (n : Int) : Bool :=
  -(Nat.pow 2 (width - 1) : Int) ≤ n && n < (Nat.pow 2 width : Int)

namespace Scalar

def ofNull? : String → Option Scalar
  | "~" | "null" | "Null" | "NULL" => some null
  | _ => none

def ofBool? : String → Option Scalar
  | "true" | "True" | "TRUE" => some (bool true)
  | "false" | "False" | "FALSE" => some (bool false)
  | _ => none

/-- An integer.  Those beyond 64 bits, but within 128, are refused; beyond that there are none. -/
def ofInteger? (plain : String) : Option (Except String Scalar) := do
  let n ← integer? plain.toList
  if fitsWord 64 n then return .ok (number (toString n))
  else if fitsWord 128 n then return .error s!"integer {n} is out of range"
  else none

def ofFloat? (plain : String) : Option Scalar := (float? plain.toList).map number

/-- The meaning of a plain text. -/
def ofPlain (plain : String) : Except String Scalar :=
  if plain.isEmpty then .ok null
  else
    match ofNull? plain <|> ofBool? plain with
    | some scalar => .ok scalar
    | none =>
      match ofInteger? plain with
      | some result => result
      | none =>
        if isZeroPadded (withoutSign plain.toList) then .ok (text plain)
        else .ok ((ofFloat? plain).getD (text plain))

end Scalar
end DecimalConformance.Yaml
