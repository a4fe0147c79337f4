import DecimalConformance.Engine.Trace

/-! The operations that test lines may name, and their application to operands. -/
namespace DecimalConformance

/-- An operation of either arity. -/
inductive Operation where
  | unary (operation : UnaryOp)
  | binary (operation : BinaryOp)
  deriving DecidableEq, Repr

namespace Operation

/-- Every operation with its name in scripts. -/
def table : List (String × Operation) :=
  [("abs", .unary .abs), ("exp", .unary .exp), ("ln", .unary .ln),
   ("squareroot", .unary .squareRoot), ("add", .binary .add), ("subtract", .binary .subtract),
   ("multiply", .binary .multiply), ("divide", .binary .divide), ("power", .binary .power),
   ("remainder", .binary .remainder), ("max", .binary .max), ("min", .binary .min),
   ("compare", .binary .compare)]

/-- The names in the order of the table. -/
def names : List String := table.map Prod.fst

/-- The operation of this name. -/
def ofName? (name : String) : Option Operation := table.lookup name

/-- The name of an operation in scripts. -/
def name : Operation → String
  | .unary .abs => "abs"
  | .unary .exp => "exp"
  | .unary .ln => "ln"
  | .unary .squareRoot => "squareroot"
  | .binary .add => "add"
  | .binary .subtract => "subtract"
  | .binary .multiply => "multiply"
  | .binary .divide => "divide"
  | .binary .power => "power"
  | .binary .remainder => "remainder"
  | .binary .max => "max"
  | .binary .min => "min"
  | .binary .compare => "compare"

/-- Every operation is found under its own name. -/
theorem ofName?_name (operation : Operation) : ofName? operation.name = some operation := by
  rcases operation with op | op <;> cases op <;> decide

/-- The names are exactly those that an operation is found under. -/
theorem mem_names {name : String} : name ∈ names ↔ (ofName? name).isSome := by
  simp [names, ofName?, List.lookup_isSome_iff]

/-- The number of operands. -/
def arity : Operation → Nat
  | .unary _ => 1
  | .binary _ => 2

/-- Applies an operation; another number of operands than its own is an invalid operation
that the engine never sees. -/
def apply {Value : Type} (engine : Engine Value) (operation : Operation) (operands : List Value)
    (context : Context) : Traced Value (Except Condition Value) :=
  match operation, operands with
  | .unary op, [x] => engine.tracedUnary op x context
  | .binary op, [x, y] => engine.tracedBinary op x y context
  | op, values => pure (.error (.invalidOperation
      s!"{op.name} takes {op.arity} operand(s), got {values.length}"))

end Operation
end DecimalConformance
