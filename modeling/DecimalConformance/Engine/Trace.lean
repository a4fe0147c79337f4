import DecimalConformance.Engine.Basic

/-! Answers of an engine together with the calls that led to them.
Code that reaches an engine only through these calls cannot hide one. -/
namespace DecimalConformance

/-- One call of an engine. -/
inductive Call (Value : Type) where
  | parse (literal : String) (precision : Nat)
  | round (value : Value) (context : Context)
  | unary (operation : UnaryOp) (operand : Value) (context : Context)
  | binary (operation : BinaryOp) (left right : Value) (context : Context)
  | render (value : Value)
  deriving DecidableEq, Repr

/-- An answer and the calls made for it, in order. -/
structure Traced (Value α : Type) where
  calls : List (Call Value)
  answer : α
  deriving DecidableEq, Repr

namespace Traced

variable {Value α β : Type}

instance : Monad (Traced Value) where
  pure a := ⟨[], a⟩
  bind x f := ⟨x.calls ++ (f x.answer).calls, (f x.answer).answer⟩

@[simp] theorem calls_pure (a : α) : (pure a : Traced Value α).calls = [] := rfl

@[simp] theorem answer_pure (a : α) : (pure a : Traced Value α).answer = a := rfl

@[simp] theorem calls_bind (x : Traced Value α) (f : α → Traced Value β) :
    (x >>= f).calls = x.calls ++ (f x.answer).calls := rfl

@[simp] theorem answer_bind (x : Traced Value α) (f : α → Traced Value β) :
    (x >>= f).answer = (f x.answer).answer := rfl

end Traced

namespace Engine

variable {Value : Type} (engine : Engine Value)

def tracedParse (literal : String) (precision : Nat) : Traced Value (Except Condition Value) :=
  ⟨[.parse literal precision], engine.parse literal precision⟩

def tracedRound (value : Value) (context : Context) : Traced Value Value :=
  ⟨[.round value context], engine.round value context⟩

def tracedRender (value : Value) : Traced Value String :=
  ⟨[.render value], engine.render value⟩

def tracedUnary (operation : UnaryOp) (x : Value) (context : Context) :
    Traced Value (Except Condition Value) :=
  ⟨[.unary operation x context], engine.unary operation x context⟩

def tracedBinary (operation : BinaryOp) (x y : Value) (context : Context) :
    Traced Value (Except Condition Value) :=
  ⟨[.binary operation x y context], engine.binary operation x y context⟩

end Engine
end DecimalConformance
