import Gatekeeper.Expr

/-!
# Walking expressions

A walk shows a visitor every node of a tree before the node's children, and the children in the
order in which they are written. Each node is shown twice, once as any node and once as a node of
its kind, with its place under its parent. The visitor's monad decides whether a walk can stop.
-/

set_option autoImplicit false

namespace Gatekeeper

inductive Field
  | object
  | property
  | callee
  | arguments
  | left
  | right
  deriving DecidableEq, Repr

def Field.text : Field → String
  | .object => "object"
  | .property => "property"
  | .callee => "callee"
  | .arguments => "arguments"
  | .left => "left"
  | .right => "right"

structure Place where
  parent : Option Expr
  field : Option Field
  index : Option Nat
  deriving Repr

namespace Place

def root : Place := ⟨none, none, none⟩

def child (parent : Expr) (field : Field) : Place := ⟨some parent, some field, none⟩

def argument (parent : Expr) (index : Nat) : Place := ⟨some parent, some .arguments, some index⟩

def isCallee (p : Place) : Bool :=
  match p.parent with
  | some (.call ..) => p.field == some .callee
  | _ => false

end Place

universe u

structure Visitor (m : Type → Type u) where
  onAny : Expr → Place → m Unit
  onNumber : Number → Place → m Unit
  onString : String → Place → m Unit
  onIdentifier : String → Place → m Unit
  onVariable : String → Place → m Unit
  onMember : Expr → Place → m Unit
  onCall : Expr → Place → m Unit
  onComparison : Expr → Place → m Unit

variable {m : Type → Type u} [Monad m]

def Visitor.indifferent : Visitor m where
  onAny _ _ := pure ()
  onNumber _ _ := pure ()
  onString _ _ := pure ()
  onIdentifier _ _ := pure ()
  onVariable _ _ := pure ()
  onMember _ _ := pure ()
  onCall _ _ := pure ()
  onComparison _ _ := pure ()

mutual

def Visitor.walk (v : Visitor m) (e : Expr) (place : Place) : m Unit := do
  v.onAny e place
  match e with
  | .number value => v.onNumber value place
  | .string value => v.onString value place
  | .identifier name => v.onIdentifier name place
  | .variable name => v.onVariable name place
  | .member object property =>
    v.onMember (.member object property) place
    v.walk object (.child (.member object property) .object)
    v.walk property (.child (.member object property) .property)
  | .call callee arguments =>
    v.onCall (.call callee arguments) place
    v.walk callee (.child (.call callee arguments) .callee)
    v.walkArguments (.call callee arguments) 0 arguments
  | .comparison operator left right =>
    v.onComparison (.comparison operator left right) place
    v.walk left (.child (.comparison operator left right) .left)
    v.walk right (.child (.comparison operator left right) .right)

def Visitor.walkArguments (v : Visitor m) (parent : Expr) (index : Nat) : List Expr → m Unit
  | [] => pure ()
  | e :: es => do
    v.walk e (.argument parent index)
    v.walkArguments parent (index + 1) es

end

def Visitor.visit (v : Visitor m) (e : Expr) : m Unit := v.walk e .root

end Gatekeeper
