import Gatekeeper.Document
import Gatekeeper.Expr.Parse
import Gatekeeper.Expr.Walk
import Gatekeeper.PathPattern

/-!
# Workflows

A workflow is a document whose expressions have been read and checked. A parameter is a path of
members from a word or from a variable that is bound before it; a rule reads declared parameters
only and calls builtin functions only, by name. The first offending expression is the error, the
parameters coming before the rules.
-/

set_option autoImplicit false

namespace Gatekeeper

structure Definition where
  name : String
  expression : String
  tree : Expr
  deriving Repr, Inhabited

structure Workflow where
  id : UInt64
  name : String
  pattern : PathPattern
  params : List Definition
  rules : List Definition
  deriving Repr, Inhabited

namespace Workflow

abbrev Check := Visitor (Except Error)

def refuse (fault : CompilationFault) : Except Error Unit := .error (.compilation fault)

def checkVariable (visible : List String) (name : String) : Except Error Unit :=
  if visible.contains name then .ok () else refuse (.undeclaredVariable name)

def paramCheck (visible : List String) : Check :=
  { Visitor.indifferent with
    onAny := fun e _ =>
      match e.kind with
      | .member => .ok ()
      | .variable => .ok ()
      | .identifier => .ok ()
      | other => refuse (.notPrimary other)
    onVariable := fun name _ => checkVariable visible name }

def checkCallee : Expr → Except Error Unit
  | .call callee _ =>
    if callee.identifier?.isNone then refuse (.calleeNotNamed callee.kind) else .ok ()
  | _ => .ok ()

def ruleCheck (builtins : Builtins) (declared : List String) : Check :=
  { Visitor.indifferent with
    onCall := fun e _ => checkCallee e
    onIdentifier := fun name place =>
      if place.isCallee && !builtins.isFunction name then refuse (.undefinedFunction name)
      else .ok ()
    onVariable := fun name _ => checkVariable declared name }

def define (check : Check) (d : Declaration) : Except Error Definition := do
  let tree ← Expr.parse d.expression
  check.visit tree
  return ⟨d.name, d.expression, tree⟩

def defineParams (visible : List String) : List Declaration → Except Error (List Definition)
  | [] => .ok []
  | p :: ps => do
    let param ← define (paramCheck visible) p
    let params ← defineParams (p.name :: visible) ps
    return param :: params

def defineRules (check : Check) : List Declaration → Except Error (List Definition)
  | [] => .ok []
  | r :: rs => do
    let rule ← define check r
    let rules ← defineRules check rs
    return rule :: rules

def compile (d : Document) (builtins : Builtins) : Except Error Workflow := do
  d.validate
  let params ← defineParams contextVariables d.params
  let rules ← defineRules (ruleCheck builtins (d.params.map (·.name))) d.rules
  return ⟨d.id, d.name, ⟨d.path⟩, params, rules⟩

def policyId (w : Workflow) : String := Gatekeeper.policyId w.id

end Workflow

end Gatekeeper
