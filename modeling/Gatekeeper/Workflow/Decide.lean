import Gatekeeper.Eval
import Gatekeeper.Workflow

/-!
# Decisions

A workflow that does not cover the path allows. Else its parameters are bound one after another in
a fresh environment and its rules are evaluated there, up to the first that does not pass. What
passes depends on the fold: only true, or everything but false.
-/

set_option autoImplicit false

namespace Gatekeeper

inductive RuleFold
  | strict
  | loose
  deriving DecidableEq, Repr, Inhabited

namespace RuleFold

def text : RuleFold → String
  | .strict => "strict"
  | .loose => "loose"

def ofText? (s : String) : Option RuleFold :=
  if s = strict.text then some .strict
  else if s = loose.text then some .loose
  else none

def passes (fold : RuleFold) (value : Value) : Bool :=
  match fold, value with
  | .strict, .bool b => b
  | .strict, _ => false
  | .loose, .bool b => b
  | .loose, _ => true

end RuleFold

structure Resolution where
  env : Environment
  outcome : Except Error Unit

namespace Workflow

def bindParams (env : Environment) : List Definition → Resolution
  | [] => ⟨env, .ok ()⟩
  | p :: ps =>
    match evaluate env p.tree with
    | .ok value => bindParams (env.bind p.name value) ps
    | .error e => ⟨env, .error e⟩

def resolveParams (w : Workflow) (env : Environment) : Resolution := bindParams env w.params

def allPass (env : Environment) (fold : RuleFold) : List Definition → Except Error Bool
  | [] => .ok true
  | r :: rs => do
    let value ← evaluate env r.tree
    if fold.passes value then allPass env fold rs else return false

def execute (w : Workflow) (host : Host) (builtins : Builtins) (fold : RuleFold)
    (input : DecisionInput) : Except Error Bool := do
  let resolved := w.resolveParams (.forDecision host builtins input)
  resolved.outcome
  allPass resolved.env fold w.rules

def appliesTo (w : Workflow) (path : String) : Bool := w.pattern.covers path

def decide (w : Workflow) (host : Host) (builtins : Builtins) (fold : RuleFold)
    (input : DecisionInput) : Except Error Bool :=
  if w.appliesTo input.path then w.execute host builtins fold input else .ok true

end Workflow

end Gatekeeper
