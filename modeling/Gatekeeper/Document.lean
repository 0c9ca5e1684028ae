import Gatekeeper.Error
import Gatekeeper.Environment
import Gatekeeper.Text.Blank

/-!
# Policy documents

A document names the path it protects and declares, by name and source text, the parameters that
are read from the decision's context and the rules that must pass. This module says which documents
are structurally sound, and which fault is reported first; it reads no expression.
-/

set_option autoImplicit false

namespace Gatekeeper

structure Declaration where
  name : String
  expression : String
  deriving DecidableEq, Repr, Inhabited

structure Document where
  id : UInt64
  name : String
  path : String
  params : List Declaration
  rules : List Declaration
  deriving DecidableEq, Repr, Inhabited

def policyId (id : UInt64) : String := toString id.toNat

def isVariableName (name : String) : Bool :=
  !name.toList.isEmpty && name.toList.all isWordChar

namespace Document

def paramFault? (earlier : List String) (index : Nat) : List Declaration → Option DocumentFault
  | [] => none
  | p :: ps =>
    if !isVariableName p.name then some (.invalidParamName index p.name)
    else if contextVariables.contains p.name then some (.shadowingParam p.name)
    else if earlier.contains p.name then some (.repeatedParam p.name)
    else if allBlank p.expression then some (.blankParam p.name)
    else paramFault? (p.name :: earlier) (index + 1) ps

def ruleFault? (index : Nat) : List Declaration → Option DocumentFault
  | [] => none
  | r :: rs =>
    if allBlank r.name then some (.blankRuleName index)
    else if allBlank r.expression then some (.blankRule r.name)
    else ruleFault? (index + 1) rs

def fault? (d : Document) : Option DocumentFault :=
  if allBlank d.name then some .blankName
  else if allBlank d.path then some .blankPath
  else (paramFault? [] 0 d.params).or (ruleFault? 0 d.rules)

def validate (d : Document) : Except Error Unit :=
  match d.fault? with
  | some fault => .error (.invalidDocument fault)
  | none => .ok ()

end Document

end Gatekeeper
