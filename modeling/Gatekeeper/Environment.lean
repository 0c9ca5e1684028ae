import Gatekeeper.Error
import Gatekeeper.NameMap

/-!
# Environments

What an expression is evaluated in: the builtins an embedding program offers by name, the attributes
of the decision at hand, the variables bound so far, and the meaning of the embedding program's own
handles. Meanings are pure: a handle asked twice answers the same.
-/

set_option autoImplicit false

namespace Gatekeeper

/-- The meaning of an embedding program's functions and objects, by their keys. -/
structure Host where
  call : Nat → List Value → Except Error Value
  member : Nat → String → Option Value

def Host.bare : Host where
  call _ _ := .ok .undefined
  member _ _ := none

instance : Inhabited Host := ⟨Host.bare⟩

abbrev Builtins := NameMap Value

namespace Builtins

def standard : Builtins :=
  (NameMap.empty.insert FunctionRef.membership.name (.function .membership)).insert
    FunctionRef.addressRange.name (.function .addressRange)

def isFunction (b : Builtins) (name : String) : Bool :=
  match b.get? name with
  | some (.function _) => true
  | _ => false

end Builtins

structure DecisionInput where
  role : String
  ipAddress : String
  path : String
  deriving DecidableEq, Repr, Inhabited

namespace DecisionInput

def get (input : DecisionInput) : Attribute → String
  | .role => input.role
  | .ipAddress => input.ipAddress
  | .path => input.path

def description (input : DecisionInput) : String :=
  "DecisionInput \x7b role: " ++ quoted input.role ++ ", ip_address: " ++ quoted input.ipAddress ++
    ", path: " ++ quoted input.path ++ " \x7d"

end DecisionInput

def userVariable : String := "user"

def requestVariable : String := "request"

def contextVariables : List String := [userVariable, requestVariable]

structure Environment where
  host : Host
  builtins : Builtins
  input : DecisionInput
  bindings : NameMap Value

namespace Environment

-- The objects of the decision are not bound, so its input is out of reach.
def blank (host : Host) (builtins : Builtins) : Environment :=
  ⟨host, builtins, default, .empty⟩

def bind (env : Environment) (name : String) (value : Value) : Environment :=
  { env with bindings := env.bindings.insert name value }

def forDecision (host : Host) (builtins : Builtins) (input : DecisionInput) : Environment :=
  (({ blank host builtins with input }).bind userVariable (.object .user)).bind
    requestVariable (.object .request)

def attributeMember (input : DecisionInput) (key : String) : List Attribute → Option Value
  | [] => none
  | a :: rest =>
    if key = a.property then some (.string (input.get a))
    else if key = a.accessor then some (.function (.accessor a))
    else attributeMember input key rest

def member? (env : Environment) (handle : ObjectRef) (key : String) : Option Value :=
  match handle with
  | .user => attributeMember env.input key [.role]
  | .request => attributeMember env.input key [.ipAddress, .path]
  | .native _ id => env.host.member id key

end Environment

end Gatekeeper
