import Gatekeeper.Address.Range
import Gatekeeper.Environment

/-!
# Evaluation

The value of an expression in an environment, or the first error from the left. A bare word that no
builtin has stands for itself. A member that is a function is called there and then, with no
arguments, so accessors read like properties. A variable bound to nothing counts as unbound.
-/

set_option autoImplicit false

namespace Gatekeeper

def isMember : List Value → Bool
  | [] => false
  | v :: candidates => candidates.any (fun c => c.same v)

def isInAddressRange : List Value → Bool
  | .string address :: ranges => (ranges.filterMap Value.string?).any (inAddressRange address)
  | _ => false

namespace Environment

def apply (env : Environment) (f : FunctionRef) (arguments : List Value) : Except Error Value :=
  match f with
  | .membership => .ok (.bool (isMember arguments))
  | .addressRange => .ok (.bool (isInAddressRange arguments))
  | .accessor a => .ok (.string (env.input.get a))
  | .native _ key => env.host.call key arguments

def memberKey (property : Expr) : Value → Except Error String
  | .string key => .ok key
  | other =>
    match property.identifier? with
    | some name => .ok name
    | none => .error (.execution (.invalidMemberKey other))

def readMember (env : Environment) (target : Value) (key : String) : Except Error Value :=
  match target with
  | .object handle => .ok ((env.member? handle key).getD .undefined)
  | .undefined => .error (.execution (.memberOfUndefined key))
  | _ => .ok .undefined

def readVariable (env : Environment) (name : String) : Except Error Value :=
  match env.bindings.get? name with
  | none => .error (.execution (.unresolvedVariable name))
  | some .undefined => .error (.execution (.unresolvedVariable name))
  | some value => .ok value

end Environment

def Operator.apply (op : Operator) (left right : Value) : Bool :=
  match op with
  | .equal => left.same right
  | .unequal => !left.same right

mutual

def evaluate (env : Environment) : Expr → Except Error Value
  | .number value => .ok (.number value)
  | .string value => .ok (.string value)
  | .identifier name => .ok ((env.builtins.get? name).getD (.string name))
  | .variable name => env.readVariable name
  | .member object property => do
    let target ← evaluate env object
    let key ← Environment.memberKey property (← evaluate env property)
    match ← env.readMember target key with
    | .function accessor => env.apply accessor []
    | value => return value
  | .call callee arguments => do
    match ← evaluate env callee with
    | .function f => env.apply f (← evaluateAll env arguments)
    | _ => throw (.execution (.notAFunction callee))
  | .comparison operator left right => do
    let left ← evaluate env left
    let right ← evaluate env right
    return .bool (operator.apply left right)

def evaluateAll (env : Environment) : List Expr → Except Error (List Value)
  | [] => .ok []
  | e :: es => do
    let value ← evaluate env e
    let values ← evaluateAll env es
    return value :: values

end

end Gatekeeper
