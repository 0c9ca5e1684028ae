import Gatekeeper.Number.Shortest
import Gatekeeper.Text.Quoted

/-!
# Values

What expressions evaluate to. Functions and objects are handles: two of them are the same value
when they are the same handle, and what a handle does is not part of the value. The handles are the
two functions every program may call, the accessors and objects of the decision at hand, and those
of the embedding program, which are told apart by a key.
-/

set_option autoImplicit false

namespace Gatekeeper

inductive Attribute
  | role
  | ipAddress
  | path
  deriving DecidableEq, Repr

def Attribute.property : Attribute → String
  | .role => "role"
  | .ipAddress => "ipAddress"
  | .path => "path"

def Attribute.accessor : Attribute → String
  | .role => "getRole"
  | .ipAddress => "getIpAddress"
  | .path => "getPath"

inductive FunctionRef
  | membership
  | addressRange
  | accessor (subject : Attribute)
  | native (name : String) (key : Nat)
  deriving DecidableEq, Repr

def FunctionRef.name : FunctionRef → String
  | .membership => "in"
  | .addressRange => "ip_range"
  | .accessor subject => subject.accessor
  | .native name _ => name

inductive ObjectRef
  | user
  | request
  | native (typeName : String) (key : Nat)
  deriving DecidableEq, Repr

def ObjectRef.typeName : ObjectRef → String
  | .user => "user"
  | .request => "request"
  | .native typeName _ => typeName

inductive Value
  | undefined
  | bool (value : Bool)
  | number (value : Number)
  | string (value : String)
  | function (handle : FunctionRef)
  | object (handle : ObjectRef)
  deriving DecidableEq, Repr, Inhabited

namespace Value

def typeName : Value → String
  | .undefined => "undefined"
  | .bool _ => "boolean"
  | .number _ => "number"
  | .string _ => "string"
  | .function _ => "function"
  | .object handle => handle.typeName

def bool? : Value → Option Bool
  | .bool b => some b
  | _ => none

def string? : Value → Option String
  | .string s => some s
  | _ => none

def function? : Value → Option FunctionRef
  | .function f => some f
  | _ => none

def same : Value → Value → Bool
  | .number x, .number y => x.same y
  | v, w => decide (v = w)

def text : Value → String
  | .undefined => "undefined"
  | .bool true => "true"
  | .bool false => "false"
  | .number x => x.text
  | .string s => "'" ++ s ++ "'"
  | .function f => f.name ++ "()"
  | .object handle => "[" ++ handle.typeName ++ "]"

def description : Value → String
  | .undefined => "Undefined"
  | .bool true => "Bool(true)"
  | .bool false => "Bool(false)"
  | .number x => "Number(" ++ x.text ++ ")"
  | .string s => "String(" ++ quoted s ++ ")"
  | .function f => "Function(" ++ f.name ++ ")"
  | .object handle => "Object(" ++ handle.typeName ++ ")"

end Value

end Gatekeeper
