import Gatekeeper.Environment

/-!
# Arguments

Reading the arguments of a run. Options may stand before or after the command, those after it
winning; in each of these places an option may stand once. The policy folder may also come from the
environment, which any folder given as an option overrides. Arguments are read from the left, and
the first that asks for help or makes no sense decides; only an option whose value stands by itself
is looked at later, when the next option comes or its place ends.
-/

set_option autoImplicit false

namespace Gatekeeper.CommandLine

inductive Flag
  | config
  | policies
  | ruleFold
  | allowDuplicateIds
  | help
  | policyId
  | role
  | ip
  | path
  deriving DecidableEq, Repr

inductive Command
  | check
  | decide
  deriving DecidableEq, Repr

def Flag.long : Flag → String
  | .config => "config"
  | .policies => "policies"
  | .ruleFold => "rule-fold"
  | .allowDuplicateIds => "allow-duplicate-ids"
  | .help => "help"
  | .policyId => "policy-id"
  | .role => "role"
  | .ip => "ip"
  | .path => "path"

def Flag.short? : Flag → Option Char
  | .config => some 'c'
  | .policies => some 'p'
  | .help => some 'h'
  | _ => none

def Flag.takesValue : Flag → Bool
  | .allowDuplicateIds => false
  | .help => false
  | _ => true

def Flag.accepts (f : Flag) (value : String) : Bool :=
  match f with
  | .config => value != ""
  | .policies => value != ""
  | _ => true

def commonFlags : List Flag := [.config, .policies, .ruleFold, .allowDuplicateIds, .help]

def flagsAt : Option Command → List Flag
  | some .decide => commonFlags ++ [.policyId, .role, .ip, .path]
  | _ => commonFlags

def Command.ofName? (name : String) : Option Command :=
  if name = "check" then some .check
  else if name = "decide" then some .decide
  else none

def usageText : String :=
  String.join [
    "Rule-based access control policy tool\n\n",
    "Usage: [OPTIONS] check\n",
    "       [OPTIONS] decide --policy-id ID --role ROLE --ip IP --path PATH\n\n",
    "Options:\n",
    "  -c, --config FILE          Configuration file\n",
    "  -p, --policies FOLDER      Policy folder [env: RULES_FOLDER]\n",
    "      --rule-fold FOLD       strict or loose\n",
    "      --allow-duplicate-ids  Let the last of two policies with one id count\n",
    "  -h, --help                 Print this text\n"]

inductive Refusal
  | help
  | usage
  deriving DecidableEq, Repr

abbrev Given := List (Flag × String)

def Given.get? (g : Given) (f : Flag) : Option String :=
  (g.find? (fun entry => entry.1 == f)).map Prod.snd

def Given.has (g : Given) (f : Flag) : Bool := (g.get? f).isSome

def Given.add (g : Given) (f : Flag) (value : String) : Except Refusal Given :=
  if f = .help then .error .help
  else if g.has f || !f.accepts value then .error .usage
  else .ok ((f, value) :: g)

def standsAsValue (argument : String) : Bool :=
  match argument.toList with
  | '-' :: _ :: _ => false
  | _ => true

inductive Shape
  | endOfOptions
  | long (name : String) (value : Option String)
  | short (letters : List Char)
  | word
  deriving DecidableEq, Repr

def shapeOf (argument : String) : Shape :=
  match argument.toList with
  | ['-', '-'] => .endOfOptions
  | '-' :: '-' :: rest =>
    let name := String.ofList (rest.takeWhile (· != '='))
    match rest.dropWhile (· != '=') with
    | [] => .long name none
    | _ :: value => .long name (some (String.ofList value))
  | '-' :: c :: rest => .short (c :: rest)
  | _ => .word

/-- What has been read in one place: the options that are settled, and the last one if its value
stands by itself, which is not settled yet. The place before a command ends after the command's. -/
structure Reading where
  settled : Given
  last : Option (Flag × String)

namespace Reading

def start : Reading := ⟨[], none⟩

def settle (r : Reading) : Except Refusal Given :=
  match r.last with
  | none => .ok r.settled
  | some (flag, value) => r.settled.add flag value

def add (r : Reading) (flag : Flag) (value : String) : Except Refusal Reading := do
  let given ← r.settle
  return ⟨← given.add flag value, none⟩

def await (r : Reading) (flag : Flag) (value : String) : Except Refusal Reading := do
  let given ← r.settle
  return ⟨given, some (flag, value)⟩

end Reading

inductive Taken
  | whole (reading : Reading)
  | needsValue (flag : Flag)

def attached : List Char → Option String
  | [] => none
  | '=' :: value => some (String.ofList value)
  | value => some (String.ofList value)

def takeFlag (r : Reading) (flag : Flag) (value : Option String) : Except Refusal Taken :=
  if flag.takesValue then
    match value with
    | some v => (r.add flag v).map .whole
    | none => .ok (.needsValue flag)
  else
    match value with
    | some _ => .error .usage
    | none => (r.add flag "").map .whole

def takeShort (flags : List Flag) (r : Reading) : List Char → Except Refusal Taken
  | [] => .ok (.whole r)
  | c :: rest =>
    match flags.find? (fun f => f.short? == some c) with
    | none => .error .usage
    | some flag =>
      if flag.takesValue then takeFlag r flag (attached rest)
      else do
        let r ← r.add flag ""
        takeShort flags r rest

inductive Stop
  | finished
  | word (name : String) (rest : List String)

def readOptions (flags : List Flag) (r : Reading) : List String → Except Refusal (Reading × Stop)
  | [] => .ok (r, .finished)
  | argument :: rest => do
    let taken ←
      match shapeOf argument with
      | .endOfOptions => if rest.isEmpty then return (r, .finished) else throw .usage
      | .word => return (r, .word argument rest)
      | .short letters => takeShort flags r letters
      | .long name value =>
        match flags.find? (fun f => f.long == name) with
        | none => throw .usage
        | some flag => takeFlag r flag value
    match taken with
    | .whole r => readOptions flags r rest
    | .needsValue flag =>
      match rest with
      | [] => throw .usage
      | value :: rest =>
        if standsAsValue value then
          let r ← r.await flag value
          readOptions flags r rest
        else throw .usage

inductive Request
  | check
  | decide (policyId : String) (input : DecisionInput)
  deriving DecidableEq, Repr

structure Invocation where
  config : Option String
  policies : Option String
  ruleFold : Option String
  allowDuplicateIds : Bool
  request : Request
  deriving DecidableEq, Repr

def requestOf (command : Command) (given : Given) : Except Refusal Request :=
  match command with
  | .check => .ok .check
  | .decide =>
    match given.get? .policyId, given.get? .role, given.get? .ip, given.get? .path with
    | some id, some role, some ip, some path => .ok (.decide id ⟨role, ip, path⟩)
    | _, _, _, _ => .error .usage

/-- The folder after and before the command, then from the environment. The environment is looked
at wherever an option leaves the folder open, and is refused if it is empty there. -/
def folderOf (after before : Given) (environment : Option String) :
    Except Refusal (Option String) :=
  if environment = some "" && !(after.has .policies && before.has .policies) then .error .usage
  else .ok (((after.get? .policies).or (before.get? .policies)).or environment)

def helpAbout : List String → Refusal
  | [] => .help
  | [name] => if (Command.ofName? name).isSome || name == "help" then .help else .usage
  | _ => .usage

def Invocation.read (arguments : List String) (environment : Option String) :
    Except Refusal Invocation := do
  match ← readOptions (flagsAt none) .start arguments with
  | (_, .finished) => throw .usage
  | (before, .word name rest) =>
    match Command.ofName? name with
    | none => throw (if name = "help" then helpAbout rest else .usage)
    | some command =>
      match ← readOptions (flagsAt (some command)) .start rest with
      | (_, .word ..) => throw .usage
      | (after, .finished) =>
        let after ← after.settle
        let before ← before.settle
        let request ← requestOf command after
        let policies ← folderOf after before environment
        return {
          config := (after.get? .config).or (before.get? .config)
          policies
          ruleFold := (after.get? .ruleFold).or (before.get? .ruleFold)
          allowDuplicateIds := after.has .allowDuplicateIds || before.has .allowDuplicateIds
          request }

end Gatekeeper.CommandLine
