import Gatekeeper.Toml
import Gatekeeper.Workflow.Decide

/-!
# Settings

Where policies are loaded from, how long that may take, and how their rules count. Settings come
from defaults, from a configuration text, and from one variable of the process environment, which
names the policy folder.
-/

set_option autoImplicit false

namespace Gatekeeper

structure Settings where
  folder : String
  /-- In milliseconds. -/
  loadTimeout : UInt64
  fold : RuleFold
  allowDuplicates : Bool
  /-- The most threads that compile at once, if there is a bound. -/
  threads : Option UInt64
  deriving DecidableEq, Repr

namespace Settings

def standard : Settings := ⟨"policies", 30000, .strict, false, none⟩

instance : Inhabited Settings := ⟨standard⟩

def ofFolder (folder : String) : Settings := { standard with folder }

def withFold (s : Settings) (fold : RuleFold) : Settings := { s with fold }

def withDuplicates (s : Settings) (allowDuplicates : Bool) : Settings := { s with allowDuplicates }

def withThreads (s : Settings) (threads : UInt64) : Settings := { s with threads := some threads }

def withLoadTimeout (s : Settings) (milliseconds : Nat) : Settings :=
  { s with loadTimeout := UInt64.ofNat (min milliseconds (UInt64.size - 1)) }

def compileThreads (s : Settings) (available documents : Nat) : Nat :=
  let cap := match s.threads with
    | some n => n.toNat
    | none => available
  max (min cap documents) 1

def fault? (s : Settings) : Option ConfigurationFault :=
  if s.folder = "" then some .emptyFolder
  else if s.loadTimeout = 0 then some .zeroTimeout
  else if s.threads = some 0 then some .zeroThreads
  else none

def validate (s : Settings) : Except Error Unit :=
  match s.fault? with
  | some fault => .error (.configuration fault)
  | none => .ok ()

def validated (s : Settings) : Except Error Settings := do
  s.validate
  return s

def folderVariable : String := "RULES_FOLDER"

def withEnvironment (s : Settings) (folder : Option String) : Except Error Settings :=
  match folder with
  | none => s.validated
  | some dir =>
    if allBlank dir then .error (.configuration (.blankOverride folderVariable))
    else { s with folder := dir }.validated

def ofEnvironment (folder : Option String) : Except Error Settings :=
  standard.withEnvironment folder

def word? (n : Int) : Option UInt64 :=
  if 0 ≤ n then some (UInt64.ofNat n.toNat) else none

def set? (s : Settings) : String × Toml.Value → Option Settings
  | ("policy_dir", .text dir) => some { s with folder := dir }
  | ("load_timeout_ms", .integer n) => (word? n).map fun n => { s with loadTimeout := n }
  | ("rule_fold", .text fold) => (RuleFold.ofText? fold).map s.withFold
  | ("rule_fold", .member fold .empty) => (RuleFold.ofText? fold).map s.withFold
  | ("allow_duplicate_ids", .boolean allow) => some (s.withDuplicates allow)
  | ("max_compile_threads", .integer n) => (word? n).map s.withThreads
  | _ => none

def ofToml (text : String) : Except Error Settings :=
  match (Toml.read? text).bind (fun lines => lines.foldlM set? standard) with
  | some s => s.validated
  | none => .error .unsettable

def foldDescription : RuleFold → String
  | .strict => "Strict"
  | .loose => "Loose"

def description (s : Settings) : String :=
  let threads := match s.threads with
    | some n => "Some(" ++ toString n.toNat ++ ")"
    | none => "None"
  "ServiceConfig \x7b policy_dir: " ++ quoted s.folder ++
    ", load_timeout_ms: " ++ toString s.loadTimeout.toNat ++
    ", rule_fold: " ++ foldDescription s.fold ++
    ", allow_duplicate_ids: " ++ toString s.allowDuplicates ++
    ", max_compile_threads: " ++ threads ++ " \x7d"

end Settings

end Gatekeeper
