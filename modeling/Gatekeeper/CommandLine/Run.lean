import Gatekeeper.CommandLine.Arguments
import Gatekeeper.Service

/-!
# Runs of the program

What a run does once its arguments are read: it resolves the settings, loads the policies, and
answers the command. All of it is pure; files come in as values.
-/

set_option autoImplicit false

namespace Gatekeeper.CommandLine

inductive Failure
  | config (file : String) (cause : Error)
  | ruleFold (name : String)
  | settings (cause : Error)
  | loading (cause : Error)
  | noPolicies
  | evaluating (policyId : String) (cause : Error)

def Failure.text : Failure → String
  | .config file _ => "loading config " ++ file
  | .ruleFold name => "Invalid rule fold '" ++ name ++ "'. Valid options: strict, loose"
  | .settings cause => cause.text
  | .loading _ => "loading policies"
  | .noPolicies => "no policy documents found"
  | .evaluating id _ => "evaluating policy " ++ id

def Failure.cause? : Failure → Option Error
  | .config _ cause => some cause
  | .loading cause => some cause
  | .evaluating _ cause => some cause
  | _ => none

def ruleFoldOf (name : String) : Except Failure RuleFold :=
  match RuleFold.ofText? name.toLower with
  | some fold => .ok fold
  | none => .error (.ruleFold name)

def settingsOfFile (file : String) (contents : Except ReadFailure String) :
    Except Error Settings :=
  match contents with
  | .ok text => Settings.ofToml text
  | .error failure => .error (.configuration (.unreadableFile file failure.text))

namespace Invocation

def baseSettings (i : Invocation) (readFile : String → Except ReadFailure String) :
    Except Failure Settings :=
  match i.config with
  | none => .ok .standard
  | some file => (settingsOfFile file (readFile file)).mapError (.config file)

def applyOptions (i : Invocation) (base : Settings) : Except Failure Settings := do
  let placed := match i.policies with
    | some folder => { base with folder }
    | none => base
  let folded ← match i.ruleFold with
    | some name => (ruleFoldOf name).map placed.withFold
    | none => .ok placed
  let settings := if i.allowDuplicateIds then folded.withDuplicates true else folded
  settings.validated.mapError .settings

def resolveSettings (i : Invocation) (readFile : String → Except ReadFailure String) :
    Except Failure Settings := do
  i.applyOptions (← i.baseSettings readFile)

end Invocation

structure Report where
  exit : UInt32
  output : String
  failure : Option Failure

def summaryLine (w : Workflow) : String :=
  toString w.id.toNat ++ "\t" ++ w.pattern.source ++ "\t" ++ w.name ++ "\t" ++
    toString w.params.length ++ " params\t" ++ toString w.rules.length ++ " rules\n"

def answer (service : Service) : Request → Except Failure Report
  | .check =>
    if service.registry.isEmpty then .error .noPolicies
    else .ok ⟨0, String.join (service.registry.toList.map summaryLine), none⟩
  | .decide id input =>
    match service.check id input with
    | .error cause => .error (.evaluating id cause)
    | .ok true => .ok ⟨0, "allow\n", none⟩
    | .ok false => .ok ⟨1, "deny\n", none⟩

def answerFrom (settings : Settings) (run : LoaderRun) (request : Request) :
    Except Failure Report := do
  let service ← (Service.load settings .bare .standard run).mapError .loading
  answer service request

def reportOf : Except Failure Report → Report
  | .ok report => report
  | .error failure => ⟨1, "", some failure⟩

def run (disk : Disk) (available : Nat) (i : Invocation) : Report :=
  reportOf do
    let settings ← i.resolveSettings disk.textAt
    let loaded := loadRegistry settings .standard available (disk.folderAt? settings.folder)
    answerFrom settings (.finished loaded) i.request

end Gatekeeper.CommandLine
