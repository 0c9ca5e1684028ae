import Gatekeeper.Load

/-!
# The policy service

A service holds the registry that was loaded last and answers decisions against it. Where a decision
cannot be reached access is denied. A reload replaces the registry as a whole or not at all;
registries taken from the service before are values and stay what they were.
-/

set_option autoImplicit false

namespace Gatekeeper

structure Service where
  settings : Settings
  host : Host
  builtins : Builtins
  registry : Registry
  deriving Inhabited

namespace Service

def load (settings : Settings) (host : Host) (builtins : Builtins) (run : LoaderRun) :
    Except Error Service := do
  settings.validate
  let registry ← run.result settings.loadTimeout
  return ⟨settings, host, builtins, registry⟩

def check (s : Service) (id : String) (input : DecisionInput) : Except Error Bool :=
  match s.registry.get? id with
  | none => .error (.configuration (.unknownPolicy id))
  | some w => w.decide s.host s.builtins s.settings.fold input

def decide (s : Service) (id : String) (input : DecisionInput) : Bool :=
  match s.check id input with
  | .ok allowed => allowed
  | .error _ => false

def reload (s : Service) (run : LoaderRun) : Except Error Nat × Service :=
  match run.result s.settings.loadTimeout with
  | .ok registry => (.ok registry.size, { s with registry })
  | .error e => (.error e, s)

def description (s : Service) : String :=
  "PolicyService \x7b config: " ++ s.settings.description ++ ", workflows: " ++
    toString s.registry.size ++ " \x7d"

end Service

end Gatekeeper
