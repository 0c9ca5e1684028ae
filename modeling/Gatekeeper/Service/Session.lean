import Gatekeeper.Service

/-!
# Services in use

A service among those who use it. The disk changes under it, and it is reloaded, asked for decisions
and asked for the registry it has. Registries are shared by the places they are kept at: a reload
writes to a new place and moves the service there, and whoever holds an earlier place keeps it.
-/

set_option autoImplicit false

namespace Gatekeeper

/-- How a loader fares: it ends by its deadline, having had so many threads, or is still at work, or
has died without a result, or could not be started as the system had no thread for it. -/
inductive LoaderFate
  | inTime (available : Nat)
  | late
  | lost
  | unstarted
  deriving DecidableEq, Repr

def loaderRun (settings : Settings) (builtins : Builtins) (disk : Disk) : LoaderFate → LoaderRun
  | .inTime available =>
    .finished (loadRegistry settings builtins available (disk.folderAt? settings.folder))
  | .late => .unfinished
  | .lost => .lost
  | .unstarted => .finished (.error .unreadable)

structure Session where
  disk : Disk
  settings : Settings
  host : Host
  builtins : Builtins
  /-- By place, the registries that were ever published. -/
  registries : List Registry
  published : Fin registries.length

inductive Action
  | change (disk : Disk)
  | reload (fate : LoaderFate)
  | snapshot
  | check (id : String) (input : DecisionInput)
  | decide (id : String) (input : DecisionInput)

inductive Answer
  | done
  | reloaded (result : Except Error Nat)
  | taken (place : Nat)
  | checked (result : Except Error Bool)
  | decided (allowed : Bool)

namespace Session

def start (disk : Disk) (service : Service) : Session :=
  ⟨disk, service.settings, service.host, service.builtins, [service.registry], ⟨0, by simp⟩⟩

def service (s : Session) : Service :=
  ⟨s.settings, s.host, s.builtins, s.registries[s.published]⟩

def shown? (s : Session) (place : Nat) : Option Registry := s.registries[place]?

def publish (s : Session) (registry : Registry) : Session :=
  { s with
    registries := s.registries ++ [registry]
    published := ⟨s.registries.length, by simp⟩ }

def step (s : Session) : Action → Answer × Session
  | .change disk => (.done, { s with disk })
  | .reload fate =>
    match s.service.reload (loaderRun s.settings s.builtins s.disk fate) with
    | (.ok size, reloaded) => (.reloaded (.ok size), s.publish reloaded.registry)
    | (.error e, _) => (.reloaded (.error e), s)
  | .snapshot => (.taken s.published, s)
  | .check id input => (.checked (s.service.check id input), s)
  | .decide id input => (.decided (s.service.decide id input), s)

def after (s : Session) : List Action → Session
  | [] => s
  | a :: rest => (s.step a).2.after rest

end Session

end Gatekeeper
