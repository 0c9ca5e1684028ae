import Gatekeeper.Workflow

/-!
# Registries

The published workflows, each under its policy id. A second workflow with the same id either
replaces the first or is refused, as the caller says; a refusal changes nothing.
-/

set_option autoImplicit false

namespace Gatekeeper

structure Registry where
  workflows : NameMap Workflow

namespace Registry

def empty : Registry := ⟨.empty⟩

instance : Inhabited Registry := ⟨empty⟩

def get? (r : Registry) (id : String) : Option Workflow := r.workflows.get? id

def contains (r : Registry) (id : String) : Bool := r.workflows.contains id

def size (r : Registry) : Nat := r.workflows.size

def isEmpty (r : Registry) : Bool := r.workflows.entries.isEmpty

def ids (r : Registry) : List String := r.workflows.names

def toList (r : Registry) : List Workflow := r.workflows.values

def insert (r : Registry) (w : Workflow) (allowDuplicates : Bool) : Except Error Registry :=
  let added := ⟨r.workflows.insert w.policyId w⟩
  match r.get? w.policyId with
  | none => .ok added
  | some existing =>
    if allowDuplicates then .ok added
    else .error (.duplicatePolicy (.sameId w.policyId existing.name w.name))

def insertAll (r : Registry) (allowDuplicates : Bool) : List Workflow → Except Error Registry
  | [] => .ok r
  | w :: ws => do
    let r ← r.insert w allowDuplicates
    r.insertAll allowDuplicates ws

def ofWorkflows (ws : List Workflow) (allowDuplicates : Bool) : Except Error Registry :=
  empty.insertAll allowDuplicates ws

end Registry

end Gatekeeper
