import Gatekeeper.Proofs.Registry
import Gatekeeper.Proofs.Workflow.Inputs
import Gatekeeper.Proofs.Workflow.Rules
import Gatekeeper.Service

/-!
# Decisions of a service

When access is granted, said of the documents a service was built from, and why it is denied where
it is. A decision is that of one workflow, the last with the id asked for; whatever goes wrong on
the way denies.
-/

set_option autoImplicit false

namespace Gatekeeper.Service
open Workflow

variable {s : Service} {id : String} {input : DecisionInput} {w : Workflow} {e : Error}

theorem decide_eq_true : s.decide id input = true ↔ s.check id input = .ok true := by
  unfold decide
  split <;> simp [*]

theorem check_unknown (h : s.registry.get? id = none) (input : DecisionInput) :
    s.check id input = .error (.configuration (.unknownPolicy id)) := by
  rw [check, h]

theorem check_known (h : s.registry.get? id = some w) (input : DecisionInput) :
    s.check id input = w.decide s.host s.builtins s.settings.fold input := by
  rw [check, h]

theorem decide_unknown (h : s.registry.get? id = none) (input : DecisionInput) :
    s.decide id input = false := by
  rw [decide, check_unknown h]

theorem decide_known (h : s.registry.get? id = some w) :
    s.decide id input = true ↔ w.decide s.host s.builtins s.settings.fold input = .ok true := by
  rw [decide_eq_true, check_known h]

def BuiltFrom (s : Service) (documents : List Document) (allowDuplicates : Bool) : Prop :=
  ∃ workflows, documents.mapM (compile · s.builtins) = .ok workflows ∧
    Registry.ofWorkflows workflows allowDuplicates = .ok s.registry

def Serves (documents : List Document) (b : Builtins) (id : String) (d : Document)
    (w : Workflow) : Prop :=
  IsLast (fun x => toString x.id.toNat = id) documents d ∧ compile d b = .ok w

variable {documents : List Document} {allow : Bool}

theorem BuiltFrom.get?_eq_some (built : s.BuiltFrom documents allow) :
    s.registry.get? id = some w ↔ ∃ d, Serves documents s.builtins id d w := by
  obtain ⟨workflows, compiled, merged⟩ := built
  have same : ∀ d x, compile d s.builtins = .ok x →
      (x.policyId = id ↔ toString d.id.toNat = id) := by
    intro d x h
    rw [Workflow.policyId, compile_id h, policyId]
  rw [Registry.get?_ofWorkflows merged, isLast_mapM compiled same]
  rfl

theorem BuiltFrom.compiles (built : s.BuiltFrom documents allow) {d : Document}
    (here : d ∈ documents) : ∃ w, compile d s.builtins = .ok w := by
  obtain ⟨workflows, compiled, -⟩ := built
  exact mapM_succeeds.1 ⟨workflows, compiled⟩ d here

theorem BuiltFrom.get?_eq_none (built : s.BuiltFrom documents allow) :
    s.registry.get? id = none ↔ ∀ d ∈ documents, toString d.id.toNat ≠ id := by
  constructor
  · intro absent
    rcases none_or_isLast (fun x : Document => toString x.id.toNat = id) documents with
      none | ⟨d, last⟩
    · exact none
    · obtain ⟨w, hw⟩ := built.compiles last.mem.1
      have found := built.get?_eq_some.2 ⟨d, last, hw⟩
      rw [absent] at found
      cases found
  · intro none
    cases found : s.registry.get? id with
    | none => rfl
    | some w =>
      obtain ⟨d, last, -⟩ := built.get?_eq_some.1 found
      exact absurd last.mem.2 (none d last.mem.1)

/-- The decision of a service, end to end. Access is granted by the last document with the id asked
for, where its pattern does not cover the path or its parameters all bind and its rules all pass.
Where access is denied the check tells why. A rule passes the strict fold with true alone, and the
loose one with all but false. -/
theorem decision (built : s.BuiltFrom documents allow) (id : String) (input : DecisionInput) :
    (s.decide id input = true ↔ ∃ d w, Serves documents s.builtins id d w ∧
      (w.appliesTo input.path = false ∨
        ∃ env, Binds (.forDecision s.host s.builtins input) w.params env ∧
          ∀ r ∈ w.rules, Passes env s.settings.fold r)) ∧
    (s.decide id input = false →
      ((∀ d ∈ documents, toString d.id.toNat ≠ id) ∧
        s.check id input = .error (.configuration (.unknownPolicy id))) ∨
      ∃ d w, Serves documents s.builtins id d w ∧ w.appliesTo input.path = true ∧
        ((∃ env r, Binds (.forDecision s.host s.builtins input) w.params env ∧
            Reached (Passes env s.settings.fold) w.rules r ∧ Fails env s.settings.fold r ∧
            s.check id input = .ok false) ∨
          (∃ stuck e, Breaks (.forDecision s.host s.builtins input) w.params stuck e ∧
            s.check id input = .error e) ∨
          ∃ env r e, Binds (.forDecision s.host s.builtins input) w.params env ∧
            Reached (Passes env s.settings.fold) w.rules r ∧ evaluate env r.tree = .error e ∧
            s.check id input = .error e)) ∧
    ∀ env r, (Passes env .strict r ↔ evaluate env r.tree = .ok (.bool true)) ∧
      (Passes env .loose r ↔ ∃ v, evaluate env r.tree = .ok v ∧ v ≠ .bool false) := by
  rw [← and_assoc]
  refine ⟨?_, fun env r => ⟨passes_strict, passes_loose⟩⟩
  cases found : s.registry.get? id with
  | none =>
    have unknown := check_unknown found input
    have absent := built.get?_eq_none.1 found
    constructor
    · rw [decide_eq_true, unknown]
      constructor
      · intro allowed
        cases allowed
      · rintro ⟨d, w, ⟨last, -⟩, -⟩
        exact absurd last.mem.2 (absent d last.mem.1)
    · intro denied
      exact .inl ⟨absent, unknown⟩
  | some w =>
    obtain ⟨d, serves⟩ := built.get?_eq_some.1 found
    constructor
    · rw [decide_known found]
      constructor
      · intro allowed
        exact ⟨d, w, serves, Workflow.decide_eq_true.1 allowed⟩
      · rintro ⟨d', w', serves', granted⟩
        have same := built.get?_eq_some.2 ⟨d', serves'⟩
        rw [found] at same
        cases same
        exact Workflow.decide_eq_true.2 granted
    · intro denied
      have notAllowed : s.check id input ≠ .ok true := by
        rw [Ne, ← decide_eq_true, denied]
        exact Bool.false_ne_true
      rw [check_known found] at notAllowed ⊢
      exact .inr ⟨d, w, serves, decide_denies notAllowed⟩

def teamService : Service where
  settings := .standard
  host := .bare
  builtins := .standard
  registry := ⟨((NameMap.empty.insert "7" teamWorkflow).insert "7"
    { teamWorkflow with rules := teamWorkflow.rules.reverse }).insert "3" deskWorkflow⟩

def teamDocuments : List Document :=
  [teamDocument, { teamDocument with rules := listedFirst }, deskDocument]

theorem teamService_built : teamService.BuiltFrom teamDocuments true :=
  ⟨_, mapM_eq_ok.2 (.cons team_compiles (.cons listedFirst_compiles (.cons desk_compiles .nil))),
    rfl⟩

/-- Staff is let through at the desk, and a guest of the team is stopped by a rule. -/
theorem decision_team : teamService.decide "3" staffer = true ∧
    teamService.check "8" guest = .error (.configuration (.unknownPolicy "8")) ∧
    ∃ env, Binds (.forDecision .bare .standard guest) teamWorkflow.params env ∧
      ∃ r ∈ teamWorkflow.rules, Fails env .strict r := by
  refine ⟨?_, ?_, ?_⟩
  · refine (decision teamService_built "3" staffer).1.2 ⟨deskDocument, deskWorkflow, ?_, .inr ?_⟩
    · exact ⟨isLast_concat [_, _] rfl, desk_compiles⟩
    · refine ⟨_, .cons rfl (.cons rfl (.cons rfl (.nil _))), ?_⟩
      simp only [deskWorkflow, List.forall_mem_cons, List.not_mem_nil, false_imp_iff, implies_true,
        and_true]
      exact ⟨passes_strict.2 rfl, passes_strict.2 rfl⟩
  · have denied : teamService.decide "8" guest = false := by cbv
    rcases (decision teamService_built "8" guest).2.1 denied with ⟨-, unknown⟩ | ⟨d, w, serves, -⟩
    · exact unknown
    · have found := teamService_built.get?_eq_some.2 ⟨d, serves⟩
      cases found
  · have answer : teamService.check "7" guest = .ok false := by cbv
    have denied : teamService.decide "7" guest = false := by rw [decide, answer]
    rcases (decision teamService_built "7" guest).2.1 denied with ⟨-, unknown⟩ | ⟨d, w, serves, -,
      ⟨env, r, binds, reached, fails, -⟩ | ⟨_, _, _, failed⟩ | ⟨_, _, _, _, _, _, failed⟩⟩
    · cases answer.symm.trans unknown
    · have found := teamService_built.get?_eq_some.2 ⟨d, serves⟩
      cases found
      exact ⟨env, binds, r, List.mem_reverse.1 reached.mem, fails⟩
    · cases answer.symm.trans failed
    · cases answer.symm.trans failed

end Gatekeeper.Service
