import Gatekeeper.Proofs.Workflow.Run

/-!
# Workflows in lockstep

Two workflows, each run in environments of its own. Where a relation of their environments is kept
by binding one parameter after another, and related environments give the same values, the runs go
hand in hand: they come to the same decision, or both fail, perhaps with different errors.
-/

set_option autoImplicit false

namespace Gatekeeper.Workflow

variable {R : Environment → Environment → Prop} {env env' : Environment}

def SameIn (R : Environment → Environment → Prop) (q q' : Definition) : Prop :=
  ∀ env env', R env env' → SameValue (evaluate env q.tree) (evaluate env' q'.tree)

structure BoundIn (R : Environment → Environment → Prop) (p p' : Definition) : Prop where
  same : SameIn R p p'
  kept : ∀ env env' v, R env env' → evaluate env p.tree = .ok v →
    R (env.bind p.name v) (env'.bind p'.name v)

structure Lockstep (R : Environment → Environment → Prop) (w w' : Workflow) : Prop where
  pattern : w'.pattern = w.pattern
  params : List.Forall₂ (BoundIn R) w.params w'.params
  rules : List.Forall₂ (SameIn R) w.rules w'.rules

theorem binds_lockstep {ps ps' : List Definition} (params : List.Forall₂ (BoundIn R) ps ps')
    (related : R env env') :
    (∃ final final', Binds env ps final ∧ Binds env' ps' final' ∧ R final final') ∨
      ∃ stuck stuck' e e', Breaks env ps stuck e ∧ Breaks env' ps' stuck' e' := by
  induction params generalizing env env' with
  | nil => exact .inl ⟨env, env', .nil env, .nil env', related⟩
  | cons here later ih =>
    have same := here.same env env' related
    rcases ok_or_errors same with ⟨v, value, value'⟩ | ⟨e, e', fault, fault'⟩
    · rcases ih (here.kept env env' v related value) with
        ⟨final, final', run, run', last⟩ | ⟨stuck, stuck', e, e', broken, broken'⟩
      · exact .inl ⟨final, final', .cons value run, .cons value' run', last⟩
      · exact .inr ⟨stuck, stuck', e, e', breaks_cons.2 (.inr ⟨v, value, broken⟩),
          breaks_cons.2 (.inr ⟨v, value', broken'⟩)⟩
    · exact .inr ⟨env, env', e, e', breaks_cons.2 (.inl ⟨rfl, fault⟩),
        breaks_cons.2 (.inl ⟨rfl, fault'⟩)⟩

theorem allPass_lockstep {rs rs' : List Definition} {fold : RuleFold}
    (rules : List.Forall₂ (SameIn R) rs rs') (related : R env env') :
    SameValue (allPass env fold rs) (allPass env' fold rs') := by
  induction rules with
  | nil => exact .refl _
  | cons here later ih =>
    rw [allPass, allPass]
    refine (here env env' related).bind fun v => ?_
    split
    · exact ih
    · exact .refl _

variable {w w' : Workflow} {host : Host} {b : Builtins} {fold : RuleFold} {input : DecisionInput}

theorem Lockstep.execute (h : Lockstep R w w')
    (start : R (.forDecision host b input) (.forDecision host b input)) :
    SameValue (w.execute host b fold input) (w'.execute host b fold input) := by
  rcases binds_lockstep h.params start with
    ⟨env, env', run, run', related⟩ | ⟨stuck, stuck', e, e', broken, broken'⟩
  · rw [execute_of_binds run, execute_of_binds run']
    exact allPass_lockstep h.rules related
  · rw [execute_of_breaks broken, execute_of_breaks broken']
    exact .errors e e'

theorem Lockstep.decide (h : Lockstep R w w')
    (start : R (.forDecision host b input) (.forDecision host b input)) :
    SameValue (w.decide host b fold input) (w'.decide host b fold input) := by
  rw [Workflow.decide, Workflow.decide, appliesTo, appliesTo, h.pattern]
  split
  · exact h.execute start
  · exact .refl _

end Gatekeeper.Workflow
