import Gatekeeper.Proofs.Workflow.Inputs

/-!
# The strict and the loose fold

One decision under both folds. The runs are the same up to the first rule whose value is neither
true nor false; there the strict one denies and the loose one goes on. So the strict answer is the
loose one or a denial, and where every rule is a test the runs never part.
-/

set_option autoImplicit false

namespace Gatekeeper

inductive Expr.IsTest (b : Builtins) : Expr → Prop
  | comparison (operator : Operator) (left right : Expr) :
      IsTest b (.comparison operator left right)
  | call {name : String} {f : FunctionRef} (registered : b.get? name = some (.function f))
      (isStandard : f = .membership ∨ f = .addressRange) (arguments : List Expr) :
      IsTest b (.call (.identifier name) arguments)

theorem standard_isTest {name : String} (known : name = "in" ∨ name = "ip_range")
    (arguments : List Expr) : (Expr.call (.identifier name) arguments).IsTest .standard := by
  rcases known with rfl | rfl
  · exact .call (by rw [standard_get?]; rfl) (.inl rfl) arguments
  · exact .call (by rw [standard_get?]; rfl) (.inr rfl) arguments

theorem Expr.IsTest.value {env : Environment} {e : Expr} {v : Value} (test : e.IsTest env.builtins)
    (value : evaluate env e = .ok v) : ∃ holds, v = .bool holds := by
  cases test with
  | comparison operator left right =>
    simp only [evaluate, bind_eq_ok, pure_eq_ok] at value
    obtain ⟨l, -, r, -, rfl⟩ := value
    exact ⟨_, rfl⟩
  | @call name f registered isStandard arguments =>
    have callee : evaluate env (.identifier name) = .ok (.function f) := by
      rw [evaluate, registered]
      rfl
    rw [evaluate, callee] at value
    obtain ⟨values, -, answer⟩ : ∃ values, evaluateAll env arguments = .ok values ∧
        env.apply f values = .ok v := bind_eq_ok.1 value
    rcases isStandard with rfl | rfl
    · cases answer
      exact ⟨_, rfl⟩
    · cases answer
      exact ⟨_, rfl⟩

namespace Workflow

def OrDenies (strict loose : Except Error Bool) : Prop := strict = loose ∨ strict = .ok false

theorem loose_of_strict {v : Value} (passes : RuleFold.strict.passes v = true) :
    RuleFold.loose.passes v = true := by
  rw [RuleFold.strict_passes] at passes
  rw [RuleFold.loose_passes, passes]
  simp

theorem passes_test (holds : Bool) :
    RuleFold.strict.passes (.bool holds) = RuleFold.loose.passes (.bool holds) := by
  rw [Bool.eq_iff_iff, RuleFold.strict_passes, RuleFold.loose_passes]
  simp

variable {env : Environment} {rs : List Definition}

theorem allPass_cons_ok {fold : RuleFold} {r : Definition} {v : Value}
    (value : evaluate env r.tree = .ok v) :
    allPass env fold (r :: rs) = if fold.passes v then allPass env fold rs else .ok false := by
  rw [allPass, value]
  rfl

theorem allPass_cons_error {fold : RuleFold} {r : Definition} {e : Error}
    (failed : evaluate env r.tree = .error e) : allPass env fold (r :: rs) = .error e := by
  rw [allPass, failed]
  rfl

theorem allPass_orDenies (env : Environment) (rs : List Definition) :
    OrDenies (allPass env .strict rs) (allPass env .loose rs) := by
  induction rs with
  | nil => exact .inl rfl
  | cons r rs ih =>
    cases value : evaluate env r.tree with
    | error e =>
      rw [allPass_cons_error value, allPass_cons_error value]
      exact .inl rfl
    | ok v =>
      rw [allPass_cons_ok value, allPass_cons_ok value]
      by_cases passes : RuleFold.strict.passes v = true
      · rw [if_pos passes, if_pos (loose_of_strict passes)]
        exact ih
      · rw [if_neg passes]
        exact .inr rfl

theorem allPass_tests (tests : ∀ r ∈ rs, r.tree.IsTest env.builtins) :
    allPass env .strict rs = allPass env .loose rs := by
  induction rs with
  | nil => rfl
  | cons r rs ih =>
    obtain ⟨here, later⟩ := List.forall_mem_cons.1 tests
    cases value : evaluate env r.tree with
    | error e => rw [allPass_cons_error value, allPass_cons_error value]
    | ok v =>
      obtain ⟨holds, rfl⟩ := here.value value
      rw [allPass_cons_ok value, allPass_cons_ok value, ih later, passes_test]

variable {w : Workflow} {host : Host} {b : Builtins} {input : DecisionInput}

/-- The fold shows in a decision by the rules alone, so two decisions compare as their rules do. -/
theorem decide_folds {p : Except Error Bool → Except Error Bool → Prop}
    (same : ∀ answer, p answer answer)
    (rules : ∀ env, Binds (.forDecision host b input) w.params env →
      p (allPass env .strict w.rules) (allPass env .loose w.rules)) :
    p (w.decide host b .strict input) (w.decide host b .loose input) := by
  unfold Workflow.decide
  split
  · rcases binds_or_breaks (.forDecision host b input) w.params with
      ⟨env, run⟩ | ⟨stuck, e, broken⟩
    · rw [execute_of_binds run, execute_of_binds run]
      exact rules env run
    · rw [execute_of_breaks broken, execute_of_breaks broken]
      exact same _
  · exact same _

theorem decide_orDenies (w : Workflow) (host : Host) (b : Builtins) (input : DecisionInput) :
    OrDenies (w.decide host b .strict input) (w.decide host b .loose input) :=
  decide_folds (fun _ => .inl rfl) fun env _ => allPass_orDenies env w.rules

/-- The strict fold refines the loose one. What it allows is allowed under both and what the loose
one denies is denied under both, an error under the strict fold is the error under the loose one,
and where every rule is a test the two folds answer the same. -/
theorem strict_refines_loose (w : Workflow) (host : Host) (b : Builtins) (input : DecisionInput) :
    (w.decide host b .strict input = .ok true → w.decide host b .loose input = .ok true) ∧
    (w.decide host b .loose input = .ok false → w.decide host b .strict input = .ok false) ∧
    (∀ e, w.decide host b .strict input = .error e → w.decide host b .loose input = .error e) ∧
    ((∀ r ∈ w.rules, r.tree.IsTest b) →
      w.decide host b .strict input = w.decide host b .loose input) := by
  refine ⟨?_, ?_, ?_, ?_⟩
  · intro allowed
    rcases decide_orDenies w host b input with same | denies
    · rw [← same, allowed]
    · rw [allowed] at denies
      cases denies
  · intro denied
    rcases decide_orDenies w host b input with same | denies
    · rw [same, denied]
    · exact denies
  · intro e failed
    rcases decide_orDenies w host b input with same | denies
    · rw [← same, failed]
    · rw [failed] at denies
      cases denies
  · intro tests
    refine decide_folds (fun _ => rfl) fun env run => allPass_tests fun r hr => ?_
    have builtins : env.builtins = b := run.builtins_eq
    rw [builtins]
    exact tests r hr

/-- The rules of the desk are tests, so a stranger is turned away under both folds. -/
theorem strict_refines_loose_desk :
    deskWorkflow.decide .bare .standard .loose stranger = .ok false ∧
      deskWorkflow.decide .bare .standard .strict stranger = .ok false ∧
      deskWorkflow.decide .bare .standard .strict staffer =
        deskWorkflow.decide .bare .standard .loose staffer := by
  have denied : deskWorkflow.decide .bare .standard .loose stranger = .ok false := by cbv
  have tests : ∀ r ∈ deskWorkflow.rules, r.tree.IsTest .standard := by
    simp only [deskWorkflow, List.forall_mem_cons]
    exact ⟨standard_isTest (.inl rfl) _, .comparison _ _ _, by simp⟩
  obtain ⟨-, refused, -, -⟩ := strict_refines_loose deskWorkflow .bare .standard stranger
  obtain ⟨-, -, -, equal⟩ := strict_refines_loose deskWorkflow .bare .standard staffer
  exact ⟨denied, refused denied, equal tests⟩

/-- A rule that is a bare word parts the folds. -/
example :
    let w : Workflow := { deskWorkflow with rules := [⟨"open", "open", .identifier "open"⟩] }
    w.decide .bare .standard .strict staffer = .ok false ∧
      w.decide .bare .standard .loose staffer = .ok true := by
  constructor <;> cbv

end Workflow

end Gatekeeper
