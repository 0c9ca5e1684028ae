import Gatekeeper.Proofs.Workflow.Compile
import Gatekeeper.Proofs.Workflow.Run

/-!
# Rules as a set

Which rules a document declares decides whether it compiles and what it allows; their order and
repetition decide only which answer is given where access is denied. A document with the rules of
two allows what both allow.
-/

set_option autoImplicit false

namespace Gatekeeper.Workflow
open Document

variable {d : Document} {b : Builtins} {rules more first second : List Declaration}
variable {w w' w₁ w₂ : Workflow} {host : Host} {fold : RuleFold} {input : DecisionInput}

def RuleCompiles (d : Document) (b : Builtins) (r : Declaration) : Prop :=
  RuleSound r ∧ ∃ q, define (rulesCheck d b) r = .ok q

theorem headSound_rules : HeadSound { d with rules } ↔ HeadSound d := by
  constructor
  · intro h
    exact ⟨h.name, h.path, h.params, h.distinct⟩
  · intro h
    exact ⟨h.name, h.path, h.params, h.distinct⟩

theorem compiles_iff : Compiles { d with rules } b ↔
    (HeadSound d ∧ ∃ params, defineParams contextVariables d.params = .ok params) ∧
      ∀ r ∈ rules, RuleCompiles d b r := by
  constructor
  · rintro ⟨w, h⟩
    obtain ⟨⟨head, sound⟩, params, defs, hparams, hrules, -⟩ := compile_eq_ok.1 h
    refine ⟨⟨headSound_rules.1 head, params, hparams⟩, ?_⟩
    intro r hr
    exact ⟨sound r hr, mapM_succeeds.1 ⟨defs, hrules⟩ r hr⟩
  · rintro ⟨⟨head, params, hparams⟩, each⟩
    obtain ⟨defs, hrules⟩ := mapM_succeeds.2 fun r hr => (each r hr).2
    exact ⟨_, compile_eq_ok.2
      ⟨⟨headSound_rules.2 head, fun r hr => (each r hr).1⟩, params, defs, hparams, hrules, rfl⟩⟩

theorem compiles_append : Compiles { d with rules := first ++ second } b ↔
    Compiles { d with rules := first } b ∧ Compiles { d with rules := second } b := by
  rw [compiles_iff, compiles_iff, compiles_iff, List.forall_mem_append]
  tauto

theorem Compiles.mono (within : ∀ r ∈ rules, r ∈ more) (h : Compiles { d with rules := more } b) :
    Compiles { d with rules } b := by
  rw [compiles_iff] at h ⊢
  exact ⟨h.1, fun r hr => h.2 r (within r hr)⟩

/-- Apart from its rules a workflow does not depend on the declared ones. -/
theorem compile_head (h : compile { d with rules } b = .ok w)
    (h' : compile { d with rules := more } b = .ok w') :
    w'.params = w.params ∧ w'.pattern = w.pattern := by
  obtain ⟨-, params, defs, hparams, -, rfl⟩ := compile_eq_ok.1 h
  obtain ⟨-, params', defs', hparams', -, rfl⟩ := compile_eq_ok.1 h'
  have same : Except.ok params' = (Except.ok params : Except Error _) := hparams'.symm.trans hparams
  cases same
  exact ⟨rfl, rfl⟩

theorem compile_rules (h : compile { d with rules } b = .ok w) (q : Definition) :
    q ∈ w.rules ↔ ∃ r ∈ rules, define (rulesCheck d b) r = .ok q := by
  obtain ⟨-, params, defs, -, hrules, rfl⟩ := compile_eq_ok.1 h
  have images : List.Forall₂ (fun r q => define (rulesCheck d b) r = .ok q) rules defs :=
    mapM_eq_ok.1 hrules
  constructor
  · intro hq
    obtain ⟨r, hr, defined⟩ := of_forall₂_right images hq
    exact ⟨r, hr, defined⟩
  · rintro ⟨r, hr, hq⟩
    obtain ⟨q', hq', same⟩ := of_forall₂_left images hr
    rw [hq] at same
    cases same
    exact hq'

theorem decide_mono (within : ∀ r ∈ rules, r ∈ more) (h : compile { d with rules } b = .ok w)
    (h' : compile { d with rules := more } b = .ok w')
    (allowed : w'.decide host b fold input = .ok true) :
    w.decide host b fold input = .ok true := by
  obtain ⟨params, pattern⟩ := compile_head h h'
  rw [decide_eq_true] at allowed ⊢
  rw [appliesTo, pattern, params] at allowed
  rcases allowed with uncovered | ⟨env, run, passes⟩
  · exact .inl uncovered
  have each : ∀ q ∈ w.rules, Passes env fold q := by
    intro q hq
    obtain ⟨r, hr, defined⟩ := (compile_rules h q).1 hq
    exact passes q ((compile_rules h' q).2 ⟨r, within r hr, defined⟩)
  exact .inr ⟨env, run, each⟩

theorem decide_append (h : compile { d with rules := first ++ second } b = .ok w)
    (h₁ : compile { d with rules := first } b = .ok w₁)
    (h₂ : compile { d with rules := second } b = .ok w₂)
    (allowed₁ : w₁.decide host b fold input = .ok true)
    (allowed₂ : w₂.decide host b fold input = .ok true) :
    w.decide host b fold input = .ok true := by
  obtain ⟨params₁, pattern₁⟩ := compile_head h h₁
  obtain ⟨params₂, pattern₂⟩ := compile_head h h₂
  rw [decide_eq_true] at allowed₁ allowed₂ ⊢
  rw [appliesTo, pattern₁, params₁] at allowed₁
  rw [appliesTo, pattern₂, params₂] at allowed₂
  rcases allowed₁ with uncovered | ⟨env, run, passes₁⟩
  · exact .inl uncovered
  rcases allowed₂ with uncovered | ⟨env', run', passes₂⟩
  · exact .inl uncovered
  -- the rules of both were evaluated in the same environment
  obtain rfl := run.unique run'
  have each : ∀ q ∈ w.rules, Passes env fold q := by
    intro q hq
    obtain ⟨r, hr, defined⟩ := (compile_rules h q).1 hq
    rcases List.mem_append.1 hr with hr | hr
    · exact passes₁ q ((compile_rules h₁ q).2 ⟨r, hr, defined⟩)
    · exact passes₂ q ((compile_rules h₂ q).2 ⟨r, hr, defined⟩)
  exact .inr ⟨env, run, each⟩

/-- Rules are a conjunction without order: a document with the rules of two compiles if both do and
allows what both allow, rules may be permuted and repeated, and one more never allows more. -/
theorem rules_conjunction (d : Document) (b : Builtins) (host : Host) (fold : RuleFold)
    (input : DecisionInput) :
    (∀ first second,
      (Compiles { d with rules := first ++ second } b ↔
        Compiles { d with rules := first } b ∧ Compiles { d with rules := second } b) ∧
      ∀ w w₁ w₂, compile { d with rules := first ++ second } b = .ok w →
        compile { d with rules := first } b = .ok w₁ →
        compile { d with rules := second } b = .ok w₂ →
        (w.decide host b fold input = .ok true ↔
          w₁.decide host b fold input = .ok true ∧ w₂.decide host b fold input = .ok true)) ∧
    (∀ rules others : List Declaration, (∀ r, r ∈ rules ↔ r ∈ others) →
      (Compiles { d with rules } b ↔ Compiles { d with rules := others } b) ∧
      ∀ w w', compile { d with rules } b = .ok w →
        compile { d with rules := others } b = .ok w' →
        (w.decide host b fold input = .ok true ↔ w'.decide host b fold input = .ok true)) ∧
    (∀ rules more : List Declaration, (∀ r ∈ rules, r ∈ more) →
      ∀ w w', compile { d with rules } b = .ok w → compile { d with rules := more } b = .ok w' →
        w.decide host b fold input ≠ .ok true → w'.decide host b fold input ≠ .ok true) := by
  refine ⟨?_, ?_, ?_⟩
  · intro first second
    refine ⟨compiles_append, ?_⟩
    intro w w₁ w₂ h h₁ h₂
    constructor
    · intro allowed
      exact ⟨decide_mono (fun r hr => List.mem_append_left _ hr) h₁ h allowed,
        decide_mono (fun r hr => List.mem_append_right _ hr) h₂ h allowed⟩
    · rintro ⟨allowed₁, allowed₂⟩
      exact decide_append h h₁ h₂ allowed₁ allowed₂
  · intro rules others same
    have forth : ∀ r ∈ rules, r ∈ others := fun r hr => (same r).1 hr
    have back : ∀ r ∈ others, r ∈ rules := fun r hr => (same r).2 hr
    refine ⟨⟨Compiles.mono back, Compiles.mono forth⟩, ?_⟩
    intro w w' h h'
    exact ⟨decide_mono back h' h, decide_mono forth h h'⟩
  · intro rules more within w w' h h' denied allowed
    exact denied (decide_mono within h h' allowed)

def listedFirst : List Declaration := [⟨"listed", "in(core)"⟩, ⟨"core team", "$team == core"⟩]

theorem listedFirst_compiles : compile { teamDocument with rules := listedFirst } .standard =
    .ok { teamWorkflow with rules := teamWorkflow.rules.reverse } := by
  obtain ⟨⟨head, sound⟩, params, defs, hparams, -, same⟩ := compile_eq_ok.1 team_compiles
  cases same
  refine compile_eq_ok.2 ⟨⟨headSound_rules.2 head, ?_⟩, _, _, hparams, ?_, rfl⟩
  · intro r hr
    exact sound r (by simpa [listedFirst, teamDocument, or_comm] using hr)
  · exact mapM_eq_ok.2 (.cons team_listed (.cons team_core .nil))

/-- The order of rules shows in the answer to a guest, and access is denied all the same. -/
theorem rules_conjunction_team :
    teamWorkflow.decide .bare .standard .strict guest =
        .error (.execution (.unresolvedVariable "team")) ∧
      ({ teamWorkflow with rules := teamWorkflow.rules.reverse } : Workflow).decide .bare .standard
        .strict guest ≠ .ok true := by
  have answer : teamWorkflow.decide .bare .standard .strict guest =
      .error (.execution (.unresolvedVariable "team")) := by cbv
  refine ⟨answer, ?_⟩
  obtain ⟨-, permuted, -⟩ := rules_conjunction teamDocument .standard .bare .strict guest
  have same : ∀ r, r ∈ teamDocument.rules ↔ r ∈ listedFirst := by
    simp [listedFirst, teamDocument, or_comm]
  rw [Ne, ← (permuted _ _ same).2 _ _ team_compiles listedFirst_compiles, answer]
  simp

end Gatekeeper.Workflow
