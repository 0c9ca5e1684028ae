import Gatekeeper.Proofs.Outcome
import Gatekeeper.Workflow.Decide

/-!
# Runs of workflows

How a run of parameters and rules ends, told by where it ends. Parameters either bind as a whole or
break at one of them, in the environment that those before it have left; rules are evaluated in one
environment up to the first that does not pass.
-/

set_option autoImplicit false

namespace Gatekeeper

theorem RuleFold.strict_passes {v : Value} : RuleFold.strict.passes v = true ↔ v = .bool true := by
  cases v <;> simp [passes]

theorem RuleFold.loose_passes {v : Value} : RuleFold.loose.passes v = true ↔ v ≠ .bool false := by
  cases v <;> simp [passes]

namespace Workflow

inductive Binds : Environment → List Definition → Environment → Prop
  | nil (env : Environment) : Binds env [] env
  | cons {env final : Environment} {p : Definition} {ps : List Definition} {v : Value}
      (value : evaluate env p.tree = .ok v) (rest : Binds (env.bind p.name v) ps final) :
      Binds env (p :: ps) final

def Breaks (env : Environment) (ps : List Definition) (stuck : Environment) (e : Error) : Prop :=
  ∃ before p after, ps = before ++ p :: after ∧ Binds env before stuck ∧
    evaluate stuck p.tree = .error e

def Passes (env : Environment) (fold : RuleFold) (r : Definition) : Prop :=
  ∃ v, evaluate env r.tree = .ok v ∧ fold.passes v = true

def Fails (env : Environment) (fold : RuleFold) (r : Definition) : Prop :=
  ∃ v, evaluate env r.tree = .ok v ∧ fold.passes v = false

variable {env final stuck : Environment} {ps rs : List Definition} {fold : RuleFold} {e : Error}

theorem binds_nil : Binds env [] final ↔ env = final := by
  constructor
  · intro h
    cases h
    rfl
  · rintro rfl
    exact .nil env

theorem binds_cons {p : Definition} :
    Binds env (p :: ps) final ↔
      ∃ v, evaluate env p.tree = .ok v ∧ Binds (env.bind p.name v) ps final := by
  constructor
  · intro h
    cases h with
    | cons value rest => exact ⟨_, value, rest⟩
  · rintro ⟨v, value, rest⟩
    exact .cons value rest

theorem breaks_nil : ¬ Breaks env [] stuck e := by
  rintro ⟨before, p, after, h, -⟩
  simp at h

theorem breaks_cons {p : Definition} :
    Breaks env (p :: ps) stuck e ↔ (stuck = env ∧ evaluate env p.tree = .error e) ∨
      ∃ v, evaluate env p.tree = .ok v ∧ Breaks (env.bind p.name v) ps stuck e := by
  constructor
  · rintro ⟨before, q, after, h, run, fault⟩
    cases run with
    | nil =>
      obtain ⟨rfl, -⟩ := List.cons.inj h
      exact .inl ⟨rfl, fault⟩
    | cons value rest =>
      obtain ⟨rfl, tail⟩ := List.cons.inj h
      exact .inr ⟨_, value, _, q, after, tail, rest, fault⟩
  · rintro (⟨rfl, fault⟩ | ⟨v, value, before, q, after, rfl, rest, fault⟩)
    · exact ⟨[], p, ps, rfl, .nil stuck, fault⟩
    · exact ⟨p :: before, q, after, rfl, .cons value rest, fault⟩

theorem bindParams_eq_ok : bindParams env ps = ⟨final, .ok ()⟩ ↔ Binds env ps final := by
  induction ps generalizing env with
  | nil => simp [bindParams, binds_nil]
  | cons p ps ih =>
    rw [bindParams, binds_cons]
    cases h : evaluate env p.tree with
    | ok v => simp [ih]
    | error e => simp

theorem bindParams_eq_error :
    bindParams env ps = ⟨stuck, .error e⟩ ↔ Breaks env ps stuck e := by
  induction ps generalizing env with
  | nil => simp [bindParams, breaks_nil]
  | cons p ps ih =>
    rw [bindParams, breaks_cons]
    cases h : evaluate env p.tree with
    | ok v => simp [ih]
    | error e' => simp [eq_comm]

theorem binds_or_breaks (env : Environment) (ps : List Definition) :
    (∃ final, Binds env ps final) ∨ ∃ stuck e, Breaks env ps stuck e := by
  cases h : bindParams env ps with
  | mk last outcome =>
    cases outcome with
    | ok _ => exact .inl ⟨last, bindParams_eq_ok.1 h⟩
    | error e => exact .inr ⟨last, e, bindParams_eq_error.1 h⟩

theorem Binds.unique {other : Environment} (h : Binds env ps final) (h' : Binds env ps other) :
    final = other := by
  have := bindParams_eq_ok.2 h
  rw [bindParams_eq_ok.2 h'] at this
  cases this
  rfl

theorem passes_strict {r : Definition} :
    Passes env .strict r ↔ evaluate env r.tree = .ok (.bool true) := by
  simp only [Passes, RuleFold.strict_passes, exists_eq_right]

theorem passes_loose {r : Definition} :
    Passes env .loose r ↔ ∃ v, evaluate env r.tree = .ok v ∧ v ≠ .bool false := by
  simp only [Passes, RuleFold.loose_passes]

theorem allPass_eq_true : allPass env fold rs = .ok true ↔ ∀ r ∈ rs, Passes env fold r := by
  induction rs with
  | nil => simp [allPass]
  | cons r rs ih =>
    simp only [allPass, bind_eq_ok, List.forall_mem_cons, ← ih]
    constructor
    · rintro ⟨v, value, h⟩
      by_cases passes : fold.passes v = true
      · exact ⟨⟨v, value, passes⟩, by simpa [passes] using h⟩
      · simp [passes, pure_eq_ok] at h
    · rintro ⟨⟨v, value, passes⟩, rest⟩
      exact ⟨v, value, by simpa [passes] using rest⟩

theorem allPass_eq_false :
    allPass env fold rs = .ok false ↔ ∃ r, Reached (Passes env fold) rs r ∧ Fails env fold r := by
  induction rs with
  | nil => simp [allPass, reached_nil]
  | cons r rs ih =>
    simp only [allPass, bind_eq_ok, reached_cons]
    constructor
    · rintro ⟨v, value, h⟩
      by_cases passes : fold.passes v = true
      · obtain ⟨x, reached, fails⟩ := ih.1 (by simpa [passes] using h)
        exact ⟨x, .inr ⟨⟨v, value, passes⟩, reached⟩, fails⟩
      · exact ⟨r, .inl rfl, v, value, by simpa using passes⟩
    · rintro ⟨x, rfl | ⟨⟨v, value, passes⟩, reached⟩, fails⟩
      · obtain ⟨v, value, passes⟩ := fails
        exact ⟨v, value, by simp [passes, pure_eq_ok]⟩
      · exact ⟨v, value, by simpa [passes] using ih.2 ⟨x, reached, fails⟩⟩

theorem allPass_eq_error :
    allPass env fold rs = .error e ↔
      ∃ r, Reached (Passes env fold) rs r ∧ evaluate env r.tree = .error e := by
  induction rs with
  | nil => simp [allPass, reached_nil]
  | cons r rs ih =>
    simp only [allPass, bind_eq_error, reached_cons]
    constructor
    · rintro (fault | ⟨v, value, h⟩)
      · exact ⟨r, .inl rfl, fault⟩
      · by_cases passes : fold.passes v = true
        · obtain ⟨x, reached, fault⟩ := ih.1 (by simpa [passes] using h)
          exact ⟨x, .inr ⟨⟨v, value, passes⟩, reached⟩, fault⟩
        · simp [passes, pure_ne_error] at h
    · rintro ⟨x, rfl | ⟨⟨v, value, passes⟩, reached⟩, fault⟩
      · exact .inl fault
      · exact .inr ⟨v, value, by simpa [passes] using ih.2 ⟨x, reached, fault⟩⟩

theorem allPass_congr {env' : Environment}
    (each : ∀ r ∈ rs, evaluate env r.tree = evaluate env' r.tree) :
    allPass env fold rs = allPass env' fold rs := by
  induction rs with
  | nil => rfl
  | cons r rs ih =>
    rw [allPass, allPass, each r (by simp), ih fun r hr => each r (by simp [hr])]

variable {w : Workflow} {host : Host} {builtins : Builtins} {input : DecisionInput}

theorem execute_of_binds (run : Binds (.forDecision host builtins input) w.params env) :
    w.execute host builtins fold input = allPass env fold w.rules := by
  simp only [execute, resolveParams, bindParams_eq_ok.2 run]
  rfl

theorem execute_of_breaks (broken : Breaks (.forDecision host builtins input) w.params stuck e) :
    w.execute host builtins fold input = .error e := by
  simp only [execute, resolveParams, bindParams_eq_error.2 broken]
  rfl

theorem execute_eq_ok {allowed : Bool} :
    w.execute host builtins fold input = .ok allowed ↔
      ∃ env, Binds (.forDecision host builtins input) w.params env ∧
        allPass env fold w.rules = .ok allowed := by
  simp only [execute, resolveParams, bind_eq_ok]
  constructor
  · rintro ⟨⟨⟩, bound, rules⟩
    exact ⟨_, bindParams_eq_ok.1 (by rw [← bound]), rules⟩
  · rintro ⟨env, bound, rules⟩
    rw [bindParams_eq_ok.2 bound]
    exact ⟨(), rfl, rules⟩

theorem execute_eq_error :
    w.execute host builtins fold input = .error e ↔
      (∃ stuck, Breaks (.forDecision host builtins input) w.params stuck e) ∨
        ∃ env, Binds (.forDecision host builtins input) w.params env ∧
          allPass env fold w.rules = .error e := by
  simp only [execute, resolveParams, bind_eq_error]
  constructor
  · rintro (broken | ⟨⟨⟩, bound, rules⟩)
    · exact .inl ⟨_, bindParams_eq_error.1 (by rw [← broken])⟩
    · exact .inr ⟨_, bindParams_eq_ok.1 (by rw [← bound]), rules⟩
  · rintro (⟨stuck, broken⟩ | ⟨env, bound, rules⟩)
    · rw [bindParams_eq_error.2 broken]
      exact .inl rfl
    · rw [bindParams_eq_ok.2 bound]
      exact .inr ⟨(), rfl, rules⟩

theorem decide_covered (covered : w.appliesTo input.path = true) :
    w.decide host builtins fold input = w.execute host builtins fold input := by
  rw [Workflow.decide, if_pos covered]

theorem decide_uncovered (uncovered : w.appliesTo input.path = false) :
    w.decide host builtins fold input = .ok true := by
  rw [Workflow.decide, uncovered, if_neg Bool.false_ne_true]

theorem decide_eq_true : w.decide host builtins fold input = .ok true ↔
    w.appliesTo input.path = false ∨ ∃ env, Binds (.forDecision host builtins input) w.params env ∧
      ∀ r ∈ w.rules, Passes env fold r := by
  cases covered : w.appliesTo input.path with
  | true =>
    rw [decide_covered covered, execute_eq_ok]
    simp only [allPass_eq_true, Bool.true_eq_false, false_or]
  | false => simp [decide_uncovered covered]

theorem decide_eq_false : w.decide host builtins fold input = .ok false ↔
    w.appliesTo input.path = true ∧ ∃ env r, Binds (.forDecision host builtins input) w.params env ∧
      Reached (Passes env fold) w.rules r ∧ Fails env fold r := by
  cases covered : w.appliesTo input.path with
  | true =>
    rw [decide_covered covered, execute_eq_ok]
    simp only [allPass_eq_false, exists_and_left, true_and]
  | false => simp [decide_uncovered covered]

theorem decide_eq_error : w.decide host builtins fold input = .error e ↔
    w.appliesTo input.path = true ∧
      ((∃ stuck, Breaks (.forDecision host builtins input) w.params stuck e) ∨
        ∃ env r, Binds (.forDecision host builtins input) w.params env ∧
          Reached (Passes env fold) w.rules r ∧ evaluate env r.tree = .error e) := by
  cases covered : w.appliesTo input.path with
  | true =>
    rw [decide_covered covered, execute_eq_error]
    simp only [allPass_eq_error, exists_and_left, true_and]
  | false => simp [decide_uncovered covered]

/-- Where a workflow does not allow, its answer tells what went wrong first. -/
theorem decide_denies (denied : w.decide host builtins fold input ≠ .ok true) :
    w.appliesTo input.path = true ∧
      ((∃ env r, Binds (.forDecision host builtins input) w.params env ∧
          Reached (Passes env fold) w.rules r ∧ Fails env fold r ∧
          w.decide host builtins fold input = .ok false) ∨
        (∃ stuck e, Breaks (.forDecision host builtins input) w.params stuck e ∧
          w.decide host builtins fold input = .error e) ∨
        ∃ env r e, Binds (.forDecision host builtins input) w.params env ∧
          Reached (Passes env fold) w.rules r ∧ evaluate env r.tree = .error e ∧
          w.decide host builtins fold input = .error e) := by
  cases answer : w.decide host builtins fold input with
  | ok allowed =>
    cases allowed with
    | true => exact absurd answer denied
    | false =>
      obtain ⟨covered, env, r, run, reached, fails⟩ := decide_eq_false.1 answer
      exact ⟨covered, .inl ⟨env, r, run, reached, fails, rfl⟩⟩
  | error e =>
    obtain ⟨covered, ⟨stuck, broken⟩ | ⟨env, r, run, reached, fault⟩⟩ := decide_eq_error.1 answer
    · exact ⟨covered, .inr (.inl ⟨stuck, e, broken, rfl⟩)⟩
    · exact ⟨covered, .inr (.inr ⟨env, r, e, run, reached, fault, rfl⟩)⟩

end Workflow

end Gatekeeper
