import Gatekeeper.Proofs.Eval.Faults
import Gatekeeper.Proofs.Workflow.Run

/-!
# Soundness of the static checks

The names that the checks take for granted are those that are bound when an expression is reached.
The invariant ties the two together after each parameter; from it every error of a compiled
workflow is a fault of its data, never of its expressions.
-/

set_option autoImplicit false

namespace Gatekeeper.Workflow

variable {env final : Environment} {ps : List Definition} {bound : List String}

def InScope (b : Builtins) (bound : List String) (ps : List Definition) : Prop :=
  ∀ before p after, ps = before ++ p :: after →
    Admitted b (bound ++ before.map (·.name)) p.tree

theorem InScope.tail {b : Builtins} {p : Definition} (h : InScope b bound (p :: ps)) :
    InScope b (bound ++ [p.name]) ps := by
  intro before q after split
  have whole := h (p :: before) q after (by rw [split, List.cons_append])
  simpa using whole

theorem InScope.of_append {b : Builtins} {before : List Definition} {p : Definition}
    {after : List Definition} (h : InScope b bound (before ++ p :: after)) :
    InScope b bound before := by
  rintro first q rest rfl
  exact h first q (rest ++ p :: after) (by simp)

theorem Binds.rebinds (run : Binds env ps final) :
    ∃ bindings, final = { env with bindings } := by
  induction run with
  | nil env => exact ⟨env.bindings, rfl⟩
  | cons value rest ih =>
    obtain ⟨bindings, rfl⟩ := ih
    exact ⟨bindings, rfl⟩

theorem Binds.builtins_eq (run : Binds env ps final) : final.builtins = env.builtins := by
  obtain ⟨bindings, rfl⟩ := run.rebinds
  rfl

/-- A value stems from before the run or from one of its parameters. -/
theorem Binds.origin (run : Binds env ps final) {name : String} {v : Value}
    (h : final.bindings.get? name = some v) :
    env.bindings.get? name = some v ∨ ∃ p ∈ ps, p.name = name := by
  induction run with
  | nil env => exact .inl h
  | @cons env final p ps value' value rest ih =>
    rcases ih h with here | ⟨q, hq, rfl⟩
    · by_cases same : p.name = name
      · exact .inr ⟨p, by simp, same⟩
      · have := NameMap.get?_insert env.bindings p.name name value'
        rw [if_neg same] at this
        exact .inl (this ▸ here)
    · exact .inr ⟨q, by simp [hq], rfl⟩

theorem covers_bind {name : String} {v : Value} (covers : Covers env bound)
    (reach : Reachable env v) : Covers (env.bind name v) (bound ++ [name]) := by
  constructor
  · intro other hother
    show ∃ u, (env.bindings.insert name v).get? other = some u
    rw [NameMap.get?_insert]
    by_cases same : name = other
    · exact ⟨v, by simp [same]⟩
    · have before : other ∈ bound := by simpa [Ne.symm same] using hother
      simpa [same] using covers.present other before
  · intro other u hu
    have found : (env.bindings.insert name v).get? other = some u := hu
    rw [NameMap.get?_insert] at found
    rw [reachable_bind]
    by_cases same : name = other
    · rw [if_pos same] at found
      cases found
      exact reach
    · rw [if_neg same] at found
      exact covers.within other u found

/-- A parameter whose scope is bound extends what is bound by its own name. -/
theorem covers_after {p : Definition} {v : Value} (covers : Covers env bound)
    (admitted : Admitted env.builtins bound p.tree) (value : evaluate env p.tree = .ok v) :
    Covers (env.bind p.name v) (bound ++ [p.name]) := by
  have reach := evaluate_meets admitted covers
  rw [value] at reach
  exact covers_bind covers reach

theorem Binds.covers (run : Binds env ps final) (scope : InScope env.builtins bound ps)
    (covers : Covers env bound) : Covers final (bound ++ ps.map (·.name)) := by
  induction run generalizing bound with
  | nil env => simpa using covers
  | @cons env final p ps v value rest ih =>
    have admitted : Admitted env.builtins bound p.tree := by
      simpa using scope [] p ps rfl
    have whole := ih scope.tail (covers_after covers admitted value)
    simpa using whole

theorem forDecision_covers (host : Host) (b : Builtins) (input : DecisionInput) :
    Covers (.forDecision host b input) contextVariables := by
  have blank : Covers { Environment.blank host b with input } [] := by
    refine ⟨by simp, ?_⟩
    intro name v h
    cases h
  exact covers_bind (covers_bind blank .user) .request

theorem forDecision_defined {host : Host} {b : Builtins} {input : DecisionInput} {name : String} :
    (Environment.forDecision host b input).bindings.get? name ≠ some .undefined := by
  intro h
  have found : ((NameMap.empty.insert userVariable (Value.object .user)).insert requestVariable
    (Value.object .request)).get? name = some .undefined := h
  rw [NameMap.get?_insert, NameMap.get?_insert] at found
  by_cases request : requestVariable = name <;> by_cases user : userVariable = name <;>
    simp [request, user, NameMap.get?_empty] at found

theorem answers_rebind (bindings : NameMap Value) (answers : NativesAnswer env) :
    NativesAnswer { env with bindings } := by
  intro name key arguments called inputs
  exact answers name key arguments (called.rebind env.bindings)
    fun a ha => (inputs a ha).rebind env.bindings

/-- What an error tells in an environment that a run from the context has led to. -/
theorem Binds.fault_cases {host : Host} {b : Builtins} {input : DecisionInput}
    (run : Binds (.forDecision host b input) ps final)
    (answers : NativesAnswer (.forDecision host b input)) {e : Error} (fault : Fault final e) :
    (∃ p ∈ ps, final.bindings.get? p.name = some .undefined ∧
      e = .execution (.unresolvedVariable p.name)) ∨
    ∃ key, e = .execution (.memberOfUndefined key) := by
  have answers' : NativesAnswer final := by
    obtain ⟨bindings, rfl⟩ := run.rebinds
    exact answers_rebind bindings answers
  rcases fault.cases_of_answers answers' with ⟨name, empty, rfl⟩ | known
  · rcases run.origin empty with context | ⟨p, hp, rfl⟩
    · exact absurd context forDecision_defined
    · exact .inl ⟨p, hp, empty, rfl⟩
  · exact .inr known

theorem evaluate_fault {e : Error} {tree : Expr} (admitted : Admitted env.builtins bound tree)
    (covers : Covers env bound) (failed : evaluate env tree = .error e) : Fault env e := by
  have meets := evaluate_meets admitted covers
  rw [failed] at meets
  exact meets

theorem covers_contains {name : String} {tree : Expr} (admitted : Admitted env.builtins bound tree)
    (covers : Covers env bound) (mentioned : tree.Mentions name) :
    env.bindings.contains name = true := by
  obtain ⟨v, hv⟩ := covers.present name (admitted.of_mentions mentioned)
  rw [NameMap.contains, hv]
  rfl

/-- A parameter of a compiled workflow is reached with all that it may read bound, and so is a
rule. -/
theorem compile_covers {d : Document} {b : Builtins} {w : Workflow} (compiled : compile d b = .ok w)
    (host : Host) (input : DecisionInput) :
    (∀ before p after env, w.params = before ++ p :: after →
      Binds (.forDecision host b input) before env →
        ∃ bound, Covers env bound ∧ Admitted env.builtins bound p.tree) ∧
    ∀ env, Binds (.forDecision host b input) w.params env → ∀ r ∈ w.rules,
      ∃ bound, Covers env bound ∧ Admitted env.builtins bound r.tree := by
  obtain ⟨scope, rules⟩ := compile_admitted compiled
  have context := forDecision_covers host b input
  constructor
  · intro before p after env split run
    have whole : InScope b contextVariables (before ++ p :: after) := by
      rw [← split]
      exact scope
    have inner := whole.of_append
    refine ⟨_, run.covers inner context, ?_⟩
    rw [run.builtins_eq]
    exact scope before p after split
  · intro env run r hr
    refine ⟨_, run.covers scope context, ?_⟩
    rw [run.builtins_eq]
    exact (rules r hr).mono fun name hn => by simp [hn]

/-- A fault in the environment that the parameters end in, told in the document's own names. -/
theorem fault_declared {d : Document} {b : Builtins} {w : Workflow} (compiled : compile d b = .ok w)
    {host : Host} {input : DecisionInput} (answers : NativesAnswer (.forDecision host b input))
    (run : Binds (.forDecision host b input) ps final) (within : ∀ q ∈ ps, q ∈ w.params)
    (last : (w.resolveParams (.forDecision host b input)).env = final) {e : Error}
    (fault : Fault final e) :
    (∃ p ∈ d.params, e = .execution (.unresolvedVariable p.name) ∧
      (w.resolveParams (.forDecision host b input)).env.bindings.get? p.name = some .undefined) ∨
    ∃ key, e = .execution (.memberOfUndefined key) := by
  rcases run.fault_cases answers fault with ⟨q, hq, empty, rfl⟩ | undefined
  · have named : q.name ∈ d.params.map (·.name) := by
      rw [← compile_params_names compiled]
      exact List.mem_map_of_mem (within q hq)
    obtain ⟨p, hp, same⟩ := List.mem_map.1 named
    exact .inl ⟨p, hp, by rw [same], by rw [same, last]; exact empty⟩
  · exact .inr undefined

theorem bare_answers (b : Builtins) (input : DecisionInput) :
    NativesAnswer (.forDecision .bare b input) := by
  intro name key arguments called inputs
  exact ⟨.undefined, rfl⟩

/-- No variable that is absent is read, be it in a parameter or in a rule. Where the functions of
the embedding program answer, an error of a decision is a parameter that was bound to nothing or a
member of nothing. -/
theorem compiled_errors {d : Document} {b : Builtins} {w : Workflow}
    (compiled : compile d b = .ok w) (host : Host) (fold : RuleFold) (input : DecisionInput) :
    (∀ before p after env, w.params = before ++ p :: after →
      bindParams (.forDecision host b input) before = ⟨env, .ok ()⟩ →
        ∀ name, p.tree.Mentions name → env.bindings.contains name = true) ∧
    (∀ env, w.resolveParams (.forDecision host b input) = ⟨env, .ok ()⟩ → ∀ r ∈ w.rules,
      ∀ name, r.tree.Mentions name → env.bindings.contains name = true) ∧
    (NativesAnswer (.forDecision host b input) →
      ∀ e, w.execute host b fold input = .error e →
        (∃ p ∈ d.params, e = .execution (.unresolvedVariable p.name) ∧
          (w.resolveParams (.forDecision host b input)).env.bindings.get? p.name =
            some .undefined) ∨
        ∃ key, e = .execution (.memberOfUndefined key)) := by
  obtain ⟨paramCovers, ruleCovers⟩ := compile_covers compiled host input
  refine ⟨?_, ?_, ?_⟩
  · intro before p after env split bound name mentioned
    obtain ⟨_, covers, admitted⟩ := paramCovers before p after env split (bindParams_eq_ok.1 bound)
    exact covers_contains admitted covers mentioned
  · intro env bound r hr name mentioned
    obtain ⟨_, covers, admitted⟩ := ruleCovers env (bindParams_eq_ok.1 bound) r hr
    exact covers_contains admitted covers mentioned
  · intro answers e failed
    rcases execute_eq_error.1 failed with ⟨stuck, broken⟩ | ⟨env, run, reached⟩
    · have last : (w.resolveParams (.forDecision host b input)).env = stuck := by
        rw [resolveParams, bindParams_eq_error.2 broken]
      obtain ⟨before, p, after, split, run, failure⟩ := broken
      obtain ⟨_, covers, admitted⟩ := paramCovers before p after stuck split run
      exact fault_declared compiled answers run (fun q hq => by simp [split, hq]) last
        (evaluate_fault admitted covers failure)
    · have last : (w.resolveParams (.forDecision host b input)).env = env := by
        rw [resolveParams, bindParams_eq_ok.2 run]
      obtain ⟨r, reach, failure⟩ := allPass_eq_error.1 reached
      obtain ⟨_, covers, admitted⟩ := ruleCovers env run r reach.mem
      exact fault_declared compiled answers run (fun q hq => hq) last
        (evaluate_fault admitted covers failure)

theorem compiled_errors_team :
    teamWorkflow.execute .bare .standard .strict guest =
        .error (.execution (.unresolvedVariable "team")) ∧
      (teamWorkflow.resolveParams (.forDecision .bare .standard guest)).env.bindings.get? "team" =
        some .undefined := by
  have failed : teamWorkflow.execute .bare .standard .strict guest =
      .error (.execution (.unresolvedVariable "team")) := by cbv
  obtain ⟨-, -, errors⟩ := compiled_errors team_compiles .bare .strict guest
  rcases errors (bare_answers .standard guest) _ failed with ⟨p, -, same, empty⟩ | ⟨key, same⟩
  · have named : p.name = "team" := by simpa [eq_comm] using same
    rw [named] at empty
    exact ⟨failed, empty⟩
  · simp at same

end Gatekeeper.Workflow
