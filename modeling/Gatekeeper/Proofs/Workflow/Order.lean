import Gatekeeper.Proofs.Eval.Coincidence
import Gatekeeper.Proofs.NameMap
import Gatekeeper.Proofs.Workflow.Inputs
import Gatekeeper.Proofs.Workflow.WellFormed

/-!
# The order of parameters

A run over the parameters is the solution of a system of equations, one for each parameter, which
says that the parameter's variable has the value of its tree. As every tree reads what is bound
before it and no name is bound twice, the run finds the one solution there is; and a system does not
know in which order its equations were written.
-/

set_option autoImplicit false

namespace Gatekeeper.Workflow

variable {b : Builtins} {bound : List String} {env final : Environment} {ps qs : List Definition}

structure Arranged (b : Builtins) (bound : List String) (ps : List Definition) : Prop where
  scope : InScope b bound ps
  distinct : (bound ++ ps.map (·.name)).Nodup

theorem Arranged.tail {p : Definition} (h : Arranged b bound (p :: ps)) :
    Arranged b (bound ++ [p.name]) ps where
  scope := h.scope.tail
  distinct := by simpa using h.distinct

theorem Arranged.unused {name : String} (h : Arranged b bound ps) (isBound : name ∈ bound) :
    name ∉ ps.map (·.name) :=
  fun declared => (List.nodup_append.1 h.distinct).2.2 name isBound name declared rfl

/-- The environment differs from the first in the parameters alone, and each of them has there the
value of its own tree. -/
structure Solves (env : Environment) (ps : List Definition) (final : Environment) : Prop where
  rebinds : ∃ bindings, final = { env with bindings }
  value : ∀ p ∈ ps, ∃ v, final.bindings.get? p.name = some v ∧ evaluate final p.tree = .ok v
  rest : ∀ name, name ∉ ps.map (·.name) → final.bindings.get? name = env.bindings.get? name

theorem Solves.of_mem_iff (h : Solves env ps final) (same : ∀ p, p ∈ ps ↔ p ∈ qs) :
    Solves env qs final where
  rebinds := h.rebinds
  value p hp := h.value p ((same p).2 hp)
  rest name unused := by
    apply h.rest
    intro here
    obtain ⟨p, hp, rfl⟩ := List.mem_map.1 here
    exact unused (List.mem_map_of_mem ((same p).1 hp))

/-- A run leaves the names of others alone. -/
theorem Binds.rest (run : Binds env ps final) {name : String} (unused : name ∉ ps.map (·.name)) :
    final.bindings.get? name = env.bindings.get? name := by
  induction run with
  | nil env => rfl
  | @cons env final p ps v value run ih =>
    obtain ⟨other, later⟩ := not_or.1 (mt List.mem_cons.2 unused)
    rw [ih later, get?_bind, if_neg (Ne.symm other)]

/-- What stands first reads nothing that the rest of the run binds, so it has the same value at
first and at last. -/
theorem Arranged.evaluate_first {p : Definition} (h : Arranged env.builtins bound (p :: ps))
    (rebinds : ∃ bindings, final = { env with bindings })
    (rest : ∀ name, name ∉ (p :: ps).map (·.name) →
      final.bindings.get? name = env.bindings.get? name) :
    evaluate final p.tree = evaluate env p.tree := by
  have admitted : Admitted env.builtins bound p.tree := by
    simpa using h.scope [] p ps rfl
  obtain ⟨bindings, rfl⟩ := rebinds
  have same : ∀ name, p.tree.Has (.variable name) →
      bindings.get? name = env.bindings.get? name :=
    fun name mentioned => rest name (h.unused (admitted.of_mentions mentioned))
  exact evaluate_congr ⟨rfl, rfl, fun _ _ => rfl, same⟩

theorem Solves.of_binds (h : Arranged env.builtins bound ps) (run : Binds env ps final) :
    Solves env ps final := by
  induction run generalizing bound with
  | nil env => exact ⟨⟨_, rfl⟩, by simp, fun _ _ => rfl⟩
  | @cons env final p ps v value run ih =>
    have whole : Binds env (p :: ps) final := .cons value run
    have later := ih h.tail
    have single : p.name ∉ ps.map (·.name) := h.tail.unused (by simp)
    have here : final.bindings.get? p.name = some v := by
      rw [run.rest single, get?_bind, if_pos rfl]
    have first : evaluate final p.tree = .ok v := by
      rw [h.evaluate_first whole.rebinds fun _ unused => whole.rest unused, value]
    exact ⟨whole.rebinds, List.forall_mem_cons.2 ⟨⟨v, here, first⟩, later.value⟩,
      fun _ unused => whole.rest unused⟩

theorem Solves.tail {p : Definition} {v : Value} (h : Solves env (p :: ps) final)
    (here : final.bindings.get? p.name = some v) : Solves (env.bind p.name v) ps final where
  rebinds := by
    obtain ⟨bindings, rfl⟩ := h.rebinds
    exact ⟨bindings, rfl⟩
  value q hq := h.value q (List.mem_cons_of_mem p hq)
  rest name unused := by
    rw [get?_bind]
    by_cases same : p.name = name
    · rw [if_pos same, ← same, here]
    · rw [if_neg same]
      apply h.rest
      simpa [Ne.symm same] using unused

theorem Solves.binds (arranged : Arranged env.builtins bound ps) (h : Solves env ps final) :
    Binds env ps final := by
  induction ps generalizing env bound with
  | nil =>
    obtain ⟨bindings, rfl⟩ := h.rebinds
    have same : bindings = env.bindings := NameMap.eq_of_get? fun name => h.rest name (by simp)
    rw [same]
    exact .nil env
  | cons p ps ih =>
    obtain ⟨v, here, value⟩ := h.value p (by simp)
    -- the solution tells the value of the first parameter already before the run
    rw [arranged.evaluate_first h.rebinds h.rest] at value
    exact .cons value (ih arranged.tail (h.tail here))

/-- The run ends in the solution. -/
theorem binds_iff_solves (arranged : Arranged env.builtins bound ps) :
    Binds env ps final ↔ Solves env ps final :=
  ⟨Solves.of_binds arranged, Solves.binds arranged⟩

/-- Parameters bind the same in every arrangement. -/
theorem binds_iff_of_mem (arranged : Arranged env.builtins bound ps)
    (arranged' : Arranged env.builtins bound qs) (same : ∀ p, p ∈ ps ↔ p ∈ qs) :
    Binds env ps final ↔ Binds env qs final := by
  rw [binds_iff_solves arranged, binds_iff_solves arranged']
  exact ⟨fun h => h.of_mem_iff same, fun h => h.of_mem_iff fun p => (same p).symm⟩

/-! ## Documents -/

variable {d : Document} {w : Workflow}

/-- Parameters call nothing, so they are in scope whatever functions there are. -/
theorem compile_arranged {b' : Builtins} (compiled : compile d b = .ok w) :
    Arranged b' contextVariables w.params where
  scope := by
    obtain ⟨-, params, rules, hparams, -, rfl⟩ := compile_eq_ok.1 compiled
    rintro before p after rfl
    exact defineParams_admitted hparams
  distinct := by
    obtain ⟨⟨head, -⟩, -⟩ := compile_eq_ok.1 compiled
    rw [compile_params_names compiled]
    refine List.nodup_append.2 ⟨by decide, head.distinct, ?_⟩
    rintro name context other declared rfl
    obtain ⟨p, hp, rfl⟩ := List.mem_map.1 declared
    exact (head.params p hp).2.1 context

theorem compile_carries (compiled : compile d b = .ok w) : Carries d w := by
  have meets := compile_meets d b
  rw [compiled] at meets
  exact meets.2

theorem readAs_unique : Relator.RightUnique ReadAs := by
  rintro p ⟨name, expression, tree⟩ ⟨name', expression', tree'⟩ ⟨rfl, rfl, read⟩ ⟨rfl, rfl, read'⟩
  rw [read] at read'
  cases read'
  rfl

/-- The parameters of a workflow are told by those that are declared. -/
theorem mem_params_iff (h : Carries d w) {q : Definition} :
    q ∈ w.params ↔ ∃ p ∈ d.params, ReadAs p q := by
  constructor
  · exact of_forall₂_right h.params
  · rintro ⟨p, hp, read⟩
    obtain ⟨q', hq', read'⟩ := of_forall₂_left h.params hp
    rw [readAs_unique read read']
    exact hq'

/-- The order in which parameters are declared makes no difference as long as both documents
compile. On every input the parameters of both bind, and then to the same values, or break in both;
the decisions are the same, or both are errors, though not always the same one: another parameter
may be the first to fail. -/
theorem param_order_irrelevant {params : List Declaration} {w' : Workflow}
    (moved : d.params.Perm params) (compiled : compile d b = .ok w)
    (compiled' : compile { d with params } b = .ok w') (host : Host) (input : DecisionInput) :
    (∀ env, w.resolveParams (.forDecision host b input) = ⟨env, .ok ()⟩ ↔
      w'.resolveParams (.forDecision host b input) = ⟨env, .ok ()⟩) ∧
    ∀ fold,
      (∃ allowed, w.decide host b fold input = .ok allowed ∧
        w'.decide host b fold input = .ok allowed) ∨
      ∃ e e', w.decide host b fold input = .error e ∧ w'.decide host b fold input = .error e' := by
  have carries := compile_carries compiled
  have carries' := compile_carries compiled'
  have same : ∀ p, p ∈ w.params ↔ p ∈ w'.params := by
    intro p
    simp only [mem_params_iff carries, mem_params_iff carries', moved.mem_iff]
  have binds : ∀ env, Binds (.forDecision host b input) w.params env ↔
      Binds (.forDecision host b input) w'.params env := fun env =>
    binds_iff_of_mem (compile_arranged compiled) (compile_arranged compiled') same
  have rules : w.rules = w'.rules :=
    List.right_unique_forall₂' readAs_unique carries.rules carries'.rules
  have pattern : w.pattern = w'.pattern := carries.path.trans carries'.path.symm
  refine ⟨fun env => ?_, fun fold => ?_⟩
  · rw [resolveParams, resolveParams, bindParams_eq_ok, bindParams_eq_ok, binds env]
  · apply ok_or_errors
    intro allowed
    rw [Workflow.decide, Workflow.decide, appliesTo, appliesTo, pattern]
    split
    · simp only [execute_eq_ok, binds, rules]
    · rfl

def movedParams : List Declaration :=
  [⟨"area", "$request.path"⟩, ⟨"who", "$user"⟩, ⟨"role", "$who.getRole"⟩]

def movedWorkflow : Workflow :=
  { deskWorkflow with
    params :=
      [⟨"area", "$request.path", .member (.variable "request") (.identifier "path")⟩,
        ⟨"who", "$user", .variable "user"⟩,
        ⟨"role", "$who.getRole", .member (.variable "who") (.identifier "getRole")⟩] }

theorem moved_compiles :
    compile { deskDocument with params := movedParams } .standard = .ok movedWorkflow := by
  have valid : ({ deskDocument with params := movedParams } : Document).validate = .ok () := by rfl
  refine compile_eq_ok.2 ⟨Document.validate_eq_ok.1 valid, _, _, ?_, ?_, rfl⟩
  · refine defineParams_cons.2 ⟨_, _, define_eq_ok.2 ⟨_, parse_area, rfl, rfl⟩, ?_, rfl⟩
    refine defineParams_cons.2 ⟨_, _, define_eq_ok.2 ⟨_, parse_user, rfl, rfl⟩, ?_, rfl⟩
    exact defineParams_cons.2 ⟨_, _, define_eq_ok.2 ⟨_, parse_role, rfl, rfl⟩, rfl, rfl⟩
  · exact mapM_eq_ok.2 (.cons (define_eq_ok.2 ⟨_, parse_staff, rfl, rfl⟩)
      (.cons (define_eq_ok.2 ⟨_, parse_safe, rfl, rfl⟩) .nil))

theorem param_order_irrelevant_desk :
    deskDocument.params.Perm movedParams ∧
      (∃ env, deskWorkflow.resolveParams (.forDecision .bare .standard staffer) = ⟨env, .ok ()⟩ ∧
        movedWorkflow.resolveParams (.forDecision .bare .standard staffer) = ⟨env, .ok ()⟩) ∧
      movedWorkflow.decide .bare .standard .strict staffer = .ok true := by
  have moved : deskDocument.params.Perm movedParams := .swap _ _ _
  obtain ⟨binds, decides⟩ :=
    param_order_irrelevant moved desk_compiles moved_compiles .bare staffer
  refine ⟨moved, ⟨_, rfl, (binds _).1 rfl⟩, ?_⟩
  have answer : deskWorkflow.decide .bare .standard .strict staffer = .ok true := by cbv
  rcases decides .strict with ⟨allowed, first, second⟩ | ⟨e, e', first, -⟩
  · rw [answer] at first
    cases first
    exact second
  · rw [answer] at first
    cases first

end Gatekeeper.Workflow
