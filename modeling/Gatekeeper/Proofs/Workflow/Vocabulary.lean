import Gatekeeper.Proofs.Workflow.Order

/-!
# The vocabulary of a document

What is registered reaches a document by the words of its expressions alone: compilation asks
whether a callee is a function, evaluation what a word stands for. So two registries that have the
same under each of these words are the same to the document and to its decisions, and more can be
registered at any time without a change to the policies that do not say it.
-/

set_option autoImplicit false

namespace Gatekeeper

def Document.Says (d : Document) (word : String) : Prop :=
  ∃ x, (x ∈ d.params ∨ x ∈ d.rules) ∧ ∃ tree, Expr.parse x.expression = .ok tree ∧
    tree.Has (.identifier word)

def SameWords (b b' : Builtins) (e : Expr) : Prop :=
  ∀ word, e.Has (.identifier word) → b.get? word = b'.get? word

namespace Workflow

variable {b b' : Builtins} {declared : List String} {env : Environment}

/-! ## Compilation -/

theorem ruleCheck_inspect_congr {node : Expr × Place}
    (same : ∀ word, node.1 = .identifier word → b.get? word = b'.get? word) :
    (ruleCheck b declared).inspect node = (ruleCheck b' declared).inspect node := by
  obtain ⟨e, place⟩ := node
  cases e with
  | identifier name =>
    have functions : b.isFunction name = b'.isFunction name := by
      rw [Builtins.isFunction, Builtins.isFunction, same name rfl]
    simp only [Visitor.inspect, Visitor.onKind, ruleCheck, functions]
  | _ => rfl

theorem ruleCheck_visit_congr {e : Expr} (same : SameWords b b' e) :
    (ruleCheck b declared).visit e = (ruleCheck b' declared).visit e := by
  rw [Visitor.visit, Visitor.visit, walk_eq_forM, walk_eq_forM]
  apply forM_congr
  rintro ⟨part, place⟩ hn
  apply ruleCheck_inspect_congr
  rintro word rfl
  exact same word ⟨place, hn⟩

theorem define_congr {check check' : Check} {x : Declaration}
    (visits : ∀ tree, Expr.parse x.expression = .ok tree → check.visit tree = check'.visit tree) :
    define check x = define check' x := by
  unfold define
  cases read : Expr.parse x.expression with
  | error e => rfl
  | ok tree =>
    show check.visit tree >>= _ = check'.visit tree >>= _
    rw [visits tree read]

theorem defineRules_congr {rs : List Declaration}
    (same : ∀ r ∈ rs, ∀ tree, Expr.parse r.expression = .ok tree → SameWords b b' tree) :
    defineRules (ruleCheck b declared) rs = defineRules (ruleCheck b' declared) rs := by
  induction rs with
  | nil => rfl
  | cons r rs ih =>
    obtain ⟨here, later⟩ := List.forall_mem_cons.1 same
    have first : define (ruleCheck b declared) r = define (ruleCheck b' declared) r :=
      define_congr fun tree read => ruleCheck_visit_congr (here tree read)
    rw [defineRules, defineRules, first, ih later]

theorem compile_congr {d : Document}
    (same : ∀ r ∈ d.rules, ∀ tree, Expr.parse r.expression = .ok tree → SameWords b b' tree) :
    compile d b = compile d b' := by
  rw [compile, compile, defineRules_congr same]

/-! ## Decisions -/

/-- Another registry makes no difference to a tree as long as it has the same under its words. -/
theorem evaluate_builtins {e : Expr} (same : SameWords env.builtins b' e) :
    evaluate { env with builtins := b' } e = evaluate env e := by
  have coincide : Coincide e env { env with builtins := b' } := ⟨rfl, rfl, same, fun _ _ => rfl⟩
  exact (evaluate_congr coincide).symm

/-- With another registry the parameters bind the same values, up to the same parameter. -/
theorem bindParams_builtins (env : Environment) {ps : List Definition}
    (same : ∀ p ∈ ps, SameWords env.builtins b' p.tree) :
    bindParams { env with builtins := b' } ps =
      ⟨{ (bindParams env ps).env with builtins := b' }, (bindParams env ps).outcome⟩ := by
  induction ps generalizing env with
  | nil => rfl
  | cons p ps ih =>
    obtain ⟨here, later⟩ := List.forall_mem_cons.1 same
    rw [bindParams, bindParams, evaluate_builtins here]
    cases evaluate env p.tree with
    | error e => rfl
    | ok v => exact ih (env.bind p.name v) later

theorem execute_builtins {w : Workflow} (params : ∀ p ∈ w.params, SameWords b b' p.tree)
    (rules : ∀ r ∈ w.rules, SameWords b b' r.tree) (host : Host) (fold : RuleFold)
    (input : DecisionInput) :
    w.execute host b' fold input = w.execute host b fold input := by
  have other : bindParams (.forDecision host b' input) w.params =
      ⟨{ (bindParams (.forDecision host b input) w.params).env with builtins := b' },
        (bindParams (.forDecision host b input) w.params).outcome⟩ :=
    bindParams_builtins (.forDecision host b input) params
  rcases binds_or_breaks (.forDecision host b input) w.params with ⟨env, run⟩ | ⟨stuck, e, broken⟩
  · have run' : Binds (.forDecision host b' input) w.params { env with builtins := b' } :=
      bindParams_eq_ok.1 (by rw [other, bindParams_eq_ok.2 run])
    have builtins : env.builtins = b := run.builtins_eq
    rw [execute_of_binds run', execute_of_binds run]
    exact allPass_congr fun r hr => evaluate_builtins (builtins ▸ rules r hr)
  · have broken' : Breaks (.forDecision host b' input) w.params { stuck with builtins := b' } e :=
      bindParams_eq_error.1 (by rw [other, bindParams_eq_error.2 broken])
    rw [execute_of_breaks broken', execute_of_breaks broken]

/-! ## Documents -/

variable {d : Document} {w : Workflow}

/-- What a document that compiles says stands in the trees of its workflow. -/
theorem says_iff (h : Carries d w) {word : String} :
    d.Says word ↔ ∃ q, (q ∈ w.params ∨ q ∈ w.rules) ∧ q.tree.Has (.identifier word) := by
  constructor
  · rintro ⟨x, hx, tree, read, inside⟩
    obtain ⟨q, hq, -, -, read'⟩ := h.definition hx
    rw [read] at read'
    cases read'
    exact ⟨q, hq, inside⟩
  · rintro ⟨q, hq, inside⟩
    obtain ⟨x, hx, -, -, read⟩ := h.declaration hq
    exact ⟨x, hx, q.tree, read, inside⟩

/-- What is registered under words that a document does not say makes no difference to it: neither
to the workflow that it compiles to nor to the error it is rejected with, nor to any decision. -/
theorem unsaid_builtins_irrelevant (d : Document) (b b' : Builtins)
    (same : ∀ word, d.Says word → b.get? word = b'.get? word) :
    compile d b = compile d b' ∧ ∀ w, compile d b = .ok w → ∀ host fold input,
      w.decide host b fold input = w.decide host b' fold input := by
  constructor
  · apply compile_congr
    intro r hr tree read word inside
    exact same word ⟨r, .inr hr, tree, read, inside⟩
  · intro w compiled host fold input
    have said : ∀ q, (q ∈ w.params ∨ q ∈ w.rules) → SameWords b b' q.tree := by
      intro q hq word inside
      exact same word ((says_iff (compile_carries compiled)).2 ⟨q, hq, inside⟩)
    have executed := execute_builtins (fun p hp => said p (.inl hp)) (fun r hr => said r (.inr hr))
      host fold input
    rw [Workflow.decide, Workflow.decide, executed]

def audited : Builtins :=
  (Builtins.standard.insert "audit" (.function (.native "audit" 0))).insert "staff" (.string "user")

theorem desk_says {word : String} (said : deskDocument.Says word) :
    word ∈ ["path", "getRole", "in", "STAFF", "OWNER"] := by
  obtain ⟨q, hq, place, here⟩ := (says_iff (compile_carries desk_compiles)).1 said
  simp only [deskWorkflow, List.mem_cons, List.not_mem_nil, or_false] at hq
  rcases hq with (rfl | rfl | rfl) | (rfl | rfl) <;>
    simp [Expr.nodes, Expr.argumentNodes] at here <;> simp <;> tauto

/-- The desk has no word for what is registered beside the standard functions. -/
theorem unsaid_builtins_irrelevant_desk :
    compile deskDocument audited = .ok deskWorkflow ∧
      deskWorkflow.decide .bare audited .strict staffer = .ok true := by
  have same : ∀ word, deskDocument.Says word → Builtins.standard.get? word = audited.get? word := by
    intro word said
    have known := desk_says said
    rw [audited, NameMap.get?_insert, NameMap.get?_insert, if_neg, if_neg]
    · rintro rfl
      simp at known
    · rintro rfl
      simp at known
  obtain ⟨compiles, decides⟩ := unsaid_builtins_irrelevant deskDocument .standard audited same
  have answer : deskWorkflow.decide .bare .standard .strict staffer = .ok true := by cbv
  refine ⟨?_, ?_⟩
  · rw [← compiles, desk_compiles]
  · rw [← decides deskWorkflow desk_compiles, answer]

end Workflow

end Gatekeeper
