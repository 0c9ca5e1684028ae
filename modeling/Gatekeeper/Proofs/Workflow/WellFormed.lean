import Gatekeeper.Proofs.Workflow.Checks

/-!
# Well-formed documents

The documents that compile, as a language of its own: what is asked of the texts, of the names and
of the tree of each expression. Compilation accepts exactly these, a workflow has the trees of its
document's expressions in order, and what is not accepted is blamed on the structure or else on the
first expression that does not meet what is asked of it.
-/

set_option autoImplicit false

namespace Gatekeeper

def Filled (s : String) : Prop := ∃ c ∈ s.toList, isBlank c = false

def IsWord (s : String) : Prop := s.toList ≠ [] ∧ ∀ c ∈ s.toList, isWordChar c = true

theorem allBlank_eq_false {s : String} : allBlank s = false ↔ Filled s := by
  simp [allBlank, Filled]

theorem isVariableName_eq_true {s : String} : isVariableName s = true ↔ IsWord s := by
  simp [isVariableName, IsWord]

structure Document.Structured (d : Document) : Prop where
  name : Filled d.name
  path : Filled d.path
  words : ∀ p ∈ d.params, IsWord p.name
  unshadowed : ∀ p ∈ d.params, p.name ≠ "user" ∧ p.name ≠ "request"
  distinct : (d.params.map (·.name)).Nodup
  params : ∀ p ∈ d.params, Filled p.expression
  rules : ∀ r ∈ d.rules, Filled r.name ∧ Filled r.expression

theorem Document.validate_iff_structured {d : Document} :
    d.validate = .ok () ↔ d.Structured := by
  have shadows : ∀ name : String, name ∉ contextVariables ↔ name ≠ "user" ∧ name ≠ "request" := by
    simp [contextVariables, userVariable, requestVariable]
  rw [validate_eq_ok]
  constructor
  · rintro ⟨⟨name, path, params, distinct⟩, rules⟩
    exact ⟨allBlank_eq_false.1 name, allBlank_eq_false.1 path,
      fun p hp => isVariableName_eq_true.1 (params p hp).1,
      fun p hp => (shadows _).1 (params p hp).2.1, distinct,
      fun p hp => allBlank_eq_false.1 (params p hp).2.2,
      fun r hr => ⟨allBlank_eq_false.1 (rules r hr).1, allBlank_eq_false.1 (rules r hr).2⟩⟩
  · rintro ⟨name, path, words, unshadowed, distinct, params, rules⟩
    refine ⟨⟨allBlank_eq_false.2 name, allBlank_eq_false.2 path, fun p hp => ?_, distinct⟩,
      fun r hr => ⟨allBlank_eq_false.2 (rules r hr).1, allBlank_eq_false.2 (rules r hr).2⟩⟩
    exact ⟨isVariableName_eq_true.2 (words p hp), (shadows _).2 (unshadowed p hp),
      allBlank_eq_false.2 (params p hp)⟩

theorem Document.validate_eq_error {d : Document} {e : Error} (h : d.validate = .error e) :
    ∃ fault, e = .invalidDocument fault := by
  unfold validate at h
  split at h
  · rename_i fault _
    cases h
    exact ⟨fault, rfl⟩
  · cases h

theorem Expr.parse_eq_error {source : String} {e : Error} (h : parse source = .error e) :
    (∃ fault, e = .lexical fault) ∨ ∃ fault, e = .malformed fault source := by
  simp only [parse] at h
  split at h <;> cases h
  · exact .inl ⟨_, rfl⟩
  · exact .inl ⟨_, rfl⟩
  · exact .inr ⟨_, rfl⟩

/-- A well-formed document: the structure, and what the expressions read as. A parameter may refer
to the context and to the parameters before it, a rule to every parameter and to nothing else. -/
structure WellFormed (d : Document) (b : Builtins) : Prop where
  structured : d.Structured
  params : ∀ before p after, d.params = before ++ p :: after →
    ∃ tree, Expr.parse p.expression = .ok tree ∧
      Reference ("user" :: "request" :: before.map (·.name)) tree
  rules : ∀ r ∈ d.rules, ∃ tree, Expr.parse r.expression = .ok tree ∧
    Grounded b (d.params.map (·.name)) tree

def ReadAs (p : Declaration) (q : Definition) : Prop :=
  q.name = p.name ∧ q.expression = p.expression ∧ Expr.parse p.expression = .ok q.tree

structure Carries (d : Document) (w : Workflow) : Prop where
  id : w.id = d.id
  name : w.name = d.name
  path : w.pattern = ⟨d.path⟩
  params : List.Forall₂ ReadAs d.params w.params
  rules : List.Forall₂ ReadAs d.rules w.rules

theorem Carries.definition {d : Document} {w : Workflow} (h : Carries d w) {x : Declaration}
    (hx : x ∈ d.params ∨ x ∈ d.rules) : ∃ q, (q ∈ w.params ∨ q ∈ w.rules) ∧ ReadAs x q := by
  rcases hx with hx | hx
  · obtain ⟨q, hq, read⟩ := of_forall₂_left h.params hx
    exact ⟨q, .inl hq, read⟩
  · obtain ⟨q, hq, read⟩ := of_forall₂_left h.rules hx
    exact ⟨q, .inr hq, read⟩

theorem Carries.declaration {d : Document} {w : Workflow} (h : Carries d w) {q : Definition}
    (hq : q ∈ w.params ∨ q ∈ w.rules) : ∃ x, (x ∈ d.params ∨ x ∈ d.rules) ∧ ReadAs x q := by
  rcases hq with hq | hq
  · obtain ⟨x, hx, read⟩ := of_forall₂_right h.params hq
    exact ⟨x, .inl hx, read⟩
  · obtain ⟨x, hx, read⟩ := of_forall₂_right h.rules hq
    exact ⟨x, .inr hx, read⟩

structure Demand where
  expression : String
  admits : Expr → Prop

namespace Demand

def Met (x : Demand) : Prop := ∃ tree, Expr.parse x.expression = .ok tree ∧ x.admits tree

inductive Blames (x : Demand) : Error → Prop
  | lexical {fault : LexicalFault} (unread : Expr.parse x.expression = .error (.lexical fault)) :
      Blames x (.lexical fault)
  | malformed {fault : SyntaxFault}
      (unread : Expr.parse x.expression = .error (.malformed fault x.expression)) :
      Blames x (.malformed fault x.expression)
  | compilation {tree : Expr} {fault : CompilationFault}
      (read : Expr.parse x.expression = .ok tree) (refused : ¬ x.admits tree) :
      Blames x (.compilation fault)

theorem Blames.unmet {x : Demand} {e : Error} (blames : x.Blames e) : ¬ x.Met := by
  rintro ⟨tree, read, admitted⟩
  cases blames with
  | lexical unread | malformed unread =>
    rw [read] at unread
    cases unread
  | compilation read' refused =>
    rw [read] at read'
    cases read'
    exact refused admitted

end Demand

namespace Document

def paramDemands (earlier : List Declaration) : List Declaration → List Demand
  | [] => []
  | p :: ps =>
    ⟨p.expression, Reference ("user" :: "request" :: earlier.map (·.name))⟩ ::
      paramDemands (earlier ++ [p]) ps

def demands (d : Document) (b : Builtins) : List Demand :=
  paramDemands [] d.params ++
    d.rules.map fun r => ⟨r.expression, Grounded b (d.params.map (·.name))⟩

theorem mem_paramDemands {earlier ps : List Declaration} {x : Demand} :
    x ∈ paramDemands earlier ps ↔ ∃ before p after, ps = before ++ p :: after ∧
      x = ⟨p.expression, Reference ("user" :: "request" :: (earlier ++ before).map (·.name))⟩ := by
  induction ps generalizing earlier with
  | nil => simp [paramDemands]
  | cons p ps ih =>
    rw [paramDemands, List.mem_cons, ih]
    constructor
    · rintro (rfl | ⟨before, q, after, rfl, rfl⟩)
      · exact ⟨[], p, ps, rfl, by simp⟩
      · exact ⟨p :: before, q, after, rfl, by simp⟩
    · rintro ⟨before, q, after, split, rfl⟩
      cases before with
      | nil =>
        obtain ⟨rfl, rfl⟩ := List.cons.inj split
        exact .inl (by simp)
      | cons p' before =>
        obtain ⟨rfl, rfl⟩ := List.cons.inj split
        exact .inr ⟨before, q, after, rfl, by simp⟩

end Document

theorem wellFormed_iff {d : Document} {b : Builtins} :
    WellFormed d b ↔ d.Structured ∧ ∀ x ∈ d.demands b, x.Met := by
  simp only [Document.demands, List.forall_mem_append, List.forall_mem_map]
  constructor
  · rintro ⟨structured, params, rules⟩
    refine ⟨structured, fun x hx => ?_, rules⟩
    obtain ⟨before, p, after, split, rfl⟩ := Document.mem_paramDemands.1 hx
    exact params before p after split
  · rintro ⟨structured, params, rules⟩
    refine ⟨structured, fun before p after split => ?_, rules⟩
    exact params ⟨p.expression, Reference ("user" :: "request" :: before.map (·.name))⟩
      (Document.mem_paramDemands.2 ⟨before, p, after, split, rfl⟩)

/-- The errors by which a document is rejected: that of its structure, or that of the first
expression that does not meet what is asked of it. -/
inductive Rejected (d : Document) (b : Builtins) : Error → Prop
  | invalid {fault : DocumentFault} (broken : ¬ d.Structured) :
      Rejected d b (.invalidDocument fault)
  | expression {x : Demand} {e : Error} (structured : d.Structured)
      (first : Reached Demand.Met (d.demands b) x) (blames : x.Blames e) : Rejected d b e

namespace Workflow
open Grammar

variable {b : Builtins} {check : Check} {p : Declaration} {ps : List Declaration}

/-! ## Checks refuse by faults of compilation -/

def Refusal : Except Error Unit → Prop :=
  Meets (fun _ => True) fun e => ∃ fault, e = .compilation fault

def Refuses (check : Check) : Prop := ∀ node, Refusal (check.inspect node)

theorem refuse_refusal (fault : CompilationFault) : Refusal (refuse fault) := ⟨fault, rfl⟩

theorem checkVariable_refusal (visible : List String) (name : String) :
    Refusal (checkVariable visible name) := by
  unfold checkVariable
  split
  · trivial
  · exact refuse_refusal _

theorem paramCheck_refuses (visible : List String) : Refuses (paramCheck visible) := by
  rintro ⟨e, place⟩
  cases e with
  | «variable» name => exact checkVariable_refusal visible name
  | identifier | member => trivial
  | number | string | call | comparison => exact refuse_refusal _

theorem ruleCheck_refuses (declared : List String) : Refuses (ruleCheck b declared) := by
  rintro ⟨e, place⟩
  cases e with
  | «variable» name => exact checkVariable_refusal declared name
  | identifier name =>
    show Refusal (if _ then _ else _)
    split
    · exact refuse_refusal _
    · trivial
  | call callee arguments =>
    show Refusal (if _ then _ else _)
    split
    · exact refuse_refusal _
    · trivial
  | number | string | member | comparison => trivial

theorem Refuses.visit (refuses : Refuses check) (e : Expr) : Refusal (check.visit e) := by
  rw [Visitor.visit, walk_eq_forM]
  induction e.nodes .root with
  | nil => trivial
  | cons node nodes ih =>
    rw [List.forM_eq_forM, List.forM_cons]
    exact Meets.bind (refuses node) fun _ _ => ih

/-! ## Runs over declarations -/

theorem define_meets {admits : Expr → Prop} (refuses : Refuses check)
    (passes : ∀ tree ts, Sentence ts tree → (check.visit tree = .ok () ↔ admits tree)) :
    Meets (fun q => Demand.Met ⟨p.expression, admits⟩ ∧ ReadAs p q)
      (Demand.Blames ⟨p.expression, admits⟩) (define check p) := by
  cases read : Expr.parse p.expression with
  | error e =>
    rw [define, read]
    rcases Expr.parse_eq_error read with ⟨fault, rfl⟩ | ⟨fault, rfl⟩
    · exact .lexical read
    · exact .malformed read
  | ok tree =>
    have admitted := passes tree _ (parse_sound read).2
    have visited := refuses.visit tree
    rw [define, read]
    show Meets _ _ (check.visit tree >>= _)
    cases passed : check.visit tree with
    | ok _ => exact ⟨⟨tree, read, admitted.1 passed⟩, rfl, rfl, read⟩
    | error e =>
      rw [passed] at visited admitted
      obtain ⟨fault, rfl⟩ := visited
      refine .compilation read fun h => ?_
      cases admitted.2 h

def Runs (ps : List Declaration) (xs : List Demand) : Except Error (List Definition) → Prop :=
  Meets (fun defs => (∀ x ∈ xs, x.Met) ∧ List.Forall₂ ReadAs ps defs)
    (fun e => ∃ x, Reached Demand.Met xs x ∧ x.Blames e)

theorem Runs.cons {x : Demand} {xs : List Demand} {first : Except Error Definition}
    {rest : Except Error (List Definition)}
    (here : Meets (fun q => x.Met ∧ ReadAs p q) x.Blames first) (later : Runs ps xs rest) :
    Runs (p :: ps) (x :: xs) (first >>= fun q => rest >>= fun qs => pure (q :: qs)) := by
  have atFirst : ∀ e, x.Blames e → ∃ y, Reached Demand.Met (x :: xs) y ∧ y.Blames e :=
    fun e blames => ⟨x, reached_cons.2 (.inl rfl), blames⟩
  refine (here.mono (fun _ h => h) atFirst).bind ?_
  rintro q ⟨met, read⟩
  have after : ∀ e, (∃ y, Reached Demand.Met xs y ∧ y.Blames e) →
      ∃ y, Reached Demand.Met (x :: xs) y ∧ y.Blames e := by
    rintro e ⟨y, reached, blames⟩
    exact ⟨y, reached_cons.2 (.inr ⟨met, reached⟩), blames⟩
  refine (Meets.mono later (fun _ h => h) after).bind ?_
  rintro qs ⟨mets, reads⟩
  exact ⟨List.forall_mem_cons.2 ⟨met, mets⟩, .cons read reads⟩

/-- What is visible to a parameter is the context and the names of the parameters before it. -/
theorem defineParams_runs (visible : List String) (earlier ps : List Declaration)
    (same : ∀ name, name ∈ visible ↔ name ∈ "user" :: "request" :: earlier.map (·.name)) :
    Runs ps (Document.paramDemands earlier ps) (defineParams visible ps) := by
  induction ps generalizing visible earlier with
  | nil => exact ⟨by simp [Document.paramDemands], .nil⟩
  | cons p ps ih =>
    have passes : ∀ tree ts, Sentence ts tree → ((paramCheck visible).visit tree = .ok () ↔
        Reference ("user" :: "request" :: earlier.map (·.name)) tree) :=
      fun tree ts sentence => (paramCheck_eq_ok sentence).trans (reference_congr same)
    have wider : ∀ name, name ∈ p.name :: visible ↔
        name ∈ "user" :: "request" :: (earlier ++ [p]).map (·.name) := by
      intro name
      simp only [List.mem_cons, same, List.map_append, List.mem_append, List.map_cons,
        List.map_nil, List.not_mem_nil, or_false]
      tauto
    exact Runs.cons (define_meets (paramCheck_refuses visible) passes) (ih _ _ wider)

theorem defineRules_runs (declared : List String) (rs : List Declaration) :
    Runs rs (rs.map fun r => ⟨r.expression, Grounded b declared⟩)
      (defineRules (ruleCheck b declared) rs) := by
  induction rs with
  | nil => exact ⟨by simp, .nil⟩
  | cons r rs ih =>
    have passes : ∀ tree (ts : List Token), Sentence ts tree →
        ((ruleCheck b declared).visit tree = .ok () ↔ Grounded b declared tree) :=
      fun _ _ _ => ruleCheck_eq_ok
    exact Runs.cons (define_meets (ruleCheck_refuses declared) passes) ih

theorem Runs.rejects {d : Document} {xs : List Demand} {run : Except Error (List Definition)}
    (runs : Runs ps xs run) (structured : d.Structured)
    (within : ∀ x, Reached Demand.Met xs x → Reached Demand.Met (d.demands b) x) :
    Meets (fun defs => (∀ x ∈ xs, x.Met) ∧ List.Forall₂ ReadAs ps defs) (Rejected d b) run := by
  refine Meets.mono runs (fun _ h => h) ?_
  rintro e ⟨x, first, blames⟩
  exact .expression structured (within x first) blames

theorem compile_meets (d : Document) (b : Builtins) :
    Meets (fun w => WellFormed d b ∧ Carries d w) (Rejected d b) (compile d b) := by
  cases valid : d.validate with
  | error e =>
    obtain ⟨fault, rfl⟩ := Document.validate_eq_error valid
    have broken : ¬ d.Structured := by
      intro structured
      rw [Document.validate_iff_structured.2 structured] at valid
      cases valid
    rw [compile, valid]
    exact .invalid broken
  | ok _ =>
    have structured := Document.validate_iff_structured.1 valid
    have params := defineParams_runs contextVariables [] d.params fun _ => Iff.rfl
    have rules : Runs d.rules _ _ := defineRules_runs (b := b) (d.params.map (·.name)) d.rules
    rw [compile, valid]
    refine (params.rejects structured fun x first => first.append_left _).bind ?_
    rintro defs ⟨met, reads⟩
    refine (rules.rejects structured fun x first => .append_right met first).bind ?_
    rintro defs' ⟨met', reads'⟩
    have all : ∀ x ∈ d.demands b, x.Met := List.forall_mem_append.2 ⟨met, met'⟩
    exact ⟨wellFormed_iff.2 ⟨structured, all⟩, rfl, rfl, rfl, reads, reads'⟩

theorem Rejected.not_wellFormed {d : Document} {e : Error} (rejected : Rejected d b e) :
    ¬ WellFormed d b := by
  rw [wellFormed_iff]
  rintro ⟨structured, met⟩
  cases rejected with
  | invalid broken => exact broken structured
  | expression _ first blames => exact blames.unmet (met _ first.mem)

/-- Compilation accepts the well-formed documents and no others, and gives the workflow of the
document or the error that it is rejected by. -/
theorem compile_wellFormed (d : Document) (b : Builtins) :
    ((∃ w, compile d b = .ok w) ↔ WellFormed d b) ∧
      Meets (Carries d) (Rejected d b) (compile d b) := by
  have meets := compile_meets d b
  cases compiled : compile d b with
  | ok w =>
    rw [compiled] at meets
    exact ⟨⟨fun _ => meets.1, fun _ => ⟨w, rfl⟩⟩, meets.2⟩
  | error e =>
    rw [compiled] at meets
    refine ⟨⟨nofun, fun wellFormed => ?_⟩, meets⟩
    exact absurd wellFormed (Rejected.not_wellFormed meets)

end Workflow

end Gatekeeper
