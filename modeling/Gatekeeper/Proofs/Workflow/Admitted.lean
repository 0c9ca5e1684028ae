import Gatekeeper.Proofs.Expr.Grammar
import Gatekeeper.Proofs.Workflow.Compile

/-!
# Admitted trees

What the static checks leave of the grammar, as a judgment on trees that mentions no walk. Every
tree of a compiled workflow is admitted: a parameter's by the names that stand before it, a rule's
by the names of all parameters.
-/

set_option autoImplicit false

namespace Gatekeeper

/-- Trees that read bound variables only, name their members by words and call builtin functions
only. -/
inductive Admitted (b : Builtins) (bound : List String) : Expr → Prop
  | number (value : Number) : Admitted b bound (.number value)
  | string (value : String) : Admitted b bound (.string value)
  | identifier (name : String) : Admitted b bound (.identifier name)
  | variable {name : String} (isBound : name ∈ bound) : Admitted b bound (.variable name)
  | member {object : Expr} (key : String) (inner : Admitted b bound object) :
      Admitted b bound (.member object (.identifier key))
  | call {name : String} {arguments : List Expr} (isFunction : b.isFunction name = true)
      (inner : ∀ e ∈ arguments, Admitted b bound e) :
      Admitted b bound (.call (.identifier name) arguments)
  | comparison {left right : Expr} (operator : Operator) (first : Admitted b bound left)
      (second : Admitted b bound right) : Admitted b bound (.comparison operator left right)

def Expr.Mentions (e : Expr) (name : String) : Prop :=
  ∃ place, (.variable name, place) ∈ e.nodes .root

def Covered (bound : List String) (nodes : List (Expr × Place)) : Prop :=
  ∀ name place, (.variable name, place) ∈ nodes → name ∈ bound

theorem Covered.mono {bound : List String} {nodes part : List (Expr × Place)}
    (h : Covered bound nodes) (within : ∀ node ∈ part, node ∈ nodes) : Covered bound part :=
  fun name place hn => h name place (within _ hn)

theorem Admitted.mono {b : Builtins} {bound more : List String} {e : Expr}
    (h : Admitted b bound e) (within : ∀ name ∈ bound, name ∈ more) : Admitted b more e := by
  induction h with
  | number value => exact .number value
  | string value => exact .string value
  | identifier name => exact .identifier name
  | «variable» isBound => exact .variable (within _ isBound)
  | member key inner ih => exact .member key ih
  | call isFunction inner ih => exact .call isFunction ih
  | comparison operator first second ihFirst ihSecond =>
    exact .comparison operator ihFirst ihSecond

theorem Admitted.covered {b : Builtins} {bound : List String} {e : Expr} (h : Admitted b bound e)
    (place : Place) : Covered bound (e.nodes place) := by
  intro name at' hn
  induction h generalizing place with
  | number | string | identifier => simp [Expr.nodes] at hn
  | «variable» isBound =>
    simp only [Expr.nodes, List.mem_singleton, Prod.mk.injEq, Expr.variable.injEq] at hn
    rw [hn.1]
    exact isBound
  | member key inner ih =>
    simp only [Expr.nodes, List.mem_cons, List.mem_append, Prod.mk.injEq, reduceCtorEq,
      false_and, false_or, List.not_mem_nil, or_false] at hn
    exact ih _ hn
  | call isFunction inner ih =>
    simp only [Expr.nodes, List.mem_cons, List.mem_append, Prod.mk.injEq, reduceCtorEq,
      false_and, false_or, List.not_mem_nil, or_false] at hn
    obtain ⟨e, he, at', hn⟩ := of_mem_argumentNodes hn
    exact ih e he _ hn
  | comparison operator first second ihFirst ihSecond =>
    simp only [Expr.nodes, List.mem_cons, List.mem_append, Prod.mk.injEq, reduceCtorEq,
      false_and, false_or] at hn
    exact hn.elim (ihFirst _) (ihSecond _)

theorem Admitted.of_mentions {b : Builtins} {bound : List String} {e : Expr} {name : String}
    (h : Admitted b bound e) (mentioned : e.Mentions name) : name ∈ bound := by
  obtain ⟨place, hn⟩ := mentioned
  exact h.covered .root name place hn

namespace Workflow
open Grammar

variable {b : Builtins} {bound : List String}

def Resolves (b : Builtins) (bound : List String) : Expr × Place → Prop
  | (.variable name, _) => name ∈ bound
  | (.call callee _, _) => ∃ name, callee = .identifier name
  | (.identifier name, place) => place.isCallee = true → b.isFunction name = true
  | _ => True

def Resolved (b : Builtins) (bound : List String) (nodes : List (Expr × Place)) : Prop :=
  ∀ node ∈ nodes, Resolves b bound node

theorem Resolved.covered {nodes : List (Expr × Place)} (h : Resolved b bound nodes) :
    Covered bound nodes := by
  intro name place hn
  exact h _ hn

theorem operand_admitted {t : Token} {e : Expr} {place : Place} (here : Operand t e)
    (covered : Covered bound (e.nodes place)) : Admitted b bound e := by
  cases here with
  | «variable» => exact .variable (covered _ place (nodes_self _ place))
  | identifier => exact .identifier _
  | number => exact .number _
  | string => exact .string _

theorem path_admitted {ts : List Token} {e : Expr} {place : Place} (path : Path ts e)
    (covered : Covered bound (e.nodes place)) : Admitted b bound e := by
  induction path generalizing place with
  | operand here => exact operand_admitted here covered
  | step before isDot isName ih =>
    have inner := ih (covered.mono fun node hn => by
      rw [Expr.nodes]
      exact List.mem_cons_of_mem _ (List.mem_append_left _ hn))
    exact .member _ inner

theorem arguments_admitted {ts : List Token} {parent : Expr} {es : List Expr} {index : Nat}
    (inside : Arguments ts es) (covered : Covered bound (Expr.argumentNodes parent index es)) :
    ∀ e ∈ es, Admitted b bound e := by
  induction inside generalizing index with
  | last here =>
    intro e he
    rw [List.mem_singleton.1 he]
    exact operand_admitted here (covered.mono fun node hn => by simpa [Expr.argumentNodes] using hn)
  | more here isComma after ih =>
    intro e he
    have first := covered.mono fun node hn => List.mem_append_left _ hn
    have rest := covered.mono fun node hn => List.mem_append_right _ hn
    rcases List.mem_cons.1 he with rfl | he
    · exact operand_admitted here first
    · exact ih rest e he

/-- A callee is shown as such, so a word that stands there names a function. -/
theorem called_admitted {ts : List Token} {e : Expr} {place : Place} (called : Called ts e)
    (resolved : Resolved b bound (e.nodes place)) : Admitted b bound e := by
  cases called with
  | path here => exact path_admitted here resolved.covered
  | @call _ args callee es opening closing before isOpen inside isClose =>
    obtain ⟨name, rfl⟩ : ∃ name, callee = .identifier name := resolved _ (nodes_self _ place)
    have isFunction : b.isFunction name = true := by
      have shown : ((Expr.identifier name, Place.child (.call (.identifier name) es) .callee) :
          Expr × Place) ∈ (Expr.call (.identifier name) es).nodes place := by simp [Expr.nodes]
      exact resolved _ shown rfl
    have covered : Covered bound (Expr.argumentNodes (.call (.identifier name) es) 0 es) :=
      resolved.covered.mono fun node hn => by simp [Expr.nodes, hn]
    have inner : ∀ e ∈ es, Admitted b bound e := by
      rcases inside with ⟨-, rfl⟩ | inside
      · simp
      · exact arguments_admitted inside covered
    exact .call isFunction inner

theorem paramCheck_covers {visible : List String} {e : Expr}
    (passed : (paramCheck visible).visit e = .ok ()) : Covered visible (e.nodes .root) := by
  intro name place hn
  obtain ⟨-, kind⟩ := inspect_eq_ok.1 (visit_eq_ok.1 passed _ hn)
  exact checkVariable_eq_ok.1 kind

theorem ruleCheck_inspect {declared : List String} {node : Expr × Place} :
    (ruleCheck b declared).inspect node = .ok () ↔ Resolves b declared node := by
  obtain ⟨e, place⟩ := node
  rw [inspect_eq_ok, and_iff_right (by rfl)]
  cases e with
  | «variable» name => exact checkVariable_eq_ok
  | identifier name =>
    by_cases isCallee : place.isCallee = true <;> by_cases known : b.isFunction name = true <;>
      simp [Visitor.onKind, ruleCheck, Resolves, isCallee, known, refuse]
  | call callee es =>
    cases callee <;>
      simp [Visitor.onKind, ruleCheck, Resolves, checkCallee, Expr.identifier?, refuse]
  | _ => exact ⟨fun _ => trivial, fun _ => rfl⟩

theorem ruleCheck_visit {declared : List String} {e : Expr} :
    (ruleCheck b declared).visit e = .ok () ↔ Resolved b declared (e.nodes .root) := by
  rw [visit_eq_ok]
  exact forall₂_congr fun _ _ => ruleCheck_inspect

/-- Of a sentence a parameter's check leaves the path that it begins with. -/
theorem param_admitted {visible : List String} {ts : List Token} {e : Expr}
    (sentence : Sentence ts e) (passed : (paramCheck visible).visit e = .ok ()) :
    Admitted b visible e := by
  have root := (inspect_eq_ok.1 (visit_eq_ok.1 passed _ (nodes_self e .root))).1
  cases sentence with
  | called here =>
    cases here with
    | path here => exact path_admitted here (paramCheck_covers passed)
    | call => simp [paramCheck, Expr.kind, refuse] at root
  | comparison => simp [paramCheck, Expr.kind, refuse] at root

theorem rule_admitted {declared : List String} {ts : List Token} {e : Expr}
    (sentence : Sentence ts e) (passed : (ruleCheck b declared).visit e = .ok ()) :
    Admitted b declared e := by
  have resolved := ruleCheck_visit.1 passed
  cases sentence with
  | called here => exact called_admitted here resolved
  | comparison before isSign after =>
    have first : Resolved b declared _ := fun node hn =>
      resolved node (List.mem_cons_of_mem _ (List.mem_append_left _ hn))
    have second : Resolved b declared _ := fun node hn =>
      resolved node (List.mem_cons_of_mem _ (List.mem_append_right _ hn))
    exact .comparison _ (called_admitted before first) (operand_admitted after second.covered)

theorem define_param_admitted {visible : List String} {p : Declaration} {q : Definition}
    (h : define (paramCheck visible) p = .ok q) : Admitted b visible q.tree := by
  obtain ⟨tree, read, passed, rfl⟩ := define_eq_ok.1 h
  exact param_admitted (parse_sound read).2 passed

/-- A parameter reads what is visible at first and the parameters before it. -/
theorem defineParams_admitted {visible : List String} {ps : List Declaration}
    {before after : List Definition} {p : Definition}
    (h : defineParams visible ps = .ok (before ++ p :: after)) :
    Admitted b (visible ++ before.map (·.name)) p.tree := by
  induction before generalizing visible ps with
  | nil =>
    cases ps with
    | nil => cases h
    | cons q qs =>
      obtain ⟨first, rest, here, -, same⟩ := defineParams_cons.1 h
      obtain ⟨rfl, -⟩ := List.cons.inj same
      simpa using define_param_admitted here
  | cons earlier before ih =>
    cases ps with
    | nil => cases h
    | cons q qs =>
      obtain ⟨first, rest, here, later, same⟩ := defineParams_cons.1 h
      obtain ⟨rfl, rfl⟩ := List.cons.inj same
      obtain ⟨tree, -, -, rfl⟩ := define_eq_ok.1 here
      apply (ih later).mono
      intro name hn
      simp only [List.cons_append, List.mem_cons, List.mem_append, List.map_cons] at hn ⊢
      tauto

/-- What compilation establishes: every parameter reads the context and what stands before it,
every rule reads parameters only, and no call can miss its function. -/
theorem compile_admitted {d : Document} {w : Workflow} (h : compile d b = .ok w) :
    (∀ before p after, w.params = before ++ p :: after →
      Admitted b (contextVariables ++ before.map (·.name)) p.tree) ∧
    ∀ r ∈ w.rules, Admitted b (w.params.map (·.name)) r.tree := by
  obtain ⟨-, params, rules, hparams, hrules, rfl⟩ := compile_eq_ok.1 h
  constructor
  · rintro before p after rfl
    exact defineParams_admitted hparams
  · intro r hr
    obtain ⟨q, -, hq⟩ := of_forall₂_right (mapM_eq_ok.1 hrules) hr
    obtain ⟨tree, read, passed, rfl⟩ := define_eq_ok.1 hq
    show Admitted b (params.map (·.name)) tree
    rw [defineParams_names hparams]
    exact rule_admitted (parse_sound read).2 passed

end Workflow

end Gatekeeper
