import Gatekeeper.Proofs.Eval.TwoRuns
import Gatekeeper.Proofs.Workflow.Soundness

/-!
# What a decision owes to its input

Two decisions of one workflow over the standard builtins, on different inputs. Whether something
fails, and how, is the same in both, so nobody can trip a policy by the texts of a request. An
attribute that no member of the policy names makes no difference to the answer at all.
-/

set_option autoImplicit false

namespace Gatekeeper

variable {r : Value → Value → Prop} {read : String → Prop} {x y : DecisionInput}
variable {env env' : Environment} {v v' : Value}

theorem get?_bind (env : Environment) (name other : String) (v : Value) :
    (env.bind name v).bindings.get? other =
      if name = other then some v else env.bindings.get? other :=
  NameMap.get?_insert env.bindings name other v

theorem Paired.bind (paired : Paired r x y env env') (name : String) (related : r v v') :
    Paired r x y (env.bind name v) (env'.bind name v') where
  builtins := paired.builtins
  builtins' := paired.builtins'
  input := paired.input
  input' := paired.input'
  bindings other := by
    rw [get?_bind, get?_bind]
    split_ifs
    · exact .some related
    · exact paired.bindings other

theorem forDecision_paired (kept : Kept r read x y) (host : Host) :
    Paired r x y (.forDecision host .standard x) (.forDecision host .standard y) := by
  have blank : Paired r x y { Environment.blank host .standard with input := x }
      { Environment.blank host .standard with input := y } :=
    ⟨rfl, rfl, rfl, rfl, fun _ => .none⟩
  exact (blank.bind userVariable (kept.refl .user)).bind requestVariable (kept.refl .request)

theorem Paired.contains_eq (paired : Paired r x y env env') (name : String) :
    env.bindings.contains name = env'.bindings.contains name := by
  have bound := paired.bindings name
  unfold NameMap.contains
  generalize env.bindings.get? name = here at bound ⊢
  generalize env'.bindings.get? name = there at bound ⊢
  cases bound <;> rfl

theorem Paired.get?_eq_some (paired : Paired r x y env env') {name : String}
    (found : env.bindings.get? name = some v) :
    ∃ v', env'.bindings.get? name = some v' ∧ r v v' := by
  have bound := paired.bindings name
  rw [found] at bound
  generalize env'.bindings.get? name = there at bound ⊢
  cases bound with
  | some related => exact ⟨_, rfl, related⟩

namespace Workflow

def Followed (read : String → Prop) (p : Definition) : Prop :=
  (∃ bound, Admitted .standard bound p.tree) ∧ ∀ key, p.tree.ReadsMember key → read key

theorem Followed.agree {p : Definition} (followed : Followed read p) (kept : Kept r read x y)
    (paired : Paired r x y env env') : Agree r (evaluate env p.tree) (evaluate env' p.tree) := by
  obtain ⟨⟨bound, admitted⟩, reads⟩ := followed
  exact evaluate_agree kept paired admitted reads

/-- The parameters bind alike in both runs, up to the same one. -/
theorem bindParams_paired (kept : Kept r read x y) {ps : List Definition}
    (followed : ∀ p ∈ ps, Followed read p) (paired : Paired r x y env env') :
    (bindParams env ps).outcome = (bindParams env' ps).outcome ∧
      Paired r x y (bindParams env ps).env (bindParams env' ps).env := by
  induction ps generalizing env env' with
  | nil => exact ⟨rfl, paired⟩
  | cons p ps ih =>
    have later : ∀ q ∈ ps, Followed read q := fun q hq => followed q (by simp [hq])
    have here := (followed p (by simp)).agree kept paired
    rw [bindParams, bindParams]
    generalize evaluate env p.tree = value at here ⊢
    generalize evaluate env' p.tree = value' at here ⊢
    cases here with
    | ok related => exact ih later (paired.bind p.name related)
    | error e => exact ⟨rfl, paired⟩

theorem resolveParams_paired {w : Workflow} (kept : Kept r read x y)
    (followed : ∀ p ∈ w.params, Followed read p) (host : Host) :
    (w.resolveParams (.forDecision host .standard x)).outcome =
        (w.resolveParams (.forDecision host .standard y)).outcome ∧
      Paired r x y (w.resolveParams (.forDecision host .standard x)).env
        (w.resolveParams (.forDecision host .standard y)).env :=
  bindParams_paired kept followed (forDecision_paired kept host)

theorem compile_followed {d : Document} {w : Workflow} (compiled : compile d .standard = .ok w)
    (reads : ∀ q, q ∈ w.params ∨ q ∈ w.rules → ∀ key, q.tree.ReadsMember key → read key) :
    (∀ p ∈ w.params, Followed read p) ∧ ∀ q ∈ w.rules, Followed read q := by
  obtain ⟨params, rules⟩ := compile_admitted compiled
  constructor
  · intro p hp
    obtain ⟨before, after, split⟩ := List.append_of_mem hp
    exact ⟨⟨_, params before p after split⟩, reads p (.inl hp)⟩
  · intro q hq
    exact ⟨⟨_, rules q hq⟩, reads q (.inr hq)⟩

/-! ## Failures -/

theorem alike_kept (x y : DecisionInput) : Kept Alike (fun _ => True) x y where
  alike h := h
  refl h := h
  member _ _ := .string _ _
  membership _ := .bool _ _
  addressRange _ := .bool _ _
  comparison _ _ _ _ _ _ _ := .bool _ _

/-- All parameters of a compiled workflow have a value where none has failed. -/
theorem compile_present {d : Document} {b : Builtins} {w : Workflow}
    (compiled : compile d b = .ok w) {host : Host} {input : DecisionInput} {env : Environment}
    (run : Binds (.forDecision host b input) w.params env) :
    ∀ p ∈ w.params, ∃ v, env.bindings.get? p.name = some v := by
  intro p hp
  have covers := run.covers (compile_admitted compiled).1 (forDecision_covers host b input)
  exact covers.present p.name (List.mem_append_right _ (List.mem_map_of_mem hp))

theorem typeName_agree {value value' : Except Error Value} (h : Agree Alike value value') :
    value.map Value.typeName = value'.map Value.typeName := by
  cases h with
  | ok related => exact congrArg Except.ok related.typeName_eq
  | error e => rfl

/-- The texts of a request do not decide whether evaluation fails. On two inputs the parameters all
bind, to values of the same types, and each rule fails with the same error or has a value of the
same type; or they break with the same error where the same names are bound. -/
theorem failures_independent_of_input {d : Document} {w : Workflow}
    (compiled : compile d .standard = .ok w) (host : Host) (x y : DecisionInput) :
    (∃ env env', w.resolveParams (.forDecision host .standard x) = ⟨env, .ok ()⟩ ∧
      w.resolveParams (.forDecision host .standard y) = ⟨env', .ok ()⟩ ∧
      (∀ p ∈ w.params, ∃ v v', env.bindings.get? p.name = some v ∧
        env'.bindings.get? p.name = some v' ∧ v.typeName = v'.typeName) ∧
      ∀ rule ∈ w.rules, (evaluate env rule.tree).map Value.typeName =
        (evaluate env' rule.tree).map Value.typeName) ∨
    ∃ env env' e, w.resolveParams (.forDecision host .standard x) = ⟨env, .error e⟩ ∧
      w.resolveParams (.forDecision host .standard y) = ⟨env', .error e⟩ ∧
      ∀ name, env.bindings.contains name = env'.bindings.contains name := by
  have kept := alike_kept x y
  obtain ⟨params, rules⟩ := compile_followed compiled fun _ _ _ _ => trivial
  obtain ⟨outcomes, paired⟩ := resolveParams_paired kept params host
  cases first : w.resolveParams (.forDecision host .standard x) with
  | mk env outcome =>
    cases second : w.resolveParams (.forDecision host .standard y) with
    | mk env' outcome' =>
      rw [first, second] at outcomes paired
      obtain rfl : outcome = outcome' := outcomes
      cases outcome with
      | ok _ =>
        refine .inl ⟨env, env', rfl, rfl, fun p hp => ?_, fun rule hr => ?_⟩
        · obtain ⟨v, found⟩ := compile_present compiled (bindParams_eq_ok.1 first) p hp
          obtain ⟨v', found', related⟩ := paired.get?_eq_some found
          exact ⟨v, v', found, found', related.typeName_eq⟩
        · exact typeName_agree ((rules rule hr).agree kept paired)
      | error e => exact .inr ⟨env, env', e, rfl, rfl, paired.contains_eq⟩

def deskDocument : Document where
  id := 3
  name := "service desk"
  path := "/desk/*"
  params := [⟨"who", "$user"⟩, ⟨"area", "$request.path"⟩, ⟨"role", "$who.getRole"⟩]
  rules := [⟨"staff", "in($role, STAFF, OWNER)"⟩, ⟨"not the safe", "$area != '/desk/safe'"⟩]

def deskWorkflow : Workflow where
  id := 3
  name := "service desk"
  pattern := ⟨"/desk/*"⟩
  params :=
    [⟨"who", "$user", .variable "user"⟩,
      ⟨"area", "$request.path", .member (.variable "request") (.identifier "path")⟩,
      ⟨"role", "$who.getRole", .member (.variable "who") (.identifier "getRole")⟩]
  rules :=
    [⟨"staff", "in($role, STAFF, OWNER)",
        .call (.identifier "in") [.variable "role", .identifier "STAFF", .identifier "OWNER"]⟩,
      ⟨"not the safe", "$area != '/desk/safe'",
        .comparison .unequal (.variable "area") (.string "/desk/safe")⟩]

theorem parse_user : Expr.parse "$user" = .ok (.variable "user") := by
  have scanned : scan "$user" = ⟨[⟨.variable, "$user", 0⟩], none⟩ := by decide +kernel
  exact parse_eq_ok scanned rfl

theorem parse_area : Expr.parse "$request.path" =
    .ok (.member (.variable "request") (.identifier "path")) := by
  have scanned : scan "$request.path" =
      ⟨[⟨.variable, "$request", 0⟩, ⟨.dot, ".", 8⟩, ⟨.identifier, "path", 9⟩], none⟩ := by
    decide +kernel
  exact parse_eq_ok scanned rfl

theorem parse_role : Expr.parse "$who.getRole" =
    .ok (.member (.variable "who") (.identifier "getRole")) := by
  have scanned : scan "$who.getRole" =
      ⟨[⟨.variable, "$who", 0⟩, ⟨.dot, ".", 4⟩, ⟨.identifier, "getRole", 5⟩], none⟩ := by
    decide +kernel
  exact parse_eq_ok scanned rfl

theorem parse_staff : Expr.parse "in($role, STAFF, OWNER)" =
    .ok (.call (.identifier "in")
      [.variable "role", .identifier "STAFF", .identifier "OWNER"]) := by
  have scanned : scan "in($role, STAFF, OWNER)" =
      ⟨[⟨.identifier, "in", 0⟩, ⟨.openParen, "(", 2⟩, ⟨.variable, "$role", 3⟩, ⟨.comma, ",", 8⟩,
        ⟨.identifier, "STAFF", 10⟩, ⟨.comma, ",", 15⟩, ⟨.identifier, "OWNER", 17⟩,
        ⟨.closeParen, ")", 22⟩], none⟩ := by
    decide +kernel
  exact parse_eq_ok scanned rfl

theorem parse_safe : Expr.parse "$area != '/desk/safe'" =
    .ok (.comparison .unequal (.variable "area") (.string "/desk/safe")) := by
  have scanned : scan "$area != '/desk/safe'" =
      ⟨[⟨.variable, "$area", 0⟩, ⟨.inequality, "!=", 6⟩, ⟨.string, "'/desk/safe'", 9⟩], none⟩ := by
    decide +kernel
  exact parse_eq_ok scanned rfl

theorem desk_compiles : compile deskDocument .standard = .ok deskWorkflow := by
  have valid : deskDocument.validate = .ok () := by rfl
  refine compile_eq_ok.2 ⟨Document.validate_eq_ok.1 valid, _, _, ?_, ?_, rfl⟩
  · refine defineParams_cons.2 ⟨_, _, define_eq_ok.2 ⟨_, parse_user, rfl, rfl⟩, ?_, rfl⟩
    refine defineParams_cons.2 ⟨_, _, define_eq_ok.2 ⟨_, parse_area, rfl, rfl⟩, ?_, rfl⟩
    exact defineParams_cons.2 ⟨_, _, define_eq_ok.2 ⟨_, parse_role, rfl, rfl⟩, rfl, rfl⟩
  · exact mapM_eq_ok.2 (.cons (define_eq_ok.2 ⟨_, parse_staff, rfl, rfl⟩)
      (.cons (define_eq_ok.2 ⟨_, parse_safe, rfl, rfl⟩) .nil))

def staffer : DecisionInput := ⟨"STAFF", "10.0.0.1", "/desk/1"⟩

def stranger : DecisionInput := ⟨"$role", "", "/desk/safe' == '"⟩

theorem failures_independent_of_input_desk : ∃ env env',
    deskWorkflow.resolveParams (.forDecision .bare .standard staffer) = ⟨env, .ok ()⟩ ∧
      deskWorkflow.resolveParams (.forDecision .bare .standard stranger) = ⟨env', .ok ()⟩ ∧
      ∀ rule ∈ deskWorkflow.rules, (evaluate env rule.tree).map Value.typeName =
        (evaluate env' rule.tree).map Value.typeName := by
  have binds : (deskWorkflow.resolveParams (.forDecision .bare .standard staffer)).outcome =
      .ok () := by rfl
  rcases failures_independent_of_input desk_compiles .bare staffer stranger with
    ⟨env, env', first, second, -, rules⟩ | ⟨env, env', e, first, -⟩
  · exact ⟨env, env', first, second, rules⟩
  · rw [first] at binds
    cases binds

/-! ## Attributes that are not read -/

def Same (v v' : Value) : Prop := v = v' ∧ Alike v v

theorem eq_of_same {vs vs' : List Value} (h : List.Forall₂ Same vs vs') : vs = vs' := by
  induction h with
  | nil => rfl
  | cons here _ ih => rw [here.1, ih]

/-- Inputs that differ in one attribute make no difference where it is not read. -/
theorem same_kept {a : Attribute} (others : ∀ other, other ≠ a → x.get other = y.get other) :
    Kept Same (fun key => ¬ a.IsNamed key) x y where
  alike h := h.1 ▸ h.2
  refl h := ⟨rfl, h⟩
  member unread named := by
    have different := others _ fun same => unread (same ▸ named)
    exact ⟨congrArg Value.string different, .string _ _⟩
  membership h := ⟨by rw [eq_of_same h], .bool _ _⟩
  addressRange h := ⟨by rw [eq_of_same h], .bool _ _⟩
  comparison _ _ _ _ _ h h' := ⟨by rw [h.1, h'.1], .bool _ _⟩

/-- A decision depends only on the attributes that its policy reads. Where no member in a parameter
or a rule has the name of an attribute or of its accessor, the attribute decides neither the answer
nor the error; the path decides apart from that whether the workflow applies. -/
theorem unread_attribute_irrelevant {d : Document} {w : Workflow}
    (compiled : compile d .standard = .ok w) (a : Attribute)
    (unread : ∀ q, q ∈ w.params ∨ q ∈ w.rules → ∀ key, a.IsNamed key → ¬ q.tree.ReadsMember key)
    (others : ∀ other, other ≠ a → x.get other = y.get other) (host : Host) (fold : RuleFold) :
    w.execute host .standard fold x = w.execute host .standard fold y ∧
      (a ≠ .path → w.decide host .standard fold x = w.decide host .standard fold y) := by
  have kept := same_kept others
  obtain ⟨params, rules⟩ := compile_followed compiled fun q hq key mentioned named =>
    unread q hq key named mentioned
  obtain ⟨outcomes, paired⟩ := resolveParams_paired kept params host
  have each : ∀ q ∈ w.rules,
      evaluate (w.resolveParams (.forDecision host .standard x)).env q.tree =
        evaluate (w.resolveParams (.forDecision host .standard y)).env q.tree :=
    fun q hq => ((rules q hq).agree kept paired).eq fun v v' same => same.1
  have executed : w.execute host .standard fold x = w.execute host .standard fold y := by
    simp only [execute, outcomes, allPass_congr each]
  refine ⟨executed, fun notPath => ?_⟩
  have path : x.path = y.path := others .path notPath.symm
  rw [Workflow.decide, Workflow.decide, path, executed]

/-- From where it is asked makes no difference at the desk. -/
theorem unread_attribute_irrelevant_desk :
    deskWorkflow.decide .bare .standard .strict staffer = .ok true ∧
      deskWorkflow.decide .bare .standard .strict { staffer with ipAddress := "elsewhere" } =
        .ok true := by
  have answer : deskWorkflow.decide .bare .standard .strict staffer = .ok true := by cbv
  refine ⟨answer, ?_⟩
  have unread : ∀ q, q ∈ deskWorkflow.params ∨ q ∈ deskWorkflow.rules →
      ∀ key, Attribute.ipAddress.IsNamed key → ¬ q.tree.ReadsMember key := by
    rintro q hq key named ⟨object, place, here⟩
    have reads : key = "path" ∨ key = "getRole" := by
      simp only [deskWorkflow, List.mem_cons, List.not_mem_nil, or_false] at hq
      rcases hq with (rfl | rfl | rfl) | (rfl | rfl) <;>
        simp [Expr.nodes, Expr.argumentNodes] at here <;> simp [here]
    rcases reads with rfl | rfl <;> exact absurd named (by decide)
  have others : ∀ other, other ≠ Attribute.ipAddress →
      staffer.get other = { staffer with ipAddress := "elsewhere" }.get other := by
    intro other different
    cases other with
    | ipAddress => exact absurd rfl different
    | role | path => rfl
  rw [← answer]
  exact ((unread_attribute_irrelevant desk_compiles .ipAddress unread others .bare .strict).2
    (by decide)).symm

end Workflow

end Gatekeeper
