import Gatekeeper.Proofs.Eval.Members

/-!
# What evaluation depends on

The value of a tree depends on the variables and the words that stand in it, and on nothing else
that is bound or registered. So bindings may come and go between two evaluations of a tree as long
as none of its own variables is among them. Of a word that only names a member not even its entry
counts, but the key that it stands for.
-/

set_option autoImplicit false

namespace Gatekeeper

def Expr.Speaks (e : Expr) (word : String) : Prop :=
  ∃ place, (.identifier word, place) ∈ e.nodes .root ∧ place.field ≠ some .property

structure ReadsSame (e : Expr) (env env' : Environment) : Prop where
  host : env.host = env'.host
  input : env.input = env'.input
  words : ∀ word, e.Speaks word → env.builtins.get? word = env'.builtins.get? word
  keys : ∀ key, e.ReadsMember key → env.builtins.keyOf key = env'.builtins.keyOf key
  bindings : ∀ name, e.Has (.variable name) → env.bindings.get? name = env'.bindings.get? name

structure Coincide (e : Expr) (env env' : Environment) : Prop where
  host : env.host = env'.host
  input : env.input = env'.input
  words : ∀ name, e.Has (.identifier name) → env.builtins.get? name = env'.builtins.get? name
  bindings : ∀ name, e.Has (.variable name) → env.bindings.get? name = env'.bindings.get? name

variable {env env' : Environment} {e : Expr}

/-- What a child says its tree says, unless the child is a word that names a member. -/
theorem speaks_of_child {child : Expr × Place} (here : child ∈ e.children)
    (spoken : ∀ word, child.1 = .identifier word → child.2.field ≠ some .property) {word : String}
    (inside : child.1.Speaks word) : e.Speaks word := by
  obtain ⟨place, hn, field⟩ := inside
  have inTree : ∀ node ∈ child.1.nodes child.2, node ∈ e.nodes .root := by
    intro node hn
    rw [nodes_eq]
    exact List.mem_cons_of_mem _ (List.mem_flatMap.2 ⟨child, here, hn⟩)
  rw [nodes_eq] at hn
  rcases List.mem_cons.1 hn with root | later
  · obtain ⟨same, -⟩ := Prod.mk.inj root
    exact ⟨child.2, inTree _ (same ▸ nodes_self _ _), spoken word same.symm⟩
  · refine ⟨place, inTree _ ?_, field⟩
    rw [nodes_eq]
    exact List.mem_cons_of_mem _ later

theorem ReadsSame.child {child : Expr × Place} (h : ReadsSame e env env')
    (here : child ∈ e.children)
    (spoken : ∀ word, child.1 = .identifier word → child.2.field ≠ some .property) :
    ReadsSame child.1 env env' where
  host := h.host
  input := h.input
  words word inside := h.words word (speaks_of_child here spoken inside)
  keys key := fun ⟨object, inside⟩ => h.keys key ⟨object, has_of_child here inside⟩
  bindings name inside := h.bindings name (has_of_child here inside)

theorem apply_congr (host : env.host = env'.host) (input : env.input = env'.input)
    (f : FunctionRef) (arguments : List Value) :
    env.apply f arguments = env'.apply f arguments := by
  cases f <;> simp [Environment.apply, host, input]

theorem readMember_congr (host : env.host = env'.host) (input : env.input = env'.input)
    (target : Value) (key : String) : env.readMember target key = env'.readMember target key := by
  cases target with
  | object handle =>
    cases handle <;> simp [Environment.readMember, Environment.member?, host, input]
  | _ => rfl

theorem step_congr (host : env.host = env'.host) (input : env.input = env'.input)
    (target : Value) (key : String) : env.step target key = env'.step target key := by
  simp only [Environment.step, readMember_congr host input, apply_congr host input]

theorem evaluateAll_congr {es : List Expr} (each : ∀ e ∈ es, evaluate env e = evaluate env' e) :
    evaluateAll env es = evaluateAll env' es := by
  induction es with
  | nil => rfl
  | cons e es ih =>
    rw [evaluateAll, evaluateAll, each e (by simp), ih fun e he => each e (by simp [he])]

theorem ReadsSame.evaluate_eq (h : ReadsSame e env env') : evaluate env e = evaluate env' e := by
  induction e using children_induction with
  | step e ih =>
    -- a word that names a member has no value of its own to compare, so it is left out here
    have inner : ∀ child ∈ e.children,
        (∀ word, child.1 = .identifier word → child.2.field ≠ some .property) →
          evaluate env child.1 = evaluate env' child.1 :=
      fun child hc spoken => ih child hc (h.child hc spoken)
    cases e with
    | number value => rfl
    | string value => rfl
    | identifier name =>
      have atRoot : Place.root.field ≠ some .property := by rintro ⟨⟩
      rw [evaluate, evaluate, h.words name ⟨.root, nodes_self _ _, atRoot⟩]
    | «variable» name =>
      simp only [evaluate, Environment.readVariable, h.bindings name (has_self _)]
    | member object property =>
      have first := inner _ List.mem_cons_self (by rintro _ _ ⟨⟩)
      by_cases word : ∃ key, property = .identifier key
      · obtain ⟨key, rfl⟩ := word
        simp only [evaluate_member, first, h.keys key ⟨object, has_self _⟩,
          step_congr h.host h.input]
      · have second := inner _ (List.mem_cons_of_mem _ List.mem_cons_self)
          fun key same => absurd ⟨key, same⟩ word
        simp only [evaluate, first, second, readMember_congr h.host h.input,
          apply_congr h.host h.input]
    | call callee arguments =>
      have first := inner _ List.mem_cons_self (by rintro _ _ ⟨⟩)
      have rest : evaluateAll env arguments = evaluateAll env' arguments := by
        apply evaluateAll_congr
        intro e he
        obtain ⟨place, hp⟩ := argumentChildren_of_mem (.call callee arguments) 0 he
        obtain ⟨-, i, isArgument⟩ := mem_argumentChildren hp
        refine inner _ (List.mem_cons_of_mem _ hp) fun _ _ => ?_
        rw [isArgument]
        rintro ⟨⟩
      simp only [evaluate, first, rest, apply_congr h.host h.input]
    | comparison operator left right =>
      have first := inner _ List.mem_cons_self (by rintro _ _ ⟨⟩)
      have second := inner _ (List.mem_cons_of_mem _ List.mem_cons_self) (by rintro _ _ ⟨⟩)
      simp only [evaluate, first, second]

theorem Coincide.readsSame (h : Coincide e env env') : ReadsSame e env env' where
  host := h.host
  input := h.input
  words word := fun ⟨place, hn, _⟩ => h.words word ⟨place, hn⟩
  keys key read := keyOf_congr (h.words key read.has)
  bindings := h.bindings

/-- Environments that are the same to a tree give it the same value, or the same error. -/
theorem evaluate_congr (h : Coincide e env env') : evaluate env e = evaluate env' e :=
  h.readsSame.evaluate_eq

end Gatekeeper
