import Gatekeeper.Proofs.Eval.TwoRuns

/-!
# Tests against candidates

The two standard functions test a first value against candidates, and each says whether the test
against one candidate would succeed. For membership that test is the comparison of the language,
which is the same from either side. So candidates may be reordered and repeated, and more of them
never undo a success.
-/

set_option autoImplicit false

namespace Gatekeeper

/-! ## Values -/

theorem Number.same_comm (x y : Number) : x.same y = y.same x := by
  unfold Number.same
  rw [Bool.and_comm (!x.isNaN), Bool.and_comm (decide (x.magnitudeBits = 0)),
    decide_eq_decide.2 (eq_comm (a := x.bits))]

/-- Comparison is the same from either side, also of handles and of numbers that equal nothing. -/
theorem Value.same_comm (v w : Value) : v.same w = w.same v := by
  cases v <;> cases w <;> simp only [Value.same, Number.same_comm, eq_comm]

theorem isMember_pair (v c : Value) : isMember [v, c] = v.same c := by
  rw [isMember, List.any_cons, List.any_nil, Bool.or_false, Value.same_comm]

theorem isMember_cons (v : Value) (candidates : List Value) :
    isMember (v :: candidates) = candidates.any fun c => isMember [v, c] := by
  simp only [isMember, List.any_cons, List.any_nil, Bool.or_false]

theorem Value.string?_eq_some {v : Value} {s : String} : v.string? = some s ↔ v = .string s := by
  cases v <;> simp [string?]

theorem isInAddressRange_eq_true {v : Value} {candidates : List Value} :
    isInAddressRange (v :: candidates) = true ↔ ∃ address, v = .string address ∧
      ∃ range, .string range ∈ candidates ∧ inAddressRange address range = true := by
  cases v with
  | string address =>
    have texts : ∀ range, range ∈ candidates.filterMap Value.string? ↔
        .string range ∈ candidates := by
      simp [List.mem_filterMap, Value.string?_eq_some]
    rw [isInAddressRange, List.any_eq_true]
    simp [texts]
  | _ => simp [isInAddressRange]

/-- What is no text is neither in a range nor a range. -/
theorem isInAddressRange_pair {v c : Value} : isInAddressRange [v, c] = true ↔
    ∃ address range, v = .string address ∧ c = .string range ∧
      inAddressRange address range = true := by
  rw [isInAddressRange_eq_true]
  simp only [List.mem_singleton, eq_comm (a := c), exists_and_left]

theorem isInAddressRange_cons (v : Value) (candidates : List Value) :
    isInAddressRange (v :: candidates) = candidates.any fun c => isInAddressRange [v, c] := by
  rw [Bool.eq_iff_iff, isInAddressRange_eq_true, List.any_eq_true]
  simp only [isInAddressRange_pair]
  constructor
  · rintro ⟨address, first, range, here, holds⟩
    exact ⟨_, here, address, range, first, rfl, holds⟩
  · rintro ⟨c, hc, address, range, first, rfl, holds⟩
    exact ⟨address, first, range, hc, holds⟩

/-! ## Calls -/

inductive Tests : String → (List Value → Bool) → Prop
  | membership : Tests "in" isMember
  | addressRange : Tests "ip_range" isInAddressRange

def Expr.tests (word : String) (e : Expr) (candidates : List Expr) : Expr :=
  .call (.identifier word) (e :: candidates)

def Evaluates (env : Environment) (e : Expr) : Prop := ∃ v, evaluate env e = .ok v

variable {env : Environment} {word : String} {test : List Value → Bool} {e e₀ : Expr}
variable {es es' : List Expr}

theorem Tests.cons (h : Tests word test) (v : Value) (candidates : List Value) :
    test (v :: candidates) = candidates.any fun c => test [v, c] := by
  cases h with
  | membership => exact isMember_cons v candidates
  | addressRange => exact isInAddressRange_cons v candidates

theorem evaluateAll_eq_mapM (env : Environment) (es : List Expr) :
    evaluateAll env es = es.mapM (evaluate env) := by
  induction es with
  | nil => rfl
  | cons e es ih => rw [evaluateAll, List.mapM_cons, ih]

theorem Tests.evaluate_eq (h : Tests word test) (standard : env.builtins = .standard) :
    evaluate env (.tests word e₀ es) =
      (e₀ :: es).mapM (evaluate env) >>= fun values => .ok (.bool (test values)) := by
  rw [Expr.tests, evaluate, evaluate, standard, standard_get?, evaluateAll_eq_mapM]
  cases h <;> rfl

theorem Tests.evaluate_values (h : Tests word test) (standard : env.builtins = .standard)
    {v : Value} {candidates : List Value} (first : evaluate env e₀ = .ok v)
    (rest : List.Forall₂ (fun e c => evaluate env e = .ok c) es candidates) :
    evaluate env (.tests word e₀ es) = .ok (.bool (test (v :: candidates))) := by
  rw [h.evaluate_eq standard, mapM_eq_ok.2 (.cons first rest)]
  rfl

/-- A test succeeds with candidates if it does with one of them. -/
theorem Tests.disjunction (h : Tests word test) (standard : env.builtins = .standard)
    (evaluates : ∀ e ∈ e₀ :: es, Evaluates env e) :
    ∃ b, evaluate env (.tests word e₀ es) = .ok (.bool b) ∧
      (b = true ↔ ∃ e ∈ es, evaluate env (.tests word e₀ [e]) = .ok (.bool true)) := by
  obtain ⟨values, run⟩ := mapM_succeeds.2 evaluates
  obtain ⟨v, candidates, first, rest, rfl⟩ := List.forall₂_cons_left_iff.1 (mapM_eq_ok.1 run)
  have single : ∀ e c, evaluate env e = .ok c →
      evaluate env (.tests word e₀ [e]) = .ok (.bool (test [v, c])) :=
    fun e c value => h.evaluate_values standard first (.cons value .nil)
  refine ⟨test (v :: candidates), h.evaluate_values standard first rest, ?_⟩
  rw [h.cons, List.any_eq_true]
  constructor
  · rintro ⟨c, hc, holds⟩
    obtain ⟨e, he, value⟩ := of_forall₂_right rest hc
    exact ⟨e, he, by rw [single e c value, holds]⟩
  · rintro ⟨e, he, holds⟩
    obtain ⟨c, hc, value⟩ := of_forall₂_left rest he
    rw [single e c value] at holds
    exact ⟨c, hc, by simpa using holds⟩

theorem Tests.congr (h : Tests word test) (standard : env.builtins = .standard)
    (evaluates : ∀ e ∈ e₀ :: es, Evaluates env e) (same : ∀ e, e ∈ es' ↔ e ∈ es) :
    evaluate env (.tests word e₀ es') = evaluate env (.tests word e₀ es) := by
  have evaluates' : ∀ e ∈ e₀ :: es', Evaluates env e := by
    simpa only [List.forall_mem_cons, same] using evaluates
  obtain ⟨b, value, holds⟩ := h.disjunction standard evaluates
  obtain ⟨b', value', holds'⟩ := h.disjunction standard evaluates'
  have equal : b' = b := by
    rw [Bool.eq_iff_iff, holds, holds']
    simp only [same]
  rw [value, value', equal]

theorem Tests.mono (h : Tests word test) (standard : env.builtins = .standard)
    (evaluates : ∀ e ∈ e₀ :: es', Evaluates env e) (more : es ⊆ es')
    (succeeds : evaluate env (.tests word e₀ es) = .ok (.bool true)) :
    evaluate env (.tests word e₀ es') = .ok (.bool true) := by
  have fewer : ∀ e ∈ e₀ :: es, Evaluates env e :=
    fun e he => evaluates e (List.cons_subset_cons e₀ more he)
  obtain ⟨b, value, holds⟩ := h.disjunction standard fewer
  obtain ⟨b', value', holds'⟩ := h.disjunction standard evaluates
  rw [succeeds] at value
  cases value
  obtain ⟨e, he, single⟩ := holds.1 rfl
  rw [value', holds'.2 ⟨e, more he, single⟩]

/-- A test fails with the first of its arguments that fails, whichever the test is. -/
theorem Tests.fails (h : Tests word test) (standard : env.builtins = .standard) {fault : Error}
    (leftmost : Reached (Evaluates env) (e₀ :: es) e) (fails : evaluate env e = .error fault) :
    evaluate env (.tests word e₀ es) = .error fault := by
  rw [h.evaluate_eq standard, mapM_eq_error.2 ⟨e, leftmost, fails⟩]
  rfl

theorem evaluate_equal (standard : env.builtins = .standard) (first : Evaluates env e₀)
    (second : Evaluates env e) :
    evaluate env (.comparison .equal e₀ e) = evaluate env (.tests "in" e₀ [e]) ∧
      evaluate env (.comparison .equal e e₀) = evaluate env (.tests "in" e₀ [e]) := by
  obtain ⟨v, value⟩ := first
  obtain ⟨c, candidate⟩ := second
  rw [Tests.membership.evaluate_values standard value (.cons candidate .nil), isMember_pair]
  constructor
  · rw [evaluate, value, candidate]
    rfl
  · rw [evaluate, value, candidate, Value.same_comm]
    rfl

/-- An address is tested against one range by the texts that the two arguments are. -/
theorem evaluate_inRange (standard : env.builtins = .standard) (first : Evaluates env e₀)
    (second : Evaluates env e) : evaluate env (.tests "ip_range" e₀ [e]) = .ok (.bool true) ↔
      ∃ address range, evaluate env e₀ = .ok (.string address) ∧
        evaluate env e = .ok (.string range) ∧ inAddressRange address range = true := by
  obtain ⟨v, value⟩ := first
  obtain ⟨c, candidate⟩ := second
  rw [Tests.addressRange.evaluate_values standard value (.cons candidate .nil), value, candidate]
  simp only [Except.ok.injEq, Value.bool.injEq, isInAddressRange_pair]

/-- Membership among candidates is equality with one of them, from either side, and a test against
several ranges succeeds if one against one of them does, by the texts of the two. Where all
arguments have values, neither the order of the candidates nor how often they occur makes a
difference, and more of them turn no success into a failure. Where an argument fails, the call fails
with the leftmost that does. -/
theorem candidates_disjunction (env : Environment) (standard : env.builtins = .standard) (e₀ : Expr)
    (es : List Expr) :
    ((∀ e ∈ e₀ :: es, Evaluates env e) →
      (∃ b, evaluate env (.call (.identifier "in") (e₀ :: es)) = .ok (.bool b) ∧
        (b = true ↔ ∃ e ∈ es, evaluate env (.comparison .equal e₀ e) = .ok (.bool true)) ∧
        (b = true ↔ ∃ e ∈ es, evaluate env (.comparison .equal e e₀) = .ok (.bool true))) ∧
      (∃ b, evaluate env (.call (.identifier "ip_range") (e₀ :: es)) = .ok (.bool b) ∧
        (b = true ↔ ∃ e ∈ es,
          evaluate env (.call (.identifier "ip_range") [e₀, e]) = .ok (.bool true)) ∧
        (b = true ↔ ∃ e ∈ es, ∃ address range, evaluate env e₀ = .ok (.string address) ∧
          evaluate env e = .ok (.string range) ∧ inAddressRange address range = true)) ∧
      ∀ word ∈ ["in", "ip_range"],
        (∀ es', (∀ e, e ∈ es' ↔ e ∈ es) →
          evaluate env (.call (.identifier word) (e₀ :: es')) =
            evaluate env (.call (.identifier word) (e₀ :: es))) ∧
        ∀ es', es ⊆ es' → (∀ e ∈ es', Evaluates env e) →
          evaluate env (.call (.identifier word) (e₀ :: es)) = .ok (.bool true) →
            evaluate env (.call (.identifier word) (e₀ :: es')) = .ok (.bool true)) ∧
    ∀ word ∈ ["in", "ip_range"], ∀ e fault, Reached (Evaluates env) (e₀ :: es) e →
      evaluate env e = .error fault →
        evaluate env (.call (.identifier word) (e₀ :: es)) = .error fault := by
  have known : ∀ word ∈ ["in", "ip_range"], ∃ test, Tests word test := by
    simp only [List.forall_mem_cons]
    exact ⟨⟨_, .membership⟩, ⟨_, .addressRange⟩, by simp⟩
  refine ⟨fun evaluates => ⟨?_, ?_, ?_⟩, ?_⟩
  · obtain ⟨b, value, holds⟩ := Tests.membership.disjunction standard evaluates
    obtain ⟨first, candidates⟩ := List.forall_mem_cons.1 evaluates
    have equal := fun e he => evaluate_equal standard first (candidates e he)
    refine ⟨b, value, holds.trans ?_, holds.trans ?_⟩
    · exact exists_congr fun e => and_congr_right fun he => by rw [(equal e he).1]
    · exact exists_congr fun e => and_congr_right fun he => by rw [(equal e he).2]
  · obtain ⟨b, value, holds⟩ := Tests.addressRange.disjunction standard evaluates
    obtain ⟨first, candidates⟩ := List.forall_mem_cons.1 evaluates
    refine ⟨b, value, holds, holds.trans ?_⟩
    exact exists_congr fun e => and_congr_right fun he =>
      evaluate_inRange standard first (candidates e he)
  · intro word hw
    obtain ⟨test, h⟩ := known word hw
    refine ⟨fun es' same => h.congr standard evaluates same, fun es' more others succeeds => ?_⟩
    have first := (List.forall_mem_cons.1 evaluates).1
    exact h.mono standard (List.forall_mem_cons.2 ⟨first, others⟩) more succeeds
  · intro word hw e fault leftmost fails
    obtain ⟨test, h⟩ := known word hw
    exact h.fails standard leftmost fails

def clerk : DecisionInput := ⟨"STAFF", "10.0.0.1", "/desk/1"⟩

def heldRole : Expr := .member (.variable "user") (.identifier "role")

/-- A clerk is among staff and owners in any order, and an unbound candidate fails the call. -/
theorem candidates_disjunction_clerk :
    evaluate (.forDecision .bare .standard clerk)
        (.call (.identifier "in") [heldRole, .identifier "OWNER", .identifier "STAFF"]) =
        .ok (.bool true) ∧
      evaluate (.forDecision .bare .standard clerk) (.call (.identifier "in")
          [heldRole, .identifier "STAFF", .identifier "OWNER", .identifier "STAFF"]) =
        .ok (.bool true) ∧
      evaluate (.forDecision .bare .standard clerk)
          (.call (.identifier "in") [heldRole, .variable "nobody", .identifier "STAFF"]) =
        .error (.execution (.unresolvedVariable "nobody")) := by
  have held : evaluate (.forDecision .bare .standard clerk) heldRole = .ok (.string "STAFF") := rfl
  have evaluates : ∀ e ∈ [heldRole, .identifier "OWNER", .identifier "STAFF"],
      Evaluates (.forDecision .bare .standard clerk) e := by
    simp only [List.forall_mem_cons]
    exact ⟨⟨_, held⟩, ⟨_, rfl⟩, ⟨_, rfl⟩, by simp⟩
  obtain ⟨⟨b, value, -, equal⟩, -, regardless⟩ :=
    (candidates_disjunction (.forDecision .bare .standard clerk) rfl heldRole
      [.identifier "OWNER", .identifier "STAFF"]).1 evaluates
  obtain rfl : b = true := equal.2 ⟨.identifier "STAFF", by simp, rfl⟩
  refine ⟨value, ?_, ?_⟩
  · rw [← value]
    refine (regardless "in" (by simp)).1 _ fun e => ?_
    simp only [List.mem_cons, List.not_mem_nil]
    tauto
  · refine (candidates_disjunction (.forDecision .bare .standard clerk) rfl heldRole
      [.variable "nobody", .identifier "STAFF"]).2 "in" (by simp) (.variable "nobody") _ ?_ rfl
    exact ⟨[heldRole], [.identifier "STAFF"], rfl, by simpa using ⟨_, held⟩⟩

end Gatekeeper
