import Mathlib.Data.List.Forall2

/-!
# Outcomes of runs over lists

A computation that can fail ends in a value or in an error. A run over a list ends at the first
element that fails, so its error is told by that element and by what stands before it. The two
relations of this module say where such an element stands; they mention no computation.
-/

set_option autoImplicit false

namespace Gatekeeper

variable {ε α β : Type}

theorem bind_eq_ok {x : Except ε α} {f : α → Except ε β} {b : β} :
    x >>= f = .ok b ↔ ∃ a, x = .ok a ∧ f a = .ok b := by
  cases x <;> simp [bind, Except.bind]

theorem bind_eq_error {x : Except ε α} {f : α → Except ε β} {e : ε} :
    x >>= f = .error e ↔ x = .error e ∨ ∃ a, x = .ok a ∧ f a = .error e := by
  cases x <;> simp [bind, Except.bind]

theorem pure_eq_ok {a b : α} : (pure a : Except ε α) = .ok b ↔ a = b := by
  simp [pure, Except.pure]

theorem pure_ne_error {a : α} {e : ε} : (pure a : Except ε α) ≠ .error e := nofun

def Meets (onValue : α → Prop) (onError : ε → Prop) : Except ε α → Prop
  | .ok a => onValue a
  | .error e => onError e

theorem Meets.mono {onValue onValue' : α → Prop} {onError onError' : ε → Prop} {x : Except ε α}
    (h : Meets onValue onError x) (values : ∀ a, onValue a → onValue' a)
    (errors : ∀ e, onError e → onError' e) : Meets onValue' onError' x := by
  cases x with
  | ok a => exact values a h
  | error e => exact errors e h

theorem Meets.bind {onFirst : α → Prop} {onValue : β → Prop} {onError : ε → Prop}
    {x : Except ε α} {f : α → Except ε β} (first : Meets onFirst onError x)
    (next : ∀ a, onFirst a → Meets onValue onError (f a)) :
    Meets onValue onError (x >>= f) := by
  cases x with
  | ok a => exact next a first
  | error e => exact first

inductive Agree (r : α → β → Prop) : Except ε α → Except ε β → Prop
  | ok {a : α} {b : β} (related : r a b) : Agree r (.ok a) (.ok b)
  | error (e : ε) : Agree r (.error e) (.error e)

theorem Agree.bind {γ δ : Type} {r : α → β → Prop} {r' : γ → δ → Prop} {x : Except ε α}
    {y : Except ε β} {f : α → Except ε γ} {g : β → Except ε δ} (first : Agree r x y)
    (next : ∀ a b, r a b → Agree r' (f a) (g b)) : Agree r' (x >>= f) (y >>= g) := by
  cases first with
  | ok related => exact next _ _ related
  | error e => exact .error e

theorem Agree.eq {x y : Except ε α} {r : α → α → Prop} (h : Agree r x y)
    (equal : ∀ a b, r a b → a = b) : x = y := by
  cases h with
  | ok related => rw [equal _ _ related]
  | error e => rfl

def SameValue (x y : Except ε α) : Prop := ∀ a, x = .ok a ↔ y = .ok a

theorem SameValue.refl (x : Except ε α) : SameValue x x := fun _ => Iff.rfl

theorem SameValue.errors (e e' : ε) : SameValue (.error e : Except ε α) (.error e') :=
  fun _ => ⟨nofun, nofun⟩

theorem SameValue.bind_of_value {x y : Except ε α} {f g : α → Except ε β} (first : SameValue x y)
    (next : ∀ a, x = .ok a → SameValue (f a) (g a)) : SameValue (x >>= f) (y >>= g) := by
  intro b
  simp only [bind_eq_ok, ← first _]
  constructor
  · rintro ⟨a, value, result⟩
    exact ⟨a, value, (next a value b).1 result⟩
  · rintro ⟨a, value, result⟩
    exact ⟨a, value, (next a value b).2 result⟩

theorem SameValue.bind {x y : Except ε α} {f g : α → Except ε β} (first : SameValue x y)
    (next : ∀ a, SameValue (f a) (g a)) : SameValue (x >>= f) (y >>= g) :=
  first.bind_of_value fun a _ => next a

theorem ok_or_errors {r r' : Except ε α} (same : SameValue r r') :
    (∃ a, r = .ok a ∧ r' = .ok a) ∨ ∃ e e', r = .error e ∧ r' = .error e' := by
  cases r with
  | ok a => exact .inl ⟨a, rfl, (same a).1 rfl⟩
  | error e =>
    cases r' with
    | ok a => cases (same a).2 rfl
    | error e' => exact .inr ⟨e, e', rfl, rfl⟩

def Reached (good : α → Prop) (xs : List α) (x : α) : Prop :=
  ∃ before after, xs = before ++ x :: after ∧ ∀ y ∈ before, good y

def IsLast (wanted : α → Prop) (xs : List α) (x : α) : Prop :=
  ∃ before after, xs = before ++ x :: after ∧ wanted x ∧ ∀ y ∈ after, ¬ wanted y

theorem reached_nil (good : α → Prop) (x : α) : ¬ Reached good [] x := by
  rintro ⟨before, after, h, -⟩
  simp at h

theorem reached_cons {good : α → Prop} {y x : α} {ys : List α} :
    Reached good (y :: ys) x ↔ x = y ∨ (good y ∧ Reached good ys x) := by
  constructor
  · rintro ⟨before, after, h, hb⟩
    cases before with
    | nil => exact .inl (List.cons.inj h).1.symm
    | cons z before =>
      obtain ⟨rfl, tail⟩ := List.cons.inj h
      exact .inr ⟨hb y (by simp), before, after, tail, fun w hw => hb w (by simp [hw])⟩
  · rintro (rfl | ⟨hy, before, after, rfl, hb⟩)
    · exact ⟨[], ys, rfl, by simp⟩
    · exact ⟨y :: before, after, rfl, by simpa using ⟨hy, hb⟩⟩

theorem Reached.mem {good : α → Prop} {xs : List α} {x : α} (h : Reached good xs x) : x ∈ xs := by
  obtain ⟨before, after, rfl, -⟩ := h
  simp

theorem Reached.map {good : β → Prop} (f : α → β) {xs : List α} {x : α}
    (h : Reached (fun y => good (f y)) xs x) : Reached good (xs.map f) (f x) := by
  obtain ⟨before, after, rfl, hb⟩ := h
  exact ⟨before.map f, after.map f, by simp, by simpa using hb⟩

theorem Reached.filter {good : α → Prop} (p : α → Bool) {xs : List α} {x : α}
    (h : Reached good xs x) (kept : p x = true) : Reached good (xs.filter p) x := by
  obtain ⟨before, after, rfl, hb⟩ := h
  exact ⟨before.filter p, after.filter p, by simp [kept],
    fun y hy => hb y (List.mem_filter.1 hy).1⟩

theorem Reached.append_left {good : α → Prop} {xs : List α} {x : α} (h : Reached good xs x)
    (ys : List α) : Reached good (xs ++ ys) x := by
  obtain ⟨before, after, rfl, hb⟩ := h
  exact ⟨before, after ++ ys, by simp, hb⟩

theorem Reached.append_right {good : α → Prop} {xs ys : List α} {x : α} (all : ∀ y ∈ xs, good y)
    (h : Reached good ys x) : Reached good (xs ++ ys) x := by
  obtain ⟨before, after, rfl, hb⟩ := h
  exact ⟨xs ++ before, after, by simp, List.forall_mem_append.2 ⟨all, hb⟩⟩

theorem all_or_reached (good : α → Prop) (xs : List α) :
    (∀ x ∈ xs, good x) ∨ ∃ x, Reached good xs x ∧ ¬ good x := by
  induction xs with
  | nil => exact .inl (by simp)
  | cons y ys ih =>
    by_cases hy : good y
    · rcases ih with h | ⟨x, hx, bad⟩
      · exact .inl (by simpa using ⟨hy, h⟩)
      · exact .inr ⟨x, reached_cons.2 (.inr ⟨hy, hx⟩), bad⟩
    · exact .inr ⟨y, reached_cons.2 (.inl rfl), hy⟩

theorem isLast_nil (wanted : α → Prop) (x : α) : ¬ IsLast wanted [] x := by
  rintro ⟨before, after, h, -⟩
  simp at h

theorem isLast_cons {wanted : α → Prop} {y x : α} {ys : List α} :
    IsLast wanted (y :: ys) x ↔
      IsLast wanted ys x ∨ (x = y ∧ wanted y ∧ ∀ z ∈ ys, ¬ wanted z) := by
  constructor
  · rintro ⟨before, after, h, hx, ha⟩
    cases before with
    | nil =>
      obtain ⟨rfl, rfl⟩ := List.cons.inj h
      exact .inr ⟨rfl, hx, ha⟩
    | cons z before =>
      obtain ⟨rfl, tail⟩ := List.cons.inj h
      exact .inl ⟨before, after, tail, hx, ha⟩
  · rintro (⟨before, after, rfl, hx, ha⟩ | ⟨rfl, hy, ha⟩)
    · exact ⟨y :: before, after, rfl, hx, ha⟩
    · exact ⟨[], ys, rfl, hy, ha⟩

theorem IsLast.mem {wanted : α → Prop} {xs : List α} {x : α} (h : IsLast wanted xs x) :
    x ∈ xs ∧ wanted x := by
  obtain ⟨before, after, rfl, hx, -⟩ := h
  exact ⟨by simp, hx⟩

theorem IsLast.concat {wanted : α → Prop} {xs : List α} {x y : α} (h : IsLast wanted xs x)
    (other : ¬ wanted y) : IsLast wanted (xs ++ [y]) x := by
  obtain ⟨before, after, rfl, hx, ha⟩ := h
  refine ⟨before, after ++ [y], by simp, hx, ?_⟩
  exact List.forall_mem_append.2 ⟨ha, by simpa using other⟩

theorem isLast_concat {wanted : α → Prop} (xs : List α) {y : α} (hy : wanted y) :
    IsLast wanted (xs ++ [y]) y :=
  ⟨xs, [], rfl, hy, by simp⟩

theorem isLast_concat_iff {wanted : α → Prop} {xs : List α} {y x : α} :
    IsLast wanted (xs ++ [y]) x ↔ (wanted y ∧ x = y) ∨ (¬ wanted y ∧ IsLast wanted xs x) := by
  constructor
  · rintro ⟨before, after, split, hx, ha⟩
    rcases List.eq_nil_or_concat' after with rfl | ⟨between, z, rfl⟩
    · obtain ⟨-, same⟩ := List.append_inj' split rfl
      obtain rfl : y = x := List.singleton_inj.1 same
      exact .inl ⟨hx, rfl⟩
    · rw [← List.cons_append, ← List.append_assoc] at split
      obtain ⟨rfl, same⟩ := List.append_inj' split rfl
      obtain rfl : y = z := List.singleton_inj.1 same
      obtain ⟨later, other⟩ := List.forall_mem_append.1 ha
      exact .inr ⟨other y (by simp), before, between, rfl, hx, later⟩
  · rintro (⟨hy, rfl⟩ | ⟨hy, last⟩)
    · exact isLast_concat xs hy
    · exact last.concat hy

theorem none_or_isLast (wanted : α → Prop) (xs : List α) :
    (∀ x ∈ xs, ¬ wanted x) ∨ ∃ x, IsLast wanted xs x := by
  induction xs with
  | nil => exact .inl (by simp)
  | cons y ys ih =>
    rcases ih with none | ⟨x, last⟩
    · by_cases hy : wanted y
      · exact .inr ⟨y, isLast_cons.2 (.inr ⟨rfl, hy, none⟩)⟩
      · exact .inl (by simpa using ⟨hy, none⟩)
    · exact .inr ⟨x, isLast_cons.2 (.inl last)⟩

theorem of_forall₂_right {r : α → β → Prop} {xs : List α} {ys : List β} {y : β}
    (h : List.Forall₂ r xs ys) (hy : y ∈ ys) : ∃ x ∈ xs, r x y := by
  induction h with
  | nil => simp at hy
  | @cons x z xs zs here rest ih =>
    rcases List.mem_cons.1 hy with rfl | hy
    · exact ⟨x, by simp, here⟩
    · obtain ⟨x', hx', related⟩ := ih hy
      exact ⟨x', by simp [hx'], related⟩

theorem of_forall₂_left {r : α → β → Prop} {xs : List α} {ys : List β} {x : α}
    (h : List.Forall₂ r xs ys) (hx : x ∈ xs) : ∃ y ∈ ys, r x y :=
  of_forall₂_right h.flip hx

theorem forall₂_imp_of_mem {r s : α → β → Prop} {xs : List α} {ys : List β}
    (h : List.Forall₂ r xs ys) (each : ∀ x ∈ xs, ∀ y, r x y → s x y) : List.Forall₂ s xs ys :=
  ((List.forall₂_and_left _ _).2 ⟨each, h⟩).imp fun _ y known => known.1 y known.2

theorem mapM_eq_ok {f : α → Except ε β} {xs : List α} {ys : List β} :
    xs.mapM f = .ok ys ↔ List.Forall₂ (fun x y => f x = .ok y) xs ys := by
  induction xs generalizing ys with
  | nil => cases ys <;> simp [pure, Except.pure]
  | cons x xs ih =>
    simp only [List.mapM_cons, bind_eq_ok, pure_eq_ok, List.forall₂_cons_left_iff, ih]
    constructor
    · rintro ⟨y, hy, ys, hys, rfl⟩
      exact ⟨y, ys, hy, hys, rfl⟩
    · rintro ⟨y, ys, hy, hys, rfl⟩
      exact ⟨y, hy, ys, hys, rfl⟩

theorem mapM_eq_error {f : α → Except ε β} {xs : List α} {e : ε} :
    xs.mapM f = .error e ↔ ∃ x, Reached (fun y => ∃ b, f y = .ok b) xs x ∧ f x = .error e := by
  induction xs with
  | nil => simp [pure, Except.pure, reached_nil]
  | cons y ys ih =>
    simp only [List.mapM_cons, bind_eq_error, pure_ne_error, and_false, exists_false, or_false, ih,
      reached_cons]
    constructor
    · rintro (h | ⟨b, hb, x, hx, h⟩)
      · exact ⟨y, .inl rfl, h⟩
      · exact ⟨x, .inr ⟨⟨b, hb⟩, hx⟩, h⟩
    · rintro ⟨x, rfl | ⟨⟨b, hb⟩, hx⟩, h⟩
      · exact .inl h
      · exact .inr ⟨b, hb, x, hx, h⟩

theorem forM_eq_ok {f : α → Except ε Unit} {xs : List α} :
    xs.forM f = .ok () ↔ ∀ x ∈ xs, f x = .ok () := by
  induction xs with
  | nil => simp [pure, Except.pure]
  | cons x xs ih =>
    rw [List.forM_eq_forM] at ih ⊢
    simp only [List.forM_cons, bind_eq_ok, ih, List.forall_mem_cons]
    exact ⟨fun ⟨_, first, rest⟩ => ⟨first, rest⟩, fun ⟨first, rest⟩ => ⟨(), first, rest⟩⟩

theorem forM_congr {f g : α → Except ε Unit} {xs : List α} (each : ∀ x ∈ xs, f x = g x) :
    xs.forM f = xs.forM g := by
  induction xs with
  | nil => rfl
  | cons x xs ih =>
    obtain ⟨here, later⟩ := List.forall_mem_cons.1 each
    rw [List.forM_eq_forM] at ih ⊢
    rw [List.forM_cons, List.forM_cons, here, ih later]

theorem mapM_succeeds {f : α → Except ε β} {xs : List α} :
    (∃ ys, xs.mapM f = .ok ys) ↔ ∀ x ∈ xs, ∃ y, f x = .ok y := by
  induction xs with
  | nil => simp [pure, Except.pure]
  | cons x xs ih =>
    simp only [List.mapM_cons, bind_eq_ok, pure_eq_ok, List.forall_mem_cons, ← ih]
    constructor
    · rintro ⟨_, y, hy, ys, hys, rfl⟩
      exact ⟨⟨y, hy⟩, ys, hys⟩
    · rintro ⟨⟨y, hy⟩, ys, hys⟩
      exact ⟨_, y, hy, ys, hys, rfl⟩

theorem forall_images {r : α → β → Prop} {xs : List α} {ys : List β} {p : α → Prop}
    {q : β → Prop} (related : List.Forall₂ r xs ys) (same : ∀ x y, r x y → (q y ↔ p x)) :
    (∀ y ∈ ys, q y) ↔ ∀ x ∈ xs, p x := by
  constructor
  · intro h x hx
    obtain ⟨y, hy, hxy⟩ := of_forall₂_left related hx
    exact (same x y hxy).1 (h y hy)
  · intro h y hy
    obtain ⟨x, hx, hxy⟩ := of_forall₂_right related hy
    exact (same x y hxy).2 (h x hx)

/-- The last wanted image is the image of the last wanted element. -/
theorem isLast_mapM {f : α → Except ε β} {xs : List α} {ys : List β} {wanted : α → Prop}
    {wanted' : β → Prop} (images : xs.mapM f = .ok ys)
    (same : ∀ x y, f x = .ok y → (wanted' y ↔ wanted x)) {y : β} :
    IsLast wanted' ys y ↔ ∃ x, IsLast wanted xs x ∧ f x = .ok y := by
  replace images := mapM_eq_ok.1 images
  induction images with
  | nil => simp [isLast_nil]
  | @cons x z xs zs here rest ih =>
    have unwanted := forall_images rest fun u v huv => not_congr (same u v huv)
    rw [isLast_cons, same x z here, unwanted]
    constructor
    · rintro (later | ⟨rfl, hx, none⟩)
      · obtain ⟨u, last, huy⟩ := ih.1 later
        exact ⟨u, isLast_cons.2 (.inl last), huy⟩
      · exact ⟨x, isLast_cons.2 (.inr ⟨rfl, hx, none⟩), here⟩
    · rintro ⟨u, last, huy⟩
      rcases isLast_cons.1 last with last | ⟨rfl, hx, none⟩
      · exact .inl (ih.2 ⟨u, last, huy⟩)
      · rw [here] at huy
        cases huy
        exact .inr ⟨rfl, hx, none⟩

end Gatekeeper
