import Gatekeeper.NameMap

/-!
# Maps from names by their look-ups

A map is told by what it leads to: names that are not in order do not occur, so the entries can be
read off the look-ups.
-/

set_option autoImplicit false

namespace Gatekeeper.NameMap

universe u

variable {α : Type u}

def Below (a b : String × α) : Prop := a.1 < b.1

theorem lookup_eq_some {entries : List (String × α)} (ascending : entries.Pairwise Below)
    {name : String} {a : α} : lookup name entries = some a ↔ (name, a) ∈ entries := by
  induction entries with
  | nil => simp [lookup]
  | cons head rest ih =>
    obtain ⟨k, b⟩ := head
    obtain ⟨first, rest'⟩ := List.pairwise_cons.1 ascending
    rw [lookup, List.mem_cons, Prod.mk.injEq]
    by_cases same : k = name
    · have absent : (name, a) ∉ rest := by
        intro later
        have less : k < name := first (name, a) later
        exact String.ne_of_lt less same
      simp [same, absent, eq_comm]
    · simp [same, Ne.symm same, ih rest']

theorem below_nodup {entries : List (String × α)} (ascending : entries.Pairwise Below) :
    entries.Nodup := by
  apply ascending.imp
  intro a b less same
  exact String.ne_of_lt less (by rw [same])

theorem eq_of_mem {entries others : List (String × α)} (ascending : entries.Pairwise Below)
    (ascending' : others.Pairwise Below) (same : ∀ e, e ∈ entries ↔ e ∈ others) :
    entries = others := by
  have permuted : entries.Perm others :=
    (List.perm_ext_iff_of_nodup (below_nodup ascending) (below_nodup ascending')).2 same
  apply List.Perm.eq_of_pairwise ?_ ascending ascending' permuted
  intro a b _ _ less more
  exact absurd more (String.lt_asymm less)

theorem eq_of_get? {m m' : NameMap α} (same : ∀ name, m.get? name = m'.get? name) : m = m' := by
  obtain ⟨entries, ascending⟩ := m
  obtain ⟨others, ascending'⟩ := m'
  have equal : entries = others := by
    apply eq_of_mem ascending ascending'
    rintro ⟨name, a⟩
    rw [← lookup_eq_some ascending, ← lookup_eq_some ascending']
    exact iff_of_eq (congrArg (· = some a) (same name))
  cases equal
  rfl

theorem names_ascending (m : NameMap α) : m.names.Pairwise (· < ·) :=
  List.pairwise_map.2 m.ascending

theorem mem_names {m : NameMap α} {name : String} :
    name ∈ m.names ↔ ∃ a, m.get? name = some a := by
  unfold get?
  simp only [lookup_eq_some m.ascending]
  exact List.mem_map.trans
    ⟨fun ⟨e, he, same⟩ => ⟨e.2, same ▸ he⟩, fun ⟨a, ha⟩ => ⟨(name, a), ha, rfl⟩⟩

end Gatekeeper.NameMap
