/-!
# Maps from names

A finite map from texts, kept as its entries in strictly ascending order of name, so that two maps
with the same entries are equal and every listing is sorted. Names are ordered by code point.
-/

set_option autoImplicit false

namespace Gatekeeper

universe u

structure NameMap (α : Type u) where
  entries : List (String × α)
  ascending : entries.Pairwise (fun a b => a.1 < b.1)

namespace NameMap

variable {α : Type u}

def empty : NameMap α := ⟨[], List.Pairwise.nil⟩

instance : Inhabited (NameMap α) := ⟨empty⟩

def lookup (name : String) : List (String × α) → Option α
  | [] => none
  | (k, a) :: rest => if k = name then some a else lookup name rest

def get? (m : NameMap α) (name : String) : Option α := lookup name m.entries

def contains (m : NameMap α) (name : String) : Bool := (m.get? name).isSome

def names (m : NameMap α) : List String := m.entries.map Prod.fst

def values (m : NameMap α) : List α := m.entries.map Prod.snd

def size (m : NameMap α) : Nat := m.entries.length

def put (name : String) (a : α) : List (String × α) → List (String × α)
  | [] => [(name, a)]
  | (k, b) :: rest =>
    if name < k then (name, a) :: (k, b) :: rest
    else if name = k then (name, a) :: rest
    else (k, b) :: put name a rest

theorem mem_put (name : String) (a : α) (entries : List (String × α)) (e : String × α)
    (h : e ∈ put name a entries) : e = (name, a) ∨ e ∈ entries := by
  induction entries with
  | nil => simpa [put] using h
  | cons head rest ih =>
    rw [put] at h
    split at h
    · simpa using h
    · split at h
      · rcases List.mem_cons.1 h with h | h
        · exact Or.inl h
        · exact Or.inr (List.mem_cons_of_mem _ h)
      · rcases List.mem_cons.1 h with h | h
        · exact Or.inr (h ▸ List.mem_cons_self)
        · exact (ih h).imp_right (List.mem_cons_of_mem _)

theorem put_ascending (name : String) (a : α) (entries : List (String × α))
    (h : entries.Pairwise (fun a b => a.1 < b.1)) :
    (put name a entries).Pairwise (fun a b => a.1 < b.1) := by
  induction entries with
  | nil => simp [put]
  | cons head rest ih =>
    obtain ⟨k, b⟩ := head
    rw [List.pairwise_cons] at h
    rw [put]
    split
    · rename_i lt
      refine List.pairwise_cons.2 ⟨fun e he => ?_, List.pairwise_cons.2 h⟩
      rcases List.mem_cons.1 he with rfl | he
      · exact lt
      · exact String.lt_trans lt (h.1 e he)
    · split
      · rename_i eq
        exact List.pairwise_cons.2 ⟨fun e he => eq ▸ h.1 e he, h.2⟩
      · rename_i notLt notEq
        refine List.pairwise_cons.2 ⟨fun e he => ?_, ih h.2⟩
        rcases mem_put name a rest e he with rfl | he
        · rcases Std.lt_trichotomy k name with lt | eq | gt
          · exact lt
          · exact absurd eq.symm notEq
          · exact absurd gt notLt
        · exact h.1 e he

def insert (m : NameMap α) (name : String) (a : α) : NameMap α :=
  ⟨put name a m.entries, put_ascending name a m.entries m.ascending⟩

def ofList (entries : List (String × α)) : NameMap α :=
  entries.foldl (fun m e => m.insert e.1 e.2) empty

theorem get?_empty (name : String) : (empty : NameMap α).get? name = none := rfl

theorem lookup_put (name other : String) (a : α) (entries : List (String × α)) :
    lookup other (put name a entries) =
      if name = other then some a else lookup other entries := by
  induction entries with
  | nil => simp [put, lookup]
  | cons head rest ih =>
    obtain ⟨k, b⟩ := head
    rw [put]
    split
    · simp [lookup]
    · split
      · rename_i eq
        subst eq
        by_cases h : name = other <;> simp [lookup, h]
      · rename_i notEq
        by_cases hk : k = other
        · have : name ≠ other := fun h => notEq (h.trans hk.symm)
          simp [lookup, hk, this]
        · simp [lookup, hk, ih]

theorem get?_insert (m : NameMap α) (name other : String) (a : α) :
    (m.insert name a).get? other = if name = other then some a else m.get? other :=
  lookup_put name other a m.entries

end NameMap

end Gatekeeper
