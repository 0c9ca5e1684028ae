import Gatekeeper.Text.Blank
import Mathlib.Data.List.DropRight

/-!
# Cutting blanks off

Blanks at either end of a text make no difference to what is left of it. A character that is no
blank keeps what stands on its two sides apart: each side loses blanks at its outer end only.
-/

set_option autoImplicit false

namespace Gatekeeper

variable {before after cs : List Char}

theorem trimBlanks_blanks_append (blank : ∀ c ∈ before, isBlank c = true) (cs : List Char) :
    trimBlanks (before ++ cs) = trimBlanks cs := by
  rw [trimBlanks, trimBlanks, List.dropWhile_append_of_pos blank]

theorem trimBlanks_append_blanks (cs : List Char) (blank : ∀ c ∈ after, isBlank c = true) :
    trimBlanks (cs ++ after) = trimBlanks cs := by
  by_cases all : cs.dropWhile isBlank = []
  · have run : ∀ c ∈ cs, isBlank c = true := List.dropWhile_eq_nil_iff.1 all
    rw [trimBlanks_blanks_append run, trimBlanks_of_all after (List.all_eq_true.2 blank),
      trimBlanks_of_all cs (List.all_eq_true.2 run)]
  · have reversed : ∀ c ∈ after.reverse, isBlank c = true := by simpa using blank
    rw [trimBlanks, trimBlanks, List.dropWhile_append, if_neg (by simpa using all),
      List.reverse_append, List.dropWhile_append_of_pos reversed]

theorem dropBlanks_append_solid {c : Char} (solid : isBlank c = false) (before after : List Char) :
    (before ++ c :: after).dropWhile isBlank = before.dropWhile isBlank ++ c :: after := by
  rw [List.dropWhile_append]
  split
  · rename_i none
    rw [List.isEmpty_iff.1 none, List.dropWhile_cons_of_neg (by simp [solid]), List.nil_append]
  · rfl

theorem trimBlanks_append_solid {c : Char} (solid : isBlank c = false) (before after : List Char) :
    trimBlanks (before ++ c :: after) =
      before.dropWhile isBlank ++ c :: after.rdropWhile isBlank := by
  rw [trimBlanks, dropBlanks_append_solid solid, List.reverse_append, List.reverse_cons,
    List.append_assoc, List.singleton_append, dropBlanks_append_solid solid]
  simp [List.rdropWhile]

theorem trimBlanks_dropWhile (cs : List Char) :
    trimBlanks (cs.dropWhile isBlank) = trimBlanks cs := by
  rw [trimBlanks, List.dropWhile_idempotent, trimBlanks]

theorem trimBlanks_rdropWhile (cs : List Char) :
    trimBlanks (cs.rdropWhile isBlank) = trimBlanks cs := by
  have blank : ∀ c ∈ cs.rtakeWhile isBlank, isBlank c = true := fun _ => List.mem_rtakeWhile_imp
  calc trimBlanks (cs.rdropWhile isBlank)
      = trimBlanks (cs.rdropWhile isBlank ++ cs.rtakeWhile isBlank) :=
        (trimBlanks_append_blanks _ blank).symm
    _ = trimBlanks cs := by rw [List.rdropWhile_append_rtakeWhile]

theorem trimBlanks_trimBlanks (cs : List Char) : trimBlanks (trimBlanks cs) = trimBlanks cs := by
  show trimBlanks ((cs.dropWhile isBlank).rdropWhile isBlank) = trimBlanks cs
  rw [trimBlanks_rdropWhile, trimBlanks_dropWhile]

theorem mem_of_mem_trimBlanks {c : Char} (h : c ∈ trimBlanks cs) : c ∈ cs := by
  have within : c ∈ (cs.dropWhile isBlank).rdropWhile isBlank := h
  exact (List.dropWhile_suffix _).mem ((List.rdropWhile_prefix _ _).mem within)

theorem trimBlanks_of_solid (solid : ∀ c ∈ cs, isBlank c = false) : trimBlanks cs = cs := by
  have keeps : ∀ xs : List Char, (∀ c ∈ xs, isBlank c = false) → xs.dropWhile isBlank = xs := by
    intro xs solid
    cases xs with
    | nil => rfl
    | cons c xs => exact List.dropWhile_cons_of_neg (by simp [solid c])
  rw [trimBlanks, keeps cs solid, keeps cs.reverse (by simpa using solid), List.reverse_reverse]

end Gatekeeper
