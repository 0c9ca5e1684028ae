import Mathlib.Tactic.SplitIfs

/-!
# The order of bytes

Texts are ordered by their characters, names on a disk by their bytes. The two orders agree, since
the encoding of a character tells how long it is and puts the highest digits first.
-/

set_option autoImplicit false

namespace Gatekeeper

def utf8Bytes (s : String) : List UInt8 := s.toUTF8.data.toList

theorem utf8Bytes_eq (s : String) : utf8Bytes s = s.toList.flatMap String.utf8EncodeChar := by
  show s.toByteArray.data.toList = _
  rw [← String.utf8Encode_toList, List.utf8Encode, List.toList_data_toByteArray]

theorem digit_lt {m n : Nat} (less : m < n) :
    m / 64 < n / 64 ∨ m / 64 = n / 64 ∧ m % 64 < n % 64 := by
  omega

/-- Of two numbers with four digits to the base 64 the first digit that differs decides. -/
theorem digits_lt {m n : Nat} (less : m < n) : m / 262144 < n / 262144 ∨ m / 262144 = n / 262144 ∧
    (m / 4096 % 64 < n / 4096 % 64 ∨ m / 4096 % 64 = n / 4096 % 64 ∧
      (m / 64 % 64 < n / 64 % 64 ∨ m / 64 % 64 = n / 64 % 64 ∧ m % 64 < n % 64)) := by
  rcases digit_lt less with high | ⟨same, low⟩
  · rcases digit_lt high with higher | ⟨same', low'⟩
    · rcases digit_lt higher with highest | ⟨same'', low''⟩ <;> omega
    · omega
  · omega

/-- The first byte that differs decides between two characters, whatever follows them. -/
theorem encode_lt {a b : Char} (less : a < b) (xs ys : List UInt8) :
    String.utf8EncodeChar a ++ xs < String.utf8EncodeChar b ++ ys := by
  have order : a.val.toNat < b.val.toNat := less
  have digits := digits_lt order
  have range : b.val.toNat < 0x110000 := by
    rcases b.valid with low | high
    · omega
    · exact high.2
  unfold String.utf8EncodeChar
  generalize a.val.toNat = m at *
  generalize b.val.toNat = n at *
  dsimp only
  split_ifs <;>
    simp only [List.cons_append, List.nil_append, List.cons_lt_cons_iff, UInt8.lt_iff_toNat_lt,
      ← UInt8.toNat_inj, UInt8.toNat_ofNat'] <;>
    simp (disch := omega) only [Nat.mod_eq_of_lt] <;>
    omega

theorem encodeAll_lt {xs ys : List Char} (less : xs < ys) :
    xs.flatMap String.utf8EncodeChar < ys.flatMap String.utf8EncodeChar := by
  induction xs generalizing ys with
  | nil =>
    cases ys with
    | nil => exact absurd less (List.not_lt_nil [])
    | cons y ys =>
      obtain ⟨byte, bytes, encoded⟩ := List.exists_cons_of_ne_nil (@String.utf8EncodeChar_ne_nil y)
      rw [List.flatMap_nil, List.flatMap_cons, encoded]
      exact List.nil_lt_cons byte _
  | cons x xs ih =>
    cases ys with
    | nil => exact absurd less (List.not_lt_nil (x :: xs))
    | cons y ys =>
      rw [List.flatMap_cons, List.flatMap_cons]
      rcases List.cons_lt_cons_iff.1 less with here | ⟨rfl, later⟩
      · exact encode_lt here _ _
      · exact List.append_left_lt (ih later)

theorem utf8Bytes_lt {s t : String} (less : s < t) : utf8Bytes s < utf8Bytes t := by
  rw [utf8Bytes_eq, utf8Bytes_eq]
  exact encodeAll_lt less

/-- Texts are ordered as their bytes are. -/
theorem lt_iff_utf8Bytes_lt {s t : String} : s < t ↔ utf8Bytes s < utf8Bytes t := by
  constructor
  · exact utf8Bytes_lt
  · intro less
    rcases Std.lt_trichotomy s t with lt | rfl | gt
    · exact lt
    · exact absurd less (List.lt_irrefl _)
    · exact absurd less (List.lt_asymm (utf8Bytes_lt gt))

end Gatekeeper
