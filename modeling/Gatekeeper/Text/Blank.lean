/-!
# White space

The characters with the Unicode property `White_Space`, and cutting them off both ends of a text.
Expressions, path segments, addresses and document fields all use this one class. JSON and
configuration files have narrower classes of their own, which are not in this module.
-/

set_option autoImplicit false

namespace Gatekeeper

def isBlank (c : Char) : Bool :=
  let n := c.toNat
  (9 ≤ n && n ≤ 13) || n == 0x20 || n == 0x85 || n == 0xA0 || n == 0x1680 ||
    (0x2000 ≤ n && n ≤ 0x200A) || n == 0x2028 || n == 0x2029 || n == 0x202F ||
    n == 0x205F || n == 0x3000

def trimBlanks (cs : List Char) : List Char :=
  ((cs.dropWhile isBlank).reverse.dropWhile isBlank).reverse

def allBlank (s : String) : Bool :=
  s.toList.all isBlank

theorem trimBlanks_of_all (cs : List Char) (h : cs.all isBlank = true) : trimBlanks cs = [] := by
  have : cs.dropWhile isBlank = [] := by
    induction cs with
    | nil => rfl
    | cons c cs ih =>
      simp only [List.all_cons, Bool.and_eq_true] at h
      simp [h.1, ih h.2]
  simp [trimBlanks, this]

end Gatekeeper
