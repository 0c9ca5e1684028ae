import Gatekeeper.Address
import Gatekeeper.Proofs.Text.Blank
import Gatekeeper.Proofs.Token.Layout
import Mathlib.Algebra.Group.Nat.Defs

/-!
# Address literals

Every address can be written: one of the older family as four octets, one of the newer as eight
groups of four hexadecimal digits, and the mapped form of an older address as `::ffff:` before its
octets. Each of these texts is read as the address.
-/

set_option autoImplicit false

namespace Gatekeeper.Address

def parts (size : Nat) : Nat → Nat → List Nat
  | 0, _ => []
  | count + 1, n => parts size count (n / size) ++ [n % size]

theorem intercalate_eq (separator : Char) (text : List Char) (texts : List (List Char)) :
    List.intercalate [separator] (text :: texts) = text ++ texts.flatMap (separator :: ·) := by
  induction texts generalizing text with
  | nil => simp [List.intercalate]
  | cons next texts ih => simp [List.intercalate_cons_cons, ih]

theorem ofParts_concat (size : Nat) (xs : List Nat) (x : Nat) :
    ofParts size (xs ++ [x]) = ofParts size xs * size + x := by
  simp [ofParts]

theorem ofParts_parts (size count n : Nat) :
    ofParts size (parts size count n) = n % size ^ count := by
  induction count generalizing n with
  | zero => simp [parts, ofParts, Nat.mod_one]
  | succ count ih =>
    rw [parts, ofParts_concat, ih, Nat.pow_succ', Nat.mod_mul, Nat.mul_comm, Nat.add_comm]

theorem parts_lt {size count n : Nat} (positive : 0 < size) :
    ∀ x ∈ parts size count n, x < size := by
  induction count generalizing n with
  | zero => simp [parts]
  | succ count ih =>
    rw [parts]
    exact List.forall_mem_append.2
      ⟨ih, List.forall_mem_singleton.2 (Nat.mod_lt n positive)⟩

theorem parts_length (size count n : Nat) : (parts size count n).length = count := by
  induction count generalizing n with
  | zero => rfl
  | succ count ih => simp [parts, ih]

def dotted (n : Nat) : List Char :=
  List.intercalate ['.'] ((parts 256 4 n).map (Nat.toDigits 10))

def hexDigits (group : Nat) : List Char := (parts 16 4 group).map Nat.digitChar

def grouped (n : Nat) : List Char := List.intercalate [':'] ((parts 0x10000 8 n).map hexDigits)

def literal : Address → String
  | .v4 value => String.ofList (dotted value.toNat)
  | .v6 value => String.ofList (grouped value.toNat)

def mappedLiteral (value : BitVec 32) : String := "::ffff:" ++ (Address.v4 value).literal

def Written (a : Address) (text : String) : Prop := ofChars? (trimBlanks text.toList) = some a

instance (a : Address) (text : String) : Decidable (a.Written text) :=
  inferInstanceAs (Decidable (_ = _))

variable {rest : List Char} {n : Nat}

/-! ## Octets -/

theorem decimal_digits (n : Nat) : ∀ c ∈ Nat.toDigits 10 n, c.isDigit = true :=
  fun _ => Nat.isDigit_of_mem_toDigits (by decide) (by decide)

theorem octet_unpadded : ∀ n < 256, (Nat.toDigits 10 n).head? = some '0' →
    (Nat.toDigits 10 n).length ≤ 1 := by
  decide +kernel

theorem readOctet?_toDigits (small : n < 256) (ends : ∀ c ∈ rest.head?, c.isDigit = false) :
    readOctet? (Nat.toDigits 10 n ++ rest) = some (n, rest) := by
  obtain ⟨taken, dropped⟩ := run_append (decimal_digits n) ends
  have short : (Nat.toDigits 10 n).length ≤ 3 :=
    (Nat.length_toDigits_le_iff (by decide) (by decide)).2 (by omega)
  rw [readOctet?, taken, dropped, Nat.ofDigitChars_ten_toDigits, if_neg]
  simp only [Bool.or_eq_true, Bool.and_eq_true, decide_eq_true_eq, beq_iff_eq, List.isEmpty_iff,
    Nat.toDigits_ne_nil, not_or, not_and]
  refine ⟨⟨⟨not_false, by omega⟩, fun long zero => ?_⟩, by omega⟩
  have := octet_unpadded n small zero
  omega

theorem readDotted?_octets {a b c d : Nat} (small : ∀ n ∈ [a, b, c, d], n < 256)
    (ends : ∀ ch ∈ rest.head?, ch.isDigit = false) :
    readDotted? (List.intercalate ['.'] ([a, b, c, d].map (Nat.toDigits 10)) ++ rest) =
      some (ofParts 256 [a, b, c, d], rest) := by
  have point : ∀ more, ∀ ch ∈ ('.' :: more : List Char).head?, ch.isDigit = false := by
    rintro more _ ⟨⟩
    rfl
  have shape : List.intercalate ['.'] ([a, b, c, d].map (Nat.toDigits 10)) ++ rest =
      Nat.toDigits 10 a ++ '.' :: (Nat.toDigits 10 b ++ '.' :: (Nat.toDigits 10 c ++ '.' ::
        (Nat.toDigits 10 d ++ rest))) := by simp [List.intercalate]
  simp only [List.forall_mem_cons] at small
  obtain ⟨ha, hb, hc, hd, -⟩ := small
  rw [shape, readDotted?]
  simp only [readOctet?_toDigits ha (point _), readOctet?_toDigits hb (point _),
    readOctet?_toDigits hc (point _), readOctet?_toDigits hd ends, afterSeparator?, if_true,
    Option.bind_eq_bind, Option.bind_some]
  rfl

theorem readDotted?_dotted (small : n < 2 ^ 32) (ends : ∀ c ∈ rest.head?, c.isDigit = false) :
    readDotted? (dotted n ++ rest) = some (n, rest) := by
  have whole : ofParts 256 (parts 256 4 n) = n := by
    rw [ofParts_parts]
    exact Nat.mod_eq_of_lt small
  have octets : ∃ a b c d, parts 256 4 n = [a, b, c, d] := ⟨_, _, _, _, rfl⟩
  have below : ∀ x ∈ parts 256 4 n, x < 256 := parts_lt (by decide)
  rw [dotted]
  obtain ⟨a, b, c, d, same⟩ := octets
  rw [same] at whole below ⊢
  rw [readDotted?_octets below ends, whole]

theorem readOctet?_rest {cs rest : List Char} {value : Nat}
    (h : readOctet? cs = some (value, rest)) : rest <:+ cs := by
  unfold readOctet? at h
  dsimp only at h
  split at h
  · cases h
  · cases h
    exact List.dropWhile_suffix _

theorem readDotted?_pointless {cs : List Char} (pointless : '.' ∉ cs) : readDotted? cs = none := by
  rw [readDotted?]
  cases first : readOctet? cs with
  | none => rfl
  | some read =>
    obtain ⟨value, rest⟩ := read
    have none : afterSeparator? '.' rest = none := by
      cases rest with
      | nil => rfl
      | cons c rest =>
        have here : c ∈ cs := (readOctet?_rest first).mem List.mem_cons_self
        exact if_neg fun same : c = '.' => pointless (same ▸ here)
    show (afterSeparator? '.' rest >>= _) = _
    rw [none]
    rfl

/-! ## Groups -/

theorem hexDigitValue_digitChar : ∀ d < 16, hexDigitValue d.digitChar = d := by decide

theorem isHexDigit_digitChar : ∀ d < 16, d.digitChar.isHexDigit = true := by decide

theorem hexValue_digits {ds : List Nat} (small : ∀ d ∈ ds, d < 16) :
    hexValue (ds.map Nat.digitChar) = ofParts 16 ds := by
  induction ds using List.reverseRecOn with
  | nil => rfl
  | append_singleton ds d ih =>
    obtain ⟨before, last⟩ := List.forall_mem_append.1 small
    have step : hexValue ((ds ++ [d]).map Nat.digitChar) =
        16 * hexValue (ds.map Nat.digitChar) + hexDigitValue d.digitChar := by simp [hexValue]
    rw [step, ih before, ofParts_concat, hexDigitValue_digitChar d (last d (by simp)),
      Nat.mul_comm]

theorem hexDigits_all (group : Nat) : ∀ c ∈ hexDigits group, c.isHexDigit = true := by
  intro c hc
  obtain ⟨d, digit, rfl⟩ := List.mem_map.1 hc
  exact isHexDigit_digitChar d (parts_lt (by decide) d digit)

theorem readGroup?_hexDigits (small : n < 0x10000) (ends : ∀ c ∈ rest.head?, c.isHexDigit = false) :
    readGroup? (hexDigits n ++ rest) = some (n, rest) := by
  obtain ⟨taken, dropped⟩ := run_append (hexDigits_all n) ends
  have length : (hexDigits n).length = 4 := by rw [hexDigits, List.length_map, parts_length]
  have nonempty : (hexDigits n).isEmpty = false := by
    rw [List.isEmpty_eq_false_iff, ← List.length_pos_iff, length]
    decide
  have value : hexValue (hexDigits n) = n := by
    rw [hexDigits, hexValue_digits (parts_lt (by decide)), ofParts_parts]
    exact Nat.mod_eq_of_lt small
  rw [readGroup?, taken, dropped, value, length, nonempty]
  rfl

/-- A group is read where no octets can be, and then the groups after it. -/
theorem readGroups_group {room : Nat} {first : Bool} {cs body : List Char}
    (here : (if first then some cs else afterSeparator? ':' cs) = some body)
    (noOctets : room = 0 ∨ readDotted? body = none) (read : readGroup? body = some (n, rest)) :
    readGroups (room + 1) first cs =
      let later := readGroups room false rest
      ⟨n :: later.values, later.dotted, later.rest⟩ := by
  have none : (if room = 0 then none else readDotted? body) = none := by
    split
    · rfl
    · exact noOctets.resolve_left ‹_›
  rw [readGroups, here]
  simp only [none, read]

theorem readGroups_octets {room : Nat} {first : Bool} {cs body : List Char}
    (here : (if first then some cs else afterSeparator? ':' cs) = some body) (roomy : room ≠ 0)
    (read : readDotted? body = some (n, rest)) :
    readGroups (room + 1) first cs = ⟨[n / 0x10000, n % 0x10000], true, rest⟩ := by
  rw [readGroups, here]
  simp only [if_neg roomy, read]

def further (groups : List Nat) : List Char := (groups.map hexDigits).flatMap (':' :: ·)

theorem further_ends (groups : List Nat) :
    ∀ c ∈ (further groups).head?, c.isHexDigit = false := by
  cases groups with
  | nil => nofun
  | cons g groups =>
    rintro _ ⟨⟩
    rfl

theorem further_pointless (groups : List Nat) : '.' ∉ further groups := by
  intro point
  obtain ⟨digits, group, here⟩ := List.mem_flatMap.1 point
  obtain ⟨g, -, rfl⟩ := List.mem_map.1 group
  have digit := hexDigits_all g '.' (List.mem_of_ne_of_mem (by decide) here)
  cases digit

theorem groups_pointless (g : Nat) (groups : List Nat) : '.' ∉ hexDigits g ++ further groups := by
  intro point
  rcases List.mem_append.1 point with here | later
  · have digit := hexDigits_all g '.' here
    cases digit
  · exact further_pointless groups later

theorem readGroups_further {room : Nat} {groups : List Nat} (fits : groups.length ≤ room)
    (small : ∀ g ∈ groups, g < 0x10000) :
    readGroups room false (further groups) = ⟨groups, false, []⟩ := by
  induction groups generalizing room with
  | nil => cases room <;> rfl
  | cons g groups ih =>
    obtain ⟨room, rfl⟩ : ∃ k, room = k + 1 := ⟨room - 1, by simp at fits; omega⟩
    obtain ⟨here, later⟩ := List.forall_mem_cons.1 small
    have read := readGroup?_hexDigits here (further_ends groups)
    have step : readGroups (room + 1) false (further (g :: groups)) = _ :=
      readGroups_group rfl (.inr (readDotted?_pointless (groups_pointless g groups))) read
    rw [step, ih (by simpa using fits) later]

theorem grouped_eq (n : Nat) : ∃ g groups, parts 0x10000 8 n = g :: groups ∧
    grouped n = hexDigits g ++ further groups := by
  obtain ⟨g, groups, split⟩ : ∃ g groups, parts 0x10000 8 n = g :: groups := ⟨_, _, rfl⟩
  refine ⟨g, groups, split, ?_⟩
  rw [grouped, split, List.map_cons, intercalate_eq, further]

theorem grouped_pointless (n : Nat) : '.' ∉ grouped n := by
  obtain ⟨g, groups, -, shape⟩ := grouped_eq n
  rw [shape]
  exact groups_pointless g groups

theorem readEight?_grouped (n : Nat) :
    readEight? (grouped n) = some (parts 0x10000 8 n, []) := by
  obtain ⟨g, groups, split, shape⟩ := grouped_eq n
  have length := parts_length 0x10000 8 n
  have below : ∀ x ∈ parts 0x10000 8 n, x < 0x10000 := parts_lt (by decide)
  rw [split] at length below ⊢
  obtain ⟨here, later⟩ := List.forall_mem_cons.1 below
  have fits : groups.length ≤ 7 := by
    rw [List.length_cons] at length
    omega
  have read := readGroup?_hexDigits here (further_ends groups)
  have head : readGroups 8 true (grouped n) = ⟨g :: groups, false, []⟩ := by
    rw [shape, readGroups_group rfl (.inr (readDotted?_pointless (groups_pointless g groups))) read,
      readGroups_further fits later]
  rw [readEight?, head]
  simp only [length, if_true]

/-! ## Whole addresses -/

theorem ofChars?_literal (a : Address) : ofChars? a.literal.toList = some a := by
  cases a with
  | v4 value =>
    have read : readDotted? (dotted value.toNat ++ []) = some (value.toNat, []) :=
      readDotted?_dotted value.isLt (by simp)
    rw [List.append_nil] at read
    rw [literal, String.toList_ofList, ofChars?, read?, read]
    simp
  | v6 value =>
    have none := readDotted?_pointless (grouped_pointless value.toNat)
    have whole : ofParts 0x10000 (parts 0x10000 8 value.toNat) = value.toNat := by
      rw [ofParts_parts]
      exact Nat.mod_eq_of_lt value.isLt
    rw [literal, String.toList_ofList, ofChars?, read?, none]
    simp only [readEight?_grouped, whole, BitVec.ofNat_toNat, BitVec.setWidth_eq]

theorem readEight?_mapped (small : n < 2 ^ 32) :
    readEight? ("::ffff:".toList ++ dotted n) =
      some ([0, 0, 0, 0, 0, 0xFFFF, n / 0x10000, n % 0x10000], []) := by
  have octets : readDotted? (dotted n ++ []) = some (n, []) := readDotted?_dotted small (by simp)
  rw [List.append_nil] at octets
  have low : readGroups 6 false (':' :: dotted n) = ⟨[n / 0x10000, n % 0x10000], true, []⟩ :=
    readGroups_octets rfl (by decide) octets
  have tail : readGroups 7 true ("ffff:".toList ++ dotted n) =
      ⟨[0xFFFF, n / 0x10000, n % 0x10000], true, []⟩ := by
    have read : readGroup? ("ffff:".toList ++ dotted n) = some (0xFFFF, ':' :: dotted n) := rfl
    rw [readGroups_group rfl (.inr rfl) read, low]
  have head : readGroups 8 true ("::ffff:".toList ++ dotted n) =
      ⟨[], false, "::ffff:".toList ++ dotted n⟩ := rfl
  rw [readEight?, head]
  -- Nothing stands before the double colon, so the groups behind it leave room for five zeros.
  show (let tail := readGroups 7 true ("ffff:".toList ++ dotted n)
    some ([] ++ List.replicate (8 - 0 - tail.values.length) 0 ++ tail.values, tail.rest)) = _
  rw [tail]
  rfl

theorem ofParts_mapped (n : Nat) :
    ofParts 0x10000 [0, 0, 0, 0, 0, 0xFFFF, n / 0x10000, n % 0x10000] =
      mappedBlock * blockSize + n := by
  simp only [ofParts, List.foldl_cons, List.foldl_nil, mappedBlock, blockSize]
  omega

theorem mappedLiteral_toList (value : BitVec 32) :
    (mappedLiteral value).toList = "::ffff:".toList ++ dotted value.toNat := by
  rw [mappedLiteral, literal, String.toList_append]
  simp only [String.toList_ofList]

theorem ofChars?_mappedLiteral (value : BitVec 32) :
    ofChars? (mappedLiteral value).toList = some (.v6 (mapped value)) := by
  have noOctets : readDotted? ("::ffff:".toList ++ dotted value.toNat) = none := rfl
  rw [mappedLiteral_toList, ofChars?, read?, noOctets]
  simp only [readEight?_mapped value.isLt, ofParts_mapped, mapped]

/-! ## The characters of literals -/

def IsLiteralChar (c : Char) : Prop := isWordChar c = true ∨ c = '.' ∨ c = ':'

theorem IsLiteralChar.solid {c : Char} (h : IsLiteralChar c) : isBlank c = false := by
  rcases h with word | rfl | rfl
  · exact isBlank_of_isWordChar word
  · rfl
  · rfl

theorem IsLiteralChar.ne_slash {c : Char} (h : IsLiteralChar c) : c ≠ '/' := by
  rintro rfl
  rcases h with word | same | same <;> cases ‹_›

theorem mem_intercalate {separator c : Char} {texts : List (List Char)}
    (h : c ∈ List.intercalate [separator] texts) : c = separator ∨ ∃ text ∈ texts, c ∈ text := by
  cases texts with
  | nil => simp [List.intercalate] at h
  | cons text texts =>
    rw [intercalate_eq, List.mem_append, List.mem_flatMap] at h
    rcases h with first | ⟨other, later, here⟩
    · exact .inr ⟨text, List.mem_cons_self, first⟩
    · rcases List.mem_cons.1 here with same | inside
      · exact .inl same
      · exact .inr ⟨other, List.mem_cons_of_mem _ later, inside⟩

theorem dotted_chars (n : Nat) : ∀ c ∈ dotted n, IsLiteralChar c := by
  intro c hc
  rcases mem_intercalate hc with rfl | ⟨part, hpart, here⟩
  · exact .inr (.inl rfl)
  · obtain ⟨octet, -, rfl⟩ := List.mem_map.1 hpart
    exact .inl (isDigit_isWordChar (decimal_digits octet c here))

theorem isWordChar_digitChar : ∀ d < 16, isWordChar d.digitChar = true := by decide

theorem literal_chars (a : Address) : ∀ c ∈ a.literal.toList, IsLiteralChar c := by
  intro c hc
  cases a with
  | v4 value =>
    rw [literal, String.toList_ofList] at hc
    exact dotted_chars value.toNat c hc
  | v6 value =>
    rw [literal, String.toList_ofList] at hc
    rcases mem_intercalate hc with rfl | ⟨part, hpart, here⟩
    · exact .inr (.inr rfl)
    · obtain ⟨group, -, rfl⟩ := List.mem_map.1 hpart
      obtain ⟨d, digit, rfl⟩ := List.mem_map.1 here
      exact .inl (isWordChar_digitChar d (parts_lt (by decide) d digit))

theorem mappedLiteral_chars (value : BitVec 32) :
    ∀ c ∈ (mappedLiteral value).toList, IsLiteralChar c := by
  have before : "::ffff:".toList.all (fun c => isWordChar c || c == ':') = true := by decide
  intro c hc
  rw [mappedLiteral_toList] at hc
  rcases List.mem_append.1 hc with here | later
  · have known := List.all_eq_true.1 before c here
    rw [Bool.or_eq_true, beq_iff_eq] at known
    exact known.imp_right .inr
  · exact dotted_chars value.toNat c later

theorem written_of_chars {a : Address} {text : String} (read : ofChars? text.toList = some a)
    (chars : ∀ c ∈ text.toList, IsLiteralChar c) : a.Written text := by
  rw [Written, trimBlanks_of_solid fun c hc => (chars c hc).solid, read]

theorem written_literal (a : Address) : a.Written a.literal :=
  written_of_chars (ofChars?_literal a) (literal_chars a)

theorem written_mappedLiteral (value : BitVec 32) :
    (Address.v6 (mapped value)).Written (mappedLiteral value) :=
  written_of_chars (ofChars?_mappedLiteral value) (mappedLiteral_chars value)

end Gatekeeper.Address
