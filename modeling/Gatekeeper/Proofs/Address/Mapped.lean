import Gatekeeper.Proofs.Address.Range

/-!
# Mapped forms

An address of the older family and its mapped form are in the same ranges, and a network of the
older family makes the same range as its mapped form with the ninety-six bits before it counted too.
-/

set_option autoImplicit false

namespace Gatekeeper

namespace Address

variable {a : Address} {value : BitVec 32} {n width : Nat}

theorem countsAs_mapped :
    (Address.v6 (mapped value)).CountsAs width n ↔ (Address.v4 value).CountsAs width n := by
  have form : (mapped value).toNat = 0xFFFF * 2 ^ 32 + value.toNat := toNat_mapped value
  constructor
  · intro h
    cases h with
    | newer =>
      rw [form]
      exact .mapped value
    | unmapped small same =>
      obtain rfl : n = value.toNat := by omega
      exact .older value
  · intro h
    cases h with
    | older => exact .unmapped value.isLt form
    | mapped =>
      rw [← form]
      exact .newer (mapped value)

/-- The older family is the block of the newer one in which numbers begin with `0xFFFF`. -/
theorem countsAs_older :
    a.CountsAs 32 n ↔ n < 2 ^ 32 ∧ a.CountsAs 128 (0xFFFF * 2 ^ 32 + n) := by
  constructor
  · intro h
    cases h with
    | older value => exact ⟨value.isLt, .mapped value⟩
    | unmapped small form =>
      rw [← form]
      exact ⟨small, .newer _⟩
  · rintro ⟨small, h⟩
    generalize same : 0xFFFF * 2 ^ 32 + n = whole at h
    cases h with
    | newer value => exact .unmapped small same.symm
    | mapped value =>
      obtain rfl : n = value.toNat := by omega
      exact .older value

end Address

namespace AddressRange

variable {r : AddressRange} {a : Address}

theorem holds_mapped {value : BitVec 32} :
    r.Holds (.v6 (Address.mapped value)) ↔ r.Holds (.v4 value) := by
  constructor <;> rintro ⟨fits, n, counts, agrees⟩
  · exact ⟨fits, n, Address.countsAs_mapped.1 counts, agrees⟩
  · exact ⟨fits, n, Address.countsAs_mapped.2 counts, agrees⟩

/-- Numbers agree with one of the block down to a part of it if they are of the block themselves
and agree there. -/
theorem quotient_in_block {high whole size n m : Nat} (positive : 0 < size) (divides : size ∣ whole)
    (small : n < whole) :
    m / size = (high * whole + n) / size ↔
      ∃ k < whole, m = high * whole + k ∧ k / size = n / size := by
  obtain ⟨count, rfl⟩ := divides
  have inBlock : ∀ k, (high * (size * count) + k) / size = high * count + k / size := by
    intro k
    rw [Nat.mul_left_comm, Nat.mul_add_div positive]
  rw [inBlock]
  constructor
  · intro h
    have below : n / size < count := Nat.div_lt_of_lt_mul small
    have same : m / (size * count) = high := by
      rw [← Nat.div_div_eq_div_mul, h, Nat.mul_comm high,
        Nat.mul_add_div (Nat.zero_lt_of_lt below), Nat.div_eq_of_lt below, Nat.add_zero]
    have split : m = high * (size * count) + m % (size * count) := by
      rw [← same, Nat.mul_comm, Nat.div_add_mod]
    refine ⟨m % (size * count), Nat.mod_lt m (by omega), split, ?_⟩
    have part := inBlock (m % (size * count))
    rw [← split] at part
    omega
  · rintro ⟨k, -, rfl, agrees⟩
    rw [inBlock, agrees]

theorem holds_mapped_network {network : BitVec 32} {bits : Option Nat} :
    Holds ⟨.v6 (Address.mapped network), bits.map (96 + ·)⟩ a ↔ Holds ⟨.v4 network, bits⟩ a := by
  let old : AddressRange := ⟨.v4 network, bits⟩
  let new : AddressRange := ⟨.v6 (Address.mapped network), bits.map (96 + ·)⟩
  have counted : new.counted = 96 + old.counted := by cases bits <;> rfl
  have size : new.size = old.size := by
    show 2 ^ (128 - new.counted) = 2 ^ (32 - old.counted)
    rw [counted]
    congr 1
    omega
  have divides : old.size ∣ 2 ^ 32 := Nat.pow_dvd_pow 2 (Nat.sub_le 32 old.counted)
  have agrees : ∀ m, m / new.size = new.network.toNat / new.size ↔
      ∃ k < 2 ^ 32, m = 0xFFFF * 2 ^ 32 + k ∧ k / old.size = network.toNat / old.size := by
    intro m
    have number : new.network.toNat = 0xFFFF * 2 ^ 32 + network.toNat :=
      Address.toNat_mapped network
    rw [size, number]
    exact quotient_in_block old.size_pos divides network.isLt
  constructor
  · rintro ⟨fits, m, counts, same⟩
    have fits' : new.counted ≤ 128 := fits
    obtain ⟨k, small, rfl, agree⟩ := (agrees m).1 same
    exact ⟨show old.counted ≤ 32 by omega, k, Address.countsAs_older.2 ⟨small, counts⟩, agree⟩
  · rintro ⟨fits, k, counts, same⟩
    have fits' : old.counted ≤ 32 := fits
    obtain ⟨small, counts⟩ := Address.countsAs_older.1 counts
    exact ⟨show new.counted ≤ 128 by omega, _, counts, (agrees _).2 ⟨k, small, rfl, same⟩⟩

/-! ## Written ranges -/

theorem bits?_toDigits {n : Nat} (small : n ≤ 255) : bits? (Nat.toDigits 10 n) = some n := by
  have digits := Address.decimal_digits n
  have unsigned : ∀ rest, Nat.toDigits 10 n = '+' :: rest → False :=
    fun rest same => absurd (digits '+' (by simp [same])) (by decide)
  rw [bits?.eq_2 _ unsigned, List.all_eq_true.2 digits, Nat.ofDigitChars_ten_toDigits]
  simp [Nat.toDigits_ne_nil, small]

theorem written_block {network : Address} {text : String} {n : Nat}
    (read : Address.ofChars? text.toList = some network)
    (chars : ∀ c ∈ text.toList, Address.IsLiteralChar c) (small : n ≤ 255) :
    Written ⟨network, some n⟩ (text ++ "/" ++ toString n) := by
  have split : (text ++ "/" ++ toString n).toList = text.toList ++ '/' :: Nat.toDigits 10 n := by
    simp
  have digits : ∀ c ∈ Nat.toDigits 10 n, isBlank c = false := fun c hc =>
    isBlank_of_isWordChar (isDigit_isWordChar (Address.decimal_digits n c hc))
  refine .block split (fun slash => (chars _ slash).ne_slash rfl) ?_ ?_
  · rw [trimBlanks_of_solid fun c hc => (chars c hc).solid, read]
  · rw [trimBlanks_of_solid digits, bits?_toDigits small]

theorem written_single {network : Address} {text : String}
    (read : Address.ofChars? text.toList = some network)
    (chars : ∀ c ∈ text.toList, Address.IsLiteralChar c) : Written ⟨network, none⟩ text :=
  .single (fun slash => (chars _ slash).ne_slash rfl) (Address.written_of_chars read chars)

end AddressRange

open AddressRange in
/-- An address of the older family and its mapped form are in the same ranges, however both are
written, so also with `::ffff:` before the address. A network of the older family and its mapped
form make the same range if both are alone or if ninety-six more bits of the mapped form count. -/
theorem mapped_interchangeable :
    (∀ (value : BitVec 32) (address address' : String), (Address.v4 value).Written address →
      (Address.v6 (Address.mapped value)).Written address' →
      ∀ range, inAddressRange address' range = inAddressRange address range) ∧
    (∀ (value : BitVec 32) (bits : Option Nat) (range range' : String),
      Written ⟨.v4 value, bits⟩ range →
      Written ⟨.v6 (Address.mapped value), bits.map (96 + ·)⟩ range' →
      ∀ address, inAddressRange address range' = inAddressRange address range) ∧
    (∀ (value : BitVec 32) (range : String),
      inAddressRange (Address.mappedLiteral value) range =
        inAddressRange (Address.v4 value).literal range) ∧
    ∀ (value : BitVec 32) (address : String),
      inAddressRange address (Address.mappedLiteral value) =
        inAddressRange address (Address.v4 value).literal ∧
      ∀ bits ≤ 32, inAddressRange address
          (Address.mappedLiteral value ++ "/" ++ toString (96 + bits)) =
        inAddressRange address ((Address.v4 value).literal ++ "/" ++ toString bits) := by
  have addresses : ∀ (value : BitVec 32) (address address' : String),
      (Address.v4 value).Written address → (Address.v6 (Address.mapped value)).Written address' →
      ∀ range, inAddressRange address' range = inAddressRange address range := by
    intro value address address' older newer range
    rw [Bool.eq_iff_iff, older.answers, newer.answers]
    simp only [holds_mapped]
  have networks : ∀ (value : BitVec 32) (bits : Option Nat) (range range' : String),
      Written ⟨.v4 value, bits⟩ range →
      Written ⟨.v6 (Address.mapped value), bits.map (96 + ·)⟩ range' →
      ∀ address, inAddressRange address range' = inAddressRange address range := by
    intro value bits range range' older newer address
    rw [Bool.eq_iff_iff, older.answers, newer.answers]
    simp only [holds_mapped_network]
  refine ⟨addresses, networks, fun value range => ?_,
    fun value address => ⟨?_, fun bits small => ?_⟩⟩
  · have older := Address.written_literal (.v4 value)
    exact addresses value _ _ older (Address.written_mappedLiteral value) range
  · have older := written_single (Address.ofChars?_literal (.v4 value)) (Address.literal_chars _)
    have newer := written_single (Address.ofChars?_mappedLiteral value)
      (Address.mappedLiteral_chars value)
    exact networks value none _ _ older newer address
  · have older := written_block (n := bits) (Address.ofChars?_literal (.v4 value))
      (Address.literal_chars _) (by omega)
    have newer := written_block (n := 96 + bits) (Address.ofChars?_mappedLiteral value)
      (Address.mappedLiteral_chars value) (by omega)
    exact networks value (some bits) _ _ older newer address

/-- A mapped address in hexadecimal groups, and a network of twenty-eight bits. -/
theorem mapped_interchangeable_office :
    (∀ range, inAddressRange "::FFFF:6464:6405" range = inAddressRange " 100.100.100.5" range) ∧
      ∀ address, inAddressRange address "::ffff:100.100.100.0/124" =
        inAddressRange address "100.100.100.0/28" := by
  obtain ⟨addresses, networks, -⟩ := mapped_interchangeable
  have older : (Address.v4 0x64646405).Written " 100.100.100.5" := by decide +kernel
  have newer : (Address.v6 (Address.mapped 0x64646405)).Written "::FFFF:6464:6405" := by
    decide +kernel
  have block : AddressRange.Written ⟨.v4 0x64646400, some 28⟩ "100.100.100.0/28" :=
    AddressRange.ofChars?_eq_some.1 (by decide +kernel)
  have again : AddressRange.Written ⟨.v6 (Address.mapped 0x64646400), some 124⟩
      "::ffff:100.100.100.0/124" := AddressRange.ofChars?_eq_some.1 (by decide +kernel)
  exact ⟨addresses _ _ _ older newer, networks _ (some 28) _ _ block again⟩

end Gatekeeper
