import Gatekeeper.Address.Range
import Gatekeeper.Proofs.Address.Literal

/-!
# Membership in ranges

What it is for an address to be in a range, told with whole numbers: the address and the network
have the same quotient by the number of addresses that the free bits leave room for. So a range is a
block of consecutive addresses, its network is any address of the block, and a range with fewer bits
that count is a larger one.
-/

set_option autoImplicit false

namespace Gatekeeper

namespace Address

def width : Address → Nat
  | .v4 _ => 32
  | .v6 _ => 128

def toNat : Address → Nat
  | .v4 value => value.toNat
  | .v6 value => value.toNat

theorem toNat_lt (a : Address) : a.toNat < 2 ^ a.width := by
  cases a with
  | v4 value => exact value.isLt
  | v6 value => exact value.isLt

/-- The number of the address among the words of a width. The older family has its place in the
newer one, and from there, but from nowhere else, an address is taken back. -/
inductive CountsAs : Address → Nat → Nat → Prop
  | older (value : BitVec 32) : CountsAs (.v4 value) 32 value.toNat
  | newer (value : BitVec 128) : CountsAs (.v6 value) 128 value.toNat
  | mapped (value : BitVec 32) : CountsAs (.v4 value) 128 (0xFFFF * 2 ^ 32 + value.toNat)
  | unmapped {value : BitVec 128} {n : Nat} (small : n < 2 ^ 32)
      (form : value.toNat = 0xFFFF * 2 ^ 32 + n) : CountsAs (.v6 value) 32 n

theorem CountsAs.own {a : Address} {n : Nat} : a.CountsAs a.width n ↔ n = a.toNat := by
  constructor
  · intro h
    cases a <;> cases h <;> rfl
  · rintro rfl
    cases a with
    | v4 value => exact .older value
    | v6 value => exact .newer value

theorem unmapped?_eq_some {value : BitVec 128} {n : BitVec 32} :
    unmapped? value = some n ↔ value.toNat = 0xFFFF * 2 ^ 32 + n.toNat := by
  constructor
  · intro h
    unfold unmapped? at h
    split at h
    · rename_i form
      obtain rfl := Option.some.inj h
      simp only [mappedBlock, blockSize, BitVec.toNat_ofNat] at form ⊢
      omega
    · cases h
  · intro form
    have same : value = mapped n :=
      BitVec.eq_of_toNat_eq (form.trans (toNat_mapped n).symm)
    rw [same, unmapped?_mapped]

theorem CountsAs.mapped_iff {value : BitVec 32} {n : Nat} :
    (Address.v4 value).CountsAs 128 n ↔ n = (Address.mapped value).toNat := by
  rw [toNat_mapped]
  constructor
  · rintro ⟨⟩
    rfl
  · rintro rfl
    exact .mapped value

theorem CountsAs.unmapped_iff {value : BitVec 128} {n : Nat} :
    (Address.v6 value).CountsAs 32 n ↔ ∃ back, unmapped? value = some back ∧ n = back.toNat := by
  constructor
  · rintro (_ | _ | _ | ⟨small, form⟩)
    have same : n = (BitVec.ofNat 32 n).toNat := (Nat.mod_eq_of_lt small).symm
    exact ⟨.ofNat 32 n, unmapped?_eq_some.2 (by rw [form, ← same]), same⟩
  · rintro ⟨back, taken, rfl⟩
    exact .unmapped back.isLt (unmapped?_eq_some.1 taken)

end Address

namespace AddressRange

def counted (r : AddressRange) : Nat := r.bits.getD r.network.width

def size (r : AddressRange) : Nat := 2 ^ (r.network.width - r.counted)

def first (r : AddressRange) : Nat := r.network.toNat / r.size * r.size

inductive Written : AddressRange → String → Prop
  | single {network : Address} {text : String} (slashless : '/' ∉ text.toList)
      (address : network.Written text) : Written ⟨network, none⟩ text
  | block {network : Address} {bits : Nat} {text : String} {before after : List Char}
      (split : text.toList = before ++ '/' :: after) (slashless : '/' ∉ before)
      (address : Address.ofChars? (trimBlanks before) = some network)
      (count : bits? (trimBlanks after) = some bits) : Written ⟨network, some bits⟩ text

structure Holds (r : AddressRange) (a : Address) : Prop where
  fits : r.counted ≤ r.network.width
  agrees : ∃ n, a.CountsAs r.network.width n ∧ n / r.size = r.network.toNat / r.size

variable {r : AddressRange} {a : Address}

theorem size_pos (r : AddressRange) : 0 < r.size := Nat.two_pow_pos _

/-- Two words are the same under a mask that leaves out the last bits exactly if they have the same
quotient by the power of two that these bits count up to. -/
theorem masked_eq_iff {width : Nat} {a n : BitVec width} (free : Nat) :
    a &&& BitVec.allOnes width <<< free = n &&& BitVec.allOnes width <<< free ↔
      a.toNat / 2 ^ free = n.toNat / 2 ^ free := by
  have quotients : a.toNat / 2 ^ free = n.toNat / 2 ^ free ↔ a >>> free = n >>> free := by
    rw [← BitVec.toNat_inj, BitVec.toNat_ushiftRight, BitVec.toNat_ushiftRight,
      Nat.shiftRight_eq_div_pow, Nat.shiftRight_eq_div_pow]
  rw [quotients]
  constructor
  · intro same
    ext i hi
    rw [BitVec.getElem_ushiftRight, BitVec.getElem_ushiftRight]
    by_cases inside : free + i < width
    · have bit := congrArg (·.getLsbD (free + i)) same
      have counted : ¬ free + i < free := by omega
      simpa [inside, counted] using bit
    · rw [BitVec.getLsbD_of_ge a _ (by omega), BitVec.getLsbD_of_ge n _ (by omega)]
  · intro same
    ext i hi
    have bit := congrArg (·.getLsbD (i - free)) same
    by_cases masked : i < free
    · simp [masked]
    · have there : free + (i - free) = i := by omega
      simpa [masked, there, hi] using bit

theorem agree_eq_true {width : Nat} {a n : BitVec width} {bits : Option Nat} :
    agree a n bits = true ↔ bits.getD width ≤ width ∧
      a.toNat / 2 ^ (width - bits.getD width) = n.toNat / 2 ^ (width - bits.getD width) := by
  rw [← masked_eq_iff, agree]
  split
  · rename_i tooMany
    simp [Nat.not_le.2 tooMany]
  · rename_i fits
    simp [Nat.le_of_not_lt fits]

theorem agree_iff_holds {m n : BitVec r.network.width} (network : n.toNat = r.network.toNat)
    (only : ∀ k, a.CountsAs r.network.width k ↔ k = m.toNat) :
    agree m n r.bits = true ↔ r.Holds a := by
  rw [agree_eq_true, network]
  constructor
  · rintro ⟨fits, agrees⟩
    exact ⟨fits, m.toNat, (only _).2 rfl, agrees⟩
  · rintro ⟨fits, k, counts, agrees⟩
    rw [(only k).1 counts] at agrees
    exact ⟨fits, agrees⟩

theorem contains_eq_true : r.contains a = true ↔ r.Holds a := by
  obtain ⟨network, bits⟩ := r
  cases network with
  | v4 n =>
    cases a with
    | v4 a => exact agree_iff_holds (r := ⟨.v4 n, bits⟩) rfl fun _ => Address.CountsAs.own
    | v6 a =>
      simp only [contains]
      cases taken : Address.unmapped? a with
      | none =>
        refine iff_of_false Bool.false_ne_true ?_
        rintro ⟨-, k, counts, -⟩
        obtain ⟨back, given, -⟩ := Address.CountsAs.unmapped_iff.1 counts
        cases taken.symm.trans given
      | some back =>
        refine agree_iff_holds (r := ⟨.v4 n, bits⟩) rfl fun k => ?_
        refine Address.CountsAs.unmapped_iff.trans ⟨?_, fun same => ⟨back, taken, same⟩⟩
        rintro ⟨other, given, same⟩
        cases taken.symm.trans given
        exact same
  | v6 n =>
    cases a with
    | v4 a => exact agree_iff_holds (r := ⟨.v6 n, bits⟩) rfl fun _ => Address.CountsAs.mapped_iff
    | v6 a => exact agree_iff_holds (r := ⟨.v6 n, bits⟩) rfl fun _ => Address.CountsAs.own

/-! ## Texts -/

theorem ofChars?_slashless {cs : List Char} (slashless : '/' ∉ cs) :
    ofChars? cs = (Address.ofChars? (trimBlanks cs)).map (⟨·, none⟩) := by
  have others : ∀ c ∈ trimBlanks cs, (c != '/') = true := by
    intro c hc
    simpa using fun same : c = '/' => slashless (same ▸ mem_of_mem_trimBlanks hc)
  have taken := List.takeWhile_eq_self_iff.2 others
  have dropped := List.dropWhile_eq_nil_iff.2 others
  rw [ofChars?]
  simp only [taken, dropped, trimBlanks_trimBlanks]
  cases Address.ofChars? (trimBlanks cs) <;> rfl

theorem ofChars?_slash {before : List Char} (slashless : '/' ∉ before) (after : List Char) :
    ofChars? (before ++ '/' :: after) = do
      let network ← Address.ofChars? (trimBlanks before)
      return ⟨network, some (← bits? (trimBlanks after))⟩ := by
  have others : ∀ c ∈ before.dropWhile isBlank, (c != '/') = true := by
    intro c hc
    simpa using fun same : c = '/' => slashless (same ▸ (List.dropWhile_suffix _).mem hc)
  have stop : ∀ c ∈ ('/' :: after.rdropWhile isBlank).head?, (c != '/') = false := by simp
  obtain ⟨taken, dropped⟩ := run_append others stop
  rw [ofChars?, trimBlanks_append_solid (by rfl)]
  simp only [taken, dropped, trimBlanks_dropWhile, trimBlanks_rdropWhile]

theorem ofChars?_eq_some {text : String} : ofChars? text.toList = some r ↔ r.Written text := by
  constructor
  · intro h
    by_cases slash : '/' ∈ text.toList
    · obtain ⟨before, after, split, slashless⟩ := List.eq_append_cons_of_mem slash
      rw [split, ofChars?_slash slashless] at h
      simp only [Option.bind_eq_bind, Option.bind_eq_some_iff, Option.pure_def, Option.some.injEq]
        at h
      obtain ⟨network, address, bits, count, rfl⟩ := h
      exact .block split slashless address count
    · rw [ofChars?_slashless slash, Option.map_eq_some_iff] at h
      obtain ⟨network, address, rfl⟩ := h
      exact .single slash address
  · intro written
    cases written with
    | single slashless address => rw [ofChars?_slashless slashless, address, Option.map_some]
    | block split slashless address count =>
      rw [split, ofChars?_slash slashless, address, count]
      rfl

theorem inAddressRange_of_written {address range : String} (here : a.Written address)
    (block : r.Written range) : inAddressRange address range = r.contains a := by
  unfold inAddressRange
  rw [here, ofChars?_eq_some.2 block]

theorem inAddressRange_eq_true {address range : String} :
    inAddressRange address range = true ↔
      ∃ (a : Address) (r : AddressRange), a.Written address ∧ r.Written range ∧ r.Holds a := by
  constructor
  · intro h
    unfold inAddressRange at h
    split at h
    · rename_i a r here block
      exact ⟨a, r, here, ofChars?_eq_some.1 block, contains_eq_true.1 h⟩
    · cases h
  · rintro ⟨a, r, here, block, holds⟩
    rw [inAddressRange_of_written here block, contains_eq_true]
    exact holds

theorem Written.unique {r' : AddressRange} {range : String} (h : r.Written range)
    (h' : r'.Written range) : r = r' :=
  Option.some.inj ((ofChars?_eq_some.2 h).symm.trans (ofChars?_eq_some.2 h'))

theorem Written.answers {range : String} (block : r.Written range) (address : String) :
    inAddressRange address range = true ↔ ∃ a, a.Written address ∧ r.Holds a := by
  rw [inAddressRange_eq_true]
  constructor
  · rintro ⟨a, r', here, block', holds⟩
    rw [block.unique block']
    exact ⟨a, here, holds⟩
  · rintro ⟨a, here, holds⟩
    exact ⟨a, r, here, block, holds⟩

/-! ## Blocks -/

/-- An address stays in a range of fewer bits whose network has these bits in common. -/
theorem Holds.of_fewer {r' : AddressRange} (width : r'.network.width = r.network.width)
    (fewer : r'.counted ≤ r.counted)
    (common : r'.network.toNat / r'.size = r.network.toNat / r'.size) (holds : r.Holds a) :
    r'.Holds a := by
  obtain ⟨fits, n, counts, agrees⟩ := holds
  have coarser : r'.size = r.size * 2 ^ (r.counted - r'.counted) := by
    rw [size, size, width, ← Nat.pow_add]
    congr 1
    omega
  refine ⟨by omega, n, width ▸ counts, ?_⟩
  rw [common, coarser, ← Nat.div_div_eq_div_mul, ← Nat.div_div_eq_div_mul, agrees]

theorem Holds.own_iff (family : a.width = r.network.width) (fits : r.counted ≤ r.network.width) :
    r.Holds a ↔ r.first ≤ a.toNat ∧ a.toNat < r.first + r.size := by
  have block : a.toNat / r.size = r.network.toNat / r.size ↔
      r.first ≤ a.toNat ∧ a.toNat < r.first + r.size := by
    have positive := r.size_pos
    rw [Nat.div_eq_iff positive, ← first]
    omega
  rw [← block]
  constructor
  · rintro ⟨-, n, counts, agrees⟩
    rw [← family, Address.CountsAs.own] at counts
    rwa [← counts]
  · intro agrees
    exact ⟨fits, a.toNat, family ▸ Address.CountsAs.own.2 rfl, agrees⟩

theorem first_le (r : AddressRange) : r.first ≤ r.network.toNat := Nat.div_mul_le_self _ _

theorem lt_first_add_size (r : AddressRange) : r.network.toNat < r.first + r.size :=
  Nat.lt_div_mul_add r.size_pos

/-- A block does not reach beyond the words of its family. -/
theorem first_add_size_le (fits : r.counted ≤ r.network.width) :
    r.first + r.size ≤ 2 ^ r.network.width := by
  have whole : 2 ^ r.network.width = 2 ^ r.counted * r.size := by
    rw [size, ← Nat.pow_add, Nat.add_sub_cancel' fits]
  have quotient : r.network.toNat / r.size < 2 ^ r.counted := by
    apply Nat.div_lt_of_lt_mul
    rw [Nat.mul_comm, ← whole]
    exact r.network.toNat_lt
  calc r.first + r.size = (r.network.toNat / r.size + 1) * r.size := (Nat.succ_mul _ _).symm
    _ ≤ 2 ^ r.counted * r.size := Nat.mul_le_mul_right _ quotient
    _ = 2 ^ r.network.width := whole.symm

end AddressRange

theorem Address.Written.answers {a : Address} {address : String} (here : a.Written address)
    (range : String) :
    inAddressRange address range = true ↔ ∃ r : AddressRange, r.Written range ∧ r.Holds a := by
  rw [AddressRange.inAddressRange_eq_true]
  constructor
  · rintro ⟨a', r, here', block, holds⟩
    obtain rfl : a' = a := Option.some.inj (here'.symm.trans here)
    exact ⟨r, block, holds⟩
  · rintro ⟨r, block, holds⟩
    exact ⟨a, r, here, block, holds⟩

/-- Every number of the family's words is that of an address that can be written. -/
theorem Address.exists_written (a : Address) {n : Nat} (small : n < 2 ^ a.width) :
    ∃ (b : Address) (text : String), b.Written text ∧ b.width = a.width ∧ b.toNat = n := by
  cases a with
  | v4 value =>
    refine ⟨.v4 (.ofNat 32 n), _, Address.written_literal _, rfl, ?_⟩
    exact Nat.mod_eq_of_lt small
  | v6 value =>
    refine ⟨.v6 (.ofNat 128 n), _, Address.written_literal _, rfl, ?_⟩
    exact Nat.mod_eq_of_lt small

/-- A text is in a range exactly if it is an address, the range is one of no more bits than there
are, and the two agree in these bits as numbers. The addresses of the network's family that are in a
range are those of a block as long as the other bits make it, with the network among them; every
network of the block makes the same range; and with fewer bits no address is lost. -/
theorem membership_exact :
    (∀ address range : String, inAddressRange address range = true ↔
      ∃ (a : Address) (r : AddressRange), a.Written address ∧ r.Written range ∧ r.Holds a) ∧
    (∀ (range : String) (r : AddressRange), r.Written range → r.counted ≤ r.network.width →
      (∀ (address : String) (a : Address), a.Written address → a.width = r.network.width →
        (inAddressRange address range = true ↔
          r.first ≤ a.toNat ∧ a.toNat < r.first + r.size)) ∧
      (∀ n, r.first ≤ n → n < r.first + r.size → ∃ (a : Address) (address : String),
        a.Written address ∧ a.width = r.network.width ∧ a.toNat = n) ∧
      r.first ≤ r.network.toNat ∧ r.network.toNat < r.first + r.size) ∧
    (∀ (range range' : String) (r r' : AddressRange), r.Written range → r'.Written range' →
      r'.network.width = r.network.width → r'.counted = r.counted →
      r'.network.toNat / r.size = r.network.toNat / r.size →
      ∀ address, inAddressRange address range' = inAddressRange address range) ∧
    ∀ (range range' : String) (r r' : AddressRange), r.Written range → r'.Written range' →
      r'.network = r.network → r'.counted ≤ r.counted →
      ∀ address, inAddressRange address range = true → inAddressRange address range' = true := by
  refine ⟨fun _ _ => AddressRange.inAddressRange_eq_true, ?_, ?_, ?_⟩
  · intro range r block fits
    refine ⟨fun address a here family => ?_, fun n above below => ?_, r.first_le,
      r.lt_first_add_size⟩
    · rw [AddressRange.inAddressRange_of_written here block, AddressRange.contains_eq_true]
      exact AddressRange.Holds.own_iff family fits
    · exact r.network.exists_written (below.trans_le (AddressRange.first_add_size_le fits))
  · intro range range' r r' block block' width counted common address
    have size : r'.size = r.size := by rw [AddressRange.size, AddressRange.size, width, counted]
    have same : ∀ a, r'.Holds a ↔ r.Holds a := fun a =>
      ⟨.of_fewer width.symm counted.ge common.symm, .of_fewer width counted.le (size ▸ common)⟩
    rw [Bool.eq_iff_iff, block'.answers, block.answers]
    simp only [same]
  · intro range range' r r' block block' network fewer address h
    obtain ⟨a, here, holds⟩ := (block.answers address).1 h
    refine (block'.answers address).2 ⟨a, here, holds.of_fewer ?_ fewer ?_⟩ <;> rw [network]

/-- The sixteen addresses of an office: the last one, the one behind it, a network with other host
bits, and a larger range. -/
theorem membership_exact_office :
    inAddressRange "100.100.100.15" "100.100.100.1/28" = true ∧
      inAddressRange "100.100.100.16" "100.100.100.1/28" = false ∧
      (∀ address, inAddressRange address "100.100.100.9 / +28" =
        inAddressRange address "100.100.100.1/28") ∧
      inAddressRange "100.100.100.15" "100.100.100.1/8" = true := by
  have office : AddressRange.Written ⟨.v4 0x64646401, some 28⟩ "100.100.100.1/28" :=
    AddressRange.ofChars?_eq_some.1 (by decide +kernel)
  have other : AddressRange.Written ⟨.v4 0x64646409, some 28⟩ "100.100.100.9 / +28" :=
    AddressRange.ofChars?_eq_some.1 (by decide +kernel)
  have larger : AddressRange.Written ⟨.v4 0x64646401, some 8⟩ "100.100.100.1/8" :=
    AddressRange.ofChars?_eq_some.1 (by decide +kernel)
  have last : (Address.v4 0x6464640F).Written "100.100.100.15" := by decide +kernel
  have behind : (Address.v4 0x64646410).Written "100.100.100.16" := by decide +kernel
  obtain ⟨-, blocks, hosts, fewer⟩ := membership_exact
  obtain ⟨belongs, -⟩ := blocks _ _ office (by decide)
  have inside := (belongs _ _ last rfl).2 (by decide)
  refine ⟨inside, ?_, hosts _ _ _ _ office other rfl rfl (by decide),
    fewer _ _ _ _ office larger rfl (by decide) _ inside⟩
  rw [Bool.eq_false_iff, ne_eq, belongs _ _ behind rfl]
  decide

end Gatekeeper
