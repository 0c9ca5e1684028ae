import Gatekeeper.Text.Hex

/-!
# Internet addresses

Addresses of the two families, and reading their literal forms. An octet has no leading zeros; a
group of hexadecimal digits may have them, up to four digits in all. One double colon stands for at
least one group of zeros, and the last two groups may be written as four octets. A reader that finds
four dotted octets first has read an address of the older family, whatever follows.
-/

set_option autoImplicit false

namespace Gatekeeper

inductive Address
  | v4 (value : BitVec 32)
  | v6 (value : BitVec 128)
  deriving DecidableEq, Repr

namespace Address

def ofParts (size : Nat) (parts : List Nat) : Nat :=
  parts.foldl (fun n part => n * size + part) 0

def readOctet? (cs : List Char) : Option (Nat × List Char) :=
  let run := cs.takeWhile Char.isDigit
  let value := Nat.ofDigitChars 10 run 0
  if run.isEmpty || 3 < run.length || (1 < run.length && run.head? == some '0') || 255 < value then
    none
  else some (value, cs.dropWhile Char.isDigit)

def readGroup? (cs : List Char) : Option (Nat × List Char) :=
  let run := cs.takeWhile Char.isHexDigit
  if run.isEmpty || 4 < run.length then none
  else some (hexValue run, cs.dropWhile Char.isHexDigit)

def afterSeparator? (separator : Char) : List Char → Option (List Char)
  | [] => none
  | c :: rest => if c = separator then some rest else none

def readDotted? (cs : List Char) : Option (Nat × List Char) := do
  let (a, cs) ← readOctet? cs
  let (b, cs) ← readOctet? (← afterSeparator? '.' cs)
  let (c, cs) ← readOctet? (← afterSeparator? '.' cs)
  let (d, cs) ← readOctet? (← afterSeparator? '.' cs)
  return (ofParts 256 [a, b, c, d], cs)

structure Groups where
  values : List Nat
  /-- The last two groups were written as octets. -/
  dotted : Bool
  rest : List Char

def readGroups (room : Nat) (first : Bool) (cs : List Char) : Groups :=
  match room with
  | 0 => ⟨[], false, cs⟩
  | room + 1 =>
    match if first then some cs else afterSeparator? ':' cs with
    | none => ⟨[], false, cs⟩
    | some body =>
      -- Four octets take the places of two groups.
      match if room = 0 then none else readDotted? body with
      | some (value, rest) => ⟨[value / 0x10000, value % 0x10000], true, rest⟩
      | none =>
        match readGroup? body with
        | none => ⟨[], false, cs⟩
        | some (value, rest) =>
          let later := readGroups room false rest
          ⟨value :: later.values, later.dotted, later.rest⟩

def readEight? (cs : List Char) : Option (List Nat × List Char) :=
  let head := readGroups 8 true cs
  if head.values.length = 8 then some (head.values, head.rest)
  else if head.dotted then none
  else do
    let rest ← afterSeparator? ':' (← afterSeparator? ':' head.rest)
    let tail := readGroups (7 - head.values.length) true rest
    -- At least one group is left out, since the tail has room for one less than there is.
    let gap := List.replicate (8 - head.values.length - tail.values.length) 0
    return (head.values ++ gap ++ tail.values, tail.rest)

def read? (cs : List Char) : Option (Address × List Char) :=
  match readDotted? cs with
  | some (value, rest) => some (.v4 (BitVec.ofNat 32 value), rest)
  | none =>
    match readEight? cs with
    | some (values, rest) => some (.v6 (BitVec.ofNat 128 (ofParts 0x10000 values)), rest)
    | none => none

def ofChars? (cs : List Char) : Option Address :=
  match read? cs with
  | some (address, []) => some address
  | _ => none

def blockSize : Nat := 0x100000000

def mappedBlock : Nat := 0xFFFF

def mapped (value : BitVec 32) : BitVec 128 :=
  BitVec.ofNat 128 (mappedBlock * blockSize + value.toNat)

def unmapped? (value : BitVec 128) : Option (BitVec 32) :=
  if value.toNat / blockSize = mappedBlock then some (BitVec.ofNat 32 value.toNat) else none

theorem toNat_mapped (value : BitVec 32) :
    (mapped value).toNat = mappedBlock * blockSize + value.toNat := by
  have h : value.toNat < 2 ^ 32 := value.isLt
  simp only [mapped, mappedBlock, blockSize, BitVec.toNat_ofNat]
  omega

theorem unmapped?_mapped (value : BitVec 32) : unmapped? (mapped value) = some value := by
  have h : value.toNat < 2 ^ 32 := value.isLt
  have hq : (mappedBlock * blockSize + value.toNat) / blockSize = mappedBlock := by
    simp only [mappedBlock, blockSize]
    omega
  rw [unmapped?, toNat_mapped, if_pos hq]
  congr 1
  apply BitVec.eq_of_toNat_eq
  simp only [BitVec.toNat_ofNat, mappedBlock, blockSize]
  omega

end Address

end Gatekeeper
