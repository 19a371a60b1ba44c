import Mathlib.Data.Nat.Bitwise
import HeliumOracles.IotConfig.HeliumNetids

/-!
# NetIDs and the DevAddr ranges they own

Source: `iot_config/src/lora_field.rs` (`NetIdField::net_id_type`, `nwk_id`,
`devaddr_type_bits`, `nwk_id_bits`, `max_nwk_addr_bit`, `range_start`, `range_end`,
`full_range`, and `DevAddrField::to_net_id`).

A field is the `u64` inside `LoraField`. `as u32` keeps its low 32 bits, and a `u32`
shift drops the bits it pushes past bit 31, which `% 2 ^ 32` models; a release build
masks a shift amount to its low five bits. The LoRaWAN layout these functions encode
is stated on its own (`nwkIdWidth`, `ValidNetId`): a NetID is a 3-bit type over a
21-bit field whose NwkID is the low 6, 6, 9, 11, 12, 13, 15 or 17 bits, and a DevAddr
of that type starts with `type` ones and a zero, then the NwkID.

`nwk_id` clears the top `type + 1` bits of the 24-bit NetID. For a type 7 NetID that
leaves 16 bits of a 17-bit NwkID, so two NetIDs of type 7 that differ only in the top
bit of their NwkID get the same DevAddr range, and `to_net_id`, which reads all 17
bits, maps half of that range back to the other NetID.
-/
namespace HeliumOracles.IotConfig

/-- `InvalidNetId`: the type or leading-ones count no arm of a match covers. -/
structure InvalidNetId where
  value : Nat
  deriving DecidableEq, Repr

/-- `self.0 as u32`. -/
def asU32 (field : Nat) : Nat := field % 2 ^ 32

/-- `x << amount` on a `u32`. -/
def u32Shl (x amount : Nat) : Nat := (x <<< (amount % 32)) % 2 ^ 32

/-- `x >> amount` on a `u32`. -/
def u32Shr (x amount : Nat) : Nat := x >>> (amount % 32)

/-- `u32::leading_ones`: the ones above the highest zero of a 32-bit word. -/
def leadingOnes (x : Nat) : Nat :=
  ((List.range 32).reverse.takeWhile x.testBit).length

/-- `NetIdField::net_id_type`: the top 3 of the 24 bits. -/
def netIdType (netId : Nat) : Nat := u32Shr (asU32 netId) (24 - 3)

/-- `NetIdField::nwk_id`: the low bits left once the top `type + 1` bits of the 24-bit
NetID are shifted out of a `u32` and the rest shifted back. -/
def nwkId (netId : Nat) : Nat :=
  let prefixLength := netIdType netId + 1
  u32Shr (u32Shl (asU32 netId) (prefixLength + 8)) (prefixLength + 8)

/-- `NetIdField::devaddr_type_bits`: `type` ones and a zero at the top of a DevAddr. -/
def devaddrTypeBits : Nat → Except InvalidNetId Nat
  | 0 => .ok 0
  | 1 => .ok (u32Shl 2 (32 - 2))
  | 2 => .ok (u32Shl 6 (32 - 3))
  | 3 => .ok (u32Shl 14 (32 - 4))
  | 4 => .ok (u32Shl 30 (32 - 5))
  | 5 => .ok (u32Shl 62 (32 - 6))
  | 6 => .ok (u32Shl 126 (32 - 7))
  | 7 => .ok (u32Shl 254 (32 - 8))
  | other => .error ⟨other⟩

/-- `NetIdField::nwk_id_bits`: the NwkID shifted to sit below the type bits. -/
def nwkIdBits (idType nwkId : Nat) : Except InvalidNetId Nat :=
  match idType with
  | 0 => .ok (u32Shl nwkId 25)
  | 1 => .ok (u32Shl nwkId 24)
  | 2 => .ok (u32Shl nwkId 20)
  | 3 => .ok (u32Shl nwkId 17)
  | 4 => .ok (u32Shl nwkId 15)
  | 5 => .ok (u32Shl nwkId 13)
  | 6 => .ok (u32Shl nwkId 10)
  | 7 => .ok (u32Shl nwkId 7)
  | other => .error ⟨other⟩

/-- `NetIdField::max_nwk_addr_bit`: the NwkAddr bits below the NwkID, all set. -/
def maxNwkAddrBit : Nat → Except InvalidNetId Nat
  | 0 => .ok (2 ^ 25 - 1)
  | 1 => .ok (2 ^ 24 - 1)
  | 2 => .ok (2 ^ 20 - 1)
  | 3 => .ok (2 ^ 17 - 1)
  | 4 => .ok (2 ^ 15 - 1)
  | 5 => .ok (2 ^ 13 - 1)
  | 6 => .ok (2 ^ 10 - 1)
  | 7 => .ok (2 ^ 7 - 1)
  | other => .error ⟨other⟩

/-- `NetIdField::range_start`. -/
def rangeStart (netId : Nat) : Except InvalidNetId Nat := do
  let idType := netIdType netId
  let left ← devaddrTypeBits idType
  let middle ← nwkIdBits idType (nwkId netId)
  pure (left ||| middle)

/-- `NetIdField::range_end`. -/
def rangeEnd (netId : Nat) : Except InvalidNetId Nat := do
  let idType := netIdType netId
  let left ← devaddrTypeBits idType
  let middle ← nwkIdBits idType (nwkId netId)
  let right ← maxNwkAddrBit idType
  pure (left ||| middle ||| right)

/-- `NetIdField::full_range`: built as a struct, without the checks of
`DevAddrConstraint::new`. -/
def fullRange (netId : Nat) : Except InvalidNetId DevAddrConstraint := do
  let startAddr ← rangeStart netId
  let endAddr ← rangeEnd netId
  pure ⟨startAddr, endAddr⟩

/-- `DevAddrField::to_net_id`: the NwkID under each count of leading ones, with the
NetID type set above it. -/
def toNetId (devaddr : Nat) : Except InvalidNetId Nat :=
  let addr := asU32 devaddr
  match leadingOnes addr with
  | 0 => .ok (u32Shr (addr &&& 0b01111110000000000000000000000000) 25)
  | 1 => .ok (u32Shr (addr &&& 0b00111111000000000000000000000000) 24 ||| 0b001000000000000000000000)
  | 2 => .ok (u32Shr (addr &&& 0b00011111111100000000000000000000) 20 ||| 0b010000000000000000000000)
  | 3 => .ok (u32Shr (addr &&& 0b00001111111111100000000000000000) 17 ||| 0b011000000000000000000000)
  | 4 => .ok (u32Shr (addr &&& 0b00000111111111111000000000000000) 15 ||| 0b100000000000000000000000)
  | 5 => .ok (u32Shr (addr &&& 0b00000011111111111110000000000000) 13 ||| 0b101000000000000000000000)
  | 6 => .ok (u32Shr (addr &&& 0b00000001111111111111110000000000) 10 ||| 0b110000000000000000000000)
  | 7 => .ok (u32Shr (addr &&& 0b00000000111111111111111110000000) 7 ||| 0b111000000000000000000000)
  | other => .error ⟨other⟩

/-! ## The LoRaWAN layout -/

/-- The width of the NwkID of a NetID type, in the NetID and in a DevAddr. -/
def nwkIdWidth : Nat → Nat
  | 0 => 6
  | 1 => 6
  | 2 => 9
  | 3 => 11
  | 4 => 12
  | 5 => 13
  | 6 => 15
  | _ => 17

/-- A 24-bit NetID whose NwkID fits the width of its type. -/
def ValidNetId (netId : Nat) : Prop :=
  netId < 2 ^ 24 ∧ netId % 2 ^ 21 < 2 ^ nwkIdWidth (netId / 2 ^ 21)

instance (netId : Nat) : Decidable (ValidNetId netId) := inferInstanceAs (Decidable (_ ∧ _))

/-! ## Type 7 NetIDs that share a range -/

/-- The type 7 NetIDs `0xE00000` and `0xE10000` differ in bit 16 of their 17-bit NwkID.
`nwk_id` drops that bit, so both get the range `0xFE000000..=0xFE00007F`, and
`to_net_id` reads its start back as `0xE00000`; the addresses that do carry bit 16,
from `0xFE800000` on, lie outside the range of `0xE10000` although `to_net_id` maps
them to it. -/
theorem type7_netids_share_range :
    ValidNetId 0xE00000 ∧ ValidNetId 0xE10000 ∧
    fullRange 0xE00000 = .ok ⟨0xFE000000, 0xFE00007F⟩ ∧
    fullRange 0xE10000 = .ok ⟨0xFE000000, 0xFE00007F⟩ ∧
    toNetId 0xFE000000 = .ok 0xE00000 ∧
    toNetId 0xFE800000 = .ok 0xE10000 := by
  decide

end HeliumOracles.IotConfig
