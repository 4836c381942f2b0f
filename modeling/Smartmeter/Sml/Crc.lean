import Smartmeter.Foundation.Machine

/-!
# The checksum of SML

`CRC_16_SML`: polynomial `0x1021`, reflected, with all bits of the
first and of the last remainder inverted.
-/

namespace Smartmeter
namespace Sml

open Foundation

structure Crc where
  value : Nat
deriving DecidableEq, Repr

namespace Crc

def poly : Nat := 0x8408

def shift (value : Nat) : Nat :=
  if value % 2 = 1 then (value / 2) ^^^ poly else value / 2

def updateByte (crc : Crc) (byte : UInt8) : Crc :=
  { value := Nat.repeat shift 8 (crc.value ^^^ byte.toNat) }

def update (crc : Crc) (bytes : List UInt8) : Crc :=
  bytes.foldl updateByte crc

instance : Digest Crc where
  digest := { value := 0xFFFF }
  update := update
  finalize crc := UInt16.ofNat (crc.value ^^^ 0xFFFF)
  update_nil _ := rfl
  update_append crc a b := by
    unfold update
    rw [List.foldl_append]

example : Digest.checksum Crc [0x31, 0x32, 0x33, 0x34, 0x35, 0x36, 0x37, 0x38, 0x39] = 0x906E := by
  decide +kernel

end Crc

end Sml
end Smartmeter
