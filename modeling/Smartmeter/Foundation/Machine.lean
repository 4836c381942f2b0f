import Mathlib.Algebra.Order.Ring.Int

/-!
# Machine words and checksums

What the meaning of a program depends on besides its text: the width of
`usize`, how often its loops are unrolled, and the checksum it computes.
-/

namespace Smartmeter
namespace Foundation

class Machine where
  usizeBits : Nat
  usizeBits_ge : 16 ≤ usizeBits
  /-- How often a loop of unknown length is unrolled. -/
  fuel : Nat
  fuel_ge : 32 ≤ fuel

@[reducible] def Machine.word32 (fuel : Nat) (h : 32 ≤ fuel) : Machine where
  usizeBits := 32
  usizeBits_ge := by decide
  fuel := fuel
  fuel_ge := h

/-!
## Arithmetic on `usize`

A value of type `usize` is a natural number below `2 ^ usizeBits`.
The operator `+=` wraps, as it does in a release build.
-/

namespace Usize

def checkedSub (a b : Nat) : Option Nat :=
  if b ≤ a then some (a - b) else none

theorem checkedSub_eq {a b : Nat} (h : b ≤ a) : checkedSub a b = some (a - b) :=
  if_pos h

variable [Machine]

def size : Nat := 2 ^ Machine.usizeBits

def wrappingAdd (a b : Nat) : Nat := (a + b) % size

def checkedAdd (a b : Nat) : Option Nat :=
  if a + b < size then some (a + b) else none

def checkedShl (a k : Nat) : Option Nat :=
  if k < Machine.usizeBits then some (a * 2 ^ k % size) else none

theorem size_pos : 0 < size := Nat.two_pow_pos _

theorem pow_le_size : 2 ^ 16 ≤ size :=
  Nat.pow_le_pow_right (by decide) Machine.usizeBits_ge

theorem wrappingAdd_lt (a b : Nat) : wrappingAdd a b < size :=
  Nat.mod_lt _ size_pos

theorem wrappingAdd_le (a b : Nat) : wrappingAdd a b ≤ a + b :=
  Nat.mod_le _ _

theorem wrappingAdd_eq {a b : Nat} (h : a + b < size) :
    wrappingAdd a b = a + b :=
  Nat.mod_eq_of_lt h

theorem wrappingAdd_add_size_le {a b : Nat} (h : size ≤ a + b) :
    wrappingAdd a b + size ≤ a + b := by
  unfold wrappingAdd
  rw [Nat.mod_eq_sub_mod h]
  have hle := Nat.mod_le (a + b - size) size
  lia

theorem checkedAdd_eq {a b : Nat} (h : a + b < size) :
    checkedAdd a b = some (a + b) :=
  if_pos h

theorem checkedShl_four (a : Nat) : checkedShl a 4 = some (a * 16 % size) :=
  if_pos (Nat.lt_of_lt_of_le (by decide) Machine.usizeBits_ge)

end Usize

/-!
## Incremental checksums
-/

/--
A 16-bit checksum computed piece by piece; feeding two pieces is feeding them
joined.
-/
class Digest (δ : Type) where
  digest : δ
  update : δ -> List UInt8 -> δ
  finalize : δ -> UInt16
  update_nil : forall d, update d [] = d
  update_append : forall d a b, update (update d a) b = update d (a ++ b)

namespace Digest

variable {δ : Type} [Digest δ]

attribute [simp] Digest.update_nil

def checksum (δ : Type) [Digest δ] (bs : List UInt8) : UInt16 :=
  finalize (update (digest : δ) bs)

end Digest

end Foundation
end Smartmeter
