import Mathlib.Algebra.Order.Ring.Int
import Mathlib.Tactic.Ring

/-!
# Big-endian numbers

Numbers as byte strings, the most significant byte first, plain and in two's
complement.
-/

namespace Smartmeter
namespace Foundation

def beNat (bytes : List UInt8) : Nat :=
  bytes.foldl (fun acc b => 256 * acc + b.toNat) 0

def beInt (bytes : List UInt8) : Int :=
  if 128 ≤ (bytes.headD 0).toNat then (beNat bytes : Int) - 256 ^ bytes.length
  else beNat bytes

def beBytes : Nat -> Nat -> List UInt8
  | 0, _ => []
  | k + 1, n => UInt8.ofNat (n / 256 ^ k % 256) :: beBytes k n

def beIntBytes (k : Nat) (n : Int) : List UInt8 :=
  beBytes k (n % 256 ^ k).toNat

/-!
## Plain numbers
-/

theorem beNat_append (as bs : List UInt8) :
    beNat (as ++ bs) = 256 ^ bs.length * beNat as + beNat bs := by
  have hfold : forall (acc : Nat) (bs : List UInt8),
      bs.foldl (fun acc b => 256 * acc + b.toNat) acc = 256 ^ bs.length * acc + beNat bs := by
    intro acc bs
    induction bs generalizing acc with
    | nil =>
        change acc = 256 ^ 0 * acc + 0
        rw [Nat.pow_zero, Nat.one_mul, Nat.add_zero]
    | cons b bs ih =>
        have hcons : beNat (b :: bs) = 256 ^ bs.length * (256 * 0 + b.toNat) + beNat bs :=
          ih (256 * 0 + b.toNat)
        rw [List.foldl_cons, ih, hcons, List.length_cons, Nat.pow_succ]
        ring
  change (as ++ bs).foldl _ 0 = _
  rw [List.foldl_append, hfold]
  rfl

theorem beNat_cons (b : UInt8) (bs : List UInt8) :
    beNat (b :: bs) = 256 ^ bs.length * b.toNat + beNat bs := by
  have h := beNat_append [b] bs
  have hb : beNat [b] = b.toNat := by
    change 256 * 0 + b.toNat = b.toNat
    lia
  rw [hb] at h
  exact h

theorem beNat_pair (hi lo : UInt8) : beNat [hi, lo] = 256 * hi.toNat + lo.toNat := by
  rw [beNat_cons]
  change 256 ^ 1 * hi.toNat + (256 * 0 + lo.toNat) = _
  rw [Nat.pow_one, Nat.mul_zero, Nat.zero_add]

theorem beNat_lt (bs : List UInt8) : beNat bs < 256 ^ bs.length := by
  induction bs with
  | nil => exact Nat.one_pos
  | cons b bs ih =>
      have hb : b.toNat < 256 := b.toNat_lt
      calc
        beNat (b :: bs) = 256 ^ bs.length * b.toNat + beNat bs := beNat_cons b bs
        _ < 256 ^ bs.length * b.toNat + 256 ^ bs.length := Nat.add_lt_add_left ih _
        _ = 256 ^ bs.length * (b.toNat + 1) := (Nat.mul_succ _ _).symm
        _ ≤ 256 ^ bs.length * 256 := Nat.mul_le_mul_left _ hb
        _ = 256 ^ (b :: bs).length := (Nat.pow_succ 256 bs.length).symm

theorem beNat_replicate_zero (k : Nat) : beNat (List.replicate k 0x00) = 0 := by
  induction k with
  | zero => rfl
  | succ k ih =>
      rw [List.replicate_succ, beNat_cons, ih]
      rfl

theorem beNat_replicate_ones (k : Nat) : beNat (List.replicate k 0xFF) + 1 = 256 ^ k := by
  induction k with
  | zero => rfl
  | succ k ih =>
      rw [List.replicate_succ, beNat_cons, List.length_replicate, Nat.add_assoc, ih,
        Nat.pow_succ]
      change 256 ^ k * 255 + 256 ^ k = 256 ^ k * 256
      ring

theorem beNat_zeros_append (k : Nat) (bs : List UInt8) :
    beNat (List.replicate k 0x00 ++ bs) = beNat bs := by
  rw [beNat_append, beNat_replicate_zero, Nat.mul_zero, Nat.zero_add]

theorem length_beBytes (k n : Nat) : (beBytes k n).length = k := by
  induction k with
  | zero => rfl
  | succ k ih =>
      unfold beBytes
      rw [List.length_cons, ih]

theorem beNat_beBytes (k n : Nat) : beNat (beBytes k n) = n % 256 ^ k := by
  induction k with
  | zero => exact (Nat.mod_one n).symm
  | succ k ih =>
      have hdigit : (UInt8.ofNat (n / 256 ^ k % 256)).toNat = n / 256 ^ k % 256 := by
        rw [UInt8.toNat_ofNat', Nat.mod_mod]
      unfold beBytes
      rw [beNat_cons, length_beBytes, ih, hdigit, Nat.add_comm]
      exact Nat.mod_mul.symm

theorem beBytes_add_mul (k x m : Nat) : beBytes k (256 ^ k * x + m) = beBytes k m := by
  induction k generalizing x with
  | zero => rfl
  | succ k ih =>
      have hpos : 0 < 256 ^ k := Nat.pow_pos (by decide)
      have hsplit : 256 ^ (k + 1) * x + m = 256 ^ k * (256 * x) + m := by ring
      have hdigit : (256 ^ k * (256 * x) + m) / 256 ^ k % 256 = m / 256 ^ k % 256 := by
        rw [Nat.mul_add_div hpos, Nat.mul_add_mod]
      unfold beBytes
      rw [hsplit, hdigit, ih]

theorem beBytes_beNat (bs : List UInt8) : beBytes bs.length (beNat bs) = bs := by
  induction bs with
  | nil => rfl
  | cons b bs ih =>
      have hpos : 0 < 256 ^ bs.length := Nat.pow_pos (by decide)
      have hdigit : (256 ^ bs.length * b.toNat + beNat bs) / 256 ^ bs.length % 256 = b.toNat := by
        rw [Nat.mul_add_div hpos, Nat.div_eq_of_lt (beNat_lt bs), Nat.add_zero,
          Nat.mod_eq_of_lt b.toNat_lt]
      rw [beNat_cons, List.length_cons]
      unfold beBytes
      rw [hdigit, beBytes_add_mul, ih, UInt8.ofNat_toNat]

/-!
## Two's complement
-/

theorem sign_iff {bs : List UInt8} (h : bs ≠ []) :
    128 ≤ (bs.headD 0).toNat <-> 256 ^ bs.length ≤ 2 * beNat bs := by
  cases bs with
  | nil => exact absurd rfl h
  | cons b bs =>
      have hlow := beNat_lt bs
      rw [List.headD_cons, beNat_cons, List.length_cons, Nat.pow_succ]
      constructor
      · intro hb
        have hmul := Nat.mul_le_mul_left (256 ^ bs.length) hb
        lia
      · intro hle
        apply Nat.le_of_not_lt
        intro hb
        have hmul := Nat.mul_le_mul_left (256 ^ bs.length) (Nat.le_of_lt_succ hb)
        lia

theorem beInt_eq {bs : List UInt8} (h : bs ≠ []) :
    beInt bs = if 256 ^ bs.length ≤ 2 * beNat bs then (beNat bs : Int) - 256 ^ bs.length
      else beNat bs := by
  unfold beInt
  exact if_congr (sign_iff h) rfl rfl

theorem beInt_extend (k : Nat) (bs : List UInt8) :
    beInt (List.replicate k (if 128 ≤ (bs.headD 0).toNat then 0xFF else 0x00) ++ bs) =
      beInt bs := by
  cases k with
  | zero => rfl
  | succ k =>
      by_cases hsign : 128 ≤ (bs.headD 0).toNat
      · rw [if_pos hsign]
        have hones := beNat_replicate_ones (k + 1)
        unfold beInt
        rw [if_pos hsign, if_pos (by rw [List.replicate_succ]; exact (by decide : 128 ≤ 255)),
          beNat_append, List.length_append, List.length_replicate]
        have hcast : ((beNat (List.replicate (k + 1) 0xFF) : Nat) : Int) = 256 ^ (k + 1) - 1 := by
          rw [eq_sub_iff_add_eq]
          exact_mod_cast hones
        rw [Nat.cast_add, Nat.cast_mul, hcast, pow_add]
        push_cast
        ring
      · rw [if_neg hsign]
        unfold beInt
        rw [if_neg hsign, if_neg (by rw [List.replicate_succ]; exact (by decide : ¬ 128 ≤ 0)),
          beNat_zeros_append]

theorem beInt_beIntBytes {k : Nat} {n : Int} (hpos : 1 ≤ k) (hlow : -(256 ^ k) ≤ 2 * n)
    (hhigh : 2 * n < 256 ^ k) : beInt (beIntBytes k n) = n := by
  have hlength : (beIntBytes k n).length = k := length_beBytes k _
  have hne : beIntBytes k n ≠ [] := by
    intro hnil
    rw [hnil] at hlength
    exact absurd hlength (Nat.ne_of_lt hpos)
  have hsize : (0 : Int) < 256 ^ k := Int.pow_pos (by decide)
  have hmod := Int.emod_nonneg n (Int.ne_of_gt hsize)
  have hlt := Int.emod_lt_of_pos n hsize
  have hvalue : ((beNat (beIntBytes k n) : Nat) : Int) = n % 256 ^ k := by
    unfold beIntBytes
    rw [beNat_beBytes, Int.natCast_mod, Int.toNat_of_nonneg hmod]
    push_cast
    exact Int.emod_emod_of_dvd n (dvd_refl _)
  have hcond : 256 ^ (beIntBytes k n).length ≤ 2 * beNat (beIntBytes k n) <->
      (256 : Int) ^ k ≤ 2 * (n % 256 ^ k) := by
    rw [← hvalue, hlength]
    exact_mod_cast Iff.rfl
  rw [beInt_eq hne, if_congr hcond rfl rfl, hvalue, hlength]
  rcases Int.lt_or_le n 0 with hneg | hnonneg
  · have hn : n % 256 ^ k = n + 256 ^ k := by
      rw [Int.emod_eq_add_self_emod, Int.emod_eq_of_lt (by lia) (by lia)]
    rw [hn, if_pos (by lia)]
    lia
  · rw [Int.emod_eq_of_lt hnonneg (by lia), if_neg (by lia)]

end Foundation
end Smartmeter
