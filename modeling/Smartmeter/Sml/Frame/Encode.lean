import Smartmeter.Sml.Frame.Grammar

/-!
# Sending a payload

A payload is padded to whole groups, every group that is the escape sequence is
doubled, and a footer with the number of pad bytes and the checksum follows.
-/

namespace Smartmeter
namespace Sml
namespace Frame

open Foundation

/-- The number of bytes that are missing in the last group. -/
def padding (payload : List UInt8) : Nat := (4 - payload.length % 4) % 4

def withPadding (payload : List UInt8) : List UInt8 :=
  payload ++ List.replicate (padding payload) 0

def quads : List UInt8 -> List (List UInt8)
  | a :: b :: c :: d :: rest => [a, b, c, d] :: quads rest
  | _ => []

def lowByte (crc : UInt16) : UInt8 := UInt8.ofNat (crc.toNat % 256)

def highByte (crc : UInt16) : UInt8 := UInt8.ofNat (crc.toNat / 256)

def encode (δ : Type) [Digest δ] (payload : List UInt8) : List UInt8 :=
  let frame := startMarker ++ framed (quads (withPadding payload)) (UInt8.ofNat (padding payload))
  let crc := Digest.checksum δ frame
  frame ++ [lowByte crc, highByte crc]

theorem padding_lt (payload : List UInt8) : padding payload < 4 :=
  Nat.mod_lt _ (by decide)

theorem withPadding_length (payload : List UInt8) : (withPadding payload).length % 4 = 0 := by
  unfold withPadding padding
  rw [List.length_append, List.length_replicate]
  lia

theorem quads_length {bs group : List UInt8} (h : group ∈ quads bs) : group.length = 4 := by
  induction bs using quads.induct with
  | case1 a b c d rest ih =>
      rcases List.mem_cons.mp h with hgroup | hmem
      · rw [hgroup]
        rfl
      · exact ih hmem
  | case2 bs hbs =>
      rw [quads] at h
      · cases h
      · exact hbs

theorem quads_flatten {bs : List UInt8} (h : bs.length % 4 = 0) : (quads bs).flatten = bs := by
  induction bs using quads.induct with
  | case1 a b c d rest ih =>
      have hrest : rest.length % 4 = 0 := by
        simp only [List.length_cons] at h
        lia
      rw [quads, List.flatten_cons, ih hrest]
      rfl
  | case2 bs hbs =>
      match bs with
      | [] => rfl
      | [_] => cases h
      | [_, _] => cases h
      | [_, _, _] => cases h
      | a :: b :: c :: d :: rest => exact absurd rfl (hbs a b c d rest)

theorem lowByte_add_highByte (crc : UInt16) :
    crc.toNat = (lowByte crc).toNat + 256 * (highByte crc).toNat := by
  have hlt : crc.toNat < 2 ^ 16 := crc.toNat_lt
  have hlow : (lowByte crc).toNat = crc.toNat % 256 := by
    unfold lowByte
    rw [UInt8.toNat_ofNat']
    exact Nat.mod_mod _ _
  have hhigh : (highByte crc).toNat = crc.toNat / 256 := by
    unfold highByte
    rw [UInt8.toNat_ofNat']
    apply Nat.mod_eq_of_lt
    lia
  rw [hlow, hhigh]
  lia

namespace Sent

variable {δ : Type} [Digest δ]

def of (δ : Type) [Digest δ] (payload : List UInt8) : Sent δ where
  groups := quads (withPadding payload)
  num := UInt8.ofNat (padding payload)
  c0 := lowByte (Digest.checksum δ
    (startMarker ++ framed (quads (withPadding payload)) (UInt8.ofNat (padding payload))))
  c1 := highByte (Digest.checksum δ
    (startMarker ++ framed (quads (withPadding payload)) (UInt8.ofNat (padding payload))))
  groups_length _ h := quads_length h
  num_le := by
    have hlt := padding_lt payload
    rw [UInt8.toNat_ofNat']
    lia
  padded := by
    by_cases hnil : quads (withPadding payload) = []
    · left
      have hpayload := quads_flatten (withPadding_length payload)
      rw [hnil, withPadding, List.flatten_nil] at hpayload
      have hzero : padding payload = 0 := by
        have hpad := congrArg List.length (List.append_eq_nil_iff.mp hpayload.symm).2
        rw [List.length_replicate] at hpad
        exact hpad
      rw [hzero]
      rfl
    · exact Or.inr hnil
  crc := lowByte_add_highByte _

theorem encode_eq (payload : List UInt8) : encode δ payload = startMarker ++ (of δ payload).bytes :=
  List.append_assoc _ _ _

theorem of_payload (payload : List UInt8) : (of δ payload).payload = payload := by
  have hlt := padding_lt payload
  have hnum : (UInt8.ofNat (padding payload)).toNat = padding payload := by
    rw [UInt8.toNat_ofNat']
    apply Nat.mod_eq_of_lt
    lia
  change (quads (withPadding payload)).flatten.take
    ((quads (withPadding payload)).flatten.length - (UInt8.ofNat (padding payload)).toNat) = payload
  rw [quads_flatten (withPadding_length payload), hnum]
  unfold withPadding
  rw [List.length_append, List.length_replicate, Nat.add_sub_cancel, List.take_left]

end Sent

end Frame
end Sml
end Smartmeter
