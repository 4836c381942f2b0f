import Smartmeter.Firmware.ParticleSensor
import Mathlib.Algebra.BigOperators.Group.List.Basic

/-!
# Packets of the particle sensor

A packet has a fixed first word, the number of bytes behind it, the thirteen
channels and the sum of all bytes in front, all of them big-endian words.
`parse_packet` accepts these packets and nothing else, and no change of a
single byte makes one such packet out of another.
-/

namespace Smartmeter
namespace Firmware
namespace Pms5003

open Foundation

def be16 (n : UInt16) : List UInt8 := beBytes 2 n.toNat

def byteSum (bs : List UInt8) : Nat := (bs.map UInt8.toNat).sum

def packetBody (channels : List UInt16) : List UInt8 :=
  be16 0x424D ++ (be16 28 ++ channels.flatMap be16)

def packet (channels : List UInt16) : List UInt8 :=
  packetBody channels ++ be16 (UInt16.ofNat (byteSum (packetBody channels)))

/-!
## Words
-/

@[simp] theorem length_be16 (n : UInt16) : (be16 n).length = 2 :=
  length_beBytes 2 n.toNat

theorem ofNat_beNat_be16 (n : UInt16) : UInt16.ofNat (beNat (be16 n)) = n := by
  have hlt : n.toNat < 256 ^ 2 := n.toNat_lt
  unfold be16
  rw [beNat_beBytes, Nat.mod_eq_of_lt hlt, UInt16.ofNat_toNat]

theorem be16_ofNat_beNat {bs : List UInt8} (h : bs.length = 2) :
    be16 (UInt16.ofNat (beNat bs)) = bs := by
  have hbytes := beBytes_beNat bs
  have hlt := beNat_lt bs
  rw [h] at hbytes hlt
  have hword : beNat bs < 2 ^ 16 := hlt
  unfold be16
  rw [UInt16.toNat_ofNat', Nat.mod_eq_of_lt hword, hbytes]

@[simp] theorem pullBe16_be16 (n : UInt16) (rest : List UInt8) :
    pullBe16 (be16 n ++ rest) = (n, rest) := by
  unfold pullBe16
  rw [List.take_left' (length_be16 n), List.drop_left' (length_be16 n), ofNat_beNat_be16]

theorem exists_be16 (buf : List UInt8) (h : 2 ≤ buf.length) :
    exists n rest, buf = be16 n ++ rest := by
  exists UInt16.ofNat (beNat (buf.take 2)), buf.drop 2
  rw [be16_ofNat_beNat (List.length_take_of_le h), List.take_append_drop]

@[simp] theorem length_flatMap_be16 (channels : List UInt16) :
    (channels.flatMap be16).length = 2 * channels.length := by
  induction channels with
  | nil => rfl
  | cons channel channels ih =>
      rw [List.flatMap_cons, List.length_append, length_be16, ih, List.length_cons]
      lia

theorem pullChannels_flatMap {k : Nat} {channels : List UInt16} (h : channels.length = k)
    (rest : List UInt8) : pullChannels k (channels.flatMap be16 ++ rest) = (channels, rest) := by
  induction channels generalizing k with
  | nil =>
      subst h
      rfl
  | cons channel channels ih =>
      subst h
      rw [List.flatMap_cons, List.append_assoc, List.length_cons]
      unfold pullChannels
      rw [pullBe16_be16]
      simp [ih rfl]

theorem exists_flatMap_be16 (k : Nat) (buf : List UInt8) (h : 2 * k ≤ buf.length) :
    exists (channels : List UInt16) (rest : List UInt8),
      channels.length = k ∧ buf = channels.flatMap be16 ++ rest := by
  induction k generalizing buf with
  | zero => exact ⟨[], buf, rfl, rfl⟩
  | succ k ih =>
      rcases exists_be16 buf (by lia) with ⟨n, tail, hbuf⟩
      have htail : 2 * k ≤ tail.length := by
        rw [hbuf, List.length_append, length_be16] at h
        lia
      rcases ih tail htail with ⟨channels, rest, hlength, heq⟩
      exists n :: channels, rest
      constructor
      · rw [List.length_cons, hlength]
      · rw [hbuf, heq, List.flatMap_cons, List.append_assoc]

/-!
## The checksum
-/

theorem foldl_checksum (bs : List UInt8) (sum : UInt16) :
    bs.foldl (fun sum b => sum + b.toUInt16) sum = sum + UInt16.ofNat (byteSum bs) := by
  unfold byteSum
  induction bs generalizing sum with
  | nil => simp
  | cons b bs ih =>
      have hb : UInt16.ofNat b.toNat = b.toUInt16 := by
        apply UInt16.toNat_inj.mp
        simp
      rw [List.foldl_cons, ih, List.map_cons, List.sum_cons, UInt16.ofNat_add, hb,
        UInt16.add_assoc]

theorem checksumCalculated_append {front back : List UInt8} (h : front.length = 30) :
    checksumCalculated (front ++ back) = UInt16.ofNat (byteSum front) := by
  unfold checksumCalculated
  rw [List.take_left' h, foldl_checksum, UInt16.zero_add]

theorem length_packetBody {channels : List UInt16} (h : channels.length = 13) :
    (packetBody channels).length = 30 := by
  unfold packetBody
  rw [List.length_append, List.length_append, length_flatMap_be16, length_be16, length_be16, h]

/-!
## What is accepted
-/

/-- The bytes of a packet with any words in the places of the fixed ones. -/
def wordsOf (magic length : UInt16) (channels : List UInt16) (checksum : UInt16) : List UInt8 :=
  be16 magic ++ (be16 length ++ channels.flatMap be16) ++ be16 checksum

theorem packet_eq_wordsOf (channels : List UInt16) :
    packet channels =
      wordsOf 0x424D 28 channels (UInt16.ofNat (byteSum (packetBody channels))) := rfl

theorem exists_wordsOf {buf : List UInt8} (h : buf.length = 32) :
    exists (magic length : UInt16) (channels : List UInt16) (checksum : UInt16),
      channels.length = 13 ∧
      buf = wordsOf magic length channels checksum := by
  rcases exists_be16 buf (by lia) with ⟨magic, buf1, hmagic⟩
  rw [hmagic, List.length_append, length_be16] at h
  rcases exists_be16 buf1 (by lia) with ⟨length, buf2, hlength⟩
  rw [hlength, List.length_append, length_be16] at h
  rcases exists_flatMap_be16 13 buf2 (by lia) with
    ⟨channels, buf3, hchannels, hbuf2⟩
  rw [hbuf2, List.length_append, length_flatMap_be16, hchannels] at h
  exists magic, length, channels, UInt16.ofNat (beNat buf3)
  constructor
  · exact hchannels
  · unfold wordsOf
    rw [be16_ofNat_beNat (by lia), hmagic, hlength, hbuf2]
    simp

theorem parsePacket_wordsOf (magic length : UInt16) {channels : List UInt16} (checksum : UInt16)
    (h : channels.length = 13) :
    parsePacket (wordsOf magic length channels checksum) =
      if magic = 0x424D ∧ length = 28 ∧
          checksum = UInt16.ofNat (byteSum (be16 magic ++ (be16 length ++ channels.flatMap be16)))
        then some channels
      else none := by
  have hfront : (be16 magic ++ (be16 length ++ channels.flatMap be16)).length = 30 := by
    simp [h]
  have hsize : (wordsOf magic length channels checksum).length = 32 := by
    unfold wordsOf
    rw [List.length_append, hfront, length_be16]
  have hsum : checksumCalculated (wordsOf magic length channels checksum) = _ :=
    checksumCalculated_append hfront
  have hlast : pullBe16 (be16 checksum) = (checksum, []) := by
    have hpull := pullBe16_be16 checksum []
    rw [List.append_nil] at hpull
    exact hpull
  unfold parsePacket
  rw [if_neg (not_not_intro hsize), hsum]
  unfold wordsOf
  rw [List.append_assoc, pullBe16_be16, List.append_assoc]
  simp only [pullBe16_be16, pullChannels_flatMap h, hlast]
  split <;> rename_i hmagic
  · rw [if_neg]
    intro hall
    exact hmagic hall.1
  · split <;> rename_i hlength
    · rw [if_neg]
      intro hall
      exact hlength hall.2.1
    · split <;> rename_i hchecksum
      · rw [if_neg]
        intro hall
        exact hchecksum hall.2.2
      · rw [if_pos]
        exact ⟨not_not.mp hmagic, not_not.mp hlength, not_not.mp hchecksum⟩

/-- What is accepted is the packet of the channels it is parsed to. -/
theorem parsePacket_eq_some_iff (buf : List UInt8) (channels : List UInt16) :
    parsePacket buf = some channels <-> channels.length = 13 ∧ buf = packet channels := by
  constructor
  · intro hparse
    have hsize : buf.length = 32 := by
      apply Classical.byContradiction
      intro hne
      unfold parsePacket at hparse
      rw [if_pos hne] at hparse
      cases hparse
    rcases exists_wordsOf hsize with ⟨magic, length, channels', checksum, h, hbuf⟩
    rw [hbuf, parsePacket_wordsOf magic length checksum h] at hparse
    rcases Option.ite_none_right_eq_some.mp hparse with ⟨⟨hmagic, hlength, hchecksum⟩, hsome⟩
    cases hsome
    subst hmagic
    subst hlength
    constructor
    · exact h
    · rw [hbuf, hchecksum, packet_eq_wordsOf]
      rfl
  · intro hbuf
    rcases hbuf with ⟨h, hbuf⟩
    rw [hbuf, packet_eq_wordsOf, parsePacket_wordsOf 0x424D 28 _ h]
    exact if_pos ⟨rfl, rfl, rfl⟩

/-!
## A wrong byte
-/

theorem byteSum_set (bs : List UInt8) (i : Nat) (b : UInt8) (h : i < bs.length) :
    byteSum (bs.set i b) + bs[i].toNat = byteSum bs + b.toNat := by
  unfold byteSum
  induction bs generalizing i with
  | nil => cases h
  | cons c bs ih =>
      cases i with
      | zero =>
          simp
          lia
      | succ i =>
          have hrest := ih i (Nat.lt_of_succ_lt_succ h)
          rw [List.set_cons_succ, List.getElem_cons_succ, List.map_cons, List.map_cons,
            List.sum_cons, List.sum_cons]
          lia

theorem ofNat_byteSum_set_ne {bs : List UInt8} {i : Nat} {b : UInt8} (h : i < bs.length)
    (hb : b ≠ bs[i]) : UInt16.ofNat (byteSum (bs.set i b)) ≠ UInt16.ofNat (byteSum bs) := by
  intro hsum
  have hmod := congrArg UInt16.toNat hsum
  rw [UInt16.toNat_ofNat', UInt16.toNat_ofNat'] at hmod
  have hset := byteSum_set bs i b h
  have hold : bs[i].toNat < 256 := bs[i].toNat_lt
  have hnew : b.toNat < 256 := b.toNat_lt
  apply hb
  apply UInt8.toNat_inj.mp
  -- The two sums differ by less than the checksum can hold.
  lia

theorem be16_injective : Function.Injective be16 := by
  intro m n h
  rw [← ofNat_beNat_be16 m, h, ofNat_beNat_be16]

/-- A packet with another byte in one place is not a packet. -/
theorem parsePacket_set_eq_none {buf : List UInt8} {channels : List UInt16}
    (h : parsePacket buf = some channels) {i : Nat} (hi : i < buf.length) {b : UInt8}
    (hb : b ≠ buf[i]) : parsePacket (buf.set i b) = none := by
  cases hset : parsePacket (buf.set i b) with
  | none => rfl
  | some channels' =>
      rcases (parsePacket_eq_some_iff _ _).mp h with ⟨hlength, rfl⟩
      rcases (parsePacket_eq_some_iff _ _).mp hset with ⟨hlength', heq⟩
      have hbody := length_packetBody hlength
      have hbody' := length_packetBody hlength'
      unfold packet at heq hi hb
      rcases Nat.lt_or_ge i (packetBody channels).length with hfront | hback
      · rw [List.set_append_left _ _ hfront] at heq
        rw [List.getElem_append_left hfront] at hb
        have hsplit := List.append_inj heq (by rw [List.length_set, hbody, hbody'])
        have hchecksum := be16_injective hsplit.2
        rw [← hsplit.1] at hchecksum
        exact absurd hchecksum.symm (ofNat_byteSum_set_ne hfront hb)
      · rw [List.set_append_right _ _ hback] at heq
        rw [List.getElem_append_right hback] at hb
        have hsplit := List.append_inj heq (by rw [hbody, hbody'])
        have hsame := hsplit.2
        rw [← hsplit.1] at hsame
        rw [List.length_append] at hi
        have hword := Nat.sub_lt_left_of_lt_add hback hi
        have hat := List.getElem?_set_self hword (a := b)
        rw [hsame, List.getElem?_eq_getElem hword] at hat
        exact absurd (Option.some.inj hat).symm hb

theorem parsePacket_set_eq_none_good : parsePacket (goodPacket.set 5 2) = none := by
  have hgood : parsePacket goodPacket = some [1, 2, 3, 4, 5, 6, 7, 8, 9, 10, 11, 12, 13] := by
    decide
  exact parsePacket_set_eq_none hgood (by decide) (by decide)

end Pms5003
end Firmware
end Smartmeter
