import Mathlib.Tactic.Ring
import Smartmeter.Sml.Tlv.Items

/-!
# Encoding headers and octet strings

A header of a given width, with the type in its first byte and the length in
base 16, and what the reader makes of an octet string behind such a header.
-/

namespace Smartmeter
namespace Sml
namespace Tlv

open Foundation

def headerByte (hasMore : Bool) (tyRaw digit : Nat) : UInt8 :=
  UInt8.ofNat ((if hasMore then 128 else 0) + 16 * tyRaw + digit)

def encodeHeader (tyRaw : Nat) : Nat -> Nat -> List UInt8
  | 0, _ => []
  | k + 1, length =>
      headerByte (decide (0 < k)) tyRaw (length / 16 ^ k % 16) :: encodeHeader 0 k length

theorem toNat_headerByte (hasMore : Bool) {tyRaw digit : Nat} (hty : tyRaw < 8)
    (hdigit : digit < 16) :
    (headerByte hasMore tyRaw digit).toNat =
      (if hasMore then 128 else 0) + 16 * tyRaw + digit := by
  unfold headerByte
  rw [UInt8.toNat_ofNat']
  cases hasMore with
  | true =>
      simp only [if_true]
      lia
  | false =>
      simp only [Bool.false_eq_true, if_false]
      lia

theorem length_encodeHeader (tyRaw k length : Nat) :
    (encodeHeader tyRaw k length).length = k := by
  induction k generalizing tyRaw with
  | zero => rfl
  | succ k ih =>
      unfold encodeHeader
      rw [List.length_cons, ih]

theorem encodeHeader_wellFormed {tyRaw : Nat} (hty : tyRaw < 8) (k length : Nat) :
    WellFormedHeader (headerByte (decide (0 < k)) tyRaw (length / 16 ^ k % 16))
      (encodeHeader 0 k length) := by
  induction k generalizing tyRaw with
  | zero =>
      have hbyte := toNat_headerByte false hty (Nat.mod_lt (length / 16 ^ 0) (by decide))
      constructor
      · intro b hb
        cases hb
      · intro b hb
        injection hb with hb
        rw [← hb]
        change (headerByte false tyRaw _).toNat < 128
        rw [hbyte, if_neg Bool.false_ne_true]
        have := Nat.mod_lt (length / 16 ^ 0) (show 0 < 16 by decide)
        lia
      · intro b hb
        cases hb
  | succ k ih =>
      have htail := @ih 0 (by decide)
      have hbyte := toNat_headerByte true hty
        (Nat.mod_lt (length / 16 ^ (k + 1)) (by decide))
      have hsecond := toNat_headerByte (decide (0 < k)) (show 0 < 8 by decide)
        (Nat.mod_lt (length / 16 ^ k) (show 0 < 16 by decide))
      unfold encodeHeader
      constructor
      · intro b hb
        rw [List.dropLast_cons_cons] at hb
        rcases List.mem_cons.mp hb with heq | hmem
        · rw [heq]
          change 128 ≤ (headerByte true tyRaw _).toNat
          rw [hbyte, if_pos rfl]
          lia
        · exact htail.announced b hmem
      · intro b hb
        exact htail.last b hb
      · intro b hb
        rcases List.mem_cons.mp hb with heq | hmem
        · rw [heq, hsecond]
          have := Nat.mod_lt (length / 16 ^ k) (show 0 < 16 by decide)
          cases decide (0 < k) with
          | true =>
              rw [if_pos rfl]
              lia
          | false =>
              rw [if_neg Bool.false_ne_true]
              lia
        · exact htail.reserved b hmem

theorem nibbles_encodeHeader {tyRaw : Nat} (hty : tyRaw < 8) (acc k length : Nat) :
    nibbles acc (encodeHeader tyRaw k length) = acc * 16 ^ k + length % 16 ^ k := by
  induction k generalizing tyRaw acc with
  | zero =>
      change acc = acc * 16 ^ 0 + length % 16 ^ 0
      rw [Nat.pow_zero, Nat.mod_one, Nat.mul_one, Nat.add_zero]
  | succ k ih =>
      have hdigit := Nat.mod_lt (length / 16 ^ k) (show 0 < 16 by decide)
      have hnibble : (headerByte (decide (0 < k)) tyRaw (length / 16 ^ k % 16)).toNat % 16 =
          length / 16 ^ k % 16 := by
        rw [toNat_headerByte _ hty hdigit]
        cases decide (0 < k) with
        | true =>
            rw [if_pos rfl]
            lia
        | false =>
            rw [if_neg Bool.false_ne_true]
            lia
      change nibbles (16 * acc + (headerByte (decide (0 < k)) tyRaw _).toNat % 16)
        (encodeHeader 0 k length) = _
      rw [hnibble, ih (by decide), Nat.mod_pow_succ, Nat.pow_succ, Nat.add_mul]
      ring

theorem headerLength_encodeHeader {tyRaw k length : Nat} (hty : tyRaw < 8)
    (hfit : length < 16 ^ (k + 1)) :
    headerLength (headerByte (decide (0 < k)) tyRaw (length / 16 ^ k % 16))
      (encodeHeader 0 k length) = length := by
  have h := nibbles_encodeHeader hty 0 (k + 1) length
  rw [Nat.zero_mul, Nat.zero_add, Nat.mod_eq_of_lt hfit] at h
  exact h

def Kind.raw : Kind -> Nat
  | .string => 0
  | .boolean => 4
  | .integer => 5
  | .unsigned => 6
  | .list => 7

theorem Kind.raw_lt (kind : Kind) : kind.raw < 8 := by
  cases kind <;> decide

def itemHeader (kind : Kind) (k size : Nat) : List UInt8 :=
  encodeHeader kind.raw k (if kind = .list then size else size + k)

theorem ty_headerByte (hasMore : Bool) (kind : Kind) {digit : Nat} (hdigit : digit < 16) :
    (TlvHeader.mk (headerByte hasMore kind.raw digit)).ty = kind.ty := by
  have hraw : (TlvHeader.mk (headerByte hasMore kind.raw digit)).tyRaw =
      UInt8.ofNat kind.raw := by
    unfold TlvHeader.tyRaw
    rw [toNat_headerByte hasMore kind.raw_lt hdigit]
    have hlt := kind.raw_lt
    congr 1
    cases hasMore with
    | true =>
        rw [if_pos rfl]
        lia
    | false =>
        rw [if_neg Bool.false_ne_true]
        lia
  unfold TlvHeader.ty
  rw [hraw]
  cases kind <;> rfl

variable [Machine]

theorem decodeHeader_itemHeader {kind : Kind} (hkind : kind ≠ .list) {k size : Nat}
    (hpos : 0 < k) (hfit : size + k < 16 ^ k) (hsize : size + k < Usize.size)
    (hfuel : k ≤ Machine.fuel) (rest : List UInt8) :
    decodeHeader (itemHeader kind k size ++ rest) = some (.ok (kind.ty, size), rest) := by
  cases k with
  | zero => exact absurd hpos (Nat.lt_irrefl 0)
  | succ k =>
      have hdigit := Nat.mod_lt ((size + (k + 1)) / 16 ^ k) (show 0 < 16 by decide)
      have hheader := encodeHeader_wellFormed kind.raw_lt k (size + (k + 1))
      have hlength := headerLength_encodeHeader kind.raw_lt hfit
      have hty := ty_headerByte (decide (0 < k)) kind hdigit
      have hdecode := decodeHeader_wellFormed hheader (by rw [hlength]; exact hsize)
        (by rw [length_encodeHeader]; exact hfuel) rest
      have hsub : Usize.checkedSub (size + (k + 1)) (k + 1) = some size := by
        rw [Usize.checkedSub_eq (Nat.le_add_left _ _), Nat.add_sub_cancel]
      unfold itemHeader
      rw [if_neg hkind]
      unfold encodeHeader
      rw [hdecode, hlength, hty, List.length_cons, length_encodeHeader]
      congr 2
      cases k with
      | zero =>
          change Reader.headerEnd kind.ty (TlvHeader.mk (headerByte _ kind.raw _)) _ _ = _
          unfold Reader.headerEnd
          rw [hty]
          cases kind with
          | list => exact absurd rfl hkind
          | _ => rfl
      | succ k =>
          have hlast : (TlvHeader.mk ((encodeHeader 0 (k + 1) (size + (k + 1 + 1))).getLast?.getD
              (headerByte (decide (0 < k + 1)) kind.raw
                ((size + (k + 1 + 1)) / 16 ^ (k + 1) % 16)))).ty = .string := by
            apply ty_of_reserved
            apply hheader.reserved
            unfold encodeHeader
            rw [List.getLast?_cons]
            exact List.mem_of_getLast? List.getLast?_cons
          rw [headerEnd_long hlast, if_neg (by lia), if_pos (Nat.le_add_left _ _),
            Nat.add_sub_cancel]

/-!
## Octet strings
-/

def encodeOctets (k : Nat) (s : List UInt8) : List UInt8 :=
  itemHeader .string k s.length ++ s

/--
An octet string that was encoded is taken from a list and read back, or refused;
the next item is then read from behind it, and also when it is dropped unread.
-/
theorem octets_roundtrip {k : Nat} {s : List UInt8} (hpos : 1 ≤ k)
    (hfit : s.length + k < 16 ^ k) (hsize : s.length + k < Usize.size)
    (hfuel : s.length + k ≤ Machine.fuel) (m : Nat) (rest : List UInt8) :
    List.nextAny.parse { reader := Reader.new, len := m + 1 } (encodeOctets k s ++ rest) =
        some ((.ok (if s = [] then .none else .some .string s.length),
          { reader := Reader.new, len := m }), s ++ rest) ∧
      (String.read s.length).parse { reader := Reader.new, len := s.length } (s ++ rest) =
        some ((.ok s, { reader := Reader.new, len := 0 }), rest) ∧
      (forall buf, buf ≠ s.length ->
        (String.read buf).parse { reader := Reader.new, len := s.length } (s ++ rest) =
          some ((.error .wrongBufferSize, { reader := Reader.new, len := s.length }),
            s ++ rest)) ∧
      Reader.readTlv.parse (Handle.drop .string { reader := Reader.new, len := 0 }) rest =
        Reader.readTlv.parse Reader.new rest ∧
      Reader.readTlv.parse (Handle.drop .string { reader := Reader.new, len := s.length })
        (s ++ rest) = Reader.readTlv.parse Reader.new rest := by
  have hheader : decodeHeader (itemHeader .string k s.length) =
      some (.ok (.string, s.length), []) := by
    have hdecode := decodeHeader_itemHeader (show Kind.string ≠ .list by decide) hpos hfit hsize
      (by lia) []
    rw [List.append_nil] at hdecode
    exact hdecode
  have hitem : Item.ofHeader (.string, s.length) =
      .ok (if s = [] then .none else .some .string s.length) := by
    by_cases hs : s = []
    · rw [if_pos hs, hs]
      rfl
    · rw [if_neg hs]
      exact if_neg (mt List.length_eq_zero_iff.mp hs)
  have hnext := List.next_of_header m (s ++ rest) (Reader.Pending.new_iff.mpr rfl)
    (Nat.lt_of_lt_of_le (by decide) Machine.fuel_ge) hheader hitem
  rw [List.nil_append] at hnext
  refine ⟨?_, parse_read_self _ s rest, ?_, ?_, ?_⟩
  · unfold encodeOctets List.nextAny
    rw [List.append_assoc, Act.parse_bind_ok hnext]
    rfl
  · intro buf hbuf
    exact parse_read_other _ hbuf _
  · rw [Handle.drop_zero .string rfl]
  · exact Handle.readTlv_drop (by decide) (by lia) (by lia) rest

omit [Machine] in
/-- A string of two bytes behind a header of two bytes, read, refused and dropped unread. -/
theorem octets_roundtrip_two :
    letI := Machine.word32 32 (Nat.le_refl 32)
    encodeOctets 2 [0xAB, 0xCD] = [0x80, 0x04, 0xAB, 0xCD] ∧
      List.nextAny.parse { reader := Reader.new, len := 2 }
          [0x80, 0x04, 0xAB, 0xCD, 0x72] =
        some ((.ok (.some .string 2), { reader := Reader.new, len := 1 }),
          [0xAB, 0xCD, 0x72]) ∧
      (String.read 2).parse { reader := Reader.new, len := 2 } [0xAB, 0xCD, 0x72] =
        some ((.ok [0xAB, 0xCD], { reader := Reader.new, len := 0 }), [0x72]) ∧
      (String.read 3).parse { reader := Reader.new, len := 2 } [0xAB, 0xCD, 0x72] =
        some ((.error .wrongBufferSize, { reader := Reader.new, len := 2 }),
          [0xAB, 0xCD, 0x72]) ∧
      Reader.readTlv.parse (Handle.drop .string { reader := Reader.new, len := 0 }) [0x72] =
        some ((.ok (.list, 2), Reader.new), []) ∧
      Reader.readTlv.parse (Handle.drop .string { reader := Reader.new, len := 2 })
        [0xAB, 0xCD, 0x72] = some ((.ok (.list, 2), Reader.new), []) := by
  let := Machine.word32 32 (Nat.le_refl 32)
  rcases @octets_roundtrip _ 2 [0xAB, 0xCD] (by decide) (by decide) (by decide) (by decide) 1
    [0x72] with ⟨hnext, hread, hother, hbehind, hdropped⟩
  refine ⟨rfl, hnext, hread, hother 3 (by decide), ?_, ?_⟩
  · exact hbehind.trans rfl
  · exact hdropped.trans rfl

end Tlv
end Sml
end Smartmeter
