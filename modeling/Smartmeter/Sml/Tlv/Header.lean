import Smartmeter.Sml.Tlv.Reader

/-!
# TLV headers

What `read_tlv_inner` makes of the bytes of a header, and how this compares
to a header of the format: a type in the first byte and a length in base 16,
which counts the bytes of the item with its header, or the elements of a list.
-/

namespace Smartmeter
namespace Sml
namespace Tlv

open Foundation

section

variable {σ : Type}

@[simp] theorem parse_readU8_nil (s : σ) :
    (readU8 : Act Ops Error σ UInt8).parse s [] = none := rfl

@[simp] theorem parse_readU8_cons (s : σ) (b : UInt8) (bs : List UInt8) :
    (readU8 : Act Ops Error σ UInt8).parse s (b :: bs) = some ((.ok b, s), bs) := rfl

theorem parse_readExact (n : Nat) (s : σ) (bs : List UInt8) :
    (readExact n : Act Ops Error σ (List UInt8)).parse s bs =
      if n ≤ bs.length then some ((.ok (bs.take n), s), bs.drop n) else none := rfl

end

variable [Machine]

/-!
## The header loop on a list of bytes
-/

def nextLen (len digit : Nat) : Option Nat :=
  (Usize.checkedShl len 4).bind fun len => Usize.checkedAdd len digit

def scanHeader : Nat -> TlvHeader × Nat × Nat -> List UInt8 ->
    Option (Except Error (TlvHeader × Nat × Nat) × List UInt8)
  | 0, _, _ => none
  | n + 1, (header, len, headerLen), bs =>
      if header.hasMore then
        match bs with
        | [] => none
        | b :: rest =>
            let header : TlvHeader := { byte := b }
            if header.tyRaw ≠ 0 then
              some (.error (.multibyteTlvReservedType header.tyRaw), rest)
            else
              match nextLen len header.len with
              | none => some (.error .tlvLengthTooBig, rest)
              | some len => scanHeader n (header, len, headerLen + 1) rest
      else some (.ok (header, len, headerLen), bs)

def decodeHeader : List UInt8 -> Option (Except Error (TlvType × Nat) × List UInt8)
  | [] => none
  | b :: rest =>
      let header : TlvHeader := { byte := b }
      match scanHeader Machine.fuel (header, header.len, 1) rest with
      | none => none
      | some (.error e, rest) => some (.error e, rest)
      | some (.ok (last, len, headerLen), rest) =>
          some (Reader.headerEnd header.ty last len headerLen, rest)

theorem parse_headerLoop (n : Nat) (x : TlvHeader × Nat × Nat) (r : Reader)
    (bs : List UInt8) :
    (Act.iterate n Reader.headerLoop x).parse r bs =
      (scanHeader n x bs).map fun y => ((y.1, r), y.2) := by
  induction n generalizing x bs with
  | zero => rfl
  | succ n ih =>
      rcases x with ⟨header, len, headerLen⟩
      rw [Act.iterate_succ, Act.parse_bind]
      unfold scanHeader
      by_cases hmore : header.hasMore = true
      · simp only [Reader.headerLoop, if_pos hmore, Act.parse_bind]
        cases bs with
        | nil => rfl
        | cons b rest =>
            simp only [parse_readU8_cons]
            by_cases hty : (TlvHeader.mk b).tyRaw ≠ 0
            · simp only [if_pos hty]
              rfl
            · simp only [if_neg hty]
              unfold nextLen
              cases hshl : Usize.checkedShl len 4 with
              | none => rfl
              | some len' =>
                  cases hadd : Usize.checkedAdd len' (TlvHeader.mk b).len with
                  | none =>
                      simp only [Option.bind_some, hadd]
                      rfl
                  | some len'' =>
                      simp only [Option.bind_some, hadd]
                      exact ih _ rest
      · simp only [Reader.headerLoop, if_neg hmore]
        rfl

theorem parse_readTlvInner (r : Reader) (bs : List UInt8) :
    Reader.readTlvInner.parse r bs =
      (decodeHeader bs).map fun y => ((y.1, r), y.2) := by
  unfold Reader.readTlvInner
  rw [Act.parse_bind]
  cases bs with
  | nil => rfl
  | cons b rest =>
      rw [parse_readU8_cons]
      change Act.parse (_ >>= _) r rest = _
      rw [Act.parse_bind, parse_headerLoop]
      simp only [decodeHeader]
      cases scanHeader Machine.fuel (TlvHeader.mk b, (TlvHeader.mk b).len, 1) rest with
      | none => rfl
      | some y =>
          rcases y with ⟨res, rest'⟩
          cases res with
          | error e => rfl
          | ok x => rfl

/-!
## Headers of the format
-/

/-- A header: the bytes but the last announce more, and only the first has a type. -/
structure WellFormedHeader (first : UInt8) (more : List UInt8) : Prop where
  announced : forall b, b ∈ (first :: more).dropLast -> 128 ≤ b.toNat
  last : forall b, (first :: more).getLast? = some b -> b.toNat < 128
  reserved : forall b, b ∈ more -> b.toNat / 16 % 8 = 0

def nibbles (acc : Nat) (bs : List UInt8) : Nat :=
  bs.foldl (fun acc b => 16 * acc + b.toNat % 16) acc

def headerLength (first : UInt8) (more : List UInt8) : Nat :=
  nibbles 0 (first :: more)

/--
What a header means by the format: the end marker, a list with its number of
elements, or another item, whose length includes the header.
-/
def headerMeaning (first : UInt8) (more : List UInt8) : Except Error (TlvType × Nat) :=
  let k := (first :: more).length
  let length := headerLength first more
  let ty := (TlvHeader.mk first).ty
  if k = 1 ∧ first = 0 then .error .endOfSmlMessage
  else if ty = .list then .ok (.list, length)
  else if k ≤ length then .ok (ty, length - k)
  else .error (.shortTlvLength length)

/-!
The shift loses the digits that do not fit into a word, and the digit that is
added fits into the place they leave.
-/

theorem size_eq_sixteen : exists k, Usize.size = 16 * k := by
  refine ⟨2 ^ (Machine.usizeBits - 4), ?_⟩
  have hbits := Machine.usizeBits_ge
  unfold Usize.size
  rw [show (16 : Nat) = 2 ^ 4 from rfl, ← Nat.pow_add]
  congr 1
  lia

theorem nextLen_mod (len : Nat) {digit : Nat} (hdigit : digit < 16) :
    nextLen len digit = some ((16 * len + digit) % Usize.size) := by
  rcases size_eq_sixteen with ⟨k, hk⟩
  have hpos := Usize.size_pos
  have hshl : len * 16 % Usize.size = 16 * (len % k) := by
    rw [hk, Nat.mul_comm len 16, Nat.mul_mod_mul_left]
  have hlt : 16 * (len % k) + digit < Usize.size := by
    have hmod : len % k < k := Nat.mod_lt len (by lia)
    lia
  have hsum : (16 * len + digit) % Usize.size = 16 * (len % k) + digit := by
    rw [Nat.add_mod, Nat.mul_comm 16 len, hshl, Nat.mod_eq_of_lt (a := digit) (by lia),
      Nat.mod_eq_of_lt hlt]
  unfold nextLen
  rw [Usize.checkedShl_four, Option.bind_some, hshl, Usize.checkedAdd_eq hlt, hsum]

theorem nibbles_mod (len : Nat) (more : List UInt8) :
    nibbles (len % Usize.size) more % Usize.size = nibbles len more % Usize.size := by
  induction more generalizing len with
  | nil => exact Nat.mod_mod len _
  | cons b more ih =>
      change nibbles (16 * (len % Usize.size) + b.toNat % 16) more % Usize.size =
        nibbles (16 * len + b.toNat % 16) more % Usize.size
      rw [← ih, ← ih (16 * len + b.toNat % 16)]
      congr 2
      rw [Nat.add_mod, Nat.mul_mod_mod, ← Nat.add_mod]

theorem scanHeader_mod {n len : Nat} (headerLen : Nat) {first : UInt8}
    {more : List UInt8} (rest : List UInt8) (hheader : WellFormedHeader first more)
    (hlen : len < Usize.size) (hn : more.length < n) :
    scanHeader n (TlvHeader.mk first, len, headerLen) (more ++ rest) =
      some (.ok (TlvHeader.mk (more.getLast?.getD first),
        nibbles len more % Usize.size, headerLen + more.length), rest) := by
  induction more generalizing n len headerLen first with
  | nil =>
      cases n with
      | zero => exact absurd hn (Nat.not_lt_zero _)
      | succ n =>
          have hdone : ¬ (TlvHeader.mk first).hasMore = true := by
            have hlast := hheader.last first rfl
            unfold TlvHeader.hasMore
            simpa using hlast
          unfold scanHeader
          simp only [if_neg hdone]
          rw [Nat.mod_eq_of_lt (show nibbles len [] < Usize.size from hlen)]
          rfl
  | cons b more ih =>
      cases n with
      | zero => exact absurd hn (Nat.not_lt_zero _)
      | succ n =>
          have hmore : (TlvHeader.mk first).hasMore = true := by
            have hfirst := hheader.announced first List.mem_cons_self
            unfold TlvHeader.hasMore
            simpa using hfirst
          have hty : ¬ (TlvHeader.mk b).tyRaw ≠ 0 := by
            have hb := hheader.reserved b List.mem_cons_self
            unfold TlvHeader.tyRaw
            rw [hb]
            exact not_not_intro rfl
          have htail : WellFormedHeader b more := by
            constructor
            · intro c hc
              exact hheader.announced c (List.mem_cons_of_mem _ hc)
            · intro c hc
              exact hheader.last c hc
            · intro c hc
              exact hheader.reserved c (List.mem_cons_of_mem _ hc)
          have hnext : nextLen len (TlvHeader.mk b).len =
              some ((16 * len + b.toNat % 16) % Usize.size) :=
            nextLen_mod len (Nat.mod_lt _ (by decide))
          have hscan := ih (headerLen + 1) htail
            (Nat.mod_lt (16 * len + b.toNat % 16) Usize.size_pos)
            (Nat.lt_of_succ_lt_succ hn)
          unfold scanHeader
          rw [if_pos hmore]
          simp only [List.cons_append, if_neg hty, hnext]
          rw [hscan, nibbles_mod]
          have hgetLast : (b :: more).getLast?.getD first = more.getLast?.getD b := by
            cases more with
            | nil => rfl
            | cons c more => rfl
          rw [hgetLast, List.length_cons, Nat.add_assoc, Nat.add_comm 1]
          rfl

theorem decodeHeader_mod {first : UInt8} {more : List UInt8}
    (hheader : WellFormedHeader first more) (hfuel : more.length < Machine.fuel)
    (rest : List UInt8) :
    decodeHeader (first :: more ++ rest) =
      some (Reader.headerEnd (TlvHeader.mk first).ty
        (TlvHeader.mk (more.getLast?.getD first))
        (headerLength first more % Usize.size) (first :: more).length, rest) := by
  have hfirst : headerLength first more = nibbles (TlvHeader.mk first).len more := by
    unfold headerLength nibbles
    rw [List.foldl_cons, Nat.mul_zero, Nat.zero_add]
    rfl
  have hlen : (TlvHeader.mk first).len < Usize.size := by
    refine Nat.lt_of_lt_of_le (Nat.mod_lt _ (by decide : 0 < 16)) ?_
    exact Nat.le_trans (by decide) Usize.pow_le_size
  have hscan := scanHeader_mod 1 rest hheader hlen hfuel
  rw [List.cons_append]
  simp only [decodeHeader]
  rw [hscan, List.length_cons, Nat.add_comm 1, hfirst]

theorem decodeHeader_wellFormed {first : UInt8} {more : List UInt8}
    (hheader : WellFormedHeader first more)
    (hsize : headerLength first more < Usize.size) (hfuel : more.length < Machine.fuel)
    (rest : List UInt8) :
    decodeHeader (first :: more ++ rest) =
      some (Reader.headerEnd (TlvHeader.mk first).ty
        (TlvHeader.mk (more.getLast?.getD first)) (headerLength first more)
        (first :: more).length, rest) := by
  rw [decodeHeader_mod hheader hfuel, Nat.mod_eq_of_lt hsize]

omit [Machine] in
theorem ty_of_reserved {b : UInt8} (h : b.toNat / 16 % 8 = 0) :
    (TlvHeader.mk b).ty = .string := by
  unfold TlvHeader.ty TlvHeader.tyRaw
  rw [h]
  rfl

omit [Machine] in
theorem ofByte_eq_string {b : UInt8} (h : TlvType.ofByte b = .string) : b = 0 := by
  unfold TlvType.ofByte at h
  split at h
  · next hb => exact hb
  · split at h
    · cases h
    · split at h
      · cases h
      · split at h
        · cases h
        · split at h <;> cases h

omit [Machine] in
theorem first_eq_zero {first : UInt8} (hlast : first.toNat < 128) :
    first = 0 <-> (TlvHeader.mk first).ty = .string ∧ headerLength first [] = 0 := by
  have hlength : headerLength first [] = first.toNat % 16 := by
    unfold headerLength nibbles
    rw [List.foldl_cons, List.foldl_nil, Nat.mul_zero, Nat.zero_add]
  constructor
  · intro h
    rw [h]
    exact ⟨rfl, rfl⟩
  · rintro ⟨hty, hlen⟩
    have hraw := ofByte_eq_string hty
    unfold TlvHeader.tyRaw at hraw
    have htype : first.toNat / 16 % 8 = 0 := by
      have := congrArg UInt8.toNat hraw
      rw [UInt8.toNat_ofNat'] at this
      simp at this
      lia
    rw [hlength] at hlen
    apply UInt8.toNat_inj.mp
    change first.toNat = 0
    lia

omit [Machine] in
theorem headerEnd_single {first : UInt8} (hlast : first.toNat < 128) :
    Reader.headerEnd (TlvHeader.mk first).ty (TlvHeader.mk first)
      (headerLength first []) 1 = headerMeaning first [] := by
  have hzero := first_eq_zero hlast
  unfold headerMeaning Reader.headerEnd Usize.checkedSub
  generalize headerLength first [] = length at hzero
  generalize (TlvHeader.mk first).ty = ty at hzero
  rcases Nat.eq_zero_or_pos length with hlength | hlength
  · cases ty <;> simp [hzero, hlength]
  · have hne : length ≠ 0 := Nat.ne_of_gt hlength
    have hle : 1 ≤ length := hlength
    cases ty <;> simp [hzero, hne, hle]

theorem decodeHeader_single {first : UInt8} (hlast : first.toNat < 128) :
    decodeHeader [first] = some (headerMeaning first [], []) := by
  have hheader : WellFormedHeader first [] := by
    constructor
    · intro b hb
      cases hb
    · intro b hb
      cases hb
      exact hlast
    · intro b hb
      cases hb
  have hlength : headerLength first [] < Usize.size := by
    have hpow := Usize.pow_le_size
    unfold headerLength nibbles
    rw [List.foldl_cons, List.foldl_nil]
    lia
  have hdecode := decodeHeader_wellFormed hheader hlength
    (Nat.lt_of_lt_of_le (by decide) Machine.fuel_ge) []
  rw [← headerEnd_single hlast]
  exact hdecode

omit [Machine] in
theorem headerEnd_long {ty : TlvType} {last : TlvHeader} (hlast : last.ty = .string)
    (length k : Nat) :
    Reader.headerEnd ty last length k =
      if length = 0 then .error .endOfSmlMessage
      else if k ≤ length then .ok (ty, length - k)
      else .error (.shortTlvLength length) := by
  unfold Reader.headerEnd Usize.checkedSub
  rw [hlast]
  by_cases hzero : length = 0
  · simp [hzero]
  · by_cases hle : k ≤ length
    · simp [hzero, hle]
    · simp [hzero, hle]

omit [Machine] in
theorem headerMeaning_long {first : UInt8} {more : List UInt8} (hmore : more ≠ []) :
    headerMeaning first more =
      if (TlvHeader.mk first).ty = .list then .ok (.list, headerLength first more)
      else if (first :: more).length ≤ headerLength first more then
        .ok ((TlvHeader.mk first).ty, headerLength first more - (first :: more).length)
      else .error (.shortTlvLength (headerLength first more)) := by
  have hk : ¬ ((first :: more).length = 1 ∧ first = 0) := by
    rintro ⟨hlen, _⟩
    rw [List.length_cons] at hlen
    exact hmore (List.length_eq_zero_iff.mp (Nat.succ.inj hlen))
  unfold headerMeaning
  simp only [if_neg hk]

/-!
The code follows the format for every header of one byte, and for longer headers
only where the item is no list and its length is not zero: the type it tests for
is that of the last header byte.
-/

theorem readTlvInner_headerMeaning_iff {first : UInt8} {more : List UInt8}
    (hheader : WellFormedHeader first more)
    (hsize : headerLength first more < Usize.size) (hfuel : more.length < Machine.fuel)
    (r : Reader) (rest : List UInt8) :
    Reader.readTlvInner.parse r (first :: more ++ rest) =
        some ((headerMeaning first more, r), rest) <->
      more = [] ∨
        ((TlvHeader.mk first).ty ≠ .list ∧ headerLength first more ≠ 0) := by
  rw [parse_readTlvInner, decodeHeader_wellFormed hheader hsize hfuel, Option.map_some]
  cases more with
  | nil =>
      have hsingle := headerEnd_single (hheader.last first rfl)
      constructor
      · intro _
        exact Or.inl rfl
      · intro _
        change some ((Reader.headerEnd _ (TlvHeader.mk first) (headerLength first []) 1, r),
          rest) = _
        rw [hsingle]
  | cons b more =>
      have hlastTy : (TlvHeader.mk ((b :: more).getLast?.getD first)).ty = .string := by
        apply ty_of_reserved
        apply hheader.reserved
        have hlast := List.getLast?_cons (a := b) (l := more)
        rw [hlast]
        exact List.mem_of_getLast? hlast
      have hk : 1 < (first :: b :: more).length := by
        rw [List.length_cons, List.length_cons]
        lia
      rw [headerEnd_long hlastTy, headerMeaning_long (List.cons_ne_nil b more)]
      generalize headerLength first (b :: more) = length
      generalize (first :: b :: more).length = k at hk
      generalize (TlvHeader.mk first).ty = ty
      by_cases hlength : length = 0
      · -- the code takes the header for an end marker
        by_cases hlist : ty = .list
        · simp [hlength, hlist]
        · have hle : ¬ k ≤ 0 := by lia
          simp [hlength, hlist, hle]
      · by_cases hlist : ty = .list
        · -- the code subtracts the length of the header
          by_cases hle : k ≤ length
          · have hne : length - k ≠ length := by lia
            simp [hlength, hlist, hle, hne]
          · simp [hlength, hlist, hle]
        · simp [hlength, hlist]

omit [Machine] in
/-- An integer of sixteen bytes behind a header of two. -/
theorem readTlvInner_long_integer :
    headerMeaning 0xD1 [0x02] = .ok (.integer, 16) ∧
      (@Reader.readTlvInner (.word32 32 (Nat.le_refl 32))).parse Reader.new [0xD1, 0x02, 0x07] =
        some ((headerMeaning 0xD1 [0x02], Reader.new), [0x07]) := by
  constructor
  · decide
  · apply (@readTlvInner_headerMeaning_iff (.word32 32 (Nat.le_refl 32)) 0xD1 [0x02]
      ⟨by simp, by simp, by simp⟩ (by decide) (by decide) Reader.new [0x07]).mpr
    right
    constructor
    · decide
    · decide

omit [Machine] in
/-- A list of sixteen elements needs a header of two bytes and is read as one of fourteen. -/
theorem readTlvInner_long_list :
    WellFormedHeader 0xF1 [0x00] ∧
      headerMeaning 0xF1 [0x00] = .ok (.list, 16) ∧
      (@Reader.readTlvInner (.word32 32 (Nat.le_refl 32))).parse Reader.new [0xF1, 0x00] =
        some ((.ok (.list, 14), Reader.new), []) ∧
      (@Reader.readTlvInner (.word32 32 (Nat.le_refl 32))).parse Reader.new [0xF1, 0x00] ≠
        some ((headerMeaning 0xF1 [0x00], Reader.new), []) := by
  have hread : (@Reader.readTlvInner (.word32 32 (Nat.le_refl 32))).parse Reader.new
      [0xF1, 0x00] = some ((.ok (.list, 14), Reader.new), []) := rfl
  have hmeaning : headerMeaning 0xF1 [0x00] = .ok (.list, 16) := by decide
  refine ⟨⟨by simp, by simp, by simp⟩, hmeaning, hread, ?_⟩
  rw [hread, hmeaning]
  decide

/-!
## Lengths that do not fit

A length that does not fit into a word is truncated, and no check of the loop
ever fails.
-/

omit [Machine] in
theorem headerEnd_ne_tooBig (ty : TlvType) (header : TlvHeader) (len headerLen : Nat) :
    Reader.headerEnd ty header len headerLen ≠ .error .tlvLengthTooBig := by
  intro h
  unfold Reader.headerEnd at h
  split at h
  · cases h
  · split at h
    · cases h
    · split at h <;> cases h
  · split at h
    · cases h
    · split at h <;> cases h

/-- A length that does not fit is never rejected. -/
theorem readTlvInner_tooBig_iff {first : UInt8} {more : List UInt8}
    (hheader : WellFormedHeader first more) (hfuel : more.length < Machine.fuel)
    (r : Reader) (rest : List UInt8) :
    (Usize.size ≤ headerLength first more ->
        exists rest', Reader.readTlvInner.parse r (first :: more ++ rest) =
          some ((.error .tlvLengthTooBig, r), rest')) <->
      headerLength first more < Usize.size := by
  constructor
  · intro hreject
    apply Nat.lt_of_not_le
    intro hbig
    rcases hreject hbig with ⟨rest', hparse⟩
    rw [parse_readTlvInner, decodeHeader_mod hheader hfuel, Option.map_some] at hparse
    injection hparse with hparse
    injection hparse with hparse
    injection hparse with hparse
    exact headerEnd_ne_tooBig _ _ _ _ hparse
  · intro hfits hbig
    exact absurd hbig (Nat.not_le_of_lt hfits)

omit [Machine] in
/-- The longest length of four digits, and one of nine, on words of 32 bits. -/
theorem readTlvInner_fits :
    letI := Machine.word32 32 (Nat.le_refl 32)
    headerLength 0x8F [0x8F, 0x8F, 0x0F] = 0xFFFF ∧
      (Usize.size ≤ headerLength 0x8F [0x8F, 0x8F, 0x0F] ->
        exists rest', Reader.readTlvInner.parse Reader.new [0x8F, 0x8F, 0x8F, 0x0F] =
          some ((.error .tlvLengthTooBig, Reader.new), rest')) ∧
      headerLength 0x82 [0x80, 0x80, 0x80, 0x80, 0x80, 0x80, 0x80, 0x00] = 2 ^ 33 ∧
      ¬ (Usize.size ≤ headerLength 0x82 [0x80, 0x80, 0x80, 0x80, 0x80, 0x80, 0x80, 0x00] ->
        exists rest', Reader.readTlvInner.parse Reader.new
            [0x82, 0x80, 0x80, 0x80, 0x80, 0x80, 0x80, 0x80, 0x00] =
          some ((.error .tlvLengthTooBig, Reader.new), rest')) := by
  let := Machine.word32 32 (Nat.le_refl 32)
  refine ⟨by decide, ?_, by decide, ?_⟩
  · exact (@readTlvInner_tooBig_iff _ 0x8F [0x8F, 0x8F, 0x0F]
      ⟨by simp, by simp, by simp⟩ (by decide) Reader.new []).mpr (by decide)
  · intro hreject
    have hfits := (@readTlvInner_tooBig_iff _ 0x82
      [0x80, 0x80, 0x80, 0x80, 0x80, 0x80, 0x80, 0x00] ⟨by simp, by simp, by simp⟩
      (by decide) Reader.new []).mp hreject
    exact absurd hfits (by decide)

omit [Machine] in
/-- A length of nine digits, of which the first is lost on words of 32 bits. -/
theorem readTlvInner_truncated :
    letI := Machine.word32 32 (Nat.le_refl 32)
    let more : List UInt8 := [0x80, 0x80, 0x80, 0x80, 0x80, 0x80, 0x80, 0x0F]
    WellFormedHeader 0x81 more ∧ headerLength 0x81 more = Usize.size + 15 ∧
      Reader.readTlvInner.parse Reader.new (0x81 :: more) =
        some ((.ok (.string, 6), Reader.new), []) ∧
      ¬ (Usize.size ≤ headerLength 0x81 more ->
        exists rest', Reader.readTlvInner.parse Reader.new (0x81 :: more) =
          some ((.error .tlvLengthTooBig, Reader.new), rest')) := by
  intro more
  have hread : (@Reader.readTlvInner (.word32 32 (Nat.le_refl 32))).parse Reader.new
      (0x81 :: more) = some ((.ok (.string, 6), Reader.new), []) := rfl
  have hlength : headerLength 0x81 more = 2 ^ 32 + 15 := by decide
  refine ⟨⟨by simp [more], by simp [more], by simp [more]⟩, hlength, hread, ?_⟩
  intro hreject
  rw [hlength] at hreject
  rcases hreject (Nat.le_add_right _ _) with ⟨rest', hparse⟩
  rw [hread] at hparse
  cases hparse

end Tlv
end Sml
end Smartmeter
