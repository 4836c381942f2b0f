import Smartmeter.Sml.Tlv.Reading
import Smartmeter.Sml.Tlv.Skip

/-!
# Taking items

What the methods of a list make of the bytes in front of them: what is pending
is skipped, a header is read, and what it announces is read within the scope of
the item.
-/

namespace Smartmeter
namespace Sml
namespace Tlv

open Foundation

def Kind.ty : Kind -> TlvType
  | .string => .string
  | .boolean => .boolean
  | .integer => .integer
  | .unsigned => .unsigned
  | .list => .list

def Item.ofHeader : TlvType × Nat -> Except Error Item
  | (.string, len) => if len = 0 then .ok .none else .ok (.some .string len)
  | (.boolean, len) => .ok (.some .boolean len)
  | (.integer, len) => .ok (.some .integer len)
  | (.unsigned, len) => .ok (.some .unsigned len)
  | (.list, len) => .ok (.some .list len)
  | (.other ty, _) => .error (.unsupportedTlvType ty)

theorem Item.ofHeader_ty {kind : Kind} {size : Nat} (h : kind = .string -> size ≠ 0) :
    Item.ofHeader (kind.ty, size) = .ok (.some kind size) := by
  cases kind with
  | string => exact if_neg (h rfl)
  | _ => rfl

theorem Item.ofHeader_some {x : TlvType × Nat} {kind : Kind} {size : Nat}
    (h : Item.ofHeader x = .ok (.some kind size)) :
    x = (kind.ty, size) ∧ (kind = .string -> size ≠ 0) := by
  rcases x with ⟨ty, len⟩
  cases ty with
  | string =>
      simp only [Item.ofHeader] at h
      by_cases hlen : len = 0
      · rw [if_pos hlen] at h
        cases h
      · rw [if_neg hlen] at h
        cases h
        exact ⟨rfl, fun _ => hlen⟩
  | other ty => cases h
  | _ =>
      cases h
      exact ⟨rfl, fun heq => by cases heq⟩

theorem Item.ofHeader_none {x : TlvType × Nat} (h : Item.ofHeader x = .ok .none) : x.2 = 0 := by
  rcases x with ⟨ty, len⟩
  cases ty with
  | string =>
      simp only [Item.ofHeader] at h
      by_cases hlen : len = 0
      · exact hlen
      · rw [if_neg hlen] at h
        cases h
  | _ => cases h

theorem Item.ofHeader_error {x : TlvType × Nat} {e : Error} (h : Item.ofHeader x = .error e) :
    exists ty : UInt8, x.1 = .other ty ∧ e = .unsupportedTlvType ty := by
  rcases x with ⟨ty, len⟩
  cases ty with
  | string =>
      simp only [Item.ofHeader] at h
      split at h <;> cases h
  | other ty =>
      cases h
      exact ⟨ty, rfl, rfl⟩
  | _ => cases h

variable [Machine]

/-!
## The length of an item
-/

theorem scanHeader_lt {n len headerLen len' headerLen' : Nat} {header header' : TlvHeader}
    {bs rest : List UInt8} (hlen : len < Usize.size)
    (h : scanHeader n (header, len, headerLen) bs =
      some (.ok (header', len', headerLen'), rest)) : len' < Usize.size := by
  induction n generalizing len headerLen header bs with
  | zero => cases h
  | succ n ih =>
      unfold scanHeader at h
      split at h
      · cases bs with
        | nil => cases h
        | cons b bs =>
            dsimp only at h
            split at h
            · cases h
            · cases hnext : nextLen len (TlvHeader.mk b).len with
              | none =>
                  rw [hnext] at h
                  cases h
              | some len'' =>
                  rw [hnext] at h
                  refine ih ?_ h
                  unfold nextLen at hnext
                  rw [Usize.checkedShl_four, Option.bind_some] at hnext
                  unfold Usize.checkedAdd at hnext
                  split at hnext
                  · next hlt =>
                      injection hnext with hnext
                      rw [← hnext]
                      exact hlt
                  · cases hnext
      · injection h with h
        injection h with h _
        injection h with h
        injection h with _ h
        injection h with h _
        rw [← h]
        exact hlen

theorem decodeHeader_lt {bs rest : List UInt8} {ty : TlvType} {len : Nat}
    (h : decodeHeader bs = some (.ok (ty, len), rest)) : len < Usize.size := by
  cases bs with
  | nil => cases h
  | cons b bs =>
      simp only [decodeHeader] at h
      cases hscan : scanHeader Machine.fuel (TlvHeader.mk b, (TlvHeader.mk b).len, 1) bs with
      | none =>
          rw [hscan] at h
          cases h
      | some x =>
          rcases x with ⟨res, rest'⟩
          rw [hscan] at h
          cases res with
          | error e => cases h
          | ok y =>
              rcases y with ⟨last, len', headerLen⟩
              injection h with h
              injection h with hend _
              have hfirst : (TlvHeader.mk b).len < Usize.size := by
                have hbits := Usize.pow_le_size
                unfold TlvHeader.len
                lia
              have hlt := scanHeader_lt hfirst hscan
              have hle : len ≤ len' := by
                unfold Reader.headerEnd Usize.checkedSub at hend
                revert hend
                cases last.ty <;> grind
              exact Nat.lt_of_le_of_lt hle hlt

/-!
## The next item
-/

namespace Reader

theorem readTlv_ok {r r' : Reader} {bs rest : List UInt8} {x : TlvType × Nat}
    (h : readTlv.parse r bs = some ((.ok x, r'), rest)) :
    r' = new ∧ exists used header, bs = used ++ (header ++ rest) ∧ r.Pending used ∧
      decodeHeader header = some (.ok x, []) := by
  rcases Act.parse_bind_eq_ok h with ⟨_, r₁, mid, hskip, hread⟩
  rcases skipNow_ok hskip with ⟨hr₁, used, hused, hpending⟩
  rw [parse_readTlvInner, hr₁] at hread
  cases hdecode : decodeHeader mid with
  | none =>
      rw [hdecode] at hread
      cases hread
  | some y =>
      rcases y with ⟨res, rest'⟩
      rw [hdecode] at hread
      injection hread with hread
      injection hread with hr hrest
      injection hr with hres hr'
      rcases decodeHeader_split hdecode with ⟨header, hmid, hheader⟩
      refine ⟨hr'.symm, used, header, ?_, hpending, hres ▸ hheader⟩
      rw [hused, hmid, ← hrest]

theorem readTlv_of_header {r : Reader} {used header : List UInt8} (rest : List UInt8)
    {x : Except Error (TlvType × Nat)} (hpending : r.Pending used)
    (hfuel : used.length < Machine.fuel) (hheader : decodeHeader header = some (x, [])) :
    readTlv.parse r (used ++ (header ++ rest)) = some ((x, new), rest) := by
  unfold readTlv
  rw [Act.parse_bind_ok (skipNow_of_pending _ hpending hfuel), parse_readTlvInner,
    decodeHeader_append hheader]
  rfl

theorem readTlv_new (bs : List UInt8) :
    readTlv.parse new bs = readTlvInner.parse new bs := by
  unfold readTlv
  rw [Act.parse_bind_ok (skipNow_new bs)]

theorem readList_ok {r r' : Reader} {bs rest : List UInt8} {len : Nat}
    (h : readList.parse r bs = some ((.ok len, r'), rest)) :
    r' = new ∧ exists used header, bs = used ++ (header ++ rest) ∧ r.Pending used ∧
      decodeHeader header = some (.ok (.list, len), []) := by
  rcases Act.parse_bind_eq_ok h with ⟨⟨ty, len'⟩, r₁, mid, hread, hlist⟩
  rcases readTlv_ok hread with ⟨hr₁, used, header, hbs, hpending, hheader⟩
  cases ty with
  | list =>
      injection hlist with hlist
      injection hlist with hr hrest
      injection hr with hlen hr'
      injection hlen with hlen
      subst hrest
      exact ⟨hr' ▸ hr₁, used, header, hbs, hpending, hlen ▸ hheader⟩
  | _ => cases hlist

theorem readList_of_header {r : Reader} {used header : List UInt8} (rest : List UInt8)
    {len : Nat} (hpending : r.Pending used) (hfuel : used.length < Machine.fuel)
    (hheader : decodeHeader header = some (.ok (.list, len), [])) :
    readList.parse r (used ++ (header ++ rest)) = some ((.ok len, new), rest) := by
  unfold readList
  rw [Act.parse_bind_ok (readTlv_of_header rest hpending hfuel hheader)]
  rfl

end Reader

namespace List

theorem parse_next_zero (r : Reader) (bs : List UInt8) :
    next.parse { reader := r, len := 0 } bs =
      some ((.ok none, { reader := r, len := 0 }), bs) := rfl

theorem parse_next_succ (r : Reader) (len : Nat) (bs : List UInt8) :
    next.parse { reader := r, len := len + 1 } bs =
      match Reader.readTlv.parse r bs with
      | none => none
      | some ((.error e, r'), rest) =>
          some ((.error e, { reader := r', len := len + 1 }), rest)
      | some ((.ok x, r'), rest) =>
          some (((Item.ofHeader x).map some, { reader := r', len := len }), rest) := by
  unfold next Handle.withReader
  rw [Act.parse_bind_ok (Act.parse_gets _ _ _)]
  dsimp only
  rw [if_neg (Nat.succ_ne_zero len), Act.parse_bind, Act.parse_borrow]
  cases Reader.readTlv.parse r bs with
  | none => rfl
  | some y =>
      rcases y with ⟨⟨res, r'⟩, rest⟩
      cases res with
      | error e => rfl
      | ok x =>
          rcases x with ⟨ty, size⟩
          cases ty with
          | string =>
              by_cases hsize : size = 0
              · simp only [Option.map_some, Item.ofHeader, if_pos hsize,
                  Act.parse_bind_ok (Act.parse_modify _ _ _)]
                rfl
              · simp only [Option.map_some, Item.ofHeader, if_neg hsize,
                  Act.parse_bind_ok (Act.parse_modify _ _ _)]
                rfl
          | _ => rfl

theorem next_ok {self self' : Handle} {item : Item} {bs rest : List UInt8}
    (h : next.parse self bs = some ((.ok (some item), self'), rest)) :
    exists used header x, bs = used ++ (header ++ rest) ∧ self.reader.Pending used ∧
      decodeHeader header = some (.ok x, []) ∧ Item.ofHeader x = .ok item ∧
      self.len = self'.len + 1 ∧ self'.reader = Reader.new := by
  rcases self with ⟨r, len⟩
  cases len with
  | zero => cases h
  | succ len =>
      rw [parse_next_succ] at h
      cases hread : Reader.readTlv.parse r bs with
      | none =>
          rw [hread] at h
          cases h
      | some y =>
          rcases y with ⟨⟨res, r'⟩, rest'⟩
          rw [hread] at h
          cases res with
          | error e => cases h
          | ok x =>
              rcases Reader.readTlv_ok hread with ⟨hr', used, header, hbs, hpending, hheader⟩
              injection h with h
              injection h with hitem hrest
              injection hitem with hitem hself
              cases hx : Item.ofHeader x with
              | error e =>
                  rw [hx] at hitem
                  cases hitem
              | ok item' =>
                  rw [hx] at hitem
                  cases hitem
                  subst hrest hself
                  exact ⟨used, header, x, hbs, hpending, hheader, hx, rfl, hr'⟩

theorem next_of_header {r : Reader} {used header : List UInt8} (len : Nat)
    (rest : List UInt8) {x : TlvType × Nat} {item : Item} (hpending : r.Pending used)
    (hfuel : used.length < Machine.fuel) (hheader : decodeHeader header = some (.ok x, []))
    (hitem : Item.ofHeader x = .ok item) :
    next.parse { reader := r, len := len + 1 } (used ++ (header ++ rest)) =
      some ((.ok (some item), { reader := Reader.new, len := len }), rest) := by
  rw [parse_next_succ, Reader.readTlv_of_header rest hpending hfuel hheader]
  simp only [hitem]
  rfl

theorem nextVariant_ok {kind : Kind} {self self' : Handle} {size : Nat}
    {bs rest : List UInt8}
    (h : (nextVariant kind).parse self bs = some ((.ok size, self'), rest)) :
    exists used header, bs = used ++ (header ++ rest) ∧ self.reader.Pending used ∧
      decodeHeader header = some (.ok (kind.ty, size), []) ∧
      (kind = .string -> size ≠ 0) ∧
      self.len = self'.len + 1 ∧ self'.reader = Reader.new := by
  rcases Act.parse_bind_eq_ok h with ⟨item, self₁, mid, hany, hitem⟩
  rcases Act.parse_bind_eq_ok hany with ⟨item?, self₂, mid₂, hnext, hsome⟩
  cases item? with
  | none => cases hsome
  | some item₂ =>
      injection hsome with hsome
      injection hsome with hsome hmid
      injection hsome with hsome hself
      injection hsome with hsome
      subst hsome hmid hself
      rcases next_ok hnext with ⟨used, header, x, hbs, hpending, hheader, hx, hlen, hreader⟩
      cases item₂ with
      | none => cases hitem
      | some kind' len =>
          by_cases hkind : kind' = kind
          · simp only [if_pos hkind, Act.parse_pure] at hitem
            injection hitem with hitem
            injection hitem with hitem hrest
            injection hitem with hitem hself
            injection hitem with hitem
            subst hitem hself hrest hkind
            rcases Item.ofHeader_some hx with ⟨hx, hsize⟩
            exact ⟨used, header, hbs, hpending, hx ▸ hheader, hsize, hlen, hreader⟩
          · simp only [if_neg hkind] at hitem
            rcases Act.parse_bind_eq_ok hitem with ⟨_, _, _, _, hfail⟩
            cases hfail

theorem nextVariant_of_header {kind : Kind} {r : Reader} {used header : List UInt8}
    (len : Nat) (rest : List UInt8) {size : Nat} (hpending : r.Pending used)
    (hfuel : used.length < Machine.fuel)
    (hheader : decodeHeader header = some (.ok (kind.ty, size), []))
    (hsize : kind = .string -> size ≠ 0) :
    (nextVariant kind).parse { reader := r, len := len + 1 } (used ++ (header ++ rest)) =
      some ((.ok size, { reader := Reader.new, len := len }), rest) := by
  have hnext := next_of_header len rest hpending hfuel hheader (Item.ofHeader_ty hsize)
  unfold nextVariant nextAny
  rw [Act.parse_bind, Act.parse_bind_ok hnext]
  simp only [Act.parse_pure, if_pos]

theorem nextEnd_readTlv {r : Reader} {self' : Handle} {len : Nat} {bs rest : List UInt8}
    (h : nextEnd.parse { reader := r, len := len } bs = some ((.ok (), self'), rest)) :
    len = self'.len + 1 ∧
      Reader.readTlv.parse r bs = some ((.error .endOfSmlMessage, self'.reader), rest) := by
  have hitem : forall {self : Handle} {item : Option Item} {bs : List UInt8},
      ((dropItem item >>= fun _ => Act.fail .unexpectedValue :
        Act Ops Error Handle Unit).parse self bs) ≠ some ((.ok (), self'), rest) := by
    intro self item bs hitem
    rcases Act.parse_bind_eq_ok hitem with ⟨_, _, _, _, hfail⟩
    cases hfail
  unfold nextEnd at h
  rw [Act.parse_bind, Reader.parse_attempt] at h
  cases len with
  | zero => exact absurd h hitem
  | succ len =>
      rw [parse_next_succ] at h
      cases hread : Reader.readTlv.parse r bs with
      | none =>
          rw [hread] at h
          cases h
      | some y =>
          rcases y with ⟨⟨res, r'⟩, rest'⟩
          rw [hread] at h
          cases res with
          | ok x =>
              cases hx : Item.ofHeader x with
              | error e =>
                  simp only [Option.map_some, hx] at h
                  rcases x with ⟨ty, size⟩
                  cases ty with
                  | string =>
                      simp only [Item.ofHeader] at hx
                      split at hx <;> cases hx
                  | other ty =>
                      cases hx
                      cases h
                  | _ => cases hx
              | ok item =>
                  simp only [Option.map_some, hx] at h
                  exact absurd h hitem
          | error e =>
              cases e with
              | endOfSmlMessage =>
                  injection h with h
                  injection h with hself hrest
                  injection hself with _ hself
                  subst hself hrest
                  exact ⟨rfl, rfl⟩
              | _ => cases h

theorem parse_skip {self : Handle} {num : Nat} (h : num ≤ self.len) (bs : List UInt8) :
    (skip num).parse self bs =
      some ((.ok (), { reader := { self.reader with
          remainingTlvs := Usize.wrappingAdd self.reader.remainingTlvs num }
                       len := self.len - num }), bs) := by
  unfold skip
  rw [Act.parse_bind_ok (Act.parse_gets _ _ _), if_neg (Nat.not_lt.mpr h)]
  rfl

theorem parse_skip_beyond {self : Handle} {num : Nat} (h : self.len < num) (bs : List UInt8) :
    (skip num).parse self bs = some ((.error .endOfList, self), bs) := by
  unfold skip
  rw [Act.parse_bind_ok (Act.parse_gets _ _ _), if_pos h]
  rfl

theorem nextEnd_of_item {self self' : Handle} {kind : Kind} {size : Nat} {bs rest : List UInt8}
    (h : next.parse self bs = some ((.ok (some (.some kind size)), self'), rest)) :
    nextEnd.parse self bs =
      some ((.error .unexpectedValue,
        { self' with reader := Handle.drop kind { reader := self'.reader, len := size } }),
        rest) := by
  unfold nextEnd
  rw [Act.parse_bind, Reader.parse_attempt, h]
  rfl

theorem nextEnd_of_none {self self' : Handle} {item : Option Item} {bs rest : List UInt8}
    (h : next.parse self bs = some ((.ok item, self'), rest))
    (hitem : item = none ∨ item = some .none) :
    nextEnd.parse self bs = some ((.error .unexpectedValue, self'), rest) := by
  unfold nextEnd
  rw [Act.parse_bind, Reader.parse_attempt, h]
  rcases hitem with rfl | rfl <;> rfl

theorem nextEnd_of_error {self self' : Handle} {e : Error} {bs rest : List UInt8}
    (h : next.parse self bs = some ((.error e, self'), rest)) (he : e ≠ .endOfSmlMessage) :
    nextEnd.parse self bs = some ((.error e, self'), rest) := by
  unfold nextEnd
  rw [Act.parse_bind, Reader.parse_attempt, h]
  cases e with
  | endOfSmlMessage => exact absurd rfl he
  | _ => rfl

theorem nextEnd_ok {self' : Handle} {len : Nat} {bs rest : List UInt8}
    (h : nextEnd.parse { reader := Reader.new, len := len } bs =
      some ((.ok (), self'), rest)) :
    len = self'.len + 1 ∧ self'.reader = Reader.new ∧
      exists marker, bs = marker ++ rest ∧
        decodeHeader marker = some (.error .endOfSmlMessage, []) := by
  rcases nextEnd_readTlv h with ⟨hlen, hread⟩
  rw [Reader.readTlv_new, parse_readTlvInner] at hread
  cases hdecode : decodeHeader bs with
  | none =>
      rw [hdecode] at hread
      cases hread
  | some x =>
      rw [hdecode] at hread
      injection hread with hread
      injection hread with hres hrest
      injection hres with hres hreader
      rcases decodeHeader_split hdecode with ⟨marker, hbs, hmarker⟩
      rw [hres] at hmarker
      exact ⟨hlen, hreader.symm, marker, hrest ▸ hbs, hmarker⟩

theorem nextEnd_of_marker {r : Reader} {used marker : List UInt8} (len : Nat)
    (rest : List UInt8) (hpending : r.Pending used) (hfuel : used.length < Machine.fuel)
    (hmarker : decodeHeader marker = some (.error .endOfSmlMessage, [])) :
    nextEnd.parse { reader := r, len := len + 1 } (used ++ (marker ++ rest)) =
      some ((.ok (), { reader := Reader.new, len := len }), rest) := by
  have hnext : next.parse { reader := r, len := len + 1 } (used ++ (marker ++ rest)) =
      some ((.error .endOfSmlMessage, { reader := Reader.new, len := len + 1 }), rest) := by
    rw [parse_next_succ, Reader.readTlv_of_header rest hpending hfuel hmarker]
  unfold nextEnd
  rw [Act.parse_bind, Reader.parse_attempt, hnext]
  rfl

end List

/-!
## What an item holds
-/

omit [Machine] in
theorem intoBytes_ok {minsz maxsz : Nat} {self self' : Handle} {bytes bs rest : List UInt8}
    (h : (intoBytes minsz maxsz).parse self bs = some ((.ok bytes, self'), rest)) :
    bs = bytes ++ rest ∧ bytes.length = self.len ∧ minsz ≤ self.len ∧ self.len ≤ maxsz ∧
      self' = { self with len := 0 } := by
  unfold intoBytes at h
  rw [Act.parse_bind_ok (Act.parse_gets _ _ _)] at h
  by_cases hlen : minsz ≤ self.len ∧ self.len ≤ maxsz
  · rw [if_pos hlen, Act.parse_bind, parse_readExact] at h
    by_cases hle : self.len ≤ bs.length
    · rw [if_pos hle] at h
      injection h with h
      injection h with h hrest
      injection h with hbytes hself
      injection hbytes with hbytes
      subst hbytes hrest hself
      exact ⟨(List.take_append_drop _ _).symm, List.length_take_of_le hle, hlen.1, hlen.2, rfl⟩
    · rw [if_neg hle] at h
      cases h
  · rw [if_neg hlen] at h
    cases h

omit [Machine] in
theorem parse_intoBytes {minsz maxsz : Nat} (r : Reader) {bytes : List UInt8}
    (rest : List UInt8) (hmin : minsz ≤ bytes.length) (hmax : bytes.length ≤ maxsz) :
    (intoBytes minsz maxsz).parse { reader := r, len := bytes.length } (bytes ++ rest) =
      some ((.ok bytes, { reader := r, len := 0 }), rest) := by
  unfold intoBytes
  rw [Act.parse_bind_ok (Act.parse_gets _ _ _), if_pos ⟨hmin, hmax⟩, Act.parse_bind,
    parse_readExact, if_pos (by rw [List.length_append]; exact Nat.le_add_right _ _),
    List.take_left, List.drop_left]
  rfl

omit [Machine] in
theorem parse_intoBytes_other {minsz maxsz : Nat} (r : Reader) {len : Nat}
    (h : ¬ (minsz ≤ len ∧ len ≤ maxsz)) (bs : List UInt8) :
    (intoBytes minsz maxsz).parse { reader := r, len := len } bs =
      some ((.error (.unsupportedLen len), { reader := r, len := len }), bs) := by
  unfold intoBytes
  rw [Act.parse_bind_ok (Act.parse_gets _ _ _), if_neg h]
  rfl

omit [Machine] in
@[simp] theorem beNat_fillBuf (maxsz : Nat) (readbuf : List UInt8) :
    beNat (fillBuf maxsz false readbuf) = beNat readbuf :=
  beNat_zeros_append _ readbuf

omit [Machine] in
@[simp] theorem beInt_fillBuf (maxsz : Nat) (readbuf : List UInt8) :
    beInt (fillBuf maxsz true readbuf) = beInt readbuf := by
  unfold fillBuf
  simp only [true_and]
  exact beInt_extend _ readbuf

omit [Machine] in
theorem parse_read_self (r : Reader) (s rest : List UInt8) :
    (String.read s.length).parse { reader := r, len := s.length } (s ++ rest) =
      some ((.ok s, { reader := r, len := 0 }), rest) := by
  unfold String.read
  rw [Act.parse_bind_ok (Act.parse_gets _ _ _), if_neg (not_not_intro rfl), Act.parse_bind,
    parse_readExact, if_pos (by rw [List.length_append]; exact Nat.le_add_right _ _),
    List.take_left, List.drop_left]
  rfl

omit [Machine] in
theorem parse_read_other (r : Reader) {buf len : Nat} (h : buf ≠ len) (bs : List UInt8) :
    (String.read buf).parse { reader := r, len := len } bs =
      some ((.error .wrongBufferSize, { reader := r, len := len }), bs) := by
  unfold String.read
  rw [Act.parse_bind_ok (Act.parse_gets _ _ _), if_pos h]
  rfl

omit [Machine] in
theorem parse_intoBool (r : Reader) (b : UInt8) (rest : List UInt8) :
    Boolean.intoBool.parse { reader := r, len := 1 } (b :: rest) =
      some ((.ok (b ≠ 0), { reader := r, len := 0 }), rest) := rfl

omit [Machine] in
theorem parse_intoBool_other (r : Reader) {len : Nat} (h : len ≠ 1) (bs : List UInt8) :
    Boolean.intoBool.parse { reader := r, len := len } bs =
      some ((.error (.unsupportedLen len), { reader := r, len := len }), bs) := by
  unfold Boolean.intoBool
  rw [Act.parse_bind_ok (Act.parse_gets _ _ _), if_pos h]
  rfl

omit [Machine] in
theorem parse_intoInteger (minsz maxsz : Nat) (r : Reader) (bytes rest : List UInt8) :
    (Integer.into minsz maxsz).parse { reader := r, len := bytes.length } (bytes ++ rest) =
      some (if minsz ≤ bytes.length ∧ bytes.length ≤ maxsz then
          ((.ok (beInt bytes), { reader := r, len := 0 }), rest)
        else ((.error (.unsupportedLen bytes.length), { reader := r, len := bytes.length }),
          bytes ++ rest)) := by
  unfold Integer.into
  by_cases hlen : minsz ≤ bytes.length ∧ bytes.length ≤ maxsz
  · rw [if_pos hlen, Act.parse_bind_ok (parse_intoBytes r rest hlen.1 hlen.2), beInt_fillBuf]
    rfl
  · rw [if_neg hlen, Act.parse_bind, parse_intoBytes_other _ hlen]

omit [Machine] in
theorem parse_intoUnsigned (minsz maxsz : Nat) (r : Reader) (bytes rest : List UInt8) :
    (Unsigned.into minsz maxsz).parse { reader := r, len := bytes.length } (bytes ++ rest) =
      some (if minsz ≤ bytes.length ∧ bytes.length ≤ maxsz then
          ((.ok (beNat bytes), { reader := r, len := 0 }), rest)
        else ((.error (.unsupportedLen bytes.length), { reader := r, len := bytes.length }),
          bytes ++ rest)) := by
  unfold Unsigned.into
  by_cases hlen : minsz ≤ bytes.length ∧ bytes.length ≤ maxsz
  · rw [if_pos hlen, Act.parse_bind_ok (parse_intoBytes r rest hlen.1 hlen.2), beNat_fillBuf]
    rfl
  · rw [if_neg hlen, Act.parse_bind, parse_intoBytes_other _ hlen]

namespace Handle

@[simp] theorem drop_zero (kind : Kind) {r : Reader} (hr : r = Reader.new) :
    Handle.drop kind { reader := r, len := 0 } = Reader.new := by
  rw [hr]
  cases kind <;> rfl

theorem drop_list (r : Reader) (len : Nat) :
    Handle.drop .list { reader := r, len := len } =
      { r with remainingTlvs := Usize.wrappingAdd r.remainingTlvs len } := rfl

theorem drop_list_new {len : Nat} (hlen : len < Usize.size) :
    Handle.drop .list { reader := Reader.new, len := len } =
      { remainingBytes := 0, remainingTlvs := len } := by
  have hadd : Usize.wrappingAdd 0 len = len := by
    rw [Usize.wrappingAdd_eq (by rw [Nat.zero_add]; exact hlen), Nat.zero_add]
  exact congrArg (Reader.mk 0) hadd

theorem drop_bytes {kind : Kind} (hkind : kind ≠ .list) {len : Nat}
    (hlen : len < Usize.size) :
    Handle.drop kind { reader := Reader.new, len := len } =
      { remainingBytes := len, remainingTlvs := 0 } := by
  have hadd : Usize.wrappingAdd 0 len = len := by
    rw [Usize.wrappingAdd_eq (by rw [Nat.zero_add]; exact hlen), Nat.zero_add]
  cases kind with
  | list => exact absurd rfl hkind
  | _ => exact congrArg (Reader.mk · 0) hadd

theorem readTlv_drop {kind : Kind} (hkind : kind ≠ .list) {bytes : List UInt8}
    (hsize : bytes.length < Usize.size) (hfuel : bytes.length < Machine.fuel)
    (rest : List UInt8) :
    Reader.readTlv.parse (Handle.drop kind { reader := Reader.new, len := bytes.length })
      (bytes ++ rest) = Reader.readTlv.parse Reader.new rest := by
  have hpending :
      (Handle.drop kind { reader := Reader.new, len := bytes.length }).Pending bytes := by
    rw [drop_bytes hkind hsize]
    exact ⟨bytes, [], (List.append_nil bytes).symm, rfl, .nil⟩
  unfold Reader.readTlv
  rw [Act.parse_bind_ok (Reader.skipNow_of_pending rest hpending hfuel),
    Act.parse_bind_ok (Reader.skipNow_new rest)]

end Handle

namespace Reading

variable {kind : Kind} {β : Type}

omit [Machine] in
theorem expect_self (child : Reading kind β) : expect kind child kind = child :=
  dif_pos rfl

omit [Machine] in
theorem expect_other {kind' : Kind} (child : Reading kind β) (h : kind ≠ kind') :
    expect kind child kind' = fail .unexpectedValue :=
  dif_neg h

theorem parse_withNext_some (none : Except Error β) (child : (kind : Kind) -> Reading kind β)
    (kind : Kind) (size : Nat) (self : Handle) (bs : List UInt8) :
    (withNext none child (some (.some kind size))).parse self bs =
      ((child kind).act.parse { reader := self.reader, len := size } bs).map fun x =>
        ((x.1.1, { self with reader := x.1.2.drop kind }), x.2) := by
  unfold withNext Handle.withReader Handle.scope
  rw [Act.parse_borrow, Act.parse_borrow, Option.map_map]
  rfl

theorem nextVariant_ok {child : Reading kind β} {self self' : Handle} {b : β}
    {bs rest : List UInt8}
    (h : (nextVariant kind child).act.parse self bs = some ((.ok b, self'), rest)) :
    exists used header mid size item, bs = used ++ (header ++ mid) ∧
      self.reader.Pending used ∧ decodeHeader header = some (.ok (kind.ty, size), []) ∧
      (kind = .string -> size ≠ 0) ∧
      child.act.parse { reader := Reader.new, len := size } mid = some ((.ok b, item), rest) ∧
      self.len = self'.len + 1 ∧ self'.reader = item.drop kind := by
  unfold nextVariant at h
  rw [act_nextAny] at h
  rcases Act.parse_bind_eq_ok h with ⟨item?, self₁, mid, hnext, hwith⟩
  cases item? with
  | none => cases hwith
  | some item =>
      rcases List.next_ok hnext with ⟨used, header, x, hbs, hpending, hheader, hx, hlen, hreader⟩
      cases item with
      | none => cases hwith
      | some kind' size =>
          rw [parse_withNext_some, hreader] at hwith
          by_cases hkind : kind = kind'
          · subst hkind
            rw [expect_self] at hwith
            cases hchild : child.act.parse { reader := Reader.new, len := size } mid with
            | none =>
                rw [hchild] at hwith
                cases hwith
            | some y =>
                rcases y with ⟨⟨res, item⟩, rest'⟩
                rw [hchild] at hwith
                injection hwith with hwith
                injection hwith with hself hrest
                injection hself with hres hself
                rcases Item.ofHeader_some hx with ⟨hx, hsize⟩
                subst hself hrest
                subst hres
                exact ⟨used, header, mid, size, item, hbs, hpending, hx ▸ hheader, hsize,
                  hchild, hlen, rfl⟩
          · rw [expect_other child hkind] at hwith
            cases hwith

theorem nextVariant_of_header {child : Reading kind β} {r : Reader}
    {used header mid rest : List UInt8} (len : Nat) {size : Nat} {res : Except Error β}
    {item : Handle} (hpending : r.Pending used) (hfuel : used.length < Machine.fuel)
    (hheader : decodeHeader header = some (.ok (kind.ty, size), []))
    (hsize : kind = .string -> size ≠ 0)
    (hchild : child.act.parse { reader := Reader.new, len := size } mid =
      some ((res, item), rest)) :
    (nextVariant kind child).act.parse { reader := r, len := len + 1 }
        (used ++ (header ++ mid)) =
      some ((res, { reader := item.drop kind, len := len }), rest) := by
  unfold nextVariant
  rw [act_nextAny, Act.parse_bind_ok
    (List.next_of_header len mid hpending hfuel hheader (Item.ofHeader_ty hsize)),
    parse_withNext_some, expect_self, hchild]
  rfl

theorem unsignedField_ok {minsz maxsz : Nat} {self self' : Handle} {v : Nat}
    {bs rest : List UInt8}
    (h : (nextVariant .unsigned (content (.intoUnsigned minsz maxsz))).act.parse self bs =
      some ((.ok v, self'), rest)) :
    exists used header bytes, bs = used ++ (header ++ (bytes ++ rest)) ∧
      self.reader.Pending used ∧
      decodeHeader header = some (.ok (.unsigned, bytes.length), []) ∧
      minsz ≤ bytes.length ∧ bytes.length ≤ maxsz ∧ v = beNat bytes ∧
      self.len = self'.len + 1 ∧ self'.reader = Reader.new := by
  rcases nextVariant_ok h with
    ⟨used, header, mid, size, item, hbs, hpending, hheader, _, hchild, hlen, hreader⟩
  rw [act_content] at hchild
  rcases Act.parse_bind_eq_ok hchild with ⟨bytes, item₁, mid₁, hinto, hpure⟩
  rcases intoBytes_ok hinto with ⟨hmid, hbytes, hmin, hmax, hitem⟩
  injection hpure with hpure
  injection hpure with hpure hrest
  injection hpure with hv hitem'
  injection hv with hv
  subst hmid hrest hitem hitem'
  dsimp only at hbytes hmin hmax
  rw [← hbytes] at hheader hmin hmax
  rw [beNat_fillBuf] at hv
  refine ⟨used, header, bytes, hbs, hpending, hheader, hmin, hmax, hv.symm, hlen, ?_⟩
  rw [hreader, Handle.drop_zero _ rfl]

theorem unsignedField_of_header {minsz maxsz : Nat} {r : Reader}
    {used header bytes : List UInt8} (len : Nat) (rest : List UInt8)
    (hpending : r.Pending used) (hfuel : used.length < Machine.fuel)
    (hheader : decodeHeader header = some (.ok (.unsigned, bytes.length), []))
    (hmin : minsz ≤ bytes.length) (hmax : bytes.length ≤ maxsz) :
    (nextVariant .unsigned (content (.intoUnsigned minsz maxsz))).act.parse
        { reader := r, len := len + 1 } (used ++ (header ++ (bytes ++ rest))) =
      some ((.ok (beNat bytes), { reader := Reader.new, len := len }), rest) := by
  have hchild : (content (.intoUnsigned minsz maxsz)).act.parse
      { reader := Reader.new, len := bytes.length } (bytes ++ rest) =
      some ((.ok (beNat bytes), { reader := Reader.new, len := 0 }), rest) := by
    rw [act_content]
    refine (parse_intoUnsigned minsz maxsz Reader.new bytes rest).trans ?_
    rw [if_pos ⟨hmin, hmax⟩]
  rw [nextVariant_of_header len hpending hfuel hheader (fun h => by cases h) hchild,
    Handle.drop_zero _ rfl]

end Reading

end Tlv
end Sml
end Smartmeter
