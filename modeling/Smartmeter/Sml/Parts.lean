import Smartmeter.Sml.ReadFrame
import Smartmeter.Sml.Tlv.Elements

/-!
# The parts of a message

A message as its bytes are passed through when a frame is read: the elements
that are left over of the message before it, the header of its list, the fields
in front of its body, the elements of the body and the two fields behind it.
-/

namespace Smartmeter
namespace Sml

open Foundation
open Frame (Feed)
open Tlv (Handle Ops Reader Skips decodeHeader decodeHeader_unique)

variable {δ σ ω : Type}

structure Front where
  idHeader : List UInt8
  id : List UInt8
  groupHeader : List UInt8
  group : UInt8
  abortHeader : List UInt8
  abort : UInt8
  bodyHeader : List UInt8
deriving DecidableEq

structure Back where
  crcHeader : List UInt8
  c0 : UInt8
  c1 : UInt8
  marker : List UInt8
deriving DecidableEq

/-- `more` elements are declared beyond the six of a message. -/
structure Parts where
  skipped : List UInt8
  header : List UInt8
  more : Nat
  front : Front
  body : List UInt8
  back : Back
deriving DecidableEq

def Front.bytes (m : Front) : List UInt8 :=
  m.idHeader ++ (m.id ++ (m.groupHeader ++ ([m.group] ++ (m.abortHeader ++
    ([m.abort] ++ m.bodyHeader)))))

def Back.bytes (m : Back) : List UInt8 :=
  m.crcHeader ++ ([m.c0, m.c1] ++ m.marker)

def Parts.covered (m : Parts) : List UInt8 :=
  m.skipped ++ (m.header ++ (m.front.bytes ++ m.body))

def Parts.bytes (m : Parts) : List UInt8 := m.covered ++ m.back.bytes

variable [Machine]

structure Front.Shape (len : Nat) (m : Front) : Prop where
  idHeader : decodeHeader m.idHeader = some (.ok (.string, m.id.length), [])
  id : m.id ≠ []
  groupHeader : decodeHeader m.groupHeader = some (.ok (.unsigned, 1), [])
  abortHeader : decodeHeader m.abortHeader = some (.ok (.unsigned, 1), [])
  bodyHeader : decodeHeader m.bodyHeader = some (.ok (.list, len), [])

structure Back.Shape (m : Back) : Prop where
  crcHeader : decodeHeader m.crcHeader = some (.ok (.unsigned, 2), [])
  marker : decodeHeader m.marker = some (.error .endOfSmlMessage, [])

/--
A message that is passed through: `pending` elements are left over of the
message before it.
-/
structure Parts.Shape (pending : Nat) (m : Parts) : Prop where
  skipped : Skips pending m.skipped
  header : decodeHeader m.header = some (.ok (.list, 6 + m.more), [])
  front : m.front.Shape 2
  back : m.back.Shape

/-!
## There is one way to pass through a message
-/

namespace Tlv

theorem Skips.unique {num : Nat} {bs bs' rest rest' : List UInt8} (h : Skips num bs)
    (h' : Skips num bs') (heq : bs ++ rest = bs' ++ rest') : bs = bs' ∧ rest = rest' := by
  induction h generalizing bs' with
  | nil =>
      rw [Skips.zero_iff.mp h'] at heq ⊢
      exact ⟨rfl, heq⟩
  | @item num len ty header payload tail hheader hty hpayload hrest ih =>
      cases h' with
      | @item _ len' ty' header' payload' tail' hheader' hty' hpayload' hrest' =>
          rw [List.append_assoc, List.append_assoc, List.append_assoc, List.append_assoc] at heq
          rcases decodeHeader_unique hheader hheader' heq with ⟨hh, hx, htail⟩
          injection hx with hx
          injection hx with _ hlen
          have hsame : payload.length = payload'.length := by rw [hpayload, hpayload', hlen]
          rcases List.append_inj htail hsame with ⟨hp, htail⟩
          rcases ih hrest' htail with ⟨ht, hend⟩
          rw [hh, hp, ht]
          exact ⟨rfl, hend⟩
      | @list _ len' header' tail' hheader' hrest' =>
          rw [List.append_assoc, List.append_assoc, List.append_assoc] at heq
          rcases decodeHeader_unique hheader hheader' heq with ⟨_, hx, _⟩
          injection hx with hx
          injection hx with hty'
          exact absurd hty' hty
  | @list num len header tail hheader hrest ih =>
      cases h' with
      | @item _ len' ty' header' payload' tail' hheader' hty' hpayload' hrest' =>
          rw [List.append_assoc, List.append_assoc, List.append_assoc] at heq
          rcases decodeHeader_unique hheader hheader' heq with ⟨_, hx, _⟩
          injection hx with hx
          injection hx with hty
          exact absurd hty.symm hty'
      | @list _ len' header' tail' hheader' hrest' =>
          rw [List.append_assoc, List.append_assoc] at heq
          rcases decodeHeader_unique hheader hheader' heq with ⟨hh, hx, htail⟩
          injection hx with hx
          injection hx with _ hlen
          subst hlen
          rcases ih hrest' htail with ⟨ht, hend⟩
          rw [hh, ht]
          exact ⟨rfl, hend⟩

end Tlv

theorem Front.Shape.unique {m m' : Front} {rest rest' : List UInt8} {len len' : Nat}
    (h : m.Shape len) (h' : m'.Shape len') (heq : m.bytes ++ rest = m'.bytes ++ rest') :
    m = m' ∧ rest = rest' := by
  rcases m with ⟨idHeader, id, groupHeader, group, abortHeader, abort, bodyHeader⟩
  rcases m' with ⟨idHeader', id', groupHeader', group', abortHeader', abort', bodyHeader'⟩
  simp only [Front.bytes, List.append_assoc] at heq
  rcases decodeHeader_unique h.idHeader h'.idHeader heq with ⟨h₁, hlen, heq⟩
  injection hlen with hlen
  injection hlen with _ hlen
  rcases List.append_inj heq hlen with ⟨h₂, heq⟩
  rcases decodeHeader_unique h.groupHeader h'.groupHeader heq with ⟨h₃, _, heq⟩
  rcases List.cons_eq_cons.mp heq with ⟨h₄, heq⟩
  rcases decodeHeader_unique h.abortHeader h'.abortHeader heq with ⟨h₅, _, heq⟩
  rcases List.cons_eq_cons.mp heq with ⟨h₆, heq⟩
  rcases decodeHeader_unique h.bodyHeader h'.bodyHeader heq with ⟨h₇, _, heq⟩
  refine ⟨?_, heq⟩
  dsimp only at h₁ h₂ h₃ h₅ h₇
  rw [h₁, h₂, h₃, h₄, h₅, h₆, h₇]

theorem Back.Shape.unique {m m' : Back} {rest rest' : List UInt8} (h : m.Shape)
    (h' : m'.Shape) (heq : m.bytes ++ rest = m'.bytes ++ rest') : m = m' ∧ rest = rest' := by
  rcases m with ⟨crcHeader, c0, c1, marker⟩
  rcases m' with ⟨crcHeader', c0', c1', marker'⟩
  simp only [Back.bytes, List.append_assoc] at heq
  rcases decodeHeader_unique h.crcHeader h'.crcHeader heq with ⟨h₁, _, heq⟩
  rcases List.cons_eq_cons.mp heq with ⟨h₂, heq⟩
  rcases List.cons_eq_cons.mp heq with ⟨h₃, heq⟩
  rcases decodeHeader_unique h.marker h'.marker heq with ⟨h₄, _, heq⟩
  refine ⟨?_, heq⟩
  dsimp only at h₁ h₄
  rw [h₁, h₂, h₃, h₄]

theorem Parts.Shape.unique_front {m m' : Parts} {pending : Nat} {rest rest' : List UInt8}
    (h : m.Shape pending) (h' : m'.Shape pending) (heq : m.bytes ++ rest = m'.bytes ++ rest') :
    (m.skipped = m'.skipped ∧ m.header = m'.header ∧ m.more = m'.more ∧ m.front = m'.front) ∧
      m.body ++ (m.back.bytes ++ rest) = m'.body ++ (m'.back.bytes ++ rest') := by
  simp only [Parts.bytes, Parts.covered, List.append_assoc] at heq
  rcases h.skipped.unique h'.skipped heq with ⟨h₁, heq⟩
  rcases decodeHeader_unique h.header h'.header heq with ⟨h₂, hmore, heq⟩
  injection hmore with hmore
  injection hmore with _ hmore
  rcases h.front.unique h'.front heq with ⟨h₃, heq⟩
  exact ⟨⟨h₁, h₂, Nat.add_left_cancel hmore, h₃⟩, heq⟩

theorem Parts.Shape.unique {m m' : Parts} {pending : Nat} {rest rest' : List UInt8}
    (h : m.Shape pending) (h' : m'.Shape pending) (hbody : Skips 2 m.body)
    (hbody' : Skips 2 m'.body) (heq : m.bytes ++ rest = m'.bytes ++ rest') :
    m = m' ∧ rest = rest' := by
  rcases h.unique_front h' heq with ⟨⟨h₁, h₂, h₃, h₄⟩, heq⟩
  rcases hbody.unique hbody' heq with ⟨h₅, heq⟩
  rcases h.back.unique h'.back heq with ⟨h₆, hrest⟩
  rcases m with ⟨skipped, header, more, front, body, back⟩
  rcases m' with ⟨skipped', header', more', front', body', back'⟩
  dsimp only at h₁ h₂ h₃ h₄ h₅ h₆
  rw [h₁, h₂, h₃, h₄, h₅, h₆]
  exact ⟨rfl, hrest⟩

/-!
## Passing through the fields
-/

theorem front_ok {size len : Nat} {self' : Handle} {bs rest : List UInt8}
    (h : front.parse { reader := Reader.new, len := size } bs = some ((.ok len, self'), rest)) :
    exists m : Front, m.Shape len ∧ bs = m.bytes ++ rest ∧
      size = self'.len + 4 ∧ self'.reader = Reader.new := by
  rcases Act.parse_bind_eq_ok h with ⟨_, h₁, bs₁, hid, h⟩
  rcases Act.parse_bind_eq_ok h with ⟨_, h₂, bs₂, hgroup, h⟩
  rcases Act.parse_bind_eq_ok h with ⟨_, h₃, bs₃, habort, hbody⟩
  rcases Tlv.Reading.nextVariant_ok hid with
    ⟨used, idHeader, mid, idLen, item, hbs, hused, hidHeader, hne, hchild, hlen₁, hreader₁⟩
  rw [Reader.Pending.new_iff.mp hused, List.nil_append] at hbs
  cases hchild
  rcases Tlv.Reading.unsignedField_ok hgroup with
    ⟨used₂, groupHeader, groupBytes, hbs₂, hused₂, hgroupHeader, hmin₂, hmax₂, _, hlen₂, hreader₂⟩
  rcases Tlv.Reading.unsignedField_ok habort with
    ⟨used₃, abortHeader, abortBytes, hbs₃, hused₃, habortHeader, hmin₃, hmax₃, _, hlen₃, hreader₃⟩
  rcases Tlv.List.nextVariant_ok hbody with
    ⟨used₄, bodyHeader, hbs₄, hused₄, hbodyHeader, _, hlen₄, hreader₄⟩
  rw [hreader₁, Handle.drop_bytes (by decide) (Tlv.decodeHeader_lt hidHeader)] at hused₂
  rw [hreader₂] at hused₃
  rw [hreader₃] at hused₄
  rw [Reader.Pending.new_iff.mp hused₃, List.nil_append] at hbs₃
  rw [Reader.Pending.new_iff.mp hused₄, List.nil_append] at hbs₄
  rcases hused₂ with ⟨id, tlvs, hid₂, hidLen, htlvs⟩
  rw [Skips.zero_iff.mp htlvs, List.append_nil] at hid₂
  rcases List.length_eq_one_iff.mp (Nat.le_antisymm hmax₂ hmin₂) with ⟨group, hgroup'⟩
  rcases List.length_eq_one_iff.mp (Nat.le_antisymm hmax₃ hmin₃) with ⟨abort, habort'⟩
  subst hgroup' habort' hid₂
  dsimp only at hidLen hlen₁
  subst hidLen
  refine ⟨{ idHeader := idHeader, id := used₂, groupHeader := groupHeader, group := group,
            abortHeader := abortHeader, abort := abort, bodyHeader := bodyHeader },
    ⟨hidHeader, ?_, hgroupHeader, habortHeader, hbodyHeader⟩, ?_, by lia, hreader₄⟩
  · intro hnil
    exact hne rfl (List.length_eq_zero_iff.mpr hnil)
  · rw [hbs, hbs₂, hbs₃, hbs₄]
    simp only [Front.bytes, List.append_assoc]

theorem front_of_shape {m : Front} {len : Nat} (h : m.Shape len) (size : Nat)
    (rest : List UInt8) (hfuel : m.id.length < Machine.fuel) :
    front.parse { reader := Reader.new, len := size + 4 } (m.bytes ++ rest) =
      some ((.ok len, { reader := Reader.new, len := size }), rest) := by
  have hnone : Reader.new.Pending [] := Reader.Pending.new_iff.mpr rfl
  have hpos : ([] : List UInt8).length < Machine.fuel :=
    Nat.lt_of_lt_of_le (by decide) Machine.fuel_ge
  have hpending : ({ remainingBytes := m.id.length, remainingTlvs := 0 } : Reader).Pending m.id :=
    ⟨m.id, [], (List.append_nil _).symm, rfl, .nil⟩
  have hskip : (pure () : Tlv.Reading .string Unit).act.parse
      { reader := Reader.new, len := m.id.length }
      (m.id ++ (m.groupHeader ++ ([m.group] ++ (m.abortHeader ++ ([m.abort] ++
        (m.bodyHeader ++ rest)))))) =
      some ((.ok (), { reader := Reader.new, len := m.id.length }),
        m.id ++ (m.groupHeader ++ ([m.group] ++ (m.abortHeader ++ ([m.abort] ++
          (m.bodyHeader ++ rest)))))) := Act.parse_pure _ _ _
  have hone (x : UInt8) : [x].length = 1 := rfl
  have hid := Tlv.Reading.nextVariant_of_header (size + 3) hnone hpos h.idHeader
    (fun _ hzero => h.id (List.length_eq_zero_iff.mp hzero)) hskip
  rw [Handle.drop_bytes (by decide) (Tlv.decodeHeader_lt h.idHeader)] at hid
  have hgroup := Tlv.Reading.unsignedField_of_header (size + 2)
    (m.abortHeader ++ ([m.abort] ++ (m.bodyHeader ++ rest))) hpending hfuel h.groupHeader
    (hone m.group).ge (hone m.group).le
  have habort := Tlv.Reading.unsignedField_of_header (size + 1) (m.bodyHeader ++ rest) hnone hpos
    h.abortHeader (hone m.abort).ge (hone m.abort).le
  have hbody : (Tlv.List.nextVariant .list).parse { reader := Reader.new, len := size + 1 }
      ([] ++ (m.bodyHeader ++ rest)) =
      some ((.ok len, { reader := Reader.new, len := size }), rest) :=
    Tlv.List.nextVariant_of_header size rest hnone hpos h.bodyHeader fun hkind => by cases hkind
  have hbytes : m.bytes ++ rest = [] ++ (m.idHeader ++ (m.id ++ (m.groupHeader ++
      ([m.group] ++ (m.abortHeader ++ ([m.abort] ++ (m.bodyHeader ++ rest))))))) := by
    simp only [Front.bytes, List.append_assoc, List.nil_append]
  unfold front
  rw [hbytes]
  refine (Act.parse_bind_ok hid).trans ?_
  refine (Act.parse_bind_ok hgroup).trans ?_
  refine (Act.parse_bind_ok habort).trans ?_
  exact hbody

theorem crc16_of_shape {m : Back} (h : m.Shape) (size : Nat) (rest : List UInt8) :
    (reading Types.Message.crc16).parse { reader := Reader.new, len := size + 1 }
        (m.crcHeader ++ [m.c0, m.c1] ++ rest) =
      some ((.ok (256 * m.c0.toNat + m.c1.toNat), { reader := Reader.new, len := size }),
        rest) := by
  have hpos : ([] : List UInt8).length < Machine.fuel :=
    Nat.lt_of_lt_of_le (by decide) Machine.fuel_ge
  have htwo : [m.c0, m.c1].length = 2 := rfl
  have hparse := Tlv.Reading.unsignedField_of_header size rest (Reader.Pending.new_iff.mpr rfl)
    hpos h.crcHeader htwo.ge htwo.le
  rw [List.append_assoc, ← beNat_pair]
  exact hparse

theorem endOfSmlMsg_of_shape {m : Back} (h : m.Shape) (size : Nat) (rest : List UInt8) :
    (reading Types.Message.endOfSmlMsg).parse { reader := Reader.new, len := size + 1 }
        (m.marker ++ rest) =
      some ((.ok (), { reader := Reader.new, len := size }), rest) := by
  have hparse := Tlv.List.nextEnd_of_marker size rest (Reader.Pending.new_iff.mpr rfl)
    (Nat.lt_of_lt_of_le (by decide) Machine.fuel_ge) h.marker
  rw [reading_eq]
  change (Tlv.Reading.act Tlv.Reading.nextEnd).parse _ _ = _
  rw [Tlv.Reading.act_nextEnd]
  exact hparse

theorem skipNow_of_pending {reader : Reader} {used : List UInt8} (h : reader.Pending used)
    (hfuel : used.length < Machine.fuel) (size : Nat) (rest : List UInt8) :
    (Handle.withReader Reader.skipNow).parse { reader := reader, len := size } (used ++ rest) =
      some ((.ok (), { reader := Reader.new, len := size }), rest) := by
  unfold Handle.withReader
  rw [Act.parse_borrow, Reader.skipNow_of_pending rest h hfuel]
  rfl

def Back.verdict (m : Back) (crcCalc : UInt16) : Except Error Unit :=
  if Frame.swapBytes (UInt16.ofNat (256 * m.c0.toNat + m.c1.toNat)) ≠ crcCalc then
    .error (.checksumMismatch (UInt16.ofNat (256 * m.c0.toNat + m.c1.toNat)) crcCalc)
  else .ok ()

omit [Machine] in
theorem Back.verdict_eq_ok {m : Back} {crcCalc : UInt16} :
    m.verdict crcCalc = .ok () <-> crcCalc.toNat = m.c0.toNat + 256 * m.c1.toNat := by
  unfold Back.verdict
  rw [← toNat_swapBytes]
  by_cases h : Frame.swapBytes (UInt16.ofNat (256 * m.c0.toNat + m.c1.toNat)) = crcCalc
  · rw [if_neg (not_not_intro h), h]
    exact ⟨fun _ => rfl, fun _ => rfl⟩
  · rw [if_pos h]
    constructor
    · intro hok
      cases hok
    · intro heq
      exact absurd (UInt16.toNat_inj.mp heq).symm h

theorem closing_run [Digest δ] {feed : Feed} {start n : Nat} {t : Stream δ ω}
    (h : Stream.At feed start n t) {reader : Reader} {used rest : List UInt8} {m : Back}
    (hbytes : feed.bytes.drop n = used ++ (m.bytes ++ rest)) (hpending : reader.Pending used)
    (hfuel : used.length < Machine.fuel) (hm : m.Shape) (size : Nat) (s : σ) :
    exists t' unread,
      (closing ({ reader := reader, len := size + 2 }, s)).run Stream.handler t =
        .done (m.verdict (Digest.checksum δ ((feed.bytes.take (n + used.length)).drop start)),
          ({ reader := Reader.new, len := size }, s)) t' ∧
      Stream.At feed (n + used.length) (n + used.length + m.bytes.length) t' ∧
      t'.log = t.log ++
        [{ mark := .finalize
             (Digest.checksum δ ((feed.bytes.take (n + used.length)).drop start)),
           unread := unread, taken := feed.bytes.take (n + used.length) }] := by
  rcases onList_of_parse (s := s) h hbytes (skipNow_of_pending hpending hfuel (size + 2) _) with
    ⟨t₁, hrun₁, hat₁, hlog₁, hbytes₁⟩
  rcases hat₁.finalize with ⟨hcalc, hat₂, hlog₂⟩
  have hback : m.bytes ++ rest = m.crcHeader ++ [m.c0, m.c1] ++ (m.marker ++ rest) := by
    simp only [Back.bytes, List.append_assoc]
  rw [hback] at hbytes₁
  rcases onList_of_parse (s := s) hat₂ hbytes₁ (crc16_of_shape hm (size + 1) _) with
    ⟨t₃, hrun₃, hat₃, hlog₃, hbytes₃⟩
  rcases onList_of_parse (s := s) hat₃ hbytes₃ (endOfSmlMsg_of_shape hm size rest) with
    ⟨t₄, hrun₄, hat₄, hlog₄, _⟩
  have hfinal : (perform .finalize ({ reader := Reader.new, len := size + 2 }, s) :
      Prog (TaskSig ω) (Except Error UInt16 × (Handle × σ))).run Stream.handler t₁ =
        .done (.ok t₁.finalize.1, ({ reader := Reader.new, len := size + 2 }, s))
          t₁.finalize.2 := rfl
  refine ⟨t₄, t₁.unread, ?_, ?_, ?_⟩
  · unfold closing
    rw [Act.run_bind_of_ok hrun₁, Act.run_bind_of_ok hfinal, Act.run_bind_of_ok hrun₃,
      Act.run_bind_of_ok hrun₄, hcalc]
    unfold Back.verdict
    split <;> rfl
  · have hlen : n + used.length + (m.crcHeader ++ [m.c0, m.c1]).length + m.marker.length =
        n + used.length + m.bytes.length := by
      simp only [Back.bytes, List.length_append]
      lia
    rw [← hlen]
    exact hat₄
  · rw [hlog₄, hlog₃, hlog₂, hlog₁]

/-!
## Passing through a message
-/

section

variable [Digest δ] {feed : Feed} {start n : Nat} {t : Stream δ ω}

/--
The body was passed to the callback, which has read some bytes of it; what is
left is pending.
-/
structure Received (feed : Feed) (start n : Nat) (body : List UInt8) (t : Stream δ ω)
    (reader : Reader) (t' : Stream δ ω) : Prop where
  taken : exists k, k ≤ body.length ∧ Stream.At feed start (n + k) t' ∧
    reader.Pending (body.drop k)
  log : t'.log = t.log ++
    [{ mark := .call .messageReceived, unread := t.unread, taken := feed.bytes.take n }]

theorem message_run (h : Stream.At feed start n t) {cb : Callback σ ω} {s s' : σ} {size : Nat}
    {front : Front} {body : List UInt8} {back : Back} {rest : List UInt8}
    (hbytes : feed.bytes.drop n = front.bytes ++ (body ++ (back.bytes ++ rest)))
    (hfront : front.Shape 2) (hback : back.Shape) (hfuel : feed.bytes.length < Machine.fuel)
    (hreceived : forall t₁ : Stream δ ω, Stream.At feed start (n + front.bytes.length) t₁ ->
      exists reader t₂, (received cb 2 ({ reader := Reader.new, len := size + 2 }, s)).run
          Stream.handler t₁ = .done (.ok (), ({ reader := reader, len := size + 2 }, s')) t₂ ∧
        Received feed start (n + front.bytes.length) body t₁ reader t₂) :
    exists t' u₀ u₁,
      (message cb ({ reader := Reader.new, len := size + 6 }, s)).run Stream.handler t =
        .done (back.verdict (Digest.checksum δ
          ((feed.bytes.take (n + front.bytes.length + body.length)).drop start)),
          ({ reader := Reader.new, len := size }, s')) t' ∧
      Stream.At feed (n + front.bytes.length + body.length)
        (n + front.bytes.length + body.length + back.bytes.length) t' ∧
      t'.log = t.log ++
        [{ mark := .call .messageReceived, unread := u₀,
           taken := feed.bytes.take (n + front.bytes.length) },
          { mark := .finalize (Digest.checksum δ
              ((feed.bytes.take (n + front.bytes.length + body.length)).drop start)),
            unread := u₁,
            taken := feed.bytes.take (n + front.bytes.length + body.length) }] := by
  have hshort : forall used rest', feed.bytes.drop n = used ++ rest' ->
      used.length < Machine.fuel := by
    intro used rest' hused
    have hlen := congrArg List.length hused
    rw [List.length_drop, List.length_append] at hlen
    lia
  have hid : front.id.length < Machine.fuel := by
    have hfront' := hshort _ _ hbytes
    simp only [Front.bytes, List.length_append] at hfront'
    lia
  rcases onList_of_parse (s := s) h hbytes (front_of_shape hfront (size + 2) _ hid) with
    ⟨t₁, hrun₁, hat₁, hlog₁, hbytes₁⟩
  rcases hreceived t₁ hat₁ with ⟨reader, t₂, hrun₂, ⟨k, hk, hat₂, hpending⟩, hlog₂⟩
  have hbytes₂ : feed.bytes.drop (n + front.bytes.length + k) =
      body.drop k ++ (back.bytes ++ rest) := by
    rw [← List.drop_drop, hbytes₁, List.drop_append_of_le_length hk]
  have hbody : n + front.bytes.length + k + (body.drop k).length =
      n + front.bytes.length + body.length := by
    rw [List.length_drop]
    lia
  have hfuel₂ : (body.drop k).length < Machine.fuel := by
    have hbody' := hshort (front.bytes ++ body) (back.bytes ++ rest) (by
      rw [hbytes, List.append_assoc])
    rw [List.length_append] at hbody'
    rw [List.length_drop]
    lia
  rcases closing_run hat₂ hbytes₂ hpending hfuel₂ hback size s' with
    ⟨t₃, u₁, hrun₃, hat₃, hlog₃⟩
  rw [hbody] at hrun₃ hat₃ hlog₃
  refine ⟨t₃, t₁.unread, u₁, ?_, hat₃, ?_⟩
  · rw [message_eq, Act.run_bind_of_ok hrun₁, Act.run_bind_of_ok hrun₂]
    exact hrun₃
  · rw [hlog₃, hlog₂, hlog₁, List.append_assoc]
    rfl

theorem readList_run (h : Stream.At feed start n t) {skipped header rest : List UInt8}
    {pending len : Nat} (hbytes : feed.bytes.drop n = skipped ++ (header ++ rest))
    (hskipped : Skips pending skipped)
    (hheader : decodeHeader header = some (.ok (.list, len), []))
    (hfuel : feed.bytes.length < Machine.fuel) (s : σ) :
    exists t', (Act.borrow Prod.fst (fun r x => (r, x.2)) (onMessages Reader.readList)
        ({ remainingBytes := 0, remainingTlvs := pending }, s) :
        Prog (TaskSig ω) (Except Error Nat × (Reader × σ))).run Stream.handler t =
          .done (.ok len, (Reader.new, s)) t' ∧
      Stream.At feed start (n + skipped.length + header.length) t' ∧ t'.log = t.log ∧
      feed.bytes.drop (n + skipped.length + header.length) = rest := by
  have hpending : ({ remainingBytes := 0, remainingTlvs := pending } : Reader).Pending skipped :=
    ⟨[], skipped, rfl, rfl, hskipped⟩
  have hshort : skipped.length < Machine.fuel := by
    have hlen := congrArg List.length hbytes
    rw [List.length_drop, List.length_append] at hlen
    lia
  have hparse := Reader.readList_of_header rest hpending hshort hheader
  rw [← List.append_assoc] at hparse hbytes
  rcases h.run_of_parse hbytes hparse with ⟨t', hrun, hat, hlog⟩
  rw [List.length_append, ← Nat.add_assoc] at hat
  refine ⟨t', ?_, hat, hlog, ?_⟩
  · apply Act.run_borrow_of_done (y := Reader.new)
    rw [Stream.run_onMessages]
    exact hrun
  · rw [Nat.add_assoc, ← List.length_append, ← List.drop_drop, hbytes, List.drop_left]

def Entry.seen (e : Entry ω) : Mark ω × List UInt8 := (e.mark, e.taken)

theorem readFrameLoop_run (h : Stream.At feed n n t) (hended : t.hasEnded = false)
    {cb : Callback σ ω} {s s' : σ} {pending : Nat} {m : Parts} {rest : List UInt8}
    (hbytes : feed.bytes.drop n = m.bytes ++ rest) (hm : m.Shape pending)
    (hfuel : feed.bytes.length < Machine.fuel) {call : Nat}
    (hcall : call = n + m.skipped.length + m.header.length + m.front.bytes.length)
    (hreceived : forall t₁ : Stream δ ω, Stream.At feed n call t₁ ->
      exists reader t₂, (received cb 2 ({ reader := Reader.new, len := m.more + 2 }, s)).run
          Stream.handler t₁ = .done (.ok (), ({ reader := reader, len := m.more + 2 }, s')) t₂ ∧
        Received feed n call m.body t₁ reader t₂) :
    exists t' part,
      (readFrameLoop cb () ({ remainingBytes := 0, remainingTlvs := pending }, s)).run
          Stream.handler t =
        (match m.back.verdict (Digest.checksum δ m.covered) with
          | .ok () => .done (.ok (.inl ()),
              ({ remainingBytes := 0, remainingTlvs := m.more }, s')) t'.reset
          | .error e => .done (.error e,
              ({ remainingBytes := 0, remainingTlvs := m.more }, s')) t') ∧
      Stream.At feed (n + m.covered.length) (n + m.bytes.length) t' ∧
      t'.log = t.log ++ part ∧
      part.map Entry.seen =
        [(.call .messageReceived, feed.bytes.take call),
          (.finalize (Digest.checksum δ m.covered),
            feed.bytes.take (n + m.covered.length))] := by
  have hsplit : feed.bytes.drop n = m.skipped ++ (m.header ++ (m.front.bytes ++
      (m.body ++ (m.back.bytes ++ rest)))) := by
    rw [hbytes]
    simp only [Parts.bytes, Parts.covered, List.append_assoc]
  rcases readList_run h hsplit hm.skipped hm.header hfuel s with ⟨t₁, hrun₁, hat₁, hlog₁, hbytes₁⟩
  subst hcall
  rcases message_run hat₁ hbytes₁ hm.front hm.back hfuel hreceived with
    ⟨t₂, u₀, u₁, hrun₂, hat₂, hlog₂⟩
  have hcovered : n + m.skipped.length + m.header.length + m.front.bytes.length +
      m.body.length = n + m.covered.length := by
    simp only [Parts.covered, List.length_append]
    lia
  have hlen : n + m.covered.length + m.back.bytes.length = n + m.bytes.length := by
    rw [Parts.bytes, List.length_append]
    lia
  have htake : (feed.bytes.take (n + m.covered.length)).drop n = m.covered := by
    rw [List.drop_take, Nat.add_sub_cancel_left, hbytes, Parts.bytes, List.append_assoc,
      List.take_left]
  rw [hcovered, htake] at hrun₂ hlog₂
  rw [hcovered, hlen] at hat₂
  have hmore : Handle.drop .list { reader := Reader.new, len := m.more } =
      { remainingBytes := 0, remainingTlvs := m.more } :=
    Handle.drop_list_new (Nat.lt_of_le_of_lt (Nat.le_add_left _ 6) (Tlv.decodeHeader_lt hm.header))
  have hlist : (withList (6 + m.more) (message cb) (Reader.new, s)).run Stream.handler t₁ =
      .done (m.back.verdict (Digest.checksum δ m.covered),
        ({ remainingBytes := 0, remainingTlvs := m.more }, s')) t₂ := by
    rw [← hmore, Nat.add_comm]
    unfold withList
    refine Act.run_borrow_of_done (y := (Handle.mk Reader.new m.more, s')) ?_
    exact hrun₂
  have hopen : (perform .hasEnded ({ remainingBytes := 0, remainingTlvs := pending }, s) :
      Prog (TaskSig ω) (Except Error Bool × (Reader × σ))).run Stream.handler t =
        .done (.ok false, ({ remainingBytes := 0, remainingTlvs := pending }, s)) t := by
    rw [← hended]
    rfl
  refine ⟨t₂, _, ?_, hat₂, hlog₂.trans (by rw [hlog₁]), rfl⟩
  unfold readFrameLoop
  rw [Act.run_bind_of_ok hopen, if_neg Bool.false_ne_true, Act.run_bind_of_ok hrun₁]
  cases hverdict : m.back.verdict (Digest.checksum δ m.covered) with
  | ok _ =>
      rw [hverdict] at hlist
      rw [Act.run_bind_of_ok hlist]
      rfl
  | error e =>
      rw [hverdict] at hlist
      exact Act.run_bind_of_error hlist

end

end Sml
end Smartmeter
