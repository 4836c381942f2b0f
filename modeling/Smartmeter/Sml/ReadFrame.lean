import Smartmeter.Sml.Position
import Smartmeter.Sml.Tlv.Items

/-!
# The steps of reading a frame

A message is read in three steps, the fields in front of its body, the body,
and the fields behind it, and its checksum is taken in between.  What each step
has done when the message was accepted is said once here.
-/

namespace Smartmeter
namespace Sml

open Foundation
open Frame (Feed)
open Tlv (Handle Ops Reader decodeHeader)

variable {σ τ ω α β : Type}

/-!
## Methods on the list of a message
-/

theorem onMessages_bind (p : Act Ops Error τ α) (f : α -> Act Ops Error τ β) :
    onMessages (ω := ω) (p >>= f) = onMessages p >>= fun a => onMessages (f a) := by
  funext t
  rw [Act.bind_apply]
  unfold onMessages
  rw [Act.bind_apply, Prog.embed_bind]
  congr 1
  funext x
  rcases x with ⟨r, t'⟩
  cases r <;> rfl

theorem onList_bind (p : Act Ops Error Handle α) (f : α -> Act Ops Error Handle β) :
    onList (σ := σ) (ω := ω) (p >>= f) = onList p >>= fun a => onList (f a) := by
  funext t
  unfold onList
  rw [onMessages_bind, Act.borrow_apply, Act.bind_apply, Act.bind_apply, Act.borrow_apply,
    Prog.bind_assoc, Prog.bind_assoc]
  congr 1
  funext x
  rcases x with ⟨r, h⟩
  cases r <;> rfl

variable {δ : Type} [Digest δ]

theorem onList_ok {p : Act Ops Error Handle α} {x x' : Handle × σ} {t t' : Stream δ ω} {a : α}
    (h : (onList p x).run Stream.handler t = .done (.ok a, x') t') :
    (p x.1).run Stream.read t = .done (.ok a, x'.1) t' ∧ x'.2 = x.2 := by
  rcases Act.run_borrow_ok h with ⟨handle, hrun, hx'⟩
  rw [Stream.run_onMessages] at hrun
  rw [hx']
  exact ⟨hrun, rfl⟩

theorem onList_of_done {p : Act Ops Error Handle α} {handle handle' : Handle} {s : σ}
    {t t' : Stream δ ω} {r : Except Error α}
    (h : (p handle).run Stream.read t = .done (r, handle') t') :
    (onList p (handle, s)).run Stream.handler t = .done (r, (handle', s)) t' := by
  apply Act.run_borrow_of_done
  rw [Stream.run_onMessages]
  exact h

/-!
## The end of a frame
-/

theorem Stream.At.sent_of_hasEnded {s : List UInt8} {start n : Nat} {t : Stream δ ω}
    (h : Stream.At (Stream.frameFeed δ s) start n t) (hended : t.hasEnded = true) :
    exists f : Frame.Sent δ, s = f.bytes ++ t.unread ∧
      (Stream.frameFeed δ s).bytes = f.payload ∧ n = f.payload.length ∧ n ≠ 0 := by
  rw [h.hasEnded] at hended
  by_cases hzero : n = 0
  · rw [hzero, Feed.advance_zero] at hended
    cases hended
  · rw [Feed.advance_pos hzero] at hended
    rcases Bool.and_eq_true_iff.mp hended with ⟨hempty, hsuccess⟩
    cases hending : (Frame.decodeFrame δ s).ending with
    | success rest =>
        rcases Frame.decodeFrame_success_iff.mp ⟨rfl, hending⟩ with ⟨f, hs, hpayload⟩
        have hbytes : (Stream.frameFeed δ s).bytes = f.payload := hpayload.symm
        have hlen : n = f.payload.length := by
          have hle := h.le
          have hdrop := List.drop_eq_nil_iff.mp (List.isEmpty_iff.mp hempty)
          rw [← Feed.bytes_length, hbytes] at hdrop
          rw [hbytes] at hle
          exact Nat.le_antisymm hle hdrop
        refine ⟨f, ?_, hbytes, hlen, hzero⟩
        have hunread : t.unread = rest := by
          rw [h.unread]
          refine Feed.advance_all_unread hending hzero ?_
          rw [hlen, ← hbytes, Feed.bytes_length]
          rfl
        rw [hunread]
        exact hs
    | failure e rest =>
        change (Frame.decodeFrame δ s).ending.isSuccess = true at hsuccess
        rw [hending] at hsuccess
        cases hsuccess
    | starved =>
        change (Frame.decodeFrame δ s).ending.isSuccess = true at hsuccess
        rw [hending] at hsuccess
        cases hsuccess

theorem frameFeed_sent (f : Frame.Sent δ) (rest : List UInt8) :
    (Stream.frameFeed δ (f.bytes ++ rest)).bytes = f.payload ∧
      (Frame.decodeFrame δ (f.bytes ++ rest)).ending = .success rest :=
  Frame.decodeFrame_success_iff.mpr ⟨f, rfl, rfl⟩

theorem Stream.At.hasEnded_of_sent {f : Frame.Sent δ} {rest : List UInt8} {start n : Nat}
    {t : Stream δ ω} (h : Stream.At (Stream.frameFeed δ (f.bytes ++ rest)) start n t)
    (hpos : n ≠ 0) (hlen : n = f.payload.length) : t.hasEnded = true ∧ t.unread = rest := by
  rcases frameFeed_sent f rest with ⟨hbytes, hending⟩
  have hpend : n = (Frame.decodeFrame δ (f.bytes ++ rest)).pend.length := by
    rw [hlen, ← hbytes, Feed.bytes_length]
    rfl
  constructor
  · have hdrop : (Stream.frameFeed δ (f.bytes ++ rest)).pend.drop n = [] :=
      List.drop_eq_nil_iff.mpr (Nat.le_of_eq hpend.symm)
    have hsuccess : (Stream.frameFeed δ (f.bytes ++ rest)).ending.isSuccess = true := by
      change (Frame.decodeFrame δ (f.bytes ++ rest)).ending.isSuccess = true
      rw [hending]
      rfl
    rw [h.hasEnded, Feed.advance_pos hpos, hdrop, hsuccess]
    rfl
  · rw [h.unread]
    exact Feed.advance_all_unread hending hpos hpend

theorem Stream.At.not_hasEnded {s : List UInt8} {start n : Nat} {t : Stream δ ω}
    (h : Stream.At (Stream.frameFeed δ s) start n t)
    (hmore : (Stream.frameFeed δ s).bytes.drop n ≠ []) : t.hasEnded = false := by
  rw [h.hasEnded]
  by_cases hzero : n = 0
  · rw [hzero, Feed.advance_zero]
    rfl
  · rw [Feed.advance_pos hzero]
    have hdrop : (Stream.frameFeed δ s).pend.drop n ≠ [] := by
      intro hnil
      apply hmore
      rw [← Feed.advance_bytes]
      change ((Stream.frameFeed δ s).advance n).pend.map Prod.fst = []
      rw [Feed.advance_pend, hnil]
      rfl
    exact Bool.and_eq_false_imp.mpr fun hempty =>
      absurd (List.isEmpty_iff.mp hempty) hdrop

variable [Machine]

/-!
## The fields of a message
-/

theorem reading_eq {α : Type} (p : Tlv.Reading .list α) : reading p = p.act := rfl

theorem strict_transactionId {child : Tlv.Reading .string α} (h : Tlv.Strict child.act) :
    Tlv.Strict (reading (Types.Message.transactionId child)) :=
  Tlv.Reading.strict_nextVariant h

theorem strict_groupNo : Tlv.Strict (reading Types.Message.groupNo) :=
  Tlv.Reading.strict_nextVariant (Tlv.Reading.strict_content _)

theorem strict_abortOnError : Tlv.Strict (reading Types.Message.abortOnError) :=
  Tlv.Reading.strict_nextVariant (Tlv.Reading.strict_content _)

theorem strict_crc16 : Tlv.Strict (reading Types.Message.crc16) :=
  Tlv.Reading.strict_nextVariant (Tlv.Reading.strict_content _)

theorem strict_endOfSmlMsg : Tlv.Strict (reading Types.Message.endOfSmlMsg) := by
  rw [reading_eq]
  change Tlv.Strict (Tlv.Reading.act Tlv.Reading.nextEnd)
  rw [Tlv.Reading.act_nextEnd]
  exact Tlv.List.strict_nextEnd

theorem crc16_ok {self self' : Handle} {v : Nat} {bs rest : List UInt8}
    (h : (reading Types.Message.crc16).parse self bs = some ((.ok v, self'), rest)) :
    exists used header c0 c1, bs = used ++ (header ++ ([c0, c1] ++ rest)) ∧
      self.reader.Pending used ∧ decodeHeader header = some (.ok (.unsigned, 2), []) ∧
      v = 256 * UInt8.toNat c0 + UInt8.toNat c1 ∧
      self.len = self'.len + 1 ∧ self'.reader = Reader.new := by
  rcases Tlv.Reading.unsignedField_ok h with
    ⟨used, header, bytes, hbs, hpending, hheader, hmin, hmax, hv, hlen, hreader⟩
  rcases List.length_eq_two.mp (Nat.le_antisymm hmax hmin) with ⟨c0, c1, hbytes⟩
  subst hbytes
  refine ⟨used, header, c0, c1, hbs, hpending, hheader, ?_, hlen, hreader⟩
  rw [hv, beNat_pair]

theorem endOfSmlMsg_ok {self self' : Handle} {bs rest : List UInt8}
    (hself : self.reader = Reader.new)
    (h : (reading Types.Message.endOfSmlMsg).parse self bs = some ((.ok (), self'), rest)) :
    self.len = self'.len + 1 ∧ self'.reader = Reader.new ∧
      exists marker, bs = marker ++ rest ∧
        decodeHeader marker = some (.error .endOfSmlMessage, []) := by
  rcases self with ⟨reader, len⟩
  dsimp only at hself
  subst hself
  rw [reading_eq] at h
  change (Tlv.Reading.act Tlv.Reading.nextEnd).parse _ _ = _ at h
  rw [Tlv.Reading.act_nextEnd] at h
  exact Tlv.List.nextEnd_ok h

omit [Machine] in
theorem toNat_swapBytes (c0 c1 : UInt8) :
    (Frame.swapBytes (UInt16.ofNat (256 * c0.toNat + c1.toNat))).toNat =
      c0.toNat + 256 * c1.toNat :=
  Frame.toNat_swapBytes_fromBeBytes c0 c1

theorem skipNow_ok {self self' : Handle} {bs rest : List UInt8}
    (h : (Handle.withReader Reader.skipNow).parse self bs = some ((.ok (), self'), rest)) :
    self' = { self with reader := Reader.new } ∧
      exists used, bs = used ++ rest ∧ self.reader.Pending used := by
  unfold Handle.withReader at h
  rw [Act.parse_borrow] at h
  rcases Option.map_eq_some_iff.mp h with ⟨⟨⟨r, reader⟩, rest'⟩, hskip, heq⟩
  injection heq with heq hrest
  injection heq with hr hself
  subst hr hrest
  rcases Reader.skipNow_ok hskip with ⟨hreader, hused⟩
  exact ⟨hself ▸ hreader ▸ rfl, hused⟩

theorem strict_skipNow : Tlv.Strict (Handle.withReader Reader.skipNow) :=
  Handle.strict_withReader Reader.strict_skipNow

/-!
## The steps of a message
-/

def front : Act Ops Error Handle Nat := do
  reading (Types.Message.transactionId (pure ()))
  let _ ← reading Types.Message.groupNo
  let _ ← reading Types.Message.abortOnError
  Tlv.List.nextVariant .list

def received (cb : Callback σ ω) (len : Nat) : Act (TaskSig ω) Error (Handle × σ) Unit :=
  withReader <| withList len do
    if len ≠ 2 then Act.fail (.unsupportedLen len)
    else messageReceived cb

def closing : Act (TaskSig ω) Error (Handle × σ) Unit := do
  onList (Handle.withReader Reader.skipNow)
  let crcCalc ← perform .finalize
  let crcRec ← onList (reading Types.Message.crc16)
  onList (reading Types.Message.endOfSmlMsg)
  if Frame.swapBytes (UInt16.ofNat crcRec) ≠ crcCalc then
    Act.fail (.checksumMismatch (UInt16.ofNat crcRec) crcCalc)

theorem message_eq (cb : Callback σ ω) :
    message cb = onList front >>= fun len => received cb len >>= fun _ => closing := by
  unfold message messageBody front
  simp only [onList_bind, Act.bind_assoc]
  rfl

theorem strict_front : Tlv.Strict front := by
  have hskip : Tlv.Strict (pure () : Tlv.Reading .string Unit).act := .pure ()
  exact .bind (strict_transactionId hskip) fun _ =>
    .bind strict_groupNo fun _ =>
      .bind strict_abortOnError fun _ => Tlv.List.strict_nextVariant .list

section

variable {feed : Feed} {start n : Nat} {x x' : Handle × σ} {t t' : Stream δ ω}

omit [Machine] in
theorem onList_at {p : Act Ops Error Handle α} (hp : Tlv.Strict p)
    (h : Stream.At feed start n t) {a : α}
    (hrun : (onList p x).run Stream.handler t = .done (.ok a, x') t') :
    exists n', n ≤ n' ∧ Stream.At feed start n' t' ∧ t'.log = t.log ∧ x'.2 = x.2 ∧
      p.parse x.1 (feed.bytes.drop n) = some ((.ok a, x'.1), feed.bytes.drop n') := by
  rcases onList_ok hrun with ⟨hlist, hs⟩
  rcases h.read hp hlist with ⟨k, hat, hlog, hparse⟩
  exact ⟨n + k, Nat.le_add_right n k, hat, hlog, hs, hparse⟩

omit [Machine] in
theorem onList_of_parse {p : Act Ops Error Handle α} {handle handle' : Handle} {s : σ}
    (h : Stream.At feed start n t) {r : Except Error α} {used rest : List UInt8}
    (hbytes : feed.bytes.drop n = used ++ rest)
    (hparse : p.parse handle (used ++ rest) = some ((r, handle'), rest)) :
    exists t', (onList p (handle, s)).run Stream.handler t = .done (r, (handle', s)) t' ∧
      Stream.At feed start (n + used.length) t' ∧ t'.log = t.log ∧
      feed.bytes.drop (n + used.length) = rest := by
  rcases h.run_of_parse hbytes hparse with ⟨t', hrun, hat, hlog⟩
  refine ⟨t', onList_of_done hrun, hat, hlog, ?_⟩
  rw [← List.drop_drop, hbytes, List.drop_left]

theorem closing_ok (h : Stream.At feed start n t)
    (hrun : (closing x).run Stream.handler t = .done (.ok (), x') t') :
    exists used header c0 c1 marker stop unread,
      feed.bytes.drop n = used ++ (header ++ ([c0, c1] ++ (marker ++ feed.bytes.drop stop))) ∧
      x.1.reader.Pending used ∧ decodeHeader header = some (.ok (.unsigned, 2), []) ∧
      decodeHeader marker = some (.error .endOfSmlMessage, []) ∧
      (Digest.checksum δ ((feed.bytes.take (n + used.length)).drop start)).toNat =
        UInt8.toNat c0 + 256 * UInt8.toNat c1 ∧
      x.1.len = x'.1.len + 2 ∧ x'.1.reader = Reader.new ∧ x'.2 = x.2 ∧ n ≤ stop ∧
      Stream.At feed (n + used.length) stop t' ∧
      t'.log = t.log ++
        [{ mark := .finalize
             (Digest.checksum δ ((feed.bytes.take (n + used.length)).drop start)),
           unread := unread, taken := feed.bytes.take (n + used.length) }] := by
  rcases Act.run_bind_ok hrun with ⟨_, x₁, t₁, h₁, hrun⟩
  rcases Act.run_bind_ok hrun with ⟨crcCalc, x₂, t₂, h₂, hrun⟩
  rcases Act.run_bind_ok hrun with ⟨crcRec, x₃, t₃, h₃, hrun⟩
  rcases Act.run_bind_ok hrun with ⟨_, x₄, t₄, h₄, hcheck⟩
  rcases onList_at strict_skipNow h h₁ with ⟨body, hle₁, hat₁, hlog₁, hs₁, hskip⟩
  rcases skipNow_ok hskip with ⟨hnew, used, hused, hpending⟩
  have hbody := hat₁.eq_add hle₁ hused
  subst hbody
  rcases hat₁.finalize with ⟨hcalc, hat₂, hlog₂⟩
  cases h₂
  rcases onList_at strict_crc16 hat₂ h₃ with ⟨n₃, hle₃, hat₃, hlog₃, hs₃, hparse₃⟩
  rcases onList_at strict_endOfSmlMsg hat₃ h₄ with ⟨stop, hle₄, hat₄, hlog₄, hs₄, hparse₄⟩
  rcases crc16_ok hparse₃ with
    ⟨junk, header, c0, c1, hbytes, hjunk, hheader, hv, hlen₃, hreader₃⟩
  rw [hnew] at hjunk
  rw [Reader.Pending.new_iff.mp hjunk, List.nil_append] at hbytes
  rcases endOfSmlMsg_ok hreader₃ hparse₄ with ⟨hlen₄, hreader₄, marker, hmarker, hend⟩
  split at hcheck
  · cases hcheck
  · next hmatch =>
      cases hcheck
      refine ⟨used, header, c0, c1, marker, stop, t₁.unread, ?_, hpending, hheader, hend, ?_, ?_,
        hreader₄, ?_, by lia, hat₄, ?_⟩
      · rw [hused, hbytes, hmarker]
      · rw [← hcalc, ← not_not.mp hmatch, hv, toNat_swapBytes]
      · rw [hnew] at hlen₃
        change x.1.len = x₃.1.len + 1 at hlen₃
        rw [hlen₃, hlen₄]
      · rw [hs₄, hs₃, hs₁]
      · rw [hlog₄, hlog₃, hlog₂, hlog₁]

end

end Sml
end Smartmeter
