import Smartmeter.Sml.Heard
import Smartmeter.Sml.Frame.Encode
import Smartmeter.Sml.Tlv.Lazy

/-!
# The checksum and what the callback reads

A callback may read the body of a message in any way.  The checksum covers the
message up to the end of its body all the same, as long as the counter of the
elements to be skipped does not wrap.
-/

namespace Smartmeter
namespace Sml

open Foundation
open Frame (Feed Sent)
open Tlv (Forest Handle Reader Skips Stands decodeHeader)

variable {δ σ ω : Type} [Digest δ] [Machine]

/-!
## Messages with any body
-/

/-- A message of well-formed elements of known types, whose checksum may be wrong. -/
structure Composed where
  header : List UInt8
  front : Front
  body : Forest
  back : Back
  header_list : decodeHeader header = some (.ok (.list, 6), [])
  front_shape : front.Shape 2
  body_count : body.count = 2
  body_wellFormed : body.WellFormed
  body_known : body.Known
  back_shape : back.Shape

namespace Composed

def parts (m : Composed) : Parts :=
  { skipped := [], header := m.header, more := 0, front := m.front, body := m.body.bytes,
    back := m.back }

theorem shape (m : Composed) : m.parts.Shape 0 :=
  ⟨.nil, m.header_list, m.front_shape, m.back_shape⟩

theorem skips_iff (m : Composed) : Skips 2 m.parts.body <-> m.body.Fits 0 := by
  have hiff := Forest.skips_iff m.body_wellFormed
  rw [m.body_count] at hiff
  exact hiff

end Composed

theorem chain_composed (ms : List Composed) : Chain 0 (ms.map Composed.parts) := by
  induction ms with
  | nil => trivial
  | cons m ms ih => exact ⟨m.shape, ih⟩

def Callback.Reads (cb : Callback σ ω) : σ -> List Composed -> Prop
  | _, [] => True
  | s, m :: ms => exists s' left, (cb.messageReceived s).walk m.body = some ((.ok (), s'), left) ∧
      cb.Reads s' ms

/--
Up to the first message whose checksum is wrong, no list in a body raises the
number of outstanding elements beyond a word.
-/
def Countable (δ : Type) [Digest δ] : List Composed -> Prop
  | [] => True
  | m :: ms => m.body.Fits 0 ∧
      (m.back.verdict (Digest.checksum δ m.parts.covered) = .ok () -> Countable δ ms)

/-!
## A body that can be counted
-/

theorem hears_of_walk {cb : Callback σ ω} {s s' : σ} {body left : Forest}
    (hcount : body.count = 2) (hwf : body.WellFormed) (hfits : body.Fits 0)
    (hlen : body.bytes.length < Machine.fuel)
    (hwalk : (cb.messageReceived s).walk body = some ((.ok (), s'), left)) :
    Hears cb body.bytes s s' := by
  have hsize : body.count + 0 < Usize.size := by
    rw [hcount]
    exact Nat.lt_of_lt_of_le (by decide) Usize.pow_le_size
  have hstart : Stands body 0 [] { reader := Reader.new, len := body.count }
      (body.bytes ++ []) := .start [] hwf hfits hsize
  rw [List.append_nil] at hstart
  rcases (cb.messageReceived s).run_walk hstart (Nat.le_refl _)
    (by rw [List.length_nil, Nat.zero_add]; exact hlen) hwalk with ⟨self, bs, hparse, hat, _⟩
  have hleft : Stands left (Forest.nil.count + 0) (Forest.nil.bytes ++ []) self bs := hat
  rcases (hleft.drop trivial trivial).pendingBytes with ⟨pending, hbs, hpending⟩
  have hnil : bs = pending := by
    rw [hbs]
    exact List.append_nil pending
  rw [hcount, hnil] at hparse
  exact ⟨self, pending, hparse, hpending⟩

theorem passes_of_walk {cb : Callback σ ω} {s s' : σ} {body left : Forest}
    (hcount : body.count = 2) (hwf : body.WellFormed) (hfits : body.Fits 0)
    (hwalk : (cb.messageReceived s).walk body = some ((.ok (), s'), left)) :
    Passes δ cb body.bytes s s' := by
  intro feed n call size rest t hfuel hat hbytes
  have hlen := congrArg List.length hbytes
  rw [List.length_drop, List.length_append] at hlen
  have hhears := hears_of_walk hcount hwf hfits (by lia) hwalk
  exact hhears.passes feed n call size rest t hfuel hat hbytes

theorem follows_of_reads {cb : Callback σ ω} {s : σ} {ms : List Composed}
    (hcount : Countable δ ms) (hreads : cb.Reads s ms) :
    Follows δ cb s (ms.map Composed.parts) := by
  induction ms generalizing s with
  | nil => trivial
  | cons m ms ih =>
      rcases hreads with ⟨s', left, hwalk, hreads⟩
      exact ⟨s', passes_of_walk m.body_count m.body_wellFormed hcount.1 hwalk,
        fun hverdict => ih (hcount.2 hverdict) hreads⟩

/-!
## A body that is not read
-/

omit [Machine] in
theorem run_onList_log {α : Type} (p : Act Tlv.Ops Error Handle α) (x : Handle × σ)
    (t : Stream δ ω) : ((onList p x).run Stream.handler t).state.log = t.log := by
  have hlog := Stream.run_read_log (p x.1) t
  unfold onList
  rw [Act.borrow_apply, Prog.run_bind, Stream.run_onMessages]
  cases hrun : (p x.1).run Stream.read t with
  | done y t' =>
      rw [hrun] at hlog
      exact hlog
  | blocked t' =>
      rw [hrun] at hlog
      exact hlog
  | stuck t' =>
      rw [hrun] at hlog
      exact hlog

omit [Machine] in
theorem run_log_grows {α : Type} (p : Prog (TaskSig ω) α) (t : Stream δ ω) :
    t.log <+: (p.run Stream.handler t).state.log :=
  p.run_monotone (R := fun t t' => t.log <+: t'.log) (fun _ => List.prefix_rfl)
    (fun _ _ _ => List.IsPrefix.trans) Stream.step_log t

theorem closing_log {feed : Feed} {start n : Nat} {x x' : Handle × σ} {t t' : Stream δ ω}
    {res : Except Error Unit} (h : Stream.At feed start n t)
    (hrun : (closing x).run Stream.handler t = .done (res, x') t') :
    (t'.log = t.log ∧ exists e, res = .error e) ∨
      exists used rest entry, feed.bytes.drop n = used ++ rest ∧ x.1.reader.Pending used ∧
        entry.taken = feed.bytes.take (n + used.length) ∧ t.log ++ [entry] <+: t'.log := by
  have hlog := run_onList_log (Handle.withReader Reader.skipNow) x t
  rcases Act.run_bind_done hrun with ⟨e, hskip, he⟩ | ⟨_, x₁, t₁, hskip, hrun⟩
  · rw [hskip] at hlog
    exact Or.inl ⟨hlog, e, he⟩
  · rw [hskip] at hlog
    rcases onList_at strict_skipNow h hskip with ⟨n', hle, hat, _, _, hparse⟩
    rcases skipNow_ok hparse with ⟨_, used, hused, hpending⟩
    have hn := hat.eq_add hle hused
    have hlog₂ := hat.finalize.2.2
    have hfinalize : (perform .finalize x₁ :
        Prog (TaskSig ω) (Except Error UInt16 × (Handle × σ))).run Stream.handler t₁ =
          .done (.ok t₁.finalize.1, x₁) t₁.finalize.2 := rfl
    rw [Act.run_bind_of_ok hfinalize] at hrun
    have hmono := congrArg Outcome.state hrun ▸ run_log_grows _ t₁.finalize.2
    change t₁.log = t.log at hlog
    rw [hlog₂, hlog] at hmono
    exact Or.inr ⟨used, _, _, hused, hpending, by rw [← hn], hmono⟩

theorem message_idle_log {feed : Feed} {start n size : Nat} {front : Front}
    {tail : List UInt8} {x' : Handle × Unit} {t t' : Stream δ Empty} {res : Except Error Unit}
    (h : Stream.At feed start n t) (hbytes : feed.bytes.drop n = front.bytes ++ tail)
    (hfront : front.Shape 2) (hfuel : feed.bytes.length < Machine.fuel)
    (hrun : (message Callback.idle ({ reader := Reader.new, len := size + 4 }, ())).run
      Stream.handler t = .done (res, x') t') :
    ((exists entry, t'.log = t.log ++ [entry]) ∧ exists e, res = .error e) ∨
      exists used rest e₁ e₂, tail = used ++ rest ∧ Skips 2 used ∧
        e₂.taken = feed.bytes.take (n + front.bytes.length + used.length) ∧
        t.log ++ [e₁, e₂] <+: t'.log := by
  have hid : front.id.length < Machine.fuel := by
    have hlen := congrArg List.length hbytes
    simp only [Front.bytes, List.length_drop, List.length_append] at hlen
    lia
  rcases onList_of_parse (s := ()) h hbytes (front_of_shape hfront size tail hid) with
    ⟨t₁, hrun₁, hat₁, hlog₁, hbytes₁⟩
  rw [message_eq, Act.run_bind_of_ok hrun₁, Act.run_bind_of_ok (received_idle_run size t₁)] at hrun
  have hlog₂ : (t₁.observe (.call .messageReceived)).log =
      t.log ++ [⟨.call .messageReceived, t₁.unread, t₁.taken⟩] := by
    rw [← hlog₁]
    rfl
  rcases closing_log (hat₁.observe (.call .messageReceived)) hrun with
    ⟨hlog, herror⟩ | ⟨used, rest, entry, hused, hpending, htaken, hbegins⟩
  · exact Or.inl ⟨⟨_, hlog.trans hlog₂⟩, herror⟩
  · rw [hbytes₁] at hused
    rw [hlog₂, List.append_assoc] at hbegins
    exact Or.inr ⟨used, rest, _, entry, hused, hpending.skips, htaken, hbegins⟩

theorem readFrameLoop_idle_log {feed : Feed} {n pending : Nat} {m : Parts} {rest : List UInt8}
    {x' : Reader × Unit} {t t' : Stream δ Empty} {res : Except Error (Unit ⊕ Unit)}
    (h : Stream.At feed n n t) (hended : t.hasEnded = false)
    (hbytes : feed.bytes.drop n = m.bytes ++ rest) (hm : m.Shape pending)
    (hfuel : feed.bytes.length < Machine.fuel)
    (hrun : (readFrameLoop Callback.idle () ({ remainingBytes := 0, remainingTlvs := pending }, ())).run
      Stream.handler t = .done (res, x') t') :
    ((exists entry, t'.log = t.log ++ [entry]) ∧ exists e, res = .error e) ∨
      exists used rest' e₁ e₂, m.body ++ (m.back.bytes ++ rest) = used ++ rest' ∧ Skips 2 used ∧
        e₂.taken = feed.bytes.take (n + m.call + used.length) ∧
        t.log ++ [e₁, e₂] <+: t'.log := by
  have hsplit : feed.bytes.drop n = m.skipped ++ (m.header ++ (m.front.bytes ++
      (m.body ++ (m.back.bytes ++ rest)))) := by
    rw [hbytes]
    simp only [Parts.bytes, Parts.covered, List.append_assoc]
  have hcall : n + m.skipped.length + m.header.length + m.front.bytes.length = n + m.call := by
    unfold Parts.call
    lia
  have hopen := run_hasEnded (({ remainingBytes := 0, remainingTlvs := pending }, ()) : Reader × Unit) t
  rw [hended] at hopen
  rcases readList_run h hsplit hm.skipped hm.header hfuel () with ⟨t₁, hrun₁, hat₁, hlog₁, hbytes₁⟩
  unfold readFrameLoop at hrun
  rw [Act.run_bind_of_ok hopen, if_neg Bool.false_ne_true, Act.run_bind_of_ok hrun₁] at hrun
  rw [Nat.add_comm 6] at hrun
  rw [← hlog₁, ← hcall]
  rcases Act.run_bind_done hrun with ⟨e, hlist, he⟩ | ⟨_, x₂, t₂, hlist, hrest⟩
  · rcases Act.run_borrow_done hlist with ⟨y, hmessage, _⟩
    rcases message_idle_log hat₁ hbytes₁ hm.front hfuel hmessage with ⟨hentry, _⟩ | hskipped
    · exact Or.inl ⟨hentry, e, he⟩
    · exact Or.inr hskipped
  · rcases Act.run_borrow_done hlist with ⟨y, hmessage, _⟩
    rcases message_idle_log hat₁ hbytes₁ hm.front hfuel hmessage with ⟨_, e, he⟩ | hskipped
    · cases he
    · rcases hskipped with ⟨used, rest', e₁, e₂, hused, hskips, htaken, hbegins⟩
      have hmono := congrArg Outcome.state hrest ▸ run_log_grows _ t₂
      exact Or.inr ⟨used, rest', e₁, e₂, hused, hskips, htaken, hbegins.trans hmono⟩

theorem body_skipped {feed : Feed} {n : Nat} {m : Parts} {ms : List Parts}
    {used rest : List UInt8} {t t' : Stream δ Empty} {mid : List (Entry Empty)}
    {e₁ e₂ : Entry Empty} (hbytes : feed.bytes.drop n = joined (m :: ms))
    (hused : m.body ++ (m.back.bytes ++ joined ms) = used ++ rest) (hskips : Skips 2 used)
    (htaken : e₂.taken = feed.bytes.take (n + m.call + used.length))
    (hbegins : t.log ++ [e₁, e₂] <+: t'.log) (hlog : t'.log = t.log ++ mid)
    (hmid : mid.map Entry.seen = account δ feed.bytes n (m :: ms)) : Skips 2 m.body := by
  have hcall : feed.bytes.drop (n + m.call) = m.body ++ (m.back.bytes ++ joined ms) := by
    rw [← List.drop_drop, hbytes]
    exact m.drop_call _
  have hcovered : n + m.covered.length = n + m.call + m.body.length := by
    unfold Parts.call
    simp only [Parts.covered, List.length_append]
    lia
  rw [hlog, List.prefix_append_right_inj] at hbegins
  rcases hbegins with ⟨more, hmore⟩
  rw [← hmore] at hmid
  have hsecond : e₂.taken = feed.bytes.take (n + m.covered.length) := by
    have hcons := (List.cons_eq_cons.mp (List.cons_eq_cons.mp hmid).2).1
    exact congrArg Prod.snd hcons
  have hlength := congrArg List.length (htaken.symm.trans hsecond)
  have hleft := congrArg List.length (hcall.trans hused)
  have hright := congrArg List.length hcall
  rw [List.length_take, List.length_take, hcovered] at hlength
  rw [List.length_drop, List.length_append] at hleft hright
  have hsame : m.body.length = used.length := by lia
  rw [(List.append_inj hused hsame).1]
  exact hskips

theorem countable_of_account {feed : Feed} {f : Sent δ} {behind : List UInt8}
    (hfeed : feed = Stream.frameFeed δ (f.bytes ++ behind))
    (hfuel : feed.bytes.length < Machine.fuel) {ms : List Composed} {k n : Nat}
    {x' : Reader × Unit} {t t' : Stream δ Empty} {res : Except Error Unit}
    (hat : Stream.At feed n n t) (hbytes : feed.bytes.drop n = joined (ms.map Composed.parts))
    (hrun : (Act.iterate k (readFrameLoop Callback.idle) ()
      ({ remainingBytes := 0, remainingTlvs := 0 }, ())).run Stream.handler t =
        .done (res, x') t') {mid : List (Entry Empty)}
    (hlog : t'.log = t.log ++ mid)
    (hmid : mid.map Entry.seen = account δ feed.bytes n (ms.map Composed.parts)) :
    Countable δ ms := by
  induction ms generalizing k n t mid with
  | nil => trivial
  | cons m ms ih =>
      cases k with
      | zero => cases hrun
      | succ k =>
          have hmore : feed.bytes.drop n ≠ [] := by
            rw [hbytes]
            exact List.append_ne_nil_of_left_ne_nil m.parts.bytes_ne_nil _
          have hended : t.hasEnded = false := by
            rw [hfeed] at hat hmore
            exact hat.not_hasEnded hmore
          rw [Act.iterate_succ] at hrun
          have hskips : Skips 2 m.parts.body := by
            rcases Act.run_bind_done hrun with ⟨e, hloop, _⟩ | ⟨_, x₁, t₁, hloop, hrest⟩
            · rcases readFrameLoop_idle_log hat hended hbytes m.shape hfuel hloop with
                ⟨⟨entry, hentry⟩, _⟩ | ⟨used, rest, e₁, e₂, hused, hskips, htaken, hbegins⟩
              · rw [hlog, List.append_cancel_left_eq] at hentry
                rw [hentry] at hmid
                exact absurd (List.cons_eq_cons.mp hmid).2.symm (List.cons_ne_nil _ _)
              · exact body_skipped hbytes hused hskips htaken hbegins hlog hmid
            · rcases readFrameLoop_idle_log hat hended hbytes m.shape hfuel hloop with
                ⟨_, e, he⟩ | ⟨used, rest, e₁, e₂, hused, hskips, htaken, hbegins⟩
              · cases he
              · have hmono := congrArg Outcome.state hrest ▸ run_log_grows _ t₁
                exact body_skipped hbytes hused hskips htaken (hbegins.trans hmono) hlog hmid
          refine ⟨m.skips_iff.mp hskips, fun hverdict => ?_⟩
          have hcall : feed.bytes.drop (n + m.parts.call) =
              m.parts.body ++ (m.parts.back.bytes ++ joined (ms.map Composed.parts)) := by
            rw [← List.drop_drop, hbytes]
            exact m.parts.drop_call _
          rcases readFrameLoop_run hat hended hbytes m.shape hfuel (m.parts.add_call n)
            (fun t₁ hat₁ => passes_idle hskips feed n _ _ _ t₁ hfuel hat₁ hcall) with
            ⟨t₁, part, hloop, hat₁, hlog₁, hpart⟩
          change m.parts.back.verdict _ = _ at hverdict
          rw [hverdict] at hloop
          rw [Act.run_bind_of_ok hloop] at hrun
          rcases hat₁.reset with ⟨hat₂, hlog₂⟩
          have hbytes₂ : feed.bytes.drop (n + m.parts.bytes.length) =
              joined (ms.map Composed.parts) := by
            rw [← List.drop_drop, hbytes]
            exact List.drop_left
          have hmono := congrArg Outcome.state hrun ▸ run_log_grows _ t₁.reset
          change t₁.reset.log <+: t'.log at hmono
          rcases hmono with ⟨mid₂, hmid₂⟩
          have hsplit := hmid₂
          rw [hlog₂, hlog₁, hlog, List.append_assoc, List.append_assoc,
            List.append_cancel_left_eq] at hsplit
          rw [← hsplit, List.map_cons] at hmid
          simp only [account, hverdict] at hmid
          rw [List.map_append, hpart, List.append_cancel_left_eq] at hmid
          exact ih hat₂ hbytes₂ hrun hmid₂.symm (List.cons_eq_cons.mp hmid).2

/-!
## The verdict on a frame
-/

/--
Reading a frame ends with the verdict that the checksums over the messages give,
and writes down each of these checksums where it was finalized.
-/
def Judged (δ : Type) [Digest δ] {ρ : Type} [Io.ByteSource ρ] (cb : Callback σ ω) (s : σ)
    (reader : ρ) (payload : List UInt8) (ms : List Composed) : Prop :=
  exists n s' w, (Standing.waiting (.fresh (readFrame cb s)) (World.new reader) :
      Standing (taskDriver (ρ := ρ) (δ := δ)) _).polls n =
        .finished (verdict δ (ms.map Composed.parts), s') w ∧
    w.log.map Entry.seen = account δ payload 0 (ms.map Composed.parts)

/-- Whatever two callbacks read, both runs come to the same verdict in the same way. -/
def ReadingsAgree (δ : Type) [Digest δ] {ρ : Type} [Io.ByteSource ρ] (reader : ρ)
    (payload : List UInt8) (ms : List Composed) : Prop :=
  forall (σ σ' ω ω' : Type) (cb : Callback σ ω) (cb' : Callback σ' ω') (s : σ) (s' : σ'),
    cb.Reads s ms -> cb'.Reads s' ms ->
      Judged δ cb s reader payload ms ∧ Judged δ cb' s' reader payload ms

theorem judged_of_countable {ρ : Type} [Io.ByteSource ρ] {reader : ρ} {f : Sent δ}
    {behind : List UInt8} {ms : List Composed} {cb : Callback σ ω} {s : σ} (hne : ms ≠ [])
    (hsource : Io.ByteSource.unread reader = f.bytes ++ behind)
    (hpayload : f.payload = joined (ms.map Composed.parts))
    (hfuel : f.payload.length < Machine.fuel) (hcount : Countable δ ms) (hreads : cb.Reads s ms) :
    Judged δ cb s reader f.payload ms := by
  have hne' : ms.map Composed.parts ≠ [] := fun hnil => hne (List.map_eq_nil_iff.mp hnil)
  rcases readFrame_run hne' hpayload (chain_composed ms) hfuel (follows_of_reads hcount hreads)
    (t := Stream.new (Io.ByteSource.unread reader)) hsource with
    ⟨s', t', hrun, ⟨mid, hlog, hmid⟩, _⟩
  rcases (World.finished_view_iff _ reader _ t').mpr hrun with ⟨n, w, hpolls, hview⟩
  refine ⟨n, s', w, hpolls, ?_⟩
  have hlog' : w.log = mid := by
    change w.view.log = mid
    rw [hview, hlog]
    rfl
  rw [hlog']
  exact hmid

theorem countable_of_judged {ρ : Type} [Io.ByteSource ρ] {reader : ρ} {f : Sent δ}
    {behind : List UInt8} {ms : List Composed}
    (hsource : Io.ByteSource.unread reader = f.bytes ++ behind)
    (hpayload : f.payload = joined (ms.map Composed.parts))
    (hfuel : f.payload.length < Machine.fuel)
    (h : Judged δ Callback.idle () reader f.payload ms) : Countable δ ms := by
  rcases h with ⟨n, s', w, hpolls, hmid⟩
  have hrun := (World.finished_view_iff _ reader _ w.view).mp ⟨n, w, hpolls, rfl⟩
  have hbytes := (frameFeed_sent f behind).1
  have hat := Stream.newFrame_at (Stream.new (Io.ByteSource.unread reader) : Stream δ Empty)
  have hunread : (Stream.new (Io.ByteSource.unread reader) : Stream δ Empty).unread =
      f.bytes ++ behind := hsource
  rw [hunread] at hat
  have hnew : (perform .newFrame () : Prog (TaskSig Empty) (Except Error Unit × Unit)).run
      Stream.handler (Stream.new (Io.ByteSource.unread reader) : Stream δ Empty) =
        .done (.ok (), ()) (Stream.new (Io.ByteSource.unread reader)).newFrame := rfl
  unfold readFrame at hrun
  rw [Act.run_bind_of_ok hnew] at hrun
  rcases Act.run_borrow_done hrun with ⟨y, hloop, _⟩
  have hlog : w.view.log = (Stream.new (f.bytes ++ behind) : Stream δ Empty).newFrame.log ++ w.log :=
    rfl
  have hdrop : (Stream.frameFeed δ (f.bytes ++ behind)).bytes.drop 0 =
      joined (ms.map Composed.parts) := by
    rw [hbytes, hpayload]
    rfl
  rw [← hbytes] at hfuel hmid
  exact countable_of_account rfl hfuel hat hdrop hloop hlog hmid

theorem reads_idle (ms : List Composed) : Callback.idle.Reads () ms := by
  induction ms with
  | nil => trivial
  | cons m ms ih => exact ⟨(), m.body, rfl, ih⟩

/--
The verdict on a frame does not depend on what the callback reads exactly when
the bodies can be counted, up to the first message whose checksum is wrong.
-/
theorem readingsAgree_iff {ρ : Type} [Io.ByteSource ρ] {reader : ρ} {f : Sent δ}
    {behind : List UInt8} {ms : List Composed} (hne : ms ≠ [])
    (hsource : Io.ByteSource.unread reader = f.bytes ++ behind)
    (hpayload : f.payload = joined (ms.map Composed.parts))
    (hfuel : f.payload.length < Machine.fuel) :
    ReadingsAgree δ reader f.payload ms <-> Countable δ ms := by
  constructor
  · intro hagree
    exact countable_of_judged hsource hpayload hfuel
      (hagree _ _ _ _ Callback.idle Callback.idle () () (reads_idle ms) (reads_idle ms)).1
  · intro hcount σ σ' ω ω' cb cb' s s' hreads hreads'
    exact ⟨judged_of_countable hne hsource hpayload hfuel hcount hreads,
      judged_of_countable hne hsource hpayload hfuel hcount hreads'⟩

def envelope (body : Forest) (hcount : body.count = 2) (hwf : body.WellFormed)
    (hknown : body.Known) : Composed where
  header := [0x76]
  front := (sample 0x76 0 0 0).front
  body := body
  back := (sample 0x76 0 0 0).back
  header_list := Tlv.decodeHeader_single (by decide)
  front_shape := sample_front
  body_count := hcount
  body_wellFormed := hwf
  body_known := hknown
  back_shape := sample_back 0 0

theorem length_envelope {body : Forest} (hcount : body.count = 2) (hwf : body.WellFormed)
    (hknown : body.Known) :
    (envelope body hcount hwf hknown).parts.bytes.length = body.bytes.length + 12 := by
  change ([0x76] ++ ((sample 0x76 0 0 0).front.bytes ++ body.bytes) ++
    (sample 0x76 0 0 0).back.bytes).length = _
  simp only [List.length_append]
  change 1 + (7 + body.bytes.length) + 4 = _
  lia

def framePieces (m : Composed) : Io.Pieces := Io.Pieces.mk [(Sent.of Crc m.parts.bytes).bytes]

theorem framePieces_unread (m : Composed) :
    Io.ByteSource.unread (framePieces m) = (Sent.of Crc m.parts.bytes).bytes ++ [] := by
  change [(Sent.of Crc m.parts.bytes).bytes].flatten = _
  rw [List.flatten_cons, List.flatten_nil]

theorem framePieces_payload (m : Composed) :
    (Sent.of Crc m.parts.bytes).payload = joined ([m].map Composed.parts) := by
  rw [Sent.of_payload]
  exact (List.append_nil _).symm

omit [Machine] in
/-- A message with a list and a number, whose checksum is wrong. -/
theorem readingsAgree_numbers :
    letI := Machine.word32 32 (Nat.le_refl 32)
    letI body := Forest.list [0x72]
      (.item [0x52] .integer [0x05] (.item [0x63] .unsigned [0x01, 0x02] .nil))
      (.item [0x62] .unsigned [0x07] .nil)
    exists m : Composed, m.body = body ∧
      ReadingsAgree Crc (framePieces m) (Sent.of Crc m.parts.bytes).payload [m] := by
  let := Machine.word32 32 (Nat.le_refl 32)
  let body := Forest.list [0x72]
    (.item [0x52] .integer [0x05] (.item [0x63] .unsigned [0x01, 0x02] .nil))
    (.item [0x62] .unsigned [0x07] .nil)
  have hwf : body.WellFormed := by
    refine ⟨?_, ⟨?_, by decide, ?_, by decide, trivial⟩, ?_, by decide, trivial⟩
    all_goals exact Tlv.decodeHeader_single (by decide)
  have hknown : body.Known :=
    ⟨⟨fun _ => TlvType.noConfusion, fun _ => TlvType.noConfusion, trivial⟩,
      fun _ => TlvType.noConfusion, trivial⟩
  let m := envelope body rfl hwf hknown
  have hlength : m.parts.bytes.length = body.bytes.length + 12 := length_envelope rfl hwf hknown
  have hfits : m.body.Fits 0 := ⟨by decide, trivial, trivial⟩
  refine ⟨m, rfl, ?_⟩
  have hfuel : (Sent.of Crc m.parts.bytes).payload.length < Machine.fuel := by
    rw [Sent.of_payload, hlength]
    decide
  exact (readingsAgree_iff (List.cons_ne_nil m []) (framePieces_unread m)
    (framePieces_payload m) hfuel).mpr ⟨hfits, fun _ => trivial⟩

omit [Machine] in
/-- A message with more elements than words of 32 bits can count. -/
theorem readingsAgree_wraps :
    letI := Machine.word32 (2 ^ 33) (by decide)
    letI body := Forest.list [0x7F]
      (Tlv.nestedList [0xFF, 0x8F, 0x8F, 0x8F, 0x8F, 0x8F, 0x8F, 0x0F] (2 ^ 32 - 9) 14)
      (.item [0x01] .string [] .nil)
    exists m : Composed, m.body = body ∧
      ¬ ReadingsAgree Crc (framePieces m) (Sent.of Crc m.parts.bytes).payload [m] := by
  let := Machine.word32 (2 ^ 33) (by decide)
  let inner := Tlv.nestedList [0xFF, 0x8F, 0x8F, 0x8F, 0x8F, 0x8F, 0x8F, 0x0F] (2 ^ 32 - 9) 14
  let body := Forest.list [0x7F] inner (.item [0x01] .string [] .nil)
  have hinner : inner.WellFormed :=
    Tlv.wellFormed_nestedList Tlv.decodeHeader_longest (Tlv.decodeHeader_single (by decide)) 14
  have hwf : body.WellFormed := by
    refine ⟨?_, hinner, Tlv.decodeHeader_single (by decide), by decide, trivial⟩
    rw [Tlv.count_nestedList]
    exact Tlv.decodeHeader_single (by decide)
  have hknown : body.Known :=
    ⟨Tlv.known_nestedList _ _ _, fun _ => TlvType.noConfusion, trivial⟩
  let m := envelope body rfl hwf hknown
  have hlength : m.parts.bytes.length = body.bytes.length + 12 := length_envelope rfl hwf hknown
  refine ⟨m, rfl, ?_⟩
  intro hagree
  have hfuel : (Sent.of Crc m.parts.bytes).payload.length < Machine.fuel := by
    rw [Sent.of_payload, hlength]
    change ([0x7F] ++ inner.bytes ++ [0x01]).length + 12 < _
    rw [List.length_append, List.length_append, Tlv.length_nestedList]
    decide
  have hcount := countable_of_judged (framePieces_unread m) (framePieces_payload m) hfuel
    (hagree _ _ _ _ Callback.idle Callback.idle () () (reads_idle [m]) (reads_idle [m])).1
  have hfits : inner.Fits 1 := hcount.1.2.1
  exact Tlv.not_fits_nestedList _ (by decide) hfits

end Sml
end Smartmeter
