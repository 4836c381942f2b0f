import Smartmeter.Sml.Acceptance
import Smartmeter.Sml.Integrity

/-!
# What the callback has heard

When a frame is read well, its payload is messages one after the other, and the
callback has returned `Ok` for the body of each of them.  What it did with a
body is told by its program alone: no read in it has failed.
-/

namespace Smartmeter
namespace Sml

open Foundation
open Frame (Feed Sent)
open Tlv (Handle Ops Reader decodeHeader)

variable {δ σ ω : Type} [Digest δ]

theorem Stream.readBeyond_bytes {α : Type} (t : Stream δ ω) :
    (t.readBeyond : Outcome (Except Io.Error α) (Stream δ ω)).state.bytes = [] := by
  rcases t with ⟨line, taken, log⟩
  cases line with
  | source unread => rfl
  | frame feed digest =>
      rcases feed with ⟨pend, ending, ended, unread⟩
      cases ending <;> rfl

theorem Stream.At.parse_of_run {α : Type} {feed : Feed} {start n : Nat} {t t' : Stream δ ω}
    (h : Stream.At feed start n t) {p : Prog Ops α} {a : α}
    (hrun : p.run Stream.read t = .done a t') (hmore : t'.bytes ≠ []) :
    exists k, Stream.At feed start (n + k) t' ∧
      p.parse (feed.bytes.drop n) = some (a, feed.bytes.drop (n + k)) := by
  induction p generalizing n t with
  | ret b =>
      cases hrun
      exact ⟨0, h, rfl⟩
  | stuck => cases hrun
  | op o p ih =>
      rcases Outcome.andThen_eq_done hrun with ⟨r, t₁, hread, hrest⟩
      have hbytes₁ : t₁.bytes ≠ [] := by
        intro hnil
        have hend := Stream.run_read_nil hnil (p r)
        rw [hrest] at hend
        exact hmore hend
      cases o with
      | u8 =>
          change t.readU8 = _ at hread
          unfold Stream.readU8 at hread
          cases hbytes : t.bytes with
          | nil =>
              rw [hbytes] at hread
              change t.readBeyond = _ at hread
              have hlost := Stream.readBeyond_bytes (α := UInt8) t
              rw [hread] at hlost
              exact absurd hlost hbytes₁
          | cons b bs =>
              rw [hbytes] at hread
              have hone : 1 ≤ t.bytes.length := by
                simp [hbytes]
              cases hread
              rcases ih (.ok b) (h.advance hone) hrest with ⟨k, hat, hparse⟩
              rw [Nat.add_assoc] at hat hparse
              have hdrop : feed.bytes.drop (n + 1) = bs := by
                rw [← List.drop_drop, ← h.bytes, hbytes, List.drop_one, List.tail_cons]
              rw [hdrop] at hparse
              rw [h.bytes] at hbytes
              rw [hbytes]
              exact ⟨1 + k, hat, hparse⟩
      | exact size =>
          change t.readExact size = _ at hread
          unfold Stream.readExact at hread
          by_cases hsize : size ≤ t.bytes.length
          · rw [if_pos hsize] at hread
            cases hread
            rcases ih (.ok (t.bytes.take size)) (h.advance hsize) hrest with ⟨k, hat, hparse⟩
            rw [Nat.add_assoc] at hat hparse
            rw [h.bytes] at hsize hparse
            rw [Prog.parse_exact, if_pos hsize, List.drop_drop]
            exact ⟨size + k, hat, hparse⟩
          · rw [if_neg hsize] at hread
            have hlost := Stream.readBeyond_bytes (α := List UInt8) t
            rw [hread] at hlost
            exact absurd hlost hbytes₁

variable [Machine]

/-!
## Bodies
-/

/-- The callback returns `Ok` for a body and leaves the rest of it to be skipped. -/
def Hears (cb : Callback σ ω) (body : List UInt8) (s s' : σ) : Prop :=
  exists self pending,
    (Tlv.Read.run (cb.messageReceived s) { reader := Reader.new, len := 2 }).parse body =
      some (((.ok (), s'), self), pending) ∧ (self.drop .list).Pending pending

theorem messageReceived_run {cb : Callback σ ω} {self self' : Handle} {s s' : σ}
    {t t' : Stream δ ω}
    (hrun : (Tlv.Read.run (cb.messageReceived s) self).run Stream.read
      (t.observe (.call .messageReceived)) = .done ((.ok (), s'), self') t') :
    (messageReceived cb (self, s)).run Stream.handler t = .done (.ok (), (self', s')) t' := by
  change ((((cb.messageReceived s).run self).embed TaskOp.read fun _ r => r).bind _).run
    Stream.handler (t.observe (.call .messageReceived)) = _
  rw [Prog.run_bind, Stream.run_embed_read, hrun]
  rfl

theorem Hears.passes {cb : Callback σ ω} {body : List UInt8} {s s' : σ}
    (h : Hears cb body s s') : Passes δ cb body s s' := by
  rcases h with ⟨self, pending, hparse, hpending⟩
  intro feed n call size rest t hfuel hat hbytes
  rcases Prog.parse_prefix hparse with ⟨used, hbody, hread⟩
  have hbytes' : feed.bytes.drop call = used ++ (pending ++ rest) := by
    rw [hbytes, hbody, List.append_assoc]
  have hcall := hat.observe (.call .messageReceived)
  rcases hcall.run_of_parse_prog hbytes' (Prog.parse_append hread (pending ++ rest)) with
    ⟨t', hrun, hat', hlog⟩
  refine ⟨self.drop .list, t', ?_, ⟨⟨used.length, ?_, hat', ?_⟩, ?_⟩⟩
  · unfold received withReader
    refine Act.run_borrow_of_done (y := (self.drop .list, s')) ?_
    unfold withList
    refine Act.run_borrow_of_done (y := (self, s')) ?_
    rw [if_neg (not_not_intro rfl)]
    exact messageReceived_run hrun
  · rw [hbody, List.length_append]
    exact Nat.le_add_right _ _
  · rw [hbody, List.drop_left]
    exact hpending
  · rw [hlog, ← hat.taken]
    rfl

inductive Heard (cb : Callback σ ω) : σ -> List Parts -> σ -> Prop where
  | nil (s : σ) : Heard cb s [] s
  | cons {s s₁ s' : σ} {m : Parts} {ms : List Parts} (hm : Hears cb m.body s s₁)
      (hms : Heard cb s₁ ms s') : Heard cb s (m :: ms) s'

theorem Heard.concat {cb : Callback σ ω} {s s₁ s' : σ} {ms : List Parts} {m : Parts}
    (h : Heard cb s ms s₁) (hm : Hears cb m.body s₁ s') : Heard cb s (ms ++ [m]) s' := by
  induction h with
  | nil s => exact .cons hm (.nil s')
  | cons hfirst _ ih => exact .cons hfirst (ih hm)

section

variable {cb : Callback σ ω} {feed : Feed} {start n : Nat}

theorem received_heard {len : Nat} {x x' : Handle × σ} {t t' : Stream δ ω}
    (hat : Stream.At feed start n t) (hreader : x.1.reader = Reader.new)
    (hrun : (received cb len x).run Stream.handler t = .done (.ok (), x') t')
    (hmore : t'.bytes ≠ []) :
    len = 2 ∧ exists k self, Stream.At feed start (n + k) t' ∧
      (Tlv.Read.run (cb.messageReceived x.2) { reader := Reader.new, len := 2 }).parse
          (feed.bytes.drop n) = some (((.ok (), x'.2), self), feed.bytes.drop (n + k)) ∧
      x'.1 = { reader := self.drop .list, len := x.1.len } := by
  unfold received at hrun
  rcases Act.run_borrow_ok hrun with ⟨y, hlist, hx'⟩
  rcases Act.run_borrow_ok hlist with ⟨z, hbody, hy⟩
  by_cases hlen : len = 2
  · rw [if_neg (not_not_intro hlen), hreader] at hbody
    subst hlen
    change (((Tlv.Read.run (cb.messageReceived x.2) { reader := Reader.new, len := 2 }).embed
      TaskOp.read fun _ r => r).bind _).run Stream.handler
        (t.observe (.call .messageReceived)) = _ at hbody
    rw [Prog.run_bind, Stream.run_embed_read] at hbody
    rcases Outcome.andThen_eq_done hbody with ⟨⟨⟨res, s'⟩, self⟩, t₁, hread, hret⟩
    cases hret
    rcases (hat.observe _).parse_of_run hread hmore with ⟨k, hat', hparse⟩
    constructor
    · rfl
    · exists k, self
      rw [hx', hy]
      exact ⟨hat', hparse, rfl⟩
  · rw [if_pos hlen] at hbody
    cases hbody

theorem hears_of_parse {s s' : σ} {self : Handle} {bs rest used : List UInt8}
    (hparse : (Tlv.Read.run (cb.messageReceived s) { reader := Reader.new, len := 2 }).parse bs =
      some (((.ok (), s'), self), used ++ rest))
    (hpending : (self.drop .list).Pending used) :
    exists body, bs = body ++ rest ∧ Hears cb body s s' ∧ used.length ≤ body.length := by
  rcases Prog.parse_prefix hparse with ⟨read, hbs, hread⟩
  have hbody := Prog.parse_append hread used
  rw [List.nil_append] at hbody
  exists read ++ used
  constructor
  · rw [hbs, List.append_assoc]
  · constructor
    · exact ⟨self, used, hbody, hpending⟩
    · simp

/-!
## Messages
-/

theorem message_heard {size : Nat} {s : σ} {x' : Handle × σ} {t t' : Stream δ ω}
    (hat : Stream.At feed start n t)
    (hrun : (message cb ({ reader := Reader.new, len := size }, s)).run Stream.handler t =
      .done (.ok (), x') t') :
    exists (front : Front) (body : List UInt8) (back : Back) (rest : List UInt8),
      front.Shape 2 ∧ Hears cb body s x'.2 ∧ back.Shape ∧
      feed.bytes.drop n = front.bytes ++ (body ++ (back.bytes ++ rest)) ∧
      (Digest.checksum δ ((feed.bytes.take (n + front.bytes.length + body.length)).drop start)).toNat =
        back.c0.toNat + 256 * back.c1.toNat ∧
      size = 6 + x'.1.len ∧ x'.1.reader = Reader.new ∧
      Stream.At feed (n + front.bytes.length + body.length)
        (n + front.bytes.length + body.length + back.bytes.length) t' := by
  rw [message_eq] at hrun
  rcases Act.run_bind_ok hrun with ⟨len, x₁, t₁, h₁, hrun⟩
  rcases Act.run_bind_ok hrun with ⟨_, x₂, t₂, h₂, h₃⟩
  rcases onList_at strict_front hat h₁ with ⟨n₁, hle₁, hat₁, _, hs₁, hparse⟩
  change x₁.2 = s at hs₁
  rcases front_ok hparse with ⟨front, hfront, hbytes₁, hsize, hreader⟩
  have hn₁ := hat₁.eq_add hle₁ hbytes₁
  subst hn₁
  have hmore : t₂.bytes ≠ [] := fun hnil => closing_nil hnil h₃
  rcases received_heard hat₁ hreader h₂ hmore with ⟨hlen, k, self, hat₂, hread, hx₂⟩
  subst hlen
  rcases closing_ok hat₂ h₃ with
    ⟨used, crcHeader, c0, c1, marker, stop, _, hbytes₂, hpending, hcrcHeader, hmarker, hcrc,
      hlen₃, hreader₃, hs₃, hle₃, hat₃, _⟩
  rw [hx₂] at hpending hlen₃
  change (self.drop .list).Pending used at hpending
  rw [hbytes₂] at hread
  rcases hears_of_parse hread hpending with ⟨body, hbody, hhears, hused⟩
  let back : Back := { crcHeader := crcHeader, c0 := c0, c1 := c1, marker := marker }
  have hback : crcHeader ++ ([c0, c1] ++ (marker ++ feed.bytes.drop stop)) =
      back.bytes ++ feed.bytes.drop stop := by
    simp [Back.bytes, back]
  rw [hback] at hbody hbytes₂
  have hend : n + front.bytes.length + body.length =
      n + front.bytes.length + k + used.length := by
    have hwhole := congrArg List.length hbody
    have hpart := congrArg List.length hbytes₂
    have hle := hat₂.le
    rw [List.length_append, List.length_drop] at hwhole
    rw [List.length_append, List.length_drop] at hpart
    lia
  rw [← hend] at hcrc hat₃
  have hstop : stop = n + front.bytes.length + body.length + back.bytes.length := by
    have hrest : feed.bytes.drop (n + front.bytes.length) =
        (body ++ back.bytes) ++ feed.bytes.drop stop := by
      rw [hbody, List.append_assoc]
    have hle : n + front.bytes.length ≤ stop := by lia
    rw [hat₃.eq_add hle hrest, List.length_append, Nat.add_assoc (n + front.bytes.length)]
  rw [hstop] at hat₃
  exists front, body, back, feed.bytes.drop stop
  constructor
  · exact hfront
  · rw [hs₁] at hhears
    rw [hs₃]
    refine ⟨hhears, ⟨hcrcHeader, hmarker⟩, ?_, hcrc, ?_, hreader₃, hat₃⟩
    · rw [hbytes₁, hbody]
    · change x₁.1.len = x'.1.len + 2 at hlen₃
      rw [hsize, hlen₃]
      lia

theorem readFrameLoop_heard {pending : Nat} {x x' : Reader × σ} {t t' : Stream δ ω}
    (hat : Stream.At feed n n t) (hx : x.1 = { remainingBytes := 0, remainingTlvs := pending })
    (hrun : (readFrameLoop cb () x).run Stream.handler t = .done (.ok (.inl ()), x') t') :
    exists m : Parts, m.Shape pending ∧ Hears cb m.body x.2 x'.2 ∧
      m.back.verdict (Digest.checksum δ m.covered) = .ok () ∧
      feed.bytes.drop n = m.bytes ++ feed.bytes.drop (n + m.bytes.length) ∧
      Stream.At feed (n + m.bytes.length) (n + m.bytes.length) t' ∧
      x'.1 = { remainingBytes := 0, remainingTlvs := m.more } := by
  rcases Act.run_bind_ok hrun with ⟨ended, x₀, t₀, h₀, hrun⟩
  cases h₀
  split at hrun
  · cases hrun
  · rcases Act.run_bind_ok hrun with ⟨len, x₁, t₁, h₁, hrun⟩
    rcases Act.run_bind_ok hrun with ⟨_, x₂, t₂, h₂, hrun⟩
    rcases Act.run_bind_ok hrun with ⟨_, x₃, t₃, h₃, hret⟩
    rcases Act.run_borrow_ok h₁ with ⟨reader, hlist, hx₁⟩
    rw [Stream.run_onMessages, hx] at hlist
    rcases hat.read Reader.strict_readList hlist with ⟨k, hat₁, _, hparse₁⟩
    rcases Reader.readList_ok hparse₁ with ⟨hreader, skipped, header, hbytes₁, hskipped, hheader⟩
    rcases Act.run_borrow_ok h₂ with ⟨y, hmessage, hx₂⟩
    subst hx₁
    rw [hreader] at hmessage
    rcases message_heard hat₁ hmessage with
      ⟨front, body, back, rest, hfront, hbody, hback, hbytes₂, hcrc, hsize, hreader', hat₂⟩
    let m : Parts :=
      { skipped := skipped, header := header, more := y.1.len, front := front, body := body,
        back := back }
    have hk : n + k = n + (skipped ++ header).length := by
      apply hat₁.eq_add (Nat.le_add_right n k)
      rw [hbytes₁, List.append_assoc]
    have hsplit : feed.bytes.drop n = m.bytes ++ rest := by
      rw [hbytes₁, hbytes₂]
      simp only [m, Parts.bytes, Parts.covered, List.append_assoc]
    have hcovered : n + k + front.bytes.length + body.length = n + m.covered.length := by
      rw [hk]
      simp only [m, Parts.covered, List.length_append]
      lia
    have hlen : n + m.covered.length + back.bytes.length = n + m.bytes.length := by
      simp only [m, Parts.bytes, List.length_append]
      lia
    have htake : (feed.bytes.take (n + m.covered.length)).drop n = m.covered := by
      rw [List.drop_take, Nat.add_sub_cancel_left, hsplit, Parts.bytes, List.append_assoc,
        List.take_left]
    have hrest : feed.bytes.drop (n + m.bytes.length) = rest := by
      rw [← List.drop_drop, hsplit, List.drop_left]
    have hmore : y.1 = { reader := Reader.new, len := m.more } := by
      rw [← hreader']
    rw [hcovered, htake] at hcrc
    rw [hcovered, hlen] at hat₂
    rw [hsize] at hheader
    cases h₃
    cases hret
    refine ⟨m, ⟨hskipped.skips, hheader, hfront, hback⟩, ?_, Back.verdict_eq_ok.mpr hcrc, ?_,
      hat₂.reset.1, ?_⟩
    · rw [hx₂]
      exact hbody
    · rw [hrest]
      exact hsplit
    · rw [hx₂]
      change Handle.drop .list y.1 = _
      rw [hmore]
      exact Handle.drop_list_new
        (Nat.lt_of_le_of_lt (Nat.le_add_left _ 6) (Tlv.decodeHeader_lt hheader))

end

/-!
## Frames
-/

def Hearing (cb : Callback σ ω) (feed : Feed) (s : σ) (x : Reader × σ) (t : Stream δ ω) : Prop :=
  exists n ms, Stream.At feed n n t ∧
    x.1 = { remainingBytes := 0, remainingTlvs := leftOver 0 ms } ∧
    feed.bytes.take n = joined ms ∧ Chain 0 ms ∧ verdict δ ms = .ok () ∧ Heard cb s ms x.2

theorem Hearing.step {cb : Callback σ ω} {feed : Feed} {s : σ} {x x' : Reader × σ}
    {t t' : Stream δ ω} (h : Hearing cb feed s x t)
    (hrun : (readFrameLoop cb () x).run Stream.handler t = .done (.ok (.inl ()), x') t') :
    Hearing cb feed s x' t' := by
  rcases h with ⟨n, ms, hat, hx, hjoined, hchain, hverdict, hheard⟩
  rcases readFrameLoop_heard hat hx hrun with ⟨m, hm, hbody, hlast, hbytes, hat', hx'⟩
  exists n + m.bytes.length, ms ++ [m]
  refine ⟨hat', ?_, ?_, hchain.concat hm, ?_, hheard.concat hbody⟩
  · rw [leftOver_concat]
    exact hx'
  · rw [List.take_add, hjoined, hbytes, List.take_left, joined, joined, List.flatMap_append,
      List.flatMap_singleton]
  · rw [verdict_eq_ok, List.forall_mem_append, List.forall_mem_singleton, ← verdict_eq_ok]
    exact ⟨hverdict, hlast⟩

theorem readFrame_heard {cb : Callback σ ω} {s s' : σ} {t t' : Stream δ ω}
    (hrun : (readFrame cb s).run Stream.handler t = .done (.ok (), s') t') :
    exists (f : Sent δ) (ms : List Parts), t.unread = f.bytes ++ t'.unread ∧ ms ≠ [] ∧
      f.payload = joined ms ∧ Chain 0 ms ∧ verdict δ ms = .ok () ∧ Heard cb s ms s' := by
  have hstart : Hearing cb (Stream.frameFeed δ t.unread) s (Reader.new, s) t.newFrame :=
    ⟨0, [], Stream.newFrame_at t, rfl, rfl, trivial, rfl, .nil s⟩
  rcases Act.run_bind_ok hrun with ⟨_, s₀, t₀, h₀, hrun⟩
  cases h₀
  rcases Act.run_borrow_ok hrun with ⟨x, hloop, hs'⟩
  rcases Act.run_iterate_ok (fun _ => Hearing cb (Stream.frameFeed δ t.unread) s)
    (fun _ _ _ _ _ _ h => h.step) hstart hloop with
    ⟨_, x₁, t₁, ⟨n, ms, hat, hx, hjoined, hchain, hverdict, hheard⟩, hlast⟩
  cases hended : t₁.hasEnded with
  | false =>
      rcases Act.run_bind_ok hlast with ⟨ended, x₂, t₂, h₂, hlast⟩
      cases h₂
      rw [hended] at hlast
      rcases Act.run_bind_ok hlast with ⟨_, _, _, _, hlast⟩
      rcases Act.run_bind_ok hlast with ⟨_, _, _, _, hlast⟩
      rcases Act.run_bind_ok hlast with ⟨_, _, _, _, hret⟩
      cases hret
  | true =>
      rw [readFrameLoop_ended _ _ hended] at hlast
      cases hlast
      rcases hat.sent_of_hasEnded hended with ⟨f, hs, hbytes, hn, hpos⟩
      rw [hbytes, hn, List.take_length] at hjoined
      exists f, ms
      refine ⟨hs, ?_, hjoined, hchain, hverdict, ?_⟩
      · intro hnil
        rw [hnil] at hjoined
        apply hpos
        rw [hn, hjoined]
        rfl
      · rw [hs']
        exact hheard

end Sml
end Smartmeter
