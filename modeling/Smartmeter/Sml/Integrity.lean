import Smartmeter.Sml.ReadFrame
import Smartmeter.Sml.Run

/-!
# The integrity of frames

The messages of a frame are passed on before their checksums are known.  When
the frame is reported as valid nevertheless, its bytes are those of a frame with
a good checksum, and every message in it had a good checksum of its own.
-/

namespace Smartmeter
namespace Sml

open Foundation
open Frame (Feed Sent decodeFrame startMarker)
open Tlv (Handle Ops Reader decodeHeader)

variable {δ σ ω α : Type} [Digest δ] [Machine]

/-!
## Messages with a good checksum
-/

/--
A message of a frame with the given payload.  Its checksum covers the bytes from
`start`, where the message before it ended, up to `body`, where its body
ends; behind its body it holds that checksum and the end marker, which ends at
`stop`.  At `call` its body was passed to the callback.
-/
structure Accepted (δ : Type) [Digest δ] (payload : List UInt8) (start call body stop : Nat) :
    Prop where
  start_le : start ≤ call
  call_le : call ≤ body
  behind : exists header c0 c1 marker,
    payload.drop body = header ++ ([c0, c1] ++ (marker ++ payload.drop stop)) ∧
      decodeHeader header = some (.ok (.unsigned, 2), []) ∧
      decodeHeader marker = some (.error .endOfSmlMessage, []) ∧
      (Digest.checksum δ ((payload.take body).drop start)).toNat =
        UInt8.toNat c0 + 256 * UInt8.toNat c1

/-- What is written down about the messages of a frame, up to `stop`. -/
inductive Checked (δ : Type) [Digest δ] (payload : List UInt8) :
    Nat -> List (Entry ω) -> Prop where
  | start : Checked δ payload 0 []
  | message {start call body stop : Nat} {mid : List (Entry ω)} {u₀ u₁ u₂ : List UInt8}
      (hbefore : Checked δ payload start mid) (haccepted : Accepted δ payload start call body stop) :
      Checked δ payload stop (mid ++
        [{ mark := .call .messageReceived, unread := u₀, taken := payload.take call },
          { mark := .finalize (Digest.checksum δ ((payload.take body).drop start)),
            unread := u₁, taken := payload.take body },
          { mark := .reset, unread := u₂, taken := payload.take stop }])

/-!
## The steps of a message
-/

section

variable {feed : Feed} {start n : Nat} {x x' : Handle × σ} {t t' : Stream δ ω}

theorem received_ok {cb : Callback σ ω} {len : Nat} (h : Stream.At feed start n t)
    (hrun : (received cb len x).run Stream.handler t = .done (.ok (), x') t') :
    Stream.Within feed start n t' ∧
      t'.log = t.log ++
        [{ mark := .call .messageReceived, unread := t.unread, taken := feed.bytes.take n }] := by
  unfold received at hrun
  rcases Act.run_borrow_ok hrun with ⟨y, hlist, _⟩
  rcases Act.run_borrow_ok hlist with ⟨z, hreceived, _⟩
  split at hreceived
  · cases hreceived
  · change (((Tlv.Read.run (cb.messageReceived _) _).embed TaskOp.read fun _ r => r).bind
      _).run Stream.handler (t.observe (.call .messageReceived)) = _ at hreceived
    rw [Prog.run_bind, Stream.run_embed_read] at hreceived
    rcases Outcome.andThen_eq_done hreceived with ⟨⟨⟨res, s'⟩, handle⟩, t₁, hread, hret⟩
    have hwithin : Stream.Within feed start n (t.observe (.call .messageReceived)) :=
      Or.inr ⟨n, Nat.le_refl n, h.observe (.call .messageReceived)⟩
    replace hwithin := hwithin.run
      (Tlv.Read.run (cb.messageReceived x.2) { reader := x.1.reader, len := len })
    have hlog := Stream.run_read_log
      (Tlv.Read.run (cb.messageReceived x.2) { reader := x.1.reader, len := len })
      (t.observe (.call .messageReceived))
    rw [hread] at hwithin hlog
    cases hret
    refine ⟨hwithin, ?_⟩
    rw [← h.taken]
    exact hlog

theorem closing_nil (hnil : t.bytes = []) :
    (closing x).run Stream.handler t ≠ .done (.ok (), x') t' := by
  intro hrun
  rcases Act.run_bind_ok hrun with ⟨_, x₁, t₁, h₁, hrun⟩
  rcases Act.run_bind_ok hrun with ⟨crcCalc, x₂, t₂, h₂, hrun⟩
  rcases Act.run_bind_ok hrun with ⟨crcRec, x₃, t₃, h₃, hrun⟩
  have hnil₁ := Stream.run_read_nil hnil (Handle.withReader Reader.skipNow x.1)
  rw [(onList_ok h₁).1] at hnil₁
  have hnil₂ : t₂.bytes = [] := by
    cases h₂
    exact (Stream.finalize_bytes t₁).trans hnil₁
  rcases (strict_crc16 x₂.1).parse_of_run Stream.delivers (onList_ok h₃).1 with
    ⟨_, _, _, hparse⟩
  rcases crc16_ok hparse with ⟨used, header, c0, c1, hbytes, _⟩
  have hlen := congrArg List.length hbytes
  rw [hnil₂] at hlen
  simp only [List.length_nil, List.length_append, List.length_cons] at hlen
  lia

theorem message_ok {cb : Callback σ ω} (h : Stream.At feed start n t) (hle : start ≤ n)
    (hrun : (message cb x).run Stream.handler t = .done (.ok (), x') t') :
    exists call body stop u₀ u₁, Accepted δ feed.bytes start call body stop ∧
      Stream.At feed body stop t' ∧
      t'.log = t.log ++
        [{ mark := .call .messageReceived, unread := u₀, taken := feed.bytes.take call },
          { mark := .finalize (Digest.checksum δ ((feed.bytes.take body).drop start)),
            unread := u₁, taken := feed.bytes.take body }] := by
  rw [message_eq] at hrun
  rcases Act.run_bind_ok hrun with ⟨len, x₁, t₁, h₁, hrun⟩
  rcases Act.run_bind_ok hrun with ⟨_, x₂, t₂, h₂, h₃⟩
  rcases onList_at strict_front h h₁ with ⟨call, hcall, hat₁, hlog₁, _⟩
  rcases received_ok hat₁ h₂ with ⟨hwithin, hlog₂⟩
  rcases hwithin with hnil | ⟨n₂, hle₂, hat₂⟩
  · exact absurd h₃ (closing_nil hnil)
  · rcases closing_ok hat₂ h₃ with ⟨used, header, c0, c1, marker, stop, u₁, hbytes, _, hheader,
      hmarker, hcrc, _, _, _, _, hat₃, hlog₃⟩
    refine ⟨call, n₂ + used.length, stop, t₁.unread, u₁, ?_, hat₃, ?_⟩
    · refine ⟨hle.trans hcall, Nat.le_add_right_of_le hle₂, header, c0, c1, marker, ?_, hheader,
        hmarker, hcrc⟩
      rw [← List.drop_drop, hbytes, List.drop_left]
    · rw [hlog₃, hlog₂, hlog₁, List.append_assoc]
      rfl

end

/-!
## The messages of a frame
-/

/-- Between two messages the log tells of those that were read. -/
def Midway (feed : Feed) (log : List (Entry ω)) (t : Stream δ ω) : Prop :=
  exists n mid, Stream.At feed n n t ∧ Checked δ feed.bytes n mid ∧ t.log = log ++ mid

theorem readFrameLoop_step {cb : Callback σ ω} {feed : Feed} {log : List (Entry ω)}
    {x x' : Reader × σ} {t t' : Stream δ ω} (h : Midway feed log t)
    (hrun : (readFrameLoop cb () x).run Stream.handler t = .done (.ok (.inl ()), x') t') :
    Midway feed log t' := by
  rcases h with ⟨n, mid, hat, hchecked, hlog⟩
  rcases Act.run_bind_ok hrun with ⟨ended, x₀, t₀, h₀, hrun⟩
  cases h₀
  split at hrun
  · cases hrun
  · rcases Act.run_bind_ok hrun with ⟨len, x₁, t₁, h₁, hrun⟩
    rcases Act.run_bind_ok hrun with ⟨_, x₂, t₂, h₂, hrun⟩
    rcases Act.run_bind_ok hrun with ⟨_, x₃, t₃, h₃, hret⟩
    rcases Act.run_borrow_ok h₁ with ⟨reader, hlist, _⟩
    rw [Stream.run_onMessages] at hlist
    rcases hat.read Reader.strict_readList hlist with ⟨k, hat₁, hlog₁, _⟩
    rcases Act.run_borrow_ok h₂ with ⟨y, hmessage, _⟩
    rcases message_ok hat₁ (Nat.le_add_right n k) hmessage with
      ⟨call, body, stop, u₀, u₁, haccepted, hat₂, hlog₂⟩
    rcases hat₂.reset with ⟨hat₃, hlog₃⟩
    cases h₃
    cases hret
    have hmore : Checked δ feed.bytes stop (mid ++
        [{ mark := .call .messageReceived, unread := u₀, taken := feed.bytes.take call },
          { mark := .finalize (Digest.checksum δ ((feed.bytes.take body).drop n)),
            unread := u₁, taken := feed.bytes.take body },
          { mark := .reset, unread := t₂.unread, taken := feed.bytes.take stop }]) :=
      .message hchecked haccepted
    refine ⟨stop, _, hat₃, hmore, ?_⟩
    rw [hlog₃, hlog₂, hlog₁, hlog, List.append_assoc, List.append_assoc]
    rfl

theorem readFrame_ok {cb : Callback σ ω} {s s' : σ} {t t' : Stream δ ω}
    (hrun : (readFrame cb s).run Stream.handler t = .done (.ok (), s') t') :
    exists (f : Sent δ) (mid : List (Entry ω)), t.unread = f.bytes ++ t'.unread ∧
      Checked δ f.payload f.payload.length mid ∧ t'.log = t.log ++ mid := by
  have hstart : Midway (Stream.frameFeed δ t.unread) t.log t.newFrame :=
    ⟨0, [], Stream.newFrame_at t, .start, (List.append_nil _).symm⟩
  rcases Act.run_bind_ok hrun with ⟨_, s₀, t₀, h₀, hrun⟩
  cases h₀
  rcases Act.run_borrow_ok hrun with ⟨x, hloop, _⟩
  rcases Act.run_iterate_ok (fun _ _ t₁ => Midway (Stream.frameFeed δ t.unread) t.log t₁)
    (fun _ _ _ _ _ _ => readFrameLoop_step) hstart hloop with
    ⟨_, x₁, t₁, ⟨n, mid, hat, hchecked, hlog⟩, hlast⟩
  rcases Act.run_bind_ok hlast with ⟨ended, x₂, t₂, hended, hlast⟩
  have hvalue : t₁.hasEnded = ended ∧ t₁ = t₂ := by
    cases hended
    exact ⟨rfl, rfl⟩
  rcases hvalue with ⟨hvalue, ht₂⟩
  subst ht₂
  cases ended with
  | true =>
      cases hlast
      rcases hat.sent_of_hasEnded hvalue with ⟨f, hs, hbytes, hn, _⟩
      rw [hbytes, hn] at hchecked
      exact ⟨f, mid, hs, hchecked, hlog⟩
  | false =>
      rcases Act.run_bind_ok hlast with ⟨_, _, _, _, hlast⟩
      rcases Act.run_bind_ok hlast with ⟨_, _, _, _, hlast⟩
      rcases Act.run_bind_ok hlast with ⟨_, _, _, _, hret⟩
      cases hret

/-!
## The log of a run
-/

/-- What a report of a valid frame says about the bytes of the source. -/
def Vouches (δ : Type) [Digest δ] (source : List UInt8) (before : List (Entry ω))
    (e : Entry ω) : Prop :=
  e.mark = .call (.frameFinished true) ->
    exists (pre : List (Entry ω)) (start : Entry ω) (mid : List (Entry ω))
      (skipped : List UInt8) (f : Sent δ),
      before = pre ++ start :: mid ∧ start.mark = .call .frameStart ∧
        source = skipped ++ startMarker ++ start.unread ∧
        start.unread = f.bytes ++ e.unread ∧
        Checked δ f.payload f.payload.length mid

def Sound (δ : Type) [Digest δ] (source : List UInt8) (log : List (Entry ω)) : Prop :=
  forall before e after, log = before ++ e :: after -> Vouches δ source before e

namespace Sound

variable {source : List UInt8} {log more : List (Entry ω)} {e : Entry ω}

theorem of_prefix (h : Sound δ source log) (hbegins : more <+: log) : Sound δ source more := by
  intro before e after hmore
  rcases hbegins with ⟨rest, hlog⟩
  refine h before e (after ++ rest) ?_
  rw [← hlog, hmore, List.append_assoc]
  rfl

theorem snoc (h : Sound δ source log) (he : Vouches δ source log e) :
    Sound δ source (log ++ [e]) := by
  intro before e' after hlog
  rcases List.eq_nil_or_concat after with hnil | ⟨after', last, hlast⟩
  · rw [hnil] at hlog
    rcases List.append_inj' hlog rfl with ⟨hbefore, hentry⟩
    injection hentry with hentry
    rw [← hbefore, ← hentry]
    exact he
  · rw [hlast, List.concat_eq_append, ← List.cons_append, ← List.append_assoc] at hlog
    exact h before e' after' (List.append_inj' hlog rfl).1

theorem append (h : Sound δ source log)
    (hmore : forall e, e ∈ more -> e.mark ≠ .call (.frameFinished true)) :
    Sound δ source (log ++ more) := by
  induction more generalizing log with
  | nil =>
      rw [List.append_nil]
      exact h
  | cons e more ih =>
      rw [List.append_cons]
      refine ih (h.snoc fun he => ?_) fun e' he' => hmore e' (List.mem_cons_of_mem e he')
      exact absurd he (hmore e List.mem_cons_self)

end Sound

omit [Digest δ] [Machine] in
theorem Mark.Inner.ne_finished {mark : Mark ω} (h : mark.Inner) (valid : Bool) :
    mark ≠ .call (.frameFinished valid) := by
  intro hmark
  rw [hmark] at h
  cases h

theorem readFrame_unread (cb : Callback σ ω) {s : List UInt8} {x : σ} {t : Stream δ ω}
    (h : t.unread <:+ s) : ((readFrame cb x).run Stream.handler t).state.unread <:+ s := by
  have hnew : (perform .newFrame x : Prog (TaskSig ω) (Except Error Unit × σ)).run
      Stream.handler t = .done (.ok (), x) t.newFrame := rfl
  have hbehind : t.newFrame.Behind s := ⟨h, (Frame.decode_behind _ _ _ _).mono h⟩
  unfold readFrame
  rw [Act.run_bind_of_ok hnew]
  exact (hbehind.run _).unread

theorem Between.sound {cb : Callback σ ω} {s₀ s : σ} {source : List UInt8} {t : Stream δ ω}
    (h : Between cb s₀ source s t) : Sound δ source t.log ∧ t.unread <:+ source := by
  induction h with
  | start =>
      refine ⟨?_, List.suffix_rfl⟩
      intro before e after hlog
      cases before with
      | nil => cases hlog
      | cons e' before => cases hlog
  | @frame s s₁ t t₀ t₁ skipped res hbefore hlog hmarker hread ih =>
      rcases ih with ⟨hsound, before, hsource⟩
      rw [hmarker, ← List.append_assoc, ← List.append_assoc] at hsource
      have hbehind : t₀.unread <:+ source := ⟨_, hsource⟩
      have hunread := readFrame_unread cb (x := cb.frameStart s)
        (t := t₀.observe (.call .frameStart)) hbehind
      rw [hread] at hunread
      have hext := Stream.run_extends (readFrame_uses cb (cb.frameStart s))
        (t₀.observe (.call .frameStart))
      rw [hread] at hext
      rcases hext with ⟨mid, hmid, hinner⟩
      have hframe : Sound δ source t₁.log := by
        change t₁.log = _ at hmid
        rw [hmid]
        refine Sound.append ?_ fun e he => (hinner e he).ne_finished true
        change Sound δ source (t₀.log ++ [_])
        rw [hlog]
        exact hsound.snoc fun he => by cases he
      have hreport : Vouches δ source t₁.log
          { mark := .call (.frameFinished res.isOk), unread := t₁.unread, taken := t₁.taken } := by
        intro he
        cases res with
        | ok a =>
            rcases readFrame_ok hread with ⟨f, mid', hf, hchecked, hlog'⟩
            refine ⟨t.log,
              { mark := .call .frameStart, unread := t₀.unread, taken := t₀.taken },
              mid', before ++ skipped, f, ?_, rfl, hsource.symm, hf, hchecked⟩
            rw [hlog', ← hlog]
            exact List.append_assoc _ _ _
        | error e => cases he
      refine ⟨?_, ?_⟩
      · rw [Stream.tell_log]
        refine (hframe.snoc hreport).append ?_
        intro e he
        rcases List.mem_map.mp he with ⟨data, _, rfl⟩
        intro hmark
        cases hmark
      · rw [Stream.tell_unread]
        exact hunread

theorem Reached.sound {cb : Callback σ ω} {s₀ : σ} {source : List UInt8} {t : Stream δ ω}
    (h : Reached cb s₀ source t) : Sound δ source t.log := by
  cases h with
  | between hbefore hlog =>
      rw [hlog]
      exact hbefore.sound.1
  | @within s t t₀ t' skipped hbefore hlog hmarker hwithin =>
      rcases hwithin with ⟨mid, hmid, hinner⟩
      rw [hmid]
      refine Sound.append ?_ fun e he => (hinner e he).ne_finished true
      change Sound δ source (t₀.log ++ [_])
      rw [hlog]
      exact hbefore.sound.1.snoc fun he => by cases he

/--
Whatever the callback does and however the source is polled, a frame is reported
as valid only when the bytes behind the start marker are those of a frame that
was sent correctly, and all its messages had a good checksum.
-/
theorem frame_integrity {ρ : Type} [Io.ByteSource ρ] (cb : Callback σ ω) (s₀ : σ) (reader : ρ)
    (n : Nat) :
    Sound δ (Io.ByteSource.unread reader)
      ((Standing.waiting (.fresh (task cb s₀)) (World.new reader) :
        Standing (taskDriver (ρ := ρ) (δ := δ)) _).polls n).state.log := by
  rcases polls_reached (δ := δ) cb s₀ reader n with ⟨t, hreached, hlog⟩
  exact hreached.sound.of_prefix hlog

end Sml
end Smartmeter
