import Smartmeter.Sml.Position
import Smartmeter.Sml.Simulation
import Smartmeter.Sml.StartMarker

/-!
# The runs of the task

However a run of the task ends, its log tells of the frames it has read, one
after the other, and of at most one frame that it is still reading.
-/

namespace Smartmeter
namespace Sml

open Foundation
open Frame (startMarker)

variable {δ σ τ ω α : Type}

/-!
## The start marker
-/

/-- Some bytes of `s` were consumed, and the last `count` of them are matched. -/
def Matched (s : List UInt8) (count : Nat) (t : Stream δ ω) : Prop :=
  count ≤ 8 ∧ exists consumed, s = consumed ++ t.unread ∧ startMarker.take count <:+ consumed

theorem Matched.step {s rest : List UInt8} {count : Nat} {t t' : Stream δ ω} {byte : UInt8}
    (h : Matched s count t) (hcount : count < 8) (hbyte : t.unread = byte :: rest)
    (ht' : t'.unread = rest) : Matched s (startSequenceStep count byte) t' := by
  rcases h with ⟨_, consumed, hs, hsuffix⟩
  rcases startSequenceStep_suffix byte hcount hsuffix with ⟨hle, hsuffix'⟩
  refine ⟨hle, consumed ++ [byte], ?_, hsuffix'⟩
  rw [hs, hbyte, ht', List.append_assoc]
  rfl

variable [Digest δ] [Machine]

theorem waitForStartSequence_holds {s : List UInt8} {x : τ} {t : Stream δ ω}
    (h : t.unread <:+ s) :
    ((waitForStartSequence (ω := ω) x).run Stream.handler t).Holds
      (fun y t' => y.1 = .ok () ∧ y.2 = x ∧ t'.log = t.log ∧
        exists skipped, s = skipped ++ startMarker ++ t'.unread)
      (fun t' => t'.log = t.log) := by
  have hstart : Matched s 0 t := by
    rcases h with ⟨skipped, hs⟩
    exact ⟨Nat.zero_le _, skipped, hs.symm, List.nil_suffix⟩
  refine Act.holds_iterate
    (fun count y t' => y = x ∧ t'.log = t.log ∧ Matched s count t') ?_ ?_
    ⟨rfl, rfl, hstart⟩
  · rintro count y t₁ ⟨hy, hlog, hmatched⟩
    unfold startSequenceLoop
    by_cases hcount : count < 8
    · rw [if_pos hcount]
      change (t₁.sourceU8.andThen fun r t₂ => _).Holds _ _
      unfold Stream.sourceU8
      cases hunread : t₁.unread with
      | nil => exact hlog
      | cons byte rest =>
          refine ⟨?_, ?_, ?_⟩
          · intro count' hcount'
            injection hcount' with hcount'
            injection hcount' with hcount'
            subst hcount'
            exact ⟨hy, hlog, hmatched.step hcount hunread rfl⟩
          · intro a ha
            injection ha with ha
            cases ha
          · intro e he
            cases he
    · rw [if_neg hcount]
      refine And.intro ?_ (And.intro ?_ ?_)
      · intro count' hcount'
        injection hcount' with hcount'
        cases hcount'
      · intro a ha
        rcases hmatched with ⟨hle, consumed, hs, skipped, hmarker⟩
        have height : count = 8 := Nat.le_antisymm hle (Nat.not_lt.mp hcount)
        rw [height] at hmarker
        refine ⟨rfl, hy, hlog, skipped, ?_⟩
        rw [hs, ← hmarker]
        rfl
      · intro e he
        cases he
  · rintro count y t₁ ⟨_, hlog, _⟩
    exact hlog

/-!
## What is written down within a frame
-/

inductive Mark.Inner : Mark ω -> Prop where
  | messageReceived : Inner (.call .messageReceived)
  | finalize (crcCalc : UInt16) : Inner (.finalize crcCalc)
  | reset : Inner .reset

inductive TaskOp.Inner : TaskOp ω -> Prop where
  | newFrame : Inner .newFrame
  | hasEnded : Inner .hasEnded
  | finalize : Inner .finalize
  | reset : Inner .reset
  | read (o : ReadOp) : Inner (.read o)
  | messageReceived : Inner (.call .messageReceived)

/-- What is done once the frame has begun. -/
inductive TaskOp.InFrame : TaskOp ω -> Prop where
  | hasEnded : InFrame .hasEnded
  | finalize : InFrame .finalize
  | reset : InFrame .reset
  | read (o : ReadOp) : InFrame (.read o)
  | messageReceived : InFrame (.call .messageReceived)

omit [Digest δ] [Machine] in
theorem TaskOp.InFrame.inner {o : TaskOp ω} (h : o.InFrame) : o.Inner := by
  cases h with
  | hasEnded => exact .hasEnded
  | finalize => exact .finalize
  | reset => exact .reset
  | read o => exact .read o
  | messageReceived => exact .messageReceived

namespace Stream

omit [Digest δ] [Machine]

def Extends (t t' : Stream δ ω) : Prop :=
  exists mid, t'.log = t.log ++ mid ∧ forall e, e ∈ mid -> e.mark.Inner

theorem Extends.of_log {t t' : Stream δ ω} (h : t'.log = t.log) : t.Extends t' :=
  ⟨[], h.trans (List.append_nil _).symm, fun _ he => absurd he List.not_mem_nil⟩

theorem Extends.trans {t t' t'' : Stream δ ω} (h : t.Extends t') (h' : t'.Extends t'') :
    t.Extends t'' := by
  rcases h with ⟨mid, hlog, hmid⟩
  rcases h' with ⟨mid', hlog', hmid'⟩
  refine ⟨mid ++ mid', ?_, ?_⟩
  · rw [hlog', hlog, List.append_assoc]
  · intro e he
    rcases List.mem_append.mp he with hleft | hright
    · exact hmid e hleft
    · exact hmid' e hright

theorem extends_observe {mark : Mark ω} (t : Stream δ ω) (h : mark.Inner) :
    t.Extends (t.observe mark) := by
  refine ⟨[{ mark := mark, unread := t.unread, taken := t.taken }], rfl, ?_⟩
  intro e he
  rw [List.mem_singleton.mp he]
  exact h

theorem step_extends [Digest δ] {o : TaskOp ω} (h : o.Inner) (t : Stream δ ω) :
    t.Extends (handler o t).state := by
  cases h with
  | newFrame => exact .of_log rfl
  | hasEnded => exact .of_log rfl
  | read o => exact .of_log (read_after o t).log
  | messageReceived => exact extends_observe t .messageReceived
  | finalize =>
      change t.Extends t.finalize.2
      unfold finalize
      cases hline : t.line with
      | source unread => exact extends_observe t (.finalize _)
      | frame feed digest =>
          exact Extends.trans (.of_log rfl) (extends_observe _ (.finalize _))
  | reset =>
      change t.Extends t.reset
      unfold reset
      cases hline : t.line with
      | source unread => exact extends_observe t .reset
      | frame feed digest =>
          exact Extends.trans (.of_log rfl) (extends_observe _ .reset)

theorem run_extends [Digest δ] {p : Prog (TaskSig ω) α} (h : p.Uses TaskOp.Inner)
    (t : Stream δ ω) : t.Extends (p.run handler t).state :=
  h.invariant (P := t.Extends) (fun _ t' ho hext => hext.trans (step_extends ho t'))
    (.of_log rfl)

end Stream

omit [Machine] in
theorem perform_uses {O : TaskOp ω -> Prop} {o : TaskOp ω} (h : O o) :
    Act.Uses O (perform o : Act (TaskSig ω) Error τ _) :=
  fun _ => ⟨h, fun _ => trivial⟩

omit [Machine] in
theorem onMessages_uses (p : Act Tlv.Ops Error τ α) :
    Act.Uses TaskOp.InFrame (onMessages (ω := ω) p) :=
  fun t => Prog.Uses.embed .read (p t)

omit [Machine] in
theorem onList_uses (p : Act Tlv.Ops Error Tlv.Handle α) :
    Act.Uses TaskOp.InFrame (onList (σ := σ) (ω := ω) p) :=
  .borrow (onMessages_uses p)

theorem messageReceived_uses (cb : Callback σ ω) :
    Act.Uses TaskOp.InFrame (messageReceived cb) := by
  refine .bind (perform_uses .messageReceived) ?_
  intro _ t
  exact (Prog.Uses.embed .read _).bind fun _ => trivial

theorem messageBody_uses (cb : Callback σ ω) : Act.Uses TaskOp.InFrame (messageBody cb) := by
  refine .bind (onList_uses _) ?_
  intro len
  refine .borrow (.borrow ?_)
  split
  · exact .fail _
  · exact messageReceived_uses cb

theorem message_uses (cb : Callback σ ω) : Act.Uses TaskOp.InFrame (message cb) := by
  refine .bind (onList_uses _) ?_
  intro _
  refine .bind (onList_uses _) ?_
  intro _
  refine .bind (onList_uses _) ?_
  intro _
  refine .bind (messageBody_uses cb) ?_
  intro _
  refine .bind (onList_uses _) ?_
  intro _
  refine .bind (perform_uses .finalize) ?_
  intro crcCalc
  refine .bind (onList_uses _) ?_
  intro crcRec
  refine .bind (onList_uses _) ?_
  intro _
  split
  · exact .fail _
  · exact .pure _

theorem readFrameLoop_uses (cb : Callback σ ω) :
    Act.Uses TaskOp.InFrame (readFrameLoop cb ()) := by
  refine .bind (perform_uses .hasEnded) ?_
  intro ended
  cases ended with
  | true => exact .pure _
  | false =>
      refine .bind (.borrow (onMessages_uses _)) ?_
      intro len
      refine .bind (.borrow (message_uses cb)) ?_
      intro _
      exact .bind (perform_uses .reset) fun _ => .pure _

theorem readFrame_uses (cb : Callback σ ω) : Act.Uses TaskOp.Inner (readFrame cb) := by
  refine .bind (perform_uses .newFrame) ?_
  intro _
  refine .borrow (.iterate ?_ _ _)
  intro _
  exact (readFrameLoop_uses cb).mono fun _ => TaskOp.InFrame.inner

/-!
## Frames one after the other
-/

namespace Stream

omit [Digest δ] [Machine]

/-- The calls of the C function, or of whatever is told about a frame. -/
def tell : List ω -> Stream δ ω -> Stream δ ω
  | [], t => t
  | data :: rest, t => tell rest (t.observe (.call (.function data)))

@[simp] theorem observe_unread (mark : Mark ω) (t : Stream δ ω) :
    (t.observe mark).unread = t.unread := rfl

@[simp] theorem observe_taken (mark : Mark ω) (t : Stream δ ω) :
    (t.observe mark).taken = t.taken := rfl

theorem tell_unread (data : List ω) (t : Stream δ ω) : (t.tell data).unread = t.unread := by
  induction data generalizing t with
  | nil => rfl
  | cons d data ih => exact ih _

theorem tell_log (data : List ω) (t : Stream δ ω) :
    (t.tell data).log = t.log ++ data.map fun d =>
      { mark := .call (.function d), unread := t.unread, taken := t.taken } := by
  induction data generalizing t with
  | nil => exact (List.append_nil _).symm
  | cons d data ih =>
      rw [List.map_cons]
      exact (ih _).trans (List.append_cons _ _ _).symm

end Stream

omit [Machine] in
theorem run_callFunction (data : List ω) (x : τ) (t : Stream δ ω) :
    (callFunction data x).run Stream.handler t = .done (.ok (), x) (t.tell data) := by
  induction data generalizing t with
  | nil => rfl
  | cons d data ih => exact ih _

omit [Machine] in
theorem run_frameFinished (cb : Callback σ ω) (valid : Bool) (s : σ) (t : Stream δ ω) :
    (frameFinished cb valid s).run Stream.handler t =
      .done (.ok (), (cb.frameFinished valid s).1)
        ((t.observe (.call (.frameFinished valid))).tell (cb.frameFinished valid s).2) :=
  run_callFunction _ _ _

/-- The task behind a start marker: what it does with the frame, and what it passes on. -/
theorem run_taskLoop (cb : Callback σ ω) {s s' : σ} {t t' : Stream δ ω}
    (hwait : (waitForStartSequence s).run Stream.handler t = .done (.ok (), s') t') :
    (taskLoop cb () s).run Stream.handler t =
      ((readFrame cb (cb.frameStart s')).run Stream.handler
        (t'.observe (.call .frameStart))).andThen fun x t₁ =>
          .done (.ok (.inl ()), (cb.frameFinished x.1.isOk x.2).1)
            ((t₁.observe (.call (.frameFinished x.1.isOk))).tell
              (cb.frameFinished x.1.isOk x.2).2) := by
  unfold taskLoop
  rw [Act.run_bind_of_ok hwait]
  change ((Act.attempt (readFrame cb) >>= fun r => _) (cb.frameStart s')).run
    Stream.handler (t'.observe (.call .frameStart)) = _
  rw [Act.run_attempt_bind]
  congr 1
  funext x t₁
  rcases x with ⟨res, s₁⟩
  cases res with
  | ok _ =>
      dsimp only
      rw [Act.run_bind_of_ok (run_frameFinished cb true s₁ t₁)]
      rfl
  | error e =>
      dsimp only
      rw [Act.run_bind_of_ok (run_frameFinished cb false s₁ t₁)]
      rfl

/--
A run of the task between two frames: the state of the callback and what was
done, after some frames that were read to their end.
-/
inductive Between (cb : Callback σ ω) (s₀ : σ) (source : List UInt8) :
    σ -> Stream δ ω -> Prop where
  | start : Between cb s₀ source s₀ (Stream.new source)
  | frame {s s₁ : σ} {t t₀ t₁ : Stream δ ω} {skipped : List UInt8} {res : Except Error Unit}
      (hbefore : Between cb s₀ source s t) (hlog : t₀.log = t.log)
      (hmarker : t.unread = skipped ++ startMarker ++ t₀.unread)
      (hread : (readFrame cb (cb.frameStart s)).run Stream.handler
        (t₀.observe (.call .frameStart)) = .done (res, s₁) t₁) :
      Between cb s₀ source (cb.frameFinished res.isOk s₁).1
        ((t₁.observe (.call (.frameFinished res.isOk))).tell
          (cb.frameFinished res.isOk s₁).2)

/-- However far a run has come, it is between two frames or within one. -/
inductive Reached (cb : Callback σ ω) (s₀ : σ) (source : List UInt8) :
    Stream δ ω -> Prop where
  | between {s : σ} {t t' : Stream δ ω} (hbefore : Between cb s₀ source s t)
      (hlog : t'.log = t.log) : Reached cb s₀ source t'
  | within {s : σ} {t t₀ t' : Stream δ ω} {skipped : List UInt8}
      (hbefore : Between cb s₀ source s t) (hlog : t₀.log = t.log)
      (hmarker : t.unread = skipped ++ startMarker ++ t₀.unread)
      (hwithin : (t₀.observe (.call .frameStart)).Extends t') : Reached cb s₀ source t'

theorem taskLoop_holds {cb : Callback σ ω} {s₀ s : σ} {source : List UInt8}
    {t : Stream δ ω} (h : Between cb s₀ source s t) :
    ((taskLoop cb () s).run Stream.handler t).Holds
      (fun x t' => x.1 = .ok (.inl ()) ∧ Between cb s₀ source x.2 t')
      (Reached cb s₀ source) := by
  have hwait := waitForStartSequence_holds (x := s) (List.suffix_refl t.unread)
  cases hrun : (waitForStartSequence s).run Stream.handler t with
  | blocked t' =>
      rw [hrun] at hwait
      unfold taskLoop
      rw [Act.bind_apply, Prog.run_bind, hrun]
      exact .between h hwait
  | stuck t' =>
      rw [hrun] at hwait
      unfold taskLoop
      rw [Act.bind_apply, Prog.run_bind, hrun]
      exact .between h hwait
  | done x t₀ =>
      rw [hrun] at hwait
      rcases x with ⟨res, s'⟩
      rcases hwait with ⟨hok, hs', hlog, skipped, hmarker⟩
      change res = .ok () at hok
      change s' = s at hs'
      subst hok hs'
      have hext := Stream.run_extends (readFrame_uses cb (cb.frameStart s'))
        (t₀.observe (.call .frameStart))
      rw [run_taskLoop cb hrun]
      cases hread : (readFrame cb (cb.frameStart s')).run Stream.handler
          (t₀.observe (.call .frameStart)) with
      | done x t₁ => exact ⟨rfl, .frame h hlog hmarker hread⟩
      | blocked t' =>
          rw [hread] at hext
          exact .within h hlog hmarker hext
      | stuck t' =>
          rw [hread] at hext
          exact .within h hlog hmarker hext

theorem task_holds (cb : Callback σ ω) (s₀ : σ) (source : List UInt8) :
    ((task cb s₀).run Stream.handler (Stream.new source : Stream δ ω)).Holds
      (fun _ _ => False) (Reached cb s₀ source) := by
  refine Act.holds_iterate (fun _ s t => Between cb s₀ source s t) ?_ ?_ .start
  · intro _ s t h
    refine (taskLoop_holds h).mono ?_ (fun _ => id)
    rintro ⟨res, s'⟩ t' ⟨hres, hbetween⟩
    refine ⟨fun _ _ => hbetween, ?_, ?_⟩
    · intro a ha
      rw [hres] at ha
      cases ha
    · intro e he
      rw [hres] at he
      cases he
  · intro _ s t h
    exact .between h rfl

/-!
## Runs of polls
-/

namespace Stream

omit [Machine]

theorem step_log (o : TaskOp ω) (t : Stream δ ω) : t.log <+: (handler o t).state.log := by
  have hinner : o.Inner -> t.log <+: (handler o t).state.log := by
    intro h
    rcases step_extends h t with ⟨mid, hlog, _⟩
    rw [hlog]
    exact List.prefix_append _ _
  cases o with
  | newFrame => exact hinner .newFrame
  | hasEnded => exact hinner .hasEnded
  | finalize => exact hinner .finalize
  | reset => exact hinner .reset
  | read o => exact hinner (.read o)
  | call e => exact List.prefix_append _ _
  | readU8 =>
      change t.log <+: t.sourceU8.state.log
      unfold sourceU8
      cases t.unread with
      | nil => exact List.prefix_rfl
      | cons b rest => exact List.prefix_rfl

end Stream

namespace World

variable {ρ : Type} [Io.ByteSource ρ]

theorem rest_log {o : TaskOp ω} (fut : TaskFut o) (t : Stream δ ω) :
    t.log <+: ((agrees (ρ := ρ) (δ := δ) (ω := ω)).rest fut t).state.log := by
  cases o with
  | read o =>
      cases o with
      | u8 => exact Stream.step_log (.read .u8) t
      | exact n =>
          have hstep := Stream.step_log (.read (.exact fut.buf)) t
          change t.log <+: (t.readExact fut.buf).state.log at hstep
          change t.log <+: ((t.readExact fut.buf).andThen _).state.log
          cases hans : t.readExact fut.buf with
          | done r t' =>
              rw [hans] at hstep
              exact hstep
          | blocked t' =>
              rw [hans] at hstep
              exact hstep
          | stuck t' =>
              rw [hans] at hstep
              exact hstep
  | readU8 => exact Stream.step_log .readU8 t
  | newFrame => exact Stream.step_log .newFrame t
  | hasEnded => exact Stream.step_log .hasEnded t
  | finalize => exact Stream.step_log .finalize t
  | reset => exact Stream.step_log .reset t
  | call e => exact Stream.step_log (.call e) t

theorem finished_view_iff (p : Prog (TaskSig ω) α) (reader : ρ) (a : α) (t : Stream δ ω) :
    (exists n w, ((Standing.waiting (.fresh p) (World.new reader) :
        Standing (taskDriver (ρ := ρ) (δ := δ)) α).polls n) = .finished a w ∧ w.view = t) <->
      p.run Stream.handler (Stream.new (Io.ByteSource.unread reader) : Stream δ ω) =
        .done a t := by
  constructor
  · rintro ⟨n, w, hpolls, hview⟩
    have hout := ((agrees (ρ := ρ) (δ := δ)).polls_sound n
      (x := .waiting (.fresh p) (World.new reader)) trivial).2
    rw [hpolls] at hout
    rw [← hview]
    exact hout.symm
  · intro hrun
    rcases (patient (ρ := ρ) (δ := δ)).settles
      (x := .waiting (.fresh p) (World.new reader)) trivial with ⟨n, hshows⟩
    change Standing.Shows _ _ (p.run Stream.handler (Stream.new _)) at hshows
    rw [hrun] at hshows
    cases hpolls : (Standing.waiting (.fresh p) (World.new reader) :
        Standing (taskDriver (ρ := ρ) (δ := δ)) α).polls n with
    | waiting task w =>
        rw [hpolls] at hshows
        cases hshows
    | finished a' w =>
        rw [hpolls] at hshows
        injection hshows with ha hview
        exact ⟨n, w, by rw [ha]; exact hpolls, hview.symm⟩
    | hung w =>
        rw [hpolls] at hshows
        cases hshows

theorem finished_iff (p : Prog (TaskSig ω) α) (reader : ρ) (a : α) :
    (exists n w, ((Standing.waiting (.fresh p) (World.new reader) :
        Standing (taskDriver (ρ := ρ) (δ := δ)) α).polls n) = .finished a w) <->
      exists t, p.run Stream.handler
        (Stream.new (Io.ByteSource.unread reader) : Stream δ ω) = .done a t := by
  constructor
  · rintro ⟨n, w, hpolls⟩
    exact ⟨w.view, (finished_view_iff p reader a w.view).mp ⟨n, w, hpolls, rfl⟩⟩
  · rintro ⟨t, hrun⟩
    rcases (finished_view_iff p reader a t).mpr hrun with ⟨n, w, hpolls, _⟩
    exact ⟨n, w, hpolls⟩

theorem polls_log (p : Prog (TaskSig ω) α) (reader : ρ) (n : Nat) :
    ((Standing.waiting (.fresh p) (World.new reader) :
        Standing (taskDriver (ρ := ρ) (δ := δ)) α).polls n).state.log <+:
      (p.run Stream.handler
        (Stream.new (Io.ByteSource.unread reader) : Stream δ ω)).state.log := by
  have hsound := (agrees (ρ := ρ) (δ := δ)).polls_sound n
    (x := .waiting (.fresh p) (World.new reader)) trivial
  have hmono := (agrees (ρ := ρ) (δ := δ)).outlook_monotone
    (R := fun t t' => t.log <+: t'.log) (fun _ => List.prefix_rfl)
    (fun _ _ _ h h' => h.trans h') Stream.step_log rest_log
    ((Standing.waiting (.fresh p) (World.new reader)).polls n)
  rw [hsound.2] at hmono
  exact hmono

end World

theorem polls_reached {ρ : Type} [Io.ByteSource ρ] (cb : Callback σ ω) (s₀ : σ)
    (reader : ρ) (n : Nat) :
    exists t : Stream δ ω, Reached cb s₀ (Io.ByteSource.unread reader) t ∧
      ((Standing.waiting (.fresh (task cb s₀)) (World.new reader) :
        Standing (taskDriver (ρ := ρ) (δ := δ)) _).polls n).state.log <+: t.log := by
  have hlog := World.polls_log (δ := δ) (task cb s₀) reader n
  have hholds := task_holds (δ := δ) cb s₀ (Io.ByteSource.unread reader)
  cases hrun : (task cb s₀).run Stream.handler
      (Stream.new (Io.ByteSource.unread reader) : Stream δ ω) with
  | done x t =>
      rw [hrun] at hholds
      exact hholds.elim
  | blocked t =>
      rw [hrun] at hholds hlog
      exact ⟨t, hholds, hlog⟩
  | stuck t =>
      rw [hrun] at hholds hlog
      exact ⟨t, hholds, hlog⟩

end Sml
end Smartmeter
