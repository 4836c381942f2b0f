import Smartmeter.Sml.Blocked
import Smartmeter.Sml.Crc
import Smartmeter.Sml.EndOfInput

/-!
# Whether the task ends

On a source that comes to an end the task ends with an error, unless it meets
the end within a frame: the poll that does so does not return.
-/

namespace Smartmeter
namespace Sml

open Foundation
open Frame (Feed)
open Io (AsyncRead ByteSource FiniteSource Paused Recorded)

variable {ρ δ σ τ ω α β ι : Type}

/-!
## Giving up on the source
-/

def GivesUp : Prog (TaskSig ω) (Except Error α × τ) -> Prop
  | .ret _ => True
  | .op .readU8 k =>
      (forall e, exists t, k (.error e) = .ret (.error (.io e), t)) ∧
        forall r, GivesUp (k r)
  | .op _ k => forall r, GivesUp (k r)
  | .stuck => True

namespace GivesUp

theorem next {o : TaskOp ω} {k : (TaskSig ω).Resp o -> Prog (TaskSig ω) (Except Error α × τ)}
    (h : GivesUp (.op o k)) (r : (TaskSig ω).Resp o) : GivesUp (k r) := by
  cases o with
  | readU8 => exact h.2 r
  | _ => exact h r

theorem of_uses {p : Prog (TaskSig ω) (Except Error α × τ)} (h : p.Uses TaskOp.Inner) :
    GivesUp p := by
  induction p with
  | ret x => trivial
  | op o k ih =>
      rcases h with ⟨ho, hk⟩
      cases ho <;> exact fun r => ih r (hk r)
  | stuck => trivial

theorem bind {p : Act (TaskSig ω) Error τ α} {f : α -> Act (TaskSig ω) Error τ β} {s : τ}
    (hp : GivesUp (p s)) (hf : forall a s', GivesUp (f a s')) : GivesUp ((p >>= f) s) := by
  rw [Act.bind_apply]
  generalize p s = q at hp
  induction q with
  | ret x =>
      rcases x with ⟨r, s'⟩
      cases r with
      | ok a => exact hf a s'
      | error e => trivial
  | op o k ih =>
      have hnext := fun r => ih r (hp.next r)
      cases o with
      | readU8 =>
          refine ⟨?_, hnext⟩
          intro e
          rcases hp.1 e with ⟨s', hs'⟩
          refine ⟨s', ?_⟩
          change (k (.error e)).bind _ = _
          rw [hs']
          rfl
      | _ => exact hnext
  | stuck => trivial

theorem iterate {body : ι -> Act (TaskSig ω) Error τ (ι ⊕ α)}
    (hbody : forall i s, GivesUp (body i s)) (n : Nat) (i : ι) (s : τ) :
    GivesUp (Act.iterate n body i s) := by
  induction n generalizing i s with
  | zero => trivial
  | succ n ih =>
      rw [Act.iterate_succ]
      refine bind (hbody i s) ?_
      intro x s'
      cases x with
      | inl i' => exact ih i' s'
      | inr a => trivial

end GivesUp

theorem waitForStartSequence_givesUp [Machine] (s : τ) :
    GivesUp (waitForStartSequence (ω := ω) s) := by
  refine .iterate ?_ _ _ _
  intro count s
  unfold startSequenceLoop
  split
  · exact ⟨fun e => ⟨s, rfl⟩, fun r => by cases r <;> trivial⟩
  · trivial

theorem frameFinished_givesUp (cb : Callback σ ω) (valid : Bool) (s : σ) :
    GivesUp (frameFinished cb valid s) := by
  have hcall : forall (data : List ω) (s : σ), GivesUp (callFunction data s) := by
    intro data
    induction data with
    | nil => exact fun _ => trivial
    | cons d data ih => exact fun s _ => ih s
  exact fun _ => hcall _ _

theorem task_givesUp [Machine] (cb : Callback σ ω) (s : σ) : GivesUp (task cb s) := by
  refine .iterate ?_ _ _ _
  intro _ s
  refine .bind (waitForStartSequence_givesUp s) ?_
  intro _ s₀ _
  refine .bind (p := Act.modify cb.frameStart) trivial ?_
  intro _ s'
  refine .bind (.of_uses ((readFrame_uses cb).attempt s')) ?_
  intro r s₁
  cases r with
  | ok _ => exact .bind (frameFinished_givesUp cb true s₁) fun _ _ => trivial
  | error e => exact .bind (frameFinished_givesUp cb false s₁) fun _ _ => trivial

/-!
## Where the stream ends
-/

/-- A read of more bytes than there are of a frame that the stream breaks off. -/
def Stream.Starves (n : Nat) (t : Stream δ ω) : Prop :=
  match t.line with
  | .source _ => False
  | .frame feed _ => feed.ending = .starved ∧ feed.bytes.length < n

def Stream.CutOff (t : Stream δ ω) : TaskOp ω -> Prop
  | .read .u8 => t.Starves 1
  | .read (.exact n) => t.Starves n
  | _ => False

namespace Stream

variable [Digest δ]

omit [Digest δ] in
theorem not_starves {t : Stream δ ω} {n : Nat} (hn : n ≤ t.bytes.length) : ¬ t.Starves n := by
  intro hstarves
  unfold Starves at hstarves
  unfold bytes at hn
  cases hline : t.line with
  | source unread =>
      rw [hline] at hstarves
      exact hstarves
  | frame feed digest =>
      rw [hline] at hstarves hn
      exact absurd hn (Nat.not_le_of_lt hstarves.2)

theorem readBeyond_cases {t : Stream δ ω} {n : Nat} (hn : t.bytes.length < n) :
    (forall t', (t.readBeyond : Outcome (Except Io.Error α) (Stream δ ω)) = .blocked t' ->
        t.Starves n ∧ exists feed digest, t'.line = .frame feed digest) ∧
      (forall r t', (t.readBeyond : Outcome (Except Io.Error α) (Stream δ ω)) = .done r t' ->
        ¬ t.Starves n) := by
  rcases t with ⟨line, taken, log⟩
  cases line with
  | source unread =>
      constructor
      · intro t' h
        cases h
      · intro r t' h hstarves
        exact hstarves
  | frame feed digest =>
      unfold readBeyond Starves
      dsimp only
      cases hending : feed.ending with
      | success rest =>
          constructor
          · intro t' h
            cases h
          · intro r t' h hstarves
            cases hstarves.1
      | failure e rest =>
          constructor
          · intro t' h
            cases h
          · intro r t' h hstarves
            cases hstarves.1
      | starved =>
          constructor
          · intro t' h
            cases h
            exact ⟨⟨rfl, hn⟩, _, _, rfl⟩
          · intro r t' h
            cases h

theorem readExact_cases (n : Nat) (t : Stream δ ω) :
    (forall t', t.readExact n = .blocked t' ->
        t.Starves n ∧ exists feed digest, t'.line = .frame feed digest) ∧
      (forall r t', t.readExact n = .done r t' -> ¬ t.Starves n) := by
  unfold readExact
  by_cases hn : n ≤ t.bytes.length
  · rw [if_pos hn]
    constructor
    · intro t' h
      cases h
    · exact fun _ _ _ => not_starves hn
  · rw [if_neg hn]
    exact readBeyond_cases (Nat.lt_of_not_le hn)

theorem readU8_cases (t : Stream δ ω) :
    (forall t', t.readU8 = .blocked t' ->
        t.Starves 1 ∧ exists feed digest, t'.line = .frame feed digest) ∧
      (forall r t', t.readU8 = .done r t' -> ¬ t.Starves 1) := by
  unfold readU8
  cases hbytes : t.bytes with
  | nil =>
      apply readBeyond_cases
      rw [hbytes]
      exact Nat.one_pos
  | cons b bs =>
      constructor
      · intro t' h
        cases h
      · intro _ _ _
        apply not_starves
        rw [hbytes]
        exact Nat.succ_le_succ (Nat.zero_le _)

theorem not_cutOff_of_done (o : TaskOp ω) (t : Stream δ ω) (r : (TaskSig ω).Resp o)
    (t' : Stream δ ω) (h : handler o t = .done r t') : ¬ t.CutOff o := by
  cases o with
  | read o =>
      cases o with
      | u8 => exact (readU8_cases t).2 r t' h
      | exact n => exact (readExact_cases n t).2 r t' h
  | _ => exact id

theorem not_cutOff_iff_of_blocked (o : TaskOp ω) (t t' : Stream δ ω)
    (h : handler o t = .blocked t') : ¬ t.CutOff o <-> exists unread, t'.line = .source unread := by
  have hread : (t.CutOff o ∧ exists feed digest, t'.line = .frame feed digest) ->
      (¬ t.CutOff o <-> exists unread, t'.line = .source unread) := by
    rintro ⟨hcut, feed, digest, hline⟩
    constructor
    · exact fun hne => absurd hcut hne
    · rintro ⟨unread, hline'⟩
      rw [hline] at hline'
      cases hline'
  cases o with
  | read o =>
      cases o with
      | u8 => exact hread ((readU8_cases t).1 t' h)
      | exact n => exact hread ((readExact_cases n t).1 t' h)
  | readU8 =>
      change t.sourceU8 = .blocked t' at h
      unfold sourceU8 at h
      cases hunread : t.unread with
      | nil =>
          rw [hunread] at h
          cases h
          exact ⟨fun _ => ⟨[], rfl⟩, fun _ => id⟩
      | cons b rest =>
          rw [hunread] at h
          cases h
  | _ => cases h

end Stream

/-!
## Running on, to the end of the source
-/

section

variable [Digest δ] [Machine] [FiniteSource ρ]

inductive Tracks : Standing (lineDriver (ρ := ρ) (δ := δ) (ω := ω)) (Except Error α × τ) ->
    Standing (taskDriver (ρ := Paused ρ) (δ := δ) (ω := ω)) (Except Error α × τ) -> Prop where
  | fresh (p : Prog (TaskSig ω) (Except Error α × τ)) {line : Line ρ δ}
      {w : World (Paused ρ) δ ω} (same : SameLine line w) (gives : GivesUp p) :
      Tracks (.waiting (.fresh p) line) (.waiting (.fresh p) w)
  | await {o : TaskOp ω} (fut : TaskFut o)
      (k : (TaskSig ω).Resp o -> Prog (TaskSig ω) (Except Error α × τ)) {line : Line ρ δ}
      {w : World (Paused ρ) δ ω} (same : SameLine line w) (gives : GivesUp (.op o k)) :
      Tracks (.waiting (.await fut k) line) (.waiting (.await fut k) w)
  | finished (x : Except Error α × τ) (line : Line ρ δ) (w : World (Paused ρ) δ ω) :
      Tracks (.finished x line) (.finished x w)
  | hung (line : Line ρ δ) (w : World (Paused ρ) δ ω) : Tracks (.hung line) (.hung w)

/-- How the task stands after a poll, next to how it stands where the source pauses. -/
inductive RunsOn (patience : Nat) :
    Standing (lineDriver (ρ := ρ) (δ := δ) (ω := ω)) (Except Error α × τ) ->
    Standing (taskDriver (ρ := Paused ρ) (δ := δ) (ω := ω)) (Except Error α × τ) -> Prop where
  | tracks {x : Standing (lineDriver (ρ := ρ) (δ := δ) (ω := ω)) (Except Error α × τ)}
      {y : Standing (taskDriver (ρ := Paused ρ) (δ := δ) (ω := ω)) (Except Error α × τ)}
      (tracks : Tracks x y) (less : x.isWaiting = true -> x.state.patience < patience) :
      RunsOn patience x y
  | hangs {line : Line ρ δ} {t : Task (taskDriver (ρ := Paused ρ) (δ := δ) (ω := ω)) _}
      {w : World (Paused ρ) δ ω} (atEnd : FrameAtEnd w) :
      RunsOn patience (.hung line) (.waiting t w)
  | ends {s : τ} {line : Line ρ δ}
      {t : Task (taskDriver (ρ := Paused ρ) (δ := δ) (ω := ω)) _}
      {w : World (Paused ρ) δ ω} (atEnd : SourceAtEnd w) :
      RunsOn patience (.finished (.error (.io .unexpectedEof), s) line) (.waiting t w)

theorem RunsOn.of_le {n m : Nat}
    {x : Standing (lineDriver (ρ := ρ) (δ := δ) (ω := ω)) (Except Error α × τ)}
    {y : Standing (taskDriver (ρ := Paused ρ) (δ := δ) (ω := ω)) (Except Error α × τ)}
    (h : RunsOn n x y) (hle : n ≤ m) : RunsOn m x y := by
  cases h with
  | tracks tracks less => exact .tracks tracks fun hx => Nat.lt_of_lt_of_le (less hx) hle
  | hangs atEnd => exact .hangs atEnd
  | ends atEnd => exact .ends atEnd

theorem runsOn_goOn {o : TaskOp ω}
    {k : (TaskSig ω).Resp o -> Prog (TaskSig ω) (Except Error α × τ)} {line : Line ρ δ}
    {w : World (Paused ρ) δ ω}
    {x : Option (Poll ((TaskSig ω).Resp o) × TaskFut o × Line ρ δ)}
    {y : Option (Poll ((TaskSig ω).Resp o) × TaskFut o × World (Paused ρ) δ ω)}
    (h : OpLockstep line o x y) (gives : GivesUp (.op o k))
    (hready : forall r fut line' w', y = some (.ready r, fut, w') -> SameLine line' w' ->
      RunsOn line'.patience ((k r).resume lineDriver line') ((k r).resume taskDriver w')) :
    RunsOn line.patience (Prog.goOn (D := lineDriver) k line x)
      (Prog.goOn (D := taskDriver) k w y) := by
  cases h with
  | @answers _ ans fut line' w' same le less =>
      cases ans with
      | ready r => exact (hready r fut line' w' rfl same).of_le le
      | pending => exact .tracks (.await fut k same gives) fun _ => less rfl
  | hangs atEnd => exact .hangs atEnd
  | stuck =>
      refine .tracks (.hung line w) ?_
      intro h
      cases h
  | @ends fut fut' line' w' atEnd =>
      rcases gives.1 .unexpectedEof with ⟨s, hs⟩
      change RunsOn _ ((k (.error .unexpectedEof)).resume lineDriver line') _
      rw [hs]
      exact .ends atEnd

theorem runsOn_resume (p : Prog (TaskSig ω) (Except Error α × τ)) {line : Line ρ δ}
    {w : World (Paused ρ) δ ω} (same : SameLine line w) (hinv : w.Inv) (gives : GivesUp p) :
    RunsOn line.patience (p.resume lineDriver line) (p.resume taskDriver w) := by
  induction p generalizing line w with
  | ret x =>
      refine .tracks (.finished x line w) ?_
      intro h
      cases h
  | op o k ih =>
      have hfut := World.agrees (ρ := Paused ρ) (δ := δ) |>.futInv_start o
      have hstart : (lineDriver (ρ := ρ) (δ := δ) (ω := ω)).start o =
          (taskDriver (ρ := Paused ρ) (δ := δ)).start o := by
        cases o with
        | read o => cases o <;> rfl
        | _ => rfl
      rw [Prog.resume_op, Prog.resume_op, hstart]
      refine runsOn_goOn (op_lockstep _ same hinv hfut) gives ?_
      intro r fut line' w' hpoll same'
      have hinv' := (World.polled_eq hinv hfut hpoll).1.1
      exact ih r same' hinv' (gives.next r)
  | stuck =>
      refine .tracks (.hung line w) ?_
      intro h
      cases h

theorem runsOn_poll {t : Task (lineDriver (ρ := ρ) (δ := δ) (ω := ω)) (Except Error α × τ)}
    {line : Line ρ δ}
    {y : Standing (taskDriver (ρ := Paused ρ) (δ := δ) (ω := ω)) (Except Error α × τ)}
    (h : Tracks (.waiting t line) y) (hsound : World.agrees.Sound y) :
    RunsOn line.patience (Standing.waiting t line).poll y.poll := by
  cases h with
  | fresh p same gives => exact runsOn_resume p same hsound gives
  | @await o fut k _ w same gives =>
      rcases hsound with ⟨hinv, hfut⟩
      have hreal := Standing.poll_await (D := lineDriver (ρ := ρ) (δ := δ) (ω := ω)) (o := o) fut k line
      have hpaused := Standing.poll_await (D := taskDriver (δ := δ)) (o := o) fut k w
      refine (congrArg₂ (RunsOn line.patience) hreal hpaused).mpr ?_
      refine runsOn_goOn (op_lockstep fut same hinv hfut) gives ?_
      intro r fut' line' w' hpoll same'
      have hinv' := (World.polled_eq hinv hfut hpoll).1.1
      exact runsOn_resume _ same' hinv' (gives.next r)

inductive EndsAt (x : Standing (lineDriver (ρ := ρ) (δ := δ) (ω := ω)) (Except Error α × τ)) :
    Stream δ ω -> Prop where
  | source {t : Stream δ ω} {n : Nat} {s : τ} {line : Line ρ δ} {unread : List UInt8}
      (hline : t.line = .source unread)
      (finished : x.polls n = .finished (.error (.io .unexpectedEof), s) line) : EndsAt x t
  | frame {t : Stream δ ω} {n : Nat} {line : Line ρ δ} {feed : Feed} {digest : δ}
      (hline : t.line = .frame feed digest) (hung : x.polls n = .hung line) : EndsAt x t

theorem EndsAt.of_poll {x : Standing (lineDriver (ρ := ρ) (δ := δ) (ω := ω)) (Except Error α × τ)}
    {t : Stream δ ω} (h : EndsAt x.poll t) : EndsAt x t := by
  cases h with
  | @source n s line unread hline finished => exact .source (n := n + 1) hline finished
  | @frame n line feed digest hline hung => exact .frame (n := n + 1) hline hung

theorem endsAt_of_blocked
    {x : Standing (lineDriver (ρ := ρ) (δ := δ) (ω := ω)) (Except Error α × τ)}
    {y : Standing (taskDriver (ρ := Paused ρ) (δ := δ) (ω := ω)) (Except Error α × τ)}
    {t : Stream δ ω} (h : Tracks x y) (hsound : World.agrees.Sound y)
    (hout : World.agrees.outlook y = .blocked t) : EndsAt x t := by
  generalize hm : x.state.patience = m
  induction m using Nat.strongRecOn generalizing x y with
  | _ m ih =>
      cases x with
      | finished a line =>
          cases h
          cases hout
      | hung line =>
          cases h
          cases hout
      | waiting task line =>
          have hruns := runsOn_poll h hsound
          rcases World.agrees.poll_sound hsound with ⟨hsound', hout'⟩
          rw [hout] at hout'
          have hshows : forall {task' w}, y.poll = .waiting task' w -> w.unread = [] ->
              t = w.view := by
            intro task' w hpoll hdrained
            have hwaits : exists task w, y = .waiting task w := by
              cases h with
              | fresh p same gives => exact ⟨_, _, rfl⟩
              | await fut k same gives => exact ⟨_, _, rfl⟩
            rcases hwaits with ⟨task₀, w₀, heq⟩
            subst heq
            have hwaited := World.patient.waited_poll hsound
            rw [hpoll] at hwaited hout'
            rw [hwaited.2 hdrained] at hout'
            injection hout' with hout'
            exact hout'.symm
          generalize hx : (Standing.waiting task line).poll = x' at hruns
          generalize hy : y.poll = y' at hruns hsound' hout'
          refine EndsAt.of_poll ?_
          rw [hx]
          cases hruns with
          | tracks tracks less =>
              cases x' with
              | finished a line' =>
                  cases tracks
                  cases hout'
              | hung line' =>
                  cases tracks
                  cases hout'
              | waiting task' line' =>
                  rw [← hm] at ih
                  exact ih _ (less rfl) tracks hsound' hout' rfl
          | @hangs line' task' w atEnd =>
              rcases atEnd with ⟨⟨messages, hline⟩, hdrained⟩
              have hview : w.view.line = .frame messages.inner.feed messages.digest := by
                unfold World.view
                rw [hline]
              rw [hshows hy hdrained]
              exact .frame (n := 0) hview rfl
          | @ends s line' task' w atEnd =>
              rcases atEnd with ⟨⟨paused, hline⟩, hdrained⟩
              have hview : w.view.line = .source (ByteSource.unread paused) := by
                unfold World.view
                rw [hline]
              rw [hshows hy hdrained]
              exact .source (n := 0) hview rfl

end

def taskStart (δ : Type) [Digest δ] [Machine] [FiniteSource ρ] (cb : Callback σ ω) (s₀ : σ)
    (reader : ρ) : Standing (lineDriver (ρ := ρ) (δ := δ) (ω := ω)) (Except Error Unit × σ) :=
  .waiting (.fresh (task cb s₀)) (.source reader)

/-- Every poll of the task returns, and after finitely many of them it ends with an error. -/
def Terminates (δ : Type) [Digest δ] [Machine] [FiniteSource ρ] (cb : Callback σ ω) (s₀ : σ)
    (reader : ρ) : Prop :=
  (forall n line, (taskStart δ cb s₀ reader).polls n ≠ .hung line) ∧
    exists n e s line, (taskStart δ cb s₀ reader).polls n = .finished (.error e, s) line

/-- No read of a message that is made on the stream is one of a frame it breaks off. -/
def NeverCutOff (δ : Type) [Digest δ] [Machine] (cb : Callback σ ω) (s₀ : σ)
    (source : List UInt8) : Prop :=
  (task cb s₀).Throughout (fun o t => ¬ t.CutOff o) Stream.handler
    (Stream.new source : Stream δ ω)

section

variable [Digest δ] [Machine] [FiniteSource ρ]

theorem endsAt_task {cb : Callback σ ω} (hcb : cb.Total) (s₀ : σ) {reader : ρ}
    (hsource : (FiniteSource.unread reader).length < Machine.fuel) :
    exists t : Stream δ ω, EndsAt (taskStart δ cb s₀ reader) t ∧
      (NeverCutOff δ cb s₀ (FiniteSource.unread reader) <->
        exists unread, t.line = .source unread) := by
  rcases task_blocked (δ := δ) hcb.lasting s₀ hsource with ⟨t, hrun⟩
  refine ⟨t, ?_, ?_⟩
  · have htracks : Tracks (taskStart δ cb s₀ reader)
        (.waiting (.fresh (task cb s₀)) (World.new (Paused.mk reader))) :=
      .fresh _ rfl (task_givesUp cb s₀)
    exact endsAt_of_blocked htracks trivial hrun
  · exact Prog.throughout_iff_of_blocked Stream.not_cutOff_of_done
      Stream.not_cutOff_iff_of_blocked hrun

theorem not_terminates {cb : Callback σ ω} (hcb : cb.Total) (s₀ : σ) {reader : ρ}
    (hsource : (FiniteSource.unread reader).length < Machine.fuel)
    (hcut : ¬ NeverCutOff δ cb s₀ (FiniteSource.unread reader)) :
    ¬ Terminates δ cb s₀ reader := by
  rcases endsAt_task (δ := δ) hcb s₀ hsource with ⟨t, hends, hiff⟩
  intro hterminates
  cases hends with
  | source hline finished => exact hcut (hiff.mpr ⟨_, hline⟩)
  | frame hline hung => exact hterminates.1 _ _ hung

/--
The task ends on a finite source if and only if it never reads a frame further
than the source goes.
-/
theorem terminates_iff {cb : Callback σ ω} (hcb : cb.Total) (s₀ : σ) {reader : ρ}
    (hsource : (FiniteSource.unread reader).length < Machine.fuel) :
    Terminates δ cb s₀ reader <-> NeverCutOff δ cb s₀ (FiniteSource.unread reader) := by
  constructor
  · intro hterminates
    by_contra hcut
    exact not_terminates hcb s₀ hsource hcut hterminates
  · intro hnever
    rcases endsAt_task (δ := δ) hcb s₀ hsource with ⟨t, hends, hiff⟩
    cases hends with
    | @source n s line unread hline finished =>
        exact ⟨Standing.polls_ne_hung finished, n, _, s, line, finished⟩
    | frame hline hung =>
        rcases hiff.mp hnever with ⟨unread, hsource'⟩
        rw [hline] at hsource'
        cases hsource'

end

/-- A frame that is rejected in its second group, and then the end. -/
theorem terminates_rejected_frame :
    letI := Machine.word32 32 (Nat.le_refl 32)
    Terminates Crc Callback.idle () (Recorded.mk (Io.Pieces.mk
      [[0x1B, 0x1B, 0x1B, 0x1B, 0x01, 0x01, 0x01], [],
        [0x01, 0x1B, 0x1B, 0x1B, 0x1B, 0, 0, 0, 0]])) := by
  let := Machine.word32 32 (Nat.le_refl 32)
  have hidle : Callback.idle.Total := fun _ => trivial
  refine (terminates_iff hidle () (by decide)).mpr ?_
  refine ⟨id, id, id, id, id, id, id, id, id, id, id, ?_, id, id, trivial⟩
  intro hstarves
  cases hstarves.1

/-- A frame that is broken off within its first group. -/
theorem terminates_broken_frame :
    letI := Machine.word32 32 (Nat.le_refl 32)
    ¬ Terminates Crc Callback.idle () (Recorded.mk (Io.Pieces.mk
      [[0x1B, 0x1B, 0x1B, 0x1B, 0x01, 0x01, 0x01, 0x01, 0x76]])) := by
  let := Machine.word32 32 (Nat.le_refl 32)
  intro h
  exact h.1 1 _ rfl

end Sml
end Smartmeter
