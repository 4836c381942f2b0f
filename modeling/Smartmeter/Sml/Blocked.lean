import Smartmeter.Sml.Run
import Smartmeter.Sml.Tlv.Endurance

/-!
# The task ends on every stream

Every loop of the task uses up bytes: the one that waits for the start marker
and the one over the frames those of the source, the loops within a frame those
of the frame.  So on a stream that is shorter than the loops are unrolled the
task gets as far as the end of the stream.
-/

namespace Smartmeter
namespace Sml

open Foundation
open Frame (Feed)
open Tlv (Handle Ops Reader Reading)

variable {δ σ τ ω α β : Type} [Digest δ]

namespace Stream

theorem readBeyond_ends (t : Stream δ ω) :
    (t.readBeyond : Outcome (Except Io.Error α) (Stream δ ω)).Ends fun r t' =>
      t'.bytes.length ≤ t.bytes.length ∧ forall a, r ≠ .ok a := by
  have hafter := readBeyond_after (α := α) t
  have hne := readBeyond_ne_ok (α := α) t
  cases hread : (t.readBeyond : Outcome (Except Io.Error α) (Stream δ ω)) with
  | done r t' =>
      rw [hread] at hafter hne
      refine ⟨hafter.bytes_le, ?_⟩
      intro a ha
      rw [ha] at hne
      exact hne t' a rfl
  | blocked t' => trivial
  | stuck t' =>
      unfold readBeyond at hread
      split at hread
      · cases hread
      · split at hread <;> cases hread

theorem reset_bytes (t : Stream δ ω) : t.reset.bytes = t.bytes := by
  rcases t with ⟨line, taken, log⟩
  cases line <;> rfl

theorem metered : Metered (read (δ := δ) (ω := ω)) fun t => t.bytes.length where
  u8 t := by
    change (t.readU8).Ends _
    unfold readU8
    cases hbytes : t.bytes with
    | nil =>
        refine (readBeyond_ends t).mono ?_
        rintro r t' ⟨hle, hne⟩
        refine ⟨?_, fun b hb => absurd hb (hne b)⟩
        rw [hbytes] at hle
        exact hle
    | cons b bs =>
        have hlen : (t.advance 1).bytes.length = bs.length := by
          rw [advance_bytes, hbytes]
          rfl
        constructor
        · rw [hlen]
          exact Nat.le_succ _
        · intro _ _
          rw [hlen]
          exact Nat.le_refl _
  exact n t := by
    change (t.readExact n).Ends _
    unfold readExact
    by_cases hn : n ≤ t.bytes.length
    · rw [if_pos hn]
      have hlen : (t.advance n).bytes.length = t.bytes.length - n := by
        rw [advance_bytes, List.length_drop]
      constructor
      · rw [hlen]
        exact Nat.sub_le _ _
      · intro _ _
        rw [hlen]
        lia
    · rw [if_neg hn]
      refine (readBeyond_ends t).mono ?_
      rintro r t' ⟨hle, hne⟩
      exact ⟨hle, fun bs hbs => absurd hbs (hne bs)⟩

end Stream

/-!
## Within a frame
-/

/-- With less than `limit` bytes in the frame, the method does not get stuck. -/
def EndsOn (limit : Nat) (p : Act (TaskSig ω) Error τ α) : Prop :=
  forall (s : τ) (t : Stream δ ω), t.bytes.length < limit ->
    ((p s).run Stream.handler t).Ends fun _ t' => t'.bytes.length ≤ t.bytes.length

namespace EndsOn

variable {limit : Nat}

theorem pure (a : α) : EndsOn (δ := δ) limit (Pure.pure a : Act (TaskSig ω) Error τ α) :=
  fun _ _ _ => Nat.le_refl _

theorem fail (e : Error) : EndsOn (δ := δ) limit (Act.fail e : Act (TaskSig ω) Error τ α) :=
  fun _ _ _ => Nat.le_refl _

theorem bind {p : Act (TaskSig ω) Error τ α} {f : α -> Act (TaskSig ω) Error τ β}
    (hp : EndsOn (δ := δ) limit p) (hf : forall a, EndsOn (δ := δ) limit (f a)) :
    EndsOn (δ := δ) limit (p >>= f) := by
  intro s t ht
  refine Act.ends_bind (hp s t ht) ?_ ?_
  · intro a s' t' hle
    refine (hf a s' t' (Nat.lt_of_le_of_lt hle ht)).mono ?_
    exact fun _ _ hle' => Nat.le_trans hle' hle
  · intro e s' t' hle
    exact hle

theorem borrow {ν : Type} {get : ν -> τ} {put : τ -> ν -> ν} {p : Act (TaskSig ω) Error τ α}
    (hp : EndsOn (δ := δ) limit p) : EndsOn (δ := δ) limit (Act.borrow get put p) := by
  intro s t ht
  rw [Act.borrow_apply, Prog.run_bind]
  exact (hp (get s) t ht).andThen fun _ _ hle => hle

theorem perform {o : TaskOp ω} (h : forall t : Stream δ ω,
      exists r t', Stream.handler o t = .done r t' ∧ t'.bytes = t.bytes) :
    EndsOn (δ := δ) limit (Sml.perform o : Act (TaskSig ω) Error τ _) := by
  intro s t ht
  rcases h t with ⟨r, t', hdone, hbytes⟩
  change ((Stream.handler o t).andThen _).Ends _
  rw [hdone]
  exact Nat.le_of_eq (congrArg List.length hbytes)

theorem onMessages {p : Act Ops Error τ α} (hp : Tlv.Endures limit p) :
    EndsOn (δ := δ) limit (Sml.onMessages (ω := ω) p) := by
  intro s t ht
  rw [Stream.run_onMessages]
  refine (Stream.metered.ends (hp s _ ht) (Nat.le_refl _)).mono ?_
  exact fun _ _ h => h.1

end EndsOn

variable [Machine]

theorem endsOn_onList {p : Act Ops Error Handle α} (hp : Tlv.Endures Machine.fuel p) :
    EndsOn (δ := δ) Machine.fuel (onList (σ := σ) (ω := ω) p) :=
  .borrow (.onMessages hp)

def Callback.Total (cb : Callback σ ω) : Prop :=
  forall s, (cb.messageReceived s).Total

/-- With less bytes left than loops are unrolled, the callback does not get stuck. -/
def Callback.Lasting (cb : Callback σ ω) : Prop :=
  forall (s : σ) (self : Handle) (n : Nat), n < Machine.fuel ->
    ((cb.messageReceived s).run self).Lasts (fun _ _ => True) n

theorem Callback.Total.lasting {cb : Callback σ ω} (hcb : cb.Total) : cb.Lasting :=
  fun s self _ hn => (hcb s).lasts self hn

theorem endsOn_messageReceived {cb : Callback σ ω} (hcb : cb.Lasting) :
    EndsOn (δ := δ) Machine.fuel (messageReceived cb) := by
  refine .bind (.perform fun t => ⟨_, _, rfl, rfl⟩) ?_
  rintro _ ⟨h, s⟩ t ht
  change ((((cb.messageReceived s).run h).embed TaskOp.read fun _ r => r).bind _).run
    Stream.handler t |>.Ends _
  rw [Prog.run_bind]
  have hrun : (((cb.messageReceived s).run h).embed TaskOp.read fun _ r => r).run
      Stream.handler t = ((cb.messageReceived s).run h).run Stream.read t := by
    rw [Prog.run_embed]
    congr 1
    funext o t'
    exact Outcome.andThen_done _
  rw [hrun]
  refine (Stream.metered.ends (hcb s h _ ht) (Nat.le_refl _)).andThen ?_
  exact fun _ _ hx => hx.1

theorem endsOn_messageBody {cb : Callback σ ω} (hcb : cb.Lasting) :
    EndsOn (δ := δ) Machine.fuel (messageBody cb) := by
  refine .bind (endsOn_onList (Tlv.List.endures_nextVariant _)) ?_
  intro len
  refine .borrow (.borrow ?_)
  split
  · exact .fail _
  · exact endsOn_messageReceived hcb

theorem endsOn_message {cb : Callback σ ω} (hcb : cb.Lasting) :
    EndsOn (δ := δ) Machine.fuel (message cb) := by
  refine .bind (endsOn_onList (Reading.endures_nextVariant (.pure ()))) ?_
  intro _
  refine .bind (endsOn_onList (Reading.endures_nextVariant (Reading.endures_content _))) ?_
  intro _
  refine .bind (endsOn_onList (Reading.endures_nextVariant (Reading.endures_content _))) ?_
  intro _
  refine .bind (endsOn_messageBody hcb) ?_
  intro _
  refine .bind (endsOn_onList (Tlv.Handle.endures_withReader Reader.endures_skipNow)) ?_
  intro _
  refine .bind (.perform ?_) ?_
  · exact fun t => ⟨_, _, rfl, t.finalize_bytes⟩
  intro crcCalc
  refine .bind (endsOn_onList (Reading.endures_nextVariant (Reading.endures_content _))) ?_
  intro crcRec
  refine .bind (endsOn_onList Reading.endures_nextEnd) ?_
  intro _
  split
  · exact .fail _
  · exact .pure _

theorem readList_ends (x : Reader × σ) (t : Stream δ ω) (ht : t.bytes.length < Machine.fuel) :
    ((Act.borrow Prod.fst (fun r t => (r, t.2)) (onMessages (ω := ω) Reader.readList) x).run
      Stream.handler t).Ends fun y t' =>
        forall a, y.1 = .ok a -> t'.bytes.length < t.bytes.length := by
  rw [Act.borrow_apply, Prog.run_bind, Stream.run_onMessages]
  refine (Stream.metered.ends (Reader.spends_readList x.1 _ ht) (Nat.le_refl _)).andThen ?_
  rintro ⟨r, reader⟩ t' ⟨_, m, hm, hspent⟩ a ha
  exact Nat.lt_of_le_of_lt hm (hspent a ha)

theorem readFrameLoop_ends {cb : Callback σ ω} (hcb : cb.Lasting) (x : Reader × σ)
    (t : Stream δ ω) (ht : t.bytes.length < Machine.fuel) :
    ((readFrameLoop cb () x).run Stream.handler t).Ends fun y t' =>
      forall i, y.1 = .ok (.inl i) -> t'.bytes.length < t.bytes.length := by
  unfold readFrameLoop
  refine Act.ends_bind (Q := fun _ t' => t' = t) rfl ?_ ?_
  · intro ended x' t' heq
    subst heq
    by_cases hended : ended = true
    · rw [if_pos hended]
      intro i hi
      cases hi
    · rw [if_neg hended]
      refine Act.ends_bind (readList_ends x' t' ht) ?_ ?_
      · intro len x₁ t₁ hspent
        have hless := hspent len rfl
        have hrest : EndsOn (δ := δ) Machine.fuel (do
            withList len (message cb)
            perform .reset
            pure (.inl ()) : Act (TaskSig ω) Error (Reader × σ) (Unit ⊕ Unit)) := by
          refine .bind (.borrow (endsOn_message hcb)) ?_
          intro _
          exact .bind (.perform fun t => ⟨_, _, rfl, t.reset_bytes⟩) fun _ => .pure _
        refine (hrest x₁ t₁ (Nat.lt_trans hless ht)).mono ?_
        exact fun _ _ hle _ _ => Nat.lt_of_le_of_lt hle hless
      · intro e x₁ t₁ _ i hi
        cases hi
  · intro e x' t' _ i hi
    cases hi

omit [Machine] in
theorem newFrame_bytes_le (t : Stream δ ω) : t.newFrame.bytes.length ≤ t.unread.length := by
  change (List.map Prod.fst (Frame.decodeFrame δ t.unread).pend).length ≤ _
  rw [List.length_map]
  exact Nat.le_trans (Frame.decode_pend_length _ _ _ _) (Nat.le_of_eq (Nat.zero_add _))

theorem readFrame_ends {cb : Callback σ ω} (hcb : cb.Lasting) (s : σ) (t : Stream δ ω)
    (ht : t.unread.length < Machine.fuel) :
    ((readFrame cb s).run Stream.handler t).Ends fun _ _ => True := by
  have hframe := Nat.lt_of_le_of_lt (newFrame_bytes_le t) ht
  have hloop : ((Act.iterate Machine.fuel (readFrameLoop cb) () (Reader.new, s)).run
      Stream.handler t.newFrame).Ends fun _ _ => True := by
    refine Act.ends_iterate (fun _ _ t' => t'.bytes.length < Machine.fuel)
      (fun t' => t'.bytes.length) ?_ hframe hframe
    intro _ x t' hinv
    refine (readFrameLoop_ends hcb x t' hinv).mono ?_
    intro _ _ hspent
    exact ⟨fun i hi => ⟨Nat.lt_trans (hspent i hi) hinv, hspent i hi⟩, fun _ _ => trivial,
      fun _ _ => trivial⟩
  refine Act.ends_bind (Q := fun y t' => y.2 = s ∧ t' = t.newFrame) ⟨rfl, rfl⟩ ?_ ?_
  · rintro _ s' t' ⟨hs', ht'⟩
    subst hs' ht'
    rw [Act.borrow_apply, Prog.run_bind]
    exact hloop.andThen fun _ _ _ => trivial
  · intro _ _ _ _
    trivial

/-!
## From frame to frame
-/

theorem waitForStartSequence_ends (x : τ) (t : Stream δ ω)
    (ht : t.unread.length < Machine.fuel) :
    ((waitForStartSequence (ω := ω) x).run Stream.handler t).Ends fun y t' =>
      y.1 = .ok () -> (exists unread, t'.line = .source unread) ∧
        t'.unread.length < t.unread.length := by
  refine Act.ends_iterate
    (fun count _ t' => (count = 0 ∧ t' = t) ∨
      ((exists unread, t'.line = .source unread) ∧ t'.unread.length < t.unread.length))
    (fun t' => t'.unread.length) ?_ (Or.inl ⟨rfl, rfl⟩) ht
  intro count y t₁ hinv
  have hle : t₁.unread.length ≤ t.unread.length := by
    rcases hinv with ⟨_, heq⟩ | ⟨_, hless⟩
    · rw [heq]
    · exact Nat.le_of_lt hless
  unfold startSequenceLoop
  by_cases hcount : count < 8
  · rw [if_pos hcount]
    change (t₁.sourceU8.andThen _).Ends _
    unfold Stream.sourceU8
    cases hunread : t₁.unread with
    | nil => trivial
    | cons b rest =>
        have hless : rest.length < t₁.unread.length := by
          rw [hunread]
          exact Nat.lt_succ_self _
        refine ⟨?_, ?_, ?_⟩
        · intro count' _
          refine ⟨Or.inr ⟨⟨rest, rfl⟩, ?_⟩, ?_⟩
          · exact Nat.lt_of_lt_of_le hless hle
          · rw [hunread] at hless
            exact hless
        · intro a ha
          cases ha
        · intro e he
          cases he
  · rw [if_neg hcount]
    refine ⟨?_, ?_, ?_⟩
    · intro count' hcount'
      cases hcount'
    · intro a _ _
      rcases hinv with ⟨hzero, _⟩ | hinv
      · rw [hzero] at hcount
        exact absurd (by decide) hcount
      · exact hinv
    · intro e he
      cases he

theorem taskLoop_ends {cb : Callback σ ω} (hcb : cb.Lasting) (s : σ) (t : Stream δ ω)
    (ht : t.unread.length < Machine.fuel) :
    ((taskLoop cb () s).run Stream.handler t).Ends fun y t' =>
      forall i, y.1 = .ok (.inl i) -> t'.unread.length < t.unread.length := by
  have hwait := waitForStartSequence_ends (ω := ω) s t ht
  cases hrun : (waitForStartSequence s).run Stream.handler t with
  | stuck t' =>
      rw [hrun] at hwait
      exact hwait.elim
  | blocked t' =>
      unfold taskLoop
      rw [Act.bind_apply, Prog.run_bind, hrun]
      trivial
  | done x t₀ =>
      rcases x with ⟨res, s'⟩
      cases res with
      | error e =>
          unfold taskLoop
          rw [Act.run_bind_of_error hrun]
          intro i hi
          cases hi
      | ok _ =>
          rw [hrun] at hwait
          rcases hwait rfl with ⟨⟨unread, hline⟩, hless⟩
          change t₀.unread.length < _ at hless
          have hunread : t₀.unread = unread := by
            unfold Stream.unread
            rw [hline]
          have hbehind : (t₀.observe (.call .frameStart)).Behind t₀.unread := by
            unfold Stream.Behind Stream.observe
            rw [hline]
            exact hunread ▸ List.suffix_refl unread
          have hread := (readFrame_ends hcb (cb.frameStart s') (t₀.observe (.call .frameStart))
            (Nat.lt_trans hless ht)).and_state (hbehind.run _)
          rw [run_taskLoop cb hrun]
          refine hread.andThen ?_
          rintro x t₁ ⟨_, hbehind₁⟩ i _
          rw [Stream.tell_unread]
          exact Nat.lt_of_le_of_lt hbehind₁.unread.length_le hless

theorem task_blocked {cb : Callback σ ω} (hcb : cb.Lasting) (s₀ : σ) {source : List UInt8}
    (hsource : source.length < Machine.fuel) :
    exists t : Stream δ ω,
      (task cb s₀).run Stream.handler (Stream.new source : Stream δ ω) = .blocked t := by
  have hends : ((task cb s₀).run Stream.handler (Stream.new source : Stream δ ω)).Ends
      fun _ _ => True := by
    refine Act.ends_iterate (fun _ _ t => t.unread.length < Machine.fuel)
      (fun t => t.unread.length) ?_ hsource hsource
    intro _ s t hinv
    refine (taskLoop_ends hcb s t hinv).mono ?_
    intro _ _ hspent
    exact ⟨fun i hi => ⟨Nat.lt_trans (hspent i hi) hinv, hspent i hi⟩, fun _ _ => trivial,
      fun _ _ => trivial⟩
  have hnever := task_holds (δ := δ) cb s₀ source
  cases hrun : (task cb s₀).run Stream.handler (Stream.new source : Stream δ ω) with
  | done x t =>
      rw [hrun] at hnever
      exact hnever.elim
  | blocked t => exact ⟨t, rfl⟩
  | stuck t =>
      rw [hrun] at hends
      exact hends.elim

end Sml
end Smartmeter
