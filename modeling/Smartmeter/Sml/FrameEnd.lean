import Smartmeter.Sml.Blocked

/-!
# The end of a frame

A frame that has an end is read without waiting, and what stands behind its end
is left in the source, whether the frame is read well or not.
-/

namespace Smartmeter
namespace Sml

open Foundation

/-!
## The decoder
-/

namespace Frame

variable {δ : Type} [Digest δ]

/-- What is behind the end of a frame that has one. -/
def Ref.rest : Ref -> Option (List UInt8)
  | .success _ rest => some rest
  | .failure _ rest => some rest
  | .incomplete => none

def Ending.rest : Ending -> Option (List UInt8)
  | .success rest => some rest
  | .failure _ rest => some rest
  | .starved => none

structure Decoded.Ahead (d : Decoded) (rest : List UInt8) : Prop where
  pend : forall x, x ∈ d.pend -> rest <:+ x.2
  ending : d.ending.rest = some rest

theorem Decoded.Behind.rest {d : Decoded} {s rest : List UInt8} (h : d.Behind s)
    (hrest : d.ending.rest = some rest) : rest <:+ s := by
  cases hending : d.ending with
  | success rest' =>
      rw [hending] at hrest
      cases hrest
      exact h.success _ hending
  | failure e rest' =>
      rw [hending] at hrest
      cases hrest
      exact h.failure _ _ hending
  | starved =>
      rw [hending] at hrest
      cases hrest

theorem Decoded.Ahead.prepend {d : Decoded} {held rest behind : List UInt8} (h : d.Ahead rest)
    (hbehind : rest <:+ behind) : (d.prepend held behind).Ahead rest where
  pend x hx := by
    rcases List.mem_append.mp hx with hheld | hpend
    · rcases List.mem_map.mp hheld with ⟨b, _, rfl⟩
      exact hbehind
    · exact h.pend x hpend
  ending := h.ending

theorem decodeFooter_ahead {held : List UInt8} {digest : δ} {num c0 c1 : UInt8}
    {behind rest : List UInt8}
    (hrest : (decodeFooter held digest num c0 c1 behind).ending.rest = some rest) :
    (decodeFooter held digest num c0 c1 behind).Ahead rest := by
  unfold decodeFooter at hrest ⊢
  split at hrest
  · next hok =>
      rw [if_pos hok]
      cases hrest
      constructor
      · intro x hx
        rcases List.mem_map.mp hx with ⟨b, _, rfl⟩
        exact List.suffix_rfl
      · rfl
  · next hbad =>
      rw [if_neg hbad]
      cases hrest
      exact ⟨fun x hx => absurd hx List.not_mem_nil, rfl⟩

theorem decode_ahead {s : List UInt8} {inEsc : Bool} {held : List UInt8} {digest : δ}
    {rest : List UInt8} (hrest : (decode inEsc held digest s).ending.rest = some rest) :
    (decode inEsc held digest s).Ahead rest := by
  match s with
  | a :: b :: c :: d :: behind =>
      have hprepend : forall (group : List UInt8) (digest' : δ),
          (decode false group digest' behind).ending.rest = some rest ->
          ((decode false group digest' behind).prepend held behind).Ahead rest :=
        fun _ _ hrest => (decode_ahead hrest).prepend ((decode_behind _ _ _ _).rest hrest)
      rw [decode] at hrest ⊢
      split at hrest
      · next hesc =>
          rw [if_pos hesc]
          split at hrest
          · next hgroup =>
              rw [if_pos hgroup]
              exact hprepend _ _ hrest
          · next hgroup =>
              rw [if_neg hgroup]
              split at hrest
              · next hfoot =>
                  rw [if_pos hfoot]
                  exact decodeFooter_ahead hrest
              · next hfoot =>
                  rw [if_neg hfoot]
                  cases hrest
                  exact ⟨fun x hx => absurd hx List.not_mem_nil, rfl⟩
      · next hesc =>
          rw [if_neg hesc]
          split at hrest
          · next hgroup =>
              rw [if_pos hgroup]
              exact decode_ahead hrest
          · next hgroup =>
              rw [if_neg hgroup]
              exact hprepend _ _ hrest
  | [] => cases hrest
  | [_] => cases hrest
  | [_, _] => cases hrest
  | [_, _, _] => cases hrest

theorem decodeFrame_rest (s : List UInt8) :
    (decodeFrame δ s).ending.rest = (ref δ s).rest := by
  have hmeets := decodeFrame_meets (δ := δ) s
  cases href : ref δ s with
  | success payload rest =>
      rw [href] at hmeets
      rw [hmeets.2]
      rfl
  | failure groups rest =>
      rw [href] at hmeets
      rcases hmeets.2 with ⟨e, hending⟩
      rw [hending]
      rfl
  | incomplete =>
      rw [href] at hmeets
      change (decodeFrame δ s).ending = .starved at hmeets
      rw [hmeets]
      rfl

theorem Ref.rest_eq_none {r : Ref} (h : r.rest = none) : r = .incomplete := by
  cases r with
  | success payload rest => cases h
  | failure groups rest => cases h
  | incomplete => rfl

end Frame

/-!
## The stream
-/

namespace Stream

variable {δ ω : Type} [Digest δ] {t t' : Stream δ ω} {rest : List UInt8}

def Ahead (rest : List UInt8) (t : Stream δ ω) : Prop :=
  exists feed digest, t.line = .frame feed digest ∧ rest <:+ feed.unread ∧
    (Frame.Decoded.mk feed.pend feed.ending).Ahead rest

namespace Ahead

omit [Digest δ] in
theorem unread (h : t.Ahead rest) : rest <:+ t.unread := by
  rcases h with ⟨feed, digest, hline, hunread, _⟩
  unfold Stream.unread
  rw [hline]
  exact hunread

theorem newFrame (hrest : (Frame.ref δ t.unread).rest = some rest) : t.newFrame.Ahead rest := by
  rw [← Frame.decodeFrame_rest] at hrest
  have hahead := Frame.decode_ahead hrest
  exact ⟨_, _, rfl, (Frame.decode_behind _ _ _ _).rest hrest, hahead⟩

theorem advance (h : t.Ahead rest) (n : Nat) : (t.advance n).Ahead rest := by
  rcases h with ⟨feed, digest, hline, hunread, hahead⟩
  refine ⟨feed.advance n, Digest.update digest (feed.bytes.take n), ?_, ?_, ?_⟩
  · unfold Stream.advance
    rw [hline]
  · by_cases hzero : n = 0
    · rw [hzero, Frame.Feed.advance_zero]
      exact hunread
    · rw [Frame.Feed.advance_pos hzero]
      change rest <:+ feed.unreadAfter n
      unfold Frame.Feed.unreadAfter
      cases hlast : ((feed.pend.take n).map Prod.snd).getLast? with
      | none => exact hunread
      | some behind =>
          rcases List.mem_map.mp (List.mem_of_getLast? hlast) with ⟨x, hx, rfl⟩
          exact hahead.pend x (List.mem_of_mem_take hx)
  · by_cases hzero : n = 0
    · rw [hzero, Frame.Feed.advance_zero]
      exact hahead
    · rw [Frame.Feed.advance_pos hzero]
      exact ⟨fun x hx => hahead.pend x (List.mem_of_mem_drop hx), hahead.ending⟩

theorem readBeyond {α : Type} (h : t.Ahead rest) : exists r t',
    (t.readBeyond : Outcome (Except Io.Error α) (Stream δ ω)) = .done r t' ∧ t'.Ahead rest := by
  rcases h with ⟨feed, digest, hline, hunread, hahead⟩
  have hspent : (t.exhaust (Frame.Feed.spent rest)).Ahead rest := by
    refine ⟨Frame.Feed.spent rest, Digest.update digest feed.bytes, ?_, List.suffix_rfl, ?_⟩
    · unfold exhaust
      rw [hline]
    · exact ⟨fun x hx => absurd hx List.not_mem_nil, rfl⟩
  have hending : feed.ending.rest = some rest := hahead.ending
  unfold Stream.readBeyond
  rw [hline]
  dsimp only
  cases hcase : feed.ending with
  | success rest' =>
      rw [hcase] at hending
      cases hending
      exact ⟨_, _, rfl, hspent⟩
  | failure e rest' =>
      rw [hcase] at hending
      cases hending
      exact ⟨_, _, rfl, hspent⟩
  | starved =>
      rw [hcase] at hending
      cases hending

omit [Digest δ] in
theorem of_line (h : t.Ahead rest) {feed : Frame.Feed} {digest digest' : δ}
    (hline : t.line = .frame feed digest) {t' : Stream δ ω}
    (hline' : t'.line = .frame feed digest') : t'.Ahead rest := by
  rcases h with ⟨feed₀, digest₀, hline₀, hunread, hahead⟩
  rw [hline] at hline₀
  cases hline₀
  exact ⟨feed, digest', hline', hunread, hahead⟩

theorem step {o : TaskOp ω} (ho : o.InFrame) (h : t.Ahead rest) :
    exists r t', handler o t = .done r t' ∧ t'.Ahead rest := by
  cases ho with
  | hasEnded => exact ⟨_, _, rfl, h⟩
  | messageReceived => exact ⟨_, _, rfl, h⟩
  | finalize =>
      refine ⟨_, _, rfl, ?_⟩
      have hframe := h
      rcases hframe with ⟨feed, digest, hline, _⟩
      have hfinal : t.finalize.2.line = .frame feed Digest.digest := by
        unfold Stream.finalize
        rw [hline]
        rfl
      exact h.of_line hline hfinal
  | reset =>
      refine ⟨_, _, rfl, ?_⟩
      have hframe := h
      rcases hframe with ⟨feed, digest, hline, _⟩
      have hreset : t.reset.line = .frame feed Digest.digest := by
        unfold Stream.reset
        rw [hline]
        rfl
      exact h.of_line hline hreset
  | read o =>
      cases o with
      | u8 =>
          change exists r t', t.readU8 = .done r t' ∧ t'.Ahead rest
          unfold readU8
          cases t.bytes with
          | nil => exact h.readBeyond
          | cons b bs => exact ⟨_, _, rfl, h.advance 1⟩
      | exact n =>
          change exists r t', t.readExact n = .done r t' ∧ t'.Ahead rest
          unfold readExact
          split
          · exact ⟨_, _, rfl, h.advance n⟩
          · exact h.readBeyond

end Ahead

end Stream

/-!
## Reading the frame
-/

variable {δ σ ω : Type} [Digest δ] [Machine]

/-- A frame that has an end is read up to its end at most, and nothing waits for more bytes. -/
theorem readFrame_done {cb : Callback σ ω} (hcb : cb.Lasting) (s : σ) {t : Stream δ ω}
    (hfuel : t.unread.length < Machine.fuel) {rest : List UInt8}
    (hrest : (Frame.ref δ t.unread).rest = some rest) :
    exists x t', (readFrame cb s).run Stream.handler t = .done x t' ∧ rest <:+ t'.unread := by
  have hnew : (perform .newFrame s : Prog (TaskSig ω) (Except Error Unit × σ)).run
      Stream.handler t = .done (.ok (), s) t.newFrame := rfl
  have hloop : Act.Uses TaskOp.InFrame (Act.iterate Machine.fuel (readFrameLoop cb) ()) :=
    .iterate (fun _ => readFrameLoop_uses cb) _ _
  have hends := readFrame_ends hcb s t hfuel
  unfold readFrame at hends ⊢
  rw [Act.run_bind_of_ok hnew] at hends ⊢
  have huses : Act.Uses TaskOp.InFrame (Act.borrow (fun s : σ => (Tlv.Reader.new, s))
      (fun t _ => t.2) (Act.iterate Machine.fuel (readFrameLoop cb) ())) := .borrow hloop
  rcases (huses s).goes (fun _ _ => Stream.Ahead.step) (Stream.Ahead.newFrame hrest) with
    ⟨x, t', hrun, hahead⟩ | ⟨t', hrun⟩
  · exact ⟨x, t', hrun, hahead.unread⟩
  · rw [hrun] at hends
    exact hends.elim

end Sml
end Smartmeter
