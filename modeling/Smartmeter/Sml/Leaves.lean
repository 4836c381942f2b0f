import Smartmeter.Sml.Checksum
import Smartmeter.Sml.RoundTrip

/-!
# What a frame leaves in the callback

A frame of messages that the callback passes leaves in it what the messages have
left one after the other, and the run of the task behind it goes on with that.
-/

namespace Smartmeter
namespace Sml

open Foundation
open Frame (Feed Sent encode startMarker)
open Tlv (Reader)

variable {δ σ ω : Type} [Digest δ] [Machine]

def Leaves (δ : Type) [Digest δ] (cb : Callback σ ω) : σ -> List Parts -> σ -> Prop
  | s, [], s' => s = s'
  | s, m :: ms, s' => exists s₁, Passes δ cb m.body s s₁ ∧ Leaves δ cb s₁ ms s'

theorem Leaves.follows {cb : Callback σ ω} {s s' : σ} {ms : List Parts}
    (h : Leaves δ cb s ms s') : Follows δ cb s ms := by
  induction ms generalizing s with
  | nil => trivial
  | cons m ms ih =>
      rcases h with ⟨s₁, hpasses, hleaves⟩
      exact ⟨s₁, hpasses, fun _ => ih hleaves⟩

theorem iterate_leaves {cb : Callback σ ω} {f : Sent δ} {behind : List UInt8} {feed : Feed}
    (hfeed : feed = Stream.frameFeed δ (f.bytes ++ behind))
    (hfuel : feed.bytes.length < Machine.fuel) {ms : List Parts} {k n pending : Nat} {s s' : σ}
    (hleaves : Leaves δ cb s ms s') (hverdict : verdict δ ms = .ok ()) {t t' : Stream δ ω}
    (hat : Stream.At feed n n t) (hbytes : feed.bytes.drop n = joined ms)
    (hchain : Chain pending ms) (hstarted : ms = [] -> n ≠ 0) {res : Except Error Unit}
    {x' : Reader × σ}
    (hrun : (Act.iterate k (readFrameLoop cb) ()
      ({ remainingBytes := 0, remainingTlvs := pending }, s)).run Stream.handler t =
        .done (res, x') t') : x'.2 = s' := by
  induction ms generalizing k n pending s t with
  | nil =>
      cases k with
      | zero => cases hrun
      | succ k =>
          have hpayload : feed.bytes = f.payload := by
            rw [hfeed]
            exact (frameFeed_sent f behind).1
          have hlen : n = f.payload.length := by
            have hle := hat.le
            have hge := List.drop_eq_nil_iff.mp hbytes
            rw [hpayload] at hle hge
            exact Nat.le_antisymm hle hge
          rw [hfeed] at hat
          rcases hat.hasEnded_of_sent (hstarted rfl) hlen with ⟨hended, _⟩
          rw [Act.iterate_succ, Act.run_bind_of_ok (readFrameLoop_ended cb _ hended)] at hrun
          cases hrun
          exact hleaves
  | cons m ms ih =>
      cases k with
      | zero => cases hrun
      | succ k =>
          rcases hleaves with ⟨s₁, hpasses, hleaves⟩
          have hmessage := verdict_eq_ok.mp hverdict m List.mem_cons_self
          have hmore : feed.bytes.drop n ≠ [] := by
            rw [hbytes]
            exact List.append_ne_nil_of_left_ne_nil m.bytes_ne_nil _
          have hended : t.hasEnded = false := by
            rw [hfeed] at hat hmore
            exact hat.not_hasEnded hmore
          have hcall : feed.bytes.drop (n + m.call) =
              m.body ++ (m.back.bytes ++ joined ms) := by
            rw [← List.drop_drop, hbytes]
            exact m.drop_call (joined ms)
          rcases readFrameLoop_run hat hended hbytes hchain.1 hfuel (m.add_call n)
            (fun t₁ hat₁ => hpasses feed n _ _ _ t₁ hfuel hat₁ hcall) with
            ⟨t₁, _, hloop, hat₁, _, _⟩
          rw [hmessage] at hloop
          rw [Act.iterate_succ, Act.run_bind_of_ok hloop] at hrun
          have hbytes₁ : feed.bytes.drop (n + m.bytes.length) = joined ms := by
            rw [← List.drop_drop, hbytes]
            exact List.drop_left
          have hpos : n + m.bytes.length ≠ 0 := by
            have hne := List.length_pos_iff.mpr m.bytes_ne_nil
            lia
          rw [verdict_cons_ok hmessage] at hverdict
          exact ih hleaves hverdict hat₁.reset.1 hbytes₁ hchain.2 (fun _ => hpos) hrun

theorem readFrame_leaves {cb : Callback σ ω} {f : Sent δ} {behind : List UInt8}
    {ms : List Parts} (hne : ms ≠ []) (hpayload : f.payload = joined ms) (hchain : Chain 0 ms)
    (hfuel : f.payload.length < Machine.fuel) (hverdict : verdict δ ms = .ok ()) {s s' : σ}
    (hleaves : Leaves δ cb s ms s') {t : Stream δ ω} (hunread : t.unread = f.bytes ++ behind) :
    exists t', (readFrame cb s).run Stream.handler t = .done (.ok (), s') t' ∧
      t'.unread = behind := by
  rcases readFrame_run hne hpayload hchain hfuel hleaves.follows hunread with
    ⟨s₁, t', hrun, _, hbehind⟩
  rw [hverdict] at hrun
  have hbytes := (frameFeed_sent f behind).1
  have hat := Stream.newFrame_at t
  rw [hunread] at hat
  have hs : s₁ = s' := by
    rcases Act.run_bind_ok hrun with ⟨_, s₀, t₀, h₀, hread⟩
    cases h₀
    rcases Act.run_borrow_ok hread with ⟨x, hloop, hx⟩
    rw [hx]
    exact iterate_leaves rfl (by rw [hbytes]; exact hfuel) hleaves hverdict hat
      (by rw [hbytes, hpayload]; rfl) hchain (fun hnil => absurd hnil hne) hloop
  rw [hs] at hrun
  exact ⟨t', hrun, hbehind hverdict⟩

/-!
## A frame behind other bytes
-/

theorem taskLoop_leaves {cb : Callback σ ω} {junk payload behind : List UInt8}
    (hjunk : forall b, b ∈ junk -> b ≠ 0x1B) {ms : List Parts} (hne : ms ≠ [])
    (hpayload : payload = joined ms) (hchain : Chain 0 ms) (hverdict : verdict δ ms = .ok ())
    {s s' : σ} (hleaves : Leaves δ cb (cb.frameStart s) ms s') {t : Stream δ ω}
    (hunread : t.unread = junk ++ encode δ payload ++ behind)
    (hfuel : t.unread.length < Machine.fuel) :
    exists (t₁ : Stream δ ω) (mid : List (Entry ω)), (taskLoop cb () s).run Stream.handler t =
        .done (.ok (.inl ()), (cb.frameFinished true s').1)
          ((t₁.observe (.call (.frameFinished true))).tell (cb.frameFinished true s').2) ∧
      t₁.unread = behind ∧ t₁.log = t.log ++ mid ∧
      forall e, e ∈ mid -> e.mark = .call .frameStart ∨ e.mark.Inner := by
  let frame : Sent δ := Sent.of δ payload
  have hframe : frame.payload = joined ms := by
    rw [← hpayload]
    exact Sent.of_payload _
  have hsplit : t.unread = junk ++ (startMarker ++ (frame.bytes ++ behind)) := by
    rw [hunread, Sent.encode_eq]
    simp only [frame, List.append_assoc]
  have hfind : findStart 0 t.unread = some (frame.bytes ++ behind) := by
    rw [hsplit, findStart_skip hjunk]
    exact findStart_startMarker _
  have hwait : (waitForStartSequence s).run Stream.handler t =
      .done (.ok (), s) { t with line := .source (frame.bytes ++ behind) } := by
    have hrun := run_startSequence s Machine.fuel 0 t hfuel (by decide)
    rw [hfind] at hrun
    exact hrun
  have hlen : frame.payload.length < Machine.fuel := by
    have hle := payload_length_le frame behind
    have hbytes := congrArg List.length hsplit
    rw [List.length_append, List.length_append] at hbytes
    lia
  let t₀ : Stream δ ω :=
    { t with line := .source (frame.bytes ++ behind) }.observe (.call .frameStart)
  have hbehind : t₀.unread = frame.bytes ++ behind := rfl
  rcases readFrame_leaves hne hframe hchain hlen hverdict hleaves hbehind with
    ⟨t₁, hread, hunread₁⟩
  have hext := Stream.run_extends (readFrame_uses cb (cb.frameStart s)) t₀
  rw [hread] at hext
  rcases hext with ⟨mid, hmid, hinner⟩
  exists t₁, { mark := .call .frameStart, unread := frame.bytes ++ behind, taken := t.taken } :: mid
  refine ⟨?_, hunread₁, ?_, ?_⟩
  · rw [run_taskLoop cb hwait]
    change ((readFrame cb (cb.frameStart s)).run Stream.handler t₀).andThen _ = _
    rw [hread]
    rfl
  · change t₁.log = (t.log ++ [_]) ++ mid at hmid
    rw [hmid, List.append_assoc]
    rfl
  · rw [List.forall_mem_cons]
    exact ⟨Or.inl rfl, fun e he => Or.inr (hinner e he)⟩

end Sml
end Smartmeter
