import Smartmeter.Sml.Parts
import Smartmeter.Sml.Run

/-!
# Reading a frame of messages

What is done with a frame whose payload is messages one after the other: they are
passed through up to the first one whose checksum is wrong.
-/

namespace Smartmeter
namespace Sml

open Foundation
open Frame (Feed Sent)
open Tlv (Reader)

variable {δ σ ω : Type} [Digest δ]

/-!
## Messages one after the other
-/

def joined (ms : List Parts) : List UInt8 := ms.flatMap Parts.bytes

def verdict (δ : Type) [Digest δ] : List Parts -> Except Error Unit
  | [] => .ok ()
  | m :: ms =>
      match m.back.verdict (Digest.checksum δ m.covered) with
      | .ok () => verdict δ ms
      | .error e => .error e

theorem verdict_cons_ok {m : Parts} {ms : List Parts}
    (h : m.back.verdict (Digest.checksum δ m.covered) = .ok ()) :
    verdict δ (m :: ms) = verdict δ ms := by
  simp only [verdict, h]

theorem verdict_cons_error {m : Parts} {ms : List Parts} {e : Error}
    (h : m.back.verdict (Digest.checksum δ m.covered) = .error e) :
    verdict δ (m :: ms) = .error e := by
  simp only [verdict, h]

def Parts.call (m : Parts) : Nat :=
  m.skipped.length + m.header.length + m.front.bytes.length

theorem Parts.add_call (m : Parts) (n : Nat) :
    n + m.call = n + m.skipped.length + m.header.length + m.front.bytes.length := by
  unfold Parts.call
  lia

/--
What is written down about the messages behind the first `n` bytes of a
payload: the marks, and the bytes that were taken by then.
-/
def account (δ : Type) [Digest δ] (payload : List UInt8) :
    Nat -> List Parts -> List (Mark ω × List UInt8)
  | _, [] => []
  | n, m :: ms =>
      [(.call .messageReceived, payload.take (n + m.call)),
        (.finalize (Digest.checksum δ m.covered), payload.take (n + m.covered.length))] ++
      match m.back.verdict (Digest.checksum δ m.covered) with
      | .ok () =>
          (.reset, payload.take (n + m.bytes.length)) ::
            account δ payload (n + m.bytes.length) ms
      | .error _ => []

theorem Parts.drop_call (m : Parts) (rest : List UInt8) :
    (m.bytes ++ rest).drop m.call = m.body ++ (m.back.bytes ++ rest) := by
  have hsplit : m.bytes ++ rest = (m.skipped ++ (m.header ++ m.front.bytes)) ++
      (m.body ++ (m.back.bytes ++ rest)) := by
    simp only [Parts.bytes, Parts.covered, List.append_assoc]
  have hlen : (m.skipped ++ (m.header ++ m.front.bytes)).length = m.call := by
    simp only [Parts.call, List.length_append, Nat.add_assoc]
  rw [hsplit, ← hlen, List.drop_left]

variable [Machine]

/-- Messages one after the other; `pending` elements are left over in front of them. -/
def Chain : Nat -> List Parts -> Prop
  | _, [] => True
  | pending, m :: ms => m.Shape pending ∧ Chain m.more ms

/--
The callback returns `Ok`, whatever it was told before, and leaves the rest of
the body to be passed over.
-/
def Passes (δ : Type) [Digest δ] (cb : Callback σ ω) (body : List UInt8) (s s' : σ) : Prop :=
  forall (feed : Feed) (n call size : Nat) (rest : List UInt8) (t : Stream δ ω),
    feed.bytes.length < Machine.fuel -> Stream.At feed n call t ->
    feed.bytes.drop call = body ++ rest ->
    exists reader t', (received cb 2 ({ reader := Reader.new, len := size }, s)).run
        Stream.handler t = .done (.ok (), ({ reader := reader, len := size }, s')) t' ∧
      Received feed n call body t reader t'

/-- The callback passes one message after the other, up to one whose checksum is wrong. -/
def Follows (δ : Type) [Digest δ] (cb : Callback σ ω) : σ -> List Parts -> Prop
  | _, [] => True
  | s, m :: ms => exists s', Passes δ cb m.body s s' ∧
      (m.back.verdict (Digest.checksum δ m.covered) = .ok () -> Follows δ cb s' ms)

omit [Machine] in
theorem Parts.bytes_ne_nil (m : Parts) : m.bytes ≠ [] := by
  intro hnil
  have hlen := congrArg List.length hnil
  simp only [Parts.bytes, Back.bytes, List.length_append, List.length_cons,
    List.length_nil] at hlen
  lia

omit [Machine] in
theorem run_hasEnded {τ : Type} (x : τ) (t : Stream δ ω) :
    (perform .hasEnded x : Prog (TaskSig ω) (Except Error Bool × τ)).run Stream.handler t =
      .done (.ok t.hasEnded, x) t := rfl

theorem readFrameLoop_ended (cb : Callback σ ω) (x : Reader × σ) {t : Stream δ ω}
    (h : t.hasEnded = true) :
    (readFrameLoop cb () x).run Stream.handler t = .done (.ok (.inr ()), x) t := by
  unfold readFrameLoop
  rw [Act.run_bind_of_ok (run_hasEnded x t), h]
  rfl

theorem iterate_run {cb : Callback σ ω} {f : Sent δ} {behind : List UInt8} {feed : Feed}
    (hfeed : feed = Stream.frameFeed δ (f.bytes ++ behind))
    (hfuel : feed.bytes.length < Machine.fuel) {ms : List Parts} {k n pending : Nat} {s : σ}
    (hfollows : Follows δ cb s ms) {t : Stream δ ω} (hat : Stream.At feed n n t)
    (hbytes : feed.bytes.drop n = joined ms) (hchain : Chain pending ms)
    (hstarted : ms = [] -> n ≠ 0) (hk : ms.length < k) :
    exists x' t', (Act.iterate k (readFrameLoop cb) ()
        ({ remainingBytes := 0, remainingTlvs := pending }, s)).run Stream.handler t =
        .done (verdict δ ms, x') t' ∧
      (exists mid, t'.log = t.log ++ mid ∧ mid.map Entry.seen = account δ feed.bytes n ms) ∧
      (verdict δ ms = .ok () -> t'.unread = behind) := by
  have hpayload : feed.bytes = f.payload := by
    rw [hfeed]
    exact (frameFeed_sent f behind).1
  induction ms generalizing n pending s t k with
  | nil =>
      cases k with
      | zero => exact absurd hk (Nat.not_lt_zero _)
      | succ k =>
          have hlen : n = f.payload.length := by
            have hle := hat.le
            have hge := List.drop_eq_nil_iff.mp hbytes
            rw [hpayload] at hle hge
            exact Nat.le_antisymm hle hge
          have hsent := hat
          rw [hfeed] at hsent
          rcases hsent.hasEnded_of_sent (hstarted rfl) hlen with ⟨hended, hunread⟩
          refine ⟨({ remainingBytes := 0, remainingTlvs := pending }, s), t, ?_,
            ⟨[], (List.append_nil _).symm, rfl⟩, fun _ => hunread⟩
          rw [Act.iterate_succ, Act.run_bind_of_ok (readFrameLoop_ended cb _ hended)]
          rfl
  | cons m ms ih =>
      cases k with
      | zero => exact absurd hk (Nat.not_lt_zero _)
      | succ k =>
          rcases hfollows with ⟨s', hpasses, hfollows⟩
          have hmore : feed.bytes.drop n ≠ [] := by
            rw [hbytes]
            exact List.append_ne_nil_of_left_ne_nil m.bytes_ne_nil _
          have hended : t.hasEnded = false := by
            rw [hfeed] at hat hmore
            exact hat.not_hasEnded hmore
          have hcall : feed.bytes.drop (n + m.call) =
              m.body ++ (m.back.bytes ++ joined ms) := by
            rw [← List.drop_drop, hbytes]
            exact m.drop_call (joined ms)
          rcases readFrameLoop_run hat hended hbytes hchain.1 hfuel (m.add_call n)
            (fun t₁ hat₁ => hpasses feed n _ _ _ t₁ hfuel hat₁ hcall) with
            ⟨t₁, part, hrun, hat₁, hlog, hpart⟩
          rw [Act.iterate_succ]
          cases hverdict : m.back.verdict (Digest.checksum δ m.covered) with
          | error e =>
              rw [hverdict] at hrun
              refine ⟨({ remainingBytes := 0, remainingTlvs := m.more }, s'), t₁, ?_,
                ⟨part, hlog, ?_⟩, ?_⟩
              · rw [Act.run_bind_of_error hrun, verdict_cons_error hverdict]
              · rw [hpart]
                simp only [account, hverdict, List.append_nil]
              · intro hok
                rw [verdict_cons_error hverdict] at hok
                cases hok
          | ok _ =>
              rw [hverdict] at hrun
              rcases hat₁.reset with ⟨hat₂, hlog₂⟩
              have hbytes₂ : feed.bytes.drop (n + m.bytes.length) = joined ms := by
                rw [← List.drop_drop, hbytes]
                exact List.drop_left
              have hpos : n + m.bytes.length ≠ 0 := by
                have hne := List.length_pos_iff.mpr m.bytes_ne_nil
                lia
              rw [List.length_cons] at hk
              rcases ih (hfollows hverdict) hat₂ hbytes₂ hchain.2 (fun _ => hpos)
                (Nat.lt_of_succ_lt_succ hk) with ⟨x', t', hrun', ⟨mid, hlog', hmid⟩, hunread⟩
              have hwhole : t'.log = t.log ++ (part ++
                  ([{ mark := .reset, unread := t₁.unread,
                      taken := feed.bytes.take (n + m.bytes.length) }] ++ mid)) := by
                rw [hlog', hlog₂, hlog, List.append_assoc, List.append_assoc]
              refine ⟨x', t', ?_, ⟨_, hwhole, ?_⟩, ?_⟩
              · rw [Act.run_bind_of_ok hrun, hrun', verdict_cons_ok hverdict]
              · simp only [account, hverdict, List.map_append, hpart, hmid]
                rfl
              · rw [verdict_cons_ok hverdict]
                exact hunread

omit [Digest δ] [Machine] in
theorem length_le_joined (ms : List Parts) : ms.length ≤ (joined ms).length := by
  induction ms with
  | nil => exact Nat.le_refl 0
  | cons m ms ih =>
      have hpos := List.length_pos_iff.mpr m.bytes_ne_nil
      rw [joined, List.flatMap_cons, List.length_append, List.length_cons]
      change _ ≤ m.bytes.length + (joined ms).length
      lia

theorem readFrame_run {cb : Callback σ ω} {f : Sent δ} {behind : List UInt8} {ms : List Parts}
    (hne : ms ≠ []) (hpayload : f.payload = joined ms) (hchain : Chain 0 ms)
    (hfuel : f.payload.length < Machine.fuel) {s : σ} (hfollows : Follows δ cb s ms)
    {t : Stream δ ω} (hunread : t.unread = f.bytes ++ behind) :
    exists s' t', (readFrame cb s).run Stream.handler t = .done (verdict δ ms, s') t' ∧
      (exists mid, t'.log = t.log ++ mid ∧ mid.map Entry.seen = account δ f.payload 0 ms) ∧
      (verdict δ ms = .ok () -> t'.unread = behind) := by
  have hbytes := (frameFeed_sent f behind).1
  have hat := Stream.newFrame_at t
  rw [hunread] at hat
  have hk : ms.length < Machine.fuel := by
    have hle := length_le_joined ms
    rw [← hpayload] at hle
    lia
  rcases iterate_run rfl (by rw [hbytes]; exact hfuel) hfollows hat
    (by rw [hbytes, hpayload]; rfl) hchain (fun hnil => absurd hnil hne) hk with
    ⟨x', t', hrun, hlog, hbehind⟩
  rw [hbytes] at hlog
  refine ⟨x'.2, t', ?_, hlog, hbehind⟩
  have hnew : (perform .newFrame s : Prog (TaskSig ω) (Except Error Unit × σ)).run
      Stream.handler t = .done (.ok (), s) t.newFrame := rfl
  unfold readFrame
  rw [Act.run_bind_of_ok hnew]
  exact Act.run_borrow_of_done hrun

/-!
## The callback that reads nothing
-/

theorem received_idle_run (size : Nat) (t : Stream δ Empty) :
    (received Callback.idle 2 ({ reader := Reader.new, len := size }, ())).run Stream.handler t =
      .done (.ok (), ({ reader := { remainingBytes := 0, remainingTlvs := 2 }, len := size }, ()))
        (t.observe (.call .messageReceived)) := by
  have hdrop : Tlv.Handle.drop .list { reader := Reader.new, len := 2 } =
      { remainingBytes := 0, remainingTlvs := 2 } :=
    Tlv.Handle.drop_list_new (Nat.lt_of_lt_of_le (by decide) Usize.pow_le_size)
  rw [← hdrop]
  rfl

theorem passes_idle {body : List UInt8} (h : Tlv.Skips 2 body) :
    Passes δ Callback.idle body () () := by
  intro feed n call size rest t _ hat _
  refine ⟨_, _, received_idle_run size t,
    ⟨⟨0, Nat.zero_le _, hat.observe _, [], body, rfl, rfl, h⟩, ?_⟩⟩
  rw [← hat.taken]
  rfl

theorem follows_idle {ms : List Parts} (h : forall m, m ∈ ms -> Tlv.Skips 2 m.body) :
    Follows δ Callback.idle () ms := by
  induction ms with
  | nil => trivial
  | cons m ms ih =>
      rw [List.forall_mem_cons] at h
      exact ⟨(), passes_idle h.1, fun _ => ih h.2⟩

end Sml
end Smartmeter
