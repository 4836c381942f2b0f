import Smartmeter.Sml.Acceptance
import Smartmeter.Sml.Frame.Encode
import Smartmeter.Sml.StartMarker

/-!
# Frames that are sent are received

Frames of messages that the parser consumes, with other bytes between them: the
task tells the callback of each of them, and takes no byte behind a frame before
it has told that the frame is finished.
-/

namespace Smartmeter
namespace Sml

open Foundation
open Frame (Feed Sent encode startMarker)
open Tlv (Handle Reader Skips)

variable {δ τ ω : Type} [Digest δ]

/-!
## The start marker
-/

theorem findStart_skip {junk : List UInt8} (hjunk : forall b, b ∈ junk -> b ≠ 0x1B)
    (rest : List UInt8) : findStart 0 (junk ++ rest) = findStart 0 rest := by
  induction junk with
  | nil => rfl
  | cons b junk ih =>
      rw [List.forall_mem_cons] at hjunk
      have hstep : startSequenceStep 0 b = 0 := by
        unfold startSequenceStep
        rw [if_neg (by rintro (⟨_, hb⟩ | ⟨hle, _⟩); exact hjunk.1 hb; exact absurd hle (by decide)),
          if_neg (by rintro ⟨hzero, _⟩; cases hzero)]
      change findStart (startSequenceStep 0 b) (junk ++ rest) = _
      rw [hstep]
      exact ih hjunk.2

theorem findStart_startMarker (rest : List UInt8) :
    findStart 0 (startMarker ++ rest) = some rest :=
  findStart_done rest

/-!
## Messages that are consumed
-/

/-- A frame whose payload begins with the given bytes and is still being received. -/
def Stream.arriving (bytes : List UInt8) : Stream δ Empty :=
  { line := .frame
      { pend := bytes.map fun b => (b, []), ending := .starved, ended := false, unread := [] }
      Digest.digest
    taken := []
    log := [] }

variable [Machine]

/--
The bytes are those of a message: `read_frame` goes over them with a
callback that reads nothing, and has nothing left to skip behind them.
-/
def Consumed (δ : Type) [Digest δ] (bytes : List UInt8) : Prop :=
  exists t', (readFrameLoop Callback.idle () (Reader.new, ())).run Stream.handler
      (Stream.arriving bytes : Stream δ Empty) = .done (.ok (.inl ()), (Reader.new, ())) t' ∧
    t'.bytes = []

omit [Machine] in
theorem arriving_at (bytes : List UInt8) :
    exists feed : Feed, feed.bytes = bytes ∧
      Stream.At feed 0 0 (Stream.arriving bytes : Stream δ Empty) := by
  let feed : Feed :=
    { pend := bytes.map fun b => (b, []), ending := .starved, ended := false, unread := [] }
  refine ⟨feed, ?_, ?_, rfl, Nat.le_refl 0, Nat.zero_le _⟩
  · change (bytes.map fun b => (b, [])).map Prod.fst = bytes
    rw [List.map_map]
    exact List.map_id bytes
  · rw [List.take_zero, List.drop_nil, Digest.update_nil]
    rfl

theorem Consumed.parts {bytes : List UInt8} (h : Consumed δ bytes) :
    exists m : Parts, m.bytes = bytes ∧ m.Shape 0 ∧ m.more = 0 ∧ m.Passed δ := by
  rcases h with ⟨t', hrun, hend⟩
  rcases arriving_at (δ := δ) bytes with ⟨feed, hfeed, hat⟩
  rcases readFrameLoop_idle_ok hat rfl hrun with ⟨m, hm, hbody, hverdict, hbytes, hat', hmore⟩
  rw [hat'.bytes] at hend
  rw [hend, List.append_nil, hfeed, List.drop_zero] at hbytes
  exact ⟨m, hbytes.symm, hm, (congrArg Reader.remainingTlvs hmore).symm, hbody, hverdict⟩

theorem Parts.consumed {m : Parts} (hm : m.Shape 0) (hmore : m.more = 0) (hpassed : m.Passed δ)
    (hfuel : m.bytes.length < Machine.fuel) : Consumed δ m.bytes := by
  rcases arriving_at (δ := δ) m.bytes with ⟨feed, hfeed, hat⟩
  have hbytes : feed.bytes.drop 0 = m.bytes ++ [] := by
    rw [List.drop_zero, List.append_nil, hfeed]
  have hcall : feed.bytes.drop (0 + m.call) = m.body ++ (m.back.bytes ++ []) := by
    rw [← List.drop_drop, hbytes]
    exact m.drop_call []
  rw [← hfeed] at hfuel
  rcases readFrameLoop_run hat rfl hbytes hm hfuel (m.add_call 0)
    (fun t₁ hat₁ => passes_idle hpassed.body feed 0 _ _ _ t₁ hfuel hat₁ hcall) with
    ⟨t', part, hrun, hat', _⟩
  rw [hpassed.verdict, hmore] at hrun
  refine ⟨t'.reset, hrun, ?_⟩
  rw [hat'.reset.1.bytes]
  apply List.drop_eq_nil_of_le
  rw [hfeed, Nat.zero_add]

theorem consumed_parts {messages : List (List UInt8)}
    (h : forall bytes, bytes ∈ messages -> Consumed δ bytes) :
    exists ms : List Parts, ms.length = messages.length ∧ joined ms = messages.flatten ∧
      Chain 0 ms ∧ forall m, m ∈ ms -> m.Passed δ := by
  induction messages with
  | nil => exact ⟨[], rfl, rfl, trivial, fun m hm => absurd hm List.not_mem_nil⟩
  | cons bytes messages ih =>
      rw [List.forall_mem_cons] at h
      rcases h.1.parts with ⟨m, hbytes, hm, hmore, hpassed⟩
      rcases ih h.2 with ⟨ms, hlen, hjoined, hchain, hall⟩
      refine ⟨m :: ms, congrArg Nat.succ hlen, ?_, ⟨hm, ?_⟩, ?_⟩
      · rw [List.flatten_cons, ← hjoined, ← hbytes]
        rfl
      · rw [hmore]
        exact hchain
      · rw [List.forall_mem_cons]
        exact ⟨hpassed, hall⟩

/-!
## What is told of frames
-/

/-- Bytes without an escape byte, and the messages of the frame behind them. -/
structure Sending where
  junk : List UInt8
  messages : List (List UInt8)

structure Sending.Valid (δ : Type) [Digest δ] (f : Sending) : Prop where
  junk : forall b, b ∈ f.junk -> b ≠ 0x1B
  messages_ne_nil : f.messages ≠ []
  consumed : forall bytes, bytes ∈ f.messages -> Consumed δ bytes

def Sending.bytes (δ : Type) [Digest δ] (f : Sending) : List UInt8 :=
  f.junk ++ encode δ f.messages.flatten

def sent (δ : Type) [Digest δ] (frames : List Sending) (tail : List UInt8) : List UInt8 :=
  frames.flatMap (Sending.bytes δ) ++ tail

/-- A call and, when a frame is finished, the bytes that were not taken from the source. -/
def Entry.told (e : Entry ω) : Option (Event ω × Option (List UInt8)) :=
  match e.mark with
  | .call (.frameFinished valid) => some (.frameFinished valid, some e.unread)
  | .call event => some (event, none)
  | _ => none

def reports (δ : Type) [Digest δ] :
    List Sending -> List UInt8 -> List (Event Empty × Option (List UInt8))
  | [], _ => []
  | f :: frames, tail =>
      (.frameStart, none) :: f.messages.map (fun _ => (.messageReceived, none)) ++
        (.frameFinished true, some (sent δ frames tail)) :: reports δ frames tail

omit [Machine] in
theorem told_account {payload : List UInt8} {n : Nat} {ms : List Parts} {mid : List (Entry ω)}
    (hok : verdict δ ms = .ok ()) (hmid : mid.map Entry.seen = account δ payload n ms) :
    mid.filterMap Entry.told = ms.map fun _ => (.messageReceived, none) := by
  induction ms generalizing n mid with
  | nil =>
      rw [List.map_eq_nil_iff.mp hmid]
      rfl
  | cons m ms ih =>
      have hverdict := verdict_eq_ok.mp hok m List.mem_cons_self
      rw [verdict_cons_ok hverdict] at hok
      simp only [account, hverdict] at hmid
      rcases List.map_eq_cons_iff.mp hmid with ⟨e₁, mid₁, hsplit₁, hseen₁, hmid₁⟩
      rcases List.map_eq_cons_iff.mp hmid₁ with ⟨e₂, mid₂, hsplit₂, hseen₂, hmid₂⟩
      rcases List.map_eq_cons_iff.mp hmid₂ with ⟨e₃, mid₃, hsplit₃, hseen₃, hmid₃⟩
      have hmark₁ : e₁.mark = .call .messageReceived := congrArg Prod.fst hseen₁
      have hmark₂ : e₂.mark = _ := congrArg Prod.fst hseen₂
      have hmark₃ : e₃.mark = .reset := congrArg Prod.fst hseen₃
      have htold₁ : e₁.told = some (.messageReceived, none) := by
        unfold Entry.told
        rw [hmark₁]
      have htold₂ : e₂.told = none := by
        unfold Entry.told
        rw [hmark₂]
      have htold₃ : e₃.told = none := by
        unfold Entry.told
        rw [hmark₃]
      rw [hsplit₁, hsplit₂, hsplit₃, List.filterMap_cons_some htold₁,
        List.filterMap_cons_none htold₂, List.filterMap_cons_none htold₃, ih hok hmid₃]
      rfl

theorem taskLoop_sent {f : Sending} (hf : f.Valid δ) {t : Stream δ Empty}
    {behind : List UInt8} (hunread : t.unread = f.bytes δ ++ behind)
    (hfuel : t.unread.length < Machine.fuel) :
    exists t', (taskLoop Callback.idle () ()).run Stream.handler t =
        .done (.ok (.inl ()), ()) t' ∧ t'.unread = behind ∧
      t'.log.filterMap Entry.told = t.log.filterMap Entry.told ++
        ((.frameStart, none) :: f.messages.map (fun _ => (.messageReceived, none)) ++
          [(.frameFinished true, some behind)]) := by
  rcases consumed_parts hf.consumed with ⟨ms, hlength, hjoined, hchain, hpassed⟩
  let frame : Sent δ := Sent.of δ f.messages.flatten
  have hpayload : frame.payload = joined ms := by
    rw [hjoined]
    exact Sent.of_payload _
  have hne : ms ≠ [] := by
    intro hnil
    rw [hnil] at hlength
    exact hf.messages_ne_nil (List.length_eq_zero_iff.mp hlength.symm)
  have hsplit : t.unread = f.junk ++ (startMarker ++ (frame.bytes ++ behind)) := by
    rw [hunread, Sending.bytes, Sent.encode_eq]
    simp only [frame, List.append_assoc]
  have hfind : findStart 0 t.unread = some (frame.bytes ++ behind) := by
    rw [hsplit, findStart_skip hf.junk]
    exact findStart_startMarker _
  have hwait : (waitForStartSequence ()).run Stream.handler t =
      .done (.ok (), ()) { t with line := .source (frame.bytes ++ behind) } := by
    have hrun := run_startSequence () Machine.fuel 0 t hfuel (by decide)
    rw [hfind] at hrun
    exact hrun
  have hlen : frame.payload.length < Machine.fuel := by
    have hle := payload_length_le frame behind
    have hbytes := congrArg List.length hsplit
    rw [List.length_append, List.length_append] at hbytes
    lia
  have hok : verdict δ ms = .ok () := verdict_eq_ok.mpr fun m hm => (hpassed m hm).verdict
  let t₀ : Stream δ Empty :=
    { t with line := .source (frame.bytes ++ behind) }.observe (.call .frameStart)
  have hbehind : t₀.unread = frame.bytes ++ behind := rfl
  rcases readFrame_run hne hpayload hchain hlen
    (follows_idle fun m hm => (hpassed m hm).body) hbehind with
    ⟨s', t₁, hread, ⟨mid, hlog, hmid⟩, hleft⟩
  rw [hok] at hread
  have hattempt : (Act.attempt (readFrame Callback.idle) ()).run Stream.handler t₀ =
      .done (.ok (.ok ()), s') t₁ := by
    rw [Act.attempt_apply, Prog.run_bind, hread]
    rfl
  refine ⟨t₁.observe (.call (.frameFinished true)), ?_, hleft hok, ?_⟩
  · unfold taskLoop
    rw [Act.run_bind_of_ok hwait]
    change ((Act.attempt (readFrame Callback.idle) >>= fun r => _) ()).run Stream.handler t₀ = _
    rw [Act.run_bind_of_ok hattempt, Act.run_bind_of_ok (run_frameFinished _ true s' t₁)]
    rfl
  · have htold := told_account hok hmid
    have hwhole : (t₁.observe (.call (.frameFinished true))).log =
        t₀.log ++ mid ++ [⟨.call (.frameFinished true), t₁.unread, t₁.taken⟩] :=
      congrArg (· ++ _) hlog
    have hbefore : t₀.log = t.log ++ [⟨.call .frameStart, frame.bytes ++ behind, t.taken⟩] := rfl
    have hcount : ms.map (fun _ => ((.messageReceived, none) : Event Empty × Option (List UInt8))) =
        f.messages.map fun _ => (.messageReceived, none) := by
      rw [List.map_const', List.map_const', hlength]
    rw [hwhole, hbefore, List.filterMap_append, List.filterMap_append, List.filterMap_append,
      htold, hcount, hleft hok, List.append_assoc, List.append_assoc]
    rfl

theorem task_sent {frames : List Sending} (hframes : forall f, f ∈ frames -> f.Valid δ)
    {tail : List UInt8} (htail : forall b, b ∈ tail -> b ≠ 0x1B) {k : Nat}
    (hk : frames.length < k) {t : Stream δ Empty} (hunread : t.unread = sent δ frames tail)
    (hfuel : t.unread.length < Machine.fuel) :
    exists t', (Act.iterate k (taskLoop Callback.idle) () ()).run Stream.handler t = .blocked t' ∧
      t'.log.filterMap Entry.told = t.log.filterMap Entry.told ++ reports δ frames tail := by
  induction frames generalizing k t with
  | nil =>
      cases k with
      | zero => exact absurd hk (Nat.not_lt_zero _)
      | succ k =>
          have hfind : findStart 0 t.unread = none := by
            rw [hunread]
            have hskip := findStart_skip htail []
            rw [List.append_nil] at hskip
            exact hskip
          have hrun := run_startSequence () Machine.fuel 0 t hfuel (by decide)
          rw [hfind] at hrun
          refine ⟨{ t with line := .source [] }, ?_, (List.append_nil _).symm⟩
          rw [Act.iterate_succ, Act.bind_apply, Prog.run_bind]
          unfold taskLoop
          rw [Act.bind_apply, Prog.run_bind]
          unfold waitForStartSequence
          rw [hrun]
          rfl
  | cons f frames ih =>
      cases k with
      | zero => exact absurd hk (Nat.not_lt_zero _)
      | succ k =>
          rw [List.forall_mem_cons] at hframes
          have hsplit : t.unread = f.bytes δ ++ sent δ frames tail := by
            rw [hunread, sent, List.flatMap_cons, List.append_assoc]
            rfl
          rcases taskLoop_sent hframes.1 hsplit hfuel with ⟨t₁, hrun, hunread₁, htold⟩
          rw [List.length_cons] at hk
          have hless : t₁.unread.length < Machine.fuel := by
            rw [hsplit, List.length_append, ← hunread₁] at hfuel
            lia
          rcases ih hframes.2 (Nat.lt_of_succ_lt_succ hk) hunread₁ hless with ⟨t', hrun', htold'⟩
          refine ⟨t', ?_, ?_⟩
          · rw [Act.iterate_succ, Act.run_bind_of_ok hrun]
            exact hrun'
          · rw [htold', htold, reports]
            simp only [List.append_assoc, List.cons_append, List.nil_append]

omit [Machine] in
theorem length_le_sent (frames : List Sending) (tail : List UInt8) :
    frames.length ≤ (sent δ frames tail).length := by
  induction frames with
  | nil => exact Nat.zero_le _
  | cons f frames ih =>
      have hsplit : sent δ (f :: frames) tail = f.bytes δ ++ sent δ frames tail := by
        rw [sent, List.flatMap_cons, List.append_assoc]
        rfl
      have hpos : 8 ≤ (f.bytes δ).length := by
        rw [Sending.bytes, Sent.encode_eq, List.length_append, List.length_append]
        have hmarker : startMarker.length = 8 := rfl
        lia
      rw [hsplit, List.length_append, List.length_cons]
      lia

/-!
## However the source is cut
-/

def toldAfter (δ : Type) [Digest δ] {ρ : Type} [Io.ByteSource ρ] (reader : ρ) (n : Nat) :
    List (Event Empty × Option (List UInt8)) :=
  ((Standing.waiting (.fresh (task Callback.idle ())) (World.new reader) :
    Standing (taskDriver (ρ := ρ) (δ := δ)) _).polls n).state.log.filterMap Entry.told

/--
Every frame is reported as it was sent, nothing else is, and when a frame is
finished the source stands behind its last byte.
-/
theorem frames_received {ρ : Type} [Io.ByteSource ρ] {reader : ρ} {frames : List Sending}
    {tail : List UInt8} (hframes : forall f, f ∈ frames -> f.Valid δ)
    (htail : forall b, b ∈ tail -> b ≠ 0x1B)
    (hsource : Io.ByteSource.unread reader = sent δ frames tail)
    (hfuel : (Io.ByteSource.unread reader).length < Machine.fuel) :
    (forall n, toldAfter δ reader n <+: reports δ frames tail) ∧
      exists n, toldAfter δ reader n = reports δ frames tail := by
  have hk : frames.length < Machine.fuel := by
    have hle := length_le_sent (δ := δ) frames tail
    rw [← hsource] at hle
    lia
  rcases task_sent hframes htail hk (t := Stream.new (Io.ByteSource.unread reader)) hsource hfuel
    with ⟨t', hrun, htold⟩
  constructor
  · intro n
    have hlog := World.polls_log (δ := δ) (task Callback.idle ()) reader n
    have hstate := congrArg Outcome.state hrun
    change (Outcome.state ((task Callback.idle ()).run Stream.handler _)) = t' at hstate
    rw [hstate] at hlog
    have hbegins := hlog.filterMap Entry.told
    rw [htold] at hbegins
    exact hbegins
  · rcases (World.patient (ρ := ρ) (δ := δ)).settles
      (x := .waiting (.fresh (task Callback.idle ())) (World.new reader)) trivial with ⟨n, hshows⟩
    change Standing.Shows _ _ ((task Callback.idle ()).run Stream.handler (Stream.new _)) at hshows
    have hblocked : (task Callback.idle ()).run Stream.handler
        (Stream.new (Io.ByteSource.unread reader) : Stream δ Empty) = .blocked t' := hrun
    rw [hblocked] at hshows
    refine ⟨n, ?_⟩
    unfold toldAfter
    cases hpolls : (Standing.waiting (.fresh (task Callback.idle ())) (World.new reader) :
        Standing (taskDriver (ρ := ρ) (δ := δ)) _).polls n with
    | waiting task w =>
        rw [hpolls] at hshows
        injection hshows with hview
        rw [hview] at htold
        exact htold
    | finished a w =>
        rw [hpolls] at hshows
        cases hshows
    | hung w =>
        rw [hpolls] at hshows
        cases hshows

omit [Machine] in
/-- Two frames, of one message and of two, in pieces that do not end where they do. -/
theorem frames_received_two :
    letI := Machine.word32 128 (by decide)
    let message := [0x76, 0x02, 0x01, 0x62, 0x00, 0x62, 0x00, 0x72, 0x01, 0x01, 0x63, 0x47, 0xA7,
      0x00]
    let second := Sending.mk [0x01, 0x1A] [message, message]
    let source := sent Crc [Sending.mk [] [message], second] [0x00]
    exists n, toldAfter Crc (Io.Pieces.mk [source.take 50, [], source.drop 50]) n =
      [(.frameStart, none), (.messageReceived, none),
        (.frameFinished true, some (sent Crc [second] [0x00])), (.frameStart, none),
        (.messageReceived, none), (.messageReceived, none), (.frameFinished true, some [0x00])] := by
  let := Machine.word32 128 (by decide)
  intro message second source
  have hthrough : PassedThrough Crc message [sample 0x76 0 0x47 0xA7] :=
    sample_passedThrough (Tlv.decodeHeader_single (by decide)) (by decide +kernel)
  have hconsumed : Consumed Crc message :=
    Parts.consumed hthrough.chain.1 rfl (hthrough.passed _ List.mem_cons_self) (by decide)
  have hfirst : (Sending.mk [] [message]).Valid Crc := by
    refine ⟨List.forall_mem_nil _, List.cons_ne_nil _ _, ?_⟩
    rw [List.forall_mem_singleton]
    exact hconsumed
  have hsecond : second.Valid Crc := by
    have hjunk : forall b, b ∈ [(0x01 : UInt8), 0x1A] -> b ≠ 0x1B := by
      rw [List.forall_mem_cons, List.forall_mem_singleton]
      decide
    refine ⟨hjunk, List.cons_ne_nil _ _, ?_⟩
    rw [List.forall_mem_cons, List.forall_mem_singleton]
    exact ⟨hconsumed, hconsumed⟩
  have hframes : forall f, f ∈ [Sending.mk [] [message], second] -> f.Valid Crc := by
    rw [List.forall_mem_cons, List.forall_mem_singleton]
    exact ⟨hfirst, hsecond⟩
  have hsource : Io.ByteSource.unread (Io.Pieces.mk [source.take 50, [], source.drop 50]) =
      source := by
    change [source.take 50, [], source.drop 50].flatten = source
    rw [List.flatten_cons, List.flatten_cons, List.flatten_cons, List.flatten_nil,
      List.append_nil, List.nil_append, List.take_append_drop]
  have htail : forall b, b ∈ [(0x00 : UInt8)] -> b ≠ 0x1B := by
    rw [List.forall_mem_singleton]
    decide
  have hfuel : source.length < Machine.fuel := by decide +kernel
  rw [← hsource] at hfuel
  exact (frames_received hframes htail hsource hfuel).2

end Sml
end Smartmeter
