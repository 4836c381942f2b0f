import Smartmeter.Firmware.Capi
import Smartmeter.Firmware.Lasting
import Smartmeter.Firmware.ValueList
import Smartmeter.Sml.FrameEnd
import Smartmeter.Sml.Leaves

/-!
# What C is told

The bytes that the source sends tell all calls that C and the log of frames see:
behind every start marker that is found there is one call for the frame, as soon
as it is read or cannot be read, and one more with the two values when the frame
is valid and holds both.
-/

namespace Smartmeter
namespace Firmware

open Foundation
open Sml
open Sml.Tlv (Handle)
open Sml.Frame (Sent startMarker)

variable {δ : Type} [Machine] [Digest δ]

/-!
## Messages and frames
-/

def Lists (body : List UInt8) (es : List Entry) : Prop :=
  exists self pending,
    listEntries.act.parse { reader := Tlv.Reader.new, len := 2 } body =
      some ((.ok es, self), pending) ∧ (self.drop .list).Pending pending

/-- The frame is one of messages, in whose lists the two values are found. -/
def Carries (f : Sent δ) (power energy : Option Value) : Prop :=
  exists (ms : List Parts) (lists : List (List Entry)),
    ms ≠ [] ∧ f.payload = joined ms ∧ Chain 0 ms ∧ verdict δ ms = .ok () ∧
      List.Forall₂ (fun m es => Lists m.body es) ms lists ∧
      Found obisActivePower lists.flatten power ∧ Found obisActiveEnergy lists.flatten energy

def report : Option Value -> Option Value -> List CallbackData
  | some power, some energy => [{ activePower := power, activeEnergy := energy }]
  | _, _ => []

omit [Machine] in
theorem frameFinished_report (self : MessageCallback) :
    (MessageCallback.frameFinished true self).2 = report self.activePower self.activeEnergy := by
  rcases self with ⟨power, energy⟩
  cases power with
  | none => rfl
  | some power =>
      cases energy with
      | none => rfl
      | some energy => rfl

theorem heard_lists {self self' : MessageCallback} {ms : List Parts}
    (h : Heard MessageCallback.callback self ms self') :
    exists lists, List.Forall₂ (fun m es => Lists m.body es) ms lists ∧
      lists.flatten.foldlM MessageCallback.store self = .ok self' := by
  induction h with
  | nil s => exact ⟨[], .nil, rfl⟩
  | cons hm _ ih =>
      rcases hm with ⟨item, pending, hparse, hpending⟩
      rcases MessageCallback.messageReceived_listEntries hparse with ⟨es, hstore, hentries⟩
      rcases ih with ⟨lists, hlists, hrest⟩
      exists es :: lists
      constructor
      · exact .cons ⟨item, pending, hentries, hpending⟩ hlists
      · rw [List.flatten_cons, List.foldlM_append, hstore]
        exact hrest

theorem readFrame_carries {self' : MessageCallback} {t t' : Sml.Stream δ CallbackData}
    (h : (readFrame MessageCallback.callback MessageCallback.new).run Stream.handler t =
      .done (.ok (), self') t') :
    exists f : Sent δ, t.unread = f.bytes ++ t'.unread ∧
      Carries f self'.activePower self'.activeEnergy := by
  rcases readFrame_heard h with ⟨f, ms, hbytes, hne, hpayload, hchain, hverdict, hheard⟩
  rcases heard_lists hheard with ⟨lists, hlists, hstore⟩
  rcases MessageCallback.foldlM_store.mp hstore with ⟨hpower, henergy⟩
  exact ⟨f, hbytes, ms, lists, hne, hpayload, hchain, hverdict, hlists, hpower, henergy⟩

theorem leaves_of_lists {ms : List Parts} {lists : List (List Entry)}
    {self self' : MessageCallback} (h : List.Forall₂ (fun m es => Lists m.body es) ms lists)
    (hstore : lists.flatten.foldlM MessageCallback.store self = .ok self') :
    Leaves δ MessageCallback.callback self ms self' := by
  induction h generalizing self with
  | nil =>
      cases hstore
      rfl
  | @cons m es ms lists hm _ ih =>
      rw [List.flatten_cons, List.foldlM_append, MessageCallback.bind_eq_ok] at hstore
      rcases hstore with ⟨self₁, hfirst, hrest⟩
      rcases hm with ⟨item, pending, hparse, hpending⟩
      have hreceived := MessageCallback.listEntries_messageReceived hfirst hparse
      have hhears : Hears MessageCallback.callback m.body self self₁ :=
        ⟨item, pending, hreceived, hpending⟩
      exact ⟨self₁, hhears.passes, ih hrest⟩

theorem readFrame_of_carries {f : Sent δ} {power energy : Option Value}
    (hcarries : Carries f power energy) {t : Sml.Stream δ CallbackData} {behind : List UInt8}
    (hunread : t.unread = f.bytes ++ behind) (hfuel : t.unread.length < Machine.fuel) :
    exists s' t', (readFrame MessageCallback.callback MessageCallback.new).run Stream.handler t =
      .done (.ok (), s') t' := by
  rcases hcarries with ⟨ms, lists, hne, hpayload, hchain, hverdict, hlists, hpower, henergy⟩
  let found : MessageCallback := { activePower := power, activeEnergy := energy }
  have hstore : lists.flatten.foldlM MessageCallback.store MessageCallback.new = .ok found :=
    MessageCallback.foldlM_store.mpr ⟨hpower, henergy⟩
  have hlen := payload_length_le f behind
  rw [← hunread] at hlen
  rcases readFrame_leaves hne hpayload hchain (by lia) hverdict
    (leaves_of_lists hlists hstore) hunread with ⟨t', hrun, _⟩
  exact ⟨_, t', hrun⟩

/-!
## What is told of a frame
-/

abbrev Told : Type := Event CallbackData × List UInt8

def told (e : Sml.Entry CallbackData) : Option Told :=
  match e.mark with
  | .call (.frameFinished valid) => some (.frameFinished valid, e.unread)
  | .call (.function data) => some (.function data, e.unread)
  | _ => none

/-- A frame that was read behind a start marker, well or not. -/
structure FrameRead (δ : Type) [Digest δ] where
  start : Sml.Stream δ CallbackData
  res : Except Error Unit
  self : MessageCallback
  behind : Sml.Stream δ CallbackData
  run : (readFrame MessageCallback.callback MessageCallback.new).run Stream.handler start =
    .done (res, self) behind

namespace FrameRead

/-- The calls of the C function. -/
def calls (fr : FrameRead δ) : List CallbackData :=
  (MessageCallback.frameFinished fr.res.isOk fr.self).2

def told (fr : FrameRead δ) : List Told :=
  (.frameFinished fr.res.isOk, fr.behind.unread) ::
    fr.calls.map fun data => (.function data, fr.behind.unread)

theorem left (fr : FrameRead δ) : fr.behind.unread <:+ fr.start.unread := by
  have hleft := readFrame_unread MessageCallback.callback (x := MessageCallback.new)
    (List.suffix_refl fr.start.unread)
  rw [fr.run] at hleft
  exact hleft

end FrameRead

omit [Machine] in
theorem told_inner {mid : List (Sml.Entry CallbackData)}
    (h : forall e, e ∈ mid -> e.mark.Inner) : mid.filterMap told = [] := by
  rw [List.filterMap_eq_nil_iff]
  intro e he
  have hinner := h e he
  unfold told
  cases hmark : e.mark with
  | call event =>
      rw [hmark] at hinner
      cases hinner
      rfl
  | finalize crc => rfl
  | reset => rfl

omit [Machine] [Digest δ] in
theorem told_tell (data : List CallbackData) (t : Sml.Stream δ CallbackData) :
    (t.tell data).log.filterMap told =
      t.log.filterMap told ++ data.map fun d => (.function d, t.unread) := by
  rw [Stream.tell_log, List.filterMap_append, List.filterMap_map, ← List.filterMap_eq_map]
  rfl

omit [Machine] [Digest δ] in
theorem told_frameFinished (valid : Bool) (t : Sml.Stream δ CallbackData) :
    (t.observe (.call (.frameFinished valid))).log.filterMap told =
      t.log.filterMap told ++ [(.frameFinished valid, t.unread)] :=
  List.filterMap_append

theorem told_readFrame (self : MessageCallback) (t : Sml.Stream δ CallbackData) :
    ((readFrame MessageCallback.callback self).run Stream.handler
      (t.observe (.call .frameStart))).state.log.filterMap told = t.log.filterMap told := by
  rcases Stream.run_extends (readFrame_uses MessageCallback.callback self)
    (t.observe (.call .frameStart)) with ⟨mid, hmid, hinner⟩
  change _ = (t.log ++ [_]) ++ mid at hmid
  rw [hmid, List.filterMap_append, List.filterMap_append, told_inner hinner, List.append_nil]
  exact List.append_nil _

/-!
## One frame after the other
-/

/-- The frames that the task reads from the bytes of a source. -/
inductive Frames (δ : Type) [Digest δ] : List UInt8 -> List (FrameRead δ) -> Prop where
  /-- No start marker is found, or the frame behind it has no end. -/
  | unfinished {source : List UInt8}
      (h : forall bytes, findStart 0 source = some bytes -> Frame.ref δ bytes = .incomplete) :
      Frames δ source []
  | read {source : List UInt8} {fr : FrameRead δ} {frames : List (FrameRead δ)}
      (hfind : findStart 0 source = some fr.start.unread) (h : Frames δ fr.behind.unread frames) :
      Frames δ source (fr :: frames)

theorem FrameRead.shorter {fr : FrameRead δ} {source : List UInt8}
    (hfind : findStart 0 source = some fr.start.unread) :
    fr.start.unread.length < source.length ∧ fr.behind.unread.length < source.length := by
  have hshort : fr.start.unread.length < source.length := by
    rcases findStart_sound hfind with ⟨skipped, hsplit⟩
    rw [hsplit, List.length_append, List.length_append]
    have hmarker : Frame.startMarker.length = 8 := rfl
    lia
  exact ⟨hshort, Nat.lt_of_le_of_lt fr.left.length_le hshort⟩

theorem incomplete_of_blocked {self : MessageCallback} {t t' : Sml.Stream δ CallbackData}
    (hfuel : t.unread.length < Machine.fuel)
    (hrun : (readFrame MessageCallback.callback self).run Stream.handler t = .blocked t') :
    Frame.ref δ t.unread = .incomplete := by
  cases hrest : (Frame.ref δ t.unread).rest with
  | none => exact Frame.Ref.rest_eq_none hrest
  | some rest =>
      rcases readFrame_done MessageCallback.lasting self hfuel hrest with ⟨x, t₁, hdone, _⟩
      rw [hrun] at hdone
      cases hdone

/-- What is told when the task goes round once. -/
inductive Round (δ : Type) [Digest δ] (t : Sml.Stream δ CallbackData) :
    Outcome (Except Error (Unit ⊕ Unit) × MessageCallback) (Sml.Stream δ CallbackData) ->
    Prop where
  | blocked {t' : Sml.Stream δ CallbackData} (hlog : t'.log.filterMap told = t.log.filterMap told)
      (h : Frames δ t.unread []) : Round δ t (.blocked t')
  | read {self' : MessageCallback} {t' : Sml.Stream δ CallbackData} (fr : FrameRead δ)
      (hfind : findStart 0 t.unread = some fr.start.unread)
      (hunread : t'.unread = fr.behind.unread)
      (hlog : t'.log.filterMap told = t.log.filterMap told ++ fr.told) :
      Round δ t (.done (.ok (.inl ()), self') t')

/-- The stream behind a start marker. -/
def started (t : Sml.Stream δ CallbackData) (bytes : List UInt8) : Sml.Stream δ CallbackData :=
  { t with line := .source bytes }.observe (.call .frameStart)

/-- What the task does behind a start marker that it has found. -/
theorem round_started {t : Sml.Stream δ CallbackData} {bytes : List UInt8}
    (hfind : findStart 0 t.unread = some bytes) (hfuel : bytes.length < Machine.fuel) :
    Round δ t (((readFrame MessageCallback.callback MessageCallback.new).run Stream.handler
      (started t bytes)).andThen fun x t' =>
        .done (.ok (.inl ()), (MessageCallback.frameFinished x.1.isOk x.2).1)
          ((t'.observe (.call (.frameFinished x.1.isOk))).tell
            (MessageCallback.frameFinished x.1.isOk x.2).2)) := by
  have htold : ((readFrame MessageCallback.callback MessageCallback.new).run Stream.handler
      (started t bytes)).state.log.filterMap told = t.log.filterMap told :=
    told_readFrame MessageCallback.new _
  have hends := readFrame_ends (δ := δ) MessageCallback.lasting MessageCallback.new
    (started t bytes) hfuel
  cases hread : (readFrame MessageCallback.callback MessageCallback.new).run Stream.handler
      (started t bytes) with
  | stuck t' =>
      rw [hread] at hends
      exact hends.elim
  | blocked t' =>
      rw [hread] at htold
      refine .blocked htold (.unfinished ?_)
      intro bytes' hbytes'
      rw [hfind] at hbytes'
      cases hbytes'
      have hless : (started t bytes).unread.length < Machine.fuel := hfuel
      exact incomplete_of_blocked hless hread
  | done x t' =>
      rcases x with ⟨res, self'⟩
      rw [hread] at htold
      change t'.log.filterMap told = t.log.filterMap told at htold
      let fr : FrameRead δ :=
        { start := started t bytes
          res := res
          self := self'
          behind := t'
          run := hread }
      refine Round.read fr hfind (Stream.tell_unread _ _) ?_
      rw [told_tell, told_frameFinished, htold, List.append_assoc]
      rfl

theorem taskLoop_round (self : MessageCallback) {t : Sml.Stream δ CallbackData}
    (hfuel : t.unread.length < Machine.fuel) :
    Round δ t ((taskLoop MessageCallback.callback () self).run Stream.handler t) := by
  have hwait := run_startSequence self Machine.fuel 0 t hfuel (by decide)
  change (waitForStartSequence self).run Stream.handler t = _ at hwait
  cases hfind : findStart 0 t.unread with
  | none =>
      rw [hfind] at hwait
      unfold taskLoop
      rw [Act.bind_apply, Prog.run_bind, hwait]
      refine .blocked rfl (.unfinished ?_)
      intro bytes hbytes
      rw [hfind] at hbytes
      cases hbytes
  | some bytes =>
      rw [hfind] at hwait
      have hround := run_taskLoop MessageCallback.callback hwait
      rw [hround]
      apply round_started hfind
      rcases findStart_sound hfind with ⟨skipped, hsplit⟩
      rw [hsplit, List.length_append] at hfuel
      exact Nat.lt_of_le_of_lt (Nat.le_add_left _ _) hfuel

theorem task_frames {k : Nat} (self : MessageCallback) {t : Sml.Stream δ CallbackData}
    (hk : t.unread.length < k) (hfuel : t.unread.length < Machine.fuel) :
    exists t' frames, (Act.iterate k (taskLoop MessageCallback.callback) () self).run
        Stream.handler t = .blocked t' ∧ Frames δ t.unread frames ∧
      t'.log.filterMap told = t.log.filterMap told ++ frames.flatMap FrameRead.told := by
  induction k generalizing self t with
  | zero => exact absurd hk (Nat.not_lt_zero _)
  | succ k ih =>
      have hround := taskLoop_round self hfuel
      rw [Act.iterate_succ]
      cases hrun : (taskLoop MessageCallback.callback () self).run Stream.handler t with
      | stuck t' =>
          rw [hrun] at hround
          cases hround
      | blocked t' =>
          rw [hrun] at hround
          cases hround with
          | blocked hlog h =>
              refine ⟨t', [], ?_, h, ?_⟩
              · rw [Act.bind_apply, Prog.run_bind, hrun]
                rfl
              · rw [hlog]
                exact (List.append_nil _).symm
      | done x t' =>
          rw [hrun] at hround
          cases hround with
          | @read self' _ fr hfind hunread hlog =>
              rw [Act.run_bind_of_ok hrun]
              have hshort := (FrameRead.shorter hfind).2
              rw [← hunread] at hshort
              rcases ih self' (t := t') (by lia) (by lia) with
                ⟨t₁, frames, hblocked, hframes, hlog'⟩
              rw [hunread] at hframes
              refine ⟨t₁, fr :: frames, hblocked, .read hfind hframes, ?_⟩
              rw [hlog', hlog, List.append_assoc]
              rfl

/-!
## Histories
-/

/--
The bytes behind a start marker are not those of a frame that carries values, and
what is left behind the rejected frame begins no later than behind its end.
-/
structure Rejects (δ : Type) [Digest δ] (bytes behind : List UInt8) : Prop where
  left : behind <:+ bytes
  rest : forall rest, (Frame.ref δ bytes).rest = some rest -> rest <:+ behind
  not_carries : forall (f : Sent δ) (after : List UInt8) (power energy : Option Value),
    bytes = f.bytes ++ after -> ¬ Carries f power energy

/-- The calls that the bytes of a source lead to, each with what is left of the bytes then. -/
inductive History (δ : Type) [Digest δ] : List UInt8 -> List Told -> Prop where
  /-- No start marker is found, or the frame behind it has no end. -/
  | unfinished {source : List UInt8}
      (h : forall bytes, findStart 0 source = some bytes -> Frame.ref δ bytes = .incomplete) :
      History δ source []
  | rejected {source bytes behind : List UInt8} {events : List Told}
      (hfind : findStart 0 source = some bytes) (hrejects : Rejects δ bytes behind)
      (h : History δ behind events) :
      History δ source ((.frameFinished false, behind) :: events)
  | accepted {source behind : List UInt8} {events : List Told} {f : Sent δ}
      {power energy : Option Value} (hfind : findStart 0 source = some (f.bytes ++ behind))
      (hcarries : Carries f power energy) (h : History δ behind events) :
      History δ source ((.frameFinished true, behind) ::
        (report power energy).map (fun data => (.function data, behind)) ++ events)

theorem readFrame_rejects {t t' : Sml.Stream δ CallbackData} {e : Error}
    {self' : MessageCallback} (hfuel : t.unread.length < Machine.fuel)
    (hrun : (readFrame MessageCallback.callback MessageCallback.new).run Stream.handler t =
      .done (.error e, self') t') : Rejects δ t.unread t'.unread where
  left := by
    have hleft := readFrame_unread MessageCallback.callback (x := MessageCallback.new)
      (List.suffix_refl t.unread)
    rw [hrun] at hleft
    exact hleft
  rest := by
    intro rest hrest
    rcases readFrame_done MessageCallback.lasting MessageCallback.new hfuel hrest with
      ⟨x, t₁, hdone, hahead⟩
    rw [hrun] at hdone
    cases hdone
    exact hahead
  not_carries := by
    intro f after power energy hbytes hcarries
    rcases readFrame_of_carries hcarries hbytes hfuel with ⟨self₁, t₁, hok⟩
    rw [hrun] at hok
    cases hok

/-- The frames that are read, told one after the other, are a history of the bytes. -/
theorem Frames.history {source : List UInt8} {frames : List (FrameRead δ)}
    (h : Frames δ source frames) (hfuel : source.length < Machine.fuel) :
    History δ source (frames.flatMap FrameRead.told) := by
  induction h with
  | unfinished h => exact .unfinished h
  | @read source fr frames hfind _ ih =>
      have hshort := FrameRead.shorter hfind
      have hhistory := ih (Nat.lt_trans hshort.2 hfuel)
      rcases fr with ⟨start, res, self, behind, hrun⟩
      cases res with
      | ok _ =>
          rcases readFrame_carries hrun with ⟨f, hbytes, hcarries⟩
          change findStart 0 source = some start.unread at hfind
          rw [hbytes] at hfind
          have haccepted := History.accepted hfind hcarries hhistory
          rw [← frameFinished_report] at haccepted
          exact haccepted
      | error e =>
          exact .rejected hfind (readFrame_rejects (Nat.lt_trans hshort.1 hfuel) hrun) hhistory

/-!
## However C polls
-/

namespace Capi

open Io (ByteSource)

section

variable {κ : Type} [ByteSource (Reader κ)]

theorem smlPolls_state (n : Nat) (context : Context δ κ) :
    (smlPolls n context).state = (context.polls n).state := by
  induction n generalizing context with
  | zero => rfl
  | succ n ih =>
      change (smlPolls n (smlPoll context).2).state = (context.poll.polls n).state
      cases context with
      | waiting t w => rw [smlPoll_waiting, ih]
      | finished res w =>
          change (smlPolls n (.hung w)).state = ((Standing.finished res w).polls n).state
          rw [smlPolls_hung, Standing.polls_finished]
          rfl
      | hung w =>
          change (smlPolls n (.hung w)).state = ((Standing.hung w).polls n).state
          rw [smlPolls_hung, Standing.polls_hung]

def toldAfter (δ : Type) [Digest δ] (function : κ) (n : Nat) : List Told :=
  (smlPolls n (smlInit function : Context δ κ)).state.log.filterMap told

theorem toldAfter_run (function : κ) {t : Sml.Stream δ CallbackData}
    (hrun : ((task MessageCallback.callback MessageCallback.new).run Stream.handler
      (Stream.new (ByteSource.unread (Reader.mk function)) : Sml.Stream δ CallbackData)).state = t) :
    (forall n, toldAfter δ function n <+: t.log.filterMap told) ∧
      exists n, toldAfter δ function n = t.log.filterMap told := by
  let context : Context δ κ := smlInit function
  constructor
  · intro n
    have hlog := World.polls_log (δ := δ) (task MessageCallback.callback MessageCallback.new)
      (Reader.mk function) n
    rw [hrun] at hlog
    unfold toldAfter
    rw [smlPolls_state]
    exact hlog.filterMap told
  · rcases (World.patient (ρ := Reader κ) (δ := δ)).settles (x := context) trivial with
      ⟨n, hshows⟩
    have hview := (Standing.Shows.state_eq hshows).trans hrun
    exists n
    unfold toldAfter
    rw [smlPolls_state]
    exact congrArg (fun t : Sml.Stream δ CallbackData => t.log.filterMap told) hview

theorem frames_told {function : κ}
    (hfuel : (ByteSource.unread (Reader.mk function)).length < Machine.fuel) :
    exists frames : List (FrameRead δ), Frames δ (ByteSource.unread (Reader.mk function)) frames ∧
      (forall n, toldAfter δ function n <+: frames.flatMap FrameRead.told) ∧
        exists n, toldAfter δ function n = frames.flatMap FrameRead.told := by
  rcases task_frames (δ := δ) MessageCallback.new
    (t := Stream.new (ByteSource.unread (Reader.mk function))) hfuel hfuel with
    ⟨t, frames, hrun, hframes, htold⟩
  have htold' : t.log.filterMap told = frames.flatMap FrameRead.told := htold
  exists frames
  rw [← htold']
  exact ⟨hframes, toldAfter_run function (congrArg Outcome.state hrun)⟩

/--
Whatever bytes C supplies and however often it polls, what it is told are the
first calls of one history of these bytes, and after some number of polls all
of them.
-/
theorem told_history {function : κ}
    (hfuel : (ByteSource.unread (Reader.mk function)).length < Machine.fuel) :
    exists events, History δ (ByteSource.unread (Reader.mk function)) events ∧
      (forall n, toldAfter δ function n <+: events) ∧
        exists n, toldAfter δ function n = events := by
  rcases frames_told (δ := δ) hfuel with ⟨frames, hframes, htold⟩
  exact ⟨_, hframes.history hfuel, htold⟩

end

end Capi

/-!
## A frame that cannot be read
-/

def unknownEscape : List UInt8 := [0x1B, 0x1B, 0x1B, 0x1B, 0x02, 0x00, 0x00, 0x00]

theorem history_unknownEscape {events : List Told}
    (h : History Crc (Frame.startMarker ++ unknownEscape) events) :
    exists behind, events = [(.frameFinished false, behind)] := by
  have hstart := findStart_startMarker unknownEscape
  cases h with
  | unfinished hnone =>
      have href : Frame.ref Crc unknownEscape = .failure [] [] := by decide
      have hincomplete := hnone _ hstart
      rw [href] at hincomplete
      cases hincomplete
  | @rejected _ bytes behind events hfind hrejects h =>
      rw [hstart] at hfind
      cases hfind
      have hnone : findStart 0 behind = none := by
        cases hcase : findStart 0 behind with
        | none => rfl
        | some rest =>
            rcases findStart_sound hcase with ⟨skipped, hsplit⟩
            have hmarker : Frame.startMarker <:+: behind := ⟨skipped, rest, hsplit.symm⟩
            have habsent : ¬ Frame.startMarker <:+: unknownEscape := by decide
            exact absurd (hmarker.trans hrejects.left.isInfix) habsent
      cases h with
      | unfinished _ => exact ⟨behind, rfl⟩
      | rejected hfind _ _ =>
          rw [hnone] at hfind
          cases hfind
      | accepted hfind _ _ =>
          rw [hnone] at hfind
          cases hfind
  | @accepted _ behind events f power energy hfind _ _ =>
      rw [hstart] at hfind
      injection hfind with hbytes
      have hending := (frameFeed_sent f behind).2
      rw [← hbytes] at hending
      cases hending

omit [Machine] in
/-- The frame with an unknown escape sequence is told to be invalid, and nothing else. -/
theorem told_history_unknownEscape :
    letI := Machine.word32 32 (by decide)
    exists behind n, Capi.toldAfter Crc
      (Io.Pieces.mk [Frame.startMarker, [], unknownEscape]) n =
        [(.frameFinished false, behind)] := by
  let := Machine.word32 32 (by decide)
  have hsource : Io.ByteSource.unread (Capi.Reader.mk
      (Io.Pieces.mk [Frame.startMarker, [], unknownEscape])) =
        Frame.startMarker ++ unknownEscape := rfl
  have hfuel : (Io.ByteSource.unread (Capi.Reader.mk
      (Io.Pieces.mk [Frame.startMarker, [], unknownEscape]))).length < Machine.fuel := by
    rw [hsource]
    decide
  rcases Capi.told_history (δ := Crc) hfuel with ⟨events, hhistory, _, n, hn⟩
  rw [hsource] at hhistory
  rcases history_unknownEscape hhistory with ⟨behind, hevents⟩
  exists behind, n
  rw [hn, hevents]

end Firmware
end Smartmeter
