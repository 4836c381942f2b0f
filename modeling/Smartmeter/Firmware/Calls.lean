import Smartmeter.Firmware.Meter

/-!
# The calls of the C function

What the frames that the task reads have to do with the calls of the C function:
there is one call for a frame that is read well and in whose lists both values
are found, and no other call.
-/

namespace Smartmeter
namespace Firmware

open Foundation
open Sml
open Sml.Frame (Sent)

variable {δ : Type} [Machine] [Digest δ]

/-!
## The entries of a frame
-/

/-- The entries of all the value lists of a frame. -/
def EntriesOf (f : Sent δ) (es : List Entry) : Prop :=
  exists (ms : List Parts) (lists : List (List Entry)),
    ms ≠ [] ∧ f.payload = joined ms ∧ Chain 0 ms ∧ verdict δ ms = .ok () ∧
      List.Forall₂ (fun m es => Lists m.body es) ms lists ∧ lists.flatten = es

theorem carries_iff {f : Sent δ} {power energy : Option Value} :
    Carries f power energy <-> exists es, EntriesOf f es ∧ Found obisActivePower es power ∧
      Found obisActiveEnergy es energy := by
  constructor
  · intro h
    rcases h with ⟨ms, lists, hne, hpayload, hchain, hverdict, hlists, hpower, henergy⟩
    exact ⟨_, ⟨ms, lists, hne, hpayload, hchain, hverdict, hlists, rfl⟩, hpower, henergy⟩
  · intro h
    rcases h with ⟨es, ⟨ms, lists, hne, hpayload, hchain, hverdict, hlists, rfl⟩, hpower, henergy⟩
    exact ⟨ms, lists, hne, hpayload, hchain, hverdict, hlists, hpower, henergy⟩

/-- A callback that only collects the entries. -/
def collector : Callback (List Entry) Empty where
  frameStart es := es
  messageReceived es := do
    match ← listEntries.run with
    | .error e => pure (.error e, es)
    | .ok more => pure (.ok (), es ++ more)
  frameFinished _ es := (es, [])

theorem hears_collector {body : List UInt8} {more : List Entry} (h : Lists body more)
    (es : List Entry) : Hears collector body es (es ++ more) := by
  rcases h with ⟨self, pending, hparse, hpending⟩
  refine ⟨self, pending, ?_, hpending⟩
  have hrun : (Tlv.Read.run listEntries.run { reader := Tlv.Reader.new, len := 2 }).parse body =
      some ((.ok more, self), pending) := hparse
  change (Tlv.Read.run (listEntries.run >>= _) _).parse body = _
  rw [Tlv.Read.run_bind, Prog.parse_bind, hrun]
  rfl

theorem leaves_collector {ms : List Parts} {lists : List (List Entry)}
    (h : List.Forall₂ (fun m es => Lists m.body es) ms lists) (es : List Entry) :
    Leaves δ collector es ms (es ++ lists.flatten) := by
  induction h generalizing es with
  | nil => exact (List.append_nil es).symm
  | @cons m more ms lists hm _ ih =>
      refine ⟨es ++ more, (hears_collector hm es).passes, ?_⟩
      rw [List.flatten_cons, ← List.append_assoc]
      exact ih (es ++ more)

theorem run_collector {f : Sent δ} {es : List Entry} (h : EntriesOf f es) {behind : List UInt8}
    {t : Sml.Stream δ Empty} (hunread : t.unread = f.bytes ++ behind)
    (hfuel : t.unread.length < Machine.fuel) :
    exists t', (readFrame collector []).run Stream.handler t = .done (.ok (), es) t' ∧
      t'.unread = behind := by
  rcases h with ⟨ms, lists, hne, hpayload, hchain, hverdict, hlists, rfl⟩
  have hlen := payload_length_le f behind
  rw [← hunread] at hlen
  exact readFrame_leaves hne hpayload hchain (by lia) hverdict (leaves_collector hlists []) hunread

/-- The bytes tell which entries there are. -/
theorem EntriesOf.unique {f f' : Sent δ} {es es' : List Entry} {behind behind' : List UInt8}
    (h : EntriesOf f es) (h' : EntriesOf f' es')
    (hbytes : f.bytes ++ behind = f'.bytes ++ behind')
    (hfuel : (f.bytes ++ behind).length < Machine.fuel) : es = es' := by
  let t : Sml.Stream δ Empty := Stream.new (f.bytes ++ behind)
  rcases run_collector h (t := t) rfl hfuel with ⟨t₁, hrun, _⟩
  rcases run_collector h' (t := t) hbytes hfuel with ⟨t₁', hrun', _⟩
  rw [hrun] at hrun'
  cases hrun'
  rfl

omit [Machine] in
theorem mem_report {power energy : Option Value} {data : CallbackData} :
    data ∈ report power energy <->
      power = some data.activePower ∧ energy = some data.activeEnergy := by
  rcases data with ⟨dataPower, dataEnergy⟩
  cases power with
  | none => simp [report]
  | some power =>
      cases energy with
      | none => simp [report]
      | some energy => simp [report, eq_comm]

omit [Machine] in
theorem length_report (power energy : Option Value) : (report power energy).length ≤ 1 := by
  cases power with
  | none => exact Nat.zero_le 1
  | some power =>
      cases energy with
      | none => exact Nat.zero_le 1
      | some energy => exact Nat.le_refl 1

omit [Machine] in
theorem found_unique {es : List Entry} {power power' energy energy' : Option Value}
    (hpower : Found obisActivePower es power) (henergy : Found obisActiveEnergy es energy)
    (hpower' : Found obisActivePower es power') (henergy' : Found obisActiveEnergy es energy') :
    power = power' ∧ energy = energy' := by
  let found : MessageCallback := { activePower := power, activeEnergy := energy }
  let found' : MessageCallback := { activePower := power', activeEnergy := energy' }
  have hstore : es.foldlM MessageCallback.store MessageCallback.new = .ok found :=
    MessageCallback.foldlM_store.mpr ⟨hpower, henergy⟩
  have hstore' : es.foldlM MessageCallback.store MessageCallback.new = .ok found' :=
    MessageCallback.foldlM_store.mpr ⟨hpower', henergy'⟩
  rw [hstore] at hstore'
  injection hstore' with hfound
  exact ⟨congrArg MessageCallback.activePower hfound,
    congrArg MessageCallback.activeEnergy hfound⟩

namespace FrameRead

/-- The entries of the frame that stands behind the start marker, wherever it was left. -/
def Entries (fr : FrameRead δ) (es : List Entry) : Prop :=
  exists (f : Sent δ) (after : List UInt8), fr.start.unread = f.bytes ++ after ∧ EntriesOf f es

/--
What is told of a frame.  `read` and `valid` say when it is valid: its entries
are there, and each of the two names stands for no value or for one; a second
entry, or one with a value that is no number of 64 bits, makes the frame invalid.
-/
structure Reported (fr : FrameRead δ) : Prop where
  read : fr.res = .ok () -> exists es, fr.Entries es
  valid : forall es, fr.Entries es -> (fr.res = .ok () <->
    (exists power, Found obisActivePower es power) ∧
      exists energy, Found obisActiveEnergy es energy)
  called : forall data, data ∈ fr.calls <-> fr.res = .ok () ∧ exists es, fr.Entries es ∧
    Found obisActivePower es (some data.activePower) ∧
      Found obisActiveEnergy es (some data.activeEnergy)
  once : fr.calls.length ≤ 1

theorem entries_unique {fr : FrameRead δ} (hfuel : fr.start.unread.length < Machine.fuel)
    {es es' : List Entry} (h : fr.Entries es) (h' : fr.Entries es') : es = es' := by
  rcases h with ⟨f, after, hbytes, hentries⟩
  rcases h' with ⟨f', after', hbytes', hentries'⟩
  rw [hbytes] at hfuel
  exact hentries.unique hentries' (hbytes.symm.trans hbytes') hfuel

/-- A frame that is read well leaves the two values of its entries. -/
theorem entries_of_ok {fr : FrameRead δ} (hok : fr.res = .ok ()) : exists es, fr.Entries es ∧
    Found obisActivePower es fr.self.activePower ∧
      Found obisActiveEnergy es fr.self.activeEnergy := by
  have hrun := fr.run
  rw [hok] at hrun
  rcases readFrame_carries hrun with ⟨f, hbytes, hcarries⟩
  rcases carries_iff.mp hcarries with ⟨es, hentries, hfound⟩
  exact ⟨es, ⟨f, _, hbytes, hentries⟩, hfound⟩

theorem calls_of_ok {fr : FrameRead δ} (hok : fr.res = .ok ()) :
    fr.calls = report fr.self.activePower fr.self.activeEnergy := by
  unfold calls
  rw [hok]
  exact frameFinished_report fr.self

theorem calls_of_not_ok {fr : FrameRead δ} (hok : fr.res ≠ .ok ()) : fr.calls = [] := by
  unfold calls
  cases hres : fr.res with
  | ok u => exact absurd hres hok
  | error e => rfl

theorem reported {fr : FrameRead δ} (hfuel : fr.start.unread.length < Machine.fuel) :
    fr.Reported where
  read hok := by
    rcases entries_of_ok hok with ⟨es, hentries, _⟩
    exact ⟨es, hentries⟩
  valid es hentries := by
    constructor
    · intro hok
      rcases entries_of_ok hok with ⟨es', hentries', hpower, henergy⟩
      rw [entries_unique hfuel hentries hentries']
      exact ⟨⟨_, hpower⟩, ⟨_, henergy⟩⟩
    · intro hfound
      rcases hfound with ⟨⟨power, hpower⟩, ⟨energy, henergy⟩⟩
      rcases hentries with ⟨f, after, hbytes, hentries⟩
      have hcarries : Carries f power energy := carries_iff.mpr ⟨es, hentries, hpower, henergy⟩
      rcases readFrame_of_carries hcarries hbytes hfuel with ⟨self', t', hrun⟩
      rw [fr.run] at hrun
      injection hrun with hres
      exact congrArg Prod.fst hres
  called data := by
    by_cases hok : fr.res = .ok ()
    · rcases entries_of_ok hok with ⟨es, hentries, hpower, henergy⟩
      rw [calls_of_ok hok, mem_report]
      constructor
      · intro h
        rw [h.1] at hpower
        rw [h.2] at henergy
        exact ⟨hok, es, hentries, hpower, henergy⟩
      · intro h
        rcases h with ⟨_, es', hentries', hpower', henergy'⟩
        rw [← entries_unique hfuel hentries hentries'] at hpower' henergy'
        exact found_unique hpower henergy hpower' henergy'
    · rw [calls_of_not_ok hok]
      constructor
      · intro h
        cases h
      · intro h
        exact absurd h.1 hok
  once := by
    by_cases hok : fr.res = .ok ()
    · rw [calls_of_ok hok]
      exact length_report _ _
    · rw [calls_of_not_ok hok]
      exact Nat.zero_le 1

end FrameRead

/-!
## The calls of a run
-/

theorem Frames.reported {source : List UInt8} {frames : List (FrameRead δ)}
    (h : Frames δ source frames) (hfuel : source.length < Machine.fuel) :
    forall fr, fr ∈ frames -> fr.Reported := by
  induction h with
  | unfinished _ =>
      intro fr hfr
      cases hfr
  | read hfind _ ih =>
      have hshort := FrameRead.shorter hfind
      rw [List.forall_mem_cons]
      exact ⟨FrameRead.reported (Nat.lt_trans hshort.1 hfuel), ih (Nat.lt_trans hshort.2 hfuel)⟩

namespace Capi

open Io (ByteSource)

/--
However C polls, what it is told are the first events of the frames that the
task reads one after the other, and all of them after some polls: there is one
call for each frame that is read well and holds both values, with these values.
-/
theorem function_called {κ : Type} [ByteSource (Reader κ)] {function : κ}
    (hfuel : (ByteSource.unread (Reader.mk function)).length < Machine.fuel) :
    exists frames : List (FrameRead δ), Frames δ (ByteSource.unread (Reader.mk function)) frames ∧
      (forall fr, fr ∈ frames -> fr.Reported) ∧
        (forall n, toldAfter δ function n <+: frames.flatMap FrameRead.told) ∧
          exists n, toldAfter δ function n = frames.flatMap FrameRead.told := by
  rcases frames_told (δ := δ) hfuel with ⟨frames, hframes, htold⟩
  exact ⟨frames, hframes, hframes.reported hfuel, htold⟩

end Capi

omit [Machine] in
/-- The frame of the sample is read and told, whose bytes come in pieces. -/
theorem function_called_sample :
    letI := Machine.word32 128 (by decide)
    letI source := transmitted [sampleTransmission] [0x00]
    exists frames : List (FrameRead Crc), Frames Crc source frames ∧
      (forall fr, fr ∈ frames -> fr.Reported) ∧
        frames.flatMap FrameRead.told =
          [(.frameFinished true, [0x00]),
            (.function
              { activePower := { scaler := 0, value := 5 }
                activeEnergy := { scaler := 0, value := 7 } }, [0x00])] := by
  let := Machine.word32 128 (by decide)
  let source := transmitted [sampleTransmission] [0x00]
  let function : Io.Pieces := Io.Pieces.mk [source.take 20, [], source.drop 20]
  have hsource : Io.ByteSource.unread (Capi.Reader.mk function) = source := by
    change [source.take 20, [], source.drop 20].flatten = source
    rw [List.flatten_cons, List.flatten_cons, List.flatten_cons, List.flatten_nil,
      List.append_nil, List.nil_append, List.take_append_drop]
  have htail : forall b, b ∈ [(0x00 : UInt8)] -> b ≠ 0x1B := by
    rw [List.forall_mem_singleton]
    decide
  have hlength : (Io.ByteSource.unread (Capi.Reader.mk function)).length < Machine.fuel := by
    rw [hsource]
    decide +kernel
  have hsize : Machine.fuel < Usize.size := by decide
  rcases Capi.function_called (δ := Crc) hlength with ⟨frames, hframes, hreported, hall, m, hm⟩
  rw [hsource] at hframes
  rcases task_transmitted (δ := Crc) htail (k := Machine.fuel) (by decide) MessageCallback.new
    (t := Stream.new (Io.ByteSource.unread (Capi.Reader.mk function))) hsource hlength
    (Nat.lt_trans hlength hsize) with ⟨t, hrun, htold⟩
  have htold' : t.log.filterMap told = calls [sampleTransmission] [0x00] := htold
  rcases Capi.toldAfter_run function (congrArg Outcome.state hrun) with ⟨hcalls, n, hn⟩
  refine ⟨frames, hframes, hreported, ?_⟩
  have hle := hcalls m
  have hge := hall n
  rw [hm] at hle
  rw [hn] at hge
  exact (hle.sublist.antisymm hge.sublist).trans htold'

end Firmware
end Smartmeter
