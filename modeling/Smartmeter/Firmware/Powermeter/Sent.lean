import Smartmeter.Firmware.Powermeter.Refinement

/-!
# What the power meter sends

Whatever happens to the sessions of the MQTT thread, an average that is sent is
the average of the last samples that were received, from some sample on, and a
meter reading that is sent is that of the last sample.
-/

namespace Smartmeter
namespace Firmware
namespace Powermeter

open Foundation
open Mqttsndev (Call Client clientSystem sentMessages sentMessages_append_other
  sentMessages_snoc sentMessages_snoc_of_none served)

/-!
## The ledger and the samples
-/

theorem received_cbdata (as : List SplitStep) :
    (Ledger.ofSteps as).received.map Sample.cbdata = as.flatMap samplesOfSplit := by
  induction as using List.reverseRecOn with
  | nil => rfl
  | append_singleton as a ih =>
      rw [Ledger.ofSteps_snoc, List.flatMap_append, List.flatMap_singleton, ← ih]
      generalize Ledger.ofSteps as = l
      cases a with
      | step a =>
          cases a with
          | smlDataCb cbdata => exact List.map_append
          | evtCb | doWork | eventfdRead | eventfdReadFails => exact (List.append_nil _).symm
      | piece p =>
          cases p with
          | publishActivePower ret =>
              change (if ret = 0 then l.publish else l).received.map Sample.cbdata = _
              rw [apply_ite Ledger.received]
              change (if ret = 0 then l.received else l.received).map Sample.cbdata = _
              rw [ite_self]
              exact (List.append_nil _).symm
          | publishActiveEnergy | reset => exact (List.append_nil _).symm

theorem accumulated_suffix (as : List SplitStep) :
    (Ledger.ofSteps as).accumulated <:+ (Ledger.ofSteps as).received := by
  induction as using List.reverseRecOn with
  | nil => exact List.suffix_rfl
  | append_singleton as a ih =>
      rw [Ledger.ofSteps_snoc]
      generalize Ledger.ofSteps as = l at ih
      cases a with
      | step a =>
          cases a with
          | smlDataCb cbdata =>
              rcases ih with ⟨earlier, hearlier⟩
              exists earlier
              change earlier ++ (l.accumulated ++ [_]) = l.received ++ [_]
              rw [← List.append_assoc, hearlier]
          | evtCb | doWork | eventfdRead | eventfdReadFails => exact ih
      | piece p =>
          cases p with
          | publishActivePower ret =>
              unfold Ledger.record
              dsimp only
              split
              · exact ih
              · exact ih
          | publishActiveEnergy => exact ih
          | reset => exact List.nil_suffix

variable {φ : Type} [CFloat φ] [Machine]

def Message.Tells (samples : List CallbackData) : Message φ -> Prop
  | .activePower sum numSamples =>
      exists covered : List Sample, covered.map Sample.cbdata <:+ samples ∧
        (sum, numSamples) = Ledger.average φ covered
  | .activeEnergy energy =>
      exists cbdata, samples.getLast? = some cbdata ∧
        energy = CFloat.ofValue cbdata.activeEnergy

theorem tells_activePower {bs : List SplitStep} {e : Device φ} (run : (splitSystem φ).Run bs e) :
    (Message.activePower e.samples.activePower e.samples.numSamples).Tells
      (bs.flatMap samplesOfSplit) := by
  exists (Ledger.ofSteps bs).accumulated
  constructor
  · rw [← received_cbdata]
    exact (accumulated_suffix bs).map Sample.cbdata
  · exact (Ledger.agrees run).accumulated

/-!
## The meter reading
-/

/-- The reading is that of the last sample, and nothing is published before the first one. -/
structure Device.Current (samples : List CallbackData) (d : Device φ) : Prop where
  energy : forall cbdata, samples.getLast? = some cbdata ->
    d.samples.activeEnergy = CFloat.ofValue cbdata.activeEnergy
  idle : samples = [] ->
    d.eventfdPublish = 0 ∧ (d.phase = .outside ∨ d.phase = .reading)

namespace Device.Current

variable {samples : List CallbackData} {d d' : Device φ}

omit [Machine] in
theorem move (h : d.Current samples) (hsamples : d'.samples = d.samples)
    (hcount : d'.eventfdPublish = d.eventfdPublish)
    (hphase : d'.phase = .outside ∨ d'.phase = .reading) : d'.Current samples := by
  constructor
  · rw [hsamples]
    exact h.energy
  · intro hnil
    rw [hcount]
    exact ⟨(h.idle hnil).1, hphase⟩

omit [Machine] in
theorem received (h : d.Current samples)
    (henergy : d'.samples.activeEnergy = d.samples.activeEnergy) (hne : samples ≠ []) :
    d'.Current samples := by
  constructor
  · rw [henergy]
    exact h.energy
  · intro hnil
    exact absurd hnil hne

omit [Machine] in
theorem ne_nil {phase : Phase} (h : d.Current samples) (hphase : d.phase = phase)
    (hother : phase ≠ .outside ∧ phase ≠ .reading) : samples ≠ [] := by
  intro hnil
  have hidle := (h.idle hnil).2
  rw [hphase] at hidle
  rcases hidle with houtside | hreading
  · exact hother.1 houtside
  · exact hother.2 hreading

omit [Machine] in
theorem append_nil (h : d.Current samples) : d.Current (samples ++ []) := by
  rw [List.append_nil]
  exact h

theorem step {a : Step} (h : d.Current samples) (hstep : d.step a = some d') :
    d'.Current (samples ++ samplesOfSplit (.step a)) := by
  cases Device.steps_of_step hstep with
  | sample cbdata =>
      constructor
      · intro last hlast
        rw [samplesOfSplit, List.getLast?_concat] at hlast
        cases hlast
        rfl
      · intro hnil
        exact absurd hnil (List.append_ne_nil_of_right_ne_nil _ (List.cons_ne_nil _ _))
  | event connected =>
      apply append_nil
      exact ⟨h.energy, h.idle⟩
  | work hphase hconnected =>
      apply append_nil
      exact h.move rfl rfl (.inr rfl)
  | idle hphase hconnected => exact h.append_nil
  | request hphase hcount =>
      apply append_nil
      exact h.received rfl fun hnil => hcount (h.idle hnil).1
  | again hphase hcount =>
      apply append_nil
      exact h.move rfl rfl (.inl rfl)
  | failed hphase =>
      apply append_nil
      exact h.move rfl rfl (.inl rfl)

omit [Machine] in
theorem piece {p : Piece} (h : d.Current samples) (hstep : d.piece p = some d') :
    d'.Current samples := by
  cases Device.pieces_of_piece hstep with
  | power hphase => exact h.received rfl (h.ne_nil hphase ⟨nofun, nofun⟩)
  | powerFailed hphase hret => exact h.received rfl (h.ne_nil hphase ⟨nofun, nofun⟩)
  | energy hphase => exact h.received rfl (h.ne_nil hphase ⟨nofun, nofun⟩)
  | energyFailed hphase hret => exact h.received rfl (h.ne_nil hphase ⟨nofun, nofun⟩)
  | reset hphase => exact h.received rfl (h.ne_nil hphase ⟨nofun, nofun⟩)

end Device.Current

theorem current_of_run {bs : List SplitStep} {e : Device φ} (run : (splitSystem φ).Run bs e) :
    e.Current (bs.flatMap samplesOfSplit) := by
  apply run.invariant (I := fun bs e => e.Current (bs.flatMap samplesOfSplit))
  · constructor
    · intro cbdata hlast
      cases hlast
    · intro _
      exact ⟨rfl, .inl rfl⟩
  · intro bs b e e' _ hcurrent hstep
    rw [List.flatMap_append, List.flatMap_singleton]
    cases b with
    | step a => exact hcurrent.step hstep
    | piece p =>
        apply Device.Current.append_nil
        exact hcurrent.piece hstep

theorem tells_activeEnergy {samples : List CallbackData} {e : Device φ} (h : e.Current samples)
    (hne : samples ≠ []) : (Message.activeEnergy e.samples.activeEnergy).Tells samples := by
  exists samples.getLast hne
  constructor
  · exact List.getLast?_eq_some_getLast hne
  · exact h.energy _ (List.getLast?_eq_some_getLast hne)

/-!
## Messages
-/

theorem tells_message {bs : List SplitStep} {e : Device φ} {d : Client (Samples φ) (Message φ)}
    (run : (splitSystem φ).Run bs e) (h : Mirrors d e) {index : Nat}
    {message : Samples φ -> Message φ} (hlocation : d.location = .publish index)
    (hmessage : (app φ).messages[index]? = some message) :
    bs.flatMap samplesOfSplit ≠ [] ∧ (message d.shared).Tells (bs.flatMap samplesOfSplit) := by
  have hcurrent := current_of_run run
  have hphase := h.phase_eq hlocation
  rw [← h.samples]
  rcases index with _ | _ | index
  · cases hmessage
    constructor
    · exact hcurrent.ne_nil hphase ⟨nofun, nofun⟩
    · exact tells_activePower run
  · cases hmessage
    have hne := hcurrent.ne_nil hphase ⟨nofun, nofun⟩
    constructor
    · exact hne
    · exact tells_activeEnergy hcurrent hne
  · cases hmessage

/--
In every run of the power meter, across lost connections and failed sessions, a
step that sends a message sends the average of the last samples, from some
sample on, or the meter reading of the very last one; and there is one.
-/
theorem sent_tells {as : List (Mqttsndev.Step CallbackData)}
    {d d' : Client (Samples φ) (Message φ)} {a : Mqttsndev.Step CallbackData}
    (run : (clientSystem (app φ)).Run as d) (hstep : (clientSystem (app φ)).next d a = some d') :
    sentMessages d'.trace = sentMessages d.trace ∨
      exists message : Message φ, sentMessages d'.trace = sentMessages d.trace ++ [message] ∧
        as.flatMap samplesOfClient ≠ [] ∧ message.Tells (as.flatMap samplesOfClient) := by
  rcases mirrored_of_run run with ⟨bs, e, hrun, hsamples, hmirrors⟩
  rw [← hsamples]
  have hmoves : Client.Moves (app φ) d d' := Client.moves_of_next hstep
  cases hmoves with
  | @app a s schedules happ =>
      left
      cases schedules with
      | false => rfl
      | true => exact sentMessages_snoc_of_none rfl
  | acts hacts =>
      cases hacts with
      | other calls hcalls hshared hcount htrace hlocation =>
          left
          rw [htrace, sentMessages_append_other hcalls]
      | read hlocation hpos =>
          left
          exact sentMessages_snoc_of_none rfl
      | publishCallback hlocation =>
          left
          exact sentMessages_snoc_of_none rfl
      | @published index message hlocation hmessage =>
          right
          exists message d.shared
          constructor
          · exact sentMessages_snoc d.trace (.publish (message d.shared) 0)
          · exact tells_message hrun hmirrors hlocation hmessage
      | @failed index message ret hlocation hmessage hret =>
          left
          have hnone : Call.sent (.publish (message d.shared) ret) = none := if_neg hret
          rw [sentMessages_returned]
          exact sentMessages_snoc_of_none hnone
      | finished hlocation hnone =>
          left
          exact sentMessages_returned _ _

/-- A sample is received, and the thread is about to publish it. -/
def readingRequested : List (Mqttsndev.Step CallbackData) :=
  .startThread :: .app reading :: List.replicate 11 served

omit [Machine] in
theorem readingRequested_steps :
    letI := Machine.word32 32 (Nat.le_refl 32)
    ((clientSystem (app Rat)).steps (clientSystem (app Rat)).init readingRequested).bind
      (fun d => ((clientSystem (app Rat)).next d served).map
        fun d' => ((sentMessages d.trace).length, (sentMessages d'.trace).length)) =
      some (0, 1) := by
  decide +kernel

omit [Machine] in
theorem sent_tells_reading :
    letI := Machine.word32 32 (Nat.le_refl 32)
    exists (d : Client (Samples Rat) (Message Rat)) (message : Message Rat),
      (clientSystem (app Rat)).Run (readingRequested ++ [served]) d ∧
        sentMessages d.trace = [message] ∧ message.Tells [reading] := by
  let := Machine.word32 32 (Nat.le_refl 32)
  rcases Option.bind_eq_some_iff.mp readingRequested_steps with ⟨d, hsteps, hnext⟩
  rcases Option.map_eq_some_iff.mp hnext with ⟨d', hstep, hlengths⟩
  rcases Prod.mk.inj hlengths with ⟨hbefore, hafter⟩
  have run := System.run_of_steps hsteps
  rcases sent_tells run hstep with hsame | ⟨message, hsent, _, htells⟩
  · rw [hsame, hbefore] at hafter
    cases hafter
  · rw [List.length_eq_zero_iff.mp hbefore] at hsent
    exact ⟨d', message, run.snoc hstep, hsent, htells⟩

end Powermeter
end Firmware
end Smartmeter
