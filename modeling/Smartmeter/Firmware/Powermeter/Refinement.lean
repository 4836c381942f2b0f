import Smartmeter.Firmware.Mqttsndev.Latest
import Smartmeter.Firmware.Powermeter.Ledger

/-!
# The power meter in the MQTT thread

The publish callback of the power meter runs in the MQTT thread with all its
sessions, polls and errors.  What it does to the samples and to the requests
and what it publishes is what the two threads do that only take turns between the pieces of the
callback.
-/

namespace Smartmeter
namespace Firmware
namespace Powermeter

open Foundation
open Mqttsndev (App Call Client Location clientSystem sentMessages sentMessages_append_other
  sentMessages_snoc sentMessages_snoc_of_none served)

variable (φ : Type) [CFloat φ] [Machine]

def app : App (Samples φ) CallbackData (Message φ) where
  init := Samples.empty
  next s cbdata := some (s.smlDataCb cbdata, true)
  messages :=
    [fun s => .activePower s.activePower s.numSamples, fun s => .activeEnergy s.activeEnergy]
  finish := Samples.reset

variable {φ}

/-!
## What is mirrored
-/

/-- What the rest of `do_work` does is of no account between two callbacks. -/
def phaseOf : Location -> Phase
  | .publishCallback | .publish 0 => .requested
  | .publish 1 => .powerPublished
  | .publish _ => .energyPublished
  | _ => .outside

omit [Machine] in
theorem phaseOf_outside {l : Location} (h : ¬ l.InCallback) : phaseOf l = .outside := by
  cases l with
  | publishCallback | publish => exact absurd trivial h
  | _ => rfl

/-- What the two threads have in common with the whole MQTT thread. -/
structure Mirrors (d : Client (Samples φ) (Message φ)) (e : Device φ) : Prop where
  samples : e.samples = d.shared
  count : e.eventfdPublish = d.eventfdPublish
  sent : e.sent = sentMessages d.trace
  phase : e.phase = phaseOf d.location

omit [CFloat φ] [Machine] in
theorem Mirrors.phase_eq {d : Client (Samples φ) (Message φ)} {e : Device φ} {l : Location}
    (h : Mirrors d e) (hlocation : d.location = l) : e.phase = phaseOf l := by
  rw [h.phase, hlocation]

def samplesOfClient : Mqttsndev.Step CallbackData -> List CallbackData
  | .app cbdata => [cbdata]
  | _ => []

def samplesOfSplit : SplitStep -> List CallbackData
  | .step (.smlDataCb cbdata) => [cbdata]
  | _ => []

/-!
## Steps
-/

theorem steps_piece {e : Device φ} {p : Piece} {e' : Device φ} (h : e.piece p = some e') :
    (splitSystem φ).steps e [.piece p] = some e' := by
  rw [System.steps_singleton]
  exact h

theorem steps_read {e : Device φ} (hphase : e.phase = .outside) (hcount : e.eventfdPublish ≠ 0) :
    exists connected, (splitSystem φ).steps e
        [.step (.evtCb true), .step .doWork, .step .eventfdRead] =
      some { e with
        mqttSnConnected := connected
        phase := .requested
        eventfdPublish := 0 } := by
  exists true
  simp [System.steps, splitSystem, Device.step, hphase, hcount]

def publishPiece (index : Nat) (ret : Int) : Piece :=
  match index with
  | 0 => .publishActivePower ret
  | _ => .publishActiveEnergy ret

theorem piece_published {d : Client (Samples φ) (Message φ)} {e : Device φ} (h : Mirrors d e)
    {index : Nat} {message : Samples φ -> Message φ} (hlocation : d.location = .publish index)
    (hmessage : (app φ).messages[index]? = some message) :
    e.piece (publishPiece index 0) = some { e with
      phase := phaseOf (.publish (index + 1))
      sent := e.sent ++ [message d.shared] } := by
  have hphase := h.phase_eq hlocation
  rw [← h.samples]
  rcases index with _ | _ | index
  · cases hmessage
    exact if_pos hphase
  · cases hmessage
    exact if_pos hphase
  · cases hmessage

theorem piece_failed {d : Client (Samples φ) (Message φ)} {e : Device φ} (h : Mirrors d e)
    {index : Nat} {message : Samples φ -> Message φ} {ret : Int}
    (hlocation : d.location = .publish index)
    (hmessage : (app φ).messages[index]? = some message) (hret : ret ≠ 0) :
    e.piece (publishPiece index ret) = some (e.returned ret) := by
  have hphase := h.phase_eq hlocation
  rcases index with _ | _ | index
  · cases hmessage
    exact (if_pos hphase).trans (congrArg some (if_pos hret))
  · cases hmessage
    exact (if_pos hphase).trans (congrArg some (if_pos hret))
  · cases hmessage

theorem piece_finished {d : Client (Samples φ) (Message φ)} {e : Device φ} (h : Mirrors d e)
    {index : Nat} (hlocation : d.location = .publish index)
    (hnone : (app φ).messages[index]? = none) :
    e.piece .reset = some (Device.returned 0 { e with samples := e.samples.reset }) := by
  have hphase := h.phase_eq hlocation
  rcases index with _ | _ | index
  · cases hnone
  · cases hnone
  · exact if_pos hphase

omit [CFloat φ] [Machine] in
theorem sentMessages_returned (d : Client (Samples φ) (Message φ)) (ret : Int) :
    sentMessages (d.returned ret).trace = sentMessages d.trace := by
  exact sentMessages_snoc_of_none rfl

omit [CFloat φ] [Machine] in
theorem phaseOf_returned (d : Client (Samples φ) (Message φ)) (ret : Int) :
    phaseOf (d.returned ret).location = .outside := by
  unfold Client.returned Client.goto
  dsimp only
  split <;> rfl

theorem mirrors_acts {d d' : Client (Samples φ) (Message φ)} {e : Device φ} (h : Mirrors d e)
    (hacts : Client.Acts (app φ) d d') :
    exists bs e', (splitSystem φ).steps e bs = some e' ∧ bs.flatMap samplesOfSplit = [] ∧
      Mirrors d' e' := by
  cases hacts with
  | other calls hcalls hshared hcount htrace hlocation =>
      exists [], e
      constructor
      · rfl
      · constructor
        · rfl
        · constructor
          · rw [hshared]
            exact h.samples
          · rw [hcount]
            exact h.count
          · rw [htrace, sentMessages_append_other hcalls]
            exact h.sent
          · rw [h.phase]
            rcases hlocation with hsame | ⟨hbefore, hafter⟩
            · rw [hsame]
            · rw [phaseOf_outside hbefore, phaseOf_outside hafter]
  | read hlocation hpos =>
      have hphase := h.phase_eq hlocation
      have hcount : e.eventfdPublish ≠ 0 := by
        rw [h.count]
        exact Nat.ne_of_gt hpos
      rcases steps_read hphase hcount with ⟨connected, hsteps⟩
      refine ⟨_, _, hsteps, rfl, ?_⟩
      constructor
      · exact h.samples
      · rfl
      · exact h.sent.trans (sentMessages_snoc_of_none rfl).symm
      · rfl
  | publishCallback hlocation =>
      exists [], e
      constructor
      · rfl
      · constructor
        · rfl
        · constructor
          · exact h.samples
          · exact h.count
          · exact h.sent.trans (sentMessages_snoc_of_none rfl).symm
          · rw [h.phase, hlocation]
            rfl
  | @published index message hlocation hmessage =>
      have hpiece := piece_published h hlocation hmessage
      refine ⟨_, _, steps_piece hpiece, rfl, ?_⟩
      constructor
      · exact h.samples
      · exact h.count
      · have hsent := sentMessages_snoc d.trace (.publish (message d.shared) 0)
        rw [← h.sent] at hsent
        exact hsent.symm
      · rfl
  | @failed index message ret hlocation hmessage hret =>
      have hpiece := piece_failed h hlocation hmessage hret
      refine ⟨_, _, steps_piece hpiece, rfl, ?_⟩
      constructor
      · exact h.samples
      · exact h.count
      · rw [sentMessages_returned]
        have hnone : Call.sent (.publish (message d.shared) ret) = none := if_neg hret
        exact h.sent.trans (sentMessages_snoc_of_none hnone).symm
      · rw [phaseOf_returned]
        rfl
  | finished hlocation hnone =>
      have hpiece := piece_finished h hlocation hnone
      refine ⟨_, _, steps_piece hpiece, rfl, ?_⟩
      constructor
      · exact congrArg Samples.reset h.samples
      · exact h.count
      · rw [sentMessages_returned]
        exact h.sent
      · rw [phaseOf_returned]
        rfl

theorem mirrors_app {d : Client (Samples φ) (Message φ)} {e : Device φ} (h : Mirrors d e)
    (cbdata : CallbackData) :
    exists e', (splitSystem φ).steps e [.step (.smlDataCb cbdata)] = some e' ∧
      Mirrors (d.appStep (d.shared.smlDataCb cbdata) true) e' := by
  exists { e with
    samples := e.samples.smlDataCb cbdata
    eventfdPublish := eventfdWrite e.eventfdPublish 1 }
  constructor
  · exact System.steps_singleton e _
  · constructor
    · rw [h.samples]
      rfl
    · rw [h.count]
      rfl
    · exact h.sent.trans (sentMessages_snoc_of_none rfl).symm
    · exact h.phase

/-!
## Runs
-/

theorem mirrored_of_run {as : List (Mqttsndev.Step CallbackData)}
    {d : Client (Samples φ) (Message φ)} (run : (clientSystem (app φ)).Run as d) :
    exists bs e, (splitSystem φ).Run bs e ∧
      bs.flatMap samplesOfSplit = as.flatMap samplesOfClient ∧ Mirrors d e := by
  apply System.Run.simulate samplesOfClient samplesOfSplit _ _ run
  · exact ⟨rfl, rfl, rfl, rfl⟩
  · intro d d' a e hmirrors hnext
    have hclient : d.next (app φ) a = some d' := hnext
    cases a with
    | app cbdata =>
        rcases mirrors_app hmirrors cbdata with ⟨e', hsteps, hmirrors'⟩
        cases hclient
        exact ⟨_, e', hsteps, rfl, hmirrors'⟩
    | startThread | evtCb | thread =>
        apply mirrors_acts hmirrors
        apply Client.acts_of_next hclient
        intro cbdata heq
        cases heq

/--
Every run of the whole MQTT thread, with its sessions, polls and errors, is a
run of the two threads with the same samples: the variables, the requests and
the messages that are sent are the same.
-/
theorem client_refines_device {as : List (Mqttsndev.Step CallbackData)}
    {d : Client (Samples φ) (Message φ)} (run : (clientSystem (app φ)).Run as d) :
    exists bs e, (splitSystem φ).Run bs e ∧
      bs.flatMap samplesOfSplit = as.flatMap samplesOfClient ∧ e.samples = d.shared ∧
      e.eventfdPublish = d.eventfdPublish ∧ e.sent = sentMessages d.trace := by
  rcases mirrored_of_run run with ⟨bs, e, hrun, hsamples, hmirrors⟩
  exact ⟨bs, e, hrun, hsamples, hmirrors.samples, hmirrors.count, hmirrors.sent⟩

def readingPublished : List (Mqttsndev.Step CallbackData) :=
  .startThread :: .app reading :: List.replicate 14 served

omit [Machine] in
theorem readingPublished_steps :
    letI := Machine.word32 32 (Nat.le_refl 32)
    ((clientSystem (app Rat)).steps (clientSystem (app Rat)).init readingPublished).map
      (fun d => (sentMessages d.trace).length) = some 2 := by
  decide +kernel

omit [Machine] in
theorem client_refines_device_reading :
    letI := Machine.word32 32 (Nat.le_refl 32)
    exists bs e, (splitSystem Rat).Run bs e ∧ bs.flatMap samplesOfSplit = [reading] ∧
      e.sent.length = 2 := by
  let := Machine.word32 32 (Nat.le_refl 32)
  rcases Option.map_eq_some_iff.mp readingPublished_steps with ⟨d, hsteps, hlength⟩
  rcases client_refines_device (System.run_of_steps hsteps) with ⟨bs, e, hrun, hsamples, _, _, hsent⟩
  exists bs, e
  constructor
  · exact hrun
  · constructor
    · exact hsamples
    · rw [hsent]
      exact hlength

end Powermeter
end Firmware
end Smartmeter
