import Smartmeter.Firmware.MessageCallback
import Smartmeter.Foundation.System

/-!
# Publishing the averages

The work queue adds every sample to a sum and asks for a publication.  The MQTT
thread reads the request, publishes the average and the meter reading, and
starts a new sum.  The two threads share their variables without a lock.
-/

namespace Smartmeter
namespace Firmware
namespace Powermeter

open Foundation

/-!
## The samples
-/

class CFloat (φ : Type) where
  zero : φ
  add : φ -> φ -> φ
  ofValue : Value -> φ

/-- Exact arithmetic; it is that of `float` as long as nothing is rounded. -/
instance : CFloat Rat where
  zero := 0
  add a b := a + b
  ofValue v := v.value * (10 : Rat) ^ v.scaler

/-- The static variables `active_energy`, `active_power` and `num_samples`. -/
structure Samples (φ : Type) where
  activeEnergy : φ
  activePower : φ
  numSamples : Nat
deriving DecidableEq, Repr

def reading : CallbackData :=
  { activePower := { scaler := 0, value := 420 }
    activeEnergy := { scaler := 2, value := 123456 } }

/-- What is published; an average is the quotient of a sum and a number of samples. -/
inductive Message (φ : Type) where
  | activePower (sum : φ) (numSamples : Nat)
  | activeEnergy (energy : φ)
deriving DecidableEq, Repr

namespace Samples

variable {φ : Type} [CFloat φ]

def empty : Samples φ :=
  { activeEnergy := CFloat.zero, activePower := CFloat.zero, numSamples := 0 }

def reset (s : Samples φ) : Samples φ :=
  { s with activePower := CFloat.zero, numSamples := 0 }

def smlDataCb [Machine] (s : Samples φ) (cbdata : CallbackData) : Samples φ :=
  { activePower := CFloat.add s.activePower (CFloat.ofValue cbdata.activePower)
    numSamples := Usize.wrappingAdd s.numSamples 1
    activeEnergy := CFloat.ofValue cbdata.activeEnergy }

/--
`app_publish_callback`, given the results of its two publications: its
result, the messages that were sent, and the samples that are left.
-/
def appPublishCallback (s : Samples φ) (retPower retEnergy : Int) :
    Int × List (Message φ) × Samples φ :=
  let power := Message.activePower s.activePower s.numSamples
  let energy := Message.activeEnergy s.activeEnergy
  if retPower ≠ 0 then (retPower, [], s)
  else if retEnergy ≠ 0 then (retEnergy, [power], s)
  else (0, [power, energy], s.reset)

theorem appPublishCallback_powerFailed (s : Samples φ) {retPower : Int} (retEnergy : Int)
    (hpower : retPower ≠ 0) :
    s.appPublishCallback retPower retEnergy = (retPower, [], s) :=
  if_pos hpower

theorem appPublishCallback_energyFailed (s : Samples φ) {retPower retEnergy : Int}
    (hpower : retPower = 0) (henergy : retEnergy ≠ 0) :
    s.appPublishCallback retPower retEnergy =
      (retEnergy, [.activePower s.activePower s.numSamples], s) :=
  (if_neg (not_not_intro hpower)).trans (if_pos henergy)

theorem appPublishCallback_finished (s : Samples φ) {retPower retEnergy : Int}
    (hpower : retPower = 0) (henergy : retEnergy = 0) :
    s.appPublishCallback retPower retEnergy =
      (0, [.activePower s.activePower s.numSamples, .activeEnergy s.activeEnergy], s.reset) :=
  (if_neg (not_not_intro hpower)).trans (if_neg (not_not_intro henergy))

end Samples

/-!
## The two threads
-/

def eventfdWrite (count value : Nat) : Nat :=
  if count + value < 2 ^ 64 - 1 then count + value else count

inductive Phase where
  | outside
  | reading
  | requested
  | powerPublished
  | energyPublished
deriving DecidableEq, Repr

/-- The variables of the two threads, and the messages that were sent. -/
structure Device (φ : Type) where
  samples : Samples φ
  eventfdPublish : Nat
  mqttSnConnected : Bool
  phase : Phase
  sent : List (Message φ)
deriving DecidableEq, Repr

inductive Step where
  /-- A sample arrives; this is the only step of the work queue. -/
  | smlDataCb (cbdata : CallbackData)
  | evtCb (connected : Bool)
  | doWork
  | eventfdRead
  | eventfdReadFails
deriving DecidableEq, Repr

inductive Piece where
  | publishActivePower (ret : Int)
  | publishActiveEnergy (ret : Int)
  | reset
deriving DecidableEq, Repr

namespace Device

variable {φ : Type} [CFloat φ]

def start : Device φ where
  samples := Samples.empty
  eventfdPublish := 0
  mqttSnConnected := false
  phase := .outside
  sent := []

/-- How `do_work` goes on when the callback returns; an error ends the connection. -/
def returned (ret : Int) (d : Device φ) : Device φ :=
  { d with
    phase := .outside
    mqttSnConnected := if ret < 0 then false else d.mqttSnConnected }

def step [Machine] (d : Device φ) : Step -> Option (Device φ)
  | .smlDataCb cbdata =>
      some { d with
        samples := d.samples.smlDataCb cbdata
        eventfdPublish := eventfdWrite d.eventfdPublish 1 }
  | .evtCb connected => some { d with mqttSnConnected := connected }
  | .doWork =>
      if d.phase = .outside then
        some (if d.mqttSnConnected then { d with phase := .reading } else d)
      else none
  | .eventfdRead =>
      if d.phase = .reading then
        some (if d.eventfdPublish = 0 then { d with phase := .outside }
          else { d with phase := .requested, eventfdPublish := 0 })
      else none
  | .eventfdReadFails =>
      if d.phase = .reading then
        some { d with phase := .outside, mqttSnConnected := false }
      else none

def callback (d : Device φ) (retPower retEnergy : Int) : Option (Device φ) :=
  if d.phase = .requested then
    let (ret, messages, samples) := d.samples.appPublishCallback retPower retEnergy
    some (returned ret { d with samples := samples, sent := d.sent ++ messages })
  else none

def piece (d : Device φ) : Piece -> Option (Device φ)
  | .publishActivePower ret =>
      if d.phase = .requested then
        let message := Message.activePower d.samples.activePower d.samples.numSamples
        some (if ret ≠ 0 then returned ret d
          else { d with phase := .powerPublished, sent := d.sent ++ [message] })
      else none
  | .publishActiveEnergy ret =>
      if d.phase = .powerPublished then
        let message := Message.activeEnergy d.samples.activeEnergy
        some (if ret ≠ 0 then returned ret d
          else { d with phase := .energyPublished, sent := d.sent ++ [message] })
      else none
  | .reset =>
      if d.phase = .energyPublished then
        some (returned 0 { d with samples := d.samples.reset })
      else none

end Device

/-!
## What a step does
-/

namespace Device

variable {φ : Type} [CFloat φ]

/-- The steps outside of `app_publish_callback`, case by case. -/
inductive Steps [Machine] (d : Device φ) : Step -> Device φ -> Prop where
  | sample (cbdata : CallbackData) :
      Steps d (.smlDataCb cbdata) { d with
        samples := d.samples.smlDataCb cbdata
        eventfdPublish := eventfdWrite d.eventfdPublish 1 }
  | event (connected : Bool) :
      Steps d (.evtCb connected) { d with mqttSnConnected := connected }
  | work (hphase : d.phase = .outside) (connected : d.mqttSnConnected = true) :
      Steps d .doWork { d with phase := .reading }
  | idle (hphase : d.phase = .outside) (connected : d.mqttSnConnected = false) :
      Steps d .doWork d
  | request (hphase : d.phase = .reading) (hcount : d.eventfdPublish ≠ 0) :
      Steps d .eventfdRead { d with phase := .requested, eventfdPublish := 0 }
  | again (hphase : d.phase = .reading) (hcount : d.eventfdPublish = 0) :
      Steps d .eventfdRead { d with phase := .outside }
  | failed (hphase : d.phase = .reading) :
      Steps d .eventfdReadFails { d with phase := .outside, mqttSnConnected := false }

theorem steps_of_step [Machine] {d d' : Device φ} {a : Step} (h : d.step a = some d') :
    d.Steps a d' := by
  cases a with
  | smlDataCb cbdata =>
      injection h with h
      subst h
      exact .sample cbdata
  | evtCb connected =>
      injection h with h
      subst h
      exact .event connected
  | doWork =>
      rcases Option.ite_none_right_eq_some.mp h with ⟨hphase, h⟩
      injection h with h
      subst h
      by_cases hconnected : d.mqttSnConnected = true
      · rw [if_pos hconnected]
        exact .work hphase hconnected
      · rw [if_neg hconnected]
        exact .idle hphase (Bool.eq_false_of_not_eq_true hconnected)
  | eventfdRead =>
      rcases Option.ite_none_right_eq_some.mp h with ⟨hphase, h⟩
      injection h with h
      subst h
      by_cases hcount : d.eventfdPublish = 0
      · rw [if_pos hcount]
        exact .again hphase hcount
      · rw [if_neg hcount]
        exact .request hphase hcount
  | eventfdReadFails =>
      rcases Option.ite_none_right_eq_some.mp h with ⟨hphase, h⟩
      injection h with h
      subst h
      exact .failed hphase

theorem step_of_steps [Machine] {d d' : Device φ} {a : Step} (h : d.Steps a d') :
    d.step a = some d' := by
  cases h with
  | sample cbdata => rfl
  | event connected => rfl
  | work hphase connected =>
      change (if d.phase = .outside then _ else none) = _
      rw [if_pos hphase, if_pos connected]
  | idle hphase connected =>
      change (if d.phase = .outside then _ else none) = _
      rw [if_pos hphase, connected]
      rfl
  | request hphase hcount =>
      change (if d.phase = .reading then _ else none) = _
      rw [if_pos hphase, if_neg hcount]
  | again hphase hcount =>
      change (if d.phase = .reading then _ else none) = _
      rw [if_pos hphase, if_pos hcount]
  | failed hphase =>
      change (if d.phase = .reading then _ else none) = _
      rw [if_pos hphase]

/-- A run of `app_publish_callback` in one step, case by case. -/
inductive Publishes (d : Device φ) (retPower retEnergy : Int) : Device φ -> Prop where
  | powerFailed (hpower : retPower ≠ 0) : Publishes d retPower retEnergy (d.returned retPower)
  | energyFailed (hpower : retPower = 0) (henergy : retEnergy ≠ 0) :
      Publishes d retPower retEnergy (returned retEnergy { d with
        sent := d.sent ++ [.activePower d.samples.activePower d.samples.numSamples] })
  | finished (hpower : retPower = 0) (henergy : retEnergy = 0) :
      Publishes d retPower retEnergy (returned 0 { d with
        samples := d.samples.reset
        sent := d.sent ++ [.activePower d.samples.activePower d.samples.numSamples,
          .activeEnergy d.samples.activeEnergy] })

theorem publishes_of_callback {d d' : Device φ} {retPower retEnergy : Int}
    (h : d.callback retPower retEnergy = some d') :
    d.phase = .requested ∧ d.Publishes retPower retEnergy d' := by
  unfold callback at h
  rcases Option.ite_none_right_eq_some.mp h with ⟨hphase, h⟩
  refine ⟨hphase, ?_⟩
  by_cases hpower : retPower = 0
  · by_cases henergy : retEnergy = 0
    · rw [Samples.appPublishCallback_finished _ hpower henergy] at h
      injection h with h
      subst h
      exact .finished hpower henergy
    · rw [Samples.appPublishCallback_energyFailed _ hpower henergy] at h
      injection h with h
      subst h
      exact .energyFailed hpower henergy
  · rw [Samples.appPublishCallback_powerFailed _ _ hpower] at h
    injection h with h
    subst h
    rw [List.append_nil]
    exact .powerFailed hpower

inductive Pieces (d : Device φ) : Piece -> Device φ -> Prop where
  | power (hphase : d.phase = .requested) :
      Pieces d (.publishActivePower 0) { d with
        phase := .powerPublished
        sent := d.sent ++ [.activePower d.samples.activePower d.samples.numSamples] }
  | powerFailed {ret : Int} (hphase : d.phase = .requested) (hret : ret ≠ 0) :
      Pieces d (.publishActivePower ret) (d.returned ret)
  | energy (hphase : d.phase = .powerPublished) :
      Pieces d (.publishActiveEnergy 0) { d with
        phase := .energyPublished
        sent := d.sent ++ [.activeEnergy d.samples.activeEnergy] }
  | energyFailed {ret : Int} (hphase : d.phase = .powerPublished) (hret : ret ≠ 0) :
      Pieces d (.publishActiveEnergy ret) (d.returned ret)
  | reset (hphase : d.phase = .energyPublished) :
      Pieces d .reset (returned 0 { d with samples := d.samples.reset })

theorem pieces_of_piece {d d' : Device φ} {p : Piece} (h : d.piece p = some d') :
    d.Pieces p d' := by
  cases p with
  | publishActivePower ret =>
      rcases Option.ite_none_right_eq_some.mp h with ⟨hphase, h⟩
      injection h with h
      subst h
      by_cases hret : ret = 0
      · subst hret
        exact .power hphase
      · rw [if_pos hret]
        exact .powerFailed hphase hret
  | publishActiveEnergy ret =>
      rcases Option.ite_none_right_eq_some.mp h with ⟨hphase, h⟩
      injection h with h
      subst h
      by_cases hret : ret = 0
      · subst hret
        exact .energy hphase
      · rw [if_pos hret]
        exact .energyFailed hphase hret
  | reset =>
      rcases Option.ite_none_right_eq_some.mp h with ⟨hphase, h⟩
      injection h with h
      subst h
      exact .reset hphase

end Device

/-!
## The two systems
-/

/-- The steps when nothing happens during a run of `app_publish_callback`. -/
inductive WholeStep where
  | step (a : Step)
  | appPublishCallback (retPower retEnergy : Int)
deriving DecidableEq, Repr

/-- The steps when anything may happen between two pieces of `app_publish_callback`. -/
inductive SplitStep where
  | step (a : Step)
  | piece (p : Piece)
deriving DecidableEq, Repr

def wholeSystem (φ : Type) [CFloat φ] [Machine] : System (Device φ) WholeStep where
  init := Device.start
  next d
    | .step a => d.step a
    | .appPublishCallback retPower retEnergy => d.callback retPower retEnergy

def splitSystem (φ : Type) [CFloat φ] [Machine] : System (Device φ) SplitStep where
  init := Device.start
  next d
    | .step a => d.step a
    | .piece p => d.piece p

end Powermeter
end Firmware
end Smartmeter
