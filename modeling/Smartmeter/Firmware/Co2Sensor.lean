import Smartmeter.Firmware.Mqttsndev.Latest

/-!
# The CO2 sensor

The main thread reads four registers over Modbus, assigns them one by one to the
variables that are published, and requests a publication.  The MQTT thread may
run between any two of the assignments, and publish old and new values together;
in the end the registers that were read last are published.
-/

namespace Smartmeter
namespace Firmware
namespace Co2Sensor

open Foundation
open Mqttsndev (App Client Message Step clientSystem lastPublication mqttSnPublishFmt
  published_latest requested_of_published sentMessages served)

abbrev Regs := Vector UInt16 4

inductive Main where
  | readRegs
  | assignMeterstatus (regs : Regs)
  | assignAlarmstatus (regs : Regs)
  | assignOutputstatus (regs : Regs)
  | assignSpaceco2 (regs : Regs)
  | schedule (regs : Regs)
deriving DecidableEq

/-- The static variables, and the registers that were read so far. -/
structure Sensor where
  meterstatus : UInt16
  alarmstatus : UInt16
  outputstatus : UInt16
  spaceco2 : UInt16
  main : Main
  reads : List Regs
deriving DecidableEq

namespace Sensor

def boot : Sensor where
  meterstatus := 0
  alarmstatus := 0
  outputstatus := 0
  spaceco2 := 0
  main := .readRegs
  reads := []

/--
A step of `main`, and whether it requests a publication; `ret` and
`regs` are what `modbus_read_input_regs` gives.
-/
def step (s : Sensor) (ret : Int) (regs : Regs) : Sensor × Bool :=
  match s.main with
  | .readRegs =>
      if ret ≠ 0 then (s, false)
      else ({ s with main := .assignMeterstatus regs, reads := s.reads ++ [regs] }, false)
  | .assignMeterstatus regs =>
      ({ s with meterstatus := regs[0], main := .assignAlarmstatus regs }, false)
  | .assignAlarmstatus regs =>
      ({ s with alarmstatus := regs[1], main := .assignOutputstatus regs }, false)
  | .assignOutputstatus regs =>
      ({ s with outputstatus := regs[2], main := .assignSpaceco2 regs }, false)
  | .assignSpaceco2 regs => ({ s with spaceco2 := regs[3], main := .schedule regs }, false)
  | .schedule _ => ({ s with main := .readRegs }, true)

end Sensor

def app : App Sensor (Int × Regs) Message where
  init := Sensor.boot
  next s a := some (s.step a.1 a.2)
  messages :=
    [fun s => mqttSnPublishFmt "/meterstatus" s.meterstatus,
      fun s => mqttSnPublishFmt "/alarmstatus" s.alarmstatus,
      fun s => mqttSnPublishFmt "/outputstatus" s.outputstatus,
      fun s => mqttSnPublishFmt "/spaceco2" s.spaceco2]
  finish := id

theorem step_eq_self {s s' : Sensor} {ret : Int} {regs : Regs}
    (h : s.step ret regs = (s', false)) (hmain : s'.main = .readRegs) : s' = s := by
  unfold Sensor.step at h
  cases hlocation : s.main with
  | readRegs =>
      rw [hlocation] at h
      dsimp only at h
      split at h
      · cases h
        rfl
      · cases h
        cases hmain
  | assignMeterstatus regs | assignAlarmstatus regs | assignOutputstatus regs
  | assignSpaceco2 regs =>
      rw [hlocation] at h
      cases h
      cases hmain
  | schedule regs =>
      rw [hlocation] at h
      cases h

def announces : app.Announces where
  Settled s := s.main = .readRegs
  next_settled s a s' h hsettled := by
    rw [step_eq_self (Option.some.inj h) hsettled] at hsettled
    exact hsettled
  next_messages s a s' h hsettled message hmessage := by
    rw [step_eq_self (Option.some.inj h) hsettled]
  finish_eq _ := rfl

/-!
## The last registers
-/

def Regs.values (regs : Regs) : List UInt16 := [regs[0], regs[1], regs[2], regs[3]]

def Sensor.values (s : Sensor) : List UInt16 :=
  [s.meterstatus, s.alarmstatus, s.outputstatus, s.spaceco2]

def Main.regs : Main -> Option Regs
  | .readRegs => none
  | .assignMeterstatus regs | .assignAlarmstatus regs | .assignOutputstatus regs
  | .assignSpaceco2 regs | .schedule regs => some regs

/-- How many of the variables have the values that were read last. -/
def Main.assigned : Main -> Nat
  | .assignMeterstatus _ => 0
  | .assignAlarmstatus _ => 1
  | .assignOutputstatus _ => 2
  | .assignSpaceco2 _ => 3
  | .schedule _ | .readRegs => 4

/-- The variables that are assigned have the values that were read last. -/
def Assigned (s : Sensor) (regs : Regs) : Prop :=
  (forall r, s.main.regs = some r -> r = regs) ∧
    s.values.take s.main.assigned = regs.values.take s.main.assigned

theorem assigned_step {s : Sensor} {regs : Regs} (h : Assigned s regs)
    (hmain : s.main ≠ .readRegs) (ret : Int) (regs' : Regs) :
    (s.step ret regs').1.reads = s.reads ∧ Assigned (s.step ret regs').1 regs := by
  have hregs := h.1
  have hvalues := h.2
  unfold Sensor.step Assigned
  cases hlocation : s.main with
  | readRegs => exact absurd hlocation hmain
  | assignMeterstatus r =>
      rw [hlocation] at hregs hvalues
      cases hregs r rfl
      exact ⟨rfl, fun r' hr' => (Option.some.inj hr').symm, congrArg (· ++ [regs[0]]) hvalues⟩
  | assignAlarmstatus r =>
      rw [hlocation] at hregs hvalues
      cases hregs r rfl
      exact ⟨rfl, fun r' hr' => (Option.some.inj hr').symm, congrArg (· ++ [regs[1]]) hvalues⟩
  | assignOutputstatus r =>
      rw [hlocation] at hregs hvalues
      cases hregs r rfl
      exact ⟨rfl, fun r' hr' => (Option.some.inj hr').symm, congrArg (· ++ [regs[2]]) hvalues⟩
  | assignSpaceco2 r =>
      rw [hlocation] at hregs hvalues
      cases hregs r rfl
      exact ⟨rfl, fun r' hr' => (Option.some.inj hr').symm, congrArg (· ++ [regs[3]]) hvalues⟩
  | schedule r =>
      rw [hlocation] at hvalues
      exact ⟨rfl, fun r' hr' => (by cases hr'), hvalues⟩

def Current (s : Sensor) : Prop :=
  s.reads = [] ∧ s.main = .readRegs ∨
    exists before regs, s.reads = before ++ [regs] ∧ Assigned s regs

theorem current_step {s : Sensor} (h : Current s) (ret : Int) (regs : Regs) :
    Current (s.step ret regs).1 := by
  rcases Classical.em (s.main = .readRegs) with hmain | hmain
  · unfold Sensor.step
    rw [hmain]
    dsimp only
    split
    · exact h
    · right
      exact ⟨s.reads, regs, rfl, fun r hr => (Option.some.inj hr).symm, rfl⟩
  · rcases h with ⟨_, hidle⟩ | ⟨before, r, hreads, hassigned⟩
    · exact absurd hidle hmain
    · have hstep := assigned_step hassigned hmain ret regs
      right
      exact ⟨before, r, hstep.1.trans hreads, hstep.2⟩

theorem current_of_run {as : List (Step (Int × Regs))} {d : Client Sensor Message}
    (run : (clientSystem app).Run as d) : Current d.shared := by
  apply Client.shared_invariant _ _ _ run
  · left
    exact ⟨rfl, rfl⟩
  · intro s a s' schedules hbefore happ
    have hstep := current_step hbefore a.1 a.2
    rw [Option.some.inj happ] at hstep
    exact hstep
  · intro s hs
    exact hs

theorem reads_ne_nil {s : Sensor} (hcurrent : Current s) (ret : Int) (regs : Regs)
    (h : s.reads ≠ [] ∨ (s.step ret regs).2 = true) : (s.step ret regs).1.reads ≠ [] := by
  have hkept : s.reads ≠ [] -> (s.step ret regs).1.reads ≠ [] := by
    intro hne
    unfold Sensor.step
    cases s.main with
    | readRegs =>
        dsimp only
        split
        · exact hne
        · exact List.append_ne_nil_of_left_ne_nil hne _
    | assignMeterstatus | assignAlarmstatus | assignOutputstatus | assignSpaceco2 | schedule =>
        exact hne
  rcases h with hne | hrequest
  · exact hkept hne
  · apply hkept
    rcases hcurrent with ⟨_, hmain⟩ | ⟨before, regs', hreads, _⟩
    · unfold Sensor.step at hrequest
      rw [hmain] at hrequest
      dsimp only at hrequest
      split at hrequest <;> cases hrequest
    · rw [hreads]
      exact List.append_ne_nil_of_right_ne_nil _ (List.cons_ne_nil _ _)

def publications (values : List UInt16) : List Message :=
  ["/meterstatus", "/alarmstatus", "/outputstatus", "/spaceco2"].zipWith mqttSnPublishFmt values

/--
When no request is left, the thread is not in the publish callback and the next
reading is due, a successful last publication has ended a round with the
registers that were read last.
-/
theorem last_registers_published {as : List (Step (Int × Regs))} {d : Client Sensor Message}
    (run : (clientSystem app).Run as d) (hcount : d.eventfdPublish = 0)
    (hlocation : ¬ d.location.InCallback) (hmain : d.shared.main = .readRegs)
    (hlast : lastPublication d.trace = some 0) :
    exists before regs earlier, d.shared.reads = before ++ [regs] ∧
      sentMessages d.trace = earlier ++ publications regs.values := by
  have hread : d.shared.reads ≠ [] := by
    apply requested_of_published (I := Current) (P := fun s => s.reads ≠ []) _ _ _ run
    · rw [hlast]
      exact Option.some_ne_none 0
    · intro _ _ hrun
      exact current_of_run hrun
    · intro s a s' schedules hcurrent happ hor
      have hne := reads_ne_nil hcurrent a.1 a.2
      rw [Option.some.inj happ] at hne
      exact hne hor
    · intro s hs
      exact hs
  rcases current_of_run run with ⟨hnil, _⟩ | ⟨before, regs, hreads, hassigned⟩
  · exact absurd hnil hread
  · have hvalues : d.shared.values = regs.values := by
      have htake := hassigned.2
      rw [hmain] at htake
      exact htake
    have hmessages : app.messagesOf d.shared = publications d.shared.values := rfl
    rcases published_latest announces run hcount hlocation hmain hlast with ⟨earlier, hsent⟩
    rw [hmessages, hvalues] at hsent
    exact ⟨before, regs, earlier, hreads, hsent⟩

def registersPublished : List (Step (Int × Regs)) :=
  .startThread :: List.replicate 6 (.app (0, #v[0, 0, 0, 415])) ++ List.replicate 16 served

theorem last_registers_published_one :
    exists d, (clientSystem app).Run registersPublished d ∧
      exists before regs earlier, d.shared.reads = before ++ [regs] ∧
        sentMessages d.trace = earlier ++ publications regs.values := by
  have hrun : (clientSystem app).Run registersPublished _ := System.run_of_steps rfl
  exact ⟨_, hrun, last_registers_published hrun rfl id rfl rfl⟩

end Co2Sensor
end Firmware
end Smartmeter
