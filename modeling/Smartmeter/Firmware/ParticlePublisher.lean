import Smartmeter.Firmware.Packets
import Smartmeter.Firmware.Mqttsndev.Latest
import Mathlib.Data.List.GetD

/-!
# Publishing the particle counts

The work item that accepts a packet writes its channels and requests a
publication, which publishes the channels one by one.  In the end the channels
of the last packet that was accepted are published, however the two threads
take turns.
-/

namespace Smartmeter
namespace Firmware
namespace Pms5003

open Foundation
open Mqttsndev (App Client Message Step clientSystem lastPublication mqttSnPublishFmt
  published_latest requested_of_published sentMessages served)

def topics : List String :=
  ["/pm1.0_std", "/pm2.5_std", "/pm10.0_std", "/pm1.0_env", "/pm2.5_env", "/pm10.0_env",
    "/particles_0.3", "/particles_0.5", "/particles_1.0", "/particles_2.5", "/particles_5.0",
    "/particles_10.0", "/reserved"]

def SensorStep.schedules (s : Sensor) : SensorStep -> Bool
  | .rxWork _ => (Pms5003.parsePacket s.rawMessage).isSome
  | _ => false

def app : App Sensor SensorStep Message where
  init := Sensor.boot
  next s a := (sensorSystem.next s a).map fun s' => (s', a.schedules s)
  messages := topics.mapIdx fun index topic s =>
    mqttSnPublishFmt topic (s.currentChannels.getD index 0)
  finish := id

/-!
## Accepted packets
-/

def Call.accepted : Call -> Option (List UInt16)
  | .parsePacket buf => Pms5003.parsePacket buf
  | _ => none

def accepted (s : Sensor) : List (List UInt16) := s.calls.filterMap Call.accepted

theorem accepted_call (s : Sensor) (c : Call) :
    accepted (s.call c) = accepted s ++ c.accepted.toList := by
  unfold accepted Sensor.call
  rw [List.filterMap_append]
  cases hc : c.accepted <;> simp [hc]

theorem accepted_startRx (s : Sensor) (ret : Int) : accepted (s.startRx ret) = accepted s := by
  have hcall := accepted_call s .startRx
  unfold Sensor.startRx
  exact hcall.trans (List.append_nil _)

inductive Accepts (packets : List (List UInt16)) (channels : List UInt16) :
    Bool -> Sensor -> Prop where
  | nothing {s : Sensor} (haccepted : accepted s = packets)
      (hchannels : s.currentChannels = channels) : Accepts packets channels false s
  | packet {s : Sensor} (haccepted : accepted s = packets ++ [s.currentChannels]) :
      Accepts packets channels true s

theorem accepts_rxWorkHandler (s : Sensor) (ret : Int) :
    Accepts (accepted s) s.currentChannels (Pms5003.parsePacket s.rawMessage).isSome
      (s.rxWorkHandler ret) := by
  have hcall := accepted_call s (.parsePacket s.rawMessage)
  have hraw : (s.call (.parsePacket s.rawMessage)).rawMessage = s.rawMessage := rfl
  unfold Sensor.rxWorkHandler
  dsimp only
  rw [hraw]
  cases hparse : Pms5003.parsePacket s.rawMessage with
  | none =>
      have hnone : (Call.parsePacket s.rawMessage).accepted = none := hparse
      rw [hnone, Option.toList_none, List.append_nil] at hcall
      exact .nothing ((accepted_startRx _ ret).trans hcall) rfl
  | some channels =>
      have hsome : (Call.parsePacket s.rawMessage).accepted = some channels := hparse
      rw [hsome] at hcall
      apply Accepts.packet
      rw [accepted_startRx, accepted_call]
      exact (List.append_nil _).trans hcall

theorem accepts_of_next {s s' : Sensor} {a : SensorStep} (h : sensorSystem.next s a = some s') :
    Accepts (accepted s) s.currentChannels (a.schedules s) s' := by
  cases a with
  | main ret =>
      rcases Option.ite_none_left_eq_some.mp h with ⟨_, h⟩
      cases h
      exact .nothing (accepted_startRx _ ret) rfl
  | event e =>
      rcases Option.ite_none_right_eq_some.mp h with ⟨⟨_, hne⟩, h⟩
      cases h
      cases e with
      | rxDisabled => exact absurd rfl hne
      | rxRdy data =>
          have hcall := accepted_call { s with rawMessage := data } .uartRxDisable
          exact .nothing (hcall.trans (List.append_nil _)) rfl
      | rxStopped | other => exact .nothing rfl rfl
  | rxDisabled ret =>
      rcases rxDisabled_cases h with ⟨_, hs'⟩ | ⟨_, hs'⟩
      · have hcall := accepted_call { s with receiving := false } .submitRxWork
        rw [hs']
        exact .nothing (hcall.trans (List.append_nil _)) rfl
      · rw [hs']
        exact .nothing (accepted_startRx _ ret) rfl
  | rxWork ret =>
      rcases Option.ite_none_right_eq_some.mp h with ⟨_, h⟩
      cases h
      exact accepts_rxWorkHandler { s with rxWorkPending := false } ret

theorem accepts_of_app {s s' : Sensor} {a : SensorStep} {schedules : Bool}
    (h : app.next s a = some (s', schedules)) :
    Accepts (accepted s) s.currentChannels schedules s' := by
  rcases Option.map_eq_some_iff.mp h with ⟨t, ht, heq⟩
  cases heq
  exact accepts_of_next ht

def announces : app.Announces where
  Settled _ := True
  next_settled _ _ _ _ _ := trivial
  next_messages s a s' h _ message hmessage := by
    rcases List.mem_mapIdx.mp hmessage with ⟨index, hindex, rfl⟩
    cases accepts_of_app h with
    | nothing haccepted hchannels =>
        dsimp only
        rw [hchannels]
  finish_eq _ := rfl

/-!
## The last packet
-/

def Current (s : Sensor) : Prop :=
  accepted s = [] ∨ exists earlier, accepted s = earlier ++ [s.currentChannels]

theorem current_of_accepts {s s' : Sensor} {schedules : Bool} (h : Current s)
    (haccepts : Accepts (accepted s) s.currentChannels schedules s') : Current s' := by
  cases haccepts with
  | nothing haccepted hchannels =>
      unfold Current
      rw [haccepted, hchannels]
      exact h
  | packet haccepted =>
      right
      exact ⟨_, haccepted⟩

theorem accepted_length {s : Sensor} {channels : List UInt16} (h : channels ∈ accepted s) :
    channels.length = 13 := by
  rcases List.mem_filterMap.mp h with ⟨c, _, hc⟩
  cases c with
  | parsePacket buf => exact ((parsePacket_eq_some_iff buf channels).mp hc).1
  | uartRxDisable | submitRxWork | startRx | schedulePublishCallback => cases hc

def publications (channels : List UInt16) : List Message :=
  topics.zipWith mqttSnPublishFmt channels

theorem messagesOf_eq {s : Sensor} (h : s.currentChannels.length = 13) :
    app.messagesOf s = publications s.currentChannels := by
  have hmap : app.messagesOf s = topics.mapIdx fun index topic =>
      mqttSnPublishFmt topic (s.currentChannels.getD index 0) := rfl
  rw [hmap]
  unfold publications
  apply List.ext_getElem
  · rw [List.length_mapIdx, List.length_zipWith, h]
    rfl
  · intro index hleft hright
    have hindex : index < s.currentChannels.length := by
      rw [List.length_zipWith] at hright
      exact Nat.lt_of_lt_of_le hright (Nat.min_le_right _ _)
    rw [List.getElem_mapIdx, List.getElem_zipWith, List.getD_eq_getElem _ _ hindex]

/--
When no request is left and the thread is not in the publish callback, a
successful last publication has ended a round with the channels of the last
packet that was accepted.
-/
theorem last_packet_published {as : List (Step SensorStep)} {d : Client Sensor Message}
    (run : (clientSystem app).Run as d) (hcount : d.eventfdPublish = 0)
    (hlocation : ¬ d.location.InCallback) (hlast : lastPublication d.trace = some 0) :
    exists before channels earlier, accepted d.shared = before ++ [channels] ∧
      sentMessages d.trace = earlier ++ publications channels := by
  have hcurrent : Current d.shared := by
    apply Client.shared_invariant _ _ _ run
    · left
      rfl
    · intro s a s' schedules hbefore happ
      exact current_of_accepts hbefore (accepts_of_app happ)
    · intro s hs
      exact hs
  have hsome : accepted d.shared ≠ [] := by
    apply requested_of_published (I := fun _ => True) (P := fun s => accepted s ≠ []) _ _ _ run
    · rw [hlast]
      exact Option.some_ne_none 0
    · intro _ _ _
      exact trivial
    · intro s a s' schedules _ happ hor
      cases accepts_of_app happ with
      | nothing haccepted hchannels =>
          rw [haccepted]
          exact hor.resolve_right Bool.false_ne_true
      | packet haccepted =>
          rw [haccepted]
          exact List.append_ne_nil_of_right_ne_nil _ (List.cons_ne_nil _ _)
    · intro s hs
      exact hs
  rcases hcurrent with hnil | ⟨before, haccepted⟩
  · exact absurd hnil hsome
  · have hlength : d.shared.currentChannels.length = 13 := by
      apply accepted_length (s := d.shared)
      rw [haccepted]
      exact List.mem_append_right _ List.mem_cons_self
    rcases published_latest announces run hcount hlocation trivial hlast with ⟨earlier, hsent⟩
    rw [messagesOf_eq hlength] at hsent
    exact ⟨before, d.shared.currentChannels, earlier, haccepted, hsent⟩

def packetPublished : List (Step SensorStep) :=
  .startThread :: .app (.main 0) :: .app (.event (.rxRdy goodPacket)) :: .app (.rxDisabled 0) ::
    .app (.rxWork 0) :: List.replicate 25 served

theorem last_packet_published_good :
    exists d, (clientSystem app).Run packetPublished d ∧
      exists before channels earlier, accepted d.shared = before ++ [channels] ∧
        sentMessages d.trace = earlier ++ publications channels := by
  have hrun : (clientSystem app).Run packetPublished _ := System.run_of_steps rfl
  exact ⟨_, hrun, last_packet_published hrun rfl id rfl⟩

end Pms5003
end Firmware
end Smartmeter
