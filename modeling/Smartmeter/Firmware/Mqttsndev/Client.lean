import Smartmeter.Firmware.Powermeter.Requests

/-!
# The MQTT thread

The thread keeps an MQTT-SN client connected and waits for requests.  When there
is one it calls the publish callback of the application, whose other threads
write the variables that are published and make the requests.  Every error ends
the session, and a new one is started after a while.
-/

namespace Smartmeter
namespace Firmware
namespace Mqttsndev

open Foundation
open Powermeter (eventfdWrite eventfdWrite_pos)

/-!
## The application
-/

structure App (σ ω μ : Type) where
  init : σ
  /--
  A step of its other threads, and whether it calls
  `mqttsndev_schedule_publish_callback`.
  -/
  next : σ -> ω -> Option (σ × Bool)
  messages : List (σ -> μ)
  finish : σ -> σ

/-!
## The thread
-/

inductive Evt where
  | connected
  | disconnected
  | asleep
  | awake
  | publish
  | pingresp
deriving DecidableEq, Repr

inductive Call (μ : Type) where
  | transportInit (ret : Int)
  | clientInit (ret : Int)
  | transportDeinit
  | connect (ret : Int)
  | evtCb (evt : Evt)
  | input (ret : Int)
  | poll (ret : Int)
  | eventfdRead (ret : Int)
  | publishCallback
  | publish (message : μ) (ret : Int)
  | callbackReturned (ret : Int)
  | clientDeinit
  | schedulePublishCallback
deriving DecidableEq, Repr

def EAGAIN : Int := 11

inductive Location where
  | notStarted
  | transportInit
  | clientInit
  | transportDeinit
  | testConnected
  | connect
  | connectInput
  | poll
  | workInput
  | workConnected
  | eventfdRead
  | publishCallback
  | publish (index : Nat)
  | clientDeinit
  | clearConnected
  | wait
deriving DecidableEq, Repr

def Location.HasClient : Location -> Bool
  | .testConnected | .connect | .connectInput | .poll | .workInput | .workConnected
  | .eventfdRead | .publishCallback | .publish _ | .clientDeinit => true
  | .notStarted | .transportInit | .clientInit | .transportDeinit | .clearConnected
  | .wait => false

/-- The variables of the application and of the thread, and the calls so far. -/
structure Client (σ μ : Type) where
  shared : σ
  eventfdPublish : Nat
  mqttSnConnected : Bool
  location : Location
  trace : List (Call μ)

namespace Client

variable {σ ω μ : Type}

def call (d : Client σ μ) (c : Call μ) : Client σ μ := { d with trace := d.trace ++ [c] }

def goto (d : Client σ μ) (l : Location) : Client σ μ := { d with location := l }

def evtCb (d : Client σ μ) (evt : Evt) : Client σ μ :=
  let d := d.call (.evtCb evt)
  match evt with
  | .connected => { d with mqttSnConnected := true }
  | .disconnected => { d with mqttSnConnected := false }
  | .asleep | .awake | .publish | .pingresp => d

/-- `mqtt_sn_input`, which tells of events and returns. -/
def input (d : Client σ μ) (evts : List Evt) (ret : Int) : Client σ μ :=
  (evts.foldl evtCb d).call (.input ret)

def eventfdRead (d : Client σ μ) : Client σ μ :=
  if d.eventfdPublish = 0 then (d.call (.eventfdRead (-EAGAIN))).goto .testConnected
  else ({ d with eventfdPublish := 0 }.call (.eventfdRead 0)).goto .publishCallback

def returned (d : Client σ μ) (ret : Int) : Client σ μ :=
  (d.call (.callbackReturned ret)).goto (if ret < 0 then .clientDeinit else .testConnected)

def publish (app : App σ ω μ) (d : Client σ μ) (index : Nat) (ret : Int) : Client σ μ :=
  match app.messages[index]? with
  | none => { d with shared := app.finish d.shared }.returned 0
  | some message =>
      let d := d.call (.publish (message d.shared) ret)
      if ret = 0 then d.goto (.publish (index + 1)) else d.returned ret

/--
The next thing the thread does: `ret` is the result of what it calls, and
`evts` are the events `mqtt_sn_input` tells of.
-/
def advance (app : App σ ω μ) (d : Client σ μ) (ret : Int) (evts : List Evt) : Client σ μ :=
  match d.location with
  | .notStarted => d
  | .transportInit =>
      (d.call (.transportInit ret)).goto (if ret ≠ 0 then .wait else .clientInit)
  | .clientInit =>
      (d.call (.clientInit ret)).goto (if ret ≠ 0 then .transportDeinit else .testConnected)
  | .transportDeinit => (d.call .transportDeinit).goto .wait
  | .testConnected => d.goto (if d.mqttSnConnected then .poll else .connect)
  | .connect =>
      (d.call (.connect ret)).goto (if ret ≠ 0 then .clientDeinit else .connectInput)
  | .connectInput =>
      (d.input evts ret).goto (if ret < 0 then .clientDeinit else .testConnected)
  | .poll => (d.call (.poll ret)).goto (if ret < 0 then .clientDeinit else .workInput)
  | .workInput =>
      (d.input evts ret).goto (if ret < 0 then .clientDeinit else .workConnected)
  | .workConnected => d.goto (if d.mqttSnConnected then .eventfdRead else .testConnected)
  | .eventfdRead =>
      -- The read may also fail, and not because nothing is requested.
      if ret < 0 ∧ ret ≠ -EAGAIN then (d.call (.eventfdRead ret)).goto .clientDeinit
      else d.eventfdRead
  | .publishCallback => (d.call .publishCallback).goto (.publish 0)
  | .publish index => d.publish app index ret
  | .clientDeinit => (d.call .clientDeinit).goto .clearConnected
  | .clearConnected => { d with mqttSnConnected := false }.goto .wait
  | .wait => d.goto .transportInit

end Client

/-!
## All threads
-/

inductive Step (ω : Type) where
  | app (a : ω)
  | startThread
  /-- The client tells of an event on its own, as when the gateway does not answer. -/
  | evtCb (evt : Evt)
  | thread (ret : Int) (evts : List Evt)
deriving DecidableEq, Repr

namespace Client

variable {σ ω μ : Type}

def schedulePublishCallback (d : Client σ μ) : Client σ μ :=
  { d with eventfdPublish := eventfdWrite d.eventfdPublish 1 }.call .schedulePublishCallback

def appStep (d : Client σ μ) (s : σ) (schedules : Bool) : Client σ μ :=
  if schedules then { d with shared := s }.schedulePublishCallback else { d with shared := s }

def next (app : App σ ω μ) (d : Client σ μ) : Step ω -> Option (Client σ μ)
  | .app a => (app.next d.shared a).map fun x => d.appStep x.1 x.2
  | .startThread => if d.location = .notStarted then some (d.goto .transportInit) else none
  | .evtCb evt => if d.location.HasClient then some (d.evtCb evt) else none
  | .thread ret evts =>
      if d.location = .notStarted then none else some (d.advance app ret evts)

end Client

def clientSystem {σ ω μ : Type} (app : App σ ω μ) : System (Client σ μ) (Step ω) where
  init :=
    { shared := app.init
      eventfdPublish := 0
      mqttSnConnected := false
      location := .notStarted
      trace := [] }
  next := Client.next app

def served {ω : Type} : Step ω := .thread 0 [.connected]

/-- An application with one variable, which is published whenever it is written. -/
def counter : App Nat Nat Nat where
  init := 0
  next _ a := some (a, true)
  messages := [id]
  finish := id

def answered : List (Step Nat) := .startThread :: .app 7 :: List.replicate 13 served

/-!
## What a step does to the requests and to what is published
-/

def Location.InCallback : Location -> Prop
  | .publishCallback | .publish _ => True
  | _ => False

/-- A call that is neither a request nor a part of the publish callback. -/
def Call.Other {μ : Type} : Call μ -> Prop
  | .schedulePublishCallback | .publishCallback | .publish _ _ | .callbackReturned _ => False
  | _ => True

namespace Client

variable {σ ω μ : Type}

inductive Acts (app : App σ ω μ) (d : Client σ μ) : Client σ μ -> Prop where
  | other {d' : Client σ μ} (calls : List (Call μ)) (hcalls : forall c, c ∈ calls -> c.Other)
      (hshared : d'.shared = d.shared) (hcount : d'.eventfdPublish = d.eventfdPublish)
      (htrace : d'.trace = d.trace ++ calls)
      (hlocation : d'.location = d.location ∨
        ¬ d.location.InCallback ∧ ¬ d'.location.InCallback) : Acts app d d'
  | read (hlocation : d.location = .eventfdRead) (hpos : 0 < d.eventfdPublish) :
      Acts app d (({ d with eventfdPublish := 0 }.call (.eventfdRead 0)).goto .publishCallback)
  | publishCallback (hlocation : d.location = .publishCallback) :
      Acts app d ((d.call .publishCallback).goto (.publish 0))
  | published {index : Nat} {message : σ -> μ} (hlocation : d.location = .publish index)
      (hmessage : app.messages[index]? = some message) :
      Acts app d ((d.call (.publish (message d.shared) 0)).goto (.publish (index + 1)))
  | failed {index : Nat} {message : σ -> μ} {ret : Int} (hlocation : d.location = .publish index)
      (hmessage : app.messages[index]? = some message) (hret : ret ≠ 0) :
      Acts app d ((d.call (.publish (message d.shared) ret)).returned ret)
  | finished {index : Nat} (hlocation : d.location = .publish index)
      (hnone : app.messages[index]? = none) :
      Acts app d ({ d with shared := app.finish d.shared }.returned 0)

inductive Moves (app : App σ ω μ) (d : Client σ μ) : Client σ μ -> Prop where
  | app {a : ω} {s : σ} {schedules : Bool} (happ : app.next d.shared a = some (s, schedules)) :
      Moves app d (d.appStep s schedules)
  | acts {d' : Client σ μ} (hacts : Acts app d d') : Moves app d d'

theorem evtCb_eq (d : Client σ μ) (evt : Evt) :
    d.evtCb evt = { d.call (.evtCb evt) with mqttSnConnected := (d.evtCb evt).mqttSnConnected } := by
  cases evt <;> rfl

theorem evtCbs_eq (d : Client σ μ) (evts : List Evt) :
    evts.foldl evtCb d =
      { d with
        trace := d.trace ++ evts.map .evtCb
        mqttSnConnected := (evts.foldl evtCb d).mqttSnConnected } := by
  induction evts generalizing d with
  | nil =>
      rw [List.map_nil, List.append_nil]
      rfl
  | cons evt evts ih =>
      rw [List.foldl_cons, ih, evtCb_eq]
      simp [call]

theorem acts_goto {app : App σ ω μ} {d : Client σ μ} {c : Call μ} {l : Location}
    (hother : c.Other) (hbefore : ¬ d.location.InCallback) (hafter : ¬ l.InCallback) :
    Acts app d ((d.call c).goto l) := by
  apply Acts.other [c]
  · rw [List.forall_mem_singleton]
    exact hother
  · rfl
  · rfl
  · rfl
  · right
    exact ⟨hbefore, hafter⟩

theorem acts_silent {app : App σ ω μ} {d : Client σ μ} {l : Location} {connected : Bool}
    (hbefore : ¬ d.location.InCallback) (hafter : ¬ l.InCallback) :
    Acts app d ({ d with mqttSnConnected := connected }.goto l) := by
  apply Acts.other []
  · exact List.forall_mem_nil _
  · rfl
  · rfl
  · exact (List.append_nil _).symm
  · right
    exact ⟨hbefore, hafter⟩

theorem acts_input {app : App σ ω μ} {d : Client σ μ} {evts : List Evt} {ret : Int} {l : Location}
    (hbefore : ¬ d.location.InCallback) (hafter : ¬ l.InCallback) :
    Acts app d ((d.input evts ret).goto l) := by
  unfold input
  rw [evtCbs_eq]
  apply Acts.other (evts.map .evtCb ++ [.input ret])
  · intro c hc
    rcases List.mem_append.mp hc with hc | hc
    · rcases List.mem_map.mp hc with ⟨evt, _, rfl⟩
      exact trivial
    · rcases List.mem_singleton.mp hc with rfl
      exact trivial
  · rfl
  · rfl
  · exact List.append_assoc _ _ _
  · right
    exact ⟨hbefore, hafter⟩

theorem acts_publish (app : App σ ω μ) {d : Client σ μ} {index : Nat} (ret : Int)
    (hlocation : d.location = .publish index) : Acts app d (d.publish app index ret) := by
  unfold publish
  cases hmessage : app.messages[index]? with
  | none => exact .finished hlocation hmessage
  | some message =>
      dsimp only
      split <;> rename_i hret
      · rw [hret]
        exact .published hlocation hmessage
      · exact .failed hlocation hmessage hret

theorem not_inCallback_ite {p : Prop} [Decidable p] {l m : Location} (hl : ¬ l.InCallback)
    (hm : ¬ m.InCallback) : ¬ (if p then l else m).InCallback := by
  split
  · exact hl
  · exact hm

theorem acts_advance (app : App σ ω μ) (d : Client σ μ) (ret : Int) (evts : List Evt) :
    Acts app d (d.advance app ret evts) := by
  have hout : forall l : Location, d.location = l -> ¬ l.InCallback -> ¬ d.location.InCallback := by
    intro l hl hnot
    rw [hl]
    exact hnot
  unfold advance
  cases hlocation : d.location with
  | notStarted => exact acts_silent (l := d.location) (hout _ hlocation id) (hout _ hlocation id)
  | transportInit =>
      exact acts_goto trivial (hout _ hlocation id) (not_inCallback_ite id id)
  | clientInit =>
      exact acts_goto trivial (hout _ hlocation id) (not_inCallback_ite id id)
  | transportDeinit => exact acts_goto trivial (hout _ hlocation id) id
  | testConnected => exact acts_silent (hout _ hlocation id) (not_inCallback_ite id id)
  | connect => exact acts_goto trivial (hout _ hlocation id) (not_inCallback_ite id id)
  | connectInput => exact acts_input (hout _ hlocation id) (not_inCallback_ite id id)
  | poll => exact acts_goto trivial (hout _ hlocation id) (not_inCallback_ite id id)
  | workInput => exact acts_input (hout _ hlocation id) (not_inCallback_ite id id)
  | workConnected => exact acts_silent (hout _ hlocation id) (not_inCallback_ite id id)
  | eventfdRead =>
      dsimp only
      split
      · exact acts_goto trivial (hout _ hlocation id) id
      · unfold eventfdRead
        split <;> rename_i hcount
        · exact acts_goto trivial (hout _ hlocation id) id
        · exact .read hlocation (Nat.pos_of_ne_zero hcount)
  | publishCallback => exact .publishCallback hlocation
  | publish index => exact acts_publish app ret hlocation
  | clientDeinit => exact acts_goto trivial (hout _ hlocation id) id
  | clearConnected => exact acts_silent (hout _ hlocation id) id
  | wait => exact acts_silent (hout _ hlocation id) id

theorem acts_of_next {app : App σ ω μ} {d d' : Client σ μ} {a : Step ω}
    (h : d.next app a = some d') (hne : forall b, a ≠ .app b) : Acts app d d' := by
  cases a with
  | app a => exact absurd rfl (hne a)
  | startThread =>
      rcases Option.ite_none_right_eq_some.mp h with ⟨hlocation, h⟩
      cases h
      apply acts_silent
      · rw [hlocation]
        exact id
      · exact id
  | evtCb evt =>
      rcases Option.ite_none_right_eq_some.mp h with ⟨_, h⟩
      cases h
      rw [evtCb_eq]
      apply Acts.other [.evtCb evt]
      · rw [List.forall_mem_singleton]
        exact trivial
      · rfl
      · rfl
      · rfl
      · left
        rfl
  | thread ret evts =>
      rcases Option.ite_none_left_eq_some.mp h with ⟨_, h⟩
      cases h
      exact acts_advance app d ret evts

theorem moves_of_next {app : App σ ω μ} {d d' : Client σ μ} {a : Step ω}
    (h : d.next app a = some d') : Moves app d d' := by
  cases a with
  | app a =>
      rcases Option.map_eq_some_iff.mp h with ⟨x, hx, rfl⟩
      exact .app hx
  | startThread | evtCb | thread =>
      apply Moves.acts
      apply acts_of_next h
      intro b heq
      cases heq

theorem shared_invariant {app : App σ ω μ} {I : σ -> Prop} (hinit : I app.init)
    (hnext : forall s a s' schedules, I s -> app.next s a = some (s', schedules) -> I s')
    (hfinish : forall s, I s -> I (app.finish s)) {as : List (Step ω)} {d : Client σ μ}
    (run : (clientSystem app).Run as d) : I d.shared := by
  apply run.invariant (I := fun _ d => I d.shared)
  · exact hinit
  · intro as a d d' _ hbefore hstep
    cases moves_of_next hstep with
    | @app a s schedules happ =>
        have hafter := hnext _ _ _ _ hbefore happ
        cases schedules with
        | false => exact hafter
        | true => exact hafter
    | acts hacts =>
        cases hacts with
        | other calls hcalls hshared =>
            rw [hshared]
            exact hbefore
        | read | publishCallback | published | failed => exact hbefore
        | finished => exact hfinish _ hbefore

end Client

/-!
## Messages
-/

structure Message where
  topicName : String
  pubdata : String
deriving DecidableEq, Repr

def mqttSnPublishFmt (topicName : String) (value : UInt16) : Message :=
  { topicName := topicName, pubdata := toString value.toNat }

end Mqttsndev
end Firmware
end Smartmeter
