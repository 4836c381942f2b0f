import Smartmeter.Foundation.BigEndian
import Smartmeter.Foundation.System

/-!
# The particle sensor

A packet is received in a session: reception is started, the packet arrives,
reception is disabled, and a work item parses the packet and starts reception
again.  When the UART reports an error, reception is started again at once.
-/

namespace Smartmeter
namespace Firmware
namespace Pms5003

open Foundation

/-!
## Packets
-/

def pullBe16 (buf : List UInt8) : UInt16 × List UInt8 :=
  (UInt16.ofNat (beNat (buf.take 2)), buf.drop 2)

def pullChannels : Nat -> List UInt8 -> List UInt16 × List UInt8
  | 0, buf => ([], buf)
  | n + 1, buf =>
      let (channel, buf) := pullBe16 buf
      let (channels, buf) := pullChannels n buf
      (channel :: channels, buf)

def checksumCalculated (buf : List UInt8) : UInt16 :=
  (buf.take 30).foldl (fun sum b => sum + b.toUInt16) 0

def parsePacket (buf : List UInt8) : Option (List UInt16) :=
  if buf.length ≠ 32 then none
  else
    let checksum := checksumCalculated buf
    let (magic, buf) := pullBe16 buf
    if magic ≠ 0x424D then none
    else
      let (length, buf) := pullBe16 buf
      if length ≠ 28 then none
      else
        let (channels, buf) := pullChannels 13 buf
        let (checksumReceived, _) := pullBe16 buf
        if checksumReceived ≠ checksum then none else some channels

/-!
## The sensor
-/

inductive UartEvent where
  | rxRdy (data : List UInt8)
  | rxStopped (reason : Int)
  | rxDisabled
  | other
deriving DecidableEq, Repr

inductive Call where
  | uartRxDisable
  | submitRxWork
  | startRx
  | parsePacket (buf : List UInt8)
  | schedulePublishCallback
deriving DecidableEq, Repr

structure Sensor where
  stopReason : Int
  rawMessage : List UInt8
  currentChannels : List UInt16
  initialized : Bool
  receiving : Bool
  rxWorkPending : Bool
  calls : List Call
deriving DecidableEq, Repr

namespace Sensor

def boot : Sensor where
  stopReason := 0
  rawMessage := []
  currentChannels := List.replicate 13 0
  initialized := false
  receiving := false
  rxWorkPending := false
  calls := []

def call (s : Sensor) (c : Call) : Sensor := { s with calls := s.calls ++ [c] }

def startRx (s : Sensor) (ret : Int) : Sensor :=
  { s.call .startRx with receiving := if ret = 0 then true else s.receiving }

def submitRxWork (s : Sensor) : Sensor :=
  { s.call .submitRxWork with rxWorkPending := true }

def rxWorkHandler (s : Sensor) (ret : Int) : Sensor :=
  let s := s.call (.parsePacket s.rawMessage)
  match parsePacket s.rawMessage with
  | none => s.startRx ret
  | some channels =>
      ({ s with currentChannels := channels }.call .schedulePublishCallback).startRx ret

def uartCallback (s : Sensor) (ret : Int) : UartEvent -> Sensor
  | .rxRdy data => { s with rawMessage := data }.call .uartRxDisable
  | .rxStopped reason => { s with stopReason := reason }
  | .rxDisabled => if s.stopReason = 0 then s.submitRxWork else s.startRx ret
  | .other => s

end Sensor

inductive SensorStep where
  /-- `main` starts reception; `ret` is the result of `uart_rx_enable`. -/
  | main (ret : Int)
  | event (e : UartEvent)
  | rxDisabled (ret : Int)
  | rxWork (ret : Int)
deriving DecidableEq, Repr

/-- There are events while reception is on; it goes off with `UART_RX_DISABLED`. -/
def sensorSystem : System Sensor SensorStep where
  init := Sensor.boot
  next s
    | .main ret =>
        if s.initialized then none else some ({ s with initialized := true }.startRx ret)
    | .event e =>
        if s.receiving ∧ e ≠ .rxDisabled then some (s.uartCallback 0 e) else none
    | .rxDisabled ret =>
        if s.receiving then some ({ s with receiving := false }.uartCallback ret .rxDisabled)
        else none
    | .rxWork ret =>
        if s.rxWorkPending then some ({ s with rxWorkPending := false }.rxWorkHandler ret)
        else none

/-!
## Histories
-/

def SensorStep.stopReason (r : Int) : SensorStep -> Int
  | .event (.rxStopped reason) => reason
  | _ => r

def lastReason (as : List SensorStep) : Int := as.foldl SensorStep.stopReason 0

theorem stopReason_next {s s' : Sensor} {a : SensorStep} (h : sensorSystem.next s a = some s') :
    s'.stopReason = a.stopReason s.stopReason := by
  cases a with
  | main ret =>
      rcases Option.ite_none_left_eq_some.mp h with ⟨_, h⟩
      cases h
      rfl
  | event e =>
      rcases Option.ite_none_right_eq_some.mp h with ⟨⟨_, hne⟩, h⟩
      cases h
      cases e with
      | rxDisabled => exact absurd rfl hne
      | rxRdy | rxStopped | other => rfl
  | rxDisabled ret =>
      rcases Option.ite_none_right_eq_some.mp h with ⟨_, h⟩
      cases h
      unfold Sensor.uartCallback
      by_cases hzero : s.stopReason = 0
      · rw [if_pos hzero]
        rfl
      · rw [if_neg hzero]
        rfl
  | rxWork ret =>
      rcases Option.ite_none_right_eq_some.mp h with ⟨_, h⟩
      cases h
      unfold Sensor.rxWorkHandler
      dsimp only
      split <;> rfl

theorem stopReason_steps {s t : Sensor} {as : List SensorStep}
    (h : sensorSystem.steps s as = some t) :
    t.stopReason = as.foldl SensorStep.stopReason s.stopReason := by
  induction as generalizing s with
  | nil =>
      cases h
      rfl
  | cons a as ih =>
      rcases Option.bind_eq_some_iff.mp h with ⟨s', hs', hrest⟩
      rw [ih hrest, stopReason_next hs']
      rfl

theorem lastReason_of_run {as : List SensorStep} {s : Sensor} (run : sensorSystem.Run as s) :
    s.stopReason = lastReason as :=
  stopReason_steps run.steps

/-!
## Sessions
-/

def SensorStep.StartsRx : SensorStep -> Prop
  | .main ret => ret = 0
  | .event _ => False
  | .rxDisabled ret => ret = 0
  | .rxWork ret => ret = 0

structure Session (as : List SensorStep) (s : Sensor) (es : List UartEvent) (t : Sensor) :
    Prop where
  run : sensorSystem.Run as s
  started : exists before a, as = before ++ [a] ∧ a.StartsRx
  events : sensorSystem.steps s (es.map .event) = some t

def UartEvent.packet : UartEvent -> Option (List UInt8)
  | .rxRdy data => some data
  | _ => none

def lastPacket (es : List UartEvent) : Option (List UInt8) :=
  (es.filterMap UartEvent.packet).getLast?

theorem lastPacket_cons (e : UartEvent) (es : List UartEvent) :
    lastPacket (e :: es) = (lastPacket es).or e.packet := by
  unfold lastPacket
  cases hpacket : e.packet with
  | none => rw [List.filterMap_cons_none hpacket, Option.or_none]
  | some data =>
      rw [List.filterMap_cons_some hpacket, List.getLast?_cons]
      cases (es.filterMap UartEvent.packet).getLast? <;> rfl

theorem exists_lastPacket {es : List UartEvent} {data : List UInt8} (h : .rxRdy data ∈ es) :
    exists packet, lastPacket es = some packet := by
  apply Option.isSome_iff_exists.mp
  exact List.getLast?_isSome.mpr (List.ne_nil_of_mem (List.mem_filterMap.mpr ⟨_, h, rfl⟩))

theorem rawMessage_steps {s t : Sensor} {es : List UartEvent}
    (h : sensorSystem.steps s (es.map .event) = some t) :
    t.rawMessage = (lastPacket es).getD s.rawMessage := by
  induction es generalizing s with
  | nil =>
      cases h
      rfl
  | cons e es ih =>
      rcases Option.bind_eq_some_iff.mp h with ⟨s', hs', hrest⟩
      rcases Option.ite_none_right_eq_some.mp hs' with ⟨⟨_, hne⟩, hs'⟩
      cases hs'
      rw [ih hrest, lastPacket_cons]
      cases lastPacket es with
      | some packet => rfl
      | none =>
          cases e with
          | rxDisabled => exact absurd rfl hne
          | rxRdy | rxStopped | other => rfl

theorem foldl_stopReason_of_not_mem {es : List UartEvent} (h : forall r, .rxStopped r ∉ es)
    (r : Int) : (es.map SensorStep.event).foldl SensorStep.stopReason r = r := by
  induction es generalizing r with
  | nil => rfl
  | cons e es ih =>
      have hes : forall r, .rxStopped r ∉ es := fun r hr => h r (List.mem_cons_of_mem e hr)
      cases e with
      | rxStopped reason => exact absurd List.mem_cons_self (h reason)
      | rxRdy | rxDisabled | other => exact ih hes r

theorem foldl_stopReason_of_mem {es : List UartEvent} {reason : Int}
    (h : .rxStopped reason ∈ es) (r : Int) :
    (es.map SensorStep.event).foldl SensorStep.stopReason r = lastReason (es.map .event) := by
  unfold lastReason
  induction es generalizing r with
  | nil => cases h
  | cons e es ih =>
      cases e with
      | rxStopped reason' => rfl
      | rxRdy | rxDisabled | other =>
          have hes : .rxStopped reason ∈ es := by
            rcases List.mem_cons.mp h with heq | hes
            · cases heq
            · exact hes
          exact ih hes r

/-!
## What a session ends with
-/

def Parses (t t' : Sensor) (packet : List UInt8) : Prop :=
  t'.calls = t.calls ++ [.submitRxWork] ∧
    forall ret, exists u rest, sensorSystem.next t' (.rxWork ret) = some u ∧
      u.calls = t'.calls ++ .parsePacket packet :: rest ∧
      u.currentChannels = (parsePacket packet).getD t'.currentChannels

/-- Reception is started again, and nothing else happens. -/
def Restarts (t t' : Sensor) : Prop := t'.calls = t.calls ++ [.startRx]

/--
A session with a packet and without an error has its packet parsed, and a
session with an error only starts reception again.
-/
def Answered (es : List UartEvent) (t t' : Sensor) : Prop :=
  (forall packet, lastPacket es = some packet -> (forall r, .rxStopped r ∉ es) ->
    Parses t t' packet) ∧
  ((exists r, r ≠ 0 ∧ .rxStopped r ∈ es) -> Restarts t t')

theorem rxWorkHandler_parses (s : Sensor) (ret : Int) :
    exists rest, (s.rxWorkHandler ret).calls = s.calls ++ .parsePacket s.rawMessage :: rest ∧
      (s.rxWorkHandler ret).currentChannels =
        (parsePacket s.rawMessage).getD s.currentChannels := by
  have hraw : (s.call (.parsePacket s.rawMessage)).rawMessage = s.rawMessage := rfl
  unfold Sensor.rxWorkHandler
  dsimp only
  rw [hraw]
  cases parsePacket s.rawMessage with
  | none =>
      refine ⟨[.startRx], ?_, rfl⟩
      change s.calls ++ [_] ++ [_] = _
      rw [List.append_assoc]
      rfl
  | some channels =>
      refine ⟨[.schedulePublishCallback, .startRx], ?_, rfl⟩
      change s.calls ++ [_] ++ [_] ++ [_] = _
      rw [List.append_assoc, List.append_assoc]
      rfl

theorem rxDisabled_cases {t t' : Sensor} {ret : Int}
    (h : sensorSystem.next t (.rxDisabled ret) = some t') :
    (t.stopReason = 0 ∧ t' = { t with receiving := false }.submitRxWork) ∨
      (t.stopReason ≠ 0 ∧ t' = { t with receiving := false }.startRx ret) := by
  rcases Option.ite_none_right_eq_some.mp h with ⟨_, h⟩
  cases h
  unfold Sensor.uartCallback
  by_cases hzero : t.stopReason = 0
  · left
    exact ⟨hzero, if_pos hzero⟩
  · right
    exact ⟨hzero, if_neg hzero⟩

theorem parses_iff {t t' : Sensor} {ret : Int} {packet : List UInt8}
    (h : sensorSystem.next t (.rxDisabled ret) = some t') (hpacket : t.rawMessage = packet) :
    Parses t t' packet <-> t.stopReason = 0 := by
  rcases rxDisabled_cases h with ⟨hzero, ht'⟩ | ⟨hne, ht'⟩
  · subst ht'
    constructor
    · intro _
      exact hzero
    · intro _
      refine ⟨rfl, ?_⟩
      intro ret'
      rcases rxWorkHandler_parses { t.submitRxWork with receiving := false, rxWorkPending := false }
        ret' with ⟨rest, hcalls, hchannels⟩
      subst hpacket
      exact ⟨_, rest, rfl, hcalls, hchannels⟩
  · subst ht'
    constructor
    · rintro ⟨hcalls, _⟩
      have hlast := List.append_cancel_left hcalls
      cases hlast
    · intro hzero
      exact absurd hzero hne

theorem restarts_iff {t t' : Sensor} {ret : Int}
    (h : sensorSystem.next t (.rxDisabled ret) = some t') :
    Restarts t t' <-> t.stopReason ≠ 0 := by
  rcases rxDisabled_cases h with ⟨hzero, ht'⟩ | ⟨hne, ht'⟩
  · subst ht'
    constructor
    · intro hcalls
      have hlast := List.append_cancel_left hcalls
      cases hlast
    · intro hne
      exact absurd hzero hne
  · subst ht'
    constructor
    · intro _
      exact hne
    · intro _
      rfl

/--
A session is answered as it should be if and only if no earlier session has left
an error behind, and no `UART_RX_STOPPED` without an error follows one with
an error.
-/
theorem session_answered_iff {as : List SensorStep} {es : List UartEvent} {s t t' : Sensor}
    {ret : Int} (h : Session as s es t)
    (hdisabled : sensorSystem.next t (.rxDisabled ret) = some t') :
    Answered es t t' <->
      ((exists data, .rxRdy data ∈ es) -> (forall r, .rxStopped r ∉ es) -> lastReason as = 0) ∧
      ((exists r, r ≠ 0 ∧ .rxStopped r ∈ es) -> lastReason (es.map .event) ≠ 0) := by
  have hreason := stopReason_steps h.events
  rw [lastReason_of_run h.run] at hreason
  have hraw := rawMessage_steps h.events
  constructor
  · rintro ⟨hparses, hrestarts⟩
    constructor
    · rintro ⟨data, hdata⟩ hnone
      rcases exists_lastPacket hdata with ⟨packet, hpacket⟩
      rw [hpacket] at hraw
      have hzero := (parses_iff hdisabled hraw).mp (hparses packet hpacket hnone)
      rw [← hzero, hreason, foldl_stopReason_of_not_mem hnone]
    · rintro ⟨r, hr, hmem⟩
      have hne := (restarts_iff hdisabled).mp (hrestarts ⟨r, hr, hmem⟩)
      rw [hreason, foldl_stopReason_of_mem hmem] at hne
      exact hne
  · rintro ⟨hclean, hlast⟩
    constructor
    · intro packet hpacket hnone
      rw [hpacket] at hraw
      apply (parses_iff hdisabled hraw).mpr
      rw [hreason, foldl_stopReason_of_not_mem hnone]
      apply hclean _ hnone
      rcases List.mem_filterMap.mp (List.mem_of_getLast? hpacket) with ⟨e, he, hdata⟩
      cases e with
      | rxRdy data => exact ⟨data, he⟩
      | rxStopped | rxDisabled | other => cases hdata
    · rintro ⟨r, hr, hmem⟩
      apply (restarts_iff hdisabled).mpr
      rw [hreason, foldl_stopReason_of_mem hmem]
      exact hlast ⟨r, hr, hmem⟩

def goodPacket : List UInt8 :=
  [0x42, 0x4D, 0, 28, 0, 1, 0, 2, 0, 3, 0, 4, 0, 5, 0, 6, 0, 7, 0, 8, 0, 9, 0, 10, 0, 11, 0, 12,
    0, 13, 1, 6]

/-- A packet in the first session is parsed. -/
theorem session_answered_iff_first :
    exists t t', Session [.main 0] ({ Sensor.boot with initialized := true }.startRx 0)
      [.rxRdy goodPacket] t ∧ Parses t t' goodPacket ∧
      parsePacket goodPacket = some [1, 2, 3, 4, 5, 6, 7, 8, 9, 10, 11, 12, 13] := by
  have hsession : Session [.main 0] ({ Sensor.boot with initialized := true }.startRx 0)
      [.rxRdy goodPacket] _ :=
    ⟨System.run_of_steps rfl, ⟨[], .main 0, rfl, rfl⟩, rfl⟩
  have hanswered := (session_answered_iff hsession (show sensorSystem.next _ (.rxDisabled 0) =
    some _ from rfl)).mpr ⟨fun _ _ => rfl, fun h => by simp at h⟩
  exact ⟨_, _, hsession, hanswered.1 goodPacket rfl (by simp), by decide⟩

/-- A line error in one session; the packet of the next session is thrown away. -/
theorem session_not_answered :
    ¬ forall (as : List SensorStep) (es : List UartEvent) (s t t' : Sensor) (ret : Int),
      Session as s es t -> sensorSystem.next t (.rxDisabled ret) = some t' ->
      Answered es t t' := by
  intro h
  have hrun : sensorSystem.Run [.main 0, .event (.rxStopped 1), .rxDisabled 0] _ :=
    System.run_of_steps rfl
  have hsession : Session [.main 0, .event (.rxStopped 1), .rxDisabled 0] _
      [.rxRdy goodPacket] _ :=
    ⟨hrun, ⟨[.main 0, .event (.rxStopped 1)], .rxDisabled 0, rfl, rfl⟩, rfl⟩
  have hanswered := h _ _ _ _ _ 0 hsession rfl
  have hparses := hanswered.1 goodPacket rfl (by simp)
  exact absurd hparses.1 (by decide)

end Pms5003
end Firmware
end Smartmeter
