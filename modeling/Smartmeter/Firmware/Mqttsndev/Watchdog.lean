import Smartmeter.Foundation.System

/-!
# The network and the watchdog

Network events start the MQTT thread and the work item that feeds the watchdog.
The work item schedules itself again as long as the network is connected; when it
is not, the item is left to the next event.  Events are handled in a thread of
their own, which may be interrupted by the work queue at any point.
-/

namespace Smartmeter
namespace Firmware
namespace Mqttsndev

open Foundation

/-!
## Handlers
-/

inductive NetEvent where
  | connected
  | disconnected
  | other
deriving DecidableEq, Repr

inductive NetHandler where
  | idle
  | start
  | reschedule
deriving DecidableEq, Repr

inductive WatchdogHandler where
  | idle
  | test
  | feed
  | submit
deriving DecidableEq, Repr

structure Device where
  connected : Bool
  started : Bool
  threads : Nat
  scheduled : Bool
  queued : Bool
  net : NetHandler
  watchdog : WatchdogHandler
deriving DecidableEq, Repr

inductive NetStep where
  | event (e : NetEvent)
  | startThread
  | reschedule
  | timeout
  | work
  | test
  | feed (ret : Int)
  | submit
deriving DecidableEq, Repr

namespace Device

def submitWatchdogWork (d : Device) : Device :=
  if d.scheduled || d.queued then d else { d with scheduled := true }

def netEventHandler (d : Device) : NetEvent -> Device
  | .connected => { d with connected := true, net := .start }
  | .disconnected => { d with connected := false }
  | .other => d

def startThread (d : Device) : Device :=
  if d.started then { d with net := .reschedule }
  else { d with started := true, threads := d.threads + 1, net := .reschedule }

def next (d : Device) : NetStep -> Option Device
  | .event e => if d.net = .idle then some (d.netEventHandler e) else none
  | .startThread => if d.net = .start then some d.startThread else none
  | .reschedule =>
      -- Without a delay the item is queued at once, also while its handler runs.
      if d.net = .reschedule then some { d with scheduled := false, queued := true, net := .idle }
      else none
  | .timeout => if d.scheduled then some { d with scheduled := false, queued := true } else none
  | .work =>
      if d.queued ∧ d.watchdog = .idle then some { d with queued := false, watchdog := .test }
      else none
  | .test =>
      if d.watchdog = .test then
        some { d with watchdog := if d.connected then .feed else .idle }
      else none
  | .feed _ => if d.watchdog = .feed then some { d with watchdog := .submit } else none
  | .submit =>
      if d.watchdog = .submit then some { d.submitWatchdogWork with watchdog := .idle } else none

end Device

/-- Behind `watchdog_init`, which schedules the work when the watchdog could be set up. -/
def netSystem (scheduled : Bool) : System Device NetStep where
  init :=
    { connected := false
      started := false
      threads := 0
      scheduled := scheduled
      queued := false
      net := .idle
      watchdog := .idle }
  next := Device.next

/-!
## While the network is connected
-/

structure Device.Kept (d : Device) : Prop where
  threads : d.threads = if d.started then 1 else 0
  started : d.connected = true -> d.net ≠ .start -> d.started = true
  alive : d.connected = true -> d.net = .idle ->
    d.scheduled = true ∨ d.queued = true ∨ d.watchdog ≠ .idle

namespace Device.Kept

theorem event {d : Device} (h : d.Kept) (e : NetEvent) : (d.netEventHandler e).Kept := by
  cases e with
  | connected =>
      constructor
      · exact h.threads
      · intro _ hnet
        exact absurd rfl hnet
      · intro _ hnet
        cases hnet
  | disconnected =>
      constructor
      · exact h.threads
      · intro hconnected
        cases hconnected
      · intro hconnected
        cases hconnected
  | other => exact h

theorem startThread {d : Device} (h : d.Kept) : d.startThread.Kept := by
  unfold Device.startThread
  cases hstarted : d.started with
  | false =>
      have hthreads := h.threads
      rw [hstarted] at hthreads
      constructor
      · show d.threads + 1 = 1
        rw [hthreads]
        rfl
      · intro _ _
        rfl
      · intro _ hnet
        cases hnet
  | true =>
      have hthreads := h.threads
      rw [hstarted] at hthreads
      constructor
      · exact hthreads
      · intro _ _
        rfl
      · intro _ hnet
        cases hnet

theorem work {d d' : Device} (h : d.Kept) (hconnected : d'.connected = d.connected)
    (hstarted : d'.started = d.started) (hthreads : d'.threads = d.threads)
    (hnet : d'.net = d.net)
    (halive : d.connected = true -> d'.scheduled = true ∨ d'.queued = true ∨ d'.watchdog ≠ .idle) :
    d'.Kept := by
  constructor
  · rw [hthreads, hstarted]
    exact h.threads
  · rw [hconnected, hstarted, hnet]
    exact h.started
  · rw [hconnected]
    intro htrue _
    exact halive htrue

theorem submit {d : Device} (h : d.Kept) :
    Device.Kept { d.submitWatchdogWork with watchdog := .idle } := by
  unfold Device.submitWatchdogWork
  split <;> rename_i hwaiting
  · rcases (Bool.or_eq_true _ _).mp hwaiting with hscheduled | hqueued
    · exact h.work rfl rfl rfl rfl fun _ => .inl hscheduled
    · exact h.work rfl rfl rfl rfl fun _ => .inr (.inl hqueued)
  · exact h.work rfl rfl rfl rfl fun _ => .inl rfl

theorem next {d d' : Device} {a : NetStep} (h : d.Kept) (hnext : d.next a = some d') :
    d'.Kept := by
  cases a with
  | event e =>
      rcases Option.ite_none_right_eq_some.mp hnext with ⟨_, hnext⟩
      cases hnext
      exact h.event e
  | startThread =>
      rcases Option.ite_none_right_eq_some.mp hnext with ⟨_, hnext⟩
      cases hnext
      exact h.startThread
  | reschedule =>
      rcases Option.ite_none_right_eq_some.mp hnext with ⟨hnet, hnext⟩
      cases hnext
      constructor
      · exact h.threads
      · intro hconnected _
        apply h.started hconnected
        rw [hnet]
        exact NetHandler.noConfusion
      · intro _ _
        right
        left
        rfl
  | timeout =>
      rcases Option.ite_none_right_eq_some.mp hnext with ⟨_, hnext⟩
      cases hnext
      exact h.work rfl rfl rfl rfl fun _ => .inr (.inl rfl)
  | work =>
      rcases Option.ite_none_right_eq_some.mp hnext with ⟨_, hnext⟩
      cases hnext
      exact h.work rfl rfl rfl rfl fun _ => .inr (.inr WatchdogHandler.noConfusion)
  | test =>
      rcases Option.ite_none_right_eq_some.mp hnext with ⟨_, hnext⟩
      cases hnext
      have halive : d.connected = true ->
          (if d.connected = true then WatchdogHandler.feed else .idle) ≠ .idle := by
        intro hconnected
        rw [if_pos hconnected]
        exact WatchdogHandler.noConfusion
      exact h.work rfl rfl rfl rfl fun hconnected => .inr (.inr (halive hconnected))
  | feed ret =>
      rcases Option.ite_none_right_eq_some.mp hnext with ⟨_, hnext⟩
      cases hnext
      exact h.work rfl rfl rfl rfl fun _ => .inr (.inr WatchdogHandler.noConfusion)
  | submit =>
      rcases Option.ite_none_right_eq_some.mp hnext with ⟨_, hnext⟩
      cases hnext
      exact h.submit

end Device.Kept

theorem kept_of_run {scheduled : Bool} {as : List NetStep} {d : Device}
    (run : (netSystem scheduled).Run as d) : d.Kept := by
  apply run.invariant (I := fun _ d => d.Kept)
  · constructor
    · rfl
    · intro hconnected
      cases hconnected
    · intro hconnected
      cases hconnected
  · intro as a d d' _ hkept hnext
    exact hkept.next hnext

/-!
## The next feeding
-/

def NetStep.OfWork : NetStep -> Prop
  | .timeout | .work | .test | .feed _ | .submit => True
  | .event _ | .startThread | .reschedule => False

/-- The timer and the work queue come to feed the watchdog in so many steps. -/
def Feeds (scheduled : Bool) (n : Nat) (d : Device) : Prop :=
  exists as d' ret, as.length ≤ n ∧ (forall a, a ∈ as -> a.OfWork) ∧
    as.getLast? = some (.feed ret) ∧ (netSystem scheduled).steps d as = some d'

namespace Feeds

variable {scheduled : Bool} {n : Nat}

theorem mono {m : Nat} {d : Device} (h : Feeds scheduled m d) (hle : m ≤ n) :
    Feeds scheduled n d := by
  rcases h with ⟨as, d', ret, hlength, hwork, hlast, hsteps⟩
  exact ⟨as, d', ret, Nat.le_trans hlength hle, hwork, hlast, hsteps⟩

theorem cons {d d' : Device} {a : NetStep} (hnext : d.next a = some d') (hwork : a.OfWork)
    (h : Feeds scheduled n d') : Feeds scheduled (n + 1) d := by
  rcases h with ⟨as, t, ret, hlength, hall, hlast, hsteps⟩
  exists a :: as, t, ret
  constructor
  · exact Nat.succ_le_succ hlength
  · constructor
    · rw [List.forall_mem_cons]
      exact ⟨hwork, hall⟩
    · constructor
      · rw [List.getLast?_cons, hlast]
        rfl
      · unfold System.steps
        have hstep : (netSystem scheduled).next d a = some d' := hnext
        rw [hstep, Option.bind_some]
        exact hsteps

theorem feed {d : Device} (h : d.watchdog = .feed) : Feeds scheduled 1 d := by
  exists [.feed 0], { d with watchdog := .submit }, 0
  constructor
  · exact Nat.le_refl 1
  · constructor
    · rw [List.forall_mem_singleton]
      exact trivial
    · constructor
      · rfl
      · rw [System.steps_singleton]
        exact if_pos h

theorem test {d : Device} (hconnected : d.connected = true) (h : d.watchdog = .test) :
    Feeds scheduled 2 d := by
  apply cons (a := .test) (if_pos h) trivial
  apply feed
  exact if_pos hconnected

theorem queued {d : Device} (hconnected : d.connected = true) (hidle : d.watchdog = .idle)
    (h : d.queued = true) : Feeds scheduled 3 d := by
  apply cons (a := .work) (if_pos ⟨h, hidle⟩) trivial
  exact test hconnected rfl

theorem waiting {d : Device} (hconnected : d.connected = true) (hidle : d.watchdog = .idle)
    (h : d.scheduled = true ∨ d.queued = true) : Feeds scheduled 4 d := by
  rcases h with hscheduled | hqueued
  · apply cons (a := .timeout) (if_pos hscheduled) trivial
    exact queued hconnected hidle rfl
  · exact (queued hconnected hidle hqueued).mono (Nat.le_succ 3)

theorem submit {d : Device} (hconnected : d.connected = true) (h : d.watchdog = .submit) :
    Feeds scheduled 5 d := by
  apply cons (a := .submit) (if_pos h) trivial
  unfold Device.submitWatchdogWork
  split <;> rename_i hwaiting
  · exact waiting hconnected rfl ((Bool.or_eq_true _ _).mp hwaiting)
  · exact waiting hconnected rfl (.inl rfl)

theorem of_connected {d : Device} (hconnected : d.connected = true)
    (h : d.scheduled = true ∨ d.queued = true ∨ d.watchdog ≠ .idle) : Feeds scheduled 5 d := by
  cases hwatchdog : d.watchdog with
  | idle =>
      rw [← or_assoc] at h
      have hwaiting := h.resolve_right (not_not_intro hwatchdog)
      exact (waiting hconnected hwatchdog hwaiting).mono (Nat.le_succ 4)
  | test => exact (test hconnected hwatchdog).mono (by lia)
  | feed => exact (feed hwatchdog).mono (by lia)
  | submit => exact submit hconnected hwatchdog

end Feeds

/--
The MQTT thread is started at most once, and it is started when the network is
connected.  As long as it is connected, the timer and the work queue come to feed
the watchdog.
-/
theorem watchdog_kept {scheduled : Bool} {as : List NetStep} {d : Device}
    (run : (netSystem scheduled).Run as d) :
    d.threads ≤ 1 ∧
      (d.connected = true -> d.net = .idle -> d.threads = 1 ∧ Feeds scheduled 5 d) := by
  have hkept := kept_of_run run
  have hthreads := hkept.threads
  constructor
  · rw [hthreads]
    split <;> lia
  · intro hconnected hnet
    constructor
    · have hstarted : d.started = true := by
        apply hkept.started hconnected
        rw [hnet]
        exact NetHandler.noConfusion
      rw [hthreads, if_pos hstarted]
    · exact .of_connected hconnected (hkept.alive hconnected hnet)

/-- The network is connected while the work item is being handled for the first time. -/
theorem watchdog_kept_connected :
    exists d, (netSystem true).Run
        [.timeout, .work, .test, .event .connected, .startThread, .reschedule] d ∧
      d.threads = 1 ∧ Feeds true 5 d := by
  have hrun : (netSystem true).Run
      [.timeout, .work, .test, .event .connected, .startThread, .reschedule] _ :=
    System.run_of_steps rfl
  exact ⟨_, hrun, (watchdog_kept hrun).2 rfl rfl⟩

/-!
## While it is not connected
-/

def NetStep.isFeed : NetStep -> Bool
  | .feed _ => true
  | _ => false

/-- The network is not connected, and no event is being handled. -/
structure Apart (d : Device) : Prop where
  connected : d.connected = false
  net : d.net = .idle

/-- The handler has seen the network connected and feeds the watchdog next. -/
def Device.due (d : Device) : Nat := if d.watchdog = .feed then 1 else 0

namespace Apart

theorem next {d d' : Device} {a : NetStep} (h : Apart d) (hne : a ≠ .event .connected)
    (hnext : d.next a = some d') :
    Apart d' ∧ [a].countP NetStep.isFeed + d'.due ≤ d.due := by
  have hzero := Nat.zero_le d.due
  cases a with
  | event e =>
      rcases Option.ite_none_right_eq_some.mp hnext with ⟨_, hnext⟩
      cases hnext
      cases e with
      | connected => exact absurd rfl hne
      | disconnected => exact ⟨⟨rfl, h.net⟩, Nat.le_of_eq (Nat.zero_add _)⟩
      | other => exact ⟨h, Nat.le_of_eq (Nat.zero_add _)⟩
  | startThread =>
      rcases Option.ite_none_right_eq_some.mp hnext with ⟨hstart, _⟩
      rw [h.net] at hstart
      cases hstart
  | reschedule =>
      rcases Option.ite_none_right_eq_some.mp hnext with ⟨hreschedule, _⟩
      rw [h.net] at hreschedule
      cases hreschedule
  | timeout =>
      rcases Option.ite_none_right_eq_some.mp hnext with ⟨_, hnext⟩
      cases hnext
      exact ⟨⟨h.connected, h.net⟩, Nat.le_of_eq (Nat.zero_add _)⟩
  | work =>
      rcases Option.ite_none_right_eq_some.mp hnext with ⟨_, hnext⟩
      cases hnext
      exact ⟨⟨h.connected, h.net⟩, hzero⟩
  | test =>
      rcases Option.ite_none_right_eq_some.mp hnext with ⟨_, hnext⟩
      cases hnext
      constructor
      · exact ⟨h.connected, h.net⟩
      · unfold Device.due
        rw [h.connected]
        exact hzero
  | feed ret =>
      rcases Option.ite_none_right_eq_some.mp hnext with ⟨hfeed, hnext⟩
      cases hnext
      constructor
      · exact ⟨h.connected, h.net⟩
      · unfold Device.due
        rw [if_pos hfeed]
        exact Nat.le_refl 1
  | submit =>
      rcases Option.ite_none_right_eq_some.mp hnext with ⟨_, hnext⟩
      cases hnext
      unfold Device.submitWatchdogWork
      split
      · exact ⟨⟨h.connected, h.net⟩, hzero⟩
      · exact ⟨⟨h.connected, h.net⟩, hzero⟩

theorem steps {scheduled : Bool} {d d' : Device} {as : List NetStep} (h : Apart d)
    (hne : .event .connected ∉ as) (hsteps : (netSystem scheduled).steps d as = some d') :
    as.countP NetStep.isFeed ≤ d.due := by
  induction as generalizing d with
  | nil => exact Nat.zero_le _
  | cons a as ih =>
      rw [List.mem_cons, not_or] at hne
      rcases Option.bind_eq_some_iff.mp hsteps with ⟨t, hnext, hrest⟩
      rcases h.next (Ne.symm hne.1) hnext with ⟨happart, hdue⟩
      have hcount := ih happart hne.2 hrest
      calc
        (a :: as).countP NetStep.isFeed = [a].countP NetStep.isFeed + as.countP NetStep.isFeed := by
          rw [← List.singleton_append, List.countP_append]
        _ ≤ [a].countP NetStep.isFeed + t.due := Nat.add_le_add_left hcount _
        _ ≤ d.due := hdue

end Apart

/--
Behind an event that tells of a lost connection the watchdog is fed at most
once until the network is connected again.
-/
theorem feeds_after_disconnected {scheduled : Bool} {before after : List NetStep} {d : Device}
    (run : (netSystem scheduled).Run (before ++ .event .disconnected :: after) d)
    (hne : .event .connected ∉ after) : after.countP NetStep.isFeed ≤ 1 := by
  have hsteps := run.steps
  rw [System.steps_append] at hsteps
  rcases Option.bind_eq_some_iff.mp hsteps with ⟨s, _, hrest⟩
  rcases Option.bind_eq_some_iff.mp hrest with ⟨t, hnext, hafter⟩
  rcases Option.ite_none_right_eq_some.mp hnext with ⟨hidle, hnext⟩
  cases hnext
  have happart : Apart (s.netEventHandler .disconnected) := ⟨rfl, hidle⟩
  have hcount := happart.steps hne hafter
  have hdue : (s.netEventHandler .disconnected).due ≤ 1 := by
    unfold Device.due
    split <;> lia
  exact Nat.le_trans hcount hdue

/-- The connection is lost between the test and the feeding. -/
theorem feeds_after_disconnected_between :
    [NetStep.feed 0, .submit, .timeout, .work, .test].countP NetStep.isFeed ≤ 1 := by
  have hrun : (netSystem true).Run
      ([.event .connected, .startThread, .reschedule, .work, .test] ++ .event .disconnected ::
        [.feed 0, .submit, .timeout, .work, .test]) _ := System.run_of_steps rfl
  exact feeds_after_disconnected hrun (by decide)

end Mqttsndev
end Firmware
end Smartmeter
