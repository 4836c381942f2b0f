import Smartmeter.Foundation.System

/-!
# The receiver of the power meter

A work item enables reception with a buffer from a slab.  It is scheduled when
the application starts, when it fails, and when the driver reports that it has
stopped.  The driver asks for further buffers and may disable reception when it
gets none.
-/

namespace Smartmeter
namespace Firmware
namespace Powermeter

open Foundation

inductive UartEvent where
  | rxBufRequest
  | rxBufReleased
  | rxRdy
  | rxDisabled
  | rxStopped
  | other
deriving DecidableEq, Repr

inductive StartrxHandler where
  | idle
  | allocating
  | enabling
deriving DecidableEq, Repr

structure Receiver where
  receiving : Bool
  scheduled : Bool
  handler : StartrxHandler
  /-- The blocks of `uart_async_rx_slab` that are free. -/
  free : Nat
deriving DecidableEq, Repr

namespace Receiver

def setup (buffers : Nat) : Receiver where
  receiving := false
  scheduled := true
  handler := .idle
  free := buffers

def scheduleStartrxWork (r : Receiver) : Receiver := { r with scheduled := true }

def uartAsyncCallback (r : Receiver) : UartEvent -> Receiver
  -- without a free block the driver gets no buffer
  | .rxBufRequest => { r with free := r.free - 1 }
  | .rxBufReleased => { r with free := r.free + 1 }
  | .rxStopped => r.scheduleStartrxWork
  | .rxRdy => r
  | .rxDisabled => r
  | .other => r

/-- The end of `startrx_work_handler`, given the result of `uart_rx_enable`. -/
def uartRxEnable (r : Receiver) (ret : Int) : Receiver :=
  if ret < 0 then { r with handler := .idle, free := r.free + 1 }.scheduleStartrxWork
  else { r with handler := .idle, receiving := true }

end Receiver

inductive ReceiverStep where
  | event (e : UartEvent)
  | startWork
  | memSlabAlloc
  | uartRxEnable (ret : Int)
deriving DecidableEq, Repr

/--
Reception goes off with `UART_RX_DISABLED`, and only blocks that are in use
are released; otherwise the events come at any time.
-/
def receiverSystem (buffers : Nat) : System Receiver ReceiverStep where
  init := Receiver.setup buffers
  next r
    | .event .rxDisabled =>
        if r.receiving then some ({ r with receiving := false }.uartAsyncCallback .rxDisabled)
        else none
    | .event .rxBufReleased =>
        if r.free < buffers then some (r.uartAsyncCallback .rxBufReleased) else none
    | .event e => some (r.uartAsyncCallback e)
    | .startWork =>
        if r.scheduled ∧ r.handler = .idle then
          some { r with scheduled := false, handler := .allocating }
        else none
    | .memSlabAlloc =>
        if r.handler = .allocating ∧ 0 < r.free then
          some { r with handler := .enabling, free := r.free - 1 }
        else none
    | .uartRxEnable ret =>
        if r.handler = .enabling then some (r.uartRxEnable ret) else none

inductive Receiver.Moves (r : Receiver) : ReceiverStep -> Receiver -> Prop where
  | disabled (on : r.receiving = true) :
      Moves r (.event .rxDisabled) { r with receiving := false }
  | stopped : Moves r (.event .rxStopped) { r with scheduled := true }
  | buffer {e : UartEvent} (hdisabled : e ≠ .rxDisabled) (hstopped : e ≠ .rxStopped)
      (free : Nat) : Moves r (.event e) { r with free := free }
  | started (hscheduled : r.scheduled = true) (hidle : r.handler = .idle) :
      Moves r .startWork { r with scheduled := false, handler := .allocating }
  | allocated (hhandler : r.handler = .allocating) (free : Nat) :
      Moves r .memSlabAlloc { r with handler := .enabling, free := free }
  | failed {ret : Int} (hhandler : r.handler = .enabling) (hret : ret < 0) (free : Nat) :
      Moves r (.uartRxEnable ret)
        { r with handler := .idle, scheduled := true, free := free }
  | enabled {ret : Int} (hhandler : r.handler = .enabling) (hret : 0 ≤ ret) :
      Moves r (.uartRxEnable ret) { r with handler := .idle, receiving := true }

theorem moves_of_next {buffers : Nat} {r r' : Receiver} {a : ReceiverStep}
    (h : (receiverSystem buffers).next r a = some r') : r.Moves a r' := by
  cases a with
  | event e =>
      cases e with
      | rxDisabled =>
          rcases Option.ite_none_right_eq_some.mp h with ⟨hon, h⟩
          cases h
          exact .disabled hon
      | rxStopped =>
          cases h
          exact .stopped
      | rxBufReleased =>
          rcases Option.ite_none_right_eq_some.mp h with ⟨_, h⟩
          cases h
          exact .buffer (by decide) (by decide) _
      | rxBufRequest =>
          cases h
          exact .buffer (by decide) (by decide) _
      | rxRdy =>
          cases h
          exact .buffer (by decide) (by decide) r.free
      | other =>
          cases h
          exact .buffer (by decide) (by decide) r.free
  | startWork =>
      rcases Option.ite_none_right_eq_some.mp h with ⟨⟨hscheduled, hidle⟩, h⟩
      cases h
      exact .started hscheduled hidle
  | memSlabAlloc =>
      rcases Option.ite_none_right_eq_some.mp h with ⟨⟨hhandler, _⟩, h⟩
      cases h
      exact .allocated hhandler _
  | uartRxEnable ret =>
      rcases Option.ite_none_right_eq_some.mp h with ⟨hhandler, h⟩
      injection h with h
      subst h
      unfold Receiver.uartRxEnable
      by_cases hret : ret < 0
      · rw [if_pos hret]
        exact .failed hhandler hret _
      · rw [if_neg hret]
        exact .enabled hhandler (Int.not_lt.mp hret)

/-!
## Histories
-/

def sinceStart (as : List ReceiverStep) : List ReceiverStep :=
  as.foldl (fun recent a => if a = .startWork then [] else recent ++ [a]) []

theorem sinceStart_startWork (as : List ReceiverStep) :
    sinceStart (as ++ [.startWork]) = [] := by
  unfold sinceStart
  rw [List.foldl_append]
  rfl

theorem sinceStart_snoc (as : List ReceiverStep) {a : ReceiverStep} (h : a ≠ .startWork) :
    sinceStart (as ++ [a]) = sinceStart as ++ [a] := by
  unfold sinceStart
  rw [List.foldl_append]
  exact if_neg h

/-- The handler has enabled reception, and the driver has not reported anything since it started. -/
def Unannounced (as : List ReceiverStep) : Prop :=
  (exists ret, 0 ≤ ret ∧ .uartRxEnable ret ∈ sinceStart as) ∧
    .event .rxStopped ∉ sinceStart as

/-- Reception goes off only when `UART_RX_STOPPED` has arrived or the handler is not done. -/
def Announced (as : List ReceiverStep) (_ : Receiver) : ReceiverStep -> Prop
  | .event .rxDisabled => ¬ Unannounced as
  | _ => True

def Receiver.Alive (r : Receiver) : Prop :=
  r.receiving = false -> r.scheduled = true ∨ r.handler ≠ .idle

structure Told (as : List ReceiverStep) (r : Receiver) : Prop where
  running : r.handler ≠ .idle -> (forall ret, .uartRxEnable ret ∉ sinceStart as) ∧
    (r.scheduled = true <-> .event .rxStopped ∈ sinceStart as)
  idle : r.handler = .idle -> (r.scheduled = false <-> Unannounced as)

namespace Told

theorem setup (buffers : Nat) : Told [] (Receiver.setup buffers) where
  running h := absurd rfl h
  idle _ := by
    constructor
    · intro h
      cases h
    · rintro ⟨⟨ret, _, hmem⟩, _⟩
      cases hmem

theorem move {as : List ReceiverStep} {r r' : Receiver} {a : ReceiverStep} (h : Told as r)
    (hstart : a ≠ .startWork) (hstopped : a ≠ .event .rxStopped)
    (henable : forall ret, a ≠ .uartRxEnable ret) (hscheduled : r'.scheduled = r.scheduled)
    (hidle : r'.handler = .idle <-> r.handler = .idle) : Told (as ++ [a]) r' := by
  have hmem : forall b, b ≠ a -> (b ∈ sinceStart (as ++ [a]) <-> b ∈ sinceStart as) := by
    intro b hb
    rw [sinceStart_snoc as hstart, List.mem_append, List.mem_singleton]
    exact or_iff_left hb
  have hstop := hmem _ hstopped.symm
  have hret := fun ret => hmem _ (henable ret).symm
  constructor
  · intro hrunning
    have hrunning' : r.handler ≠ .idle := fun hr => hrunning (hidle.mpr hr)
    rcases h.running hrunning' with ⟨hnone, hsched⟩
    constructor
    · intro ret hin
      exact hnone ret ((hret ret).mp hin)
    · rw [hscheduled, hsched, hstop]
  · intro hr
    rw [hscheduled, h.idle (hidle.mp hr)]
    unfold Unannounced
    rw [hstop]
    simp only [hret]

theorem next {as : List ReceiverStep} {r r' : Receiver} {a : ReceiverStep} (h : Told as r)
    (hmoves : r.Moves a r') : Told (as ++ [a]) r' := by
  cases hmoves with
  | disabled on => exact h.move nofun nofun nofun rfl Iff.rfl
  | buffer hdisabled hstopped free =>
      refine h.move nofun ?_ nofun rfl Iff.rfl
      intro heq
      injection heq with heq
      exact hstopped heq
  | allocated hhandler free =>
      refine h.move nofun nofun nofun rfl ?_
      rw [hhandler]
      constructor <;> nofun
  | stopped =>
      have hsince := sinceStart_snoc as (a := .event .rxStopped) nofun
      have hin : ReceiverStep.event .rxStopped ∈ sinceStart (as ++ [.event .rxStopped]) := by
        rw [hsince]
        exact List.mem_concat_self
      constructor
      · intro hrunning
        constructor
        · intro ret hret
          rw [hsince, List.mem_append] at hret
          rcases hret with hret | hret
          · exact (h.running hrunning).1 ret hret
          · simp at hret
        · exact iff_of_true rfl hin
      · intro _
        exact iff_of_false nofun fun hun => hun.2 hin
  | started hscheduled hidle =>
      constructor
      · intro _
        rw [sinceStart_startWork]
        exact ⟨fun _ => List.not_mem_nil, iff_of_false nofun List.not_mem_nil⟩
      · intro hr
        cases hr
  | @failed ret hhandler hret free =>
      have hsince := sinceStart_snoc as (a := .uartRxEnable ret) nofun
      have hnone := (h.running (by rw [hhandler]; nofun)).1
      constructor
      · intro hrunning
        exact absurd rfl hrunning
      · intro _
        refine iff_of_false nofun ?_
        rintro ⟨⟨ret', hpos, hmem⟩, _⟩
        rw [hsince, List.mem_append] at hmem
        rcases hmem with hmem | hmem
        · exact hnone ret' hmem
        · have heq := List.mem_singleton.mp hmem
          injection heq with heq
          lia
  | @enabled ret hhandler hret =>
      have hsince := sinceStart_snoc as (a := .uartRxEnable ret) nofun
      have hscheduled := (h.running (by rw [hhandler]; nofun)).2
      constructor
      · intro hrunning
        exact absurd rfl hrunning
      · intro _
        change r.scheduled = false <-> _
        unfold Unannounced
        rw [← Bool.not_eq_true, hscheduled, hsince, List.mem_append, List.mem_singleton]
        constructor
        · intro hnone
          refine ⟨⟨ret, hret, List.mem_concat_self⟩, ?_⟩
          rintro (hmem | heq)
          · exact hnone hmem
          · cases heq
        · rintro ⟨_, hnone⟩ hmem
          exact hnone (.inl hmem)

theorem unannounced_iff {as : List ReceiverStep} {r : Receiver} (h : Told as r) :
    Unannounced as <-> r.scheduled = false ∧ r.handler = .idle := by
  constructor
  · intro hun
    by_cases hidle : r.handler = .idle
    · exact ⟨(h.idle hidle).mpr hun, hidle⟩
    · rcases hun.1 with ⟨ret, _, hmem⟩
      exact absurd hmem ((h.running hidle).1 ret)
  · rintro ⟨hscheduled, hidle⟩
    exact (h.idle hidle).mp hscheduled

end Told

theorem alive_next {as : List ReceiverStep} {r r' : Receiver} {a : ReceiverStep}
    (htold : Told as r) (halive : r.Alive) (hannounced : Announced as r a)
    (hmoves : r.Moves a r') : r'.Alive := by
  cases hmoves with
  | disabled on =>
      intro _
      apply Classical.byContradiction
      intro hnone
      rcases not_or.mp hnone with ⟨hscheduled, hhandler⟩
      exact hannounced (htold.unannounced_iff.mpr
        ⟨eq_false_of_ne_true hscheduled, Classical.not_not.mp hhandler⟩)
  | stopped => exact fun _ => .inl rfl
  | buffer hdisabled hstopped free => exact halive
  | started hscheduled hidle => exact fun _ => .inr nofun
  | allocated hhandler free => exact fun _ => .inr nofun
  | failed hhandler hret free => exact fun _ => .inl rfl
  | enabled hhandler hret =>
      intro hoff
      cases hoff

/--
Whenever reception is off the work that enables it is scheduled or running, all
along a run, if and only if reception is never disabled without being announced.
-/
theorem receiver_alive_iff {buffers : Nat} {as : List ReceiverStep} {r : Receiver}
    (run : (receiverSystem buffers).Run as r) :
    (receiverSystem buffers).Always (fun _ r => r.Alive) as <->
      (receiverSystem buffers).EachStep Announced as := by
  apply System.always_iff_eachStep (I := fun as r => Told as r ∧ r.Alive)
  · exact ⟨.setup buffers, fun _ => .inl rfl⟩
  · rintro as a r r' ⟨htold, halive⟩ hannounced hstep
    have hmoves := moves_of_next hstep
    exact ⟨htold.next hmoves, alive_next htold halive hannounced hmoves⟩
  · intro as r h
    exact h.2
  · rintro as a r r' ⟨htold, _⟩ hnot hstep halive
    cases moves_of_next hstep with
    | disabled on =>
        rcases htold.unannounced_iff.mp (Classical.not_not.mp hnot) with ⟨hscheduled, hidle⟩
        rcases halive rfl with htrue | hbusy
        · rw [show r.scheduled = true from htrue] at hscheduled
          cases hscheduled
        · exact hbusy hidle
    | stopped | started | allocated | failed | enabled => exact hnot trivial
    | @buffer e hdisabled hstopped free =>
        cases e with
        | rxDisabled => exact hdisabled rfl
        | rxBufRequest | rxBufReleased | rxRdy | rxStopped | other => exact hnot trivial
  · exact run

/-- An error is reported, and reception is started again. -/
theorem receiver_alive_iff_stopped :
    (receiverSystem 2).Always (fun _ r => r.Alive)
      [.startWork, .memSlabAlloc, .uartRxEnable 0, .event .rxStopped, .event .rxDisabled] := by
  have run : (receiverSystem 2).Run [.startWork, .memSlabAlloc, .uartRxEnable 0,
      .event .rxStopped, .event .rxDisabled] _ := System.run_of_steps rfl
  apply (receiver_alive_iff run).mpr
  apply System.eachStep_of_meets
  refine And.intro trivial fun _ _ => And.intro trivial fun _ _ => And.intro trivial fun _ _ =>
    And.intro trivial fun _ _ => And.intro ?_ fun _ _ => trivial
  rintro ⟨_, hnone⟩
  exact hnone (by decide)

/--
The driver asks for a third buffer while both blocks are in use, gets none, and
disables reception: nothing will enable it again.
-/
theorem receiver_not_alive :
    ¬ forall (as : List ReceiverStep) (r : Receiver), (receiverSystem 2).Run as r -> r.Alive := by
  intro h
  have run : (receiverSystem 2).Run [.startWork, .memSlabAlloc, .uartRxEnable 0,
      .event .rxBufRequest, .event .rxBufRequest, .event .rxDisabled] _ :=
    System.run_of_steps rfl
  rcases h _ _ run rfl with hscheduled | hhandler
  · cases hscheduled
  · exact hhandler rfl

end Powermeter
end Firmware
end Smartmeter
