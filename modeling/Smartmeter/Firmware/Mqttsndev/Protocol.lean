import Smartmeter.Firmware.Mqttsndev.Client

/-!
# Sessions

The calls of the thread come in sessions.  A session makes a transport and a
client on it, uses the client only then, and takes apart what it has made, also
when something fails; after a failure nothing else is done in it.  The publish
callback is called in a session that was connected, after a request was read, and
it stops with the first publication that fails.
-/

namespace Smartmeter
namespace Firmware
namespace Mqttsndev

open Foundation

variable {σ ω μ : Type}

inductive Session where
  | closed
  | transport
  | noClient
  | client (connected : Bool)
  | requested
  | publishing
  | returning (ret : Int)
  | failed
deriving DecidableEq, Repr

namespace Session

def failIf (p : Prop) [Decidable p] (s : Session) : Session := if p then .failed else s

/-- An event; it may arrive whenever there is a client. -/
def evtCb (evt : Evt) : Session -> Option Session
  | .client connected => some (.client (connected || evt == .connected))
  | .closed | .transport | .noClient => none
  | s => some s

def next : Session -> Call μ -> Option Session
  | s, .schedulePublishCallback => some s
  | s, .evtCb evt => s.evtCb evt
  | .closed, .transportInit ret => some (if ret = 0 then .transport else .closed)
  | .transport, .clientInit ret => some (if ret = 0 then .client false else .noClient)
  | .noClient, .transportDeinit => some .closed
  | .client connected, .connect ret => some (failIf (ret ≠ 0) (.client connected))
  | .client connected, .input ret => some (failIf (ret < 0) (.client connected))
  | .client connected, .poll ret => some (failIf (ret < 0) (.client connected))
  | .client true, .eventfdRead ret =>
      some (if ret = 0 then .requested else failIf (ret ≠ -EAGAIN) (.client true))
  | .requested, .publishCallback => some .publishing
  | .publishing, .publish _ ret => some (if ret = 0 then .publishing else .returning ret)
  | .publishing, .callbackReturned ret => if ret = 0 then some (.client true) else none
  | .returning ret, .callbackReturned ret' =>
      if ret' = ret then some (failIf (ret < 0) (.client true)) else none
  | .failed, .clientDeinit => some .closed
  | _, _ => none

@[simp] theorem next_schedule (s : Session) :
    s.next (Call.schedulePublishCallback (μ := μ)) = some s := by
  cases s <;> rfl

end Session

def protocol (μ : Type) : System Session (Call μ) where
  init := .closed
  next := Session.next

/-!
## What is made and taken apart
-/

def Call.opens : Call μ -> Nat
  | .transportInit ret => if ret = 0 then 1 else 0
  | _ => 0

/-- A transport is taken apart, alone or with its client. -/
def Call.closes : Call μ -> Nat
  | .transportDeinit | .clientDeinit => 1
  | _ => 0

def Session.transports : Session -> Nat
  | .closed => 0
  | _ => 1

namespace Session

theorem transports_ite {p : Prop} [Decidable p] {s t : Session} (hs : s.transports = 1)
    (ht : t.transports = 1) : (if p then s else t).transports = 1 := by
  split
  · exact hs
  · exact ht

theorem transports_next {s s' : Session} {c : Call μ} (h : s.next c = some s') :
    s.transports + c.opens = s'.transports + c.closes := by
  have hevtCb : forall evt, s.evtCb evt = some s' -> s.transports = s'.transports := by
    intro evt hevt
    cases s <;> cases hevt <;> rfl
  revert h
  fun_cases Session.next s c with
  | case1 =>
      intro h
      cases h
      rfl
  | case2 s evt =>
      intro h
      exact hevtCb evt h
  | case3 ret =>
      intro h
      cases h
      show 0 + (if ret = 0 then 1 else 0) = Session.transports (if ret = 0 then _ else _) + 0
      split <;> rfl
  | case4 ret =>
      intro h
      cases h
      rw [transports_ite rfl rfl]
      rfl
  | case5 | case10 | case12 | case16 =>
      intro h
      cases h
      rfl
  | case6 | case7 | case8 | case14 =>
      intro h
      cases h
      unfold failIf
      rw [transports_ite rfl rfl]
      rfl
  | case9 =>
      intro h
      cases h
      unfold failIf
      rw [transports_ite rfl (transports_ite rfl rfl)]
      rfl
  | case11 =>
      intro h
      cases h
      rw [transports_ite rfl rfl]
      rfl
  | case13 | case15 | case17 =>
      intro h
      cases h

end Session

theorem transports_balanced {trace : List (Call μ)} {s : Session}
    (run : (protocol μ).Run trace s) :
    (trace.map Call.opens).sum = (trace.map Call.closes).sum + s.transports := by
  induction run with
  | nil => rfl
  | @snoc trace c s s' _ step ih =>
      have hnext := Session.transports_next step
      rw [List.map_append, List.map_append, List.sum_append, List.sum_append, ih]
      simp
      lia

def Location.session (connected : Bool) : Location -> Session
  | .notStarted | .transportInit | .clearConnected | .wait => .closed
  | .clientInit => .transport
  | .transportDeinit => .noClient
  | .testConnected | .connect | .connectInput | .poll | .workInput | .workConnected =>
      .client connected
  | .eventfdRead => .client true
  | .publishCallback => .requested
  | .publish _ => .publishing
  | .clientDeinit => .failed

/--
The calls are those of the protocol, and `mqtt_sn_connected` is only set in
a session that was connected.
-/
structure Follows (d : Client σ μ) (connected : Bool) : Prop where
  run : (protocol μ).Run d.trace (d.location.session connected)
  flag : d.mqttSnConnected = true ->
    d.location.HasClient = true ∧ connected = true ∨ d.location = .clearConnected

namespace Follows

theorem silent {d : Client σ μ} {connected : Bool} {l : Location} (h : Follows d connected)
    (hsession : l.session connected = d.location.session connected)
    (hflag : d.mqttSnConnected = true ->
      l.HasClient = true ∧ connected = true ∨ l = .clearConnected) :
    Follows (d.goto l) connected := by
  constructor
  · show (protocol μ).Run d.trace (l.session connected)
    rw [hsession]
    exact h.run
  · exact hflag

theorem call {d : Client σ μ} {connected connected' : Bool} {c : Call μ} {l : Location}
    (h : Follows d connected)
    (hnext : (d.location.session connected).next c = some (l.session connected'))
    (hflag : d.mqttSnConnected = true ->
      l.HasClient = true ∧ connected' = true ∨ l = .clearConnected) :
    Follows ((d.call c).goto l) connected' :=
  ⟨h.run.snoc hnext, hflag⟩

theorem not_connected {d : Client σ μ} {connected : Bool} {l : Location} (h : Follows d connected)
    (hlocation : d.location = l) (hclient : l.HasClient = false) (hclear : l ≠ .clearConnected) :
    d.mqttSnConnected = false := by
  rw [Bool.eq_false_iff]
  intro hconnected
  have hflag := h.flag hconnected
  rw [hlocation, hclient] at hflag
  rcases hflag with ⟨hfalse, _⟩ | heq
  · cases hfalse
  · exact hclear heq

theorem connected_of {d : Client σ μ} {connected : Bool} {l : Location} (h : Follows d connected)
    (hlocation : d.location = l) (hclear : l ≠ .clearConnected)
    (hconnected : d.mqttSnConnected = true) : connected = true := by
  have hflag := h.flag hconnected
  rw [hlocation] at hflag
  rcases hflag with ⟨_, heq⟩ | heq
  · exact heq
  · exact absurd heq hclear

theorem session_evtCb {l : Location} (h : l.HasClient = true) (connected : Bool) (evt : Evt) :
    (l.session connected).evtCb evt = some (l.session (connected || evt == .connected)) := by
  cases l <;> first | rfl | cases h

theorem evtCb {d : Client σ μ} {connected : Bool} (h : Follows d connected)
    (hclient : d.location.HasClient = true) (evt : Evt) :
    Follows (d.evtCb evt) (connected || evt == .connected) := by
  have hlocation : (d.evtCb evt).location = d.location := by
    cases evt <;> rfl
  have htrace : (d.evtCb evt).trace = d.trace ++ [.evtCb evt] := by
    cases evt <;> rfl
  constructor
  · rw [hlocation, htrace]
    exact h.run.snoc (session_evtCb hclient connected evt)
  · intro hconnected
    left
    constructor
    · rw [hlocation]
      exact hclient
    · have hclear : d.location ≠ .clearConnected := by
        intro heq
        rw [heq] at hclient
        cases hclient
      cases evt with
      | connected => exact Bool.or_true connected
      | disconnected => cases hconnected
      | asleep | awake | publish | pingresp =>
          rw [h.connected_of rfl hclear hconnected]
          rfl

theorem evtCbs {d : Client σ μ} {connected : Bool} (h : Follows d connected)
    (hclient : d.location.HasClient = true) (evts : List Evt) :
    exists connected', Follows (evts.foldl Client.evtCb d) connected' := by
  induction evts generalizing d connected with
  | nil => exact ⟨connected, h⟩
  | cons evt evts ih =>
      apply ih (h.evtCb hclient evt)
      rw [Client.evtCb_eq]
      exact hclient

theorem session_failIf (p : Prop) [Decidable p] (l : Location) (connected : Bool) :
    (if p then Location.clientDeinit else l).session connected =
      Session.failIf p (l.session connected) := by
  unfold Session.failIf
  split <;> rfl

theorem hasClient_ite (p : Prop) [Decidable p] {l m : Location} (hl : l.HasClient = true)
    (hm : m.HasClient = true) : (if p then l else m).HasClient = true := by
  split
  · exact hl
  · exact hm

theorem stays {d : Client σ μ} {connected : Bool} {l m : Location} (h : Follows d connected)
    (hlocation : d.location = l) (hclear : l ≠ .clearConnected) (hclient : m.HasClient = true) :
    d.mqttSnConnected = true -> m.HasClient = true ∧ connected = true ∨ m = .clearConnected := by
  intro hconnected
  left
  exact ⟨hclient, h.connected_of hlocation hclear hconnected⟩

theorem leaves {d : Client σ μ} {connected : Bool} {l m : Location} (h : Follows d connected)
    (hlocation : d.location = l) (hclient : l.HasClient = false) (hclear : l ≠ .clearConnected)
    (connected' : Bool) :
    d.mqttSnConnected = true -> m.HasClient = true ∧ connected' = true ∨ m = .clearConnected := by
  intro hconnected
  rw [h.not_connected hlocation hclient hclear] at hconnected
  cases hconnected

theorem input {d : Client σ μ} {connected : Bool} {l : Location} {evts : List Evt} {ret : Int}
    (h : Follows d connected) (hclient : d.location.HasClient = true)
    (hbefore : forall connected, d.location.session connected = .client connected)
    (hafter : forall connected, l.session connected = .client connected)
    (hl : l.HasClient = true) :
    exists connected',
      Follows ((d.input evts ret).goto (if ret < 0 then .clientDeinit else l)) connected' := by
  rcases h.evtCbs hclient evts with ⟨connected', hevts⟩
  have hlocation : (evts.foldl Client.evtCb d).location = d.location := by
    rw [Client.evtCbs_eq]
  have hclear : d.location ≠ .clearConnected := by
    intro heq
    rw [heq] at hclient
    cases hclient
  exists connected'
  apply hevts.call
  · rw [hlocation, hbefore, session_failIf, hafter]
    rfl
  · exact hevts.stays hlocation hclear (hasClient_ite _ rfl hl)

theorem returned {d : Client σ μ} {s : Session} (ret : Int)
    (hrun : (protocol μ).Run d.trace s)
    (hnext : s.next (Call.callbackReturned (μ := μ) ret) =
      some (Session.failIf (ret < 0) (.client true))) : Follows (d.returned ret) true := by
  constructor
  · show (protocol μ).Run (d.trace ++ [.callbackReturned ret])
      (Location.session true (if ret < 0 then .clientDeinit else .testConnected))
    rw [session_failIf]
    exact hrun.snoc hnext
  · intro _
    left
    exact ⟨hasClient_ite _ rfl rfl, rfl⟩

theorem publish {d : Client σ μ} {connected : Bool} {index : Nat} (app : App σ ω μ)
    (h : Follows d connected) (hlocation : d.location = .publish index) (ret : Int) :
    exists connected', Follows (d.publish app index ret) connected' := by
  have hrun := h.run
  rw [hlocation] at hrun
  unfold Client.publish
  cases app.messages[index]? with
  | none => exact ⟨true, returned 0 hrun rfl⟩
  | some message =>
      dsimp only
      split <;> rename_i hret
      · exists connected
        apply h.call
        · rw [hlocation, hret]
          rfl
        · exact h.stays hlocation Location.noConfusion rfl
      · exists true
        apply returned ret (s := .returning ret)
        · apply hrun.snoc
          exact congrArg some (if_neg hret)
        · exact if_pos rfl

theorem eventfdRead {d : Client σ μ} {connected : Bool} (h : Follows d connected)
    (hlocation : d.location = .eventfdRead) : Follows d.eventfdRead true := by
  have hrun := h.run
  rw [hlocation] at hrun
  unfold Client.eventfdRead
  split
  · constructor
    · exact hrun.snoc rfl
    · intro _
      left
      exact ⟨rfl, rfl⟩
  · constructor
    · exact hrun.snoc rfl
    · intro _
      left
      exact ⟨rfl, rfl⟩

theorem advance {d : Client σ μ} {connected : Bool} (app : App σ ω μ) (h : Follows d connected)
    (ret : Int) (evts : List Evt) :
    exists connected', Follows (d.advance app ret evts) connected' := by
  unfold Client.advance
  cases hlocation : d.location with
  | notStarted => exact ⟨connected, h⟩
  | transportInit =>
      exists connected
      apply h.call
      · rw [hlocation, apply_ite (Location.session connected), ite_not]
        rfl
      · exact h.leaves hlocation rfl Location.noConfusion connected
  | clientInit =>
      exists false
      apply h.call
      · rw [hlocation, apply_ite (Location.session false), ite_not]
        rfl
      · exact h.leaves hlocation rfl Location.noConfusion false
  | transportDeinit =>
      exists connected
      apply h.call
      · rw [hlocation]
        rfl
      · exact h.leaves hlocation rfl Location.noConfusion connected
  | testConnected =>
      exists connected
      apply h.silent
      · rw [hlocation]
        split <;> rfl
      · exact h.stays hlocation Location.noConfusion (hasClient_ite _ rfl rfl)
  | connect =>
      exists connected
      apply h.call
      · rw [hlocation, session_failIf]
        rfl
      · exact h.stays hlocation Location.noConfusion (hasClient_ite _ rfl rfl)
  | connectInput =>
      have hclient : d.location.HasClient = true := by
        rw [hlocation]
        rfl
      apply h.input hclient
      · intro connected
        rw [hlocation]
        rfl
      · intro connected
        rfl
      · rfl
  | poll =>
      exists connected
      apply h.call
      · rw [hlocation, session_failIf]
        rfl
      · exact h.stays hlocation Location.noConfusion (hasClient_ite _ rfl rfl)
  | workInput =>
      have hclient : d.location.HasClient = true := by
        rw [hlocation]
        rfl
      apply h.input hclient
      · intro connected
        rw [hlocation]
        rfl
      · intro connected
        rfl
      · rfl
  | workConnected =>
      exists connected
      apply h.silent
      · rw [hlocation]
        split <;> rename_i hconnected
        · -- The flag is only set in a session that was connected.
          rw [h.connected_of hlocation Location.noConfusion hconnected]
          rfl
        · rfl
      · exact h.stays hlocation Location.noConfusion (hasClient_ite _ rfl rfl)
  | eventfdRead =>
      dsimp only
      split <;> rename_i hret
      · have hne : ret ≠ 0 := Int.ne_of_lt hret.1
        exists connected
        apply h.call
        · rw [hlocation]
          show some (if ret = 0 then _ else Session.failIf (ret ≠ -EAGAIN) _) = _
          rw [if_neg hne]
          exact congrArg some (if_pos hret.2)
        · exact h.stays hlocation Location.noConfusion rfl
      · exact ⟨true, h.eventfdRead hlocation⟩
  | publishCallback =>
      exists connected
      apply h.call
      · rw [hlocation]
        rfl
      · exact h.stays hlocation Location.noConfusion rfl
  | publish index => exact h.publish app hlocation ret
  | clientDeinit =>
      exists connected
      apply h.call
      · rw [hlocation]
        rfl
      · intro _
        right
        rfl
  | clearConnected =>
      exists connected
      constructor
      · have hrun := h.run
        rw [hlocation] at hrun
        exact hrun
      · intro hconnected
        cases hconnected
  | wait =>
      exists connected
      apply h.silent
      · rw [hlocation]
        rfl
      · exact h.leaves hlocation rfl Location.noConfusion connected

theorem next {app : App σ ω μ} {d d' : Client σ μ} {connected : Bool} {a : Step ω}
    (h : Follows d connected) (hnext : d.next app a = some d') :
    exists connected', Follows d' connected' := by
  cases a with
  | app a =>
      rcases Option.map_eq_some_iff.mp hnext with ⟨⟨s, schedules⟩, _, rfl⟩
      exists connected
      cases schedules with
      | false => exact ⟨h.run, h.flag⟩
      | true =>
          constructor
          · have hsession := Session.next_schedule (μ := μ) (d.location.session connected)
            exact h.run.snoc hsession
          · exact h.flag
  | startThread =>
      rcases Option.ite_none_right_eq_some.mp hnext with ⟨hlocation, hnext⟩
      cases hnext
      exists connected
      apply h.silent
      · rw [hlocation]
        rfl
      · exact h.leaves hlocation rfl Location.noConfusion connected
  | evtCb evt =>
      rcases Option.ite_none_right_eq_some.mp hnext with ⟨hclient, hnext⟩
      cases hnext
      exact ⟨_, h.evtCb hclient evt⟩
  | thread ret evts =>
      rcases Option.ite_none_left_eq_some.mp hnext with ⟨_, hnext⟩
      cases hnext
      exact h.advance app ret evts

end Follows

/--
The calls of the thread are those of the protocol, whatever the other threads
do.  When a session starts, the client is not taken to be connected, and every
transport that was made has been taken apart.
-/
theorem client_follows_protocol {app : App σ ω μ} {as : List (Step ω)} {d : Client σ μ}
    (run : (clientSystem app).Run as d) :
    (exists connected, (protocol μ).Run d.trace (d.location.session connected)) ∧
      (d.location = .transportInit -> d.mqttSnConnected = false ∧
        (d.trace.map Call.opens).sum = (d.trace.map Call.closes).sum) := by
  have hfollows : exists connected, Follows d connected := by
    apply run.invariant (I := fun _ d => exists connected, Follows d connected)
    · exact ⟨false, .nil, fun hconnected => by cases hconnected⟩
    · intro as a d d' _ hbefore hstep
      rcases hbefore with ⟨connected, hbefore⟩
      exact hbefore.next hstep
  rcases hfollows with ⟨connected, hfollows⟩
  constructor
  · exact ⟨connected, hfollows.run⟩
  · intro hlocation
    constructor
    · exact hfollows.not_connected hlocation rfl Location.noConfusion
    · have hclosed := hfollows.run
      rw [hlocation] at hclosed
      exact transports_balanced hclosed

/-- A session that has answered a request. -/
theorem client_follows_protocol_counter :
    exists d, (clientSystem counter).Run answered d ∧ d.location = .testConnected ∧
      exists connected, (protocol Nat).Run d.trace (.client connected) := by
  have hrun : (clientSystem counter).Run answered _ := System.run_of_steps rfl
  exact ⟨_, hrun, rfl, (client_follows_protocol hrun).1⟩

end Mqttsndev
end Firmware
end Smartmeter
