import Smartmeter.Firmware.Mqttsndev.Latest

/-!
# Recovery

Wherever the thread is, and whatever went wrong before: when from now on its
calls succeed and the gateway accepts the connection, a request that is left is
answered after a bounded number of steps.
-/

namespace Smartmeter
namespace Firmware
namespace Mqttsndev

open Foundation

variable {σ ω μ : Type}

namespace Client

/-- A bound on the steps to the call of the publish callback for the last request. -/
def distance (app : App σ ω μ) (d : Client σ μ) : Nat :=
  match d.location with
  | .notStarted => 0
  | .publish index => app.messages.length - index + 10
  | .clientDeinit => 14
  | .clearConnected | .transportDeinit => 13
  | .wait => 12
  | .transportInit => 11
  | .clientInit => 10
  | .workConnected => if d.mqttSnConnected then 3 else 10
  | .testConnected => if d.mqttSnConnected then 6 else 9
  | .connect => 8
  | .connectInput => 7
  | .poll => 5
  | .workInput => 4
  | .eventfdRead => 2
  | .publishCallback => if d.eventfdPublish = 0 then 1 else app.messages.length + 11

structure Waiting (d : Client σ μ) : Prop where
  started : d.location ≠ .notStarted
  requested : 0 < d.eventfdPublish ∨ d.location = .publishCallback

def Called (d : Client σ μ) : Prop := d.location = .publishCallback ∧ d.eventfdPublish = 0

theorem Waiting.goto {d : Client σ μ} {l : Location} (h : 0 < d.eventfdPublish)
    (hl : l ≠ .notStarted) : (d.goto l).Waiting :=
  ⟨hl, .inl h⟩

theorem distance_testConnected (app : App σ ω μ) (d : Client σ μ) :
    (d.goto .testConnected).distance app ≤ 9 := by
  unfold distance goto
  dsimp only
  split
  · lia
  · exact Nat.le_refl 9

theorem distance_publish (app : App σ ω μ) {d : Client σ μ} {index : Nat}
    (h : 0 < d.eventfdPublish) :
    (d.publish app index 0).Waiting ∧
      (d.publish app index 0).distance app < app.messages.length - index + 10 := by
  unfold publish
  cases hmessage : app.messages[index]? with
  | none =>
      constructor
      · exact ⟨Location.noConfusion, .inl h⟩
      · have hle := distance_testConnected app
          ({ d with shared := app.finish d.shared }.call (.callbackReturned 0))
        exact Nat.lt_of_le_of_lt hle (by lia)
  | some message =>
      have hlt : index < app.messages.length := by
        rcases List.getElem?_eq_some_iff.mp hmessage with ⟨hlt, _⟩
        exact hlt
      constructor
      · exact ⟨Location.noConfusion, .inl h⟩
      · show app.messages.length - (index + 1) + 10 < _
        lia

theorem distance_advance (app : App σ ω μ) {d : Client σ μ} (h : d.Waiting)
    (hcalled : ¬ d.Called) :
    (d.advance app 0 [.connected]).Waiting ∧
      (d.advance app 0 [.connected]).distance app < d.distance app := by
  have hrequested : 0 < d.eventfdPublish := by
    rcases h.requested with hpos | hcallback
    · exact hpos
    · exact Nat.pos_of_ne_zero fun hzero => hcalled ⟨hcallback, hzero⟩
  have hne : d.eventfdPublish ≠ 0 := Nat.ne_of_gt hrequested
  unfold advance
  rw [distance.eq_def app d]
  cases hlocation : d.location with
  | notStarted => exact absurd hlocation h.started
  | transportInit => exact ⟨.goto hrequested Location.noConfusion, Nat.lt_succ_self 10⟩
  | clientInit =>
      constructor
      · exact .goto hrequested Location.noConfusion
      · exact Nat.lt_succ_of_le (distance_testConnected app (d.call (.clientInit 0)))
  | transportDeinit => exact ⟨.goto hrequested Location.noConfusion, Nat.lt_succ_self 12⟩
  | testConnected =>
      dsimp only
      cases d.mqttSnConnected with
      | false => exact ⟨.goto hrequested Location.noConfusion, Nat.lt_succ_self 8⟩
      | true => exact ⟨.goto hrequested Location.noConfusion, Nat.lt_succ_self 5⟩
  | connect => exact ⟨.goto hrequested Location.noConfusion, Nat.lt_succ_self 7⟩
  | connectInput => exact ⟨.goto hrequested Location.noConfusion, Nat.lt_succ_self 6⟩
  | poll => exact ⟨.goto hrequested Location.noConfusion, Nat.lt_succ_self 4⟩
  | workInput => exact ⟨.goto hrequested Location.noConfusion, Nat.lt_succ_self 3⟩
  | workConnected =>
      dsimp only
      cases d.mqttSnConnected with
      | false =>
          constructor
          · exact .goto hrequested Location.noConfusion
          · exact Nat.lt_succ_of_le (distance_testConnected app d)
      | true => exact ⟨.goto hrequested Location.noConfusion, Nat.lt_succ_self 2⟩
  | eventfdRead =>
      have hok : ¬ ((0 : Int) < 0 ∧ (0 : Int) ≠ -EAGAIN) := fun hboth => Int.lt_irrefl 0 hboth.1
      dsimp only
      rw [if_neg hok]
      unfold eventfdRead
      rw [if_neg hne]
      exact ⟨⟨Location.noConfusion, .inr rfl⟩, Nat.lt_succ_self 1⟩
  | publishCallback =>
      dsimp only
      rw [if_neg hne]
      exact ⟨⟨Location.noConfusion, .inl hrequested⟩, Nat.lt_succ_self _⟩
  | publish index => exact distance_publish app hrequested
  | clientDeinit => exact ⟨.goto hrequested Location.noConfusion, Nat.lt_succ_self 13⟩
  | clearConnected => exact ⟨.goto hrequested Location.noConfusion, Nat.lt_succ_self 12⟩
  | wait => exact ⟨.goto hrequested Location.noConfusion, Nat.lt_succ_self 11⟩

theorem steps_served (app : App σ ω μ) {d : Client σ μ} (h : d.location ≠ .notStarted) :
    (clientSystem app).next d served = some (d.advance app 0 [.connected]) :=
  if_neg h

theorem steps_publish (app : App σ ω μ) {d : Client σ μ} {k : Nat} (h : d.Called)
    (hk : k ≤ app.messages.length) :
    exists d', (clientSystem app).steps d (List.replicate (k + 1) served) = some d' ∧
      d'.location = .publish k ∧ d'.shared = d.shared ∧ d'.eventfdPublish = 0 ∧
      EndsWith d'.trace ((app.messagesOf d.shared).take k) := by
  induction k with
  | zero =>
      have hstarted : d.location ≠ .notStarted := by
        rw [h.1]
        exact Location.noConfusion
      exists (d.call .publishCallback).goto (.publish 0)
      constructor
      · rw [List.replicate_one, System.steps_singleton, steps_served app hstarted]
        unfold advance
        rw [h.1]
      · exact ⟨rfl, rfl, h.2, _, (List.append_nil _).symm⟩
  | succ k ih =>
      rcases ih (Nat.le_of_succ_le hk) with ⟨d', hsteps, hlocation, hshared, hcount, hends⟩
      have hstarted : d'.location ≠ .notStarted := by
        rw [hlocation]
        exact Location.noConfusion
      have hmessage : app.messages[k]? = some app.messages[k] := List.getElem?_eq_getElem hk
      have hadvance : d'.advance app 0 [.connected] =
          (d'.call (.publish (app.messages[k] d'.shared) 0)).goto (.publish (k + 1)) := by
        unfold advance
        rw [hlocation]
        dsimp only
        unfold publish
        rw [hmessage]
        rfl
      exists (d'.call (.publish (app.messages[k] d'.shared) 0)).goto (.publish (k + 1))
      constructor
      · rw [List.replicate_succ', System.steps_append, hsteps, Option.bind_some,
          System.steps_singleton, steps_served app hstarted, hadvance]
      · rw [← hshared] at hends ⊢
        exact ⟨rfl, rfl, hcount, hends.publish hmessage⟩

end Client

/--
Wherever the thread is, a request that is left is answered within a bounded
number of steps that succeed: everything is published with the values the
variables then have.
-/
theorem request_answered (app : App σ ω μ) {d : Client σ μ} (hstarted : d.location ≠ .notStarted)
    (hrequest : 0 < d.eventfdPublish) :
    exists n d', n ≤ 2 * app.messages.length + 15 ∧
      (clientSystem app).steps d (List.replicate n served) = some d' ∧
      d'.eventfdPublish = 0 ∧ EndsWith d'.trace (app.messagesOf d'.shared) := by
  have hbound : d.distance app ≤ app.messages.length + 14 := by
    unfold Client.distance
    cases d.location <;> lia
  have hcalled : exists n d', n ≤ d.distance app ∧
      (clientSystem app).steps d (List.replicate n served) = some d' ∧ d'.Waiting ∧ d'.Called := by
    apply System.exists_steps_replicate served (Client.distance app) (I := Client.Waiting)
    · intro d hwaiting
      rcases Classical.em d.Called with hcalled | hcalled
      · left
        exact hcalled
      · right
        have hadvance := Client.distance_advance app hwaiting hcalled
        exact ⟨_, Client.steps_served app hwaiting.started, hadvance⟩
    · exact ⟨hstarted, .inl hrequest⟩
  rcases hcalled with ⟨n, d', hn, hsteps, _, hcalled⟩
  rcases Client.steps_publish app hcalled (Nat.le_refl _) with
    ⟨d'', hmore, _, hshared, hcount, hends⟩
  exists n + (app.messages.length + 1), d''
  constructor
  · lia
  · constructor
    · rw [List.replicate_add, System.steps_append, hsteps, Option.bind_some]
      exact hmore
    · constructor
      · exact hcount
      · rw [List.take_of_length_le (by unfold App.messagesOf; rw [List.length_map])] at hends
        rw [hshared]
        exact hends

/-- A request that is made while the thread waits for the next session. -/
theorem request_answered_counter :
    exists n d', n ≤ 17 ∧
      (clientSystem counter).steps
        { shared := 7, eventfdPublish := 1, mqttSnConnected := false, location := .wait,
          trace := [] } (List.replicate n served) = some d' ∧
      d'.eventfdPublish = 0 ∧ EndsWith d'.trace (counter.messagesOf d'.shared) :=
  request_answered counter Location.noConfusion Nat.one_pos

end Mqttsndev
end Firmware
end Smartmeter
