import Smartmeter.Firmware.Mqttsndev.Requests

/-!
# What is published last

The publish callback reads the variables of the application one by one while
the other threads may write them.  An application that makes a request behind
everything it writes has its last values published in the end: when no request
is left and the last publication was successful, the last messages are those of
the values the variables have.
-/

namespace Smartmeter
namespace Firmware
namespace Mqttsndev

open Foundation
open Powermeter (eventfdWrite eventfdWrite_pos)

variable {σ ω μ : Type} {app : App σ ω μ}

/--
An application that makes a request behind everything it writes.  Without a
request it does not leave a state in which something is still to be announced.
-/
structure App.Announces (app : App σ ω μ) where
  Settled : σ -> Prop
  next_settled : forall s a s', app.next s a = some (s', false) -> Settled s' -> Settled s
  next_messages : forall s a s', app.next s a = some (s', false) -> Settled s' ->
    forall message, message ∈ app.messages -> message s' = message s
  finish_eq : forall s, app.finish s = s

def App.messagesOf (app : App σ ω μ) (s : σ) : List μ := app.messages.map fun message => message s

theorem App.Announces.messagesOf_eq (h : app.Announces) {s s' : σ} {a : ω}
    (hnext : app.next s a = some (s', false)) (hsettled : h.Settled s') :
    app.messagesOf s' = app.messagesOf s := by
  apply List.map_congr_left
  exact h.next_messages s a s' hnext hsettled

/-!
## Publications
-/

def Call.publication : Call μ -> Option Int
  | .publish _ ret => some ret
  | _ => none

def Call.sent : Call μ -> Option μ
  | .publish message ret => if ret = 0 then some message else none
  | _ => none

def sentMessages (trace : List (Call μ)) : List μ := trace.filterMap Call.sent

def lastPublication (trace : List (Call μ)) : Option Int :=
  (trace.filterMap Call.publication).getLast?

@[simp] theorem sentMessages_snoc (trace : List (Call μ)) (c : Call μ) :
    sentMessages (trace ++ [c]) = sentMessages trace ++ c.sent.toList := by
  unfold sentMessages
  rw [List.filterMap_append]
  cases hc : c.sent <;> simp [hc]

theorem sentMessages_snoc_of_none {trace : List (Call μ)} {c : Call μ} (hc : c.sent = none) :
    sentMessages (trace ++ [c]) = sentMessages trace := by
  rw [sentMessages_snoc, hc]
  exact List.append_nil _

@[simp] theorem lastPublication_snoc (trace : List (Call μ)) (c : Call μ) :
    lastPublication (trace ++ [c]) = c.publication.or (lastPublication trace) := by
  unfold lastPublication
  rw [List.filterMap_append]
  cases hc : c.publication <;> simp [hc]

theorem sentMessages_append_other {trace calls : List (Call μ)}
    (h : forall c, c ∈ calls -> c.Other) : sentMessages (trace ++ calls) = sentMessages trace := by
  have hnone : calls.filterMap Call.sent = [] := by
    rw [List.filterMap_eq_nil_iff]
    intro c hc
    have hother := h c hc
    cases c <;> first | rfl | exact absurd hother id
  unfold sentMessages
  rw [List.filterMap_append, hnone, List.append_nil]

theorem lastPublication_append_other {trace calls : List (Call μ)}
    (h : forall c, c ∈ calls -> c.Other) :
    lastPublication (trace ++ calls) = lastPublication trace := by
  have hnone : calls.filterMap Call.publication = [] := by
    rw [List.filterMap_eq_nil_iff]
    intro c hc
    have hother := h c hc
    cases c <;> first | rfl | exact absurd hother id
  unfold lastPublication
  rw [List.filterMap_append, hnone, List.append_nil]

def EndsWith (trace : List (Call μ)) (messages : List μ) : Prop :=
  exists earlier, sentMessages trace = earlier ++ messages

theorem EndsWith.publish {trace : List (Call μ)} {s : σ} {index : Nat} {message : σ -> μ}
    (h : EndsWith trace ((app.messagesOf s).take index))
    (hmessage : app.messages[index]? = some message) :
    EndsWith (trace ++ [.publish (message s) 0]) ((app.messagesOf s).take (index + 1)) := by
  rcases h with ⟨earlier, hsent⟩
  have hnext : (app.messagesOf s)[index]? = some (message s) := by
    unfold App.messagesOf
    rw [List.getElem?_map, hmessage]
    rfl
  exists earlier
  rw [sentMessages_snoc, hsent, List.take_add_one, hnext, List.append_assoc]
  rfl

/-!
## The invariant
-/

structure Latest (h : app.Announces) (d : Client σ μ) : Prop where
  inside : forall index, d.location = .publish index -> d.eventfdPublish = 0 ->
    h.Settled d.shared -> EndsWith d.trace ((app.messagesOf d.shared).take index)
  outside : ¬ d.location.InCallback -> d.eventfdPublish = 0 -> h.Settled d.shared ->
    lastPublication d.trace = some 0 -> EndsWith d.trace (app.messagesOf d.shared)

namespace Latest

variable {h : app.Announces}

theorem appStep {d : Client σ μ} {a : ω} {s : σ} {schedules : Bool} (hlatest : Latest h d)
    (happ : app.next d.shared a = some (s, schedules)) : Latest h (d.appStep s schedules) := by
  cases schedules with
  | true =>
      have hpos := eventfdWrite_pos d.eventfdPublish
      constructor
      · intro index _ hcount
        exact absurd hcount (Nat.ne_of_gt hpos)
      · intro _ hcount
        exact absurd hcount (Nat.ne_of_gt hpos)
  | false =>
      constructor
      · intro index hlocation hcount hsettled
        have hmessages := h.messagesOf_eq happ hsettled
        have hends := hlatest.inside index hlocation hcount (h.next_settled _ _ _ happ hsettled)
        rw [← hmessages] at hends
        exact hends
      · intro hlocation hcount hsettled hlast
        have hmessages := h.messagesOf_eq happ hsettled
        have hends := hlatest.outside hlocation hcount (h.next_settled _ _ _ happ hsettled) hlast
        rw [← hmessages] at hends
        exact hends

theorem other {d d' : Client σ μ} {calls : List (Call μ)} (hlatest : Latest h d)
    (hcalls : forall c, c ∈ calls -> c.Other) (hshared : d'.shared = d.shared)
    (hcount : d'.eventfdPublish = d.eventfdPublish) (htrace : d'.trace = d.trace ++ calls)
    (hlocation : d'.location = d.location ∨
      ¬ d.location.InCallback ∧ ¬ d'.location.InCallback) : Latest h d' := by
  have hsent : sentMessages d'.trace = sentMessages d.trace := by
    rw [htrace]
    exact sentMessages_append_other hcalls
  have hlast : lastPublication d'.trace = lastPublication d.trace := by
    rw [htrace]
    exact lastPublication_append_other hcalls
  constructor
  · intro index hindex
    unfold EndsWith
    rw [hshared, hcount, hsent]
    apply hlatest.inside index
    rcases hlocation with hsame | ⟨_, hafter⟩
    · rw [← hsame]
      exact hindex
    · rw [hindex] at hafter
      exact absurd trivial hafter
  · intro hout
    unfold EndsWith
    rw [hshared, hcount, hsent, hlast]
    apply hlatest.outside
    rcases hlocation with hsame | ⟨hbefore, _⟩
    · rw [← hsame]
      exact hout
    · exact hbefore

theorem published {d : Client σ μ} {index : Nat} {message : σ -> μ} (hlatest : Latest h d)
    (hlocation : d.location = .publish index) (hmessage : app.messages[index]? = some message) :
    Latest h ((d.call (.publish (message d.shared) 0)).goto (.publish (index + 1))) := by
  constructor
  · intro index' hindex hcount hsettled
    cases hindex
    exact (hlatest.inside index hlocation hcount hsettled).publish hmessage
  · intro hout
    exact absurd trivial hout

theorem failed {d : Client σ μ} {m : μ} {ret : Int} (hret : ret ≠ 0) :
    Latest h ((d.call (.publish m ret)).returned ret) := by
  constructor
  · intro index hindex
    unfold Client.returned Client.goto at hindex
    dsimp only at hindex
    split at hindex <;> cases hindex
  · intro _ _ _ hlast
    unfold Client.returned Client.goto Client.call at hlast
    dsimp only at hlast
    rw [lastPublication_snoc, lastPublication_snoc] at hlast
    exact absurd (Option.some.inj hlast) hret

theorem finished {d : Client σ μ} {index : Nat} (hlatest : Latest h d)
    (hlocation : d.location = .publish index) (hnone : app.messages[index]? = none) :
    Latest h ({ d with shared := app.finish d.shared }.returned 0) := by
  have hlength : (app.messagesOf d.shared).length ≤ index := by
    unfold App.messagesOf
    rw [List.length_map]
    exact List.getElem?_eq_none_iff.mp hnone
  constructor
  · intro index' hindex
    cases hindex
  · intro _ hcount hsettled _
    unfold Client.returned Client.goto Client.call at hcount hsettled ⊢
    dsimp only at hcount hsettled ⊢
    rw [h.finish_eq] at hsettled ⊢
    rcases hlatest.inside index hlocation hcount hsettled with ⟨earlier, hsent⟩
    rw [List.take_of_length_le hlength] at hsent
    exists earlier
    rw [sentMessages_snoc, hsent]
    exact List.append_nil _

theorem moves {d d' : Client σ μ} (hlatest : Latest h d) (hmoves : Client.Moves app d d') :
    Latest h d' := by
  cases hmoves with
  | app happ => exact hlatest.appStep happ
  | acts hacts =>
      cases hacts with
      | other calls hcalls hshared hcount htrace hlocation =>
          exact hlatest.other hcalls hshared hcount htrace hlocation
      | read hlocation hpos =>
          constructor
          · intro index hindex
            cases hindex
          · intro hout
            exact absurd trivial hout
      | publishCallback hlocation =>
          constructor
          · intro index hindex _ _
            cases hindex
            exact ⟨_, (List.append_nil _).symm⟩
          · intro hout
            exact absurd trivial hout
      | published hlocation hmessage => exact hlatest.published hlocation hmessage
      | failed hlocation hmessage hret => exact .failed hret
      | finished hlocation hnone => exact hlatest.finished hlocation hnone

end Latest

/--
When nothing is to be announced, no request is left and the thread is not in the
publish callback, a successful last publication has ended a round with the
values the variables have.
-/
theorem published_latest (h : app.Announces) {as : List (Step ω)} {d : Client σ μ}
    (run : (clientSystem app).Run as d) (hcount : d.eventfdPublish = 0)
    (hlocation : ¬ d.location.InCallback) (hsettled : h.Settled d.shared)
    (hlast : lastPublication d.trace = some 0) :
    exists earlier, sentMessages d.trace = earlier ++ app.messagesOf d.shared := by
  have hlatest : Latest h d := by
    apply run.invariant (I := fun _ d => Latest h d)
    · constructor
      · intro index hindex
        cases hindex
      · intro _ _ _ hnone
        cases hnone
    · intro as a d d' _ hbefore hstep
      exact hbefore.moves (Client.moves_of_next hstep)
  exact hlatest.outside hlocation hcount hsettled hlast

theorem requested_of_published {I P : σ -> Prop}
    (hinv : forall as d, (clientSystem app).Run as d -> I d.shared)
    (hnext : forall s a s' schedules, I s -> app.next s a = some (s', schedules) ->
      P s ∨ schedules = true -> P s')
    (hfinish : forall s, P s -> P (app.finish s)) {as : List (Step ω)} {d : Client σ μ}
    (run : (clientSystem app).Run as d) (hlast : lastPublication d.trace ≠ none) : P d.shared := by
  have hbehind : 0 < d.eventfdPublish ∨ d.location.InCallback ∨ lastPublication d.trace ≠ none ->
      P d.shared := by
    apply run.invariant (I := fun _ d => 0 < d.eventfdPublish ∨ d.location.InCallback ∨
      lastPublication d.trace ≠ none -> P d.shared)
    · intro hor
      rcases hor with hpos | hinside | hnone
      · exact absurd hpos (Nat.lt_irrefl 0)
      · exact absurd hinside id
      · exact absurd rfl hnone
    · intro as a d d' hrun hbefore hstep
      cases Client.moves_of_next hstep with
      | @app a s schedules happ =>
          cases schedules with
          | false =>
              intro hor
              exact hnext _ _ _ _ (hinv as d hrun) happ (.inl (hbefore hor))
          | true =>
              intro _
              exact hnext _ _ _ _ (hinv as d hrun) happ (.inr rfl)
      | acts hacts =>
          cases hacts with
          | other calls hcalls hshared hcount htrace hlocation =>
              rw [hshared, hcount, htrace, lastPublication_append_other hcalls]
              intro hor
              apply hbefore
              rcases hor with hpos | hinside | hne
              · exact .inl hpos
              · rcases hlocation with hsame | ⟨_, hafter⟩
                · rw [← hsame]
                  exact .inr (.inl hinside)
                · exact absurd hinside hafter
              · exact .inr (.inr hne)
          | read hlocation hpos =>
              intro _
              exact hbefore (.inl hpos)
          | publishCallback hlocation | published hlocation | failed hlocation =>
              intro _
              apply hbefore
              rw [hlocation]
              exact .inr (.inl trivial)
          | finished hlocation =>
              intro _
              apply hfinish
              apply hbefore
              rw [hlocation]
              exact .inr (.inl trivial)
  exact hbehind (.inr (.inr hlast))

def announces_counter : counter.Announces where
  Settled _ := True
  next_settled _ _ _ h := by cases h
  next_messages _ _ _ h := by cases h
  finish_eq _ := rfl

theorem published_latest_counter :
    exists d, (clientSystem counter).Run answered d ∧
      exists earlier, sentMessages d.trace = earlier ++ [7] := by
  have hrun : (clientSystem counter).Run answered _ := System.run_of_steps rfl
  exact ⟨_, hrun, published_latest announces_counter hrun rfl id trivial rfl⟩

end Mqttsndev
end Firmware
end Smartmeter
