import Smartmeter.Firmware.Mqttsndev.Client

/-!
# Requests and calls of the publish callback

A request is kept in the event file until the thread reads it, through lost
connections and new sessions, and what is read leads to one call of the publish
callback.
-/

namespace Smartmeter
namespace Firmware
namespace Mqttsndev

open Foundation
open Powermeter (eventfdWrite eventfdWrite_pos)

variable {σ ω μ : Type}

def Call.isRequest : Call μ -> Bool
  | .schedulePublishCallback => true
  | _ => false

def Call.isCallback : Call μ -> Bool
  | .publishCallback => true
  | _ => false

def Call.Neutral (c : Call μ) : Prop := c.isRequest = false ∧ c.isCallback = false

theorem Call.Other.neutral {c : Call μ} (h : c.Other) : c.Neutral := by
  cases c <;> first | exact ⟨rfl, rfl⟩ | exact absurd h id

def Unserved (trace : List (Call μ)) : Prop :=
  exists before after, trace = before ++ .schedulePublishCallback :: after ∧
    .publishCallback ∉ after

theorem unserved_snoc (trace : List (Call μ)) (c : Call μ) :
    Unserved (trace ++ [c]) <->
      c = .schedulePublishCallback ∨ c ≠ .publishCallback ∧ Unserved trace := by
  constructor
  · intro h
    rcases h with ⟨before, after, htrace, hafter⟩
    rcases List.eq_nil_or_concat after with hnil | ⟨after', c', hconcat⟩
    · subst hnil
      left
      exact (List.append_inj' htrace rfl).2 |> List.singleton_inj.mp
    · rw [List.concat_eq_append] at hconcat
      subst hconcat
      rw [← List.cons_append, ← List.append_assoc] at htrace
      have hsplit := List.append_inj' htrace rfl
      have hlast := List.singleton_inj.mp hsplit.2
      subst hlast
      rw [List.mem_append, List.mem_singleton] at hafter
      right
      constructor
      · intro heq
        exact hafter (.inr heq.symm)
      · exact ⟨before, after', hsplit.1, fun hmem => hafter (.inl hmem)⟩
  · intro h
    rcases h with hrequest | ⟨hne, before, after, htrace, hafter⟩
    · subst hrequest
      exact ⟨trace, [], rfl, List.not_mem_nil⟩
    · exists before, after ++ [c]
      constructor
      · rw [htrace, List.append_assoc]
        rfl
      · rw [List.mem_append, List.mem_singleton, not_or]
        exact ⟨hafter, hne.symm⟩

theorem unserved_append_neutral {trace calls : List (Call μ)}
    (h : forall c, c ∈ calls -> c.Neutral) : Unserved (trace ++ calls) <-> Unserved trace := by
  induction calls generalizing trace with
  | nil => rw [List.append_nil]
  | cons c calls ih =>
      rw [List.forall_mem_cons] at h
      rw [List.append_cons, ih h.2, unserved_snoc]
      constructor
      · intro hor
        rcases hor with hrequest | ⟨_, hunserved⟩
        · subst hrequest
          cases h.1.1
        · exact hunserved
      · intro hunserved
        right
        constructor
        · intro hcallback
          subst hcallback
          cases h.1.2
        · exact hunserved

structure Served (d : Client σ μ) : Prop where
  callbacks_le : d.trace.countP Call.isCallback +
    (if d.location = .publishCallback then 1 else 0) +
    (if 0 < d.eventfdPublish then 1 else 0) ≤ d.trace.countP Call.isRequest
  unserved : Unserved d.trace -> 0 < d.eventfdPublish ∨ d.location = .publishCallback

namespace Served

theorem move {d d' : Client σ μ} {calls : List (Call μ)} (h : Served d)
    (hcalls : forall c, c ∈ calls -> c.Neutral) (hcount : d'.eventfdPublish = d.eventfdPublish)
    (htrace : d'.trace = d.trace ++ calls)
    (hlocation : d'.location = .publishCallback <-> d.location = .publishCallback) :
    Served d' := by
  have hcallbacks : calls.countP Call.isCallback = 0 := by
    rw [List.countP_eq_zero]
    intro c hc
    rw [(hcalls c hc).2]
    exact Bool.false_ne_true
  have hrequests : calls.countP Call.isRequest = 0 := by
    rw [List.countP_eq_zero]
    intro c hc
    rw [(hcalls c hc).1]
    exact Bool.false_ne_true
  constructor
  · rw [htrace, List.countP_append, List.countP_append, hcallbacks, hrequests, hcount]
    simp only [hlocation]
    exact h.callbacks_le
  · rw [htrace, unserved_append_neutral hcalls, hcount, hlocation]
    exact h.unserved

theorem schedule {d : Client σ μ} (h : Served d) : Served d.schedulePublishCallback := by
  have hpos := eventfdWrite_pos d.eventfdPublish
  have hcallbacks := h.callbacks_le
  have hone : (if 0 < eventfdWrite d.eventfdPublish 1 then 1 else 0) = 1 := if_pos hpos
  have hle : (if 0 < d.eventfdPublish then 1 else 0) ≥ 0 := Nat.zero_le _
  constructor
  · unfold Client.schedulePublishCallback Client.call
    dsimp only
    rw [hone, List.countP_append, List.countP_append]
    simp [Call.isCallback, Call.isRequest]
    lia
  · intro _
    left
    exact hpos

theorem read {d : Client σ μ} (h : Served d) (hlocation : d.location = .eventfdRead)
    (hpos : 0 < d.eventfdPublish) :
    Served (({ d with eventfdPublish := 0 }.call (.eventfdRead 0)).goto .publishCallback) := by
  have hcallbacks := h.callbacks_le
  rw [hlocation, if_pos hpos] at hcallbacks
  constructor
  · unfold Client.goto Client.call
    dsimp only
    rw [List.countP_append, List.countP_append]
    simp [Call.isCallback, Call.isRequest] at hcallbacks ⊢
    lia
  · intro _
    right
    rfl

theorem publishCallback {d : Client σ μ} (h : Served d)
    (hlocation : d.location = .publishCallback) :
    Served ((d.call .publishCallback).goto (.publish 0)) := by
  have hcallbacks := h.callbacks_le
  rw [if_pos hlocation] at hcallbacks
  constructor
  · unfold Client.goto Client.call
    dsimp only
    rw [List.countP_append, List.countP_append]
    simp [Call.isCallback, Call.isRequest] at hcallbacks ⊢
    lia
  · intro hunserved
    rcases (unserved_snoc d.trace .publishCallback).mp hunserved with hrequest | ⟨hne, _⟩
    · cases hrequest
    · exact absurd rfl hne

theorem returned {d d' : Client σ μ} {index : Nat} {calls : List (Call μ)} {ret : Int}
    (h : Served d) (hlocation : d.location = .publish index)
    (hcalls : forall c, c ∈ calls -> c.Neutral) (hcount : d'.eventfdPublish = d.eventfdPublish)
    (htrace : d'.trace = d.trace ++ calls) : Served (d'.returned ret) := by
  have hneutral : forall c, c ∈ calls ++ [Call.callbackReturned ret] -> c.Neutral := by
    rw [List.forall_mem_append, List.forall_mem_singleton]
    exact ⟨hcalls, rfl, rfl⟩
  have hreturned : (d'.returned ret).trace = d.trace ++ (calls ++ [.callbackReturned ret]) := by
    rw [← List.append_assoc, ← htrace]
    rfl
  apply h.move hneutral _ hreturned
  · rw [hlocation]
    unfold Client.returned Client.goto
    split <;> simp
  · exact hcount

theorem moves {app : App σ ω μ} {d d' : Client σ μ} (h : Served d)
    (hmoves : Client.Moves app d d') : Served d' := by
  cases hmoves with
  | @app a s schedules happ =>
      have hshared : Served { d with shared := s } :=
        h.move (List.forall_mem_nil _) rfl (List.append_nil _).symm Iff.rfl
      cases schedules with
      | false => exact hshared
      | true => exact hshared.schedule
  | acts hacts =>
      cases hacts with
      | other calls hcalls hshared hcount htrace hlocation =>
          apply h.move (fun c hc => (hcalls c hc).neutral) hcount htrace
          rcases hlocation with hsame | ⟨hbefore, hafter⟩
          · rw [hsame]
          · constructor
            · intro heq
              rw [heq] at hafter
              exact absurd trivial hafter
            · intro heq
              rw [heq] at hbefore
              exact absurd trivial hbefore
      | read hlocation hpos => exact h.read hlocation hpos
      | publishCallback hlocation => exact h.publishCallback hlocation
      | @published index message hlocation hmessage =>
          have hneutral : forall c, c ∈ [Call.publish (message d.shared) 0] -> c.Neutral :=
            List.forall_mem_singleton.mpr ⟨rfl, rfl⟩
          have hafter : Location.publish (index + 1) = .publishCallback <->
              d.location = .publishCallback := by
            rw [hlocation]
            simp
          exact h.move hneutral rfl rfl hafter
      | failed hlocation hmessage hret =>
          exact h.returned hlocation (List.forall_mem_singleton.mpr ⟨rfl, rfl⟩) rfl rfl
      | finished hlocation hnone =>
          exact h.returned hlocation (List.forall_mem_nil _) rfl (List.append_nil _).symm

end Served

theorem served_of_run {app : App σ ω μ} {as : List (Step ω)} {d : Client σ μ}
    (run : (clientSystem app).Run as d) : Served d := by
  apply run.invariant (I := fun _ d => Served d)
  · constructor
    · exact Nat.le_refl 0
    · intro hunserved
      rcases hunserved with ⟨before, after, htrace, _⟩
      cases before <;> cases htrace
  · intro as a d d' _ hserved hstep
    exact hserved.moves (Client.moves_of_next hstep)

/--
There are no more calls of the publish callback than requests, and when no
request is left, the last call is behind the last request.
-/
theorem requests_served {app : App σ ω μ} {as : List (Step ω)} {d : Client σ μ}
    (run : (clientSystem app).Run as d) :
    d.trace.countP Call.isCallback ≤ d.trace.countP Call.isRequest ∧
      (d.eventfdPublish = 0 -> d.location ≠ .publishCallback ->
        forall before after, d.trace = before ++ .schedulePublishCallback :: after ->
          .publishCallback ∈ after) := by
  have hserved := served_of_run run
  constructor
  · have hcallbacks := hserved.callbacks_le
    lia
  · intro hcount hlocation before after htrace
    apply Classical.byContradiction
    intro hafter
    rcases hserved.unserved ⟨before, after, htrace, hafter⟩ with hpos | heq
    · rw [hcount] at hpos
      exact Nat.lt_irrefl 0 hpos
    · exact hlocation heq

theorem requests_served_counter :
    exists d, (clientSystem counter).Run answered d ∧ d.eventfdPublish = 0 ∧
      forall before after, d.trace = before ++ .schedulePublishCallback :: after ->
        .publishCallback ∈ after := by
  have hrun : (clientSystem counter).Run answered _ := System.run_of_steps rfl
  exact ⟨_, hrun, rfl, (requests_served hrun).2 rfl Location.noConfusion⟩

end Mqttsndev
end Firmware
end Smartmeter
