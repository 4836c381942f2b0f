import Smartmeter.Foundation.Prog

/-!
# Suspended programs

An asynchronous driver carries out an operation by polling a future: a poll
either completes the operation or leaves it pending, and a pending operation is
polled again later.  A task is a program together with the future it waits for.

The last section compares a driver with a handler: when every poll keeps what
remains to be done in step with the handler, polling a task any number of times
does not change how the program will end.
-/

namespace Smartmeter
namespace Foundation

inductive Poll (α : Type) : Type where
  | pending
  | ready (a : α)
deriving DecidableEq, Repr

/--
A driver starts a future for each operation and polls it; `none` is a poll
that does not return.
-/
structure Driver (S : Sig) (σ : Type) where
  Fut : S.Op -> Type
  start : (o : S.Op) -> Fut o
  poll : {o : S.Op} -> Fut o -> σ -> Option (Poll (S.Resp o) × Fut o × σ)

/-- A program that was not polled yet, or that waits for a future. -/
inductive Task {S : Sig} {σ : Type} (D : Driver S σ) (α : Type) : Type where
  | fresh (p : Prog S α)
  | await {o : S.Op} (f : D.Fut o) (k : S.Resp o -> Prog S α)

inductive Standing {S : Sig} {σ : Type} (D : Driver S σ) (α : Type) : Type where
  | waiting (t : Task D α) (s : σ)
  | finished (a : α) (s : σ)
  | hung (s : σ)

namespace Standing

variable {S : Sig} {σ α : Type} {D : Driver S σ}

def state : Standing D α -> σ
  | .waiting _ s => s
  | .finished _ s => s
  | .hung s => s

def isWaiting : Standing D α -> Bool
  | .waiting _ _ => true
  | _ => false

theorem eq_waiting {x : Standing D α} (h : x.isWaiting = true) :
    exists t, x = .waiting t x.state := by
  cases x with
  | waiting t s => exact ⟨t, rfl⟩
  | finished a s => cases h
  | hung s => cases h

end Standing

namespace Prog

variable {S : Sig} {σ α : Type}

def resume (D : Driver S σ) : Prog S α -> σ -> Standing D α
  | .ret a, s => .finished a s
  | .op o k, s =>
      match D.poll (D.start o) s with
      | none => .hung s
      | some (.ready r, _, s') => (k r).resume D s'
      | some (.pending, f, s') => .waiting (.await f k) s'
  | .stuck, s => .hung s

/-- How a program goes on after its first operation was polled. -/
def goOn {D : Driver S σ} {o : S.Op} (k : S.Resp o -> Prog S α) (s : σ) :
    Option (Poll (S.Resp o) × D.Fut o × σ) -> Standing D α
  | none => .hung s
  | some (.ready r, _, s') => (k r).resume D s'
  | some (.pending, f, s') => .waiting (.await f k) s'

theorem resume_op (D : Driver S σ) {o : S.Op} (k : S.Resp o -> Prog S α) (s : σ) :
    (Prog.op o k).resume D s = goOn k s (D.poll (D.start o) s) := by
  cases h : D.poll (D.start o) s with
  | none => simp only [resume, goOn, h]
  | some x =>
      rcases x with ⟨ans, f', s'⟩
      cases ans <;> simp only [resume, goOn, h]

end Prog

namespace Task

variable {S : Sig} {σ α : Type} {D : Driver S σ}

/-- Poll a task once: run it up to its next pending future. -/
def poll : Task D α -> σ -> Standing D α
  | .fresh p, s => p.resume D s
  | .await f k, s =>
      match D.poll f s with
      | none => .hung s
      | some (.ready r, _, s') => (k r).resume D s'
      | some (.pending, f', s') => .waiting (.await f' k) s'

end Task

namespace Standing

variable {S : Sig} {σ α : Type} {D : Driver S σ}

def poll : Standing D α -> Standing D α
  | .waiting t s => t.poll s
  | .finished a s => .finished a s
  | .hung s => .hung s

@[simp] theorem poll_fresh (p : Prog S α) (s : σ) :
    (Standing.waiting (.fresh p) s : Standing D α).poll = p.resume D s := rfl

theorem poll_await {o : S.Op} (f : D.Fut o) (k : S.Resp o -> Prog S α) (s : σ) :
    (Standing.waiting (.await f k) s : Standing D α).poll = Prog.goOn k s (D.poll f s) := by
  cases h : D.poll f s with
  | none => simp only [Standing.poll, Task.poll, Prog.goOn, h]
  | some x =>
      rcases x with ⟨ans, f', s'⟩
      cases ans <;> simp only [Standing.poll, Task.poll, Prog.goOn, h]

theorem poll_await_ready {o : S.Op} {f f' : D.Fut o} {k : S.Resp o -> Prog S α}
    {s s' : σ} {r : S.Resp o} (h : D.poll f s = some (.ready r, f', s')) :
    (Standing.waiting (.await f k) s).poll = (k r).resume D s' := by
  simp only [Standing.poll, Task.poll, h]

theorem poll_await_pending {o : S.Op} {f f' : D.Fut o}
    {k : S.Resp o -> Prog S α} {s s' : σ}
    (h : D.poll f s = some (.pending, f', s')) :
    (Standing.waiting (.await f k) s).poll = .waiting (.await f' k) s' := by
  simp only [Standing.poll, Task.poll, h]

def polls : Nat -> Standing D α -> Standing D α
  | 0, x => x
  | n + 1, x => polls n x.poll

end Standing

/-!
## A driver that agrees with a handler
-/

/--
What relates a driver to a handler: `view` forgets how far a pending
operation has come, `rest` is what the handler has still to do for a
future, and `Inv` is what the driver maintains of its state and of the
future it polls.
-/
structure Agrees {S : Sig} {σ τ : Type} (D : Driver S σ) (H : Handler S τ)
    (view : σ -> τ) (Inv : σ -> Prop) where
  rest : {o : S.Op} -> D.Fut o -> τ -> Outcome (S.Resp o) τ
  FutInv : {o : S.Op} -> D.Fut o -> Prop
  futInv_start : forall o, FutInv (D.start o)
  rest_start : forall o t, rest (D.start o) t = H o t
  returns : forall {o} (f : D.Fut o) s, Inv s -> FutInv f -> D.poll f s ≠ none
  ready : forall {o} (f f' : D.Fut o) s s' r, Inv s -> FutInv f ->
    D.poll f s = some (.ready r, f', s') ->
    Inv s' ∧ rest f (view s) = .done r (view s')
  pending : forall {o} (f f' : D.Fut o) s s', Inv s -> FutInv f ->
    D.poll f s = some (.pending, f', s') ->
    Inv s' ∧ FutInv f' ∧ rest f (view s) = rest f' (view s')

namespace Agrees

variable {S : Sig} {σ τ α : Type} {D : Driver S σ} {H : Handler S τ}
  {view : σ -> τ} {Inv : σ -> Prop}

/-- How a task will end, according to the handler. -/
def outlook (A : Agrees D H view Inv) : Standing D α -> Outcome α τ
  | .waiting (.fresh p) s => p.run H (view s)
  | .waiting (.await f k) s =>
      (A.rest f (view s)).andThen fun r t => (k r).run H t
  | .finished a s => .done a (view s)
  | .hung s => .stuck (view s)

def Sound (A : Agrees D H view Inv) : Standing D α -> Prop
  | .waiting (.fresh _) s => Inv s
  | .waiting (.await f _) s => Inv s ∧ A.FutInv f
  | .finished _ s => Inv s
  | .hung s => Inv s

theorem resume_sound (A : Agrees D H view Inv) (p : Prog S α) {s : σ}
    (hs : Inv s) :
    A.Sound (p.resume D s) ∧ A.outlook (p.resume D s) = p.run H (view s) := by
  induction p generalizing s with
  | ret a => exact ⟨hs, rfl⟩
  | op o k ih =>
      have hreturns := A.returns (D.start o) s hs (A.futInv_start o)
      rw [Prog.run_op, ← A.rest_start]
      unfold Prog.resume
      cases hpoll : D.poll (D.start o) s with
      | none => exact absurd hpoll hreturns
      | some x =>
          rcases x with ⟨ans, f', s'⟩
          cases ans with
          | ready r =>
              rcases A.ready _ f' s s' r hs (A.futInv_start o) hpoll with
                ⟨hs', hrest⟩
              rw [hrest]
              exact ih r hs'
          | pending =>
              rcases A.pending _ f' s s' hs (A.futInv_start o) hpoll with
                ⟨hs', hf', hrest⟩
              rw [hrest]
              exact ⟨⟨hs', hf'⟩, rfl⟩
  | stuck => exact ⟨hs, rfl⟩

theorem poll_sound (A : Agrees D H view Inv) {x : Standing D α}
    (hx : A.Sound x) : A.Sound x.poll ∧ A.outlook x.poll = A.outlook x := by
  cases x with
  | finished a s => exact ⟨hx, rfl⟩
  | hung s => exact ⟨hx, rfl⟩
  | waiting t s =>
      cases t with
      | fresh p => exact A.resume_sound p hx
      | await f k =>
          rcases hx with ⟨hs, hf⟩
          cases hpoll : D.poll f s with
          | none => exact absurd hpoll (A.returns f s hs hf)
          | some y =>
              rcases y with ⟨ans, f', s'⟩
              cases ans with
              | ready r =>
                  rcases A.ready f f' s s' r hs hf hpoll with ⟨hs', hrest⟩
                  rcases A.resume_sound (k r) hs' with ⟨hsound, hout⟩
                  rw [Standing.poll_await_ready hpoll]
                  refine ⟨hsound, hout.trans ?_⟩
                  show _ = (A.rest f (view s)).andThen _
                  rw [hrest, Outcome.done_andThen]
              | pending =>
                  rcases A.pending f f' s s' hs hf hpoll with ⟨hs', hf', hrest⟩
                  rw [Standing.poll_await_pending hpoll]
                  refine ⟨⟨hs', hf'⟩, ?_⟩
                  show (A.rest f' (view s')).andThen _ = (A.rest f (view s)).andThen _
                  rw [hrest]

theorem polls_sound (A : Agrees D H view Inv) (n : Nat) {x : Standing D α}
    (hx : A.Sound x) :
    A.Sound (x.polls n) ∧ A.outlook (x.polls n) = A.outlook x := by
  induction n generalizing x with
  | zero => exact ⟨hx, rfl⟩
  | succ n ih =>
      rcases A.poll_sound hx with ⟨hsound, hout⟩
      rcases ih hsound with ⟨hsound', hout'⟩
      exact ⟨hsound', hout'.trans hout⟩

theorem waiting_of_pending (A : Agrees D H view Inv) {Q : σ -> Prop}
    (hpending : forall {o} (f f' : D.Fut o) s s', Inv s -> A.FutInv f ->
      D.poll f s = some (.pending, f', s') -> Q s')
    {x : Standing D α} (hx : A.Sound x) (hwaiting : x.isWaiting = true) {t : Task D α} {s' : σ}
    (h : x.poll = .waiting t s') : Q s' := by
  have hresume : forall (p : Prog S α) {s : σ}, Inv s -> p.resume D s = .waiting t s' -> Q s' := by
    intro p
    induction p with
    | ret a =>
        intro s _ h
        cases h
    | stuck =>
        intro s _ h
        cases h
    | op o k ih =>
        intro s hs h
        unfold Prog.resume at h
        cases hpoll : D.poll (D.start o) s with
        | none =>
            rw [hpoll] at h
            cases h
        | some y =>
            rcases y with ⟨ans, f', s''⟩
            rw [hpoll] at h
            cases ans with
            | ready r => exact ih r (A.ready _ f' s s'' r hs (A.futInv_start o) hpoll).1 h
            | pending =>
                cases h
                exact hpending _ f' s s' hs (A.futInv_start o) hpoll
  cases x with
  | finished a s => cases hwaiting
  | hung s => cases hwaiting
  | waiting t₀ s =>
      cases t₀ with
      | fresh p => exact hresume p hx h
      | await f k =>
          rcases hx with ⟨hs, hf⟩
          cases hpoll : D.poll f s with
          | none => exact absurd hpoll (A.returns f s hs hf)
          | some y =>
              rcases y with ⟨ans, f', s''⟩
              cases ans with
              | ready r =>
                  rw [Standing.poll_await_ready hpoll] at h
                  exact hresume (k r) (A.ready f f' s s'' r hs hf hpoll).1 h
              | pending =>
                  rw [Standing.poll_await_pending hpoll] at h
                  cases h
                  exact hpending f f' s s' hs hf hpoll

theorem outlook_monotone (A : Agrees D H view Inv) {R : τ -> τ -> Prop}
    (hrefl : forall t, R t t) (htrans : forall t u v, R t u -> R u v -> R t v)
    (hstep : forall o t, R t (H o t).state)
    (hrest : forall {o} (f : D.Fut o) t, R t (A.rest f t).state) (x : Standing D α) :
    R (view x.state) (A.outlook x).state := by
  cases x with
  | finished a s => exact hrefl _
  | hung s => exact hrefl _
  | waiting t s =>
      cases t with
      | fresh p => exact p.run_monotone hrefl htrans hstep (view s)
      | await f k =>
          have hf := hrest f (view s)
          change R (view s) ((A.rest f (view s)).andThen _).state
          cases hans : A.rest f (view s) with
          | done r t =>
              rw [hans] at hf
              exact htrans _ _ _ hf ((k r).run_monotone hrefl htrans hstep t)
          | blocked t =>
              rw [hans] at hf
              exact hf
          | stuck t =>
              rw [hans] at hf
              exact hf

end Agrees

/-!
## Polling until nothing more happens

A future that stays pending uses up patience unless the handler is blocked, too.
So a task that is polled often enough ends as the handler says, or waits where
the handler is blocked.
-/

/-- Pending polls are a matter of patience, and of the input that is not there yet. -/
structure Patient {S : Sig} {σ τ : Type} {D : Driver S σ} {H : Handler S τ}
    {view : σ -> τ} {Inv : σ -> Prop} (A : Agrees D H view Inv)
    (patience : σ -> Nat) (Drained : σ -> Prop) : Prop where
  ready : forall {o} (f f' : D.Fut o) s s' r, Inv s -> A.FutInv f ->
    D.poll f s = some (.ready r, f', s') -> patience s' ≤ patience s
  pending : forall {o} (f f' : D.Fut o) s s', Inv s -> A.FutInv f ->
    D.poll f s = some (.pending, f', s') ->
    patience s' < patience s ∨ Drained s'
  drained : forall {o} (f f' : D.Fut o) s s', Inv s -> A.FutInv f ->
    D.poll f s = some (.pending, f', s') -> Drained s' ->
    A.rest f' (view s') = .blocked (view s')

namespace Patient

variable {S : Sig} {σ τ α : Type} {D : Driver S σ} {H : Handler S τ}
  {view : σ -> τ} {Inv : σ -> Prop} {A : Agrees D H view Inv}
  {patience : σ -> Nat} {Drained : σ -> Prop}

/-- A task that waits after a poll has used up patience or waits for more input. -/
def Waited (A : Agrees D H view Inv) (patience : σ -> Nat) (Drained : σ -> Prop)
    (s : σ) : Standing D α -> Prop
  | .waiting t s' =>
      (patience s' < patience s ∨ Drained s') ∧
        (Drained s' -> A.outlook (.waiting t s') = .blocked (view s'))
  | .finished _ _ => True
  | .hung _ => True

theorem Waited.of_le {s s' : σ} (hle : patience s' ≤ patience s)
    {x : Standing D α} (h : Waited A patience Drained s' x) :
    Waited A patience Drained s x := by
  cases x with
  | waiting t s'' =>
      rcases h with ⟨hless | hdrained, hblocked⟩
      · exact ⟨Or.inl (Nat.lt_of_lt_of_le hless hle), hblocked⟩
      · exact ⟨Or.inr hdrained, hblocked⟩
  | finished a s'' => trivial
  | hung s'' => trivial

theorem waited_await (P : Patient A patience Drained) {o : S.Op} {f f' : D.Fut o}
    {k : S.Resp o -> Prog S α} {s s' : σ} (hs : Inv s) (hf : A.FutInv f)
    (h : D.poll f s = some (.pending, f', s')) :
    Waited A patience Drained s (.waiting (.await f' k) s') := by
  refine ⟨P.pending f f' s s' hs hf h, ?_⟩
  intro hdrained
  change (A.rest f' (view s')).andThen (fun r t => (k r).run H t) = _
  rw [P.drained f f' s s' hs hf h hdrained, Outcome.blocked_andThen]

theorem waited_resume (P : Patient A patience Drained) (p : Prog S α) {s : σ}
    (hs : Inv s) : Waited A patience Drained s (p.resume D s) := by
  induction p generalizing s with
  | ret a => trivial
  | op o k ih =>
      unfold Prog.resume
      cases hpoll : D.poll (D.start o) s with
      | none => trivial
      | some x =>
          rcases x with ⟨ans, f', s'⟩
          cases ans with
          | ready r =>
              have hs' := (A.ready _ f' s s' r hs (A.futInv_start o) hpoll).1
              have hle := P.ready _ f' s s' r hs (A.futInv_start o) hpoll
              exact (ih r hs').of_le hle
          | pending => exact P.waited_await hs (A.futInv_start o) hpoll
  | stuck => trivial

theorem waited_poll (P : Patient A patience Drained) {t : Task D α} {s : σ}
    (hx : A.Sound (.waiting t s)) :
    Waited A patience Drained s (Standing.waiting t s).poll := by
  cases t with
  | fresh p => exact P.waited_resume p hx
  | await f k =>
      rcases hx with ⟨hs, hf⟩
      cases hpoll : D.poll f s with
      | none => exact absurd hpoll (A.returns f s hs hf)
      | some y =>
          rcases y with ⟨ans, f', s'⟩
          cases ans with
          | ready r =>
              have hs' := (A.ready f f' s s' r hs hf hpoll).1
              have hle := P.ready f f' s s' r hs hf hpoll
              rw [Standing.poll_await_ready hpoll]
              exact (P.waited_resume (k r) hs').of_le hle
          | pending =>
              rw [Standing.poll_await_pending hpoll]
              exact P.waited_await hs hf hpoll

end Patient

/-- What a standing shows of its end: the outcome, as soon as nothing more happens. -/
def Standing.Shows {S : Sig} {σ τ α : Type} {D : Driver S σ} (view : σ -> τ) :
    Standing D α -> Outcome α τ -> Prop
  | .waiting _ s, x => x = .blocked (view s)
  | .finished a s, x => x = .done a (view s)
  | .hung s, x => x = .stuck (view s)

namespace Standing

variable {S : Sig} {σ α : Type} {D : Driver S σ}

theorem Shows.state_eq {τ : Type} {view : σ -> τ} {x : Standing D α} {out : Outcome α τ}
    (h : x.Shows view out) : view x.state = out.state := by
  cases x <;> rw [h] <;> rfl

theorem polls_succ (n : Nat) (x : Standing D α) : x.polls (n + 1) = x.poll.polls n := rfl

theorem polls_add (m n : Nat) (x : Standing D α) : x.polls (m + n) = (x.polls m).polls n := by
  induction m generalizing x with
  | zero =>
      rw [Nat.zero_add]
      rfl
  | succ m ih =>
      rw [Nat.succ_add]
      exact ih x.poll

theorem polls_finished (n : Nat) (a : α) (s : σ) :
    (Standing.finished a s : Standing D α).polls n = .finished a s := by
  induction n with
  | zero => rfl
  | succ n ih => exact ih

theorem polls_hung (n : Nat) (s : σ) : (Standing.hung s : Standing D α).polls n = .hung s := by
  induction n with
  | zero => rfl
  | succ n ih => exact ih

theorem polls_ne_hung {x : Standing D α} {m : Nat} {a : α} {s : σ}
    (h : x.polls m = .finished a s) (n : Nat) (s' : σ) : x.polls n ≠ .hung s' := by
  intro hhung
  rcases Nat.le_total m n with hle | hle
  · rcases Nat.exists_eq_add_of_le hle with ⟨k, rfl⟩
    rw [polls_add, h, polls_finished] at hhung
    cases hhung
  · rcases Nat.exists_eq_add_of_le hle with ⟨k, rfl⟩
    rw [polls_add, hhung, polls_hung] at h
    cases h

theorem polls_succ' (n : Nat) (x : Standing D α) : x.polls (n + 1) = (x.polls n).poll := by
  induction n generalizing x with
  | zero => rfl
  | succ n ih => exact ih x.poll

end Standing

namespace Patient

variable {S : Sig} {σ τ α : Type} {D : Driver S σ} {H : Handler S τ}
  {view : σ -> τ} {Inv : σ -> Prop} {A : Agrees D H view Inv}
  {patience : σ -> Nat} {Drained : σ -> Prop}

theorem shows_of_drained (P : Patient A patience Drained) {x : Standing D α}
    (hx : A.Sound x) {n : Nat} {t : Task D α} {s : σ}
    (h : x.polls (n + 1) = .waiting t s) (hdrained : Drained s) :
    A.outlook x = .blocked (view s) := by
  rcases A.polls_sound n hx with ⟨hsound, hout⟩
  rcases A.poll_sound hsound with ⟨_, hout'⟩
  rw [Standing.polls_succ'] at h
  rw [← hout, ← hout', h]
  cases hn : x.polls n with
  | waiting t' s' =>
      rw [hn] at hsound h
      have hwaited := P.waited_poll hsound
      rw [h] at hwaited
      exact hwaited.2 hdrained
  | finished a s' =>
      rw [hn] at h
      cases h
  | hung s' =>
      rw [hn] at h
      cases h

theorem settles (P : Patient A patience Drained) {x : Standing D α}
    (hx : A.Sound x) : exists n, (x.polls n).Shows view (A.outlook x) := by
  generalize hm : patience x.state = m
  induction m using Nat.strongRecOn generalizing x with
  | _ m ih =>
      cases x with
      | finished a s => exact ⟨0, rfl⟩
      | hung s => exact ⟨0, rfl⟩
      | waiting t s =>
          have hwaited := P.waited_poll hx
          rcases A.poll_sound hx with ⟨hsound, hout⟩
          cases hpoll : (Standing.waiting t s).poll with
          | finished a s' =>
              refine ⟨1, ?_⟩
              rw [Standing.polls_succ, ← hout, hpoll]
              rfl
          | hung s' =>
              refine ⟨1, ?_⟩
              rw [Standing.polls_succ, ← hout, hpoll]
              rfl
          | waiting t' s' =>
              rw [hpoll] at hwaited hsound hout
              rcases hwaited with ⟨hless | hdrained, hblocked⟩
              · rw [← hm] at ih
                rcases ih _ hless hsound rfl with ⟨n, hn⟩
                refine ⟨n + 1, ?_⟩
                rw [Standing.polls_succ, hpoll, ← hout]
                exact hn
              · refine ⟨1, ?_⟩
                rw [Standing.polls_succ, hpoll, ← hout]
                exact hblocked hdrained

end Patient

end Foundation
end Smartmeter
