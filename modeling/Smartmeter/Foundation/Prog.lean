import Mathlib.Logic.Function.Basic

/-!
# Interaction programs

A program over a signature of operations is a tree: it returns, or performs an
operation and continues with the answer.  The tree says nothing about how an
operation is carried out, so one program has several meanings, one for each
handler.  Loops are unrolled a given number of times; a loop that would go on
is `stuck`, which no handler turns into an answer.
-/

namespace Smartmeter
namespace Foundation

structure Sig where
  Op : Type
  Resp : Op -> Type

inductive Prog (S : Sig) (α : Type) : Type where
  | ret (a : α)
  | op (o : S.Op) (k : S.Resp o -> Prog S α)
  | stuck

namespace Prog

variable {S T : Sig} {α β γ : Type}

def bind : Prog S α -> (α -> Prog S β) -> Prog S β
  | .ret a, f => f a
  | .op o k, f => .op o fun r => (k r).bind f
  | .stuck, _ => .stuck

@[simp] theorem ret_bind (a : α) (f : α -> Prog S β) :
    (Prog.ret a).bind f = f a := rfl

@[simp] theorem op_bind (o : S.Op) (k : S.Resp o -> Prog S α)
    (f : α -> Prog S β) :
    (Prog.op o k).bind f = .op o fun r => (k r).bind f := rfl

@[simp] theorem stuck_bind (f : α -> Prog S β) :
    (Prog.stuck : Prog S α).bind f = .stuck := rfl

@[simp] theorem bind_ret (p : Prog S α) : p.bind .ret = p := by
  induction p with
  | ret a => rfl
  | op o k ih =>
      rw [op_bind]
      exact congrArg (Prog.op o) (funext ih)
  | stuck => rfl

theorem bind_assoc (p : Prog S α) (f : α -> Prog S β) (g : β -> Prog S γ) :
    (p.bind f).bind g = p.bind fun a => (f a).bind g := by
  induction p with
  | ret a => rfl
  | op o k ih =>
      simp only [op_bind]
      exact congrArg (Prog.op o) (funext ih)
  | stuck => rfl

def perform (o : S.Op) : Prog S (S.Resp o) :=
  .op o .ret

/--
Run `body` until it returns a result, at most `fuel` times; the left
summand is the state of the next iteration.
-/
def iterate {σ : Type} (fuel : Nat) (body : σ -> Prog S (σ ⊕ α)) (s : σ) :
    Prog S α :=
  match fuel with
  | 0 => .stuck
  | n + 1 =>
      (body s).bind fun
        | .inl s' => iterate n body s'
        | .inr a => .ret a

theorem iterate_succ {σ : Type} (n : Nat) (body : σ -> Prog S (σ ⊕ α)) (s : σ) :
    iterate (n + 1) body s =
      (body s).bind fun
        | .inl s' => iterate n body s'
        | .inr a => .ret a := rfl

/-- Rename the operations of a program along an embedding of signatures. -/
def embed (i : S.Op -> T.Op) (back : forall o, T.Resp (i o) -> S.Resp o) :
    Prog S α -> Prog T α
  | .ret a => .ret a
  | .op o k => .op (i o) fun r => (k (back o r)).embed i back
  | .stuck => .stuck

theorem embed_bind (i : S.Op -> T.Op) (back : forall o, T.Resp (i o) -> S.Resp o)
    (p : Prog S α) (f : α -> Prog S β) :
    (p.bind f).embed i back = (p.embed i back).bind fun a => (f a).embed i back := by
  induction p with
  | ret a => rfl
  | op o k ih =>
      simp only [op_bind, embed]
      exact congrArg (Prog.op (i o)) (funext fun r => ih (back o r))
  | stuck => rfl

end Prog

/-- How a program ends: with a result, waiting for input, or out of fuel. -/
inductive Outcome (α σ : Type) : Type where
  | done (a : α) (s : σ)
  | blocked (s : σ)
  | stuck (s : σ)

namespace Outcome

variable {α β γ σ τ : Type}

def state : Outcome α σ -> σ
  | .done _ s => s
  | .blocked s => s
  | .stuck s => s

def andThen : Outcome α σ -> (α -> σ -> Outcome β σ) -> Outcome β σ
  | .done a s, f => f a s
  | .blocked s, _ => .blocked s
  | .stuck s, _ => .stuck s

@[simp] theorem done_andThen (a : α) (s : σ) (f : α -> σ -> Outcome β σ) :
    (Outcome.done a s).andThen f = f a s := rfl

@[simp] theorem blocked_andThen (s : σ) (f : α -> σ -> Outcome β σ) :
    (Outcome.blocked s : Outcome α σ).andThen f = .blocked s := rfl

@[simp] theorem stuck_andThen (s : σ) (f : α -> σ -> Outcome β σ) :
    (Outcome.stuck s : Outcome α σ).andThen f = .stuck s := rfl

theorem andThen_assoc (x : Outcome α σ) (f : α -> σ -> Outcome β σ)
    (g : β -> σ -> Outcome γ σ) :
    (x.andThen f).andThen g = x.andThen fun a s => (f a s).andThen g := by
  cases x <;> rfl

theorem andThen_eq_done {x : Outcome α σ} {f : α -> σ -> Outcome β σ} {b : β}
    {t : σ} (h : x.andThen f = .done b t) :
    exists a s, x = .done a s ∧ f a s = .done b t := by
  cases x with
  | done a s => exact ⟨a, s, rfl, h⟩
  | blocked s => cases h
  | stuck s => cases h

end Outcome

abbrev Handler (S : Sig) (σ : Type) : Type :=
  (o : S.Op) -> σ -> Outcome (S.Resp o) σ

namespace Prog

variable {S T : Sig} {α β σ : Type}

def run (H : Handler S σ) : Prog S α -> σ -> Outcome α σ
  | .ret a, s => .done a s
  | .op o k, s => (H o s).andThen fun r s' => (k r).run H s'
  | .stuck, s => .stuck s

@[simp] theorem run_ret (H : Handler S σ) (a : α) (s : σ) :
    (Prog.ret a).run H s = .done a s := rfl

@[simp] theorem run_op (H : Handler S σ) (o : S.Op) (k : S.Resp o -> Prog S α)
    (s : σ) :
    (Prog.op o k).run H s = (H o s).andThen fun r s' => (k r).run H s' := rfl

@[simp] theorem run_stuck (H : Handler S σ) (s : σ) :
    (Prog.stuck : Prog S α).run H s = .stuck s := rfl

theorem run_bind (H : Handler S σ) (p : Prog S α) (f : α -> Prog S β) (s : σ) :
    (p.bind f).run H s = (p.run H s).andThen fun a s' => (f a).run H s' := by
  induction p generalizing s with
  | ret a => rfl
  | op o k ih =>
      rw [op_bind, run_op, run_op, Outcome.andThen_assoc]
      congr 1
      funext r s'
      exact ih r s'
  | stuck => rfl

theorem run_embed (H : Handler T σ) (i : S.Op -> T.Op)
    (back : forall o, T.Resp (i o) -> S.Resp o) (p : Prog S α) (s : σ) :
    (p.embed i back).run H s =
      p.run (fun o t => (H (i o) t).andThen fun r t' => .done (back o r) t') s := by
  induction p generalizing s with
  | ret a => rfl
  | op o k ih =>
      rw [embed, run_op, run_op, Outcome.andThen_assoc]
      congr 1
      funext r s'
      exact ih (back o r) s'
  | stuck => rfl

/-!
## Invariants

What every operation of a handler preserves, every program preserves, also when
it ends waiting or out of fuel.
-/

theorem run_invariant {H : Handler S σ} {P : σ -> Prop}
    (hstep : forall o s, P s -> P (H o s).state) (p : Prog S α) {s : σ}
    (hs : P s) : P (p.run H s).state := by
  induction p generalizing s with
  | ret a => exact hs
  | op o k ih =>
      have ho := hstep o s hs
      rw [run_op]
      cases hans : H o s with
      | done r s' =>
          rw [hans] at ho
          exact ih r ho
      | blocked s' =>
          rw [hans] at ho
          exact ho
      | stuck s' =>
          rw [hans] at ho
          exact ho
  | stuck => exact hs

theorem run_monotone {H : Handler S σ} {R : σ -> σ -> Prop}
    (hrefl : forall s, R s s) (htrans : forall s t u, R s t -> R t u -> R s u)
    (hstep : forall o s, R s (H o s).state) (p : Prog S α) (s : σ) :
    R s (p.run H s).state :=
  run_invariant (P := R s) (fun o t ht => htrans s t _ ht (hstep o t)) p (hrefl s)

end Prog

end Foundation
end Smartmeter
