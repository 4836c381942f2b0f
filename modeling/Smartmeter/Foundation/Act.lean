import Smartmeter.Foundation.Prog

/-!
# Fallible stateful actions

A method on a mutable receiver that may fail: it takes the receiver, performs
operations and gives back a result or an error together with the receiver as it
was left.  An error does not undo what happened to the receiver before it.
-/

namespace Smartmeter
namespace Foundation

def Act (S : Sig) (ε σ α : Type) : Type :=
  σ -> Prog S (Except ε α × σ)

namespace Act

variable {S T : Sig} {ε σ τ α β γ : Type}

def pure (a : α) : Act S ε σ α :=
  fun s => .ret (.ok a, s)

/-- Continue after a success; an error ends the method. -/
def bind (p : Act S ε σ α) (f : α -> Act S ε σ β) : Act S ε σ β :=
  fun s => (p s).bind fun
    | (.ok a, s') => f a s'
    | (.error e, s') => .ret (.error e, s')

instance : Monad (Act S ε σ) where
  pure := Act.pure
  bind := Act.bind

def fail (e : ε) : Act S ε σ α :=
  fun s => .ret (.error e, s)

def gets (f : σ -> α) : Act S ε σ α :=
  fun s => .ret (.ok (f s), s)

def modify (f : σ -> σ) : Act S ε σ Unit :=
  fun s => .ret (.ok (), f s)

def ofExcept (r : Except ε α) : Act S ε σ α :=
  fun s => .ret (r, s)

def attempt (p : Act S ε σ α) : Act S ε σ (Except ε α) :=
  fun s => (p s).bind fun (r, s') => .ret (.ok r, s')

/-- The loop would go on although its unrolling is used up. -/
def outOfFuel : Act S ε σ α :=
  fun _ => .stuck

/-- Run `body` until it returns a result, at most `fuel` times. -/
def iterate {ι : Type} (fuel : Nat) (body : ι -> Act S ε σ (ι ⊕ α)) (i : ι) :
    Act S ε σ α :=
  match fuel with
  | 0 => outOfFuel
  | n + 1 =>
      Act.bind (body i) fun
        | .inl i' => iterate n body i'
        | .inr a => Act.pure a

/--
Borrow a part of the receiver for the duration of a method: `get` takes the
part out, `put` gives it back, also after an error.
-/
def borrow (get : τ -> σ) (put : σ -> τ -> τ) (p : Act S ε σ α) : Act S ε τ α :=
  fun t => (p (get t)).bind fun (r, s') => .ret (r, put s' t)

theorem bind_apply (p : Act S ε σ α) (f : α -> Act S ε σ β) (s : σ) :
    (p >>= f) s = (p s).bind fun
      | (.ok a, s') => f a s'
      | (.error e, s') => .ret (.error e, s') := rfl

theorem bind_assoc (p : Act S ε σ α) (f : α -> Act S ε σ β) (g : β -> Act S ε σ γ) :
    p >>= f >>= g = p >>= fun a => f a >>= g := by
  funext s
  simp only [bind_apply, Prog.bind_assoc]
  congr 1
  funext x
  rcases x with ⟨r, s'⟩
  cases r <;> rfl

@[simp] theorem pure_apply (a : α) (s : σ) :
    (Pure.pure a : Act S ε σ α) s = .ret (.ok a, s) := rfl

@[simp] theorem fail_apply (e : ε) (s : σ) :
    (fail e : Act S ε σ α) s = .ret (.error e, s) := rfl

@[simp] theorem gets_apply (f : σ -> α) (s : σ) :
    (gets f : Act S ε σ α) s = .ret (.ok (f s), s) := rfl

@[simp] theorem modify_apply (f : σ -> σ) (s : σ) :
    (modify f : Act S ε σ Unit) s = .ret (.ok (), f s) := rfl

@[simp] theorem ofExcept_apply (r : Except ε α) (s : σ) :
    (ofExcept r : Act S ε σ α) s = .ret (r, s) := rfl

theorem attempt_apply (p : Act S ε σ α) (s : σ) :
    attempt p s = (p s).bind fun (r, s') => .ret (.ok r, s') := rfl

@[simp] theorem outOfFuel_apply (s : σ) :
    (outOfFuel : Act S ε σ α) s = .stuck := rfl

theorem iterate_succ {ι : Type} (n : Nat) (body : ι -> Act S ε σ (ι ⊕ α))
    (i : ι) :
    iterate (n + 1) body i = body i >>= fun
      | .inl i' => iterate n body i'
      | .inr a => Pure.pure a := rfl

theorem borrow_apply (get : τ -> σ) (put : σ -> τ -> τ) (p : Act S ε σ α)
    (t : τ) :
    borrow get put p t =
      (p (get t)).bind fun (r, s') => .ret (r, put s' t) := rfl

end Act

end Foundation
end Smartmeter
