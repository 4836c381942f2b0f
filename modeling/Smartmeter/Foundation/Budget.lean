import Smartmeter.Foundation.ByteProg
import Smartmeter.Foundation.Hoare

/-!
# Programs on a budget of bytes

A loop that reads in every iteration is unrolled no more often than there are
bytes to be read.  What is counted here is how many bytes are left at most; a
read may fail at any time, and a program that has enough of its unrolling for
the bytes it can get does not get stuck.
-/

namespace Smartmeter
namespace Foundation

namespace Prog

variable {ι α β : Type}

/--
With `n` bytes left the program does not get stuck, and `Q` holds of
its result and of what is left then.
-/
def Lasts (Q : α -> Nat -> Prop) : Prog (ReadSig ι) α -> Nat -> Prop
  | .ret a, n => Q a n
  | .op .u8 k, n =>
      (forall e, (k (.error e)).Lasts Q n) ∧ forall b m, m + 1 = n -> (k (.ok b)).Lasts Q m
  | .op (.exact num) k, n =>
      (forall e, (k (.error e)).Lasts Q n) ∧
        forall bs m, m + num = n -> (k (.ok bs)).Lasts Q m
  | .stuck, _ => False

theorem Lasts.mono {Q R : α -> Nat -> Prop} {p : Prog (ReadSig ι) α} {n : Nat}
    (h : p.Lasts Q n) (hR : forall a m, m ≤ n -> Q a m -> R a m) : p.Lasts R n := by
  induction p generalizing n with
  | ret a => exact hR a n (Nat.le_refl n) h
  | op o k ih =>
      cases o with
      | u8 =>
          refine ⟨fun e => ih (.error e) (h.1 e) hR, ?_⟩
          intro b m hm
          exact ih (.ok b) (h.2 b m hm) fun a m' hm' => hR a m' (by lia)
      | exact num =>
          refine ⟨fun e => ih (.error e) (h.1 e) hR, ?_⟩
          intro bs m hm
          exact ih (.ok bs) (h.2 bs m hm) fun a m' hm' => hR a m' (by lia)
  | stuck => exact h

theorem Lasts.bind {Q : α -> Nat -> Prop} {R : β -> Nat -> Prop} {p : Prog (ReadSig ι) α}
    {f : α -> Prog (ReadSig ι) β} {n : Nat} (h : p.Lasts Q n)
    (hf : forall a m, m ≤ n -> Q a m -> (f a).Lasts R m) : (p.bind f).Lasts R n := by
  induction p generalizing n with
  | ret a => exact hf a n (Nat.le_refl n) h
  | op o k ih =>
      cases o with
      | u8 =>
          refine ⟨fun e => ih (.error e) (h.1 e) hf, ?_⟩
          intro b m hm
          exact ih (.ok b) (h.2 b m hm) fun a m' hm' => hf a m' (by lia)
      | exact num =>
          refine ⟨fun e => ih (.error e) (h.1 e) hf, ?_⟩
          intro bs m hm
          exact ih (.ok bs) (h.2 bs m hm) fun a m' hm' => hf a m' (by lia)
  | stuck => exact h.elim

end Prog

/-!
## Methods
-/

namespace Act

variable {ι ε σ τ κ α β : Type}

/-- With less than `limit` bytes left, the method does not get stuck. -/
def Endures (limit : Nat) (p : Act (ReadSig ι) ε σ α) : Prop :=
  forall s n, n < limit -> (p s).Lasts (fun _ _ => True) n

def Spends (limit : Nat) (p : Act (ReadSig ι) ε σ α) : Prop :=
  forall s n, n < limit -> (p s).Lasts (fun x m => forall a, x.1 = .ok a -> m < n) n

def SpendsOn (limit : Nat) (p : Act (ReadSig ι) ε σ (κ ⊕ α)) : Prop :=
  forall s n, n < limit -> (p s).Lasts (fun x m => forall i, x.1 = .ok (.inl i) -> m < n) n

variable {limit : Nat}

theorem Spends.endures {p : Act (ReadSig ι) ε σ α} (h : p.Spends limit) :
    p.Endures limit :=
  fun s n hn => (h s n hn).mono fun _ _ _ _ => trivial

theorem Spends.on {p : Act (ReadSig ι) ε σ (κ ⊕ α)} (h : p.Spends limit) :
    p.SpendsOn limit :=
  fun s n hn => (h s n hn).mono fun _ _ _ hspent i hi => hspent (.inl i) hi

namespace Endures

theorem pure (a : α) : Endures limit (Pure.pure a : Act (ReadSig ι) ε σ α) :=
  fun _ _ _ => trivial

theorem fail (e : ε) : Endures limit (Act.fail e : Act (ReadSig ι) ε σ α) :=
  fun _ _ _ => trivial

theorem gets (f : σ -> α) : Endures limit (Act.gets f : Act (ReadSig ι) ε σ α) :=
  fun _ _ _ => trivial

theorem modify (f : σ -> σ) : Endures limit (Act.modify f : Act (ReadSig ι) ε σ Unit) :=
  fun _ _ _ => trivial

theorem ofExcept (r : Except ε α) :
    Endures limit (Act.ofExcept r : Act (ReadSig ι) ε σ α) :=
  fun _ _ _ => trivial

theorem bind {p : Act (ReadSig ι) ε σ α} {f : α -> Act (ReadSig ι) ε σ β}
    (hp : Endures limit p) (hf : forall a, Endures limit (f a)) :
    Endures limit (p >>= f) := by
  intro s n hn
  refine (hp s n hn).bind ?_
  rintro ⟨r, s'⟩ m hm _
  cases r with
  | ok a => exact hf a s' m (Nat.lt_of_le_of_lt hm hn)
  | error e => trivial

theorem attempt {p : Act (ReadSig ι) ε σ α} (hp : Endures limit p) :
    Endures limit (Act.attempt p) :=
  fun s n hn => (hp s n hn).bind fun _ _ _ _ => trivial

theorem borrow {get : τ -> σ} {put : σ -> τ -> τ} {p : Act (ReadSig ι) ε σ α}
    (hp : Endures limit p) : Endures limit (Act.borrow get put p) :=
  fun t n hn => (hp (get t) n hn).bind fun _ _ _ _ => trivial

theorem iterate {body : κ -> Act (ReadSig ι) ε σ (κ ⊕ α)}
    (hbody : forall i, SpendsOn limit (body i)) (i : κ) :
    Endures limit (Act.iterate limit body i) := by
  have hloop : forall (fuel : Nat) (i : κ) (s : σ) (n : Nat), n < fuel -> n < limit ->
      (Act.iterate fuel body i s).Lasts (fun _ _ => True) n := by
    intro fuel
    induction fuel with
    | zero =>
        intro i s n hn
        exact absurd hn (Nat.not_lt_zero n)
    | succ fuel ih =>
        intro i s n hn hlimit
        refine (hbody i s n hlimit).bind ?_
        rintro ⟨r, s'⟩ m hm hspent
        cases r with
        | error e => trivial
        | ok x =>
            cases x with
            | inl i' =>
                have hless := hspent i' rfl
                exact ih i' s' m (by lia) (by lia)
            | inr a => trivial
  exact fun s n hn => hloop limit i s n hn hn

end Endures

namespace Spends

theorem bind {p : Act (ReadSig ι) ε σ α} {f : α -> Act (ReadSig ι) ε σ β}
    (hp : Spends limit p) (hf : forall a, Endures limit (f a)) : Spends limit (p >>= f) := by
  intro s n hn
  refine (hp s n hn).bind ?_
  rintro ⟨r, s'⟩ m hm hspent
  cases r with
  | ok a =>
      have hless := hspent a rfl
      exact (hf a s' m (by lia)).mono fun _ m' hm' _ _ _ => by lia
  | error e =>
      intro b hb
      cases hb

theorem bind_right {p : Act (ReadSig ι) ε σ α} {f : α -> Act (ReadSig ι) ε σ β}
    (hp : Endures limit p) (hf : forall a, Spends limit (f a)) : Spends limit (p >>= f) := by
  intro s n hn
  refine (hp s n hn).bind ?_
  rintro ⟨r, s'⟩ m hm _
  cases r with
  | ok a =>
      exact (hf a s' m (by lia)).mono fun _ m' _ hspent b hb =>
        Nat.lt_of_lt_of_le (hspent b hb) hm
  | error e =>
      intro b hb
      cases hb

theorem fail (e : ε) : Spends limit (Act.fail e : Act (ReadSig ι) ε σ α) := by
  intro s n _ a ha
  cases ha

theorem borrow {get : τ -> σ} {put : σ -> τ -> τ} {p : Act (ReadSig ι) ε σ α}
    (hp : Spends limit p) : Spends limit (Act.borrow get put p) :=
  fun t n hn => (hp (get t) n hn).bind fun _ _ _ hspent => hspent

end Spends

theorem SpendsOn.done (a : α) :
    SpendsOn limit (Pure.pure (Sum.inr a) : Act (ReadSig ι) ε σ (κ ⊕ α)) := by
  intro s n _ i hi
  cases hi

end Act

/-!
## Handlers with a meter
-/

namespace Outcome

variable {α β σ : Type}

/-- The program does not get stuck, and `Q` holds of its result. -/
def Ends (Q : α -> σ -> Prop) : Outcome α σ -> Prop
  | .done a s => Q a s
  | .blocked _ => True
  | .stuck _ => False

theorem Ends.mono {Q R : α -> σ -> Prop} {x : Outcome α σ} (h : x.Ends Q)
    (hR : forall a s, Q a s -> R a s) : x.Ends R := by
  cases x with
  | done a s => exact hR a s h
  | blocked s => trivial
  | stuck s => exact h

theorem Ends.andThen {Q : α -> σ -> Prop} {R : β -> σ -> Prop} {x : Outcome α σ}
    {f : α -> σ -> Outcome β σ} (h : x.Ends Q) (hf : forall a s, Q a s -> (f a s).Ends R) :
    (x.andThen f).Ends R := by
  cases x with
  | done a s => exact hf a s h
  | blocked s => trivial
  | stuck s => exact h.elim

theorem Ends.and_state {Q : α -> σ -> Prop} {P : σ -> Prop} {x : Outcome α σ} (h : x.Ends Q)
    (hP : P x.state) : x.Ends fun a s => Q a s ∧ P s := by
  cases x with
  | done a s => exact ⟨h, hP⟩
  | blocked s => trivial
  | stuck s => exact h

end Outcome

namespace Act

variable {S : Sig} {ε σ ω ι α β : Type}

theorem ends_bind {H : Handler S ω} {p : Act S ε σ α} {f : α -> Act S ε σ β} {s : σ}
    {t : ω} {Q : Except ε α × σ -> ω -> Prop} {R : Except ε β × σ -> ω -> Prop}
    (hp : ((p s).run H t).Ends Q)
    (hok : forall a s' t', Q (.ok a, s') t' -> ((f a s').run H t').Ends R)
    (herror : forall e s' t', Q (.error e, s') t' -> R (.error e, s') t') :
    (((p >>= f) s).run H t).Ends R := by
  rw [bind_apply, Prog.run_bind]
  refine hp.andThen ?_
  rintro ⟨r, s'⟩ t' h
  cases r with
  | ok a => exact hok a s' t' h
  | error e => exact herror e s' t' h

theorem ends_iterate {H : Handler S ω} {body : ι -> Act S ε σ (ι ⊕ α)}
    (Inv : ι -> σ -> ω -> Prop) (measure : ω -> Nat) {R : Except ε α × σ -> ω -> Prop}
    (hbody : forall i s t, Inv i s t -> ((body i s).run H t).Ends fun x t' =>
      (forall i', x.1 = .ok (.inl i') -> Inv i' x.2 t' ∧ measure t' < measure t) ∧
        (forall a, x.1 = .ok (.inr a) -> R (.ok a, x.2) t') ∧
        forall e, x.1 = .error e -> R (.error e, x.2) t')
    {n : Nat} {i : ι} {s : σ} {t : ω} (h : Inv i s t) (hn : measure t < n) :
    ((iterate n body i s).run H t).Ends R := by
  induction n generalizing i s t with
  | zero => exact absurd hn (Nat.not_lt_zero _)
  | succ n ih =>
      rw [iterate_succ]
      refine ends_bind (hbody i s t h) ?_ ?_
      · intro x s' t' hx
        cases x with
        | inl i' =>
            rcases hx.1 i' rfl with ⟨hinv, hless⟩
            exact ih hinv (by lia)
        | inr a => exact hx.2.1 a rfl
      · intro e s' t' hx
        exact hx.2.2 e rfl

end Act

/-- Every read ends or is blocked, and the bytes it gives are counted. -/
structure Metered {ι τ : Type} (H : Handler (ReadSig ι) τ) (left : τ -> Nat) : Prop where
  u8 : forall t, (H .u8 t).Ends fun r t' =>
    left t' ≤ left t ∧ forall b, r = .ok b -> left t' + 1 ≤ left t
  exact : forall n t, (H (.exact n) t).Ends fun r t' =>
    left t' ≤ left t ∧ forall bs, r = .ok bs -> left t' + n ≤ left t

theorem Metered.ends {ι τ α : Type} {H : Handler (ReadSig ι) τ} {left : τ -> Nat}
    (hH : Metered H left) {Q : α -> Nat -> Prop} {p : Prog (ReadSig ι) α} {n : Nat}
    (h : p.Lasts Q n) {t : τ} (hn : left t ≤ n) :
    (p.run H t).Ends fun a t' => left t' ≤ left t ∧ exists m, left t' ≤ m ∧ Q a m := by
  induction p generalizing n t with
  | ret a => exact ⟨Nat.le_refl _, n, hn, h⟩
  | op o k ih =>
      cases o with
      | u8 =>
          refine (hH.u8 t).andThen ?_
          rintro r t' ⟨hle, hok⟩
          cases r with
          | error e =>
              refine (ih (.error e) (h.1 e) (Nat.le_trans hle hn)).mono ?_
              exact fun _ _ hx => ⟨Nat.le_trans hx.1 hle, hx.2⟩
          | ok b =>
              have hless := hok b rfl
              refine (ih (.ok b) (h.2 b (n - 1) (by lia)) (by lia)).mono ?_
              exact fun _ _ hx => ⟨Nat.le_trans hx.1 hle, hx.2⟩
      | exact num =>
          refine (hH.exact num t).andThen ?_
          rintro r t' ⟨hle, hok⟩
          cases r with
          | error e =>
              refine (ih (.error e) (h.1 e) (Nat.le_trans hle hn)).mono ?_
              exact fun _ _ hx => ⟨Nat.le_trans hx.1 hle, hx.2⟩
          | ok bs =>
              have hless := hok bs rfl
              refine (ih (.ok bs) (h.2 bs (n - num) (by lia)) (by lia)).mono ?_
              exact fun _ _ hx => ⟨Nat.le_trans hx.1 hle, hx.2⟩
  | stuck => exact h.elim

end Foundation
end Smartmeter
