import Smartmeter.Foundation.Act

/-!
# What holds when a program ends

A program may return, wait for input or run out of fuel.  A specification says
what holds of the result when it returns and what holds of the state when it
does not get that far.
-/

namespace Smartmeter
namespace Foundation

namespace Outcome

variable {α β σ : Type}

def Holds (Q : α -> σ -> Prop) (I : σ -> Prop) : Outcome α σ -> Prop
  | .done a s => Q a s
  | .blocked s => I s
  | .stuck s => I s

theorem Holds.mono {Q R : α -> σ -> Prop} {I J : σ -> Prop} {x : Outcome α σ}
    (h : x.Holds Q I) (hQ : forall a s, Q a s -> R a s) (hI : forall s, I s -> J s) :
    x.Holds R J := by
  cases x with
  | done a s => exact hQ a s h
  | blocked s => exact hI s h
  | stuck s => exact hI s h

theorem Holds.andThen {Q : α -> σ -> Prop} {R : β -> σ -> Prop} {I : σ -> Prop}
    {x : Outcome α σ} {f : α -> σ -> Outcome β σ} (h : x.Holds Q I)
    (hf : forall a s, Q a s -> (f a s).Holds R I) : (x.andThen f).Holds R I := by
  cases x with
  | done a s => exact hf a s h
  | blocked s => exact h
  | stuck s => exact h

@[simp] theorem andThen_done (x : Outcome α σ) : x.andThen .done = x := by
  cases x <;> rfl

end Outcome

namespace Prog

variable {S T : Sig} {α β σ : Type}

theorem holds_bind {H : Handler S σ} {p : Prog S α} {f : α -> Prog S β} {s : σ}
    {Q : α -> σ -> Prop} {R : β -> σ -> Prop} {I : σ -> Prop}
    (hp : (p.run H s).Holds Q I)
    (hf : forall a s', Q a s' -> ((f a).run H s').Holds R I) :
    ((p.bind f).run H s).Holds R I := by
  rw [run_bind]
  exact hp.andThen hf

/-!
## Programs with few operations
-/

def Uses (O : S.Op -> Prop) : Prog S α -> Prop
  | .ret _ => True
  | .op o k => O o ∧ forall r, (k r).Uses O
  | .stuck => True

theorem Uses.bind {O : S.Op -> Prop} {p : Prog S α} {f : α -> Prog S β} (hp : p.Uses O)
    (hf : forall a, (f a).Uses O) : (p.bind f).Uses O := by
  induction p with
  | ret a => exact hf a
  | op o k ih => exact ⟨hp.1, fun r => ih r (hp.2 r)⟩
  | stuck => trivial

theorem Uses.mono {O O' : S.Op -> Prop} {p : Prog S α} (hp : p.Uses O)
    (h : forall o, O o -> O' o) : p.Uses O' := by
  induction p with
  | ret a => trivial
  | op o k ih => exact ⟨h o hp.1, fun r => ih r (hp.2 r)⟩
  | stuck => trivial

theorem Uses.embed {O : T.Op -> Prop} {i : S.Op -> T.Op}
    {back : forall o, T.Resp (i o) -> S.Resp o} (h : forall o, O (i o)) (p : Prog S α) :
    (p.embed i back).Uses O := by
  induction p with
  | ret a => trivial
  | op o k ih => exact ⟨h o, fun r => ih (back o r)⟩
  | stuck => trivial

/-- Where every operation is done and keeps `P`, the program is never blocked. -/
theorem Uses.goes {O : S.Op -> Prop} {H : Handler S σ} {P : σ -> Prop} {p : Prog S α}
    (hp : p.Uses O)
    (hstep : forall o s, O o -> P s -> exists r s', H o s = .done r s' ∧ P s') {s : σ}
    (hs : P s) : (exists a s', p.run H s = .done a s' ∧ P s') ∨
      exists s', p.run H s = .stuck s' := by
  induction p generalizing s with
  | ret a => exact Or.inl ⟨a, s, rfl, hs⟩
  | op o k ih =>
      rcases hstep o s hp.1 hs with ⟨r, s', hdone, hs'⟩
      rw [run_op, hdone]
      exact ih r (hp.2 r) hs'
  | stuck => exact Or.inr ⟨s, rfl⟩

theorem Uses.invariant {O : S.Op -> Prop} {H : Handler S σ} {P : σ -> Prop}
    {p : Prog S α} (hp : p.Uses O) (hstep : forall o s, O o -> P s -> P (H o s).state) {s : σ}
    (hs : P s) : P (p.run H s).state := by
  induction p generalizing s with
  | ret a => exact hs
  | op o k ih =>
      have ho := hstep o s hp.1 hs
      rw [run_op]
      cases hans : H o s with
      | done r s' =>
          rw [hans] at ho
          exact ih r (hp.2 r) ho
      | blocked s' =>
          rw [hans] at ho
          exact ho
      | stuck s' =>
          rw [hans] at ho
          exact ho
  | stuck => exact hs

/-!
## Before every operation
-/

def Throughout (C : S.Op -> σ -> Prop) (H : Handler S σ) : Prog S α -> σ -> Prop
  | .ret _, _ => True
  | .op o k, s =>
      C o s ∧
        match H o s with
        | .done r s' => (k r).Throughout C H s'
        | .blocked _ => True
        | .stuck _ => True
  | .stuck, _ => True

theorem throughout_iff_of_blocked {C : S.Op -> σ -> Prop} {B : σ -> Prop} {H : Handler S σ}
    (hdone : forall o s r s', H o s = .done r s' -> C o s)
    (hblocked : forall o s s', H o s = .blocked s' -> (C o s <-> B s')) {p : Prog S α}
    {s t : σ} (h : p.run H s = .blocked t) : p.Throughout C H s <-> B t := by
  induction p generalizing s with
  | ret a => cases h
  | op o k ih =>
      rw [run_op] at h
      unfold Throughout
      cases hans : H o s with
      | done r s' =>
          rw [hans] at h
          rw [← ih r h]
          exact and_iff_right (hdone o s r s' hans)
      | blocked s' =>
          rw [hans] at h
          cases h
          rw [← hblocked o s _ hans]
          exact and_iff_left trivial
      | stuck s' =>
          rw [hans] at h
          cases h
  | stuck => cases h

end Prog

namespace Act

variable {S T : Sig} {ε σ τ ω α β ι : Type}

/-!
## Runs of methods
-/

theorem run_bind_ok {H : Handler S ω} {p : Act S ε σ α} {f : α -> Act S ε σ β} {s s' : σ}
    {t t' : ω} {b : β} (h : ((p >>= f) s).run H t = .done (.ok b, s') t') :
    exists a s₁ t₁, (p s).run H t = .done (.ok a, s₁) t₁ ∧
      (f a s₁).run H t₁ = .done (.ok b, s') t' := by
  rw [bind_apply, Prog.run_bind] at h
  rcases Outcome.andThen_eq_done h with ⟨⟨r, s₁⟩, t₁, hp, hf⟩
  cases r with
  | ok a => exact ⟨a, s₁, t₁, hp, hf⟩
  | error e => cases hf

theorem run_bind_done {H : Handler S ω} {p : Act S ε σ α} {f : α -> Act S ε σ β} {s s' : σ}
    {t t' : ω} {r : Except ε β} (h : ((p >>= f) s).run H t = .done (r, s') t') :
    (exists e, (p s).run H t = .done (.error e, s') t' ∧ r = .error e) ∨
      exists a s₁ t₁, (p s).run H t = .done (.ok a, s₁) t₁ ∧
        (f a s₁).run H t₁ = .done (r, s') t' := by
  rw [bind_apply, Prog.run_bind] at h
  rcases Outcome.andThen_eq_done h with ⟨⟨r₁, s₁⟩, t₁, hp, hf⟩
  cases r₁ with
  | ok a => exact Or.inr ⟨a, s₁, t₁, hp, hf⟩
  | error e =>
      cases hf
      exact Or.inl ⟨e, hp, rfl⟩

theorem run_bind_of_ok {H : Handler S ω} {p : Act S ε σ α} {f : α -> Act S ε σ β}
    {s s₁ : σ} {t t₁ : ω} {a : α} (h : (p s).run H t = .done (.ok a, s₁) t₁) :
    ((p >>= f) s).run H t = (f a s₁).run H t₁ := by
  rw [bind_apply, Prog.run_bind, h]
  rfl

theorem run_bind_of_error {H : Handler S ω} {p : Act S ε σ α} {f : α -> Act S ε σ β}
    {s s₁ : σ} {t t₁ : ω} {e : ε} (h : (p s).run H t = .done (.error e, s₁) t₁) :
    ((p >>= f) s).run H t = .done (.error e, s₁) t₁ := by
  rw [bind_apply, Prog.run_bind, h]
  rfl

theorem run_attempt_bind {H : Handler S ω} {p : Act S ε σ α} {f : Except ε α -> Act S ε σ β}
    (s : σ) (t : ω) : ((attempt p >>= f) s).run H t =
      ((p s).run H t).andThen fun x t' => (f x.1 x.2).run H t' := by
  rw [bind_apply, attempt_apply, Prog.run_bind, Prog.run_bind, Outcome.andThen_assoc]
  rfl

theorem run_borrow_done {H : Handler S ω} {get : τ -> σ} {put : σ -> τ -> τ}
    {p : Act S ε σ α} {x x' : τ} {t t' : ω} {r : Except ε α}
    (h : (borrow get put p x).run H t = .done (r, x') t') :
    exists y, (p (get x)).run H t = .done (r, y) t' ∧ x' = put y x := by
  rw [borrow_apply, Prog.run_bind] at h
  rcases Outcome.andThen_eq_done h with ⟨⟨r₁, y⟩, t₁, hp, hret⟩
  cases hret
  exact ⟨y, hp, rfl⟩

theorem run_borrow_ok {H : Handler S ω} {get : τ -> σ} {put : σ -> τ -> τ}
    {p : Act S ε σ α} {x x' : τ} {t t' : ω} {a : α}
    (h : (borrow get put p x).run H t = .done (.ok a, x') t') :
    exists y, (p (get x)).run H t = .done (.ok a, y) t' ∧ x' = put y x :=
  run_borrow_done h

theorem run_borrow_of_done {H : Handler S ω} {get : τ -> σ} {put : σ -> τ -> τ}
    {p : Act S ε σ α} {x : τ} {y : σ} {t t' : ω} {r : Except ε α}
    (h : (p (get x)).run H t = .done (r, y) t') :
    (borrow get put p x).run H t = .done (r, put y x) t' := by
  rw [borrow_apply, Prog.run_bind, h]
  rfl

theorem holds_bind {H : Handler S ω} {p : Act S ε σ α} {f : α -> Act S ε σ β} {s : σ}
    {t : ω} {Q : Except ε α × σ -> ω -> Prop} {R : Except ε β × σ -> ω -> Prop}
    {I : ω -> Prop} (hp : ((p s).run H t).Holds Q I)
    (hok : forall a s' t', Q (.ok a, s') t' -> ((f a s').run H t').Holds R I)
    (herror : forall e s' t', Q (.error e, s') t' -> R (.error e, s') t') :
    (((p >>= f) s).run H t).Holds R I := by
  rw [bind_apply]
  refine Prog.holds_bind hp ?_
  rintro ⟨r, s'⟩ t' h
  cases r with
  | ok a => exact hok a s' t' h
  | error e => exact herror e s' t' h

theorem holds_iterate {H : Handler S ω} {body : ι -> Act S ε σ (ι ⊕ α)}
    (Inv : ι -> σ -> ω -> Prop) {R : Except ε α × σ -> ω -> Prop} {I : ω -> Prop}
    (hbody : forall i s t, Inv i s t -> ((body i s).run H t).Holds (fun x t' =>
      (forall i', x.1 = .ok (.inl i') -> Inv i' x.2 t') ∧
        (forall a, x.1 = .ok (.inr a) -> R (.ok a, x.2) t') ∧
        forall e, x.1 = .error e -> R (.error e, x.2) t') I)
    (hfuel : forall i s t, Inv i s t -> I t) {n : Nat} {i : ι} {s : σ} {t : ω}
    (h : Inv i s t) : ((iterate n body i s).run H t).Holds R I := by
  induction n generalizing i s t with
  | zero => exact hfuel i s t h
  | succ n ih =>
      rw [iterate_succ]
      refine holds_bind (hbody i s t h) ?_ ?_
      · intro x s' t' hx
        cases x with
        | inl i' => exact ih (hx.1 i' rfl)
        | inr a => exact hx.2.1 a rfl
      · intro e s' t' hx
        exact hx.2.2 e rfl

theorem run_iterate_ok {H : Handler S ω} {body : ι -> Act S ε σ (ι ⊕ α)}
    (Inv : ι -> σ -> ω -> Prop)
    (hbody : forall i s t i' s' t', Inv i s t ->
      (body i s).run H t = .done (.ok (.inl i'), s') t' -> Inv i' s' t')
    {n : Nat} {i : ι} {s s' : σ} {t t' : ω} {a : α} (h : Inv i s t)
    (hrun : (iterate n body i s).run H t = .done (.ok a, s') t') :
    exists i₁ s₁ t₁, Inv i₁ s₁ t₁ ∧ (body i₁ s₁).run H t₁ = .done (.ok (.inr a), s') t' := by
  induction n generalizing i s t with
  | zero => cases hrun
  | succ n ih =>
      rw [iterate_succ] at hrun
      rcases run_bind_ok hrun with ⟨x, s₁, t₁, hx, hrest⟩
      cases x with
      | inl i' => exact ih (hbody i s t i' s₁ t₁ h hx) hrest
      | inr a' =>
          cases hrest
          exact ⟨i, s, t, h, hx⟩

/-!
## Methods with few operations
-/

def Uses (O : S.Op -> Prop) (p : Act S ε σ α) : Prop :=
  forall s, (p s).Uses O

namespace Uses

variable {O : S.Op -> Prop}

theorem mono {O' : S.Op -> Prop} {p : Act S ε σ α} (hp : Uses O p) (h : forall o, O o -> O' o) :
    Uses O' p :=
  fun s => (hp s).mono h

theorem pure (a : α) : Uses O (Pure.pure a : Act S ε σ α) := fun _ => trivial

theorem fail (e : ε) : Uses O (Act.fail e : Act S ε σ α) := fun _ => trivial

theorem gets (f : σ -> α) : Uses O (Act.gets f : Act S ε σ α) := fun _ => trivial

theorem modify (f : σ -> σ) : Uses O (Act.modify f : Act S ε σ Unit) := fun _ => trivial

theorem bind {p : Act S ε σ α} {f : α -> Act S ε σ β} (hp : Uses O p)
    (hf : forall a, Uses O (f a)) : Uses O (p >>= f) := by
  intro s
  refine (hp s).bind ?_
  rintro ⟨r, s'⟩
  cases r with
  | ok a => exact hf a s'
  | error e => trivial

theorem attempt {p : Act S ε σ α} (hp : Uses O p) : Uses O (Act.attempt p) :=
  fun s => (hp s).bind fun _ => trivial

theorem borrow {get : τ -> σ} {put : σ -> τ -> τ} {p : Act S ε σ α} (hp : Uses O p) :
    Uses O (Act.borrow get put p) :=
  fun t => (hp (get t)).bind fun _ => trivial

theorem iterate {body : ι -> Act S ε σ (ι ⊕ α)} (hbody : forall i, Uses O (body i))
    (n : Nat) (i : ι) : Uses O (Act.iterate n body i) := by
  induction n generalizing i with
  | zero => exact fun _ => trivial
  | succ n ih =>
      rw [iterate_succ]
      refine bind (hbody i) ?_
      intro x
      cases x with
      | inl i' => exact ih i'
      | inr a => exact .pure a

end Uses

end Act

end Foundation
end Smartmeter
