import Mathlib.Order.Defs.Unbundled
import Smartmeter.Foundation.Budget

/-!
# Byte strings that end

A byte string as a source of its own: reads that fit take bytes from its front,
and a read beyond its end takes what is left and fails.  A method that gives up
when a read fails either finds every byte it asks for or ends with that error.
-/

namespace Smartmeter
namespace Foundation

/-- The source of a byte string; `e` is the error behind its end. -/
def finite {ι : Type} (e : ι) : Handler (ReadSig ι) (List UInt8)
  | .u8, [] => .done (.error e) []
  | .u8, b :: bs => .done (.ok b) bs
  | .exact n, bs =>
      if n ≤ bs.length then .done (.ok (bs.take n)) (bs.drop n) else .done (.error e) []

theorem finite_exact_of_le {ι : Type} (e : ι) {n : Nat} {bs : List UInt8} (h : n ≤ bs.length) :
    finite e (.exact n) bs = .done (.ok (bs.take n)) (bs.drop n) := if_pos h

theorem finite_exact_of_gt {ι : Type} (e : ι) {n : Nat} {bs : List UInt8} (h : bs.length < n) :
    finite e (.exact n) bs = .done (.error e) [] := if_neg (Nat.not_le.mpr h)

/-- The source delivers its byte string. -/
theorem finite_delivers {ι : Type} (e : ι) :
    Delivers (finite e) (fun bs => bs) (fun n bs => bs.drop n) where
  bytes_advance _ _ := rfl
  advance_zero _ := rfl
  advance_add m n bs _ := by
    rw [List.drop_drop]
  u8 b rest bs h := by
    change bs = b :: rest at h
    rw [h]
    rfl
  exact n bs h := finite_exact_of_le e h
  u8_short bs h b rest := by
    change bs = [] at h
    rw [h]
    intro hdone
    cases hdone
  exact_short n bs h got rest := by
    rw [finite_exact_of_gt e h]
    intro hdone
    cases hdone

/-!
## Results of a program
-/

namespace Prog

variable {S : Sig} {α β ω : Type}

/-- `Q` holds of the result, whatever the operations answer. -/
def Gives (Q : α -> Prop) : Prog S α -> Prop
  | .ret a => Q a
  | .op _ k => forall r, (k r).Gives Q
  | .stuck => True

theorem Gives.mono {Q R : α -> Prop} {p : Prog S α} (hp : p.Gives Q)
    (h : forall a, Q a -> R a) : p.Gives R := by
  induction p with
  | ret a => exact h a hp
  | op o k ih => exact fun r => ih r (hp r)
  | stuck => trivial

theorem Gives.bind {Q : α -> Prop} {R : β -> Prop} {p : Prog S α} {f : α -> Prog S β}
    (hp : p.Gives Q) (hf : forall a, Q a -> (f a).Gives R) : (p.bind f).Gives R := by
  induction p with
  | ret a => exact hf a hp
  | op o k ih => exact fun r => ih r (hp r)
  | stuck => trivial

theorem Gives.of_run {Q : α -> Prop} {H : Handler S ω} {p : Prog S α} (hp : p.Gives Q)
    {t t' : ω} {a : α} (h : p.run H t = .done a t') : Q a := by
  induction p generalizing t with
  | ret b =>
      cases h
      exact hp
  | op o k ih =>
      rcases Outcome.andThen_eq_done h with ⟨r, t₁, _, hrest⟩
      exact ih r (hp r) hrest
  | stuck => cases h

theorem run_finite {ι ε σ : Type} {inj : ι -> ε} {p : Prog (ReadSig ι) (Except ε α × σ)}
    (hstrict : Strict inj p) {Q : Except ε α × σ -> Nat -> Prop} {bs : List UInt8}
    (hlasts : p.Lasts Q bs.length) (e : ι) :
    (exists x rest, p.parse bs = some (x, rest) ∧ p.run (finite e) bs = .done x rest) ∨
      (p.parse bs = none ∧ exists s, p.run (finite e) bs = .done (.error (inj e), s) []) := by
  induction p generalizing bs with
  | ret x => exact .inl ⟨x, bs, rfl, rfl⟩
  | op o k ih =>
      cases o with
      | u8 =>
          cases bs with
          | nil =>
              rcases hstrict.1 e with ⟨s, hs⟩
              refine .inr ⟨rfl, s, ?_⟩
              change (k (.error e)).run (finite e) [] = _
              rw [hs]
              rfl
          | cons b bs => exact ih (.ok b) (hstrict.2 b) (hlasts.2 b bs.length rfl)
      | exact n =>
          rw [parse_exact, run_op]
          by_cases hle : n ≤ bs.length
          · rw [if_pos hle, finite_exact_of_le e hle]
            have hlen : (bs.drop n).length + n = bs.length := by
              rw [List.length_drop]
              exact Nat.sub_add_cancel hle
            exact ih _ (hstrict.2 _) (hlasts.2 (bs.take n) _ hlen)
          · rw [if_neg hle, finite_exact_of_gt e (Nat.lt_of_not_le hle)]
            rcases hstrict.1 e with ⟨s, hs⟩
            refine .inr ⟨rfl, s, ?_⟩
            change (k (.error e)).run (finite e) [] = _
            rw [hs]
            rfl
  | stuck => exact hlasts.elim

end Prog

/-!
## The receiver of a method
-/

namespace Act

variable {S : Sig} {ε σ τ ω ι α β : Type}

/-- The receiver moves along `R`, whatever the operations answer. -/
def Moves (R : σ -> σ -> Prop) (p : Act S ε σ α) : Prop :=
  forall s, (p s).Gives fun x => R s x.2

namespace Moves

variable {R : σ -> σ -> Prop}

theorem of_run {p : Act S ε σ α} (hp : Moves R p) {H : Handler S ω} {s s' : σ} {t t' : ω}
    {r : Except ε α} (h : (p s).run H t = .done (r, s') t') : R s s' := (hp s).of_run h

theorem modify {f : σ -> σ} (h : forall s, R s (f s)) :
    Moves R (Act.modify f : Act S ε σ Unit) := h

theorem borrow {Q : τ -> τ -> Prop} {get : τ -> σ} {put : σ -> τ -> τ} {p : Act S ε σ α}
    (hp : Moves R p) (h : forall t s', R (get t) s' -> Q t (put s' t)) :
    Moves Q (Act.borrow get put p) := by
  intro t
  apply (hp (get t)).bind
  intro x hx
  exact h t x.2 hx

theorem attempt {p : Act S ε σ α} (hp : Moves R p) : Moves R (Act.attempt p) := by
  intro s
  apply (hp s).bind
  intro x hx
  exact hx

variable [IsPreorder σ R]

theorem pure (a : α) : Moves R (Pure.pure a : Act S ε σ α) := fun s => refl_of R s

theorem fail (e : ε) : Moves R (Act.fail e : Act S ε σ α) := fun s => refl_of R s

theorem gets (f : σ -> α) : Moves R (Act.gets f : Act S ε σ α) := fun s => refl_of R s

theorem ofExcept (r : Except ε α) : Moves R (Act.ofExcept r : Act S ε σ α) :=
  fun s => refl_of R s

theorem bind {p : Act S ε σ α} {f : α -> Act S ε σ β} (hp : Moves R p)
    (hf : forall a, Moves R (f a)) : Moves R (p >>= f) := by
  intro s
  apply (hp s).bind
  rintro ⟨r, s'⟩ hs'
  cases r with
  | ok a => exact (hf a s').mono fun _ hx => trans_of R hs' hx
  | error e => exact hs'

theorem iterate {body : ι -> Act S ε σ (ι ⊕ α)} (hbody : forall i, Moves R (body i))
    (n : Nat) (i : ι) : Moves R (Act.iterate n body i) := by
  induction n generalizing i with
  | zero => exact fun _ => trivial
  | succ n ih =>
      rw [iterate_succ]
      apply bind (hbody i)
      intro x
      cases x with
      | inl i' => exact ih i'
      | inr a => exact pure a

end Moves

end Act

/-!
## Failures of a method
-/

namespace Act

variable {S : Sig} {ε σ ω ι α β : Type}

def FailsIn (P : ε -> Prop) (p : Act S ε σ α) : Prop :=
  forall s, (p s).Gives fun x => (forall e, x.1 = .error e -> P e) ∧ x.2 = s

namespace FailsIn

variable {P : ε -> Prop}

theorem of_run {p : Act S ε σ α} (hp : FailsIn P p) {H : Handler S ω} {s s' : σ} {t t' : ω}
    {r : Except ε α} (h : (p s).run H t = .done (r, s') t') :
    (forall e, r = .error e -> P e) ∧ s' = s := (hp s).of_run h

theorem mono {Q : ε -> Prop} {p : Act S ε σ α} (hp : FailsIn P p) (h : forall e, P e -> Q e) :
    FailsIn Q p := by
  intro s
  exact (hp s).mono fun _ hx => ⟨fun e he => h e (hx.1 e he), hx.2⟩

theorem pure (a : α) : FailsIn P (Pure.pure a : Act S ε σ α) := by
  intro s
  refine ⟨?_, rfl⟩
  intro e he
  cases he

theorem fail {e : ε} (h : P e) : FailsIn P (Act.fail e : Act S ε σ α) := by
  intro s
  refine ⟨?_, rfl⟩
  intro e' he'
  injection he' with he'
  rw [← he']
  exact h

theorem ofExcept {r : Except ε α} (h : forall e, r = .error e -> P e) :
    FailsIn P (Act.ofExcept r : Act S ε σ α) := fun _ => ⟨h, rfl⟩

theorem outOfFuel : FailsIn P (Act.outOfFuel : Act S ε σ α) := fun _ => trivial

theorem bind {p : Act S ε σ α} {f : α -> Act S ε σ β} (hp : FailsIn P p)
    (hf : forall a, FailsIn P (f a)) : FailsIn P (p >>= f) := by
  intro s
  refine (hp s).bind ?_
  rintro ⟨r, s'⟩ ⟨hr, hs'⟩
  cases r with
  | ok a =>
      change s' = s at hs'
      rw [hs']
      exact hf a s
  | error e =>
      refine ⟨?_, hs'⟩
      intro e' he'
      injection he' with he'
      exact hr e' (congrArg Except.error he')

theorem attempt {Q : ε -> Prop} {p : Act S ε σ α} (hp : FailsIn P p) :
    FailsIn Q (Act.attempt p) := by
  intro s
  refine (hp s).bind ?_
  rintro ⟨r, s'⟩ ⟨_, hs'⟩
  refine ⟨?_, hs'⟩
  intro e he
  cases he

theorem iterate {body : ι -> Act S ε σ (ι ⊕ α)} (hbody : forall i, FailsIn P (body i))
    (n : Nat) (i : ι) : FailsIn P (Act.iterate n body i) := by
  induction n generalizing i with
  | zero => exact outOfFuel
  | succ n ih =>
      rw [iterate_succ]
      refine bind (hbody i) ?_
      intro x
      cases x with
      | inl i' => exact ih i'
      | inr a => exact pure a

end FailsIn

/--
A strict method that leaves its receiver alone, on a byte string: what it makes
of the bytes, or the error of the end.
-/
theorem run_finite {κ : Type} {inj : κ -> ε} {p : Act (ReadSig κ) ε σ α}
    {P : ε -> Prop} (hfails : p.FailsIn P) (hstrict : Act.Strict inj p) {limit : Nat}
    (hendures : p.Endures limit) (e : κ) (s : σ) {bs : List UInt8} (hbs : bs.length < limit) :
    (p s).run (finite e) bs =
      match p.parse s bs with
      | some (x, rest) => .done x rest
      | none => .done (.error (inj e), s) [] := by
  unfold Act.parse
  rcases Prog.run_finite (hstrict s) (hendures s bs.length hbs) e with
    ⟨x, rest, hparse, hrun⟩ | ⟨hparse, s', hrun⟩
  · rw [hparse, hrun]
  · rw [hparse, hrun, (hfails.of_run hrun).2]

end Act

end Foundation
end Smartmeter
