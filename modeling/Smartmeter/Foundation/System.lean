import Mathlib.Data.List.Basic

/-!
# Transition systems

A system moves from state to state by labelled steps.  Whatever is decided from
outside, such as whose turn it is or how a call of another component ends, is
part of the label, so that a run is determined by its labels.
-/

namespace Smartmeter
namespace Foundation

/-- A state to start from, and the steps; `none` is a step that is not possible. -/
structure System (σ α : Type) where
  init : σ
  next : σ -> α -> Option σ

namespace System

variable {σ α : Type} {M : System σ α}

/-!
## Runs
-/

inductive Run (M : System σ α) : List α -> σ -> Prop where
  | nil : Run M [] M.init
  | snoc {as : List α} {a : α} {s s' : σ} (run : Run M as s)
      (step : M.next s a = some s') : Run M (as ++ [a]) s'

def steps (M : System σ α) : σ -> List α -> Option σ
  | s, [] => some s
  | s, a :: as => (M.next s a).bind fun s' => M.steps s' as

theorem steps_append (s : σ) (as bs : List α) :
    M.steps s (as ++ bs) = (M.steps s as).bind fun s' => M.steps s' bs := by
  induction as generalizing s with
  | nil => rfl
  | cons a as ih =>
      change (M.next s a).bind (fun s' => M.steps s' (as ++ bs)) = ((M.next s a).bind _).bind _
      rw [Option.bind_assoc]
      congr 1
      funext s'
      exact ih s'

theorem steps_singleton (s : σ) (a : α) : M.steps s [a] = M.next s a :=
  Option.bind_fun_some _

theorem Run.append {as bs : List α} {s s' : σ} (run : M.Run as s)
    (h : M.steps s bs = some s') : M.Run (as ++ bs) s' := by
  induction bs generalizing as s with
  | nil =>
      cases h
      rw [List.append_nil]
      exact run
  | cons b bs ih =>
      rcases Option.bind_eq_some_iff.mp h with ⟨t, ht, hrest⟩
      rw [List.append_cons]
      exact ih (run.snoc ht) hrest

theorem run_of_steps {as : List α} {s : σ} (h : M.steps M.init as = some s) :
    M.Run as s :=
  Run.append .nil h

theorem Run.steps {as : List α} {s : σ} (run : M.Run as s) : M.steps M.init as = some s := by
  induction run with
  | nil => rfl
  | snoc _ hstep ih => rw [steps_append, ih, Option.bind_some, steps_singleton, hstep]

theorem Run.unique {as : List α} {s t : σ} (hs : M.Run as s) (ht : M.Run as t) :
    s = t :=
  Option.some.inj (hs.steps.symm.trans ht.steps)

theorem Run.invariant {I : List α -> σ -> Prop} (hinit : I [] M.init)
    (hstep : forall as a s s', M.Run as s -> I as s -> M.next s a = some s' -> I (as ++ [a]) s')
    {as : List α} {s : σ} (run : M.Run as s) : I as s := by
  induction run with
  | nil => exact hinit
  | snoc run step ih => exact hstep _ _ _ _ run ih step

/-!
## Along a run
-/

/-- In every state of the run the predicate holds of the labels so far and the state. -/
def Always (M : System σ α) (P : List α -> σ -> Prop) (as : List α) : Prop :=
  forall before after s, as = before ++ after -> M.Run before s -> P before s

/-- Every step of the run meets a condition on the labels and the state before it. -/
def EachStep (M : System σ α) (C : List α -> σ -> α -> Prop) (as : List α) : Prop :=
  forall before a after s, as = before ++ a :: after -> M.Run before s -> C before s a

variable {P : List α -> σ -> Prop} {C : List α -> σ -> α -> Prop}

theorem always_nil : M.Always P [] <-> P [] M.init := by
  constructor
  · intro h
    exact h [] [] M.init rfl .nil
  · intro h before after s has run
    have hnil := (List.append_eq_nil_iff.mp has.symm).1
    subst hnil
    rw [run.unique .nil]
    exact h

theorem always_snoc {as : List α} {a : α} {s' : σ} (run : M.Run (as ++ [a]) s') :
    M.Always P (as ++ [a]) <-> M.Always P as ∧ P (as ++ [a]) s' := by
  constructor
  · intro h
    constructor
    · intro before after s has
      apply h before (after ++ [a])
      rw [has, List.append_assoc]
    · exact h (as ++ [a]) [] s' (List.append_nil _).symm run
  · rintro ⟨hbefore, hlast⟩ before after s has hrun
    rcases List.eq_nil_or_concat after with rfl | ⟨after, b, rfl⟩
    · rw [List.append_nil] at has
      subst has
      rw [hrun.unique run]
      exact hlast
    · rw [List.concat_eq_append, ← List.append_assoc] at has
      exact hbefore before after s (List.append_inj' has rfl).1 hrun

theorem eachStep_nil : M.EachStep C [] := by
  intro before a after s has
  exact absurd has.symm (List.append_ne_nil_of_right_ne_nil _ (List.cons_ne_nil a after))

theorem eachStep_snoc {as : List α} {a : α} {s : σ} (run : M.Run as s) :
    M.EachStep C (as ++ [a]) <-> M.EachStep C as ∧ C as s a := by
  constructor
  · intro h
    constructor
    · intro before b after t has
      apply h before b (after ++ [a])
      rw [has, List.append_assoc]
      rfl
    · exact h as a [] s rfl run
  · rintro ⟨hbefore, hlast⟩ before b after t has hrun
    rcases List.eq_nil_or_concat after with rfl | ⟨after, c, rfl⟩
    · rcases List.append_inj' has rfl with ⟨rfl, heq⟩
      cases heq
      rw [hrun.unique run]
      exact hlast
    · rw [List.concat_eq_append, ← List.cons_append, ← List.append_assoc] at has
      exact hbefore before b after t (List.append_inj' has rfl).1 hrun

def Meets (M : System σ α) (C : List α -> σ -> α -> Prop) : List α -> σ -> List α -> Prop
  | _, _, [] => True
  | before, s, a :: after =>
      C before s a ∧ forall s', M.next s a = some s' -> M.Meets C (before ++ [a]) s' after

theorem Meets.at {before as after : List α} {a : α} {s t : σ}
    (h : M.Meets C before s (as ++ a :: after)) (ht : M.steps s as = some t) :
    C (before ++ as) t a := by
  induction as generalizing before s with
  | nil =>
      cases ht
      rw [List.append_nil]
      exact h.1
  | cons b as ih =>
      rcases Option.bind_eq_some_iff.mp ht with ⟨s', hs', hrest⟩
      rw [List.append_cons]
      exact ih (h.2 s' hs') hrest

theorem eachStep_of_meets {as : List α} (h : M.Meets C [] M.init as) : M.EachStep C as := by
  intro before a after s has run
  rw [has] at h
  exact h.at run.steps

theorem Run.invariant_of_eachStep {I : List α -> σ -> Prop} (hinit : I [] M.init)
    (hstep : forall as a s s', I as s -> C as s a -> M.next s a = some s' -> I (as ++ [a]) s')
    {as : List α} {s : σ} (run : M.Run as s) (h : M.EachStep C as) : I as s := by
  induction run with
  | nil => exact hinit
  | snoc run step ih =>
      rcases (eachStep_snoc run).mp h with ⟨hbefore, hlast⟩
      exact hstep _ _ _ _ (ih hbefore) hlast step

theorem always_iff_eachStep {I : List α -> σ -> Prop} (hinit : I [] M.init)
    (hkeep : forall as a s s', I as s -> C as s a -> M.next s a = some s' -> I (as ++ [a]) s')
    (himp : forall as s, I as s -> P as s)
    (hbreak : forall as a s s', I as s -> ¬ C as s a -> M.next s a = some s' ->
      ¬ P (as ++ [a]) s')
    {as : List α} {s : σ} (run : M.Run as s) : M.Always P as <-> M.EachStep C as := by
  induction run with
  | nil =>
      constructor
      · intro _
        exact eachStep_nil
      · intro _
        rw [always_nil]
        exact himp _ _ hinit
  | snoc run step ih =>
      rw [always_snoc (run.snoc step), eachStep_snoc run, ih]
      constructor
      · rintro ⟨hbefore, hlast⟩
        refine ⟨hbefore, ?_⟩
        have hinv := run.invariant_of_eachStep hinit hkeep hbefore
        apply Classical.byContradiction
        intro hnot
        exact hbreak _ _ _ _ hinv hnot step hlast
      · rintro ⟨hbefore, hlast⟩
        have hinv := run.invariant_of_eachStep hinit hkeep hbefore
        exact ⟨hbefore, himp _ _ (hkeep _ _ _ _ hinv hlast step)⟩

/-!
## Simulation
-/

variable {τ β γ : Type} {N : System τ β}

theorem Run.simulate {R : σ -> τ -> Prop} (f : α -> List γ) (g : β -> List γ)
    (hinit : R M.init N.init)
    (hstep : forall s s' a t, R s t -> M.next s a = some s' ->
      exists bs t', N.steps t bs = some t' ∧ bs.flatMap g = f a ∧ R s' t')
    {as : List α} {s : σ} (run : M.Run as s) :
    exists bs t, N.Run bs t ∧ bs.flatMap g = as.flatMap f ∧ R s t := by
  induction run with
  | nil => exact ⟨[], N.init, .nil, rfl, hinit⟩
  | @snoc as a s s' _ step ih =>
      rcases ih with ⟨bs, t, hrun, hobserved, hrel⟩
      rcases hstep s s' a t hrel step with ⟨cs, t', hsteps, hmatched, hrel'⟩
      exists bs ++ cs, t'
      constructor
      · exact hrun.append hsteps
      · constructor
        · rw [List.flatMap_append, List.flatMap_append, hobserved, hmatched, List.flatMap_singleton]
        · exact hrel'

/-!
## Repeating a step
-/

/--
A step that is always possible and always decreases a measure until something
holds makes it hold when it is repeated.
-/
theorem exists_steps_replicate (a : α) (m : σ -> Nat) {I Q : σ -> Prop}
    (hstep : forall s, I s -> Q s ∨ exists s', M.next s a = some s' ∧ I s' ∧ m s' < m s)
    {s : σ} (hs : I s) :
    exists n s', n ≤ m s ∧ M.steps s (List.replicate n a) = some s' ∧ I s' ∧ Q s' := by
  generalize hmeasure : m s = k
  induction k using Nat.strongRecOn generalizing s with
  | ind k ih =>
      rcases hstep s hs with hdone | ⟨s', hnext, hs', hlt⟩
      · exact ⟨0, s, Nat.zero_le _, rfl, hs, hdone⟩
      · rw [hmeasure] at hlt
        rcases ih (m s') hlt hs' rfl with ⟨n, t, hn, hsteps, ht, hdone⟩
        exists n + 1, t
        constructor
        · lia
        · constructor
          · rw [List.replicate_succ]
            unfold steps
            rw [hnext, Option.bind_some]
            exact hsteps
          · exact ⟨ht, hdone⟩

end System

end Foundation
end Smartmeter
