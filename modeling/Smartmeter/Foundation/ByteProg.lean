import Smartmeter.Foundation.Act

/-!
# Programs that read bytes

The two read operations of a byte reader, the meaning of such a program on a
list of bytes, and readers that deliver a list of bytes.  The meaning on a list
is partial: it is defined when every read finds the bytes it asks for.
-/

namespace Smartmeter
namespace Foundation

inductive ReadOp where
  | u8
  | exact (n : Nat)
deriving DecidableEq

@[reducible] def ReadSig (ι : Type) : Sig where
  Op := ReadOp
  Resp
    | .u8 => Except ι UInt8
    | .exact _ => Except ι (List UInt8)

namespace Prog

variable {ι α β : Type}

def parse : Prog (ReadSig ι) α -> List UInt8 -> Option (α × List UInt8)
  | .ret a, bs => some (a, bs)
  | .op .u8 k, bs =>
      match bs with
      | [] => none
      | b :: rest => (k (.ok b)).parse rest
  | .op (.exact n) k, bs =>
      if n ≤ bs.length then (k (.ok (bs.take n))).parse (bs.drop n) else none
  | .stuck, _ => none

@[simp] theorem parse_ret (a : α) (bs : List UInt8) :
    (Prog.ret a : Prog (ReadSig ι) α).parse bs = some (a, bs) := rfl

@[simp] theorem parse_stuck (bs : List UInt8) :
    (Prog.stuck : Prog (ReadSig ι) α).parse bs = none := rfl

@[simp] theorem parse_u8_nil (k : Except ι UInt8 -> Prog (ReadSig ι) α) :
    (Prog.op (S := ReadSig ι) .u8 k).parse [] = none := rfl

@[simp] theorem parse_u8_cons (k : Except ι UInt8 -> Prog (ReadSig ι) α)
    (b : UInt8) (bs : List UInt8) :
    (Prog.op (S := ReadSig ι) .u8 k).parse (b :: bs) = (k (.ok b)).parse bs := rfl

theorem parse_exact (n : Nat) (k : Except ι (List UInt8) -> Prog (ReadSig ι) α)
    (bs : List UInt8) :
    (Prog.op (S := ReadSig ι) (.exact n) k).parse bs =
      if n ≤ bs.length then (k (.ok (bs.take n))).parse (bs.drop n)
      else none := rfl

theorem parse_bind (p : Prog (ReadSig ι) α) (f : α -> Prog (ReadSig ι) β)
    (bs : List UInt8) :
    (p.bind f).parse bs =
      (p.parse bs).bind fun (a, rest) => (f a).parse rest := by
  induction p generalizing bs with
  | ret a => rfl
  | op o k ih =>
      cases o with
      | u8 =>
          cases bs with
          | nil => rfl
          | cons b rest => exact ih (.ok b) rest
      | exact n =>
          rw [op_bind, parse_exact, parse_exact]
          by_cases hn : n ≤ bs.length
          · rw [if_pos hn, if_pos hn]
            exact ih (.ok (bs.take n)) (bs.drop n)
          · rw [if_neg hn, if_neg hn]
            rfl
  | stuck => rfl

theorem parse_append {p : Prog (ReadSig ι) α} {bs rest : List UInt8} {a : α}
    (h : p.parse bs = some (a, rest)) (tail : List UInt8) :
    p.parse (bs ++ tail) = some (a, rest ++ tail) := by
  induction p generalizing bs with
  | ret b =>
      cases h
      rfl
  | op o k ih =>
      cases o with
      | u8 =>
          cases bs with
          | nil => cases h
          | cons b bs' => exact ih (.ok b) h
      | exact n =>
          rw [parse_exact] at h ⊢
          by_cases hn : n ≤ bs.length
          · rw [if_pos hn] at h
            have hn' : n ≤ (bs ++ tail).length := by
              rw [List.length_append]
              exact Nat.le_add_right_of_le hn
            rw [if_pos hn', List.take_append_of_le_length hn,
              List.drop_append_of_le_length hn]
            exact ih _ h
          · rw [if_neg hn] at h
            cases h
  | stuck => cases h

theorem parse_prefix {p : Prog (ReadSig ι) α} {bs rest : List UInt8} {a : α}
    (h : p.parse bs = some (a, rest)) :
    exists used, bs = used ++ rest ∧ p.parse used = some (a, []) := by
  induction p generalizing bs with
  | ret b =>
      cases h
      exact ⟨[], rfl, rfl⟩
  | op o k ih =>
      cases o with
      | u8 =>
          cases bs with
          | nil => cases h
          | cons b bs' =>
              rcases ih (.ok b) h with ⟨used, hbs, hused⟩
              exact ⟨b :: used, by rw [hbs]; rfl, hused⟩
      | exact n =>
          rw [parse_exact] at h
          by_cases hn : n ≤ bs.length
          · rw [if_pos hn] at h
            rcases ih _ h with ⟨used, hbs, hused⟩
            refine ⟨bs.take n ++ used, ?_, ?_⟩
            · rw [List.append_assoc, ← hbs, List.take_append_drop]
            · have hlen : (bs.take n).length = n := List.length_take_of_le hn
              have hn' : n ≤ (bs.take n ++ used).length := by
                rw [List.length_append, hlen]
                exact Nat.le_add_right n _
              have htake : (bs.take n ++ used).take n = bs.take n := by
                rw [List.take_append_of_le_length (by lia), List.take_take,
                  Nat.min_self]
              have hdrop : (bs.take n ++ used).drop n = used := by
                rw [List.drop_append_of_le_length (by lia), List.drop_take,
                  Nat.sub_self, List.take_zero, List.nil_append]
              rw [parse_exact, if_pos hn', htake, hdrop]
              exact hused
          · rw [if_neg hn] at h
            cases h
  | stuck => cases h

end Prog

/-!
## Readers that deliver a list of bytes
-/

/--
A handler of the read operations delivers `bytes t` in state `t`: a
read that fits gives the next bytes and moves on by as many, and a read that
does not fit never succeeds.
-/
structure Delivers {ι τ : Type} (H : Handler (ReadSig ι) τ)
    (bytes : τ -> List UInt8) (advance : Nat -> τ -> τ) : Prop where
  bytes_advance : forall n t, bytes (advance n t) = (bytes t).drop n
  advance_zero : forall t, advance 0 t = t
  advance_add : forall m n t, m + n ≤ (bytes t).length ->
    advance n (advance m t) = advance (m + n) t
  u8 : forall b bs t, bytes t = b :: bs ->
    H .u8 t = .done (.ok b) (advance 1 t)
  exact : forall n t, n ≤ (bytes t).length ->
    H (.exact n) t = .done (.ok ((bytes t).take n)) (advance n t)
  u8_short : forall t, bytes t = [] ->
    forall b t', H .u8 t ≠ .done (.ok b) t'
  exact_short : forall n t, (bytes t).length < n ->
    forall bs t', H (.exact n) t ≠ .done (.ok bs) t'

namespace Delivers

variable {ι τ α : Type} {H : Handler (ReadSig ι) τ} {bytes : τ -> List UInt8}
  {advance : Nat -> τ -> τ}

theorem run_of_parse (hD : Delivers H bytes advance) {p : Prog (ReadSig ι) α}
    {t : τ} {a : α} {used rest : List UInt8} (hbytes : bytes t = used ++ rest)
    (h : p.parse (bytes t) = some (a, rest)) :
    p.run H t = .done a (advance used.length t) := by
  induction p generalizing t used with
  | ret b =>
      have hused : used = [] := by
        cases h
        simpa using hbytes
      cases h
      rw [hused, List.length_nil, hD.advance_zero]
      rfl
  | op o k ih =>
      cases o with
      | u8 =>
          cases hb : bytes t with
          | nil =>
              rw [hb] at h
              cases h
          | cons b bs =>
              rw [hb, Prog.parse_u8_cons] at h
              rw [Prog.run_op, hD.u8 b bs t hb, Outcome.done_andThen]
              have hnext : bytes (advance 1 t) = bs := by
                rw [hD.bytes_advance, hb]
                rfl
              rcases Prog.parse_prefix h with ⟨used', hbs, _⟩
              have hused : used = b :: used' := by
                have : used ++ rest = (b :: used') ++ rest := by
                  rw [← hbytes, hb, hbs]
                  rfl
                exact List.append_cancel_right this
              rw [ih (.ok b) (hnext.trans hbs) (by rw [hnext]; exact h), hused,
                List.length_cons, hD.advance_add, Nat.add_comm 1]
              rw [hb, hbs, List.length_cons, List.length_append]
              lia
      | exact n =>
          rw [Prog.parse_exact] at h
          by_cases hn : n ≤ (bytes t).length
          · rw [if_pos hn] at h
            rw [Prog.run_op, hD.exact n t hn, Outcome.done_andThen]
            rcases Prog.parse_prefix h with ⟨used', hbs, _⟩
            have hnext : bytes (advance n t) = used' ++ rest := by
              rw [hD.bytes_advance, hbs]
            have hused : used = (bytes t).take n ++ used' := by
              have : used ++ rest = ((bytes t).take n ++ used') ++ rest := by
                rw [← hbytes, List.append_assoc, ← hbs, List.take_append_drop]
              exact List.append_cancel_right this
            have hlen : used.length = n + used'.length := by
              rw [hused, List.length_append, List.length_take_of_le hn]
            rw [ih _ hnext (by rw [hD.bytes_advance]; exact h), hD.advance_add,
              ← hlen]
            rw [hbytes, List.length_append]
            lia
          · rw [if_neg hn] at h
            cases h
  | stuck => cases h

end Delivers

/-!
## Strict programs

A strict program gives up with the reader's error as soon as a read fails, so a
run of it that succeeds has had every byte it asked for.
-/

/-- Every failed read ends the program with that error. -/
def Strict {ι ε σ α : Type} (inj : ι -> ε) :
    Prog (ReadSig ι) (Except ε α × σ) -> Prop
  | .ret _ => True
  | .op .u8 k =>
      (forall i, exists s, k (.error i) = .ret (.error (inj i), s)) ∧
        forall b, Strict inj (k (.ok b))
  | .op (.exact _) k =>
      (forall i, exists s, k (.error i) = .ret (.error (inj i), s)) ∧
        forall bs, Strict inj (k (.ok bs))
  | .stuck => True

namespace Strict

variable {ι ε σ τ α β : Type} {inj : ι -> ε}

theorem bind {p : Prog (ReadSig ι) (Except ε α × σ)}
    {f : Except ε α × σ -> Prog (ReadSig ι) (Except ε β × τ)}
    (hp : Strict inj p)
    (herr : forall i s, exists t, f (.error (inj i), s) = .ret (.error (inj i), t))
    (hf : forall r, Strict inj (f r)) :
    Strict inj (p.bind f) := by
  induction p with
  | ret r => exact hf r
  | op o k ih =>
      cases o with
      | u8 =>
          refine ⟨fun i => ?_, fun b => ih (.ok b) (hp.2 b)⟩
          rcases hp.1 i with ⟨s, hs⟩
          show exists t, (k (.error i)).bind f = .ret (.error (inj i), t)
          rw [hs]
          exact herr i s
      | exact n =>
          refine ⟨fun i => ?_, fun bs => ih (.ok bs) (hp.2 bs)⟩
          rcases hp.1 i with ⟨s, hs⟩
          show exists t, (k (.error i)).bind f = .ret (.error (inj i), t)
          rw [hs]
          exact herr i s
  | stuck => trivial

theorem act_bind {p : Act (ReadSig ι) ε σ α} {f : α -> Act (ReadSig ι) ε σ β}
    {s : σ} (hp : Strict inj (p s)) (hf : forall a s', Strict inj (f a s')) :
    Strict inj ((p >>= f) s) := by
  refine hp.bind (fun i s' => ⟨s', rfl⟩) ?_
  rintro ⟨r, s'⟩
  cases r with
  | ok a => exact hf a s'
  | error e => trivial

theorem iterate {κ : Type} {body : κ -> Act (ReadSig ι) ε σ (κ ⊕ α)}
    (hbody : forall i s, Strict inj (body i s)) (fuel : Nat) (i : κ) (s : σ) :
    Strict inj (Act.iterate fuel body i s) := by
  induction fuel generalizing i s with
  | zero => trivial
  | succ n ih =>
      rw [Act.iterate_succ]
      refine act_bind (hbody i s) ?_
      intro r s'
      cases r with
      | inl i' => exact ih i' s'
      | inr a => trivial

theorem borrow {get : τ -> σ} {put : σ -> τ -> τ} {p : Act (ReadSig ι) ε σ α}
    {t : τ} (hp : Strict inj (p (get t))) :
    Strict inj (Act.borrow get put p t) :=
  hp.bind (fun _ s => ⟨put s t, rfl⟩) fun _ => trivial

theorem parse_of_run {H : Handler (ReadSig ι) τ} {bytes : τ -> List UInt8}
    {advance : Nat -> τ -> τ} (hD : Delivers H bytes advance)
    {p : Prog (ReadSig ι) (Except ε α × σ)} (hp : Strict inj p) {t t' : τ}
    {a : α} {s : σ} (h : p.run H t = .done (.ok a, s) t') :
    exists used, bytes t = used ++ bytes t' ∧ t' = advance used.length t ∧
      p.parse (bytes t) = some ((.ok a, s), bytes t') := by
  induction p generalizing t with
  | ret r =>
      cases h
      exact ⟨[], rfl, (hD.advance_zero _).symm, rfl⟩
  | op o k ih =>
      cases o with
      | u8 =>
          rcases Outcome.andThen_eq_done h with ⟨r, t₁, hr, hk⟩
          cases r with
          | error i =>
              rcases hp.1 i with ⟨s', hs'⟩
              rw [hs'] at hk
              cases hk
          | ok b =>
              cases hb : bytes t with
              | nil => exact absurd hr (hD.u8_short t hb b t₁)
              | cons c bs =>
                  have hstep := hD.u8 c bs t hb
                  rw [hr] at hstep
                  injection hstep with hbc ht₁
                  injection hbc with hbc
                  subst hbc
                  subst ht₁
                  have hnext : bytes (advance 1 t) = bs := by
                    rw [hD.bytes_advance, hb]
                    rfl
                  rcases ih (.ok b) (hp.2 b) hk with ⟨used, hused, ht', hparse⟩
                  rw [hnext] at hused hparse
                  refine ⟨b :: used, ?_, ?_, hparse⟩
                  · rw [hused]
                    rfl
                  · rw [ht', hD.advance_add, List.length_cons, Nat.add_comm 1]
                    rw [hb, hused, List.length_cons, List.length_append]
                    lia
      | exact n =>
          rcases Outcome.andThen_eq_done h with ⟨r, t₁, hr, hk⟩
          cases r with
          | error i =>
              rcases hp.1 i with ⟨s', hs'⟩
              rw [hs'] at hk
              cases hk
          | ok bs =>
              by_cases hn : n ≤ (bytes t).length
              · have hstep := hD.exact n t hn
                rw [hr] at hstep
                injection hstep with hbs ht₁
                injection hbs with hbs
                subst hbs
                subst ht₁
                rcases ih (.ok ((bytes t).take n)) (hp.2 _) hk with
                  ⟨used, hused, ht', hparse⟩
                rw [hD.bytes_advance] at hused hparse
                have hsplit : bytes t = ((bytes t).take n ++ used) ++ bytes t' := by
                  rw [List.append_assoc, ← hused, List.take_append_drop]
                refine ⟨(bytes t).take n ++ used, hsplit, ?_, ?_⟩
                · have hlen : ((bytes t).take n ++ used).length = n + used.length := by
                    rw [List.length_append, List.length_take_of_le hn]
                  rw [ht', hlen, hD.advance_add]
                  have := congrArg List.length hsplit
                  rw [List.length_append, hlen] at this
                  lia
                · rw [Prog.parse_exact, if_pos hn]
                  exact hparse
              · exact absurd hr (hD.exact_short n t (Nat.lt_of_not_le hn) bs t₁)
  | stuck => cases h

end Strict

/-!
## Strict methods
-/

/-- A method that gives up with the reader's error as soon as a read fails. -/
def Act.Strict {ι ε σ α : Type} (inj : ι -> ε) (p : Act (ReadSig ι) ε σ α) : Prop :=
  forall s, Foundation.Strict inj (p s)

namespace Act.Strict

variable {ι ε σ τ α β : Type} {inj : ι -> ε}

theorem pure (a : α) : Act.Strict inj (Pure.pure a : Act (ReadSig ι) ε σ α) :=
  fun _ => trivial

theorem fail (e : ε) : Act.Strict inj (Act.fail e : Act (ReadSig ι) ε σ α) :=
  fun _ => trivial

theorem gets (f : σ -> α) : Act.Strict inj (Act.gets f : Act (ReadSig ι) ε σ α) :=
  fun _ => trivial

theorem modify (f : σ -> σ) :
    Act.Strict inj (Act.modify f : Act (ReadSig ι) ε σ Unit) :=
  fun _ => trivial

theorem ofExcept (r : Except ε α) :
    Act.Strict inj (Act.ofExcept r : Act (ReadSig ι) ε σ α) :=
  fun _ => trivial

theorem bind {p : Act (ReadSig ι) ε σ α} {f : α -> Act (ReadSig ι) ε σ β}
    (hp : Act.Strict inj p) (hf : forall a, Act.Strict inj (f a)) :
    Act.Strict inj (p >>= f) :=
  fun s => (hp s).act_bind hf

theorem iterate {κ : Type} {body : κ -> Act (ReadSig ι) ε σ (κ ⊕ α)}
    (hbody : forall i, Act.Strict inj (body i)) (fuel : Nat) (i : κ) :
    Act.Strict inj (Act.iterate fuel body i) :=
  fun s => Foundation.Strict.iterate hbody fuel i s

theorem borrow {get : τ -> σ} {put : σ -> τ -> τ} {p : Act (ReadSig ι) ε σ α}
    (hp : Act.Strict inj p) : Act.Strict inj (Act.borrow get put p) :=
  fun t => (hp (get t)).borrow

theorem attempt_bind {p : Act (ReadSig ι) ε σ α}
    {f : Except ε α -> Act (ReadSig ι) ε σ β} (hp : Act.Strict inj p)
    (herr : forall i, f (.error (inj i)) = Act.fail (inj i))
    (hf : forall r, Act.Strict inj (f r)) :
    Act.Strict inj (Act.attempt p >>= f) := by
  intro s
  rw [Act.bind_apply, Act.attempt_apply, Prog.bind_assoc]
  refine (hp s).bind ?_ ?_
  · intro i s'
    exact ⟨s', congrFun (herr i) s'⟩
  · rintro ⟨r, s'⟩
    exact hf r s'

end Act.Strict

namespace Act

variable {ι ε σ τ α β : Type}

def parse (p : Act (ReadSig ι) ε σ α) (s : σ) (bs : List UInt8) :
    Option ((Except ε α × σ) × List UInt8) :=
  (p s).parse bs

theorem parse_bind (p : Act (ReadSig ι) ε σ α) (f : α -> Act (ReadSig ι) ε σ β)
    (s : σ) (bs : List UInt8) :
    (p >>= f).parse s bs =
      match p.parse s bs with
      | some ((.ok a, s'), rest) => (f a).parse s' rest
      | some ((.error e, s'), rest) => some ((.error e, s'), rest)
      | none => none := by
  unfold parse
  rw [bind_apply, Prog.parse_bind]
  cases h : (p s).parse bs with
  | none => rfl
  | some x =>
      rcases x with ⟨⟨r, s'⟩, rest⟩
      cases r <;> rfl

theorem parse_bind_ok {p : Act (ReadSig ι) ε σ α}
    {f : α -> Act (ReadSig ι) ε σ β} {s s' : σ} {bs rest : List UInt8} {a : α}
    (h : p.parse s bs = some ((.ok a, s'), rest)) :
    (p >>= f).parse s bs = (f a).parse s' rest := by
  rw [parse_bind, h]

theorem parse_bind_eq_ok {p : Act (ReadSig ι) ε σ α}
    {f : α -> Act (ReadSig ι) ε σ β} {s t : σ} {bs rest : List UInt8} {b : β}
    (h : (p >>= f).parse s bs = some ((.ok b, t), rest)) :
    exists a s' mid, p.parse s bs = some ((.ok a, s'), mid) ∧
      (f a).parse s' mid = some ((.ok b, t), rest) := by
  rw [parse_bind] at h
  cases hp : p.parse s bs with
  | none =>
      rw [hp] at h
      cases h
  | some x =>
      rcases x with ⟨⟨r, s'⟩, mid⟩
      rw [hp] at h
      cases r with
      | ok a => exact ⟨a, s', mid, rfl, h⟩
      | error e => cases h

@[simp] theorem parse_pure (a : α) (s : σ) (bs : List UInt8) :
    (Pure.pure a : Act (ReadSig ι) ε σ α).parse s bs = some ((.ok a, s), bs) := rfl

@[simp] theorem parse_fail (e : ε) (s : σ) (bs : List UInt8) :
    (fail e : Act (ReadSig ι) ε σ α).parse s bs = some ((.error e, s), bs) := rfl

@[simp] theorem parse_gets (f : σ -> α) (s : σ) (bs : List UInt8) :
    (gets f : Act (ReadSig ι) ε σ α).parse s bs = some ((.ok (f s), s), bs) := rfl

@[simp] theorem parse_modify (f : σ -> σ) (s : σ) (bs : List UInt8) :
    (modify f : Act (ReadSig ι) ε σ Unit).parse s bs =
      some ((.ok (), f s), bs) := rfl

@[simp] theorem parse_ofExcept (r : Except ε α) (s : σ) (bs : List UInt8) :
    (ofExcept r : Act (ReadSig ι) ε σ α).parse s bs = some ((r, s), bs) := rfl

@[simp] theorem parse_outOfFuel (s : σ) (bs : List UInt8) :
    (outOfFuel : Act (ReadSig ι) ε σ α).parse s bs = none := rfl

theorem parse_borrow (get : τ -> σ) (put : σ -> τ -> τ)
    (p : Act (ReadSig ι) ε σ α) (t : τ) (bs : List UInt8) :
    (borrow get put p).parse t bs =
      (p.parse (get t) bs).map fun x => ((x.1.1, put x.1.2 t), x.2) := by
  unfold parse
  rw [borrow_apply, Prog.parse_bind]
  cases (p (get t)).parse bs with
  | none => rfl
  | some x => rfl

theorem parse_append {p : Act (ReadSig ι) ε σ α} {s : σ} {bs rest : List UInt8}
    {x : Except ε α × σ} (h : p.parse s bs = some (x, rest))
    (tail : List UInt8) : p.parse s (bs ++ tail) = some (x, rest ++ tail) :=
  Prog.parse_append h tail

theorem parse_prefix {p : Act (ReadSig ι) ε σ α} {s : σ} {bs rest : List UInt8}
    {x : Except ε α × σ} (h : p.parse s bs = some (x, rest)) :
    exists used, bs = used ++ rest ∧ p.parse s used = some (x, []) :=
  Prog.parse_prefix h

end Act

end Foundation
end Smartmeter
