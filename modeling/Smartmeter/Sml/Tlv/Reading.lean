import Smartmeter.Sml.Types

/-!
# Read programs as methods

A read program that may end with an error is a method on the item it reads.
The methods of lists and of the generated types are strict: an error of the
reader ends them.
-/

namespace Smartmeter
namespace Sml
namespace Tlv

open Foundation

variable [Machine]

/-- How a program goes on with what taking an item from a list gave. -/
def Read.afterNext {α β : Type} (child : (kind : Kind) -> Read kind β)
    (k : Next β -> Read .list α) : Except Error (Option Item) × Handle -> Prog Ops (α × Handle)
  | (.error e, self) => (k (.error e)).run self
  | (.ok none, self) => (k .endOfList).run self
  | (.ok (some .none), self) => (k .none).run self
  | (.ok (some (.some kind size)), self) =>
      ((child kind).run { reader := self.reader, len := size }).bind
        fun x => (k (.some x.1)).run { self with reader := x.2.drop kind }

theorem Read.run_next {α β : Type} (child : (kind : Kind) -> Read kind β)
    (k : Next β -> Read .list α) (self : Handle) :
    (Read.next child k).run self = (List.next self).bind (Read.afterNext child k) := by
  rw [Read.run]
  rfl

theorem Read.run_bind {kind : Kind} {α β : Type} (p : Read kind α) (f : α -> Read kind β)
    (self : Handle) :
    (p >>= f).run self = (p.run self).bind fun x => (f x.1).run x.2 := by
  change (p.bind f).run self = _
  induction p generalizing self with
  | done a => rfl
  | stuck => rfl
  | len k ih => exact ih self.len f self
  | content c k ih =>
      change (c.act self).bind (fun x => ((k x.1).bind f).run x.2) = _
      simp only [ih]
      exact (Prog.bind_assoc _ _ _).symm
  | skip num k ih =>
      change (List.skip num self).bind (fun x => ((k x.1).bind f).run x.2) = _
      simp only [ih]
      exact (Prog.bind_assoc _ _ _).symm
  | nextEnd k ih =>
      change (List.nextEnd self).bind (fun x => ((k x.1).bind f).run x.2) = _
      simp only [ih]
      exact (Prog.bind_assoc _ _ _).symm
  | next child k _ ih =>
      change (Read.next child fun r => (k r).bind f).run self = _
      rw [run_next, run_next, Prog.bind_assoc]
      congr 1
      funext x
      rcases x with ⟨r, self'⟩
      cases r with
      | error e => exact ih (.error e) f self'
      | ok item =>
          cases item with
          | none => exact ih .endOfList f self'
          | some item =>
              cases item with
              | none => exact ih .none f self'
              | some kind size =>
                  simp only [afterNext, Prog.bind_assoc]
                  congr 1
                  funext y
                  exact ih (.some y.1) f _

namespace Reading

variable {kind : Kind} {α β : Type}

def act (p : Reading kind α) : Act Ops Error Handle α :=
  fun self => Read.run p self

theorem act_pure (a : α) : (pure a : Reading kind α).act = pure a := rfl

theorem act_len : (len : Reading kind Nat).act = Act.gets Handle.len := rfl

theorem act_bind (p : Reading kind α) (f : α -> Reading kind β) :
    (p >>= f).act = p.act >>= fun a => (f a).act := by
  funext self
  rw [Act.bind_apply]
  refine (Read.run_bind (α := Except Error α) p _ self).trans ?_
  congr 1
  funext x
  rcases x with ⟨r, self'⟩
  cases r with
  | ok a => rfl
  | error e => rfl

theorem act_len_bind (f : Nat -> Reading kind β) (self : Handle) :
    (len >>= f).act self = (f self.len).act self := by
  rw [act_bind, act_len]
  rfl

theorem act_map (f : α -> β) (p : Reading kind α) :
    (f <$> p).act = p.act >>= fun a => pure (f a) := by
  funext self
  rw [Act.bind_apply]
  refine (Read.run_bind (α := Except Error α) p _ self).trans ?_
  congr 1
  funext x
  rcases x with ⟨r, self'⟩
  cases r with
  | ok a => rfl
  | error e => rfl

theorem act_content (c : Content kind β) : (content c).act = c.act := by
  funext self
  exact Prog.bind_ret (c.act self)

theorem act_nextEnd : nextEnd.act = List.nextEnd := by
  funext self
  exact Prog.bind_ret (List.nextEnd self)

/-- The method that takes the next item and runs a program for it. -/
def withNext (none : Except Error β) (child : (kind : Kind) -> Reading kind β) :
    Option Item -> Act Ops Error Handle β
  | .none => Act.fail .endOfList
  | .some .none => Act.ofExcept none
  | .some (.some kind len) => Handle.withReader (Handle.scope kind len (child kind).act)

theorem act_nextAny (none : Except Error β) (child : (kind : Kind) -> Reading kind β) :
    (nextAny none child).act = List.next >>= withNext none child := by
  funext self
  rw [Act.bind_apply]
  refine (Read.run_next (β := Except Error β) child _ self).trans ?_
  congr 1
  funext x
  rcases x with ⟨r, self'⟩
  cases r with
  | error e => rfl
  | ok item =>
      cases item with
      | none => rfl
      | some item =>
          cases item with
          | none =>
              cases none with
              | ok b => rfl
              | error e => rfl
          | some kind len =>
              simp only [withNext, Handle.withReader, Handle.scope, Act.borrow_apply,
                Prog.bind_assoc]
              rfl

end Reading

/-!
## Strictness
-/

abbrev Strict {σ α : Type} (p : Act Ops Error σ α) : Prop := Act.Strict Error.io p

omit [Machine] in
theorem strict_readU8 {σ : Type} : Strict (readU8 : Act Ops Error σ UInt8) :=
  fun s => ⟨fun _ => ⟨s, rfl⟩, fun _ => trivial⟩

omit [Machine] in
theorem strict_readExact {σ : Type} (n : Nat) :
    Strict (readExact n : Act Ops Error σ (List UInt8)) :=
  fun s => ⟨fun _ => ⟨s, rfl⟩, fun _ => trivial⟩

namespace Reader

theorem strict_headerLoop (x : TlvHeader × Nat × Nat) : Strict (headerLoop x) := by
  rcases x with ⟨header, len, headerLen⟩
  unfold headerLoop
  dsimp only
  by_cases hmore : header.hasMore = true
  · rw [if_pos hmore]
    refine .bind strict_readU8 ?_
    intro byte
    split
    · exact .fail _
    · cases Usize.checkedShl len 4 with
      | none => exact .fail _
      | some len' =>
          dsimp only
          cases Usize.checkedAdd len' (TlvHeader.mk byte).len with
          | none => exact .fail _
          | some len'' => exact .pure _
  · rw [if_neg hmore]
    exact .pure _

theorem strict_readTlvInner : Strict readTlvInner := by
  refine .bind strict_readU8 ?_
  intro byte
  exact .bind (.iterate strict_headerLoop _ _) fun _ => .ofExcept _

theorem strict_skipBytes (num : Nat) : Strict (skipBytes num) := by
  refine .iterate ?_ _ _
  intro num
  unfold skipBytesLoop
  split
  · exact .bind (strict_readExact _) fun _ => .pure _
  · exact .pure _

theorem strict_skipTlvs (num : Nat) : Strict (skipTlvs num) := by
  refine .iterate ?_ _ _
  intro num
  unfold skipTlvsLoop
  split
  · refine .attempt_bind strict_readTlvInner (fun _ => rfl) ?_
    intro r
    cases r with
    | error e =>
        cases e with
        | endOfSmlMessage =>
            dsimp only
            split
            · exact .fail _
            · exact .fail _
        | _ => exact .fail _
    | ok x =>
        rcases x with ⟨ty, len⟩
        cases ty with
        | list => exact .pure _
        | _ => exact .bind (strict_skipBytes _) fun _ => .pure _
  · exact .pure _

theorem strict_skipNow : Strict skipNow := by
  refine .bind (.gets _) ?_
  intro remainingBytes
  have htlvs : Strict (do
      let remainingTlvs ← Act.gets Reader.remainingTlvs
      if remainingTlvs > 0 then
        skipTlvs remainingTlvs
        Act.modify fun r => { r with remainingTlvs := 0 }) := by
    refine .bind (.gets _) ?_
    intro remainingTlvs
    split
    · exact .bind (strict_skipTlvs _) fun _ => .modify _
    · exact .pure _
  dsimp only
  split
  · exact .bind (strict_skipBytes _) fun _ => .bind (.modify _) fun _ => htlvs
  · exact htlvs

theorem strict_readTlv : Strict readTlv :=
  .bind strict_skipNow fun _ => strict_readTlvInner

theorem strict_readList : Strict readList := by
  refine .bind strict_readTlv ?_
  rintro ⟨ty, len⟩
  cases ty with
  | list => exact .pure _
  | _ => exact .fail _

end Reader

namespace Handle

omit [Machine] in
theorem strict_withReader {α : Type} {body : Act Ops Error Reader α} (h : Strict body) :
    Strict (withReader body) :=
  Act.Strict.borrow h

theorem strict_scope {α : Type} (kind : Kind) (len : Nat) {body : Act Ops Error Handle α}
    (h : Strict body) : Strict (scope kind len body) :=
  Act.Strict.borrow h

end Handle

namespace List

theorem strict_next : Strict next := by
  refine .bind (.gets _) ?_
  intro len
  dsimp only
  split
  · exact .pure _
  · refine .bind (Handle.strict_withReader Reader.strict_readTlv) ?_
    rintro ⟨ty, len⟩
    refine .bind (.modify _) ?_
    intro _
    cases ty with
    | string =>
        dsimp only
        split
        · exact .pure _
        · exact .pure _
    | other ty => exact .fail _
    | _ => exact .pure _

theorem strict_dropItem (item : Option Item) : Strict (dropItem item) := by
  cases item with
  | none => exact .pure _
  | some item =>
      cases item with
      | some kind len =>
          exact Handle.strict_withReader (Handle.strict_scope kind len (.pure ()))
      | none => exact .pure _

theorem strict_nextVariant (kind : Kind) : Strict (nextVariant kind) := by
  refine .bind (.bind strict_next ?_) ?_
  · intro item
    cases item with
    | none => exact .fail _
    | some v => exact .pure _
  · intro item
    cases item with
    | some kind' len =>
        dsimp only
        split
        · exact .pure _
        · exact .bind (strict_dropItem _) fun _ => .fail _
    | none => exact .fail _

theorem strict_nextEnd : Strict nextEnd := by
  refine .attempt_bind strict_next (fun _ => rfl) ?_
  intro r
  cases r with
  | error e =>
      cases e with
      | endOfSmlMessage => exact .modify _
      | _ => exact .fail _
  | ok item => exact .bind (strict_dropItem _) fun _ => .fail _

end List

omit [Machine] in
theorem strict_content {kind : Kind} {β : Type} (c : Content kind β) : Strict c.act := by
  cases c with
  | read buf =>
      refine .bind (.gets _) ?_
      intro len
      split
      · exact .fail _
      · exact .bind (strict_readExact _) fun _ => .bind (.modify _) fun _ => .pure _
  | intoBool =>
      refine .bind (.gets _) ?_
      intro len
      split
      · exact .fail _
      · exact .bind strict_readU8 fun _ => .bind (.modify _) fun _ => .pure _
  | intoInteger minsz maxsz => exact .bind (strict_intoBytes minsz maxsz) fun _ => .pure _
  | intoUnsigned minsz maxsz => exact .bind (strict_intoBytes minsz maxsz) fun _ => .pure _
where
  strict_intoBytes (minsz maxsz : Nat) : Strict (intoBytes minsz maxsz) := by
    refine .bind (.gets _) ?_
    intro len
    split
    · exact .bind (strict_readExact _) fun _ => .bind (.modify _) fun _ => .pure _
    · exact .fail _

namespace Reading

variable {kind : Kind} {α β : Type}

theorem strict_nextAny (none : Except Error β) {child : (kind : Kind) -> Reading kind β}
    (hchild : forall kind, Strict (child kind).act) : Strict (nextAny none child).act := by
  rw [act_nextAny]
  refine .bind List.strict_next ?_
  intro item
  cases item with
  | none => exact .fail _
  | some item =>
      cases item with
      | none => exact .ofExcept _
      | some kind len =>
          exact Handle.strict_withReader (Handle.strict_scope kind len (hchild kind))

theorem strict_expect {child : Reading kind β} (hchild : Strict child.act) (kind' : Kind) :
    Strict (expect kind child kind').act := by
  unfold expect
  split
  · next h =>
      subst h
      exact hchild
  · exact .fail _

theorem strict_nextVariant {child : Reading kind β} (hchild : Strict child.act) :
    Strict (nextVariant kind child).act :=
  strict_nextAny _ (strict_expect hchild)

theorem strict_content (c : Content kind β) : Strict (content c).act := by
  rw [act_content]
  exact Tlv.strict_content c

end Reading

end Tlv
end Sml
end Smartmeter
