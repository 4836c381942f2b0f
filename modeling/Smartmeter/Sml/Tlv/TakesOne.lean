import Smartmeter.Sml.Tlv.Recovery

/-!
# Taking one element

A program that takes one item from a list reads the first of the elements that
are left, and leaves the others.
-/

namespace Smartmeter
namespace Sml
namespace Tlv

open Foundation

/-!
## Elements
-/

inductive Element where
  | item (ty : TlvType) (payload : List UInt8)
  | list (children : Forest)

namespace Forest

def head : Forest -> Option Element
  | .nil => none
  | .item _ ty payload _ => some (.item ty payload)
  | .list _ children _ => some (.list children)

def element (f : Forest) (i : Nat) : Option Element := (f.drop i).head

theorem drop_drop (f : Forest) (i k : Nat) : (f.drop i).drop k = f.drop (i + k) := by
  induction i generalizing f with
  | zero =>
      rw [Nat.zero_add]
      rfl
  | succ i ih =>
      rw [Nat.add_right_comm]
      cases f with
      | nil =>
          cases k with
          | zero => rfl
          | succ k => rfl
      | item header ty payload rest => exact ih rest
      | list header children rest => exact ih rest

theorem count_pos_of_head {f : Forest} {el : Element} (h : f.head = some el) : 0 < f.count := by
  cases f with
  | nil => cases h
  | item header ty payload rest => exact Nat.succ_pos _
  | list header children rest => exact Nat.succ_pos _

theorem count_le_of_element {f : Forest} {i : Nat} (h : f.element i = none) : f.count ≤ i := by
  have hcount := count_drop i f
  unfold element at h
  cases hdrop : f.drop i with
  | nil =>
      rw [hdrop] at hcount
      change 0 = f.count - i at hcount
      lia
  | item header ty payload rest =>
      rw [hdrop] at h
      cases h
  | list header children rest =>
      rw [hdrop] at h
      cases h

theorem lt_of_element {f : Forest} {i : Nat} {el : Element} (h : f.element i = some el) :
    i < f.count := by
  have hpos := count_pos_of_head h
  rw [count_drop] at hpos
  lia

end Forest

/-!
## What programs read of elements
-/

theorem Reading.walk_bind {kind : Kind} {α β : Type} (p : Reading kind α)
    (k : α -> Reading kind β) (left : Left kind) :
    (p >>= k).walk left = (p.walk left).bind fun x =>
      match x.1 with
      | .ok a => (k a).walk x.2
      | .error e => some (.error e, x.2) := by
  refine (Read.walk_bind (α := Except Error α) p _ left).trans ?_
  congr 1
  funext x
  rcases x with ⟨r, left'⟩
  cases r with
  | ok a => rfl
  | error e => rfl

theorem Reading.walk_map {kind : Kind} {α β : Type} (g : α -> β) (p : Reading kind α)
    (left : Left kind) :
    (g <$> p).walk left = (p.walk left).map fun x => (x.1.map g, x.2) := by
  refine (Read.walk_bind (α := Except Error α) p _ left).trans ?_
  rw [Option.map_eq_bind]
  congr 1
  funext x
  rcases x with ⟨r, left'⟩
  cases r with
  | ok a => rfl
  | error e => rfl

theorem Reading.walk_bind_pure {kind : Kind} {α β : Type} (g : α -> β) (p : Reading kind α)
    (left : Left kind) :
    (p >>= fun a => pure (g a)).walk left = (g <$> p).walk left := by
  rw [walk_bind, walk_map, Option.map_eq_bind]
  congr 1
  funext x
  rcases x with ⟨r, left'⟩
  cases r with
  | ok a => rfl
  | error e => rfl

theorem walk_map_content {kind : Kind} {β γ : Type} {g : β -> γ} {c : Content kind β} {v : γ}
    {left left' : Left kind} (h : (g <$> Reading.content c).walk left = some (.ok v, left')) :
    exists b, (c.walk left).1 = .ok b ∧ g b = v := by
  have hmap : some ((c.walk left).1.map g, (c.walk left).2) = some (.ok v, left') :=
    (Reading.walk_map g (Reading.content c) left).symm.trans h
  injection hmap with hmap
  injection hmap with hmap _
  cases hcontent : (c.walk left).1 with
  | error e =>
      rw [hcontent] at hmap
      cases hmap
  | ok b =>
      rw [hcontent] at hmap
      injection hmap with hmap
      exact ⟨b, rfl, hmap⟩

theorem readWhole_ok {β : Type} {accepted : Bool} {e : Error} {value b : β} {p : List UInt8}
    (h : (readWhole accepted e value p).1 = .ok b) : accepted = true ∧ value = b := by
  cases accepted with
  | false => cases h
  | true =>
      injection h with h
      exact ⟨rfl, h⟩

theorem Item.ofHeader_none_ty {x : TlvType × Nat} (h : Item.ofHeader x = .ok .none) :
    x.1 = .string := by
  rcases x with ⟨ty, len⟩
  cases ty with
  | string => rfl
  | _ => cases h

inductive Element.Holds : Element -> (kind : Kind) -> Left kind -> Prop where
  | string {payload : List UInt8} (hpayload : payload ≠ []) :
      Holds (.item .string payload) .string payload
  | boolean {payload : List UInt8} : Holds (.item .boolean payload) .boolean payload
  | integer {payload : List UInt8} : Holds (.item .integer payload) .integer payload
  | unsigned {payload : List UInt8} : Holds (.item .unsigned payload) .unsigned payload
  | list {children : Forest} : Holds (.list children) .list children

theorem Element.holds_ofHeader {ty : TlvType} {payload : List UInt8} {kind : Kind} {size : Nat}
    (hty : ty ≠ .list) (h : Item.ofHeader (ty, payload.length) = .ok (.some kind size)) :
    (Element.item ty payload).Holds kind (Left.ofPayload kind payload) := by
  rcases Item.ofHeader_some h with ⟨heq, hsize⟩
  injection heq with hkind hlen
  subst hkind
  cases kind with
  | string =>
      apply Holds.string
      intro hpayload
      rw [hpayload] at hlen
      exact hsize rfl hlen.symm
  | boolean => exact .boolean
  | integer => exact .integer
  | unsigned => exact .unsigned
  | list => exact absurd rfl hty

inductive Element.Gives {β : Type} (absent : Except Error β)
    (child : (kind : Kind) -> Reading kind β) : Element -> Except Error β -> Prop where
  | absent : Gives absent child (.item .string []) absent
  | some {el : Element} {kind : Kind} {left left' : Left kind} {r : Except Error β}
      (hel : el.Holds kind left) (hwalk : (child kind).walk left = some (r, left')) :
      Gives absent child el r

theorem Element.gives_expect {kind : Kind} {β : Type} {absent : Except Error β}
    {child : Reading kind β} {el : Element} {b : β}
    (h : el.Gives absent (Reading.expect kind child) (.ok b)) :
    el = .item .string [] ∧ absent = .ok b ∨
      exists left left', el.Holds kind left ∧ child.walk left = some (.ok b, left') := by
  cases h with
  | absent => exact Or.inl ⟨rfl, rfl⟩
  | some hel hwalk =>
      rename_i kind' left left'
      by_cases hkind : kind = kind'
      · subst hkind
        rw [Reading.expect_self] at hwalk
        exact Or.inr ⟨left, left', hel, hwalk⟩
      · rw [Reading.expect_other child hkind] at hwalk
        cases hwalk

theorem walk_lift {kind : Kind} {β : Type} {p : Read kind β} {b : β} {left left' : Left kind}
    (h : Reading.walk (ExceptT.lift p) left = some (.ok b, left')) :
    p.walk left = some (b, left') := by
  have hbind := (Read.walk_bind (β := Except Error β) p (fun b => .done (.ok b)) left).symm.trans h
  rcases Option.bind_eq_some_iff.mp hbind with ⟨x, hx, hdone⟩
  cases hdone
  exact hx

/-!
## Programs that do not get stuck
-/

theorem Read.Total.bind {kind : Kind} {α β : Type} {p : Read kind α} (hp : p.Total)
    {k : α -> Read kind β} (hk : forall a, (k a).Total) : (p >>= k).Total := by
  change (p.bind k).Total
  induction p with
  | done a => exact hk a
  | stuck => exact hp
  | len p ih => exact fun n => ih n (hp n) hk
  | content c p ih => exact fun r => ih r (hp r) hk
  | next child p _ ih => exact ⟨hp.1, fun r => ih r (hp.2 r) hk⟩
  | skip num p ih => exact fun r => ih r (hp r) hk
  | nextEnd p ih => exact fun r => ih r (hp r) hk

namespace Reading

variable {kind : Kind} {α β : Type}

/-- A program that may end with an error, but does not get stuck. -/
def Total (p : Reading kind α) : Prop := Read.Total (α := Except Error α) p

theorem Total.bind {p : Reading kind α} (hp : p.Total) {k : α -> Reading kind β}
    (hk : forall a, (k a).Total) : (p >>= k).Total := by
  apply Read.Total.bind (α := Except Error α) hp
  intro r
  cases r with
  | ok a => exact hk a
  | error e => trivial

theorem Total.map {p : Reading kind α} (hp : p.Total) (g : α -> β) : (g <$> p).Total := by
  apply Read.Total.bind (α := Except Error α) hp
  intro r
  cases r <;> trivial

theorem total_lift {p : Read kind α} (hp : p.Total) : Total (ExceptT.lift p) :=
  Read.Total.bind hp fun _ => trivial

theorem total_len : (len : Reading kind Nat).Total := fun _ => trivial

theorem total_content (c : Content kind β) : (content c).Total := fun _ => trivial

theorem total_nextAny (absent : Except Error β) {child : (kind : Kind) -> Reading kind β}
    (hchild : forall kind, (child kind).Total) : (nextAny absent child).Total := by
  refine ⟨hchild, ?_⟩
  intro r
  cases r <;> trivial

theorem total_expect {child : Reading kind β} (hchild : child.Total) (kind' : Kind) :
    (expect kind child kind').Total := by
  by_cases hkind : kind = kind'
  · subst hkind
    rw [expect_self]
    exact hchild
  · rw [expect_other child hkind]
    trivial

theorem total_skip (num : Nat) : (skip num).Total := fun _ => trivial

theorem total_nextEnd : nextEnd.Total := fun _ => trivial

theorem total_field {numSkip : Nat} {p : Reading .list β} (hp : p.Total) :
    (Types.field numSkip p).Total := by
  unfold Types.field
  split
  · exact (total_skip numSkip).bind fun _ => hp
  · exact hp

end Reading

variable [Machine]

/-!
## Programs that take one element
-/

/--
On the elements of known types a program takes the first one, and a result that
is no error is as specified; the error `missing` means that there is none.
-/
def TakesOne {α : Type} (missing : Error) (p : Reading .list α)
    (spec : Element -> α -> Prop) : Prop :=
  forall (f f' : Forest) (r : Except Error α), f.WellFormed -> f.Known ->
    p.walk f = some (r, f') ->
    f.head = none ∧ r = .error missing ∧ f' = f ∨
      exists el, f.head = some el ∧ f' = f.drop 1 ∧ forall a, r = .ok a -> spec el a

theorem walk_nextAny_gives {β : Type} {absent : Except Error β}
    {child : (kind : Kind) -> Reading kind β} {f f' : Forest} {r : Except Error β}
    (hwf : f.WellFormed) (hf : f.Known)
    (h : (Reading.nextAny absent child).walk f = some (r, f')) :
    f.head = none ∧ r = .error .endOfList ∧ f' = f ∨
      exists el, f.head = some el ∧ f' = f.drop 1 ∧ el.Gives absent child r := by
  unfold Reading.walk Reading.nextAny ExceptT.mk at h
  cases f with
  | nil =>
      cases h
      exact Or.inl ⟨rfl, rfl, rfl⟩
  | list header children rest =>
      rcases Option.bind_eq_some_iff.mp h with ⟨x, hx, hdone⟩
      cases hdone
      exact Or.inr ⟨_, rfl, rfl, .some .list hx⟩
  | item header ty payload rest =>
      rcases Item.ofHeader_known hf.1 payload.length with ⟨item, hitem⟩
      simp only [Read.walk] at h
      rw [hitem] at h
      cases item with
      | none =>
          cases h
          have hty : ty = .string := Item.ofHeader_none_ty hitem
          have hlen : payload = [] := List.length_eq_zero_iff.mp (Item.ofHeader_none hitem)
          rw [hty, hlen]
          exact Or.inr ⟨_, rfl, rfl, .absent⟩
      | some kind size =>
          rcases Option.bind_eq_some_iff.mp h with ⟨x, hx, hdone⟩
          cases hdone
          exact Or.inr ⟨_, rfl, rfl, .some (Element.holds_ofHeader hwf.2.1 hitem) hx⟩

theorem takesOne_nextAny {β : Type} (absent : Except Error β)
    (child : (kind : Kind) -> Reading kind β) :
    TakesOne .endOfList (Reading.nextAny absent child)
      fun el b => el.Gives absent child (.ok b) := by
  intro f f' r hwf hf h
  rcases walk_nextAny_gives hwf hf h with hnil | ⟨el, hel, hrest, hgives⟩
  · exact Or.inl hnil
  · refine Or.inr ⟨el, hel, hrest, ?_⟩
    intro b hb
    rw [hb] at hgives
    exact hgives

theorem takesOne_nextEnd {spec : Element -> Unit -> Prop} :
    TakesOne .unexpectedValue Reading.nextEnd spec := by
  intro f f' r _ hf h
  unfold Reading.nextEnd ExceptT.mk Reading.walk at h
  cases f with
  | nil =>
      cases h
      exact Or.inl ⟨rfl, rfl, rfl⟩
  | list header children rest =>
      cases h
      refine Or.inr ⟨_, rfl, rfl, ?_⟩
      intro a ha
      cases ha
  | item header ty payload rest =>
      rcases Item.ofHeader_known hf.1 payload.length with ⟨item, hitem⟩
      simp only [Read.walk] at h
      rw [hitem] at h
      cases h
      refine Or.inr ⟨_, rfl, rfl, ?_⟩
      intro a ha
      cases ha

theorem TakesOne.imp {α : Type} {missing : Error} {p : Reading .list α}
    {spec spec' : Element -> α -> Prop} (h : TakesOne missing p spec)
    (himp : forall el a, spec el a -> spec' el a) : TakesOne missing p spec' := by
  intro f f' r hwf hf hwalk
  rcases h f f' r hwf hf hwalk with hnil | ⟨el, hel, hrest, hspec⟩
  · exact Or.inl hnil
  · exact Or.inr ⟨el, hel, hrest, fun a ha => himp el a (hspec a ha)⟩

theorem TakesOne.map {α β : Type} {missing : Error} {p : Reading .list α}
    {spec : Element -> α -> Prop} (h : TakesOne missing p spec) (g : α -> β) :
    TakesOne missing (g <$> p) fun el b => exists a, spec el a ∧ g a = b := by
  intro f f' r hwf hf hwalk
  rcases Option.map_eq_some_iff.mp ((Reading.walk_map g p _).symm.trans hwalk) with
    ⟨⟨r', g'⟩, hp, heq⟩
  injection heq with hr hg'
  change g' = f' at hg'
  subst hg'
  change r'.map g = r at hr
  rcases h f g' r' hwf hf hp with ⟨hnil, hr', hrest⟩ | ⟨el, hel, hrest, hspec⟩
  · rw [hr'] at hr
    exact Or.inl ⟨hnil, hr.symm, hrest⟩
  · refine Or.inr ⟨el, hel, hrest, ?_⟩
    intro b hb
    rw [hb] at hr
    cases r' with
    | error e => cases hr
    | ok a =>
        injection hr with hr
        exact ⟨a, hspec a rfl, hr⟩

theorem TakesOne.bind_pure {α β : Type} {missing : Error} {p : Reading .list α}
    {spec : Element -> α -> Prop} (h : TakesOne missing p spec) (g : α -> β) :
    TakesOne missing (p >>= fun a => pure (g a)) fun el b => exists a, spec el a ∧ g a = b := by
  intro f f' r hwf hf hwalk
  exact h.map g f f' r hwf hf ((Reading.walk_bind_pure g p _).symm.trans hwalk)

end Tlv
end Sml
end Smartmeter
