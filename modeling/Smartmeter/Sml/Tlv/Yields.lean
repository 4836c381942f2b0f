import Smartmeter.Sml.Tlv.TakesOne

/-!
# What programs yield

The values that a program may return, and what it leaves when it returns one.
Errors are not told apart, but the program does not get stuck.
-/

namespace Smartmeter
namespace Sml
namespace Tlv

open Foundation

/-- The values that satisfy `P` are the results, and they leave what satisfies `Q`. -/
def Yields {kind : Kind} {α : Type} (p : Reading kind α) (left : Left kind)
    (Q : Left kind -> Prop) (P : α -> Prop) : Prop :=
  exists (r : Except Error α) (left' : Left kind), p.walk left = some (r, left') ∧
    (forall a, r = .ok a <-> P a) ∧ forall a, r = .ok a -> Q left'

def anyLeft {kind : Kind} : Left kind -> Prop := fun _ => True

namespace Yields

variable {kind : Kind} {α β : Type} {left : Left kind} {Q R : Left kind -> Prop}

theorem imp {p : Reading kind α} {P P' : α -> Prop} (h : Yields p left Q P)
    (himp : forall a, P a <-> P' a) : Yields p left Q P' := by
  rcases h with ⟨r, left', hwalk, hresults, hleft⟩
  exact ⟨r, left', hwalk, fun a => (hresults a).trans (himp a), hleft⟩

theorem mono {p : Reading kind α} {P : α -> Prop} (h : Yields p left Q P)
    (hmono : forall l, Q l -> R l) : Yields p left R P := by
  rcases h with ⟨r, left', hwalk, hresults, hleft⟩
  exact ⟨r, left', hwalk, hresults, fun a ha => hmono left' (hleft a ha)⟩

theorem congr {p p' : Reading kind α} {P : α -> Prop} (h : Yields p' left Q P)
    (hwalk : p.walk left = p'.walk left) : Yields p left Q P := by
  unfold Yields
  rw [hwalk]
  exact h

theorem drop {p : Reading kind α} {P : α -> Prop} (h : Yields p left Q P) :
    Yields p left Tlv.anyLeft P := by
  exact h.mono fun _ _ => trivial

theorem pure (a : α) : Yields (Pure.pure a : Reading kind α) left (fun l => l = left)
    fun b => b = a := by
  refine ⟨.ok a, left, rfl, ?_, fun _ _ => rfl⟩
  intro b
  constructor
  · intro h
    injection h with h
    exact h.symm
  · intro h
    rw [h]

theorem ofExcept (r : Except Error α) :
    Yields (ExceptT.mk (.done r) : Reading kind α) left (fun l => l = left)
      fun b => r = .ok b :=
  ⟨r, left, rfl, fun _ => Iff.rfl, fun _ _ => rfl⟩

theorem fail (e : Error) : Yields (Reading.fail e : Reading kind α) left Q fun _ => False := by
  refine ⟨.error e, left, rfl, ?_, ?_⟩
  · intro a
    constructor
    · intro h
      cases h
    · intro h
      exact h.elim
  · intro a h
    cases h

theorem bind {p : Reading kind α} {k : α -> Reading kind β} {P : α -> Prop}
    {S : α -> β -> Prop} (h : Yields p left Q P)
    (hk : forall a left', P a -> Q left' -> Yields (k a) left' R (S a)) :
    Yields (p >>= k) left R fun b => exists a, P a ∧ S a b := by
  rcases h with ⟨r, left', hwalk, hresults, hleft⟩
  have hbind := Reading.walk_bind p k left
  rw [hwalk] at hbind
  cases r with
  | error e =>
      refine ⟨.error e, left', hbind, ?_, ?_⟩
      · intro b
        constructor
        · intro hb
          cases hb
        · intro hb
          rcases hb with ⟨a, ha, _⟩
          cases (hresults a).mpr ha
      · intro b hb
        cases hb
  | ok a =>
      have ha := (hresults a).mp rfl
      rcases hk a left' ha (hleft a rfl) with ⟨r', left'', hwalk', hresults', hleft'⟩
      refine ⟨r', left'', hbind.trans hwalk', ?_, hleft'⟩
      intro b
      rw [hresults']
      constructor
      · intro hb
        exact ⟨a, ha, hb⟩
      · intro hb
        rcases hb with ⟨a', ha', hb⟩
        have heq := (hresults a').mpr ha'
        injection heq with heq
        rw [heq]
        exact hb

theorem bind_left {p : Reading kind α} {k : α -> Reading kind β} {P : α -> Prop}
    {S : α -> β -> Prop} {left' : Left kind} (h : Yields p left (fun l => l = left') P)
    (hk : forall a, P a -> Yields (k a) left' R (S a)) :
    Yields (p >>= k) left R fun b => exists a, P a ∧ S a b := by
  apply h.bind
  intro a l ha hl
  rw [hl]
  exact hk a ha

theorem map {p : Reading kind α} {P : α -> Prop} (h : Yields p left Q P) (g : α -> β) :
    Yields (g <$> p) left Q fun b => exists a, P a ∧ g a = b := by
  rcases h with ⟨r, left', hwalk, hresults, hleft⟩
  refine ⟨r.map g, left', ?_, ?_, ?_⟩
  · rw [Reading.walk_map, hwalk]
    rfl
  · intro b
    cases r with
    | error e =>
        constructor
        · intro hb
          cases hb
        · intro hb
          rcases hb with ⟨a, ha, _⟩
          cases (hresults a).mpr ha
    | ok a =>
        constructor
        · intro hb
          injection hb with hb
          exact ⟨a, (hresults a).mp rfl, hb⟩
        · intro hb
          rcases hb with ⟨a', ha', hb⟩
          have heq := (hresults a').mpr ha'
          injection heq with heq
          rw [heq, ← hb]
          rfl
  · intro b hb
    cases r with
    | error e => cases hb
    | ok a => exact hleft a rfl

theorem len {k : Nat -> Reading kind β} {P : β -> Prop} (h : Yields (k left.len) left Q P) :
    Yields (Reading.len >>= k) left Q P := by
  rcases h with ⟨r, left', hwalk, hrest⟩
  refine ⟨r, left', ?_, hrest⟩
  exact (Reading.walk_bind Reading.len k left).trans hwalk

theorem of_walk {p : Reading kind α} {a : α} {left' : Left kind}
    (h : p.walk left = some (.ok a, left')) : Yields p left Tlv.anyLeft fun b => b = a := by
  refine ⟨.ok a, left', h, ?_, fun _ _ => trivial⟩
  intro b
  constructor
  · intro hb
    injection hb with hb
    exact hb.symm
  · intro hb
    rw [hb]

theorem bind_ofExcept {p : Reading kind α} {P : α -> Prop} (h : Yields p left Q P)
    (g : α -> Except Error β) :
    Yields (p >>= fun a => ExceptT.mk (.done (g a))) left Q
      fun b => exists a, P a ∧ g a = .ok b := by
  apply h.bind
  intro a left' _ hleft
  apply (ofExcept (g a)).mono
  intro l hl
  rw [hl]
  exact hleft

theorem walk_iff {p : Reading kind α} {P : α -> Prop} (h : Yields p left Q P) (a : α) :
    (exists l, p.walk left = some (.ok a, l)) <-> P a := by
  rcases h with ⟨r, left', hwalk, hresults, _⟩
  rw [hwalk, ← hresults]
  constructor
  · intro ha
    rcases ha with ⟨l, ha⟩
    cases ha
    rfl
  · intro ha
    exists left'
    rw [ha]

theorem lift {p : Reading kind α} {P : α -> Prop} (h : Yields p left Q P) :
    Yields (ExceptT.lift (m := Read kind) p) left Tlv.anyLeft
      fun r => exists l, p.walk left = some (r, l) := by
  rcases h with ⟨r, left', hwalk, _, _⟩
  refine ⟨.ok r, left', ?_, ?_, fun _ _ => trivial⟩
  · exact (Read.walk_bind _ _ _).trans (congrArg (Option.bind · _) hwalk)
  · intro r'
    rw [hwalk]
    constructor
    · intro h
      cases h
      exact ⟨left', rfl⟩
    · intro h
      rcases h with ⟨l, h⟩
      cases h
      rfl

theorem content {β : Type} (c : Content kind β) :
    Yields (Reading.content c) left Tlv.anyLeft fun b => (c.walk left).1 = .ok b :=
  ⟨(c.walk left).1, (c.walk left).2, rfl, fun _ => Iff.rfl, fun _ _ => trivial⟩

end Yields

theorem readWhole_iff {β : Type} {accepted : Bool} {e : Error} {value b : β} {p : List UInt8} :
    (readWhole accepted e value p).1 = .ok b <-> accepted = true ∧ b = value := by
  constructor
  · intro h
    rcases readWhole_ok h with ⟨haccepted, hvalue⟩
    exact ⟨haccepted, hvalue.symm⟩
  · intro h
    rcases h with ⟨haccepted, hvalue⟩
    rw [haccepted, hvalue]
    rfl

/-!
## Taking an item
-/

section

variable {β : Type} {f : Forest}

theorem Element.holds_unique {el : Element} {kind kind' : Kind} {left : Left kind}
    {left' : Left kind'} (h : el.Holds kind left) (h' : el.Holds kind' left') :
    kind = kind' ∧ HEq left left' := by
  cases h <;> cases h' <;> exact ⟨rfl, HEq.rfl⟩

theorem Element.not_holds_absent {kind : Kind} {left : Left kind} :
    ¬ (Element.item .string []).Holds kind left := by
  intro h
  cases h with
  | string hpayload => exact hpayload rfl

variable [Machine]

theorem Forest.holds_head {el : Element} (hwf : f.WellFormed) (hknown : f.Known)
    (hhead : f.head = some el) (hel : el ≠ .item .string []) :
    exists (kind : Kind) (left : Left kind), el.Holds kind left := by
  cases f with
  | nil => cases hhead
  | list header children rest =>
      cases hhead
      exact ⟨.list, children, .list⟩
  | item header ty payload rest =>
      cases hhead
      rcases Item.ofHeader_known hknown.1 payload.length with ⟨item, hitem⟩
      cases item with
      | none =>
          have hty : ty = .string := Item.ofHeader_none_ty hitem
          have hlen : payload = [] := List.length_eq_zero_iff.mp (Item.ofHeader_none hitem)
          rw [hty, hlen] at hel
          exact absurd rfl hel
      | some kind size => exact ⟨kind, _, Element.holds_ofHeader hwf.2.1 hitem⟩

/--
What the program for the items of a list yields, when the one for the first
element is known; an empty octet string is absent.
-/
theorem Yields.nextAny {absent : Except Error β} {child : (kind : Kind) -> Reading kind β}
    {P : Element -> β -> Prop} (hwf : f.WellFormed) (hknown : f.Known)
    (habsent : f.head = some (.item .string []) ->
      forall b, absent = .ok b <-> P (.item .string []) b)
    (h : forall (el : Element) (kind : Kind) (left : Left kind), f.head = some el ->
      el.Holds kind left -> Yields (child kind) left Tlv.anyLeft (P el)) :
    Yields (Reading.nextAny absent child) f (fun g => g = f.drop 1)
      fun b => exists el, f.head = some el ∧ P el b := by
  have htaken : forall (el : Element) (kind : Kind) (left : Left kind), f.head = some el ->
      el.Holds kind left ->
      (Reading.nextAny absent child).walk f =
        ((child kind).walk left).map (fun x => (x.1, f.drop 1)) ->
      Yields (Reading.nextAny absent child) f (fun g => g = f.drop 1)
        fun b => exists el, f.head = some el ∧ P el b := by
    intro el kind left hhead hel hwalk
    rcases h el kind left hhead hel with ⟨r, left', hchild, hresults, _⟩
    rw [hchild] at hwalk
    refine ⟨r, f.drop 1, hwalk, ?_, fun _ _ => rfl⟩
    intro b
    rw [hresults, hhead]
    constructor
    · intro hb
      exact ⟨el, rfl, hb⟩
    · intro hb
      rcases hb with ⟨el', heq, hb⟩
      injection heq with heq
      rw [heq]
      exact hb
  cases f with
  | nil =>
      refine ⟨.error .endOfList, Forest.nil, rfl, ?_, ?_⟩
      · intro b
        constructor
        · intro hb
          cases hb
        · intro hb
          rcases hb with ⟨el, hhead, _⟩
          cases hhead
      · intro b hb
        cases hb
  | list header children rest =>
      apply htaken (.list children) .list children rfl .list
      unfold Reading.walk Reading.nextAny ExceptT.mk
      simp only [Read.walk]
      rw [Option.map_eq_bind]
      rfl
  | item header ty payload rest =>
      rcases Item.ofHeader_known hknown.1 payload.length with ⟨item, hitem⟩
      cases item with
      | none =>
          have hty : ty = .string := Item.ofHeader_none_ty hitem
          have hlen : payload = [] := List.length_eq_zero_iff.mp (Item.ofHeader_none hitem)
          subst hty
          subst hlen
          refine ⟨absent, rest, rfl, ?_, fun _ _ => rfl⟩
          intro b
          rw [habsent rfl]
          constructor
          · intro hb
            exact ⟨_, rfl, hb⟩
          · intro hb
            rcases hb with ⟨el, hhead, hb⟩
            cases hhead
            exact hb
      | some kind size =>
          apply htaken _ kind (Left.ofPayload kind payload) rfl
            (Element.holds_ofHeader hwf.2.1 hitem)
          unfold Reading.walk Reading.nextAny ExceptT.mk
          simp only [Read.walk, hitem]
          rw [Option.map_eq_bind]
          rfl

omit [Machine] in
theorem Yields.expect {kind kind' : Kind} {child : Reading kind β} {el : Element}
    {left : Left kind'} {P : Left kind -> β -> Prop} (hel : el.Holds kind' left)
    (h : forall l, el.Holds kind l -> Yields child l Tlv.anyLeft (P l)) :
    Yields (Reading.expect kind child kind') left Tlv.anyLeft
      fun b => exists l, el.Holds kind l ∧ P l b := by
  by_cases hkind : kind = kind'
  · subst hkind
    rw [Reading.expect_self]
    apply (h left hel).imp
    intro b
    constructor
    · intro hb
      exact ⟨left, hel, hb⟩
    · intro hb
      rcases hb with ⟨l, hl, hb⟩
      rw [eq_of_heq (Element.holds_unique hel hl).2]
      exact hb
  · rw [Reading.expect_other child hkind]
    apply (Yields.fail Error.unexpectedValue).imp
    intro b
    constructor
    · intro hb
      exact hb.elim
    · intro hb
      rcases hb with ⟨l, hl, _⟩
      exact hkind (Element.holds_unique hl hel).1

theorem Yields.nextVariant {kind : Kind} {child : Reading kind β} {P : Left kind -> β -> Prop}
    (hwf : f.WellFormed) (hknown : f.Known)
    (h : forall el l, f.head = some el -> el.Holds kind l -> Yields child l Tlv.anyLeft (P l)) :
    Yields (Reading.nextVariant kind child) f (fun g => g = f.drop 1)
      fun b => exists el, f.head = some el ∧ exists l, el.Holds kind l ∧ P l b := by
  apply Yields.nextAny hwf hknown
  · intro _ b
    constructor
    · intro hb
      cases hb
    · intro hb
      rcases hb with ⟨l, hl, _⟩
      exact absurd hl Element.not_holds_absent
  · intro el kind' left hhead hel
    exact .expect hel fun l hl => h el l hhead hl

theorem Yields.nextVariantOpt {kind : Kind} {child : Reading kind β} {P : Left kind -> β -> Prop}
    (hwf : f.WellFormed) (hknown : f.Known)
    (h : forall el l, f.head = some el -> el.Holds kind l -> Yields child l Tlv.anyLeft (P l)) :
    Yields (Reading.nextVariantOpt kind child) f (fun g => g = f.drop 1)
      fun b => exists el, f.head = some el ∧ (el = .item .string [] ∧ b = none ∨
        exists l c, el.Holds kind l ∧ P l c ∧ b = some c) := by
  apply Yields.nextAny hwf hknown
  · intro _ b
    constructor
    · intro hb
      injection hb with hb
      exact Or.inl ⟨rfl, hb.symm⟩
    · intro hb
      rcases hb with ⟨_, hb⟩ | ⟨l, c, hl, _⟩
      · rw [hb]
      · exact absurd hl Element.not_holds_absent
  · intro el kind' left hhead hel
    have hmap : forall l, el.Holds kind l -> Yields (some <$> child) l Tlv.anyLeft
        fun b => exists c, P l c ∧ some c = b := fun l hl => (h el l hhead hl).map some
    apply (Yields.expect hel hmap).imp
    intro b
    constructor
    · intro hb
      rcases hb with ⟨l, hl, c, hc, hb⟩
      exact Or.inr ⟨l, c, hl, hc, hb.symm⟩
    · intro hb
      rcases hb with ⟨hempty, _⟩ | ⟨l, c, hl, hc, hb⟩
      · rw [hempty] at hel
        exact absurd hel Element.not_holds_absent
      · exact ⟨l, hl, c, hc, hb.symm⟩

end

/-!
## The elements of a list
-/

def Forest.nodes : Forest -> Nat
  | .nil => 0
  | .item _ _ _ rest => rest.nodes + 1
  | .list _ children rest => children.nodes + rest.nodes + 1

namespace Element

def nodes : Element -> Nat
  | .item _ _ => 0
  | .list children => children.nodes

def Sound [Machine] : Element -> Prop
  | .item _ _ => True
  | .list children => children.WellFormed ∧ children.Known

end Element

namespace Forest

variable {f : Forest} {el : Element}

theorem count_le_nodes (f : Forest) : f.count ≤ f.nodes := by
  induction f with
  | nil => exact Nat.le_refl 0
  | item header ty payload rest ih => exact Nat.succ_le_succ ih
  | list header children rest _ ih =>
      apply Nat.succ_le_succ
      exact Nat.le_trans ih (Nat.le_add_left _ _)

theorem nodes_drop_le (f : Forest) : (f.drop 1).nodes ≤ f.nodes := by
  cases f with
  | nil => exact Nat.le_refl 0
  | item header ty payload rest => exact Nat.le_succ rest.nodes
  | list header children rest =>
      change rest.nodes ≤ children.nodes + rest.nodes + 1
      lia

theorem nodes_head_lt (h : f.head = some el) : el.nodes < f.nodes := by
  cases f with
  | nil => cases h
  | item header ty payload rest =>
      cases h
      exact Nat.succ_pos _
  | list header children rest =>
      cases h
      change children.nodes < children.nodes + rest.nodes + 1
      lia

variable [Machine]

theorem sound_head (hwf : f.WellFormed) (hknown : f.Known) (h : f.head = some el) : el.Sound := by
  cases f with
  | nil => cases h
  | item header ty payload rest =>
      cases h
      trivial
  | list header children rest =>
      cases h
      exact ⟨hwf.2.1, hknown.1⟩

theorem nodes_le_length (h : f.WellFormed) : f.nodes ≤ f.bytes.length := by
  induction f with
  | nil => exact Nat.le_refl 0
  | item header ty payload rest ih =>
      have hpos := List.length_pos_iff.mpr (decodeHeader_ne_nil h.1)
      have hrest := ih h.2.2
      change rest.nodes + 1 ≤ (header ++ payload ++ rest.bytes).length
      rw [List.length_append, List.length_append]
      lia
  | list header children rest ihchildren ih =>
      have hpos := List.length_pos_iff.mpr (decodeHeader_ne_nil h.1)
      have hchildren := ihchildren h.2.1
      have hrest := ih h.2.2
      change children.nodes + rest.nodes + 1 ≤ (header ++ children.bytes ++ rest.bytes).length
      rw [List.length_append, List.length_append]
      lia

end Forest

end Tlv
end Sml
end Smartmeter
