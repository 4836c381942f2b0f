import Smartmeter.Sml.Tlv.Lazy

/-!
# Going on after an error

An element that is not what the caller expects does not stop the reading of its
list: the next element is read from its header.  An element of a reserved type
is the exception when it has a payload.
-/

namespace Smartmeter
namespace Sml
namespace Tlv

open Foundation

/-- The first element can be taken: if its type is reserved, it has no payload. -/
def Forest.FirstUsable : Forest -> Prop
  | .item _ ty payload _ => (exists raw : UInt8, ty = .other raw) -> payload = []
  | _ => True

inductive UsesOnce {kind : Kind} {β : Type} : Reading kind β -> Prop where
  | drop (r : Except Error β) : UsesOnce (ExceptT.mk (.done r))
  | content {γ : Type} (c : Content kind γ) (k : Except Error γ -> Except Error β) :
      UsesOnce (ExceptT.mk (.content c fun r => .done (k r)))

/-- What a program gives on the elements, an error included. -/
abbrev Reading.walk {kind : Kind} {β : Type} (p : Reading kind β) (left : Left kind) :
    Option (Except Error β × Left kind) :=
  Read.walk (α := Except Error β) p left

theorem UsesOnce.walk {kind : Kind} {β : Type} {p : Reading kind β} (h : UsesOnce p)
    (left : Left kind) : exists x, p.walk left = some x := by
  cases h with
  | drop r => exact ⟨_, rfl⟩
  | content c k => exact ⟨_, rfl⟩

theorem walk_nextAny {β : Type} {none : Except Error β} {child : (kind : Kind) -> Reading kind β}
    (hchild : forall kind, UsesOnce (child kind)) {f : Forest} (hfirst : f.FirstUsable) :
    exists res : Except Error β, (Reading.nextAny none child).walk f = some (res, f.drop 1) := by
  cases f with
  | nil => exact ⟨_, rfl⟩
  | list header children rest =>
      rcases (hchild .list).walk children with ⟨x, hx⟩
      refine ⟨x.1, ?_⟩
      change ((child .list).walk children).bind _ = _
      rw [hx]
      rfl
  | item header ty payload rest =>
      unfold Reading.walk Reading.nextAny ExceptT.mk
      simp only [Read.walk]
      cases hitem : Item.ofHeader (ty, payload.length) with
      | error e =>
          rcases Item.ofHeader_error hitem with ⟨raw, hty, _⟩
          refine ⟨.error e, ?_⟩
          dsimp only
          rw [if_pos (hfirst ⟨raw, hty⟩)]
          rfl
      | ok item =>
          cases item with
          | none => exact ⟨none, rfl⟩
          | some kind size =>
              rcases (hchild kind).walk (Left.ofPayload kind payload) with ⟨x, hx⟩
              refine ⟨x.1, ?_⟩
              unfold Reading.walk at hx
              dsimp only
              rw [hx]
              rfl

variable [Machine]

theorem Stands.next_unusable {f : Forest} {outer limit : Nat} {rest bs : List UInt8}
    {self : Handle} (h : Stands f outer rest self bs) (hbs : bs.length ≤ limit)
    (hfuel : limit < rest.length + Machine.fuel) (hfirst : ¬ f.FirstUsable) :
    exists (e : Error) (payload : List UInt8) (self' : Handle), payload ≠ [] ∧
      self'.reader = Reader.new ∧
      List.next.parse self bs =
        some ((.error e, self'), payload ++ ((f.drop 1).bytes ++ rest)) := by
  cases f with
  | nil => exact absurd trivial hfirst
  | list header children g => exact absurd trivial hfirst
  | item header ty payload g =>
      rcases h.next_item hbs hfuel with ⟨hnext, _, _⟩
      have hraw : exists raw : UInt8, ty = .other raw := by
        apply Classical.byContradiction
        intro hno
        exact hfirst fun hraw => absurd hraw hno
      have hpayload : payload ≠ [] := fun hnil => hfirst fun _ => hnil
      rcases hraw with ⟨raw, rfl⟩
      exact ⟨_, payload, _, hpayload, rfl, hnext⟩

/--
In every state that reading a list leads to, taking the next element, with an
error or not, makes the list one element shorter and goes on behind the element
exactly if the element can be taken.
-/
theorem next_recovers_iff {f : Forest} (hwf : f.WellFormed) (hfits : f.Fits 0)
    (hcount : f.count < Usize.size) (hfuel : f.bytes.length < Machine.fuel) (rest : List UInt8)
    {α : Type} {prog : Read .list α} {x : α × Forest} (hwalk : prog.walk f = some x) :
    exists (self : Handle) (bs : List UInt8),
      (prog.run { reader := Reader.new, len := f.count }).parse (f.bytes ++ rest) =
        some ((x.1, self), bs) ∧
      self.len = x.2.count ∧
      Reader.skipNow.parse self.reader bs = some ((.ok (), Reader.new), x.2.bytes ++ rest) ∧
      forall {β : Type} (none : Except Error β) (child : (kind : Kind) -> Reading kind β),
        x.2 ≠ .nil -> (forall kind, UsesOnce (child kind)) ->
        ((exists (res : Except Error β) (self' : Handle) (bs' : List UInt8),
          (Reading.nextAny none child).act.parse self bs = some ((res, self'), bs') ∧
          self'.len + 1 = self.len ∧
          Reader.skipNow.parse self'.reader bs' =
            some ((.ok (), Reader.new), (x.2.drop 1).bytes ++ rest)) <-> x.2.FirstUsable) := by
  have hstart : Stands f 0 rest { reader := Reader.new, len := f.count } (f.bytes ++ rest) :=
    .start rest hwf hfits hcount
  have hlimit : (f.bytes ++ rest).length < rest.length + Machine.fuel := by
    rw [List.length_append]
    lia
  rcases prog.run_walk hstart (Nat.le_refl _) hlimit hwalk with ⟨self, bs, hrun, hat, hle⟩
  change Stands x.2 0 rest self bs at hat
  have hskip : forall {g : Forest} {self : Handle} {bs : List UInt8},
      Stands g 0 rest self bs -> bs.length ≤ (f.bytes ++ rest).length ->
      Reader.skipNow.parse self.reader bs = some ((.ok (), Reader.new), g.bytes ++ rest) := by
    intro g self bs hg hbs
    have hlength : (g.bytes ++ rest).length = g.bytes.length + rest.length := List.length_append
    exact hg.skipNow (by lia)
  refine ⟨self, bs, hrun, hat.len, hskip hat hle, ?_⟩
  intro β none child hne hchild
  constructor
  · rintro ⟨res, self', bs', hparse, _, hskipped⟩
    apply Classical.byContradiction
    intro hfirst
    rcases hat.next_unusable hle hlimit hfirst with ⟨e, payload, self₁, hpayload, hnew, hnext⟩
    rw [Reading.act_nextAny, Act.parse_bind, hnext] at hparse
    cases hparse
    rw [hnew, Reader.skipNow_new] at hskipped
    injection hskipped with hskipped
    injection hskipped with _ hskipped
    exact hpayload (List.append_left_eq_self.mp hskipped)
  · intro hfirst
    rcases walk_nextAny hchild hfirst with ⟨res, hnext⟩
    have hat₀ : At .list x.2 0 rest self bs := hat
    rcases Read.run_walk _ hat₀ hle hlimit hnext with ⟨self', bs', hrun', hat', hle'⟩
    change Stands (x.2.drop 1) 0 rest self' bs' at hat'
    refine ⟨res, self', bs', hrun', ?_, hskip hat' hle'⟩
    rw [hat'.len, hat.len, Forest.count_drop]
    cases hf : x.2 with
    | nil => exact absurd hf hne
    | item header ty payload g => rfl
    | list header children g => rfl

omit [Machine] in
/-- A number that is taken for a string. -/
theorem next_recovers_number :
    letI := Machine.word32 32 (Nat.le_refl 32)
    exists (res : Except Error Unit) (self' : Handle) (bs' : List UInt8),
      (Reading.nextVariant .string (ExceptT.mk (.done (.ok ())))).act.parse
        { reader := Reader.new, len := 1 } [0x62, 0x07, 0x00] = some ((res, self'), bs') ∧
      self'.len + 1 = 1 ∧
      Reader.skipNow.parse self'.reader bs' = some ((.ok (), Reader.new), [0x00]) := by
  let := Machine.word32 32 (Nat.le_refl 32)
  rcases @next_recovers_iff _ (.item [0x62] .unsigned [0x07] .nil) ⟨rfl, by decide, trivial⟩
      trivial (by decide) (by decide) [0x00] Unit (.done ()) _ rfl with
    ⟨self, bs, hrun, _, _, hnext⟩
  cases hrun
  refine (hnext (.error .noneTlv) _ Forest.noConfusion ?_).mpr ?_
  · intro kind
    cases kind with
    | string => exact .drop (.ok ())
    | _ => exact .drop (.error .unexpectedValue)
  · rintro ⟨raw, hraw⟩
    cases hraw

omit [Machine] in
/-- The payload of an element of reserved type is read as the header of the next one. -/
theorem next_recovers_reserved :
    letI := Machine.word32 32 (Nat.le_refl 32)
    (Forest.item [0x12] (.other 1) [0x62] (.item [0x62] .unsigned [0x07] .nil)).WellFormed ∧
      List.nextAny.parse { reader := Reader.new, len := 2 } [0x12, 0x62, 0x62, 0x07] =
        some ((.error (.unsupportedTlvType 1), { reader := Reader.new, len := 1 }),
          [0x62, 0x62, 0x07]) ∧
      Reader.skipNow.parse Reader.new [0x62, 0x62, 0x07] ≠
        some ((.ok (), Reader.new), [0x62, 0x07]) ∧
      List.nextAny.parse { reader := Reader.new, len := 1 } [0x62, 0x62, 0x07] =
        some ((.ok (.some .unsigned 1), { reader := Reader.new, len := 0 }), [0x62, 0x07]) := by
  let := Machine.word32 32 (Nat.le_refl 32)
  refine ⟨⟨rfl, by decide, rfl, by decide, trivial⟩, rfl, ?_, rfl⟩
  rw [Reader.skipNow_new]
  decide

end Tlv
end Sml
end Smartmeter
