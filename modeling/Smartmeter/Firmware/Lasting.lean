import Smartmeter.Firmware.MessageCallback
import Smartmeter.Sml.Blocked
import Smartmeter.Sml.Tlv.TakesOne

/-!
# The callback of the firmware ends

The loop over the entries of a value list reads in every iteration, so the
callback comes to an end on finitely many bytes.
-/

namespace Smartmeter
namespace Firmware

open Foundation
open Sml
open Sml.Tlv (Endures Handle Kind Read Reading)
open Sml.Tlv.Reading (Total total_content total_expect total_field total_len total_nextAny)
open Sml.Types

/-!
## Entries
-/

theorem total_fromTlvItem (kind : Kind) : (Types.Value.fromTlvItem kind).Total := by
  have hnumber : forall {kind : Kind} {α : Type} (c : Tlv.Content kind α)
      (f : α -> ValueEnum), (f <$> Reading.content c).Total :=
    fun c f => (total_content c).map f
  have hrelaxed : forall {kind : Kind} {α : Type} {p : Nat -> Reading kind α}
      (f : α -> ValueEnum), (forall n, (p n).Total) -> (f <$> (Reading.len >>= p)).Total :=
    fun f hp => (total_len.bind hp).map f
  cases kind with
  | string => trivial
  | list => trivial
  | boolean => exact hnumber _ _
  | integer | unsigned =>
      refine total_len.bind ?_
      intro len
      split
      · exact hnumber _ _
      · exact hnumber _ _
      all_goals first
        | trivial
        | refine hrelaxed _ ?_
          intro n
          split
          all_goals first
            | exact total_content _
            | trivial

theorem Entry.total_decode : Entry.decode.Total := by
  have hname : (ListEntry.objName do
      let len ← Reading.len
      if len > 7 then pure none
      else some <$> Reading.read len).Total := by
    refine total_field (total_nextAny _ (total_expect (total_len.bind ?_)))
    intro len
    split
    · trivial
    · exact (total_content _).map _
  have hscaler : ListEntry.scaler.Total :=
    total_field (total_nextAny _ (total_expect ((total_content _).map _)))
  have hvalue : Types.Value.read.Total := total_field (total_nextAny _ total_fromTlvItem)
  refine hname.bind ?_
  intro objName
  cases objName with
  | none => trivial
  | some objName =>
      refine hscaler.bind ?_
      intro scaler
      refine hvalue.bind ?_
      intro value
      trivial

namespace MessageCallback

variable [Machine]

theorem lasts_next (item : Handle) {m : Nat} (hm : m < Machine.fuel) :
    ((SmlList.next Entry.decode).act item).Lasts
      (fun x m' => forall entry, x.1 = .ok (some entry) -> m' < m) m := by
  unfold SmlList.next
  rw [Reading.act_len_bind]
  by_cases hlen : item.len = 0
  · rw [if_pos hlen]
    intro entry hentry
    cases hentry
  · rw [if_neg hlen, Reading.act_bind]
    have hdecode : Endures Machine.fuel Entry.decode.act :=
      fun self _ hn => Read.Total.lasts Entry.total_decode self hn
    have hvariant : Act.Spends Machine.fuel (Reading.nextVariant .list Entry.decode).act :=
      Reading.spends_nextVariant hdecode
    have hspends := hvariant.bind fun entry => Act.Endures.pure (some entry)
    refine (hspends item m hm).mono ?_
    intro x m' _ hless entry hentry
    exact hless (some entry) hentry

theorem lasts_entries {n m : Nat} (hn : m < n) (hm : m < Machine.fuel) (self : MessageCallback)
    (item : Handle) : ((entries n self).run item).Lasts (fun _ _ => True) m := by
  induction n generalizing m self item with
  | zero => exact absurd hn (Nat.not_lt_zero _)
  | succ n ih =>
      unfold entries
      rw [Read.run_bind]
      refine (lasts_next item hm).bind ?_
      rintro ⟨r, item'⟩ m' hle hless
      cases r with
      | error e => trivial
      | ok entry =>
          cases entry with
          | none => trivial
          | some entry =>
              have hlt := hless entry rfl
              cases entry with
              | none => exact ih (by lia) (by lia) self item'
              | some entry =>
                  dsimp only
                  cases self.store entry with
                  | error e => trivial
                  | ok self' => exact ih (by lia) (by lia) self' item'

theorem endures_field {β : Type} (numSkip : Nat) {p : Reading .list β}
    (hp : Endures Machine.fuel p.act) : Endures Machine.fuel (Types.field numSkip p).act := by
  unfold Types.field
  split
  · rw [Reading.act_bind]
    refine .bind ?_ fun _ => hp
    exact fun self _ hn => Read.Total.lasts (Reading.total_skip numSkip) self hn
  · exact hp

omit [Machine] in
theorem total_tag : Reading.intoU32Relaxed.Total := by
  refine total_len.bind ?_
  intro n
  split
  all_goals first
    | exact total_content _
    | trivial

theorem endures_read {β : Type} {child : MessageBodyEnum -> Reading .list β}
    (h : forall variant, Endures Machine.fuel (child variant).act) :
    Endures Machine.fuel (MessageBody.read child).act := by
  unfold MessageBody.read
  rw [Reading.act_bind]
  refine .bind (Reading.endures_nextVariant fun self _ hn => Read.Total.lasts total_tag self hn) ?_
  intro tag
  cases MessageBodyEnum.ofTag tag with
  | none => exact .fail _
  | some variant => exact Reading.endures_nextVariant (h variant)

theorem lasting : callback.Lasting := by
  intro self item m hm
  have hentries : Endures Machine.fuel
      (Reading.act (ExceptT.lift (entries Machine.fuel self))) := by
    intro item n hn
    change ((entries Machine.fuel self >>= fun b => Read.done (Except.ok b) :
      Read .list (Except Error (Except Error Unit × MessageCallback))).run item).Lasts _ n
    rw [Read.run_bind]
    exact (lasts_entries hn hn self item).bind fun _ _ _ _ => trivial
  change ((messageReceived self).run item).Lasts _ m
  unfold messageReceived
  rw [Read.run_bind]
  refine (endures_read ?_ item m hm).bind ?_
  · intro variant
    cases variant with
    | getListResponse => exact endures_field 4 (Reading.endures_nextVariant hentries)
    | _ => exact .pure _
  · rintro ⟨r, item'⟩ _ _ _
    cases r <;> trivial

end MessageCallback

end Firmware
end Smartmeter
