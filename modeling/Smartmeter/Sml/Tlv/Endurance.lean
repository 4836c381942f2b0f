import Smartmeter.Foundation.Budget
import Smartmeter.Sml.Tlv.Reading
import Smartmeter.Sml.Tlv.Lazy

/-!
# Reading ends

Every loop of the TLV reader reads in every iteration, so no method of it runs
forever on finitely many bytes, however large the counters are.
-/

namespace Smartmeter
namespace Sml
namespace Tlv

open Foundation

variable {σ : Type} {limit : Nat}

abbrev Endures {α : Type} (limit : Nat) (p : Act Ops Error σ α) : Prop :=
  Act.Endures limit p

theorem spends_readU8 : Act.Spends limit (readU8 : Act Ops Error σ UInt8) := by
  intro s n _
  constructor
  · intro e a ha
    cases ha
  · intro b m hm a _
    exact Nat.lt_of_succ_le (Nat.le_of_eq hm)

theorem spends_readExact {buf : Nat} (h : 0 < buf) :
    Act.Spends limit (readExact buf : Act Ops Error σ (List UInt8)) := by
  intro s n _
  constructor
  · intro e a ha
    cases ha
  · intro bs m hm a _
    lia

theorem endures_readExact (buf : Nat) :
    Endures limit (readExact buf : Act Ops Error σ (List UInt8)) :=
  fun _ _ _ => ⟨fun _ => trivial, fun _ _ _ => trivial⟩

variable [Machine]

namespace Reader

theorem spendsOn_headerLoop (x : TlvHeader × Nat × Nat) :
    Act.SpendsOn limit (headerLoop x) := by
  rcases x with ⟨header, len, headerLen⟩
  unfold headerLoop
  dsimp only
  by_cases hmore : header.hasMore = true
  · rw [if_pos hmore]
    refine Act.Spends.on (.bind spends_readU8 ?_)
    intro byte
    split
    · exact .fail _
    · cases Usize.checkedShl len 4 with
      | none => exact .fail _
      | some len' =>
          dsimp only
          cases Usize.checkedAdd len' (TlvHeader.mk byte).len with
          | none => exact .fail _
          | some len'' => exact .pure _
  · rw [if_neg hmore]
    exact .done _

theorem spends_readTlvInner : Act.Spends Machine.fuel readTlvInner := by
  refine .bind spends_readU8 ?_
  intro byte
  exact .bind (.iterate spendsOn_headerLoop _) fun _ => .ofExcept _

theorem endures_skipBytes (num : Nat) : Endures Machine.fuel (skipBytes num) := by
  refine .iterate ?_ num
  intro num
  unfold skipBytesLoop
  by_cases hpos : num > 0
  · rw [if_pos hpos]
    exact Act.Spends.on (.bind (spends_readExact (by lia)) fun _ => .pure _)
  · rw [if_neg hpos]
    exact .done _

theorem endures_skipTlvs (num : Nat) : Endures Machine.fuel (skipTlvs num) := by
  refine .iterate ?_ num
  intro num
  unfold skipTlvsLoop
  by_cases hpos : num > 0
  · rw [if_pos hpos]
    intro s n hn
    -- only a header that was read lets the loop go on
    rw [Act.bind_apply, Act.attempt_apply]
    refine ((spends_readTlvInner s n hn).bind
      (R := fun x m => m ≤ n ∧ forall y, x.1 = .ok (.ok y) -> m < n) ?_).bind ?_
    · rintro ⟨r, s'⟩ m hm hspent
      refine ⟨hm, ?_⟩
      intro y hy
      injection hy with hy
      exact hspent y hy
    · rintro ⟨r, s'⟩ m _ ⟨hm, hspent⟩
      cases r with
      | error e =>
          intro i hi
          cases hi
      | ok r =>
          cases r with
          | error e =>
              cases e with
              | endOfSmlMessage =>
                  dsimp only
                  split <;> exact fun i hi => by cases hi
              | _ => exact fun i hi => by cases hi
          | ok x =>
              rcases x with ⟨ty, len⟩
              have hless := hspent _ rfl
              cases ty with
              | list => exact fun _ _ => hless
              | _ =>
                  refine (Act.Endures.bind (endures_skipBytes len)
                    (fun _ => Act.Endures.pure (Sum.inl (num - 1))) s' m (by lia)).mono ?_
                  exact fun _ m' hm' _ _ _ => by lia
  · rw [if_neg hpos]
    exact .done _

theorem endures_skipNow : Endures Machine.fuel skipNow := by
  refine .bind (.gets _) ?_
  intro remainingBytes
  have htlvs : Endures Machine.fuel (do
      let remainingTlvs ← Act.gets Reader.remainingTlvs
      if remainingTlvs > 0 then
        skipTlvs remainingTlvs
        Act.modify fun r => { r with remainingTlvs := 0 }) := by
    refine .bind (.gets _) ?_
    intro remainingTlvs
    split
    · exact .bind (endures_skipTlvs _) fun _ => .modify _
    · exact .pure _
  dsimp only
  split
  · exact .bind (endures_skipBytes _) fun _ => .bind (.modify _) fun _ => htlvs
  · exact htlvs

theorem spends_readTlv : Act.Spends Machine.fuel readTlv :=
  .bind_right endures_skipNow fun _ => spends_readTlvInner

theorem spends_readList : Act.Spends Machine.fuel readList := by
  refine .bind spends_readTlv ?_
  rintro ⟨ty, len⟩
  cases ty with
  | list => exact .pure _
  | _ => exact .fail _

end Reader

namespace Handle

omit [Machine] in
theorem endures_withReader {α : Type} {body : Act Ops Error Reader α}
    (h : Endures limit body) : Endures limit (withReader body) :=
  .borrow h

end Handle

namespace List

/-- Only a header that was read gives an item. -/
theorem lasts_next (self : Handle) {n : Nat} (hn : n < Machine.fuel) :
    (next self).Lasts (fun x m => forall item, x.1 = .ok (some item) -> m < n) n := by
  unfold next
  by_cases hlen : self.len = 0
  · change ((if self.len = 0 then _ else _ : Act Ops Error Handle (Option Item)) self).Lasts _ n
    rw [if_pos hlen]
    intro item hitem
    cases hitem
  · change ((if self.len = 0 then _ else _ : Act Ops Error Handle (Option Item)) self).Lasts _ n
    rw [if_neg hlen]
    refine (Act.Spends.bind (.borrow Reader.spends_readTlv) ?_ self n hn).mono ?_
    · rintro ⟨ty, len⟩
      refine .bind (.modify _) ?_
      intro _
      cases ty with
      | string =>
          dsimp only
          split
          · exact .pure _
          · exact .pure _
      | other ty => exact .fail _
      | _ => exact .pure _
    · intro x m _ hspent item hitem
      exact hspent (some item) hitem

theorem endures_next : Endures Machine.fuel next :=
  fun self _ hn => (lasts_next self hn).mono fun _ _ _ _ => trivial

theorem endures_dropItem (item : Option Item) : Endures Machine.fuel (dropItem item) := by
  cases item with
  | none => exact .pure _
  | some item =>
      cases item with
      | none => exact .pure _
      | some kind len => exact Handle.endures_withReader (.borrow (.pure _))

theorem endures_nextAny : Endures Machine.fuel nextAny := by
  refine .bind endures_next ?_
  intro item
  cases item with
  | none => exact .fail _
  | some item => exact .pure _

theorem endures_nextVariant (kind : Kind) : Endures Machine.fuel (nextVariant kind) := by
  refine .bind endures_nextAny ?_
  intro item
  cases item with
  | none => exact .fail _
  | some kind' len =>
      dsimp only
      split
      · exact .pure _
      · exact .bind (endures_dropItem _) fun _ => .fail _

theorem endures_nextEnd : Endures Machine.fuel nextEnd := by
  refine .bind (.attempt endures_next) ?_
  intro r
  cases r with
  | error e =>
      cases e with
      | endOfSmlMessage => exact .modify _
      | _ => exact .fail _
  | ok item => exact .bind (endures_dropItem item) fun _ => .fail _

theorem endures_skip (num : Nat) : Endures Machine.fuel (skip num) := by
  refine .bind (.gets _) ?_
  intro len
  split
  · exact .fail _
  · exact .bind (.modify _) fun _ => .modify _

end List

omit [Machine] in
theorem endures_intoBytes (minsz maxsz : Nat) : Endures limit (intoBytes minsz maxsz) := by
  refine .bind (.gets _) ?_
  intro len
  split
  · exact .bind (endures_readExact _) fun _ => .bind (.modify _) fun _ => .pure _
  · exact .fail _

omit [Machine] in
theorem Content.endures {kind : Kind} {β : Type} (c : Content kind β) :
    Endures limit c.act := by
  cases c with
  | read buf =>
      refine .bind (.gets _) ?_
      intro len
      split
      · exact .fail _
      · exact .bind (endures_readExact _) fun _ => .bind (.modify _) fun _ => .pure _
  | intoBool =>
      refine .bind (.gets _) ?_
      intro len
      split
      · exact .fail _
      · exact .bind spends_readU8.endures fun _ => .bind (.modify _) fun _ => .pure _
  | intoInteger minsz maxsz => exact .bind (endures_intoBytes _ _) fun _ => .pure _
  | intoUnsigned minsz maxsz => exact .bind (endures_intoBytes _ _) fun _ => .pure _

theorem Read.Total.lasts {kind : Kind} {α : Type} {prog : Read kind α} (h : prog.Total)
    (self : Handle) {n : Nat} (hn : n < Machine.fuel) :
    (prog.run self).Lasts (fun _ _ => True) n := by
  induction prog generalizing self n with
  | done a => trivial
  | stuck => exact absurd h id
  | len k ih => exact ih _ (h _) self hn
  | content c k ih =>
      refine (c.endures self n hn).bind ?_
      intro x m hm _
      exact ih _ (h _) _ (by lia)
  | skip num k ih =>
      refine (List.endures_skip num self n hn).bind ?_
      intro x m hm _
      exact ih _ (h _) _ (by lia)
  | nextEnd k ih =>
      refine (List.endures_nextEnd self n hn).bind ?_
      intro x m hm _
      exact ih _ (h _) _ (by lia)
  | next child k ihchild ih =>
      rw [Read.run_next]
      refine (List.endures_next self n hn).bind ?_
      rintro ⟨r, self'⟩ m hm _
      cases r with
      | error e => exact ih _ (h.2 _) _ (by lia)
      | ok item =>
          cases item with
          | none => exact ih _ (h.2 _) _ (by lia)
          | some item =>
              cases item with
              | none => exact ih _ (h.2 _) _ (by lia)
              | some kind size =>
                  refine (ihchild kind (h.1 kind) _ (n := m) (by lia)).bind ?_
                  intro x m' hm' _
                  exact ih _ (h.2 _) _ (by lia)

namespace Reading

variable {kind : Kind} {α β : Type}

theorem endures_expect {child : Reading kind β} (hchild : Endures Machine.fuel child.act)
    (kind' : Kind) : Endures Machine.fuel (expect kind child kind').act := by
  unfold expect
  split
  · next h =>
      subst h
      exact hchild
  · exact .fail _

theorem spends_nextVariant {child : Reading kind β} (hchild : Endures Machine.fuel child.act) :
    Act.Spends Machine.fuel (nextVariant kind child).act := by
  intro self n hn
  unfold nextVariant
  rw [act_nextAny, Act.bind_apply]
  refine (List.lasts_next self hn).bind ?_
  rintro ⟨r, self'⟩ m hm hspent
  cases r with
  | error e =>
      intro a ha
      cases ha
  | ok item =>
      cases item with
      | none =>
          intro a ha
          cases ha
      | some item =>
          have hless := hspent item rfl
          cases item with
          | none =>
              intro a ha
              cases ha
          | some kind' len =>
              have hexpect := endures_expect hchild kind'
              refine (Handle.endures_withReader (.borrow hexpect) self' m (by lia)).mono ?_
              exact fun _ m' hm' _ _ _ => by lia

theorem endures_nextVariant {child : Reading kind β} (hchild : Endures Machine.fuel child.act) :
    Endures Machine.fuel (nextVariant kind child).act := by
  exact (spends_nextVariant hchild).endures

theorem endures_content (c : Content kind β) : Endures limit (content c).act := by
  rw [act_content]
  exact c.endures

theorem endures_nextEnd : Endures Machine.fuel nextEnd.act := by
  rw [act_nextEnd]
  exact List.endures_nextEnd

end Reading

end Tlv
end Sml
end Smartmeter
