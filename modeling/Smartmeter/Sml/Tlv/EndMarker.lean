import Smartmeter.Sml.Tlv.Elements

/-!
# End markers behind skipped elements

`next_end` recognizes the end marker by the error of the header, and
skipping stops with the same error when the last element to be skipped is an end
marker.
-/

namespace Smartmeter
namespace Sml
namespace Tlv

open Foundation

variable [Machine]

omit [Machine] in
theorem skipError_end {m : Nat} {e : Error} (h : skipError m e = .endOfSmlMessage) :
    m = 0 ∧ e = .endOfSmlMessage := by
  cases e with
  | endOfSmlMessage =>
      by_cases hm : m = 0
      · exact ⟨hm, rfl⟩
      · simp only [skipError, if_neg hm] at h
        cases h
  | _ => cases h

structure MarkerBehind (r : Reader) (Skipped : List UInt8 -> Prop) (bs rest : List UInt8) :
    Prop where
  marked : exists junk used marker, bs = junk ++ (used ++ (marker ++ rest)) ∧
    junk.length = r.remainingBytes ∧ Skipped used ∧
    decodeHeader marker = some (.error .endOfSmlMessage, [])

def MarkerSkipped (r : Reader) (bs : List UInt8) : Prop :=
  exists rest, MarkerBehind r (SkipsTo r.remainingTlvs 1) bs rest

/-- The count of the elements to be skipped is lost on the way to an end marker. -/
def CountLost (r : Reader) (bs : List UInt8) : Prop :=
  exists rest, MarkerBehind r
    (fun used => Skips r.remainingTlvs used ∧ Overflows r.remainingTlvs used) bs rest

/--
When `next_end` succeeds, everything pending was skipped, the end marker is
the element behind it, and nothing is pending any more.
-/
def EndsBehind (self : Handle) (bs : List UInt8) : Prop :=
  forall self' rest, List.nextEnd.parse self bs = some ((.ok (), self'), rest) ->
    MarkerBehind self.reader (Elements self.reader.remainingTlvs) bs rest ∧
      self'.reader = Reader.new ∧ self.len = self'.len + 1

theorem readTlv_end {r r' : Reader} {bs rest : List UInt8}
    (h : Reader.readTlv.parse r bs = some ((.error .endOfSmlMessage, r'), rest)) :
    MarkerBehind r (SkipsTo r.remainingTlvs 1) bs rest ∨
      (MarkerBehind r (Skips r.remainingTlvs) bs rest ∧ r' = Reader.new) := by
  unfold Reader.readTlv at h
  rw [Act.parse_bind] at h
  cases hskip : Reader.skipNow.parse r bs with
  | none =>
      rw [hskip] at h
      cases h
  | some x =>
      rcases x with ⟨⟨res, r₁⟩, mid⟩
      rw [hskip] at h
      cases res with
      | error e =>
          injection h with h
          injection h with he hrest
          injection he with he hr'
          injection he with he
          subst he hrest
          rcases Reader.skipNow_error hskip with
            ⟨_, junk, used, tail, m, e', hbs, hjunk, hskips, htail, he⟩
          rcases skipError_end he.symm with ⟨hm, he'⟩
          rw [he'] at htail
          rw [hm] at hskips
          rcases decodeHeader_split htail with ⟨marker, hmarked, hmarker⟩
          exact Or.inl ⟨junk, used, marker, hmarked ▸ hbs, hjunk, hskips, hmarker⟩
      | ok _ =>
          rcases Reader.skipNow_ok hskip with ⟨hr₁, pending, hbs, junk, used, hpending, hjunk,
            hskips⟩
          dsimp only at h
          rw [parse_readTlvInner, hr₁] at h
          cases hdecode : decodeHeader mid with
          | none =>
              rw [hdecode] at h
              cases h
          | some y =>
              rw [hdecode] at h
              injection h with h
              injection h with hres hrest
              injection hres with hres hr'
              rcases decodeHeader_split hdecode with ⟨marker, hmid, hmarker⟩
              rw [hres] at hmarker
              rw [hpending, hmid, hrest, List.append_assoc] at hbs
              exact Or.inr ⟨⟨junk, used, marker, hbs, hjunk, hskips, hmarker⟩, hr'.symm⟩

theorem nextEnd_of_skipped {r : Reader} {bs rest : List UInt8} (len : Nat)
    (hfuel : bs.length < Machine.fuel)
    (h : MarkerBehind r (SkipsTo r.remainingTlvs 1) bs rest) :
    List.nextEnd.parse { reader := r, len := len + 1 } bs =
      some ((.ok (), { reader := { r with remainingBytes := 0 }, len := len }), rest) := by
  rcases h with ⟨junk, used, marker, hbs, hjunk, hskips, hmarker⟩
  have htail := decodeHeader_append hmarker rest
  rw [hbs, List.length_append, List.length_append] at hfuel
  have hread : Reader.readTlv.parse r bs =
      some ((.error .endOfSmlMessage, { r with remainingBytes := 0 }), rest) := by
    unfold Reader.readTlv
    rw [Act.parse_bind, hbs, Reader.skipNow_of_error hjunk hskips htail (by lia)]
    rfl
  unfold List.nextEnd
  rw [Act.parse_bind, Reader.parse_attempt, List.parse_next_succ, hread]
  rfl

/--
`next_end` is right about the end marker exactly when the list is used up,
or no end marker is the last element to be skipped and the count is not lost.
-/
theorem nextEnd_endsBehind_iff {self : Handle} {bs : List UInt8}
    (hfuel : bs.length < Machine.fuel) :
    EndsBehind self bs <->
      self.len = 0 ∨ (¬ MarkerSkipped self.reader bs ∧ ¬ CountLost self.reader bs) := by
  rcases self with ⟨r, len⟩
  constructor
  · intro hends
    cases len with
    | zero => exact Or.inl rfl
    | succ len =>
        right
        constructor
        · rintro ⟨rest, hmarked⟩
          rcases hends _ rest (nextEnd_of_skipped len hfuel hmarked) with ⟨_, hnew, _⟩
          have hzero : r.remainingTlvs = 0 := congrArg Reader.remainingTlvs hnew
          rcases hmarked with ⟨_, _, _, _, _, hskips, _⟩
          rw [hzero] at hskips
          exact absurd hskips.zero_left.1 Nat.one_ne_zero
        · rintro ⟨rest, junk, used, marker, hbs, hjunk, ⟨hskips, hoverflows⟩, hmarker⟩
          have hlength := congrArg List.length hbs
          rw [List.length_append, List.length_append] at hlength
          have hnext := List.nextEnd_of_marker len rest ⟨junk, used, rfl, hjunk, hskips⟩
            (by rw [List.length_append]; lia) hmarker
          rw [List.append_assoc, ← hbs] at hnext
          rcases hends _ rest hnext with
            ⟨⟨junk', used', marker', hbs', hjunk', helements, hmarker'⟩, _, _⟩
          have hlen : junk.length = junk'.length := by rw [hjunk, hjunk']
          have htail := (List.append_inj (hbs.symm.trans hbs') hlen).2
          have hstop : forall x after, decodeHeader (marker ++ rest) ≠ some (.ok x, after) := by
            intro x after hx
            rw [decodeHeader_append hmarker] at hx
            cases hx
          exact (hskips.elements_unique hstop helements (Nat.le_refl _) htail).2 hoverflows
  · intro hcond self' rest hnext
    rcases List.nextEnd_readTlv hnext with ⟨hlen, hread⟩
    rcases hcond with hzero | ⟨hskipped, hlost⟩
    · exact absurd (hlen.symm.trans hzero) (Nat.succ_ne_zero _)
    · rcases readTlv_end hread with hmarked | ⟨hmarked, hnew⟩
      · exact absurd ⟨rest, hmarked⟩ hskipped
      · refine ⟨?_, hnew, hlen⟩
        rcases hmarked with ⟨junk, used, marker, hbs, hjunk, hskips, hmarker⟩
        refine ⟨junk, used, marker, hbs, hjunk, ?_, hmarker⟩
        apply hskips.elements
        intro hoverflows
        exact hlost ⟨rest, junk, used, marker, hbs, hjunk, ⟨hskips, hoverflows⟩, hmarker⟩

/-- One item that is pending is neither a marker nor a list. -/
theorem not_skipped_item {r : Reader} {junk header payload tail : List UInt8} {ty : TlvType}
    {len : Nat} (hjunk : junk.length = r.remainingBytes) (hone : r.remainingTlvs = 1)
    (hheader : decodeHeader header = some (.ok (ty, len), [])) (hty : ty ≠ .list) :
    ¬ MarkerSkipped r (junk ++ (header ++ (payload ++ tail))) ∧
      ¬ CountLost r (junk ++ (header ++ (payload ++ tail))) := by
  have hnolist : forall {header' rest' : List UInt8} {len' : Nat},
      header ++ (payload ++ tail) = header' ++ rest' ->
        decodeHeader header' ≠ some (.ok (.list, len'), []) := by
    intro header' rest' len' heq hlist
    have hx := (decodeHeader_unique hheader hlist heq).2.1
    cases hx
    exact hty rfl
  constructor
  · rintro ⟨rest, junk', used, marker, hbs, hjunk', hskips, hmarker⟩
    have heq := (List.append_inj hbs (hjunk.trans hjunk'.symm)).2
    rw [hone] at hskips
    cases hskips with
    | refl => cases (decodeHeader_unique hheader hmarker heq).2.1
    | item _ _ _ hrest => exact absurd hrest.zero_left.1 Nat.one_ne_zero
    | list hlist _ =>
        rw [List.append_assoc] at heq
        exact hnolist heq hlist
  · rintro ⟨rest, junk', used, marker, hbs, hjunk', ⟨_, hoverflows⟩, _⟩
    have heq := (List.append_inj hbs (hjunk.trans hjunk'.symm)).2
    rw [hone] at hoverflows
    cases hoverflows with
    | here hlist _ =>
        rw [List.append_assoc] at heq
        exact hnolist heq hlist
    | item _ _ _ hrest => cases hrest
    | list hlist _ =>
        rw [List.append_assoc] at heq
        exact hnolist heq hlist

omit [Machine] in
/-- A byte and a number of one byte are pending in front of the marker. -/
theorem nextEnd_endsBehind_marker :
    letI := Machine.word32 32 (Nat.le_refl 32)
    letI self : Handle := { reader := { remainingBytes := 1, remainingTlvs := 1 }, len := 1 }
    List.nextEnd.parse self [0xAA, 0x52, 0x07, 0x00, 0x72] =
        some ((.ok (), { reader := Reader.new, len := 0 }), [0x72]) ∧
      EndsBehind self [0xAA, 0x52, 0x07, 0x00, 0x72] := by
  let := Machine.word32 32 (Nat.le_refl 32)
  let self : Handle := { reader := { remainingBytes := 1, remainingTlvs := 1 }, len := 1 }
  constructor
  · rfl
  · apply (@nextEnd_endsBehind_iff _ self [0xAA, 0x52, 0x07, 0x00, 0x72] (by decide)).mpr
    right
    exact @not_skipped_item _ self.reader [0xAA] [0x52] [0x07] [0x00, 0x72] .integer 1 rfl rfl
      (decodeHeader_single (by decide)) (by decide)

omit [Machine] in
/-- The end marker stands where one more element was to be skipped. -/
theorem nextEnd_skipped_marker :
    letI := Machine.word32 32 (Nat.le_refl 32)
    let self : Handle := { reader := { remainingBytes := 0, remainingTlvs := 1 }, len := 1 }
    (List.skip 1).parse { reader := Reader.new, len := 2 } [0x00] =
        some ((.ok (), self), [0x00]) ∧
      List.nextEnd.parse self [0x00] =
        some ((.ok (), { reader := self.reader, len := 0 }), []) ∧
      ¬ EndsBehind self [0x00] := by
  intro self
  refine ⟨rfl, rfl, ?_⟩
  intro hends
  have hnew := (hends _ _ rfl).2.1
  cases hnew

end Tlv
end Sml
end Smartmeter
