import Smartmeter.Sml.Tlv.Header

/-!
# Skipping

What the methods that skip consume: a number of bytes, a number of items as the
counter sees them, or what the two counters of the reader stand for.
-/

namespace Smartmeter
namespace Sml
namespace Tlv

open Foundation

variable [Machine]

/-!
## Headers in front of other bytes
-/

theorem decodeHeader_append {header : List UInt8} {x : Except Error (TlvType × Nat)}
    (h : decodeHeader header = some (x, [])) (rest : List UInt8) :
    decodeHeader (header ++ rest) = some (x, rest) := by
  have hparse : Reader.readTlvInner.parse Reader.new header = some ((x, Reader.new), []) := by
    rw [parse_readTlvInner, h]
    rfl
  have happend := Act.parse_append hparse rest
  rw [parse_readTlvInner, List.nil_append] at happend
  cases hdecode : decodeHeader (header ++ rest) with
  | none =>
      rw [hdecode] at happend
      cases happend
  | some y =>
      rw [hdecode] at happend
      injection happend with heq
      injection heq with hleft hright
      injection hleft with hleft
      rw [← hleft, ← hright]

theorem decodeHeader_split {bs rest : List UInt8} {x : Except Error (TlvType × Nat)}
    (h : decodeHeader bs = some (x, rest)) :
    exists header, bs = header ++ rest ∧ decodeHeader header = some (x, []) := by
  have hparse : Reader.readTlvInner.parse Reader.new bs = some ((x, Reader.new), rest) := by
    rw [parse_readTlvInner, h]
    rfl
  rcases Act.parse_prefix hparse with ⟨header, hbs, hheader⟩
  refine ⟨header, hbs, ?_⟩
  rw [parse_readTlvInner] at hheader
  cases hdecode : decodeHeader header with
  | none =>
      rw [hdecode] at hheader
      cases hheader
  | some y =>
      rw [hdecode] at hheader
      injection hheader with heq
      injection heq with hleft hright
      injection hleft with hleft
      rw [← hleft, ← hright]

theorem decodeHeader_ne_nil {header : List UInt8} {x : Except Error (TlvType × Nat)}
    {rest : List UInt8} (h : decodeHeader header = some (x, rest)) : header ≠ [] := by
  intro hnil
  rw [hnil] at h
  cases h

/-!
## Bytes
-/

namespace Reader

omit [Machine] in
theorem skipBytesLoop_zero (r : Reader) (bs : List UInt8) :
    (skipBytesLoop 0).parse r bs = some ((.ok (.inr ()), r), bs) := rfl

omit [Machine] in
theorem skipBytesLoop_pos {num : Nat} (hnum : num > 0) (r : Reader) (bs : List UInt8) :
    (skipBytesLoop num).parse r bs =
      if min num 4 ≤ bs.length then
        some ((.ok (.inl (num - min num 4)), r), bs.drop (min num 4))
      else none := by
  unfold skipBytesLoop
  rw [if_pos hnum, Act.parse_bind, parse_readExact]
  by_cases hle : min num 4 ≤ bs.length
  · rw [if_pos hle, if_pos hle]
    rfl
  · rw [if_neg hle, if_neg hle]

omit [Machine] in
theorem iterate_skipBytesLoop_ok {n num : Nat} {r : Reader} {bs rest : List UInt8}
    {x : Except Error Unit × Reader}
    (h : (Act.iterate n skipBytesLoop num).parse r bs = some (x, rest)) :
    x = (.ok (), r) ∧ num ≤ bs.length ∧ rest = bs.drop num := by
  induction n generalizing num bs with
  | zero => cases h
  | succ n ih =>
      rw [Act.iterate_succ, Act.parse_bind] at h
      rcases Nat.eq_zero_or_pos num with hzero | hpos
      · rw [hzero, skipBytesLoop_zero] at h
        injection h with h
        injection h with hx hrest
        rw [hzero]
        exact ⟨hx.symm, Nat.zero_le _, hrest.symm⟩
      · rw [skipBytesLoop_pos hpos] at h
        by_cases hle : min num 4 ≤ bs.length
        · rw [if_pos hle] at h
          rcases ih h with ⟨hx, hlen, hrest⟩
          rw [List.length_drop] at hlen
          have hsum : min num 4 + (num - min num 4) = num :=
            Nat.add_sub_cancel' (Nat.min_le_left num 4)
          refine ⟨hx, by lia, ?_⟩
          rw [hrest, List.drop_drop, hsum]
        · rw [if_neg hle] at h
          cases h

omit [Machine] in
theorem iterate_skipBytesLoop_of_le {n num : Nat} (r : Reader) {bs : List UInt8}
    (hle : num ≤ bs.length) (hn : num < n) :
    (Act.iterate n skipBytesLoop num).parse r bs = some ((.ok (), r), bs.drop num) := by
  induction n generalizing num bs with
  | zero => exact absurd hn (Nat.not_lt_zero _)
  | succ n ih =>
      rw [Act.iterate_succ, Act.parse_bind]
      rcases Nat.eq_zero_or_pos num with hzero | hpos
      · rw [hzero, skipBytesLoop_zero]
        rfl
      · have hmin : min num 4 ≤ bs.length := Nat.le_trans (Nat.min_le_left _ _) hle
        have hlen : num - min num 4 ≤ (bs.drop (min num 4)).length := by
          rw [List.length_drop]
          lia
        rw [skipBytesLoop_pos hpos, if_pos hmin]
        change (Act.iterate n skipBytesLoop (num - min num 4)).parse r _ = _
        have hsum : min num 4 + (num - min num 4) = num :=
          Nat.add_sub_cancel' (Nat.min_le_left num 4)
        rw [ih hlen (by lia), List.drop_drop, hsum]

theorem skipBytes_ok {num : Nat} {r : Reader} {bs rest : List UInt8}
    {x : Except Error Unit × Reader}
    (h : (skipBytes num).parse r bs = some (x, rest)) :
    x = (.ok (), r) ∧ num ≤ bs.length ∧ rest = bs.drop num :=
  iterate_skipBytesLoop_ok h

theorem skipBytes_append {num : Nat} (r : Reader) {junk : List UInt8} (rest : List UInt8)
    (hlen : junk.length = num) (hfuel : num < Machine.fuel) :
    (skipBytes num).parse r (junk ++ rest) = some ((.ok (), r), rest) := by
  have hle : num ≤ (junk ++ rest).length := by
    rw [List.length_append]
    lia
  have hparse := iterate_skipBytesLoop_of_le r hle hfuel
  rw [← hlen, List.drop_left, hlen] at hparse
  exact hparse

end Reader

/-!
## Items
-/

/-- The byte strings that skipping `num` items consumes; the counter may wrap. -/
inductive Skips : Nat -> List UInt8 -> Prop where
  | nil : Skips 0 []
  | item {num len : Nat} {ty : TlvType} {header payload rest : List UInt8}
      (hheader : decodeHeader header = some (.ok (ty, len), [])) (hty : ty ≠ .list)
      (hpayload : payload.length = len) (hrest : Skips num rest) :
      Skips (num + 1) (header ++ payload ++ rest)
  | list {num len : Nat} {header rest : List UInt8}
      (hheader : decodeHeader header = some (.ok (.list, len), []))
      (hrest : Skips (Usize.wrappingAdd num len) rest) :
      Skips (num + 1) (header ++ rest)

theorem Skips.zero_iff {bs : List UInt8} : Skips 0 bs <-> bs = [] := by
  constructor
  · intro h
    cases h
    rfl
  · intro h
    rw [h]
    exact .nil

namespace Reader

theorem skipTlvsLoop_zero (r : Reader) (bs : List UInt8) :
    (skipTlvsLoop 0).parse r bs = some ((.ok (.inr ()), r), bs) := rfl

omit [Machine] in
theorem parse_attempt {σ α : Type} (p : Act Ops Error σ α) (s : σ) (bs : List UInt8) :
    (Act.attempt p).parse s bs =
      (p.parse s bs).map fun x => ((.ok x.1.1, x.1.2), x.2) := by
  unfold Act.parse
  rw [Act.attempt_apply, Prog.parse_bind]
  cases (p s).parse bs with
  | none => rfl
  | some x => rfl

theorem skipTlvsLoop_succ (num : Nat) (r : Reader) (bs : List UInt8) :
    (skipTlvsLoop (num + 1)).parse r bs =
      match decodeHeader bs with
      | none => none
      | some (.error .endOfSmlMessage, rest) =>
          some ((.error (if num = 0 then .endOfSmlMessage else .midMessageEndMarker num), r),
            rest)
      | some (.error e, rest) => some ((.error e, r), rest)
      | some (.ok (ty, len), rest) =>
          if ty = .list then some ((.ok (.inl (Usize.wrappingAdd num len)), r), rest)
          else (skipBytes len >>= fun _ => pure (.inl num)).parse r rest := by
  unfold skipTlvsLoop
  rw [if_pos (Nat.succ_pos num), Act.parse_bind, parse_attempt, parse_readTlvInner,
    Nat.add_sub_cancel]
  cases decodeHeader bs with
  | none => rfl
  | some x =>
      rcases x with ⟨res, rest⟩
      cases res with
      | error e =>
          cases e with
          | endOfSmlMessage =>
              by_cases hzero : num = 0
              · simp only [Option.map_some, if_pos hzero, Act.parse_fail]
              · simp only [Option.map_some, if_neg hzero, Act.parse_fail]
          | _ => rfl
      | ok y =>
          rcases y with ⟨ty, len⟩
          cases ty <;> rfl

theorem iterate_skipTlvsLoop_ok {n num : Nat} {r r' : Reader} {bs rest : List UInt8}
    (h : (Act.iterate n skipTlvsLoop num).parse r bs = some ((.ok (), r'), rest)) :
    r' = r ∧ exists used, bs = used ++ rest ∧ Skips num used := by
  induction n generalizing num bs r with
  | zero => cases h
  | succ n ih =>
      rw [Act.iterate_succ, Act.parse_bind] at h
      cases num with
      | zero =>
          rw [skipTlvsLoop_zero] at h
          injection h with h
          injection h with hr hrest
          injection hr with _ hr
          exact ⟨hr.symm, [], hrest, .nil⟩
      | succ num =>
          rw [skipTlvsLoop_succ] at h
          cases hdecode : decodeHeader bs with
          | none =>
              rw [hdecode] at h
              cases h
          | some x =>
              rcases x with ⟨res, rest'⟩
              rw [hdecode] at h
              rcases decodeHeader_split hdecode with ⟨header, hbs, hheader⟩
              cases res with
              | error e => cases e <;> cases h
              | ok y =>
                  rcases y with ⟨ty, len⟩
                  dsimp only at h
                  by_cases hlist : ty = .list
                  · rw [if_pos hlist] at h
                    rcases ih h with ⟨hr, used, hused, hskips⟩
                    rw [hlist] at hheader
                    refine ⟨hr, header ++ used, ?_, .list hheader hskips⟩
                    rw [hbs, hused, List.append_assoc]
                  · rw [if_neg hlist, Act.parse_bind] at h
                    cases hbytes : (skipBytes len).parse r rest' with
                    | none =>
                        rw [hbytes] at h
                        cases h
                    | some z =>
                        rcases z with ⟨z, after⟩
                        rcases skipBytes_ok hbytes with ⟨hz, hlen, hafter⟩
                        rw [hbytes, hz] at h
                        rcases ih h with ⟨hr, used, hused, hskips⟩
                        have hpayload := List.length_take_of_le hlen
                        refine ⟨hr, header ++ rest'.take len ++ used, ?_,
                          .item hheader hlist hpayload hskips⟩
                        rw [hbs, List.append_assoc, List.append_assoc, ← hused, hafter,
                          List.take_append_drop]

theorem iterate_skipTlvsLoop_of_skips {n num : Nat} (r : Reader) {used : List UInt8}
    (rest : List UInt8) (h : Skips num used) (hn : used.length < n)
    (hfuel : used.length < Machine.fuel) :
    (Act.iterate n skipTlvsLoop num).parse r (used ++ rest) = some ((.ok (), r), rest) := by
  induction h generalizing n with
  | nil =>
      cases n with
      | zero => exact absurd hn (Nat.not_lt_zero _)
      | succ n => rfl
  | @item num len ty header payload tail hheader hty hpayload hrest ih =>
      cases n with
      | zero => exact absurd hn (Nat.not_lt_zero _)
      | succ n =>
          have hpos := List.length_pos_iff.mpr (decodeHeader_ne_nil hheader)
          rw [List.length_append, List.length_append] at hn hfuel
          rw [Act.iterate_succ, Act.parse_bind, skipTlvsLoop_succ, List.append_assoc,
            List.append_assoc, decodeHeader_append hheader]
          dsimp only
          rw [if_neg hty, Act.parse_bind, skipBytes_append r _ hpayload (by lia)]
          exact ih (by lia) (by lia)
  | @list num len header tail hheader hrest ih =>
      cases n with
      | zero => exact absurd hn (Nat.not_lt_zero _)
      | succ n =>
          have hpos := List.length_pos_iff.mpr (decodeHeader_ne_nil hheader)
          rw [List.length_append] at hn hfuel
          rw [Act.iterate_succ, Act.parse_bind, skipTlvsLoop_succ, List.append_assoc,
            decodeHeader_append hheader]
          dsimp only
          rw [if_pos rfl]
          exact ih (by lia) (by lia)

end Reader

/-!
## The counters of the reader
-/

def Reader.Pending (r : Reader) (used : List UInt8) : Prop :=
  exists junk tlvs, used = junk ++ tlvs ∧ junk.length = r.remainingBytes ∧
    Skips r.remainingTlvs tlvs

namespace Reader

theorem Pending.new_iff {used : List UInt8} : new.Pending used <-> used = [] := by
  constructor
  · rintro ⟨junk, tlvs, hused, hjunk, hskips⟩
    rw [hused, List.length_eq_zero_iff.mp hjunk, Skips.zero_iff.mp hskips]
    rfl
  · intro h
    exact ⟨[], [], h, rfl, .nil⟩

def skipPendingBytes : Act Ops Error Reader Unit := do
  let remainingBytes ← Act.gets Reader.remainingBytes
  if remainingBytes > 0 then
    skipBytes remainingBytes
    Act.modify fun r => { r with remainingBytes := 0 }

def skipPendingTlvs : Act Ops Error Reader Unit := do
  let remainingTlvs ← Act.gets Reader.remainingTlvs
  if remainingTlvs > 0 then
    skipTlvs remainingTlvs
    Act.modify fun r => { r with remainingTlvs := 0 }

theorem skipNow_eq : skipNow = skipPendingBytes >>= fun _ => skipPendingTlvs := by
  funext r
  unfold skipNow skipPendingBytes
  simp only [Act.bind_apply, Act.gets_apply, Prog.ret_bind]
  by_cases h : r.remainingBytes > 0
  · simp only [if_pos h, Act.bind_apply, Prog.bind_assoc]
    congr 1
    funext x
    rcases x with ⟨res, r'⟩
    cases res <;> rfl
  · simp only [if_neg h]
    rfl

theorem skipPendingBytes_ok {r r' : Reader} {bs rest : List UInt8}
    (h : skipPendingBytes.parse r bs = some ((.ok (), r'), rest)) :
    r' = { r with remainingBytes := 0 } ∧
      exists junk, bs = junk ++ rest ∧ junk.length = r.remainingBytes := by
  unfold skipPendingBytes at h
  rw [Act.parse_bind_ok (Act.parse_gets _ _ _)] at h
  by_cases hpos : r.remainingBytes > 0
  · rw [if_pos hpos] at h
    rcases Act.parse_bind_eq_ok h with ⟨_, r₁, mid, hbytes, hmodify⟩
    rcases skipBytes_ok hbytes with ⟨hr₁, hlen, hmid⟩
    injection hr₁ with _ hr₁
    rw [Act.parse_modify, hr₁, hmid] at hmodify
    injection hmodify with hmodify
    injection hmodify with hr' hrest
    injection hr' with _ hr'
    refine ⟨hr'.symm, bs.take r.remainingBytes, ?_, List.length_take_of_le hlen⟩
    rw [← hrest, List.take_append_drop]
  · rw [if_neg hpos, Act.parse_pure] at h
    injection h with h
    injection h with hr' hrest
    injection hr' with _ hr'
    have hzero : r.remainingBytes = 0 := Nat.eq_zero_of_not_pos hpos
    refine ⟨?_, [], hrest, hzero.symm⟩
    rw [← hr', ← hzero]

theorem skipPendingTlvs_ok {r r' : Reader} {bs rest : List UInt8}
    (h : skipPendingTlvs.parse r bs = some ((.ok (), r'), rest)) :
    r' = { r with remainingTlvs := 0 } ∧
      exists used, bs = used ++ rest ∧ Skips r.remainingTlvs used := by
  unfold skipPendingTlvs at h
  rw [Act.parse_bind_ok (Act.parse_gets _ _ _)] at h
  by_cases hpos : r.remainingTlvs > 0
  · rw [if_pos hpos] at h
    rcases Act.parse_bind_eq_ok h with ⟨_, r₁, mid, htlvs, hmodify⟩
    rcases iterate_skipTlvsLoop_ok htlvs with ⟨hr₁, used, hused, hskips⟩
    rw [Act.parse_modify, hr₁] at hmodify
    injection hmodify with hmodify
    injection hmodify with hr' hrest
    injection hr' with _ hr'
    exact ⟨hr'.symm, used, hrest ▸ hused, hskips⟩
  · rw [if_neg hpos, Act.parse_pure] at h
    injection h with h
    injection h with hr' hrest
    injection hr' with _ hr'
    have hzero : r.remainingTlvs = 0 := Nat.eq_zero_of_not_pos hpos
    refine ⟨?_, [], hrest, hzero.symm ▸ .nil⟩
    rw [← hr', ← hzero]

theorem skipNow_ok {r r' : Reader} {bs rest : List UInt8}
    (h : skipNow.parse r bs = some ((.ok (), r'), rest)) :
    r' = new ∧ exists used, bs = used ++ rest ∧ r.Pending used := by
  rw [skipNow_eq] at h
  rcases Act.parse_bind_eq_ok h with ⟨_, r₁, mid, hbytes, htlvs⟩
  rcases skipPendingBytes_ok hbytes with ⟨hr₁, junk, hbs, hjunk⟩
  rcases skipPendingTlvs_ok htlvs with ⟨hr', tlvs, hmid, hskips⟩
  rw [hr₁] at hr' hskips
  refine ⟨hr', junk ++ tlvs, ?_, junk, tlvs, rfl, hjunk, hskips⟩
  rw [hbs, hmid, List.append_assoc]

theorem skipNow_of_pending {r : Reader} {used : List UInt8} (rest : List UInt8)
    (h : r.Pending used) (hfuel : used.length < Machine.fuel) :
    skipNow.parse r (used ++ rest) = some ((.ok (), new), rest) := by
  rcases h with ⟨junk, tlvs, hused, hjunk, hskips⟩
  rw [hused, List.length_append] at hfuel
  have hbytes : skipPendingBytes.parse r (junk ++ (tlvs ++ rest)) =
      some ((.ok (), { r with remainingBytes := 0 }), tlvs ++ rest) := by
    unfold skipPendingBytes
    rw [Act.parse_bind_ok (Act.parse_gets _ _ _)]
    by_cases hpos : r.remainingBytes > 0
    · rw [if_pos hpos, Act.parse_bind_ok (skipBytes_append r _ hjunk (by lia)),
        Act.parse_modify]
    · have hzero : r.remainingBytes = 0 := Nat.eq_zero_of_not_pos hpos
      rw [hzero] at hjunk
      rw [if_neg hpos, Act.parse_pure, List.length_eq_zero_iff.mp hjunk, ← hzero]
      rfl
  have htlvs : skipPendingTlvs.parse { r with remainingBytes := 0 } (tlvs ++ rest) =
      some ((.ok (), new), rest) := by
    unfold skipPendingTlvs
    rw [Act.parse_bind_ok (Act.parse_gets _ _ _)]
    dsimp only
    by_cases hpos : r.remainingTlvs > 0
    · have hskip : (skipTlvs r.remainingTlvs).parse { r with remainingBytes := 0 }
          (tlvs ++ rest) = _ :=
        iterate_skipTlvsLoop_of_skips _ rest hskips (by lia) (by lia)
      rw [if_pos hpos, Act.parse_bind_ok hskip, Act.parse_modify]
      rfl
    · have hzero : r.remainingTlvs = 0 := Nat.eq_zero_of_not_pos hpos
      rw [hzero, Skips.zero_iff] at hskips
      rw [if_neg hpos, Act.parse_pure, hskips, hzero]
      rfl
  rw [skipNow_eq, hused, List.append_assoc, Act.parse_bind_ok hbytes]
  exact htlvs

theorem skipNow_new (bs : List UInt8) : skipNow.parse new bs = some ((.ok (), new), bs) := by
  exact skipNow_of_pending bs (Pending.new_iff.mpr rfl)
    (Nat.lt_of_lt_of_le (by decide) Machine.fuel_ge)

end Reader

end Tlv
end Sml
end Smartmeter
