import Smartmeter.Sml.Tlv.Items

/-!
# Elements and the counter that skips them

A number of complete elements, counted exactly, next to what the counter of
`skip_tlvs` makes of the same bytes.  The counter wraps; as long as it does
not, it skips complete elements and stops at the first header that is none.
-/

namespace Smartmeter
namespace Sml
namespace Tlv

open Foundation

variable [Machine]

/-- The byte strings that hold `num` complete elements. -/
inductive Elements : Nat -> List UInt8 -> Prop where
  | nil : Elements 0 []
  | item {num len : Nat} {ty : TlvType} {header payload rest : List UInt8}
      (hheader : decodeHeader header = some (.ok (ty, len), [])) (hty : ty ≠ .list)
      (hpayload : payload.length = len) (hrest : Elements num rest) :
      Elements (num + 1) (header ++ payload ++ rest)
  | list {num len : Nat} {header rest : List UInt8}
      (hheader : decodeHeader header = some (.ok (.list, len), []))
      (hrest : Elements (num + len) rest) : Elements (num + 1) (header ++ rest)

/-- Skipping takes the counter from its first to its second value. -/
inductive SkipsTo : Nat -> Nat -> List UInt8 -> Prop where
  | refl {num : Nat} : SkipsTo num num []
  | item {num m len : Nat} {ty : TlvType} {header payload rest : List UInt8}
      (hheader : decodeHeader header = some (.ok (ty, len), [])) (hty : ty ≠ .list)
      (hpayload : payload.length = len) (hrest : SkipsTo num m rest) :
      SkipsTo (num + 1) m (header ++ payload ++ rest)
  | list {num m len : Nat} {header rest : List UInt8}
      (hheader : decodeHeader header = some (.ok (.list, len), []))
      (hrest : SkipsTo (Usize.wrappingAdd num len) m rest) :
      SkipsTo (num + 1) m (header ++ rest)

/-- While the elements are skipped, a list raises the count beyond a word. -/
inductive Overflows : Nat -> List UInt8 -> Prop where
  | here {num len : Nat} {header rest : List UInt8}
      (hheader : decodeHeader header = some (.ok (.list, len), []))
      (hlen : Usize.size ≤ num + len) : Overflows (num + 1) (header ++ rest)
  | item {num len : Nat} {ty : TlvType} {header payload rest : List UInt8}
      (hheader : decodeHeader header = some (.ok (ty, len), [])) (hty : ty ≠ .list)
      (hpayload : payload.length = len) (hrest : Overflows num rest) :
      Overflows (num + 1) (header ++ payload ++ rest)
  | list {num len : Nat} {header rest : List UInt8}
      (hheader : decodeHeader header = some (.ok (.list, len), []))
      (hrest : Overflows (num + len) rest) : Overflows (num + 1) (header ++ rest)

/-!
## The header in front
-/

theorem decodeHeader_unique {header header' rest rest' : List UInt8}
    {x x' : Except Error (TlvType × Nat)} (h : decodeHeader header = some (x, []))
    (h' : decodeHeader header' = some (x', [])) (heq : header ++ rest = header' ++ rest') :
    header = header' ∧ x = x' ∧ rest = rest' := by
  have hdecode := decodeHeader_append h rest
  rw [heq, decodeHeader_append h' rest'] at hdecode
  injection hdecode with hdecode
  injection hdecode with hx hrest
  subst hrest
  exact ⟨List.append_cancel_right heq, hx.symm, rfl⟩

theorem decodeHeader_unique_payload {header header' payload payload' rest rest' : List UInt8}
    {ty ty' : TlvType} {len len' : Nat}
    (h : decodeHeader header = some (.ok (ty, len), []))
    (h' : decodeHeader header' = some (.ok (ty', len'), []))
    (hpayload : payload.length = len) (hpayload' : payload'.length = len')
    (heq : header ++ payload ++ rest = header' ++ payload' ++ rest') :
    ty = ty' ∧ rest = rest' := by
  rw [List.append_assoc, List.append_assoc] at heq
  rcases decodeHeader_unique h h' heq with ⟨_, hx, htail⟩
  injection hx with hx
  injection hx with hty hlen
  have hsame : payload.length = payload'.length := by rw [hpayload, hpayload', hlen]
  exact ⟨hty, (List.append_inj htail hsame).2⟩

theorem Overflows.of_item {num len : Nat} {ty : TlvType} {header payload rest : List UInt8}
    (hheader : decodeHeader header = some (.ok (ty, len), [])) (hty : ty ≠ .list)
    (hpayload : payload.length = len) (h : Overflows (num + 1) (header ++ payload ++ rest)) :
    Overflows num rest := by
  generalize hbs : header ++ payload ++ rest = bs at h
  cases h with
  | here hheader' hlen =>
      rw [List.append_assoc] at hbs
      rcases decodeHeader_unique hheader hheader' hbs with ⟨_, hx, _⟩
      cases hx
      exact absurd rfl hty
  | item hheader' hty' hpayload' hrest =>
      rw [(decodeHeader_unique_payload hheader hheader' hpayload hpayload' hbs).2]
      exact hrest
  | list hheader' hrest =>
      rw [List.append_assoc] at hbs
      rcases decodeHeader_unique hheader hheader' hbs with ⟨_, hx, _⟩
      cases hx
      exact absurd rfl hty

theorem Overflows.of_list {num len : Nat} {header rest : List UInt8}
    (hheader : decodeHeader header = some (.ok (.list, len), []))
    (h : Overflows (num + 1) (header ++ rest)) :
    Usize.size ≤ num + len ∨ Overflows (num + len) rest := by
  generalize hbs : header ++ rest = bs at h
  cases h with
  | here hheader' hlen =>
      rcases decodeHeader_unique hheader hheader' hbs with ⟨_, hx, _⟩
      cases hx
      exact Or.inl hlen
  | item hheader' hty' hpayload' hrest =>
      rw [List.append_assoc] at hbs
      rcases decodeHeader_unique hheader hheader' hbs with ⟨_, hx, _⟩
      cases hx
      exact absurd rfl hty'
  | list hheader' hrest =>
      rcases decodeHeader_unique hheader hheader' hbs with ⟨_, hx, htail⟩
      cases hx
      rw [htail]
      exact Or.inr hrest

theorem SkipsTo.zero_left {m : Nat} {bs : List UInt8} (h : SkipsTo 0 m bs) :
    m = 0 ∧ bs = [] := by
  cases h with
  | refl => exact ⟨rfl, rfl⟩

/-!
## Counting exactly

If the counter gets to zero in front of an end marker, the bytes are complete
elements unless the count was lost on the way.
-/

theorem Elements.skips {num : Nat} {bs : List UInt8} (h : Elements num bs)
    (hlow : ¬ Overflows num bs) : Skips num bs := by
  induction h with
  | nil => exact .nil
  | item hheader hty hpayload _ ih =>
      exact .item hheader hty hpayload (ih fun ho => hlow (.item hheader hty hpayload ho))
  | @list num len header rest hheader hrest ih =>
      refine .list hheader ?_
      have hlt : num + len < Usize.size := by
        apply Nat.lt_of_not_le
        intro hle
        exact hlow (.here hheader hle)
      rw [Usize.wrappingAdd_eq hlt]
      exact ih fun ho => hlow (.list hheader ho)

theorem Skips.elements {num : Nat} {bs : List UInt8} (h : Skips num bs)
    (hlow : ¬ Overflows num bs) : Elements num bs := by
  induction h with
  | nil => exact .nil
  | item hheader hty hpayload _ ih =>
      exact .item hheader hty hpayload (ih fun ho => hlow (.item hheader hty hpayload ho))
  | @list num len header rest hheader hrest ih =>
      have hlt : num + len < Usize.size := by
        apply Nat.lt_of_not_le
        intro hle
        exact hlow (.here hheader hle)
      rw [Usize.wrappingAdd_eq hlt] at ih
      exact .list hheader (ih fun ho => hlow (.list hheader ho))

/--
Where the counter skips the beginning of complete elements, at least as many are
left over as are not counted, and a whole word more when the count is lost.
-/
theorem Skips.elements_split {num n : Nat} {used used' stop tail : List UInt8}
    (h : Skips num used) (h' : Elements n used') (hle : num ≤ n)
    (heq : used ++ stop = used' ++ tail) :
    exists k more, Elements k more ∧ stop = more ++ tail ∧ n ≤ num + k ∧
      (Overflows num used -> Usize.size ≤ k) ∧ (¬ Overflows num used -> n = num + k) := by
  induction h generalizing n used' with
  | nil =>
      refine ⟨n, used', h', heq, Nat.le_add_left n 0, ?_, fun _ => (Nat.zero_add n).symm⟩
      intro ho
      cases ho
  | item hheader hty hpayload _ ih =>
      rw [List.append_assoc] at heq
      cases h' with
      | nil => exact absurd hle (Nat.not_succ_le_zero _)
      | item hheader' _ hpayload' hrest' =>
          rw [List.append_assoc (_ ++ _)] at heq
          rcases decodeHeader_unique_payload hheader hheader' hpayload hpayload' heq with
            ⟨_, htail⟩
          rcases ih hrest' (Nat.le_of_succ_le_succ hle) htail with
            ⟨k, more, hmore, hstop, hk, hlost, hkept⟩
          refine ⟨k, more, hmore, hstop, by lia,
            fun ho => hlost (ho.of_item hheader hty hpayload), fun hlow => ?_⟩
          have hn := hkept fun ho => hlow (.item hheader hty hpayload ho)
          lia
      | list hheader' _ =>
          rw [List.append_assoc, List.append_assoc] at heq
          rcases decodeHeader_unique hheader hheader' heq with ⟨_, hx, _⟩
          cases hx
          exact absurd rfl hty
  | @list num len header rest₁ hheader hrest ih =>
      rw [List.append_assoc] at heq
      cases h' with
      | nil => exact absurd hle (Nat.not_succ_le_zero _)
      | item hheader' hty' _ _ =>
          rw [List.append_assoc, List.append_assoc] at heq
          rcases decodeHeader_unique hheader hheader' heq with ⟨_, hx, _⟩
          cases hx
          exact absurd rfl hty'
      | @list n' len' header' rest' hheader' hrest' =>
          rw [List.append_assoc] at heq
          rcases decodeHeader_unique hheader hheader' heq with ⟨_, hx, htail⟩
          cases hx
          have hadd := Usize.wrappingAdd_le num len
          rcases ih hrest' (by lia) htail with ⟨k, more, hmore, hstop, hk, hlost, hkept⟩
          by_cases hbig : Usize.size ≤ num + len
          · have hwrap := Usize.wrappingAdd_add_size_le hbig
            refine ⟨k, more, hmore, hstop, by lia, fun _ => by lia, fun hlow => ?_⟩
            exact absurd (.here hheader hbig) hlow
          · have hsum : Usize.wrappingAdd num len = num + len :=
              Usize.wrappingAdd_eq (Nat.lt_of_not_le hbig)
            rw [hsum] at hk hlost hkept
            refine ⟨k, more, hmore, hstop, by lia, fun ho => ?_, fun hlow => ?_⟩
            · exact hlost ((ho.of_list hheader).resolve_left hbig)
            · have hn := hkept fun ho => hlow (.list hheader ho)
              lia

theorem Elements.not_stop {k : Nat} {more : List UInt8} (h : Elements (k + 1) more)
    (tail : List UInt8) :
    exists x rest, decodeHeader (more ++ tail) = some (.ok x, rest) := by
  cases h with
  | item hheader _ _ _ =>
      rw [List.append_assoc, List.append_assoc]
      exact ⟨_, _, decodeHeader_append hheader _⟩
  | list hheader _ =>
      rw [List.append_assoc]
      exact ⟨_, _, decodeHeader_append hheader _⟩

theorem Skips.elements_unique {num n : Nat} {used used' stop tail : List UInt8}
    (h : Skips num used) (hstop : forall x rest, decodeHeader stop ≠ some (.ok x, rest))
    (h' : Elements n used') (hle : num ≤ n) (heq : used ++ stop = used' ++ tail) :
    n = num ∧ ¬ Overflows num used := by
  rcases h.elements_split h' hle heq with ⟨k, more, hmore, hbytes, hk, hlost, _⟩
  cases k with
  | zero =>
      refine ⟨by lia, ?_⟩
      intro ho
      exact absurd (hlost ho) (Nat.not_le_of_lt Usize.size_pos)
  | succ k =>
      rcases hmore.not_stop tail with ⟨x, rest, hx⟩
      rw [← hbytes] at hx
      exact absurd hx (hstop x rest)

/-!
## Errors while skipping
-/

def skipError (num : Nat) : Error -> Error
  | .endOfSmlMessage => if num = 0 then .endOfSmlMessage else .midMessageEndMarker num
  | e => e

namespace Reader

theorem skipTlvsLoop_error {num : Nat} {r : Reader} {bs rest : List UInt8} {e : Error}
    (h : decodeHeader bs = some (.error e, rest)) :
    (skipTlvsLoop (num + 1)).parse r bs = some ((.error (skipError num e), r), rest) := by
  rw [skipTlvsLoop_succ, h]
  cases e <;> rfl

theorem iterate_skipTlvsLoop_error {n num : Nat} {r r' : Reader} {bs rest : List UInt8}
    {e : Error}
    (h : (Act.iterate n skipTlvsLoop num).parse r bs = some ((.error e, r'), rest)) :
    r' = r ∧ exists used tail m e', bs = used ++ tail ∧ SkipsTo num (m + 1) used ∧
      decodeHeader tail = some (.error e', rest) ∧ e = skipError m e' := by
  induction n generalizing num bs r with
  | zero => cases h
  | succ n ih =>
      rw [Act.iterate_succ, Act.parse_bind] at h
      cases num with
      | zero =>
          rw [skipTlvsLoop_zero] at h
          cases h
      | succ num =>
          cases hdecode : decodeHeader bs with
          | none =>
              rw [skipTlvsLoop_succ, hdecode] at h
              cases h
          | some x =>
              rcases x with ⟨res, rest'⟩
              cases res with
              | error e' =>
                  rw [skipTlvsLoop_error hdecode] at h
                  injection h with h
                  injection h with he hrest
                  injection he with he hr
                  injection he with he
                  subst hrest
                  exact ⟨hr.symm, [], bs, num, e', rfl, .refl, hdecode, he.symm⟩
              | ok y =>
                  rcases y with ⟨ty, len⟩
                  rw [skipTlvsLoop_succ, hdecode] at h
                  rcases decodeHeader_split hdecode with ⟨header, hbs, hheader⟩
                  dsimp only at h
                  by_cases hlist : ty = .list
                  · rw [if_pos hlist] at h
                    rcases ih h with ⟨hr, used, tail, m, e', hused, hskips, htail, he⟩
                    rw [hlist] at hheader
                    refine ⟨hr, header ++ used, tail, m, e', ?_, .list hheader hskips, htail,
                      he⟩
                    rw [hbs, hused, List.append_assoc]
                  · rw [if_neg hlist, Act.parse_bind] at h
                    cases hbytes : (skipBytes len).parse r rest' with
                    | none =>
                        rw [hbytes] at h
                        cases h
                    | some z =>
                        rcases z with ⟨z, after⟩
                        rcases skipBytes_ok hbytes with ⟨hz, hlen, hafter⟩
                        rw [hbytes, hz] at h
                        rcases ih h with ⟨hr, used, tail, m, e', hused, hskips, htail, he⟩
                        refine ⟨hr, header ++ rest'.take len ++ used, tail, m, e', ?_,
                          .item hheader hlist (List.length_take_of_le hlen) hskips, htail, he⟩
                        rw [hbs, List.append_assoc, List.append_assoc, ← hused, hafter,
                          List.take_append_drop]

theorem iterate_skipTlvsLoop_of_error {n num m : Nat} (r : Reader) {used : List UInt8}
    {tail rest : List UInt8} {e : Error} (h : SkipsTo num m used) {k : Nat} (hm : m = k + 1)
    (htail : decodeHeader tail = some (.error e, rest)) (hn : used.length < n)
    (hfuel : used.length < Machine.fuel) :
    (Act.iterate n skipTlvsLoop num).parse r (used ++ tail) =
      some ((.error (skipError k e), r), rest) := by
  induction h generalizing n with
  | refl =>
      cases n with
      | zero => exact absurd hn (Nat.not_lt_zero _)
      | succ n =>
          rw [hm, Act.iterate_succ, Act.parse_bind, List.nil_append, skipTlvsLoop_error htail]
  | @item num m len ty header payload after hheader hty hpayload hrest ih =>
      cases n with
      | zero => exact absurd hn (Nat.not_lt_zero _)
      | succ n =>
          have hpos := List.length_pos_iff.mpr (decodeHeader_ne_nil hheader)
          rw [List.length_append, List.length_append] at hn hfuel
          rw [Act.iterate_succ, Act.parse_bind, skipTlvsLoop_succ, List.append_assoc,
            List.append_assoc, decodeHeader_append hheader]
          dsimp only
          rw [if_neg hty, Act.parse_bind, skipBytes_append r _ hpayload (by lia)]
          exact ih hm (by lia) (by lia)
  | @list num m len header after hheader hrest ih =>
      cases n with
      | zero => exact absurd hn (Nat.not_lt_zero _)
      | succ n =>
          have hpos := List.length_pos_iff.mpr (decodeHeader_ne_nil hheader)
          rw [List.length_append] at hn hfuel
          rw [Act.iterate_succ, Act.parse_bind, skipTlvsLoop_succ, List.append_assoc,
            decodeHeader_append hheader]
          dsimp only
          rw [if_pos rfl]
          exact ih hm (by lia) (by lia)

theorem skipPendingBytes_parse {r r' : Reader} {bs rest : List UInt8}
    {res : Except Error Unit} (h : skipPendingBytes.parse r bs = some ((res, r'), rest)) :
    res = .ok () := by
  unfold skipPendingBytes at h
  rw [Act.parse_bind_ok (Act.parse_gets _ _ _)] at h
  by_cases hpos : r.remainingBytes > 0
  · rw [if_pos hpos, Act.parse_bind] at h
    cases hbytes : (skipBytes r.remainingBytes).parse r bs with
    | none =>
        rw [hbytes] at h
        cases h
    | some x =>
        rcases x with ⟨x, after⟩
        rw [hbytes, (skipBytes_ok hbytes).1] at h
        injection h with h
        injection h with h
        injection h with h
        exact h.symm
  · rw [if_neg hpos] at h
    injection h with h
    injection h with h
    injection h with h
    exact h.symm

theorem skipNow_error {r r' : Reader} {bs rest : List UInt8} {e : Error}
    (h : skipNow.parse r bs = some ((.error e, r'), rest)) :
    r' = { r with remainingBytes := 0 } ∧ exists junk used tail m e',
      bs = junk ++ (used ++ tail) ∧ junk.length = r.remainingBytes ∧
      SkipsTo r.remainingTlvs (m + 1) used ∧
      decodeHeader tail = some (.error e', rest) ∧ e = skipError m e' := by
  rw [skipNow_eq, Act.parse_bind] at h
  cases hbytes : skipPendingBytes.parse r bs with
  | none =>
      rw [hbytes] at h
      cases h
  | some x =>
      rcases x with ⟨⟨res, r₁⟩, mid⟩
      have hres := skipPendingBytes_parse hbytes
      subst hres
      rcases skipPendingBytes_ok hbytes with ⟨hr₁, junk, hbs, hjunk⟩
      rw [hbytes] at h
      unfold skipPendingTlvs at h
      dsimp only at h
      rw [Act.parse_bind_ok (Act.parse_gets _ _ _)] at h
      by_cases hpos : r₁.remainingTlvs > 0
      · rw [if_pos hpos, Act.parse_bind] at h
        cases htlvs : (skipTlvs r₁.remainingTlvs).parse r₁ mid with
        | none =>
            rw [htlvs] at h
            cases h
        | some y =>
            rcases y with ⟨⟨res, r₂⟩, after⟩
            rw [htlvs] at h
            cases res with
            | ok _ => cases h
            | error e' =>
                injection h with h
                injection h with he hrest
                injection he with he hr'
                injection he with he
                subst he hrest
                rcases iterate_skipTlvsLoop_error htlvs with
                  ⟨hr₂, used, tail, m, e', hmid, hskips, htail, he⟩
                refine ⟨?_, junk, used, tail, m, e', ?_, hjunk, ?_, htail, he⟩
                · rw [← hr', hr₂, hr₁]
                · rw [hbs, hmid]
                · rw [hr₁] at hskips
                  exact hskips
      · rw [if_neg hpos] at h
        cases h

theorem skipNow_of_error {r : Reader} {junk used tail rest : List UInt8} {m : Nat}
    {e : Error} (hjunk : junk.length = r.remainingBytes)
    (hskips : SkipsTo r.remainingTlvs (m + 1) used)
    (htail : decodeHeader tail = some (.error e, rest))
    (hfuel : junk.length + used.length < Machine.fuel) :
    skipNow.parse r (junk ++ (used ++ tail)) =
      some ((.error (skipError m e), { r with remainingBytes := 0 }), rest) := by
  have hbytes : skipPendingBytes.parse r (junk ++ (used ++ tail)) =
      some ((.ok (), { r with remainingBytes := 0 }), used ++ tail) := by
    unfold skipPendingBytes
    rw [Act.parse_bind_ok (Act.parse_gets _ _ _)]
    by_cases hpos : r.remainingBytes > 0
    · rw [if_pos hpos, Act.parse_bind_ok (skipBytes_append r _ hjunk (by lia)),
        Act.parse_modify]
    · have hzero : r.remainingBytes = 0 := Nat.eq_zero_of_not_pos hpos
      rw [hzero] at hjunk
      rw [if_neg hpos, Act.parse_pure, List.length_eq_zero_iff.mp hjunk, ← hzero]
      rfl
  have hpos : r.remainingTlvs > 0 := by
    apply Nat.pos_of_ne_zero
    intro hzero
    rw [hzero] at hskips
    exact absurd hskips.zero_left.1 (Nat.succ_ne_zero m)
  have hskip : (skipTlvs r.remainingTlvs).parse { r with remainingBytes := 0 }
      (used ++ tail) = _ :=
    iterate_skipTlvsLoop_of_error _ hskips rfl htail (by lia) (by lia)
  rw [skipNow_eq, Act.parse_bind_ok hbytes]
  unfold skipPendingTlvs
  rw [Act.parse_bind_ok (Act.parse_gets _ _ _)]
  dsimp only
  rw [if_pos hpos, Act.parse_bind, hskip]

end Reader

end Tlv
end Sml
end Smartmeter
