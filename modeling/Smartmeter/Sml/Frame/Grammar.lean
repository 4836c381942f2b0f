import Smartmeter.Sml.Frame.Reference
import Mathlib.Data.List.Basic

/-!
# What is sent as a frame

A frame is sent as data groups, in which the escape sequence is doubled, and a
footer with the number of pad bytes and the checksum.  The decoder succeeds on
these byte strings and on no others.
-/

namespace Smartmeter
namespace Sml
namespace Frame

open Foundation

def stuff (group : List UInt8) : List UInt8 :=
  if group = escape then escape ++ escape else group

def framed (groups : List (List UInt8)) (num : UInt8) : List UInt8 :=
  groups.flatMap stuff ++ escape ++ [0x1A, num]

theorem stuff_escape : stuff escape = escape ++ escape := if_pos rfl

theorem stuff_of_ne {group : List UInt8} (h : group ≠ escape) : stuff group = group :=
  if_neg h

theorem framed_cons (group : List UInt8) (groups : List (List UInt8)) (num : UInt8) :
    framed (group :: groups) num = stuff group ++ framed groups num := by
  unfold framed
  rw [List.flatMap_cons, List.append_assoc, List.append_assoc, List.append_assoc]

structure Sent (δ : Type) [Digest δ] where
  groups : List (List UInt8)
  num : UInt8
  c0 : UInt8
  c1 : UInt8
  groups_length : forall g, g ∈ groups -> g.length = 4
  num_le : num.toNat ≤ 3
  padded : num.toNat = 0 ∨ groups ≠ []
  crc : (Digest.checksum δ (startMarker ++ framed groups num)).toNat =
    c0.toNat + 256 * c1.toNat

namespace Sent

variable {δ : Type} [Digest δ]

def bytes (f : Sent δ) : List UInt8 := framed f.groups f.num ++ [f.c0, f.c1]

def payload (f : Sent δ) : List UInt8 :=
  f.groups.flatten.take (f.groups.flatten.length - f.num.toNat)

end Sent

section

variable {δ : Type} [Digest δ]

theorem refFrom_stuff {seen g : List UInt8} {groups : List (List UInt8)}
    (rest : List UInt8) (hlen : g.length = 4) :
    refFrom δ seen groups (stuff g ++ rest) =
      refFrom δ (seen ++ stuff g) (groups ++ [g]) rest := by
  unfold stuff
  by_cases hg : g = escape
  · rw [if_pos hg, hg, ← List.append_assoc]
    change refFrom δ seen groups (escape ++ 0x1B :: 0x1B :: 0x1B :: 0x1B :: rest) = _
    rw [refFrom_escape, if_pos (show [0x1B, 0x1B, 0x1B, 0x1B] = escape from rfl)]
  · rw [if_neg hg]
    exact refFrom_data rest hlen hg

theorem refFrom_flatMap_stuff {more : List (List UInt8)} (seen : List UInt8)
    (groups : List (List UInt8)) (rest : List UInt8)
    (hlen : forall g, g ∈ more -> g.length = 4) :
    refFrom δ seen groups (more.flatMap stuff ++ rest) =
      refFrom δ (seen ++ more.flatMap stuff) (groups ++ more) rest := by
  induction more generalizing seen groups with
  | nil => rw [List.flatMap_nil, List.nil_append, List.append_nil, List.append_nil]
  | cons g more ih =>
      have hg := hlen g List.mem_cons_self
      have hmore : forall g', g' ∈ more -> g'.length = 4 := by
        intro g' hg'
        exact hlen g' (List.mem_cons_of_mem g hg')
      rw [List.flatMap_cons, List.append_assoc, refFrom_stuff _ hg, ih _ _ hmore,
        List.append_assoc, List.append_assoc]
      rfl

theorem refFrom_success {s seen payload rest : List UInt8} {groups : List (List UInt8)}
    (h : refFrom δ seen groups s = .success payload rest) :
    exists more num c0 c1, (forall g, g ∈ more -> g.length = 4) ∧
      s = framed more num ++ [c0, c1] ++ rest ∧
      refEnd δ (seen ++ more.flatMap stuff ++ escape) (groups ++ more) num c0 c1 rest =
        .success payload rest := by
  match s with
  | a :: b :: c :: d :: tail =>
      by_cases hgroup : [a, b, c, d] = escape
      · have hs : a :: b :: c :: d :: tail = escape ++ tail := by
          rw [← hgroup]
          rfl
        match tail with
        | a' :: b' :: c' :: d' :: tail' =>
            rw [hs, refFrom_escape] at h
            by_cases hgroup' : [a', b', c', d'] = escape
            · rw [if_pos hgroup'] at h
              rcases refFrom_success h with ⟨more, num, c0, c1, hlen, htail, hend⟩
              refine ⟨escape :: more, num, c0, c1, ?_, ?_, ?_⟩
              · intro g hg
                rcases List.mem_cons.mp hg with heq | hmem
                · rw [heq]
                  rfl
                · exact hlen g hmem
              · have hdouble : a' :: b' :: c' :: d' :: tail' = escape ++ tail' := by
                  rw [← hgroup']
                  rfl
                rw [hs, hdouble, htail, framed_cons, stuff_escape]
                simp only [List.append_assoc]
              · rw [List.flatMap_cons, stuff_escape]
                simpa only [List.append_assoc, List.singleton_append] using hend
            · rw [if_neg hgroup'] at h
              by_cases hfoot : a' = 0x1A
              · rw [if_pos hfoot] at h
                have hrest : tail' = rest := by
                  unfold refEnd at h
                  split at h
                  · injection h
                  · cases h
                refine ⟨[], b', c', d', fun g hg => absurd hg List.not_mem_nil, ?_, ?_⟩
                · rw [hs, hfoot, hrest]
                  rfl
                · rw [List.flatMap_nil, List.append_nil, List.append_nil, ← hrest]
                  exact h.trans (by rw [hrest])
              · rw [if_neg hfoot] at h
                cases h
        | [] =>
            rw [hs] at h
            cases h
        | [_] =>
            rw [hs] at h
            cases h
        | [_, _] =>
            rw [hs] at h
            cases h
        | [_, _, _] =>
            rw [hs] at h
            cases h
      · have hs : a :: b :: c :: d :: tail = [a, b, c, d] ++ tail := rfl
        rw [hs, refFrom_data tail rfl hgroup] at h
        rcases refFrom_success h with ⟨more, num, c0, c1, hlen, htail, hend⟩
        refine ⟨[a, b, c, d] :: more, num, c0, c1, ?_, ?_, ?_⟩
        · intro g hg
          rcases List.mem_cons.mp hg with heq | hmem
          · rw [heq]
            rfl
          · exact hlen g hmem
        · rw [hs, htail]
          rw [framed_cons, stuff_of_ne hgroup]
          simp only [List.append_assoc]
        · rw [List.flatMap_cons, stuff_of_ne hgroup]
          simpa only [List.append_assoc, List.singleton_append] using hend
  | [] => cases h
  | [_] => cases h
  | [_, _] => cases h
  | [_, _, _] => cases h

theorem ref_sent (f : Sent δ) (rest : List UInt8) :
    ref δ (f.bytes ++ rest) = .success f.payload rest := by
  unfold ref Sent.bytes framed
  simp only [List.append_assoc]
  rw [refFrom_flatMap_stuff _ _ _ f.groups_length]
  change refFrom δ _ _ (escape ++ 0x1A :: f.num :: f.c0 :: f.c1 :: rest) = _
  rw [refFrom_escape, if_neg (by simp [escape]), if_pos rfl]
  unfold refEnd
  rw [List.nil_append, List.nil_append]
  have hcrc := f.crc
  unfold framed at hcrc
  rw [← List.append_assoc] at hcrc
  exact if_pos ⟨hcrc, f.num_le, f.padded⟩

theorem ref_success_iff {s payload rest : List UInt8} :
    ref δ s = .success payload rest <->
      exists f : Sent δ, s = f.bytes ++ rest ∧ f.payload = payload := by
  constructor
  · intro h
    rcases refFrom_success h with ⟨more, num, c0, c1, hlen, hs, hend⟩
    rw [List.nil_append, List.nil_append] at hend
    unfold refEnd at hend
    split at hend
    · next hok =>
        injection hend with hpayload
        have hcrc : (Digest.checksum δ (startMarker ++ framed more num)).toNat =
            c0.toNat + 256 * c1.toNat := by
          rw [← hok.1]
          unfold framed
          rw [List.append_assoc startMarker]
        exact ⟨Sent.mk more num c0 c1 hlen hok.2.1 hok.2.2 hcrc, hs, hpayload⟩
    · cases hend
  · rintro ⟨f, hs, hpayload⟩
    rw [hs, ← hpayload]
    exact ref_sent f rest

theorem decodeFrame_success_iff {s payload rest : List UInt8} :
    ((decodeFrame δ s).pend.map Prod.fst = payload ∧
        (decodeFrame δ s).ending = .success rest) <->
      exists f : Sent δ, s = f.bytes ++ rest ∧ f.payload = payload := by
  rw [← ref_success_iff]
  have hmeets := decodeFrame_meets (δ := δ) s
  constructor
  · rintro ⟨hpayload, hending⟩
    cases href : ref δ s with
    | success payload' rest' =>
        rw [href] at hmeets
        rcases hmeets with ⟨hbytes, hending'⟩
        rw [hending'] at hending
        injection hending with hrest
        rw [← hpayload, ← hbytes, hrest]
        rfl
    | failure groups rest' =>
        rw [href] at hmeets
        rcases hmeets with ⟨_, e, hending'⟩
        rw [hending'] at hending
        cases hending
    | incomplete =>
        rw [href] at hmeets
        rw [hmeets] at hending
        cases hending
  · intro href
    rw [href] at hmeets
    exact hmeets

end

/-!
## Where the source stands
-/

section

variable {δ : Type} [Digest δ]

/-- The bytes of the source that a decoder leaves at any point are behind those it has read. -/
structure Decoded.Behind (d : Decoded) (s : List UInt8) : Prop where
  pend : forall x, x ∈ d.pend -> x.2 <:+ s
  success : forall rest, d.ending = .success rest -> rest <:+ s
  failure : forall e rest, d.ending = .failure e rest -> rest <:+ s

theorem Decoded.Behind.mono {d : Decoded} {s t : List UInt8} (h : d.Behind s)
    (hst : s <:+ t) : d.Behind t where
  pend x hx := (h.pend x hx).trans hst
  success rest hrest := (h.success rest hrest).trans hst
  failure e rest hrest := (h.failure e rest hrest).trans hst

theorem Decoded.Behind.prepend {d : Decoded} {s held rest : List UInt8}
    (h : d.Behind s) (hrest : rest <:+ s) : (d.prepend held rest).Behind s where
  pend x hx := by
    rcases List.mem_append.mp hx with hheld | hpend
    · rcases List.mem_map.mp hheld with ⟨b, _, rfl⟩
      exact hrest
    · exact h.pend x hpend
  success := h.success
  failure := h.failure

theorem decodeFooter_behind (held : List UInt8) (digest : δ) (num c0 c1 : UInt8)
    (rest : List UInt8) : (decodeFooter held digest num c0 c1 rest).Behind rest := by
  unfold decodeFooter
  split
  · constructor
    · intro x hx
      rcases List.mem_map.mp hx with ⟨b, _, rfl⟩
      exact List.suffix_rfl
    · intro rest' h
      injection h with h
      exact h ▸ List.suffix_rfl
    · intro e rest' h
      cases h
  · constructor
    · intro x hx
      exact absurd hx List.not_mem_nil
    · intro rest' h
      cases h
    · intro e rest' h
      injection h with _ h
      exact h ▸ List.suffix_rfl

theorem starved_behind {d : Decoded} (s : List UInt8)
    (h : d = { pend := [], ending := .starved }) : d.Behind s := by
  rw [h]
  constructor
  · intro x hx
    exact absurd hx List.not_mem_nil
  · intro rest h
    cases h
  · intro e rest h
    cases h

theorem decode_behind (inEsc : Bool) (held : List UInt8) (digest : δ) (s : List UInt8) :
    (decode inEsc held digest s).Behind s := by
  match s with
  | a :: b :: c :: d :: rest =>
      have hrest : rest <:+ a :: b :: c :: d :: rest := ⟨[a, b, c, d], rfl⟩
      have ih := fun (inEsc : Bool) (held : List UInt8) (digest : δ) =>
        (decode_behind inEsc held digest rest).mono hrest
      rw [decode]
      split
      · split
        · exact (ih _ _ _).prepend hrest
        · split
          · exact (decodeFooter_behind held digest b c d rest).mono hrest
          · constructor
            · intro x hx
              exact absurd hx List.not_mem_nil
            · intro rest' h
              cases h
            · intro e rest' h
              injection h with _ h
              exact h ▸ hrest
      · split
        · exact ih _ _ _
        · exact (ih _ _ _).prepend hrest
  | [] => exact starved_behind _ (decode_short inEsc held digest (by simp))
  | [_] => exact starved_behind _ (decode_short inEsc held digest (by simp))
  | [_, _] => exact starved_behind _ (decode_short inEsc held digest (by simp))
  | [_, _, _] => exact starved_behind _ (decode_short inEsc held digest (by simp))

theorem decode_last {s : List UInt8} {inEsc : Bool} {held : List UInt8} {digest : δ}
    {rest : List UInt8} (h : (decode inEsc held digest s).ending = .success rest)
    {x : UInt8 × List UInt8} (hx : (decode inEsc held digest s).pend.getLast? = some x) :
    x.2 = rest := by
  match s with
  | a :: b :: c :: d :: tail =>
      have hprepend : forall digest' : δ,
          ((decode false [a, b, c, d] digest' tail).prepend held tail).ending =
            .success rest ->
          ((decode false [a, b, c, d] digest' tail).prepend held tail).pend.getLast? =
            some x -> x.2 = rest := by
        intro digest' hending hlast
        have hne : (decode false [a, b, c, d] digest' tail).pend ≠ [] := by
          apply decode_pend_ne_nil rfl
          change (decode false [a, b, c, d] digest' tail).ending = _ at hending
          rw [hending]
          rfl
        have hlast' : (decode false [a, b, c, d] digest' tail).pend.getLast? = some x := by
          rw [← hlast]
          exact (List.getLast?_append_of_ne_nil _ hne).symm
        exact decode_last hending hlast'
      rw [decode] at h hx
      split at h
      · next hesc =>
          rw [if_pos hesc] at hx
          split at h
          · next hgroup =>
              rw [if_pos hgroup] at hx
              exact hprepend _ h hx
          · next hgroup =>
              rw [if_neg hgroup] at hx
              split at h
              · next hfoot =>
                  rw [if_pos hfoot] at hx
                  unfold decodeFooter at h hx
                  split at h
                  · next hok =>
                      rw [if_pos hok] at hx
                      injection h with hrest
                      rcases List.mem_map.mp (List.mem_of_getLast? hx) with ⟨y, _, rfl⟩
                      exact hrest
                  · cases h
              · cases h
      · next hesc =>
          rw [if_neg hesc] at hx
          split at h
          · next hgroup =>
              rw [if_pos hgroup] at hx
              exact decode_last h hx
          · next hgroup =>
              rw [if_neg hgroup] at hx
              exact hprepend _ h hx
  | [] => cases h
  | [_] => cases h
  | [_, _] => cases h
  | [_, _, _] => cases h

end

theorem Feed.advance_all_unread {δ : Type} [Digest δ] {s rest : List UInt8}
    (h : (decodeFrame δ s).ending = .success rest) {n : Nat} (hn : n ≠ 0)
    (hlen : n = (decodeFrame δ s).pend.length) :
    (((decodeFrame δ s).feed s).advance n).unread = rest := by
  have htake : ((decodeFrame δ s).feed s).pend.take n = (decodeFrame δ s).pend :=
    List.take_of_length_le (Nat.le_of_eq hlen.symm)
  rw [Feed.advance_pos hn]
  unfold Feed.unreadAfter
  rw [htake, List.getLast?_map]
  cases hlast : (decodeFrame δ s).pend.getLast? with
  | none =>
      rw [List.getLast?_eq_none_iff] at hlast
      rw [hlast] at hlen
      exact absurd hlen hn
  | some x => exact decode_last h hlast

end Frame
end Sml
end Smartmeter
