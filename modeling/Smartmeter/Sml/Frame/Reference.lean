import Smartmeter.Sml.Crc
import Smartmeter.Sml.Frame.Delivery
import Mathlib.Tactic.Choose

/-!
# The frame reader and the plain decoder

The plain decoder takes a whole byte string, without buffers, escape flag or
group held back.  Repeated polling of the frame reader delivers what it says,
however the source cuts the bytes and whatever room the caller offers.
-/

namespace Smartmeter
namespace Sml
namespace Frame

open Foundation
open Io (AsyncRead ByteSource answerBytes)

/-!
## The plain decoder
-/

/-- What the plain decoder makes of a byte string, and the bytes it did not inspect. -/
inductive Ref where
  | success (payload rest : List UInt8)
  | failure (groups : List (List UInt8)) (rest : List UInt8)
  | incomplete
deriving DecidableEq

section

variable (δ : Type) [Digest δ]

/--
The end of a frame with the data `groups`: `seen` are the bytes
between the start marker and `1A num c0 c1`.
-/
def refEnd (seen : List UInt8) (groups : List (List UInt8)) (num c0 c1 : UInt8)
    (rest : List UInt8) : Ref :=
  if (Digest.checksum δ (startMarker ++ seen ++ [0x1A, num])).toNat =
        c0.toNat + 256 * c1.toNat ∧
      num.toNat ≤ 3 ∧ (num.toNat = 0 ∨ groups ≠ []) then
    .success (groups.flatten.take (groups.flatten.length - num.toNat)) rest
  else .failure groups rest

def refFrom (seen : List UInt8) (groups : List (List UInt8)) : List UInt8 -> Ref
  | a :: b :: c :: d :: rest =>
      let group := [a, b, c, d]
      if group ≠ escape then refFrom (seen ++ group) (groups ++ [group]) rest else
      match rest with
      | a' :: b' :: c' :: d' :: rest' =>
          if [a', b', c', d'] = escape then
            refFrom (seen ++ escape ++ escape) (groups ++ [escape]) rest'
          else if a' = 0x1A then refEnd δ (seen ++ escape) groups b' c' d' rest'
          else .failure groups rest'
      | _ => .incomplete
  | _ => .incomplete

variable {δ} in
theorem refFrom_data {seen group : List UInt8} {groups : List (List UInt8)}
    (rest : List UInt8) (hlen : group.length = 4) (hne : group ≠ escape) :
    refFrom δ seen groups (group ++ rest) =
      refFrom δ (seen ++ group) (groups ++ [group]) rest := by
  match group, hlen with
  | [a, b, c, d], _ =>
      change refFrom δ seen groups (a :: b :: c :: d :: rest) = _
      conv => lhs; unfold refFrom
      exact if_pos hne

variable {δ} in
theorem refFrom_escape {seen : List UInt8} {groups : List (List UInt8)}
    (a b c d : UInt8) (rest : List UInt8) :
    refFrom δ seen groups (escape ++ a :: b :: c :: d :: rest) =
      if [a, b, c, d] = escape then
        refFrom δ (seen ++ escape ++ escape) (groups ++ [escape]) rest
      else if a = 0x1A then refEnd δ (seen ++ escape) groups b c d rest
      else .failure groups rest := by
  change refFrom δ seen groups (0x1B :: 0x1B :: 0x1B :: 0x1B :: a :: b :: c :: d :: rest) = _
  conv => lhs; unfold refFrom
  exact if_neg (not_not_intro rfl)

/-- The plain decoder on the bytes behind the start marker. -/
def ref (s : List UInt8) : Ref := refFrom δ [] [] s

end

section

variable {δ : Type} [Digest δ]

/-- The decoder that holds a group back agrees with the plain decoder. -/
def Decoded.Meets (d : Decoded) (before : List UInt8) : Ref -> Prop
  | .success payload rest =>
      before ++ d.pend.map Prod.fst = payload ∧ d.ending = .success rest
  | .failure groups rest =>
      before ++ d.pend.map Prod.fst = groups.dropLast.flatten ∧
        exists e, d.ending = .failure e rest
  | .incomplete => d.ending = .starved

theorem Decoded.Meets.prepend {d : Decoded} {before held rest : List UInt8} {r : Ref}
    (h : d.Meets (before ++ held) r) : (d.prepend held rest).Meets before r := by
  have hbytes : before ++ (d.prepend held rest).pend.map Prod.fst =
      before ++ held ++ d.pend.map Prod.fst := by
    have hheld : (held.map fun b => (b, rest)).map Prod.fst = held := by
      rw [List.map_map]
      exact List.map_id held
    rw [Decoded.prepend, List.map_append, hheld, List.append_assoc]
  cases r with
  | success payload rest' => exact ⟨hbytes.trans h.1, h.2⟩
  | failure groups rest' => exact ⟨hbytes.trans h.1, h.2⟩
  | incomplete => exact h

def heldBack (groups : List (List UInt8)) : List UInt8 := groups.getLast?.getD []

theorem dropLast_flatten_heldBack (groups : List (List UInt8)) :
    groups.dropLast.flatten ++ heldBack groups = groups.flatten := by
  cases h : groups.getLast? with
  | none =>
      rw [List.getLast?_eq_none_iff] at h
      rw [h]
      rfl
  | some g =>
      rcases List.getLast?_eq_some_iff.mp h with ⟨init, hgroups⟩
      unfold heldBack
      rw [h, hgroups, List.dropLast_concat, List.flatten_append, List.flatten_singleton]
      rfl

theorem heldBack_length {groups : List (List UInt8)}
    (hlen : forall g, g ∈ groups -> g.length = 4) :
    (groups = [] ∧ heldBack groups = []) ∨
      (groups ≠ [] ∧ (heldBack groups).length = 4) := by
  cases h : groups.getLast? with
  | none =>
      left
      rw [List.getLast?_eq_none_iff] at h
      rw [h]
      exact ⟨rfl, rfl⟩
  | some g =>
      right
      constructor
      · intro hnil
        rw [hnil] at h
        cases h
      · unfold heldBack
        rw [h]
        exact hlen g (List.mem_of_getLast? h)

theorem decodeFooter_meets (seen : List UInt8) {groups : List (List UInt8)}
    (hlen : forall g, g ∈ groups -> g.length = 4) (num c0 c1 : UInt8)
    (rest : List UInt8) :
    (decodeFooter (heldBack groups)
        (Digest.update (Digest.digest : δ) (startMarker ++ seen)) num c0 c1 rest).Meets
      groups.dropLast.flatten (refEnd δ seen groups num c0 c1 rest) := by
  have hsum : Digest.finalize (Digest.update (Digest.update (Digest.digest : δ)
      (startMarker ++ seen)) [0x1A, num]) =
      Digest.checksum δ (startMarker ++ seen ++ [0x1A, num]) := by
    rw [Digest.update_append]
    rfl
  have hnum : num.toNat ≤ 3 ->
      (num.toNat ≤ (heldBack groups).length <-> num.toNat = 0 ∨ groups ≠ []) := by
    intro hthree
    rcases heldBack_length hlen with ⟨hgroups, hheld⟩ | ⟨hgroups, hheld⟩
    · rw [hheld, hgroups, List.length_nil]
      simp
    · rw [hheld]
      constructor
      · intro _
        exact Or.inr hgroups
      · intro _
        lia
  unfold decodeFooter refEnd
  rw [hsum]
  by_cases hok : (Digest.checksum δ (startMarker ++ seen ++ [0x1A, num])).toNat =
        c0.toNat + 256 * c1.toNat ∧
      num.toNat ≤ 3 ∧ (num.toNat = 0 ∨ groups ≠ [])
  · rcases hok with ⟨hcrc, hthree, hgroups⟩
    have hheld := (hnum hthree).mpr hgroups
    rw [if_pos ⟨hcrc.symm, hthree, hheld⟩, if_pos ⟨hcrc, hthree, hgroups⟩]
    constructor
    · rw [List.map_map]
      change _ ++ List.map id _ = _
      rw [List.map_id]
      have hsplit := dropLast_flatten_heldBack groups
      have hlength := congrArg List.length hsplit
      rw [List.length_append] at hlength
      have hkeep : groups.flatten.length - num.toNat =
          groups.dropLast.flatten.length + ((heldBack groups).length - num.toNat) := by
        lia
      rw [hkeep]
      conv => rhs; rw [← hsplit]
      rw [List.take_length_add_append]
    · rfl
  · have hbad : ¬ (c0.toNat + 256 * c1.toNat =
          (Digest.checksum δ (startMarker ++ seen ++ [0x1A, num])).toNat ∧
        num.toNat ≤ 3 ∧ num.toNat ≤ (heldBack groups).length) := by
      rintro ⟨hcrc, hthree, hheld⟩
      exact hok ⟨hcrc.symm, hthree, (hnum hthree).mp hheld⟩
    rw [if_neg hbad, if_neg hok]
    exact ⟨List.append_nil _, .unknown, rfl⟩

theorem heldBack_concat {groups : List (List UInt8)} {group : List UInt8}
    (hlen : forall g, g ∈ groups -> g.length = 4) (hgroup : group.length = 4) :
    (forall g, g ∈ groups ++ [group] -> g.length = 4) ∧
      (groups ++ [group]).dropLast.flatten =
        groups.dropLast.flatten ++ heldBack groups ∧
      heldBack (groups ++ [group]) = group := by
  refine ⟨?_, ?_, ?_⟩
  · intro g hg
    rcases List.mem_append.mp hg with hold | hnew
    · exact hlen g hold
    · rw [List.mem_singleton.mp hnew]
      exact hgroup
  · rw [List.dropLast_concat, dropLast_flatten_heldBack]
  · unfold heldBack
    rw [List.getLast?_concat]
    rfl

theorem update_startMarker_append (seen group : List UInt8) :
    Digest.update (Digest.update (Digest.digest : δ) (startMarker ++ seen)) group =
      Digest.update Digest.digest (startMarker ++ (seen ++ group)) := by
  rw [Digest.update_append, List.append_assoc]

theorem decode_meets (s : List UInt8) (seen : List UInt8)
    {groups : List (List UInt8)} (hlen : forall g, g ∈ groups -> g.length = 4) :
    (decode false (heldBack groups)
        (Digest.update (Digest.digest : δ) (startMarker ++ seen)) s).Meets
      groups.dropLast.flatten (refFrom δ seen groups s) := by
  match s with
  | a :: b :: c :: d :: rest =>
      have hsplit : a :: b :: c :: d :: rest = [a, b, c, d] ++ rest := rfl
      by_cases hgroup : [a, b, c, d] = escape
      · rw [hsplit, hgroup, decode_escape, update_startMarker_append]
        match rest with
        | a' :: b' :: c' :: d' :: rest' =>
            rw [refFrom_escape]
            have hsplit' : a' :: b' :: c' :: d' :: rest' = [a', b', c', d'] ++ rest' := rfl
            by_cases hgroup' : [a', b', c', d'] = escape
            · rcases heldBack_concat hlen (show escape.length = 4 from rfl) with
                ⟨hlen', hbefore, hheld⟩
              have ih := decode_meets rest' (seen ++ escape ++ escape) hlen'
              rw [hbefore, hheld] at ih
              rw [if_pos hgroup', hsplit', hgroup', decode_escaped,
                update_startMarker_append]
              exact ih.prepend
            · rw [if_neg hgroup']
              by_cases hfoot : a' = 0x1A
              · rw [if_pos hfoot, hsplit', hfoot, decode_footer]
                exact decodeFooter_meets (seen ++ escape) hlen b' c' d' rest'
              · have hother : forall num c0 c1,
                    [a', b', c', d'] ≠ [0x1A, num, c0, c1] := by
                  intro num c0 c1 heq
                  injection heq with hhead
                  exact hfoot hhead
                rw [if_neg hfoot, hsplit', decode_unknown rest' rfl hgroup' hother]
                exact ⟨List.append_nil _, .unimplemented, rfl⟩
        | [] => rfl
        | [_] => rfl
        | [_, _] => rfl
        | [_, _, _] => rfl
      · rcases heldBack_concat hlen (show [a, b, c, d].length = 4 from rfl) with
          ⟨hlen', hbefore, hheld⟩
        have ih := decode_meets rest (seen ++ [a, b, c, d]) hlen'
        rw [hbefore, hheld] at ih
        rw [hsplit, refFrom_data rest rfl hgroup, decode_data rest rfl hgroup,
          update_startMarker_append]
        exact ih.prepend
  | [] => rfl
  | [_] => rfl
  | [_, _] => rfl
  | [_, _, _] => rfl

theorem decodeFrame_meets (s : List UInt8) :
    (decodeFrame δ s).Meets [] (ref δ s) :=
  decode_meets s [] (fun _ h => absurd h List.not_mem_nil)

end

/-!
## Repeated polling
-/

def delivered (ans : Nat -> Poll (Except Io.Error (List UInt8))) : Nat -> List UInt8
  | 0 => []
  | n + 1 => delivered ans n ++ answerBytes (ans n)

/-- An answer that is not there yet, or a piece that fits the room offered. -/
def Progress (buf : Nat) (ans : Poll (Except Io.Error (List UInt8))) : Prop :=
  ans = .pending ∨
    exists bytes, ans = .ready (.ok bytes) ∧ bytes ≠ [] ∧ bytes.length ≤ buf

theorem Feed.Answer.bytes_eq {buf : Nat} {f f' : Feed}
    {ans : Poll (Except Io.Error (List UInt8))} (h : Feed.Answer buf f ans f') :
    f.bytes = answerBytes ans ++ f'.bytes := by
  cases h with
  | pending same running running' =>
      exact congrArg (List.map Prod.fst) same.1.symm
  | bytes n pos room avail =>
      rw [Feed.advance_bytes]
      exact (List.take_append_drop n f.bytes).symm
  | eof rest pend ending =>
      unfold Feed.bytes
      rw [pend]
      rfl
  | error e rest pend ending =>
      unfold Feed.bytes
      rw [pend]
      rfl

theorem Feed.Answer.success {buf : Nat} {f f' : Feed} {rest : List UInt8}
    {ans : Poll (Except Io.Error (List UInt8))} (h : Feed.Answer buf f ans f')
    (hend : f.ending = .success rest) (hended : f.ended = f.pend.isEmpty) :
    f'.ending = .success rest ∧ f'.ended = f'.pend.isEmpty := by
  cases h with
  | pending same running running' =>
      refine ⟨same.2.trans hend, ?_⟩
      rw [running', same.1, ← hended, running]
  | bytes n pos room avail =>
      rw [Feed.advance_ending, Feed.advance_pend, Feed.advance_pos pos, hend]
      exact ⟨rfl, Bool.and_true _⟩
  | eof rest' pend ending =>
      rw [hend] at ending
      injection ending with hrest
      rw [hrest]
      exact ⟨rfl, rfl⟩
  | error e rest' pend ending =>
      rw [hend] at ending
      cases ending

theorem Feed.Answer.spent {buf : Nat} {f' : Feed} {rest : List UInt8}
    {ans : Poll (Except Io.Error (List UInt8))}
    (h : Feed.Answer buf (Feed.spent rest) ans f') :
    ans = .ready (.ok []) ∧ f' = Feed.spent rest := by
  cases h with
  | pending same running running' => cases running
  | bytes n pos room avail => exact absurd (Nat.le_zero.mp avail) pos
  | eof rest' pend ending =>
      injection ending with hrest
      rw [hrest]
      exact ⟨rfl, rfl⟩
  | error e rest' pend ending => cases ending

namespace CheckingReader

variable {ρ δ : Type} [Digest δ] [ByteSource ρ]

/-- The states and answers of a new reader polled with the given room each time. -/
structure Polls [Machine] (reader : ρ) (sizes : Nat -> Nat)
    (me : Nat -> CheckingReader ρ δ)
    (ans : Nat -> Poll (Except Io.Error (List UInt8))) : Prop where
  start : me 0 = new reader
  step : forall i, AsyncRead.pollRead (me i) (sizes i) = some (ans i, me (i + 1))

section

variable [Machine] {reader : ρ} {sizes : Nat -> Nat} {me : Nat -> CheckingReader ρ δ}
  {ans : Nat -> Poll (Except Io.Error (List UInt8))}

theorem exists_polls (reader : ρ) (hsizes : forall i, 1 ≤ sizes i) :
    exists (me : Nat -> CheckingReader ρ δ) (ans : _), Polls reader sizes me ans := by
  let next (i : Nat) (x : CheckingReader ρ δ) : CheckingReader ρ δ :=
    ((AsyncRead.pollRead x (sizes i)).map Prod.snd).getD x
  let me (n : Nat) : CheckingReader ρ δ := Nat.rec (new reader) next n
  have hstep : forall n, (me n).Inv ->
      exists a, AsyncRead.pollRead (me n) (sizes n) = some (a, me (n + 1)) ∧
        (me (n + 1)).Inv := by
    intro n hinv
    rcases pollRead_polled (Nat.one_le_iff_ne_zero.mp (hsizes n)) hinv with
      ⟨a, x, hpoll, hx⟩
    have hnext : me (n + 1) = x := by
      change next n (me n) = x
      unfold next
      rw [hpoll]
      rfl
    rw [hnext]
    exact ⟨a, hpoll, hx.inv⟩
  have hinv : forall n, (me n).Inv := by
    intro n
    induction n with
    | zero => exact new_inv reader
    | succ n ih =>
        rcases hstep n ih with ⟨a, _, hnext⟩
        exact hnext
  choose ans hans using fun n => hstep n (hinv n)
  exact ⟨me, ans, rfl, fun n => (hans n).1⟩

theorem Polls.polled (h : Polls reader sizes me ans) (hsizes : forall i, 1 ≤ sizes i)
    (i : Nat) : Polled (sizes i) (me i) (ans i) (me (i + 1)) := by
  have hone : forall j, (me j).Inv ->
      Polled (sizes j) (me j) (ans j) (me (j + 1)) := by
    intro j hinv
    rcases pollRead_polled (Nat.one_le_iff_ne_zero.mp (hsizes j)) hinv with
      ⟨a, x, hpoll, hx⟩
    have heq := (h.step j).symm.trans hpoll
    injection heq with heq
    injection heq with hans hme
    rw [hans, hme]
    exact hx
  have hinv : forall j, (me j).Inv := by
    intro j
    induction j with
    | zero =>
        rw [h.start]
        exact new_inv reader
    | succ j ih => exact (hone j ih).inv
  exact hone i (hinv i)

/-- The answer of a reader that has nothing left to deliver. -/
inductive Closes : Ending -> Poll (Except Io.Error (List UInt8)) -> Feed -> Prop where
  | success (rest : List UInt8) :
      Closes (.success rest) (.ready (.ok [])) (Feed.spent rest)
  | failure (e : Io.Error) (rest : List UInt8) :
      Closes (.failure e rest) (.ready (.error e)) (Feed.spent rest)

omit [Machine] in
theorem Polled.progress_or_closes {buf : Nat} {me me' : CheckingReader ρ δ}
    {ans : Poll (Except Io.Error (List UInt8))} (h : Polled buf me ans me')
    (hend : me.feed.ending ≠ .starved) :
    (Progress buf ans ∧ me'.feed.ending = me.feed.ending ∧
        me'.patience + me'.feed.pend.length < me.patience + me.feed.pend.length) ∨
      (me.feed.pend = [] ∧ Closes me.feed.ending ans me'.feed) := by
  have hanswer := h.answer
  generalize hf : me'.feed = f' at hanswer
  cases hanswer with
  | pending same running running' =>
      left
      have hne : me'.unread ≠ [] := by
        intro hnil
        have hstarved := (h.starves rfl hnil).2
        rw [hf, same.2] at hstarved
        exact hend hstarved
      refine ⟨Or.inl rfl, same.2, ?_⟩
      rw [same.1]
      exact Nat.add_lt_add_right (h.waits rfl hne) _
  | bytes n pos room avail =>
      left
      have hlen : (me.feed.bytes.take n).length = n := by
        apply List.length_take_of_le
        rw [Feed.bytes_length]
        exact avail
      refine ⟨Or.inr ⟨_, rfl, ?_, ?_⟩, ?_, ?_⟩
      · intro hnil
        rw [hnil] at hlen
        exact pos hlen.symm
      · rw [hlen]
        exact room
      · exact Feed.advance_ending n me.feed
      · have hpatience := h.patience
        rw [Feed.advance_pend, List.length_drop]
        lia
  | eof rest pend ending =>
      right
      rw [ending]
      exact ⟨pend, .success rest⟩
  | error e rest pend ending =>
      right
      rw [ending]
      exact ⟨pend, .failure e rest⟩

theorem Polls.closes (h : Polls reader sizes me ans) (hsizes : forall i, 1 ≤ sizes i)
    (i : Nat) (hend : (me i).feed.ending ≠ .starved) :
    exists N, i ≤ N ∧ (forall j, i ≤ j -> j < N -> Progress (sizes j) (ans j)) ∧
      (me N).feed.pend = [] ∧
      Closes (me i).feed.ending (ans N) (me (N + 1)).feed := by
  generalize hm : (me i).patience + (me i).feed.pend.length = m
  induction m using Nat.strong_induction_on generalizing i with
  | _ m ih =>
      rcases (h.polled hsizes i).progress_or_closes hend with
        ⟨hprogress, hending, hlt⟩ | ⟨hpend, hcloses⟩
      · rw [hm] at hlt
        rw [← hending] at hend
        rcases ih _ hlt (i + 1) hend rfl with ⟨N, hle, hbefore, hpend, hcloses⟩
        rw [hending] at hcloses
        refine ⟨N, Nat.le_of_succ_le hle, ?_, hpend, hcloses⟩
        intro j hij hj
        by_cases heq : j = i
        · rw [heq]
          exact hprogress
        · exact hbefore j (by lia) hj
      · exact ⟨i, Nat.le_refl i, fun j hij hj => absurd hj (Nat.not_lt_of_le hij),
          hpend, hcloses⟩

theorem Polls.spent (h : Polls reader sizes me ans) (hsizes : forall i, 1 ≤ sizes i)
    {rest : List UInt8} {i : Nat} (hspent : (me i).feed = Feed.spent rest) :
    forall j, i ≤ j -> (me j).feed = Feed.spent rest ∧ ans j = .ready (.ok []) := by
  have hstep : forall j, (me j).feed = Feed.spent rest ->
      (me (j + 1)).feed = Feed.spent rest ∧ ans j = .ready (.ok []) := by
    intro j hj
    have hanswer := (h.polled hsizes j).answer
    rw [hj] at hanswer
    rcases hanswer.spent with ⟨hans, hfeed⟩
    exact ⟨hfeed, hans⟩
  intro j hij
  induction j, hij using Nat.le_induction with
  | base => exact ⟨hspent, (hstep i hspent).2⟩
  | succ j hij ih =>
      have hnext := (hstep j ih.1).1
      exact ⟨hnext, (hstep (j + 1) hnext).2⟩

theorem Polls.delivered_append (h : Polls reader sizes me ans)
    (hsizes : forall i, 1 ≤ sizes i) (n : Nat) :
    delivered ans n ++ (me n).feed.bytes = (me 0).feed.bytes := by
  induction n with
  | zero => rfl
  | succ n ih =>
      rw [← ih, (h.polled hsizes n).answer.bytes_eq, ← List.append_assoc]
      rfl

theorem Polls.success (h : Polls reader sizes me ans) (hsizes : forall i, 1 ≤ sizes i)
    {rest : List UInt8} (hend : (me 0).feed.ending = .success rest)
    (hpend : (me 0).feed.pend ≠ []) (n : Nat) :
    (me n).feed.ending = .success rest ∧
      (me n).feed.ended = (me n).feed.pend.isEmpty := by
  induction n with
  | zero =>
      refine ⟨hend, ?_⟩
      rw [List.isEmpty_eq_false_iff.mpr hpend, h.start, new_feed]
      rfl
  | succ n ih => exact (h.polled hsizes n).answer.success ih.1 ih.2

theorem Polls.hasEnded (h : Polls reader sizes me ans) (hsizes : forall i, 1 ≤ sizes i)
    {rest : List UInt8} (hend : (me 0).feed.ending = .success rest)
    (hpend : (me 0).feed.pend ≠ []) (n : Nat) :
    ((me n).hasEnded = true <-> delivered ans n = (me 0).feed.bytes) ∧
      ((me n).hasEnded = true -> (me n).unread = rest) := by
  rcases h.success hsizes hend hpend n with ⟨hending, hended⟩
  have hsplit := h.delivered_append hsizes n
  constructor
  · rw [hasEnded_eq, hended, List.isEmpty_iff]
    constructor
    · intro hnil
      have hbytes : (me n).feed.bytes = [] := congrArg (List.map Prod.fst) hnil
      rw [hbytes, List.append_nil] at hsplit
      exact hsplit
    · intro hdelivered
      rw [hdelivered] at hsplit
      have hbytes : (me n).feed.bytes = [] := List.append_right_eq_self.mp hsplit
      exact List.map_eq_nil_iff.mp hbytes
  · intro hstate
    have hstate' : (me n).state = .ended := of_decide_eq_true hstate
    rw [feed_ended _ hstate'] at hending
    injection hending

end

/-!
The reader against the plain decoder: the payload piece by piece and then
nothing more; on a failure all data groups but the last one, then one error,
then nothing more.  Either way it takes from the source what the plain decoder
inspects.
-/

theorem pollRead_refines_ref [Machine] (reader : ρ) (sizes : Nat -> Nat)
    (hsizes : forall i, 1 ≤ sizes i) :
    exists (me : Nat -> CheckingReader ρ δ) (ans : _), Polls reader sizes me ans ∧
      match ref δ (ByteSource.unread reader) with
      | .success payload rest =>
          exists N, (forall i, i < N -> Progress (sizes i) (ans i)) ∧
            delivered ans N = payload ∧
            (forall i, N ≤ i -> ans i = .ready (.ok [])) ∧
            (forall i, N < i -> (me i).unread = rest) ∧
            (payload ≠ [] -> forall n,
              ((me n).hasEnded = true <-> delivered ans n = payload) ∧
                ((me n).hasEnded = true -> (me n).unread = rest))
      | .failure groups rest =>
          exists N e, (forall i, i < N -> Progress (sizes i) (ans i)) ∧
            delivered ans N = groups.dropLast.flatten ∧
            ans N = .ready (.error e) ∧
            forall i, N < i -> ans i = .ready (.ok []) ∧ (me i).unread = rest
      | .incomplete => True := by
  rcases exists_polls (δ := δ) reader hsizes with ⟨me, ans, h⟩
  refine ⟨me, ans, h, ?_⟩
  have hmeets := decodeFrame_meets (δ := δ) (ByteSource.unread reader)
  have hfeed : (me 0).feed = (decodeFrame δ (ByteSource.unread reader)).feed
      (ByteSource.unread reader) := by
    rw [h.start, new_feed]
  have hunread : forall {rest : List UInt8} {n : Nat},
      (me n).feed = Feed.spent rest -> (me n).unread = rest := by
    intro rest n hn
    rw [← feed_unread, hn]
    rfl
  have hdelivered : forall N, (me N).feed.pend = [] ->
      delivered ans N = (me 0).feed.bytes := by
    intro N hpend
    have hsplit := h.delivered_append hsizes N
    have hbytes : (me N).feed.bytes = [] := congrArg (List.map Prod.fst) hpend
    rw [hbytes, List.append_nil] at hsplit
    exact hsplit
  cases href : ref δ (ByteSource.unread reader) with
  | success payload rest =>
      rw [href] at hmeets
      rcases hmeets with ⟨hbytes, hending⟩
      have hending' : (me 0).feed.ending = .success rest := by
        rw [hfeed]
        exact hending
      have hpayload : (me 0).feed.bytes = payload := by
        rw [hfeed, ← hbytes]
        rfl
      have hne : (me 0).feed.ending ≠ .starved := by
        rw [hending']
        intro heq
        cases heq
      rcases h.closes hsizes 0 hne with ⟨N, _, hbefore, hpend, hcloses⟩
      rw [hending'] at hcloses
      generalize hans : ans N = a at hcloses
      generalize hnext : (me (N + 1)).feed = f at hcloses
      cases hcloses
      have hspent := h.spent hsizes hnext
      refine ⟨N, fun i hi => hbefore i (Nat.zero_le i) hi, ?_, ?_, ?_, ?_⟩
      · exact hdelivered N hpend ▸ hpayload
      · intro i hi
        rcases Nat.eq_or_lt_of_le hi with heq | hlt
        · rw [← heq]
          exact hans
        · exact (hspent i hlt).2
      · intro i hi
        exact hunread (hspent i hi).1
      · intro hpos n
        rw [← hpayload]
        apply h.hasEnded hsizes hending'
        intro hnil
        apply hpos
        rw [← hpayload]
        exact congrArg (List.map Prod.fst) hnil
  | failure groups rest =>
      rw [href] at hmeets
      rcases hmeets with ⟨hbytes, e, hending⟩
      have hending' : (me 0).feed.ending = .failure e rest := by
        rw [hfeed]
        exact hending
      have hne : (me 0).feed.ending ≠ .starved := by
        rw [hending']
        intro heq
        cases heq
      rcases h.closes hsizes 0 hne with ⟨N, _, hbefore, hpend, hcloses⟩
      rw [hending'] at hcloses
      generalize hans : ans N = a at hcloses
      generalize hnext : (me (N + 1)).feed = f at hcloses
      cases hcloses
      have hspent := h.spent hsizes hnext
      refine ⟨N, e, fun i hi => hbefore i (Nat.zero_le i) hi, ?_, hans, ?_⟩
      · rw [hdelivered N hpend, hfeed, ← hbytes]
        rfl
      · intro i hi
        exact ⟨(hspent i hi).2, hunread (hspent i hi).1⟩
  | incomplete => trivial

/-- One group and the footer, cut in the middle of the group and read three bytes at a time. -/
theorem pollRead_refines_ref_pieces :
    letI := Machine.word32 32 (Nat.le_refl 32)
    exists (me : Nat -> CheckingReader Io.Pieces Crc) (ans : _),
      Polls (Io.Pieces.mk
        [[1, 2, 3], [], [4, 0x1B, 0x1B, 0x1B, 0x1B, 0x1A, 0, 0x0F, 0x78]]) (fun _ => 3) me ans ∧
      exists N, delivered ans N = [1, 2, 3, 4] ∧
        forall i, N ≤ i -> ans i = .ready (.ok []) := by
  have href : ref Crc (ByteSource.unread (Io.Pieces.mk
      [[1, 2, 3], [], [4, 0x1B, 0x1B, 0x1B, 0x1B, 0x1A, 0, 0x0F, 0x78]])) =
      .success [1, 2, 3, 4] [] := by decide +kernel
  have hrefines := @pollRead_refines_ref Io.Pieces Crc _ _ (Machine.word32 32 (Nat.le_refl 32))
    (Io.Pieces.mk [[1, 2, 3], [], [4, 0x1B, 0x1B, 0x1B, 0x1B, 0x1A, 0, 0x0F, 0x78]])
    (fun _ => 3) (fun _ => by decide)
  generalize ref Crc _ = r at href hrefines
  subst href
  rcases hrefines with ⟨me, ans, hpolls, N, _, hpayload, hspent, _⟩
  exact ⟨me, ans, hpolls, N, hpayload, hspent⟩

end CheckingReader

end Frame
end Sml
end Smartmeter
