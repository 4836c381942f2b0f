import Smartmeter.Firmware.MessageCallback
import Smartmeter.Sml.Crc
import Smartmeter.Sml.Simulation

/-!
# The C interface

`sml_init` puts the task into a context, and `sml_poll` polls it.  The
bytes come from a C function that writes as many as there are and says so; none
at all means that the task has to be polled again later.
-/

namespace Smartmeter
namespace Firmware
namespace Capi

open Foundation
open Sml
open Io (AsyncRead BoundedSource ByteSource Pieces)

/-- The C function that reads: its result, the bytes it wrote, and its next state. -/
class ReadFn (κ : Type) where
  call : κ -> Nat -> UInt32 × List UInt8 × κ

structure Reader (κ : Type) where
  function : κ

instance {κ : Type} [ReadFn κ] : AsyncRead (Reader κ) where
  pollRead me buf :=
    match ReadFn.call me.function buf with
    | (ret, bytes, function) =>
        if ret ≠ 0 then
          some (.ready (.error (.nativeUnsigned ret)), { function := function })
        else if bytes.length > 0 then
          some (.ready (.ok bytes), { function := function })
        else some (.pending, { function := function })

/-- A C function that writes at most `max_length` bytes. -/
class BoundedReadFn (κ : Type) extends ReadFn κ where
  bounded : forall function maxLength, (call function maxLength).2.1.length ≤ maxLength

instance {κ : Type} [BoundedReadFn κ] : BoundedSource (Reader κ) where
  returns me n _ := by
    have hbounded := BoundedReadFn.bounded me.function n
    by_cases hret : (ReadFn.call me.function n).1 ≠ 0
    · exact ⟨_, _, if_pos hret, Nat.zero_le n⟩
    · by_cases hsome : (ReadFn.call me.function n).2.1.length > 0
      · exact ⟨_, _, (if_neg hret).trans (if_pos hsome), hbounded⟩
      · exact ⟨_, _, (if_neg hret).trans (if_neg hsome), Nat.zero_le n⟩

instance : ReadFn Pieces where
  call me maxLength := (0, me.take maxLength)

theorem pollRead_pieces (me : Pieces) (n : Nat) :
    AsyncRead.pollRead (Reader.mk me) n =
      (AsyncRead.pollRead me n).map fun x => (x.1, Reader.mk x.2) := by
  change (if (0 : UInt32) ≠ 0 then _ else
    if (me.take n).1.length > 0 then
      some (Poll.ready (Except.ok (me.take n).1), Reader.mk (me.take n).2)
    else some (Poll.pending, Reader.mk (me.take n).2)) = _
  rw [if_neg (not_not_intro rfl), Pieces.pollRead_eq]
  by_cases hempty : (me.take n).1 = []
  · rw [if_pos hempty, hempty]
    rfl
  · rw [if_neg hempty, if_pos (List.length_pos_iff.mpr hempty)]
    rfl

instance : ByteSource (Reader Pieces) where
  unread me := ByteSource.unread me.function
  patience me := ByteSource.patience me.function
  answers me n hn := by
    rcases ByteSource.answers me.function n hn with ⟨ans, r', hpoll, hans⟩
    refine ⟨ans, { function := r' }, ?_, hans⟩
    change AsyncRead.pollRead (Reader.mk me.function) n = _
    rw [pollRead_pieces, hpoll]
    rfl

/-!
## The context
-/

abbrev Context (δ κ : Type) [Machine] [Digest δ] [ByteSource (Reader κ)] : Type :=
  Standing (taskDriver (ρ := Reader κ) (δ := δ) (ω := CallbackData))
    (Except Error Unit × MessageCallback)

section

variable {δ κ : Type} [Machine] [Digest δ] [ByteSource (Reader κ)]

def smlInit (function : κ) : Context δ κ :=
  .waiting (.fresh (task MessageCallback.callback MessageCallback.new))
    (World.new { function := function })

/--
`sml_poll`: 1 when the task has ended and 0 while it is pending.  A task
that has ended cannot be polled again.
-/
def smlPoll : Context δ κ -> Option UInt32 × Context δ κ
  | .waiting t w =>
      match t.poll w with
      | .finished res w => (some 1, .finished res w)
      | .waiting t w => (some 0, .waiting t w)
      | .hung w => (none, .hung w)
  | .finished _ w => (none, .hung w)
  | .hung w => (none, .hung w)

def smlPolls : Nat -> Context δ κ -> Context δ κ
  | 0, context => context
  | n + 1, context => smlPolls n (smlPoll context).2

theorem smlPolls_hung (n : Nat) (w : World (Reader κ) δ CallbackData) :
    smlPolls n (.hung w : Context δ κ) = .hung w := by
  induction n with
  | zero => rfl
  | succ n ih => exact ih

theorem smlPoll_waiting (t : Task (taskDriver (ρ := Reader κ) (δ := δ))
    (Except Error Unit × MessageCallback)) (w : World (Reader κ) δ CallbackData) :
    (smlPoll (.waiting t w)).2 = (Standing.waiting t w).poll := by
  change (match t.poll w with
    | .finished res w => (some 1, .finished res w)
    | .waiting t w => (some 0, .waiting t w)
    | .hung w => (none, .hung w) : Option UInt32 × Context δ κ).2 = t.poll w
  cases t.poll w <;> rfl

theorem smlPoll_pending {context context' : Context δ κ}
    (h : smlPoll context = (some 0, context')) :
    context.isWaiting = true ∧ exists t w, context' = .waiting t w ∧
      context.poll = .waiting t w := by
  cases context with
  | finished res w => cases h
  | hung w => cases h
  | waiting t w =>
      have hpoll := smlPoll_waiting t w
      rw [h] at hpoll
      change context' = _ at hpoll
      rw [← hpoll]
      refine ⟨rfl, ?_⟩
      change (match t.poll w with
        | .finished res w => (some 1, .finished res w)
        | .waiting t w => (some 0, .waiting t w)
        | .hung w => (none, .hung w) : Option UInt32 × Context δ κ) = _ at h
      cases hstanding : t.poll w with
      | waiting t' w' =>
          rw [hstanding] at h
          injection h with _ hcontext
          exact ⟨t', w', hcontext.symm, hcontext.symm⟩
      | finished res w' =>
          rw [hstanding] at h
          injection h with hres
          exact absurd hres (by decide)
      | hung w' =>
          rw [hstanding] at h
          injection h with hres
          cases hres

theorem polls_of_smlPolls {n : Nat} {context : Context δ κ}
    {t : Task (taskDriver (ρ := Reader κ) (δ := δ)) (Except Error Unit × MessageCallback)}
    {w : World (Reader κ) δ CallbackData} (h : smlPolls n context = .waiting t w) :
    context.polls n = .waiting t w := by
  induction n generalizing context with
  | zero => exact h
  | succ n ih =>
      have hung : forall w', smlPolls n (.hung w' : Context δ κ) ≠ .waiting t w := by
        intro w' h'
        rw [smlPolls_hung] at h'
        cases h'
      change smlPolls n (smlPoll context).2 = .waiting t w at h
      cases context with
      | finished res w' => exact absurd h (hung w')
      | hung w' => exact absurd h (hung w')
      | waiting t' w' =>
          rw [smlPoll_waiting] at h
          exact ih h

end

/-!
## Chunks

The calls that were made when the input is used up and the task is pending do
not depend on how the input was cut, nor on how often the task was polled.
-/

section

variable {δ : Type} [Machine] [Digest δ]

theorem smlPoll_chunk_independent {pieces pieces' : List (List UInt8)} {n n' : Nat}
    {t t' : Task (taskDriver (ρ := Reader Pieces) (δ := δ))
      (Except Error Unit × MessageCallback)}
    {w w' : World (Reader Pieces) δ CallbackData}
    (hsame : pieces.flatten = pieces'.flatten)
    (h : smlPolls (n + 1) (smlInit (Pieces.mk pieces)) = .waiting t w)
    (h' : smlPolls (n' + 1) (smlInit (Pieces.mk pieces')) = .waiting t' w')
    (hdrained : w.unread = []) (hdrained' : w'.unread = []) :
    w.log = w'.log ∧ w.taken = w'.taken := by
  have hview : forall (pieces : List (List UInt8)) (n : Nat) (t : _)
      (w : World (Reader Pieces) δ CallbackData),
      smlPolls (n + 1) (smlInit (Pieces.mk pieces)) = .waiting t w -> w.unread = [] ->
      (task MessageCallback.callback MessageCallback.new).run Stream.handler
        (Stream.new pieces.flatten) = .blocked w.view := by
    intro pieces n t w h hdrained
    have hpolls := polls_of_smlPolls h
    exact World.patient.shows_of_drained
      (x := .waiting (.fresh (task MessageCallback.callback MessageCallback.new))
        (World.new { function := Pieces.mk pieces })) trivial hpolls hdrained
  have heq := hview pieces n t w h hdrained
  rw [hsame, hview pieces' n' t' w' h' hdrained'] at heq
  injection heq with heq
  exact ⟨(congrArg Stream.log heq).symm, (congrArg Stream.taken heq).symm⟩

end

/-- A frame that ends in its second group, in one piece and in pieces with pauses between. -/
theorem smlPoll_chunk_independent_frame :
    letI := Machine.word32 32 (Nat.le_refl 32)
    let whole := Pieces.mk
      [[0x1B, 0x1B, 0x1B, 0x1B, 0x01, 0x01, 0x01, 0x01, 0x1B, 0x1B, 0x1B, 0x1B, 0, 0, 0, 0]]
    let cut := Pieces.mk
      [[0x1B, 0x1B, 0x1B], [], [0x1B, 0x01, 0x01, 0x01, 0x01, 0x1B, 0x1B], [],
        [0x1B, 0x1B, 0, 0, 0, 0]]
    (smlPolls (0 + 1) (smlInit (δ := Crc) whole)).state.log =
      (smlPolls (2 + 1) (smlInit (δ := Crc) cut)).state.log := by
  intro whole cut
  let := Machine.word32 32 (Nat.le_refl 32)
  have hwhole : (smlPolls (0 + 1) (smlInit (δ := Crc) whole)).isWaiting = true ∧
      (smlPolls (0 + 1) (smlInit (δ := Crc) whole)).state.unread = [] := by decide +kernel
  have hcut : (smlPolls (2 + 1) (smlInit (δ := Crc) cut)).isWaiting = true ∧
      (smlPolls (2 + 1) (smlInit (δ := Crc) cut)).state.unread = [] := by decide +kernel
  rcases Standing.eq_waiting hwhole.1 with ⟨t, ht⟩
  rcases Standing.eq_waiting hcut.1 with ⟨t', ht'⟩
  have hsame : whole.pieces.flatten = cut.pieces.flatten := rfl
  exact (smlPoll_chunk_independent hsame ht ht' hwhole.2 hcut.2).1

end Capi
end Firmware
end Smartmeter
