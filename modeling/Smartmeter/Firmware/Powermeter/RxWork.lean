import Smartmeter.Firmware.Capi
import Smartmeter.Foundation.System
import Smartmeter.Sml.Waiting

/-!
# The UART and the parser

The interrupt puts received bytes into a ring buffer and gives a semaphore.  The
work handler takes the semaphore and lets the task read from the ring buffer
until there is nothing left.  Interrupts may arrive between any two of these
steps and between any two reads of the task.
-/

namespace Smartmeter
namespace Firmware
namespace Powermeter

open Foundation
open Io (AsyncRead ByteSource)
open Sml (Paused World taskDriver)

/-!
## What the interrupt and the work handler share
-/

structure Shared where
  ring : List UInt8
  sem : Nat
  /-- The interrupt has put its bytes and has not given the semaphore yet. -/
  between : Bool
deriving DecidableEq, Repr

/-- The steps of `UART_RX_RDY`; the bytes are those for which there was room. -/
inductive Interrupt where
  | ringBufPut (data : List UInt8)
  | semGive
deriving DecidableEq, Repr

namespace Interrupt

def data : Interrupt -> List UInt8
  | .ringBufPut data => data
  | .semGive => []

/-- An interrupt gives the semaphore before the next one puts its bytes. -/
def inOrder : Bool -> List Interrupt -> Bool
  | _, [] => true
  | between, .ringBufPut _ :: rest => !between && inOrder true rest
  | between, .semGive :: rest => between && inOrder false rest

end Interrupt

namespace Shared

def interrupt (s : Shared) : Interrupt -> Shared
  | .ringBufPut data => { s with ring := s.ring ++ data, between := true }
  | .semGive => { s with sem := min (s.sem + 1) 1, between := false }

def interrupts (s : Shared) (is : List Interrupt) : Shared := is.foldl interrupt s

theorem interrupts_ring (s : Shared) (is : List Interrupt) :
    (s.interrupts is).ring = s.ring ++ is.flatMap Interrupt.data := by
  unfold interrupts
  induction is generalizing s with
  | nil => exact (List.append_nil _).symm
  | cons i is ih =>
      rw [List.foldl_cons, ih, List.flatMap_cons, ← List.append_assoc]
      cases i with
      | ringBufPut data => rfl
      | semGive => exact congrArg (· ++ _) (List.append_nil _).symm

def ringBufGet (s : Shared) (size : Nat) : List UInt8 × Shared :=
  (s.ring.take size, { s with ring := s.ring.drop size })

end Shared

/-!
## The read callback
-/

/-- What is shared, and the interrupts that arrive before each of the next reads. -/
structure RxLine where
  shared : Shared
  interrupts : List (List Interrupt)
deriving DecidableEq, Repr

namespace RxLine

def arrive (l : RxLine) : Shared := l.shared.interrupts (l.interrupts.headD [])

instance : Capi.ReadFn RxLine where
  call l maxLength :=
    let (bytes, shared) := l.arrive.ringBufGet maxLength
    (0, bytes, { shared := shared, interrupts := l.interrupts.tail })

def after (l : RxLine) (n : Nat) : RxLine :=
  { shared := (l.arrive.ringBufGet n).2, interrupts := l.interrupts.tail }

theorem pollRead_eq (l : RxLine) (n : Nat) :
    AsyncRead.pollRead (Capi.Reader.mk l) n =
      if l.arrive.ring.take n = [] then some (.pending, ⟨l.after n⟩)
      else some (.ready (.ok (l.arrive.ring.take n)), ⟨l.after n⟩) := by
  change (if (0 : UInt32) ≠ 0 then _ else
    if (l.arrive.ring.take n).length > 0 then
      some (Poll.ready (Except.ok (l.arrive.ring.take n)), Capi.Reader.mk (l.after n))
    else some (Poll.pending, Capi.Reader.mk (l.after n))) = _
  rw [if_neg (not_not_intro rfl)]
  by_cases hempty : l.arrive.ring.take n = []
  · rw [if_pos hempty, hempty]
    rfl
  · rw [if_neg hempty, if_pos (List.length_pos_iff.mpr hempty)]

def unread (l : RxLine) : List UInt8 :=
  l.shared.ring ++ l.interrupts.flatMap fun is => is.flatMap Interrupt.data

theorem unread_arrive (l : RxLine) :
    l.unread = l.arrive.ring ++ l.interrupts.tail.flatMap fun is => is.flatMap Interrupt.data := by
  rcases l with ⟨shared, interrupts⟩
  unfold arrive unread
  cases interrupts with
  | nil => rfl
  | cons is rest =>
      rw [Shared.interrupts_ring]
      change shared.ring ++ (is :: rest).flatMap _ = shared.ring ++ is.flatMap _ ++ rest.flatMap _
      rw [List.flatMap_cons, List.append_assoc]

theorem unread_after (l : RxLine) (n : Nat) :
    l.unread = l.arrive.ring.take n ++ (l.after n).unread := by
  rw [unread_arrive]
  change _ = l.arrive.ring.take n ++ (l.arrive.ring.drop n ++ l.interrupts.tail.flatMap _)
  rw [← List.append_assoc, List.take_append_drop]

instance : ByteSource (Capi.Reader RxLine) where
  unread me := me.function.unread
  patience me := me.function.interrupts.length
  answers me n hn := by
    rcases me with ⟨l⟩
    have hunread := l.unread_after n
    have htail : (l.after n).interrupts.length ≤ l.interrupts.length := by
      change l.interrupts.tail.length ≤ _
      rw [List.length_tail]
      exact Nat.sub_le _ _
    rw [pollRead_eq]
    by_cases hempty : l.arrive.ring.take n = []
    · rw [if_pos hempty]
      refine ⟨.pending, _, rfl, ?_, htail, ?_⟩
      · rw [hempty] at hunread
        exact hunread.symm
      · intro hne
        change l.interrupts.tail.length < l.interrupts.length
        rw [List.length_tail]
        apply Nat.sub_one_lt
        intro hnil
        rw [List.length_eq_zero_iff] at hnil
        rw [List.take_eq_nil_iff] at hempty
        rcases hempty with hzero | hring
        · exact absurd hzero (Nat.ne_of_gt hn)
        · change l.unread ≠ [] at hne
          rw [unread_arrive, hring, hnil] at hne
          exact hne rfl
    · rw [if_neg hempty]
      exact ⟨.ready (.ok _), _, rfl, hempty, List.length_take_le _ _, hunread, htail⟩

theorem paused : Paused fun me : Capi.Reader RxLine => me.function.shared.ring = [] := by
  rintro ⟨l⟩ n r' hn h
  rw [pollRead_eq] at h
  by_cases hempty : l.arrive.ring.take n = []
  · rw [if_pos hempty] at h
    cases h
    rw [List.take_eq_nil_iff] at hempty
    rcases hempty with hzero | hring
    · exact absurd hzero (Nat.ne_of_gt hn)
    · change l.arrive.ring.drop n = []
      rw [hring, List.drop_nil]
  · rw [if_neg hempty] at h
    cases h

end RxLine

/-!
## The work handler
-/

inductive Handler where
  | submitted
  | started
  | taken
  | resubmitting
deriving DecidableEq, Repr

/-- What is shared, and the parser as the last `sml_poll` has left it. -/
structure RxState (δ : Type) [Machine] [Digest δ] where
  shared : Shared
  handler : Handler
  smlctx : Capi.Context δ RxLine

inductive RxStep where
  | interrupt (i : Interrupt)
  /-- The semaphore is available, so the submitted work is run. -/
  | start
  | semTake
  | smlPoll (interrupts : List (List Interrupt))
  | resubmit
deriving DecidableEq, Repr

def rxInit : Shared := { ring := [], sem := 0, between := false }

section

variable {δ : Type} [Machine] [Digest δ]

def withLine (line : Sml.Line (Capi.Reader RxLine) δ) (l : RxLine) :
    Sml.Line (Capi.Reader RxLine) δ :=
  match line with
  | .source _ => .source ⟨l⟩
  | .frame messages =>
      .frame { messages with inner := { messages.inner with reader := ⟨l⟩ } }

def connect (smlctx : Capi.Context δ RxLine) (l : RxLine) : Capi.Context δ RxLine :=
  match smlctx with
  | .waiting t w => .waiting t { w with line := withLine w.line l }
  | .finished a w => .finished a w
  | .hung w => .hung w

def lineOf (smlctx : Capi.Context δ RxLine) : RxLine := smlctx.state.line.reader.function

namespace RxState

/-- `app_setup_uart` calls the handler itself once. -/
def setup : RxState δ where
  shared := rxInit
  handler := .started
  smlctx := Capi.smlInit { shared := rxInit, interrupts := [] }

/-- What an `sml_poll` that does not fail leaves when all interrupts have arrived. -/
def polled (x : Option UInt32 × Capi.Context δ RxLine) : Option (RxState δ) :=
  if x.1 = some 0 ∧ (lineOf x.2).interrupts = [] then
    some { shared := (lineOf x.2).shared, handler := .resubmitting, smlctx := x.2 }
  else none

def next (s : RxState δ) : RxStep -> Option (RxState δ)
  | .interrupt i =>
      if Interrupt.inOrder s.shared.between [i] then
        some { s with shared := s.shared.interrupt i }
      else none
  | .start =>
      if s.handler = .submitted ∧ 0 < s.shared.sem then some { s with handler := .started }
      else none
  | .semTake =>
      if s.handler = .started then
        some (if s.shared.sem = 0 then { s with handler := .resubmitting }
          else { s with
            shared := { s.shared with sem := s.shared.sem - 1 }
            handler := .taken })
      else none
  | .smlPoll interrupts =>
      if s.handler = .taken ∧ Interrupt.inOrder s.shared.between interrupts.flatten then
        polled (Capi.smlPoll (connect s.smlctx { shared := s.shared, interrupts := interrupts }))
      else none
  | .resubmit =>
      if s.handler = .resubmitting then some { s with handler := .submitted } else none

end RxState

end

def rxSystem (δ : Type) [Machine] [Digest δ] : System (RxState δ) RxStep where
  init := RxState.setup
  next := RxState.next

/-!
## No wake-up is lost
-/

variable {δ : Type} [Machine] [Digest δ]

theorem connect_sound {smlctx : Capi.Context δ RxLine} (h : World.agrees.Sound smlctx)
    (l : RxLine) : World.agrees.Sound (connect smlctx l) := by
  have hinv : forall w : World (Capi.Reader RxLine) δ CallbackData, w.Inv ->
      ({ w with line := withLine w.line l } : World _ δ _).Inv := by
    rintro ⟨line, taken, log⟩ hw
    cases line with
    | source reader => trivial
    | frame messages => exact hw
  cases smlctx with
  | waiting t w =>
      cases t with
      | fresh p => exact hinv w h
      | await f k => exact ⟨hinv w h.1, h.2⟩
  | finished a w => exact h
  | hung w => exact h

theorem smlPoll_drains {smlctx smlctx' : Capi.Context δ RxLine}
    (hsound : World.agrees.Sound smlctx) (h : Capi.smlPoll smlctx = (some 0, smlctx')) :
    World.agrees.Sound smlctx' ∧ (lineOf smlctx').shared.ring = [] := by
  rcases Capi.smlPoll_pending h with ⟨hwaiting, t, w, hctx, hpoll⟩
  rw [hctx]
  constructor
  · rw [← hpoll]
    exact (World.agrees.poll_sound hsound).1
  · exact World.waiting_paused RxLine.paused hsound hwaiting hpoll

/-- Bytes are accompanied by the semaphore, by an interrupt, or by the work handler. -/
structure RxState.Awake (s : RxState δ) : Prop where
  sound : World.agrees.Sound s.smlctx
  ring : s.shared.ring ≠ [] ->
    0 < s.shared.sem ∨ s.shared.between = true ∨ s.handler = .taken

namespace RxState.Awake

theorem setup : (RxState.setup : RxState δ).Awake where
  sound := trivial
  ring h := absurd rfl h

theorem next {s s' : RxState δ} {a : RxStep} (h : s.Awake) (hstep : s.next a = some s') :
    s'.Awake := by
  cases a with
  | interrupt i =>
      rcases Option.ite_none_right_eq_some.mp hstep with ⟨_, hstep⟩
      cases hstep
      cases i with
      | ringBufPut data => exact ⟨h.sound, fun _ => .inr (.inl rfl)⟩
      | semGive => exact ⟨h.sound, fun _ => .inl (by change 0 < min (s.shared.sem + 1) 1; lia)⟩
  | start =>
      rcases Option.ite_none_right_eq_some.mp hstep with ⟨⟨_, hsem⟩, hstep⟩
      cases hstep
      exact ⟨h.sound, fun _ => .inl hsem⟩
  | semTake =>
      rcases Option.ite_none_right_eq_some.mp hstep with ⟨hhandler, hstep⟩
      injection hstep with hstep
      subst hstep
      by_cases hzero : s.shared.sem = 0
      · rw [if_pos hzero]
        refine ⟨h.sound, fun hring => ?_⟩
        rcases h.ring hring with hsem | hbetween | htaken
        · exact absurd hzero (Nat.ne_of_gt hsem)
        · exact .inr (.inl hbetween)
        · rw [hhandler] at htaken
          cases htaken
      · rw [if_neg hzero]
        exact ⟨h.sound, fun _ => .inr (.inr rfl)⟩
  | smlPoll interrupts =>
      change (if _ ∧ _ then polled (Capi.smlPoll (connect s.smlctx _)) else none) =
        some s' at hstep
      rcases Option.ite_none_right_eq_some.mp hstep with ⟨_, hpolled⟩
      rcases hpoll : Capi.smlPoll (connect s.smlctx
        { shared := s.shared, interrupts := interrupts }) with ⟨res, smlctx⟩
      rw [hpoll] at hpolled
      rcases Option.ite_none_right_eq_some.mp hpolled with ⟨⟨hres, _⟩, heq⟩
      cases heq
      change res = some 0 at hres
      rw [hres] at hpoll
      rcases smlPoll_drains (connect_sound h.sound _) hpoll with ⟨hsound, hring⟩
      exact ⟨hsound, fun hne => absurd hring hne⟩
  | resubmit =>
      rcases Option.ite_none_right_eq_some.mp hstep with ⟨hhandler, hstep⟩
      cases hstep
      refine ⟨h.sound, fun hring => ?_⟩
      rcases h.ring hring with hsem | hbetween | htaken
      · exact .inl hsem
      · exact .inr (.inl hbetween)
      · rw [hhandler] at htaken
        cases htaken

end RxState.Awake

theorem awake_of_run {as : List RxStep} {s : RxState δ} (run : (rxSystem δ).Run as s) :
    s.Awake :=
  run.invariant (I := fun _ s => s.Awake) RxState.Awake.setup
    fun _ _ _ _ _ h hstep => h.next hstep

/--
While the work handler waits and no interrupt is between its two steps, bytes in
the ring buffer have made the semaphore available: the work is run again.
-/
theorem no_lost_wakeup {as : List RxStep} {s : RxState δ} (run : (rxSystem δ).Run as s)
    (hhandler : s.handler = .submitted) (hbetween : s.shared.between = false)
    (hring : s.shared.ring ≠ []) :
    0 < s.shared.sem ∧ exists s', (rxSystem δ).next s .start = some s' := by
  have hsem : 0 < s.shared.sem := by
    rcases (awake_of_run run).ring hring with hsem | hput | htaken
    · exact hsem
    · rw [hbetween] at hput
      cases hput
    · rw [hhandler] at htaken
      cases htaken
  exact ⟨hsem, _, if_pos ⟨hhandler, hsem⟩⟩

/-- Two bytes arrive while the task is polled, and another one later. -/
def arrivals : List RxStep :=
  [.interrupt (.ringBufPut [0x1B]), .interrupt .semGive, .semTake,
    .smlPoll [[], [.ringBufPut [0x1B, 0x02]], [], []], .interrupt .semGive, .resubmit,
    .start, .semTake, .smlPoll [[]], .resubmit,
    .interrupt (.ringBufPut [0x1B]), .interrupt .semGive]

omit [Machine] in
theorem no_lost_wakeup_arrivals :
    letI := Machine.word32 32 (Nat.le_refl 32)
    exists s, (rxSystem Sml.Crc).Run arrivals s ∧ 0 < s.shared.sem := by
  let := Machine.word32 32 (Nat.le_refl 32)
  have hrun : ((rxSystem Sml.Crc).steps RxState.setup arrivals).any (fun s =>
      s.handler = .submitted ∧ s.shared.between = false ∧ s.shared.ring ≠ []) = true := by
    decide +kernel
  rcases (Option.any_eq_true _ _).mp hrun with ⟨s, hsteps, hstate⟩
  rcases of_decide_eq_true hstate with ⟨hhandler, hbetween, hring⟩
  have run := System.run_of_steps (M := rxSystem Sml.Crc) hsteps
  exact ⟨s, run, (no_lost_wakeup run hhandler hbetween hring).1⟩

end Powermeter
end Firmware
end Smartmeter
