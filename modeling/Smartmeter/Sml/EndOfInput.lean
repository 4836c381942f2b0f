import Smartmeter.Sml.Frame.Starved
import Smartmeter.Sml.Simulation

/-!
# The end of the input

The task on a source that reports its end, next to the task on the same source
with a pause in place of the end.  They do the same until the end is met: there
the one that pauses waits, and the other one ends with an error, or a poll of it
does not return.
-/

namespace Smartmeter
namespace Sml

open Foundation
open Frame (Lockstep)
open Io (AsyncRead ByteSource FiniteSource Paused ReadExact ReadU8)

/-!
## Executing the task unobserved
-/

section

variable {ρ δ ω : Type} [Digest δ] [Machine] [AsyncRead ρ]

/-- How the operations of the task are polled when nobody writes down what is done. -/
def lineDriver : Driver (TaskSig ω) (Line ρ δ) where
  Fut := TaskFut
  start
    | .readU8 => ReadU8.new
    | .read .u8 => ReadU8.new
    | .read (.exact n) => ReadExact.new n
    | .newFrame => ()
    | .hasEnded => ()
    | .finalize => ()
    | .reset => ()
    | .call _ => ()
  poll {o} :=
    match o with
    | .readU8 => fun fut line =>
        match ReadU8.poll fut line.reader with
        | none => none
        | some (ans, fut, reader) => some (ans, fut, .source reader)
    | .read .u8 => fun fut line => ReadU8.poll fut line
    | .read (.exact _) => fun fut line => ReadExact.poll fut line
    | .newFrame => fun _ line =>
        some (.ready (), (), .frame (Message.CheckingReader.new
          (Frame.CheckingReader.new line.reader)))
    | .hasEnded => fun _ line => some (.ready line.hasEnded, (), line)
    | .finalize => fun _ line => some (.ready line.finalize.1, (), line.finalize.2)
    | .reset => fun _ line => some (.ready (), (), line.reset)
    | .call _ => fun _ line => some (.ready (), (), line)

end

/-!
## Answers to a poll
-/

namespace Line

variable {ρ δ : Type}

def pause : Line ρ δ -> Line (Paused ρ) δ
  | .source reader => .source { reader := reader }
  | .frame messages => .frame { inner := messages.inner.pause, digest := messages.digest }

theorem pause_reader (line : Line ρ δ) : line.pause.reader = { reader := line.reader } := by
  cases line <;> rfl

def patience [FiniteSource ρ] (line : Line ρ δ) : Nat := FiniteSource.patience line.reader

end Line

section

variable {ρ δ ω : Type} [Digest δ] [FiniteSource ρ]

def SameLine (line : Line ρ δ) (w : World (Paused ρ) δ ω) : Prop := w.line = line.pause

def FrameAtEnd (w : World (Paused ρ) δ ω) : Prop :=
  (exists messages, w.line = .frame messages) ∧ w.unread = []

variable [Machine]

omit [FiniteSource ρ] in
theorem Line.pollRead_frame [AsyncRead ρ] {inner inner' : Frame.CheckingReader ρ δ} (digest : δ)
    {buf : Nat} {ans : Poll (Except Io.Error (List UInt8))}
    (h : AsyncRead.pollRead inner buf = some (ans, inner')) :
    AsyncRead.pollRead (Line.frame { inner := inner, digest := digest }) buf =
      some (ans, .frame
        { inner := inner', digest := Digest.update digest (Io.answerBytes ans) }) := by
  have hmessages := Message.CheckingReader.pollRead_eq digest h
  simp only [AsyncRead.pollRead] at hmessages ⊢
  simp only [hmessages]

omit [FiniteSource ρ] in
theorem Line.pollRead_frame_none [AsyncRead ρ] {inner : Frame.CheckingReader ρ δ} (digest : δ)
    {buf : Nat} (h : AsyncRead.pollRead inner buf = none) :
    AsyncRead.pollRead (Line.frame { inner := inner, digest := digest }) buf = none := by
  simp only [AsyncRead.pollRead] at h ⊢
  simp only [h]

omit [FiniteSource ρ] in
theorem World.pollRead_of [AsyncRead ρ] {line line' : Line ρ δ} (taken : List UInt8)
    (log : List (Entry ω)) {buf : Nat} {ans : Poll (Except Io.Error (List UInt8))}
    (h : AsyncRead.pollRead line buf = some (ans, line')) :
    AsyncRead.pollRead (World.mk line taken log) buf =
      some (ans, World.mk line' (taken ++ Io.answerBytes ans) log) := by
  simp only [AsyncRead.pollRead] at h ⊢
  simp only [h]

omit [FiniteSource ρ] in
theorem World.pollRead_of_none [AsyncRead ρ] {line : Line ρ δ} (taken : List UInt8)
    (log : List (Entry ω)) {buf : Nat} (h : AsyncRead.pollRead line buf = none) :
    AsyncRead.pollRead (World.mk line taken log) buf = none := by
  simp only [AsyncRead.pollRead] at h ⊢
  simp only [h]

theorem line_lockstep {buf : Nat} (hbuf : buf ≠ 0) {line : Line ρ δ}
    {w : World (Paused ρ) δ ω} (hsame : SameLine line w) (hinv : w.Inv) :
    Lockstep SameLine Line.patience FrameAtEnd line (AsyncRead.pollRead line buf)
      (AsyncRead.pollRead w buf) := by
  rcases w with ⟨line', taken, log⟩
  change line' = line.pause at hsame
  subst hsame
  cases line with
  | source reader =>
      refine .answers (.ready (Except.ok [])) rfl (Nat.le_refl _) ?_
      intro h
      cases h
  | frame messages =>
      rcases messages with ⟨inner, digest⟩
      have hlockstep := Frame.CheckingReader.pollLoop_lockstep hbuf Machine.fuel inner
        hinv
      change Lockstep _ _ _ _ _ (AsyncRead.pollRead
        (World.mk (.frame { inner := inner.pause, digest := digest }) taken log) buf)
      generalize hreal : Frame.CheckingReader.pollLoop Machine.fuel inner buf = x at hlockstep
      generalize hpaused : Frame.CheckingReader.pollLoop Machine.fuel inner.pause buf = y
        at hlockstep
      cases hlockstep with
      | answers ans same le less =>
          rw [Line.pollRead_frame digest hreal,
            World.pollRead_of taken log (Line.pollRead_frame digest hpaused)]
          refine .answers ans ?_ le less
          rw [same]
          rfl
      | hangs atEnd =>
          rw [Line.pollRead_frame_none digest hreal,
            World.pollRead_of taken log (Line.pollRead_frame digest hpaused)]
          exact .hangs ⟨⟨_, rfl⟩, atEnd⟩
      | stuck =>
          rw [Line.pollRead_frame_none digest hreal,
            World.pollRead_of_none taken log (Line.pollRead_frame_none digest hpaused)]
          exact .stuck

/-!
## Futures
-/

def SameFut {Fut : Type} (x : Fut × Line ρ δ) (y : Fut × World (Paused ρ) δ ω) : Prop :=
  y.1 = x.1 ∧ SameLine x.2 y.2

abbrev FutLockstep {Fut α : Type} (fut : Fut) (line : Line ρ δ) :
    Option (Poll α × Fut × Line ρ δ) -> Option (Poll α × Fut × World (Paused ρ) δ ω) -> Prop :=
  Lockstep SameFut (fun x => x.2.patience) (fun y => FrameAtEnd y.2) (fut, line)

theorem readU8_lockstep (fut : ReadU8) (hread : fut.read = 0) {line : Line ρ δ}
    {w : World (Paused ρ) δ ω} (hsame : SameLine line w) (hinv : w.Inv) :
    FutLockstep fut line (ReadU8.poll fut line) (ReadU8.poll fut w) := by
  unfold ReadU8.poll
  rw [if_neg (by lia), if_neg (by lia), hread]
  have hlockstep := line_lockstep Nat.one_ne_zero hsame hinv
  generalize hreal : AsyncRead.pollRead line 1 = x at hlockstep
  generalize hpaused : AsyncRead.pollRead w 1 = y at hlockstep
  cases hlockstep with
  | hangs atEnd => exact .hangs atEnd
  | stuck => exact .stuck
  | answers ans same le less =>
      have hanswers : forall (r : Except Io.Error UInt8) (fut' : ReadU8),
          FutLockstep fut line (some (.ready r, fut', _)) (some (.ready r, fut', _)) :=
        fun r fut' => .answers (.ready r) ⟨rfl, same⟩ le fun h => by cases h
      cases ans with
      | pending => exact .answers .pending ⟨rfl, same⟩ le fun _ => less rfl
      | ready res =>
          cases res with
          | error e => exact hanswers _ _
          | ok bytes =>
              cases bytes with
              | nil => exact hanswers _ _
              | cons b bytes => exact hanswers _ _

theorem readExact_lockstep (iters : Nat) (fut : ReadExact) {line : Line ρ δ}
    {w : World (Paused ρ) δ ω} (hsame : SameLine line w) (hinv : w.Inv) :
    FutLockstep fut line (ReadExact.pollLoop iters fut line) (ReadExact.pollLoop iters fut w) := by
  induction iters generalizing fut line w with
  | zero =>
      unfold ReadExact.pollLoop
      by_cases hbuf : fut.buf = 0
      · rw [if_pos hbuf, if_pos hbuf]
        exact .answers (.ready (Except.ok fut.filled)) ⟨rfl, hsame⟩ (Nat.le_refl _)
          fun h => by cases h
      · rw [if_neg hbuf, if_neg hbuf]
        exact .stuck
  | succ iters ih =>
      unfold ReadExact.pollLoop
      by_cases hbuf : fut.buf = 0
      · rw [if_pos hbuf, if_pos hbuf]
        exact .answers (.ready (Except.ok fut.filled)) ⟨rfl, hsame⟩ (Nat.le_refl _)
          fun h => by cases h
      · rw [if_neg hbuf, if_neg hbuf]
        have hlockstep := line_lockstep hbuf hsame hinv
        rcases World.pollRead_polled hbuf hinv with ⟨ans, w', hpoll, hpolled⟩
        rw [hpoll] at hlockstep ⊢
        generalize hreal : AsyncRead.pollRead line fut.buf = x at hlockstep
        cases hlockstep with
        | hangs atEnd => exact .hangs atEnd
        | answers ans same le less =>
            cases ans with
            | pending => exact .answers .pending ⟨rfl, same⟩ le fun _ => less rfl
            | ready res =>
                cases res with
                | error e =>
                    exact .answers (.ready (Except.error e)) ⟨rfl, same⟩ le fun h => by cases h
                | ok bytes =>
                    dsimp only
                    by_cases hlong : fut.buf < bytes.length
                    · rw [if_pos hlong, if_pos hlong]
                      exact .stuck
                    · rw [if_neg hlong, if_neg hlong]
                      by_cases hnil : bytes = []
                      · rw [if_pos hnil, if_pos hnil]
                        exact .answers (.ready (Except.error Io.Error.unexpectedEof))
                          ⟨rfl, same⟩ le fun h => by cases h
                      · rw [if_neg hnil, if_neg hnil]
                        exact (ih _ same hpolled.inv).of_le le

/-!
## Operations
-/

def SourceAtEnd (w : World (Paused ρ) δ ω) : Prop :=
  (exists reader, w.line = .source reader) ∧ w.unread = []

inductive OpLockstep (line : Line ρ δ) : (o : TaskOp ω) ->
    Option (Poll ((TaskSig ω).Resp o) × TaskFut o × Line ρ δ) ->
    Option (Poll ((TaskSig ω).Resp o) × TaskFut o × World (Paused ρ) δ ω) -> Prop where
  | answers {o : TaskOp ω} (ans : Poll ((TaskSig ω).Resp o)) (fut : TaskFut o)
      {line' : Line ρ δ} {w : World (Paused ρ) δ ω} (same : SameLine line' w)
      (le : line'.patience ≤ line.patience)
      (less : ans = .pending -> line'.patience < line.patience) :
      OpLockstep line o (some (ans, fut, line')) (some (ans, fut, w))
  | hangs {o : TaskOp ω} {fut : TaskFut o} {w : World (Paused ρ) δ ω} (atEnd : FrameAtEnd w) :
      OpLockstep line o none (some (.pending, fut, w))
  | stuck {o : TaskOp ω} : OpLockstep line o none none
  | ends {fut fut' : ReadU8} {line' : Line ρ δ} {w : World (Paused ρ) δ ω}
      (atEnd : SourceAtEnd w) :
      OpLockstep line .readU8 (some (.ready (.error .unexpectedEof), fut, line'))
        (some (.pending, fut', w))

omit [Digest δ] [Machine] in
theorem OpLockstep.of_fut {line : Line ρ δ} {o : TaskOp ω} {fut : TaskFut o}
    {x : Option (Poll ((TaskSig ω).Resp o) × TaskFut o × Line ρ δ)}
    {y : Option (Poll ((TaskSig ω).Resp o) × TaskFut o × World (Paused ρ) δ ω)}
    (h : FutLockstep fut line x y) : OpLockstep line o x y := by
  cases h with
  | @answers ans s' t' same le less =>
      rcases s' with ⟨fut', line'⟩
      rcases t' with ⟨fut'', w⟩
      rcases same with ⟨rfl, same⟩
      exact .answers ans _ same le less
  | @hangs t' atEnd =>
      rcases t' with ⟨fut', w⟩
      exact .hangs atEnd
  | stuck => exact .stuck

theorem sourceU8_lockstep (fut : ReadU8) (hread : fut.read = 0) {line : Line ρ δ}
    {w : World (Paused ρ) δ ω} (hsame : SameLine line w) :
    OpLockstep line .readU8
      ((lineDriver (ω := ω) (δ := δ)).poll (o := .readU8) fut line)
      ((taskDriver (δ := δ)).poll (o := .readU8) fut w) := by
  have hreader : w.line.reader = { reader := line.reader } := by
    rw [hsame, Line.pause_reader]
  unfold lineDriver taskDriver ReadU8.poll
  dsimp only
  rw [hreader, if_neg (by lia), if_neg (by lia), hread]
  rcases FiniteSource.answers line.reader 1 Nat.one_pos with ⟨ans, reader, hpoll, hans⟩
  rw [hpoll, Paused.pollRead_of hpoll]
  have hsame' : SameLine (Line.source reader : Line ρ δ) (w.giveBack { reader := reader }) := rfl
  cases ans with
  | pending =>
      exact .answers (o := .readU8) .pending fut hsame' (Nat.le_of_lt hans.2) fun _ => hans.2
  | ready res =>
      cases res with
      | error e => exact hans.elim
      | ok bytes =>
          rcases hans with ⟨_, hunread, hpatience, hend⟩
          cases bytes with
          | nil =>
              rw [(hend rfl).1] at hunread
              exact .ends ⟨⟨_, rfl⟩, hunread.symm⟩
          | cons b bytes =>
              exact .answers (o := .readU8) (.ready (Except.ok b)) _ hsame' hpatience
                fun h => by cases h

theorem op_lockstep {o : TaskOp ω} (fut : TaskFut o) {line : Line ρ δ}
    {w : World (Paused ρ) δ ω} (hsame : SameLine line w) (hinv : w.Inv)
    (hfut : World.FutInv fut) :
    OpLockstep line o ((lineDriver (δ := δ)).poll fut line) ((taskDriver (δ := δ)).poll fut w) := by
  have hready : forall (r : (TaskSig ω).Resp o) (fut : TaskFut o) {line' : Line ρ δ}
      {w' : World (Paused ρ) δ ω}, SameLine line' w' -> line'.patience = line.patience ->
      OpLockstep line o (some (.ready r, fut, line')) (some (.ready r, fut, w')) :=
    fun r fut _ _ same heq => .answers (.ready r) fut same (Nat.le_of_eq heq) fun h => by cases h
  have hreader : w.line.reader = { reader := line.reader } := by
    rw [hsame, Line.pause_reader]
  cases o with
  | readU8 => exact sourceU8_lockstep fut hfut hsame
  | read o =>
      cases o with
      | u8 => exact .of_fut (readU8_lockstep fut hfut hsame hinv)
      | exact n => exact .of_fut (readExact_lockstep fut.buf fut hsame hinv)
  | newFrame =>
      refine hready () () ?_ rfl
      change Line.frame (Message.CheckingReader.new (Frame.CheckingReader.new w.line.reader)) = _
      rw [hreader]
      rfl
  | hasEnded =>
      have hended : w.line.hasEnded = line.hasEnded := by
        rw [hsame]
        cases line <;> rfl
      change OpLockstep line .hasEnded (some (.ready line.hasEnded, _))
        (some (.ready w.line.hasEnded, _))
      rw [hended]
      exact hready _ () hsame rfl
  | finalize =>
      have hfinalize : w.finalize.1 = line.finalize.1 ∧
          w.finalize.2.line = line.finalize.2.pause := by
        rcases w with ⟨line', taken, log⟩
        change line' = line.pause at hsame
        subst hsame
        cases line <;> exact ⟨rfl, rfl⟩
      change OpLockstep line .finalize (some (.ready line.finalize.1, _))
        (some (.ready w.finalize.1, _))
      rw [hfinalize.1]
      refine hready _ () hfinalize.2 ?_
      cases line <;> rfl
  | reset =>
      have hreset : w.reset.line = line.reset.pause := by
        rcases w with ⟨line', taken, log⟩
        change line' = line.pause at hsame
        subst hsame
        cases line <;> rfl
      refine hready () () hreset ?_
      cases line <;> rfl
  | call e => exact hready () () hsame rfl

end

end Sml
end Smartmeter
