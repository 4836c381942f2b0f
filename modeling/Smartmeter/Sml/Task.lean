import Smartmeter.Sml.Types
import Smartmeter.Sml.Frame.CheckingReader

/-!
# The task

`task` waits for the start marker, reads a frame and tells the callback
how it went, forever.  The operations are those on the readers; the calls of the
callback are operations too, so that they show in what a run has done.
-/

namespace Smartmeter
namespace Sml

open Foundation
open Tlv (Handle Ops Reader Reading)

/-!
## Callbacks
-/

/--
The callbacks for received messages: a state, the program that reads the body of
a message, and what is passed on to the outside when a frame is finished.
-/
structure Callback (σ ω : Type) where
  frameStart : σ -> σ
  messageReceived : σ -> Tlv.Read .list (Except Error Unit × σ)
  frameFinished : Bool -> σ -> σ × List ω

def Callback.idle : Callback Unit Empty where
  frameStart s := s
  messageReceived s := .done (.ok (), s)
  frameFinished _ s := (s, [])

inductive Event (ω : Type) where
  | frameStart
  | messageReceived
  | frameFinished (valid : Bool)
  | function (data : ω)
deriving DecidableEq

/-!
## Operations
-/

inductive TaskOp (ω : Type) where
  | readU8
  | newFrame
  | hasEnded
  | finalize
  | reset
  | read (o : ReadOp)
  | call (e : Event ω)

/--
`readU8` reads the source itself and `read` reads the messages of the
frame; `newFrame` puts the readers of a frame in front of the source.
-/
@[reducible] def TaskSig (ω : Type) : Sig where
  Op := TaskOp ω
  Resp
    | .readU8 => Except Io.Error UInt8
    | .newFrame => Unit
    | .hasEnded => Bool
    | .finalize => UInt16
    | .reset => Unit
    | .read o => Ops.Resp o
    | .call _ => Unit

section

variable {σ τ ω α : Type}

def perform (o : TaskOp ω) : Act (TaskSig ω) Error τ ((TaskSig ω).Resp o) :=
  fun t => .op o fun r => .ret (.ok r, t)

def onMessages (p : Act Ops Error τ α) : Act (TaskSig ω) Error τ α :=
  fun t => (p t).embed TaskOp.read fun _ r => r

def readU8 : Act (TaskSig ω) Error τ UInt8 :=
  fun t => .op .readU8 fun r => .ret (r.mapError Error.io, t)

/-!
## `wait_for_start_sequence`
-/

/-- The next state of the automaton, which is the number of matched bytes. -/
def startSequenceStep (count : Nat) (byte : UInt8) : Nat :=
  if (count < 4 ∧ byte = 0x1B) ∨ (4 ≤ count ∧ byte = 0x01) then count + 1
  else if count = 4 ∧ byte = 0x1B then count
  else 0

def startSequenceLoop (count : Nat) : Act (TaskSig ω) Error τ (Nat ⊕ Unit) := do
  if count < 8 then
    let byte ← readU8
    pure (.inl (startSequenceStep count byte))
  else pure (.inr ())

def waitForStartSequence [Machine] : Act (TaskSig ω) Error τ Unit :=
  Act.iterate Machine.fuel startSequenceLoop 0

/-!
## `read_frame`
-/

variable [Machine]

def onList (p : Act Ops Error Handle α) : Act (TaskSig ω) Error (Handle × σ) α :=
  Act.borrow Prod.fst (fun h t => (h, t.2)) (onMessages p)

def reading (p : Reading .list α) : Act Ops Error Handle α :=
  fun self => Tlv.Read.run p self

def withList (len : Nat) (body : Act (TaskSig ω) Error (Handle × σ) α) :
    Act (TaskSig ω) Error (Reader × σ) α :=
  Act.borrow (fun t => ({ reader := t.1, len := len }, t.2))
    (fun h _ => (h.1.drop .list, h.2)) body

def withReader (body : Act (TaskSig ω) Error (Reader × σ) α) :
    Act (TaskSig ω) Error (Handle × σ) α :=
  Act.borrow (fun t => (t.1.reader, t.2))
    (fun r t => ({ t.1 with reader := r.1 }, r.2)) body

def messageReceived (cb : Callback σ ω) : Act (TaskSig ω) Error (Handle × σ) Unit := do
  perform (.call .messageReceived)
  fun t =>
    ((Tlv.Read.run (cb.messageReceived t.2) t.1).embed TaskOp.read fun _ r => r).bind
      fun ((res, s), h) => .ret (res, (h, s))

def messageBody (cb : Callback σ ω) : Act (TaskSig ω) Error (Handle × σ) Unit := do
  let len ← onList (Tlv.List.nextVariant .list)
  withReader <| withList len do
    if len ≠ 2 then Act.fail (.unsupportedLen len)
    else messageReceived cb

def message (cb : Callback σ ω) : Act (TaskSig ω) Error (Handle × σ) Unit := do
  onList (reading (Types.Message.transactionId (pure ())))
  let _ ← onList (reading Types.Message.groupNo)
  let _ ← onList (reading Types.Message.abortOnError)
  messageBody cb
  -- read in skipped data and calculate the CRC
  onList (Handle.withReader Reader.skipNow)
  let crcCalc ← perform .finalize
  let crcRec ← onList (reading Types.Message.crc16)
  onList (reading Types.Message.endOfSmlMsg)
  if Frame.swapBytes (UInt16.ofNat crcRec) ≠ crcCalc then
    Act.fail (.checksumMismatch (UInt16.ofNat crcRec) crcCalc)

def readFrameLoop (cb : Callback σ ω) (_ : Unit) :
    Act (TaskSig ω) Error (Reader × σ) (Unit ⊕ Unit) := do
  if ← perform .hasEnded then pure (.inr ())
  else
    let len ← Act.borrow Prod.fst (fun r t => (r, t.2)) (onMessages Reader.readList)
    withList len (message cb)
    perform .reset
    pure (.inl ())

def readFrame (cb : Callback σ ω) : Act (TaskSig ω) Error σ Unit := do
  perform .newFrame
  Act.borrow (fun s => (Reader.new, s)) (fun t _ => t.2)
    (Act.iterate Machine.fuel (readFrameLoop cb) ())

/-!
## `task`
-/

/-- Tell the outside what a finished frame is passed on as. -/
def callFunction : List ω -> Act (TaskSig ω) Error τ Unit
  | [] => pure ()
  | data :: rest => do
      perform (.call (.function data))
      callFunction rest

def frameFinished (cb : Callback σ ω) (valid : Bool) : Act (TaskSig ω) Error σ Unit := do
  perform (.call (.frameFinished valid))
  let (s, data) ← Act.gets (cb.frameFinished valid)
  Act.modify fun _ => s
  callFunction data

def taskLoop (cb : Callback σ ω) (_ : Unit) : Act (TaskSig ω) Error σ (Unit ⊕ Unit) := do
  waitForStartSequence
  perform (.call .frameStart)
  Act.modify cb.frameStart
  match ← Act.attempt (readFrame cb) with
  | .ok () => frameFinished cb true
  | .error _ => frameFinished cb false
  pure (.inl ())

def task (cb : Callback σ ω) : Act (TaskSig ω) Error σ Unit :=
  Act.iterate Machine.fuel (taskLoop cb) ()

end

end Sml
end Smartmeter
