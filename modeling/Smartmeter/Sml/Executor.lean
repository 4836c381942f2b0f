import Smartmeter.Sml.Task
import Smartmeter.Sml.Message
import Smartmeter.Sml.Frame.Delivery

/-!
# Executing the task

A poll of the task polls the future it waits for.  The futures that read go to
the source itself or, through the two readers of a frame, to its messages; all
other operations are done at once.  An observer writes down the calls that are
made and what was read when they are made.
-/

namespace Smartmeter
namespace Sml

open Foundation
open Io (AsyncRead ByteSource ReadExact ReadU8 answerBytes)

inductive Mark (ω : Type) where
  | call (e : Event ω)
  | finalize (crcCalc : UInt16)
  | reset
deriving DecidableEq

/--
A mark, with the bytes of the source that were not taken and the bytes of the
frame that were taken by then.
-/
structure Entry (ω : Type) where
  mark : Mark ω
  unread : List UInt8
  taken : List UInt8
deriving DecidableEq

/-- The source itself, or the readers of a frame in front of it. -/
inductive Line (ρ δ : Type) where
  | source (reader : ρ)
  | frame (reader : Message.CheckingReader (Frame.CheckingReader ρ δ) δ)

namespace Line

variable {ρ δ : Type}

def reader : Line ρ δ -> ρ
  | .source reader => reader
  | .frame messages => messages.inner.reader

variable [Digest δ]

def hasEnded : Line ρ δ -> Bool
  | .source _ => true
  | .frame messages => messages.inner.hasEnded

def finalize : Line ρ δ -> UInt16 × Line ρ δ
  | .source reader => (Digest.finalize (Digest.digest : δ), .source reader)
  | .frame messages => (messages.finalize.1, .frame messages.finalize.2)

def reset : Line ρ δ -> Line ρ δ
  | .source reader => .source reader
  | .frame messages => .frame messages.reset

instance [Machine] [AsyncRead ρ] : AsyncRead (Line ρ δ) where
  pollRead
    | .source reader, _ => some (.ready (.ok []), .source reader)
    | .frame messages, buf =>
        match AsyncRead.pollRead messages buf with
        | none => none
        | some (ans, messages) => some (ans, .frame messages)

end Line

structure World (ρ δ ω : Type) where
  line : Line ρ δ
  taken : List UInt8
  log : List (Entry ω)

namespace World

variable {ρ δ ω : Type}

def new (reader : ρ) : World ρ δ ω :=
  { line := .source reader, taken := [], log := [] }

instance [Digest δ] [Machine] [AsyncRead ρ] : AsyncRead (World ρ δ ω) where
  pollRead w buf :=
    match AsyncRead.pollRead w.line buf with
    | none => none
    | some (ans, line) =>
        some (ans, { w with line := line, taken := w.taken ++ answerBytes ans })

section

variable [ByteSource ρ]

def unread (w : World ρ δ ω) : List UInt8 := ByteSource.unread w.line.reader

def observe (mark : Mark ω) (w : World ρ δ ω) : World ρ δ ω :=
  { w with log := w.log ++ [{ mark := mark, unread := w.unread, taken := w.taken }] }

variable [Digest δ]

def newFrame (w : World ρ δ ω) : World ρ δ ω :=
  { w with
    line := .frame (Message.CheckingReader.new
      (Frame.CheckingReader.new w.line.reader))
    taken := [] }

def finalize (w : World ρ δ ω) : UInt16 × World ρ δ ω :=
  let (crcCalc, line) := w.line.finalize
  (crcCalc, { w with line := line }.observe (.finalize crcCalc))

def reset (w : World ρ δ ω) : World ρ δ ω :=
  { w with line := w.line.reset }.observe .reset

end

end World

section

variable {ρ δ ω : Type}

@[reducible] def TaskFut : TaskOp ω -> Type
  | .readU8 => ReadU8
  | .read .u8 => ReadU8
  | .read (.exact _) => ReadExact
  | _ => Unit

variable [Digest δ] [Machine] [ByteSource ρ]

def taskDriver : Driver (TaskSig ω) (World ρ δ ω) where
  Fut := TaskFut
  start
    | .readU8 => ReadU8.new
    | .read .u8 => ReadU8.new
    | .read (.exact n) => ReadExact.new n
    | .newFrame => ()
    | .hasEnded => ()
    | .finalize => ()
    | .reset => ()
    | .call _ => ()
  poll {o} :=
    match o with
    | .readU8 => fun fut w =>
        match ReadU8.poll fut w.line.reader with
        | none => none
        | some (ans, fut, reader) => some (ans, fut, { w with line := .source reader })
    | .read .u8 => fun fut w => ReadU8.poll fut w
    | .read (.exact _) => fun fut w => ReadExact.poll fut w
    | .newFrame => fun _ w => some (.ready (), (), w.newFrame)
    | .hasEnded => fun _ w => some (.ready w.line.hasEnded, (), w)
    | .finalize => fun _ w => some (.ready w.finalize.1, (), w.finalize.2)
    | .reset => fun _ w => some (.ready (), (), w.reset)
    | .call e => fun _ w => some (.ready (), (), w.observe (.call e))

end

end Sml
end Smartmeter
