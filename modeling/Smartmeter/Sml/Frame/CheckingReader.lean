import Smartmeter.Foundation.Machine
import Smartmeter.Io

/-!
# The frame reader

`frame::CheckingReader` removes the framing from a byte source: it decodes
the escape sequences, checks the checksum of the frame and removes its footer.
It reads groups of four bytes and holds one of them back, because the footer
says how many bytes of the last group are padding.
-/

namespace Smartmeter
namespace Sml
namespace Frame

open Foundation
open Io (AsyncRead)

/-!
## Buffers
-/

structure Buffer where
  data : List UInt8
deriving DecidableEq, Repr

namespace Buffer

def new : Buffer := { data := [] }

def len (_ : Buffer) : Nat := 4

def read (b : Buffer) : Nat := b.data.length

def setRead (b : Buffer) (read : Nat) : Buffer := { data := b.data.take read }

def addRead (b : Buffer) (bytes : List UInt8) : Buffer :=
  { data := b.data ++ bytes }

def subRead (b : Buffer) (read : Nat) : Buffer :=
  { data := b.data.take (b.data.length - read) }

def dataFilled (b : Buffer) : List UInt8 := b.data

end Buffer

structure BufferList where
  buffer0 : Buffer
  buffer1 : Buffer
  buffersSwapped : Bool
deriving DecidableEq, Repr

namespace BufferList

def index (l : BufferList) (i : Nat) : Nat :=
  if l.buffersSwapped then (i % 2) ^^^ 1 else i % 2

def get (l : BufferList) (i : Nat) : Buffer :=
  if l.index i = 0 then l.buffer0 else l.buffer1

def modify (l : BufferList) (i : Nat) (f : Buffer -> Buffer) : BufferList :=
  if l.index i = 0 then { l with buffer0 := f l.buffer0 }
  else { l with buffer1 := f l.buffer1 }

def swapBuffers (l : BufferList) : BufferList :=
  { l with buffersSwapped := !l.buffersSwapped }

end BufferList

/-!
## The reader
-/

inductive ReaderState where
  | readBuf
  | returnBuf (returned : Nat) (lastone : Bool)
  | ended
deriving DecidableEq, Repr

structure CheckingReader (ρ δ : Type) where
  reader : ρ
  state : ReaderState
  inEsc : Bool
  bufferlist : BufferList
  digest : δ

def escape : List UInt8 := [0x1B, 0x1B, 0x1B, 0x1B]

def startMarker : List UInt8 := [0x1B, 0x1B, 0x1B, 0x1B, 0x01, 0x01, 0x01, 0x01]

def fromBeBytes (hi lo : UInt8) : UInt16 :=
  UInt16.ofNat (256 * hi.toNat + lo.toNat)

def swapBytes (x : UInt16) : UInt16 :=
  UInt16.ofNat (256 * (x.toNat % 256) + x.toNat / 256)

namespace CheckingReader

variable {ρ δ : Type} [Digest δ]

def new (reader : ρ) : CheckingReader ρ δ :=
  { reader := reader
    state := .readBuf
    inEsc := false
    bufferlist :=
      { buffer0 := Buffer.new, buffer1 := Buffer.new, buffersSwapped := false }
    digest := Digest.update Digest.digest startMarker }

def hasEnded (me : CheckingReader ρ δ) : Bool :=
  me.state = .ended

/-- How one iteration of the loop in `poll_read` ends. -/
inductive Iteration (ρ δ : Type) : Type where
  | continue (me : CheckingReader ρ δ)
  | answer (ans : Poll (Except Io.Error (List UInt8))) (me : CheckingReader ρ δ)

/-- Give back the buffer that became the first one, unless it is empty. -/
def returnHeldBack (me : CheckingReader ρ δ) : CheckingReader ρ δ :=
  if (me.bufferlist.get 0).read > 0 then
    { me with state := .returnBuf 0 false }
  else me

def footer (me : CheckingReader ρ δ) (num c0 c1 : UInt8) : Iteration ρ δ :=
  let crcRec := swapBytes (fromBeBytes c0 c1)
  let crcCalc := Digest.finalize (Digest.update me.digest [0x1A, num])
  let me := { me with
    bufferlist := me.bufferlist.modify 0 (·.setRead 0)
    digest := Digest.digest }
  if crcRec ≠ crcCalc then
    .answer (.ready (.error .unknown)) { me with state := .ended }
  else
    let me := { me with bufferlist := me.bufferlist.swapBuffers }
    if num > 3 then
      .answer (.ready (.error .unknown)) { me with state := .ended }
    else if (me.bufferlist.get 0).read < num.toNat then
      .answer (.ready (.error .unknown)) { me with state := .ended }
    else
      .continue { me with
        bufferlist := me.bufferlist.modify 0 (·.subRead num.toNat)
        state := .returnBuf 0 true }

def escaped (me : CheckingReader ρ δ) : Iteration ρ δ :=
  let group := (me.bufferlist.get 0).dataFilled
  if group = escape then
    .continue <| returnHeldBack { me with
      inEsc := false
      digest := Digest.update me.digest group
      bufferlist := me.bufferlist.swapBuffers }
  else
    match group with
    | [0x1A, num, c0, c1] => footer me num c0 c1
    | _ => .answer (.ready (.error .unimplemented)) { me with state := .ended }

/-- A group outside of an escape sequence is complete. -/
def plain (me : CheckingReader ρ δ) : Iteration ρ δ :=
  let group := (me.bufferlist.get 0).dataFilled
  let me := { me with digest := Digest.update me.digest group }
  if group = escape then
    .continue { me with
      bufferlist := me.bufferlist.modify 0 (·.setRead 0)
      inEsc := true }
  else
    .continue (returnHeldBack { me with bufferlist := me.bufferlist.swapBuffers })

def received (me : CheckingReader ρ δ) (bytes : List UInt8) : Iteration ρ δ :=
  let me := { me with bufferlist := me.bufferlist.modify 0 (·.addRead bytes) }
  if (me.bufferlist.get 0).read < (me.bufferlist.get 0).len then .continue me
  else if me.inEsc then escaped me
  else plain me

/-- Hand out bytes of the first buffer, or leave the state when none is left. -/
def returnBytes (me : CheckingReader ρ δ) (returned : Nat) (lastone : Bool)
    (buf : Nat) : Iteration ρ δ :=
  let source := (me.bufferlist.get 0).dataFilled
  if returned < source.length then
    let copysize := min buf (source.length - returned)
    let returned' := returned + copysize
    let me :=
      if lastone && returned' == source.length then
        { me with
          bufferlist := me.bufferlist.modify 0 (·.setRead 0)
          state := .ended }
      else { me with state := .returnBuf returned' lastone }
    .answer (.ready (.ok ((source.drop returned).take copysize))) me
  else
    .continue { me with
      bufferlist := me.bufferlist.modify 0 (·.setRead 0)
      state := if lastone then .ended else .readBuf }

def iteration [AsyncRead ρ] (me : CheckingReader ρ δ) (buf : Nat) :
    Option (Iteration ρ δ) :=
  match me.state with
  | .readBuf =>
      let buffer := me.bufferlist.get 0
      match AsyncRead.pollRead me.reader (buffer.len - buffer.read) with
      | none => none
      | some (.pending, reader) =>
          some (.answer .pending { me with reader := reader })
      | some (.ready (.error e), reader) =>
          some (.answer (.ready (.error e))
            { me with reader := reader, state := .ended })
      | some (.ready (.ok bytes), reader) =>
          some (received { me with reader := reader } bytes)
  | .returnBuf returned lastone => some (returnBytes me returned lastone buf)
  | .ended => some (.answer (.ready (.ok [])) me)

def pollLoop [AsyncRead ρ] : Nat -> CheckingReader ρ δ -> Nat ->
    Option (Poll (Except Io.Error (List UInt8)) × CheckingReader ρ δ)
  | 0, _, _ => none
  | n + 1, me, buf =>
      match iteration me buf with
      | none => none
      | some (.answer ans me) => some (ans, me)
      | some (.continue me) => pollLoop n me buf

instance [Machine] [AsyncRead ρ] : AsyncRead (CheckingReader ρ δ) where
  pollRead := pollLoop Machine.fuel

end CheckingReader

end Frame
end Sml
end Smartmeter
