import Smartmeter.Sml.Crc
import Smartmeter.Sml.Frame.Delivery

/-!
# The buffers of the frame reader

The frame reader with its two buffers as the arrays they are, and with every
slice, index, conversion and difference of `poll_read` that can panic.  A
panic is `none`, as is a poll of the source that does not return.  None of
them happens, since the buffers are always filled as the state of the reader
says; and then the reader does what the one that holds lists of bytes does.
-/

namespace Smartmeter
namespace Sml
namespace Frame

open Foundation
open Io (AsyncRead BoundedSource Pieces)

/-!
## Slices
-/

/-- `xs[i..j]`, which panics unless the range is in order and in bounds. -/
def slice {α : Type} (xs : List α) (i j : Nat) : Option (List α) :=
  if i ≤ j ∧ j ≤ xs.length then some ((xs.drop i).take (j - i)) else none

theorem slice_eq {α : Type} {xs : List α} {i j : Nat} (hij : i ≤ j) (hj : j ≤ xs.length) :
    slice xs i j = some ((xs.drop i).take (j - i)) := if_pos ⟨hij, hj⟩

def tryIntoPair : List UInt8 -> Option (UInt8 × UInt8)
  | [a, b] => some (a, b)
  | _ => none

def copyFromSlice (target source : List UInt8) : Option (List UInt8) :=
  if target.length = source.length then some source else none

namespace Sliced

/-!
## Buffers
-/

structure Buffer where
  inner : List UInt8
  inner_length : inner.length = 4
  read : Nat

namespace Buffer

def new : Buffer := { inner := [0, 0, 0, 0], inner_length := rfl, read := 0 }

def len (b : Buffer) : Nat := b.inner.length

def setRead (b : Buffer) (read : Nat) : Buffer := { b with read := read }

def addRead (b : Buffer) (read : Nat) : Buffer := { b with read := b.read + read }

def subRead (b : Buffer) (read : Nat) : Option Buffer :=
  (Usize.checkedSub b.read read).map fun read => { b with read := read }

def dataFilled (b : Buffer) : Option (List UInt8) := slice b.inner 0 b.read

def dataFreeMut (b : Buffer) : Option (List UInt8) := slice b.inner b.read b.inner.length

/-- The source has written into the slice `data_free_mut`. -/
def write (b : Buffer) (bytes : List UInt8) : Buffer where
  inner := (b.inner.take b.read ++ bytes ++ b.inner.drop (b.read + bytes.length)).take 4
  inner_length := by
    have := b.inner_length
    rw [List.length_take, List.length_append, List.length_append, List.length_take,
      List.length_drop]
    lia
  read := b.read

end Buffer

structure BufferList where
  buffer0 : Buffer
  buffer1 : Buffer
  buffersSwapped : Bool

namespace BufferList

def index (l : BufferList) (i : Nat) : Nat :=
  if l.buffersSwapped then (i % 2) ^^^ 1 else i % 2

def get (l : BufferList) (i : Nat) : Option Buffer := [l.buffer0, l.buffer1][l.index i]?

def set (l : BufferList) (i : Nat) (b : Buffer) : Option BufferList :=
  match l.index i with
  | 0 => some { l with buffer0 := b }
  | 1 => some { l with buffer1 := b }
  | _ => none

def swapBuffers (l : BufferList) : BufferList :=
  { l with buffersSwapped := !l.buffersSwapped }

end BufferList

/-!
## The reader
-/

structure CheckingReader (ρ δ : Type) where
  reader : ρ
  state : ReaderState
  inEsc : Bool
  bufferlist : BufferList
  digest : δ

namespace CheckingReader

variable {ρ δ : Type} [Digest δ]

def new (reader : ρ) : CheckingReader ρ δ :=
  { reader := reader
    state := .readBuf
    inEsc := false
    bufferlist :=
      { buffer0 := Buffer.new, buffer1 := Buffer.new, buffersSwapped := false }
    digest := Digest.update Digest.digest startMarker }

/-- How one iteration of the loop in `poll_read` ends. -/
inductive Iteration (ρ δ : Type) : Type where
  | continue (me : CheckingReader ρ δ)
  | answer (ans : Poll (Except Io.Error (List UInt8))) (me : CheckingReader ρ δ)

/-- Give back the buffer that became the first one, unless it is empty. -/
def returnHeldBack (me : CheckingReader ρ δ) : Option (Iteration ρ δ) := do
  let buffer ← me.bufferlist.get 0
  if buffer.read > 0 then
    return .continue { me with state := .returnBuf 0 false }
  else return .continue me

def footer (me : CheckingReader ρ δ) (buffer : Buffer) (other : List UInt8) :
    Option (Iteration ρ δ) := do
  let numFillbytes ← other[1]?
  let (hi, lo) ← tryIntoPair (← slice other 2 4)
  let crcRec := swapBytes (fromBeBytes hi lo)
  let crcCalc := Digest.finalize (Digest.update me.digest (← slice other 0 2))
  let bufferlist ← me.bufferlist.set 0 (buffer.setRead 0)
  let me := { me with bufferlist := bufferlist, digest := Digest.digest }
  if crcRec ≠ crcCalc then
    return .answer (.ready (.error .unknown)) { me with state := .ended }
  else
    let me := { me with bufferlist := me.bufferlist.swapBuffers }
    let buffer ← me.bufferlist.get 0
    if numFillbytes > 3 then
      return .answer (.ready (.error .unknown)) { me with state := .ended }
    else if buffer.read < numFillbytes.toNat then
      return .answer (.ready (.error .unknown)) { me with state := .ended }
    else
      let buffer ← buffer.subRead numFillbytes.toNat
      let bufferlist ← me.bufferlist.set 0 buffer
      return .continue { me with bufferlist := bufferlist, state := .returnBuf 0 true }

def escaped (me : CheckingReader ρ δ) (buffer : Buffer) : Option (Iteration ρ δ) := do
  let group ← buffer.dataFilled
  if group = escape then
    returnHeldBack { me with
      inEsc := false
      digest := Digest.update me.digest group
      bufferlist := me.bufferlist.swapBuffers }
  else if (← group[0]?) = 0x1A then
    footer me buffer group
  else
    return .answer (.ready (.error .unimplemented)) { me with state := .ended }

/-- A group outside of an escape sequence is complete. -/
def plain (me : CheckingReader ρ δ) (buffer : Buffer) : Option (Iteration ρ δ) := do
  let group ← buffer.dataFilled
  let me := { me with digest := Digest.update me.digest group }
  if group = escape then
    let bufferlist ← me.bufferlist.set 0 (buffer.setRead 0)
    return .continue { me with bufferlist := bufferlist, inEsc := true }
  else
    returnHeldBack { me with bufferlist := me.bufferlist.swapBuffers }

/-- The source wrote `bytes` into the free slice of the first buffer. -/
def received (me : CheckingReader ρ δ) (buffer : Buffer) (bytes : List UInt8) :
    Option (Iteration ρ δ) := do
  let buffer := (buffer.write bytes).addRead bytes.length
  let bufferlist ← me.bufferlist.set 0 buffer
  let me := { me with bufferlist := bufferlist }
  if buffer.read < buffer.len then return .continue me
  else if me.inEsc then escaped me buffer
  else plain me buffer

/-- Hand out bytes of the first buffer, or leave the state when none is left. -/
def returnBytes (me : CheckingReader ρ δ) (returned : Nat) (lastone : Bool)
    (buf : List UInt8) : Option (Iteration ρ δ) := do
  let buffer ← me.bufferlist.get 0
  let source ← buffer.dataFilled
  if returned < source.length then
    let left ← Usize.checkedSub source.length returned
    let copysize := min buf.length left
    let target ← slice buf 0 copysize
    let bytes ← copyFromSlice target (← slice source returned (returned + copysize))
    let returned' := returned + copysize
    if lastone && returned' == source.length then
      let bufferlist ← me.bufferlist.set 0 (buffer.setRead 0)
      return .answer (.ready (.ok bytes)) { me with bufferlist := bufferlist, state := .ended }
    else
      return .answer (.ready (.ok bytes)) { me with state := .returnBuf returned' lastone }
  else
    let bufferlist ← me.bufferlist.set 0 (buffer.setRead 0)
    return .continue { me with
      bufferlist := bufferlist
      state := if lastone then .ended else .readBuf }

def iteration [AsyncRead ρ] (me : CheckingReader ρ δ) (buf : List UInt8) :
    Option (Iteration ρ δ) :=
  match me.state with
  | .readBuf => do
      let buffer ← me.bufferlist.get 0
      let free ← buffer.dataFreeMut
      match ← AsyncRead.pollRead me.reader free.length with
      | (.pending, reader) => return .answer .pending { me with reader := reader }
      | (.ready (.error e), reader) =>
          return .answer (.ready (.error e)) { me with reader := reader, state := .ended }
      | (.ready (.ok bytes), reader) => received { me with reader := reader } buffer bytes
  | .returnBuf returned lastone => returnBytes me returned lastone buf
  | .ended => some (.answer (.ready (.ok [])) me)

end CheckingReader

/-!
## Slices of the buffers
-/

namespace Buffer

def view (b : Buffer) : Frame.Buffer := { data := b.inner.take b.read }

theorem dataFilled_eq {b : Buffer} (h : b.read ≤ 4) : b.dataFilled = some b.view.dataFilled := by
  rw [← b.inner_length] at h
  exact slice_eq (Nat.zero_le _) h

theorem dataFreeMut_eq {b : Buffer} (h : b.read ≤ 4) :
    b.dataFreeMut = some (b.inner.drop b.read) := by
  rw [← b.inner_length] at h
  refine (slice_eq h (Nat.le_refl _)).trans ?_
  rw [List.take_of_length_le (by rw [List.length_drop])]

theorem length_free (b : Buffer) : (b.inner.drop b.read).length = 4 - b.read := by
  rw [List.length_drop, b.inner_length]

theorem view_read {b : Buffer} (h : b.read ≤ 4) : b.view.read = b.read := by
  rw [← b.inner_length] at h
  exact List.length_take_of_le h

theorem view_setRead_zero (b : Buffer) : (b.setRead 0).view = b.view.setRead 0 := by
  unfold view setRead Frame.Buffer.setRead
  rw [List.take_zero, List.take_zero]

theorem view_write {b : Buffer} {bytes : List UInt8} (h : b.read + bytes.length ≤ 4) :
    ((b.write bytes).addRead bytes.length).view = b.view.addRead bytes := by
  have hinner := b.inner_length
  have hlen : (b.inner.take b.read ++ bytes).length = b.read + bytes.length := by
    rw [List.length_append, List.length_take_of_le (by lia)]
  unfold view write addRead Frame.Buffer.addRead
  dsimp only
  rw [List.take_take, Nat.min_eq_left h, ← hlen, List.take_left]

theorem subRead_eq {b : Buffer} {n : Nat} (hn : n ≤ b.read) (h : b.read ≤ 4) :
    exists b', b.subRead n = some b' ∧ b'.read = b.read - n ∧ b'.view = b.view.subRead n := by
  refine ⟨{ b with read := b.read - n }, ?_, rfl, ?_⟩
  · unfold subRead
    rw [Usize.checkedSub_eq hn]
    rfl
  · have hlen : (b.inner.take b.read).length = b.read :=
      List.length_take_of_le (by rw [b.inner_length]; exact h)
    unfold view Frame.Buffer.subRead
    dsimp only
    rw [hlen, List.take_take, Nat.min_eq_left (Nat.sub_le _ _)]

end Buffer

namespace BufferList

def first (l : BufferList) : Buffer := if l.buffersSwapped then l.buffer1 else l.buffer0

def second (l : BufferList) : Buffer := if l.buffersSwapped then l.buffer0 else l.buffer1

def setFirst (l : BufferList) (b : Buffer) : BufferList :=
  if l.buffersSwapped then { l with buffer1 := b } else { l with buffer0 := b }

def view (l : BufferList) : Frame.BufferList :=
  { buffer0 := l.buffer0.view, buffer1 := l.buffer1.view, buffersSwapped := l.buffersSwapped }

@[simp] theorem get_zero (l : BufferList) : l.get 0 = some l.first := by
  rcases l with ⟨b0, b1, swapped⟩
  cases swapped <;> rfl

@[simp] theorem set_zero (l : BufferList) (b : Buffer) : l.set 0 b = some (l.setFirst b) := by
  rcases l with ⟨b0, b1, swapped⟩
  cases swapped <;> rfl

@[simp] theorem first_setFirst (l : BufferList) (b : Buffer) : (l.setFirst b).first = b := by
  rcases l with ⟨b0, b1, swapped⟩
  cases swapped <;> rfl

@[simp] theorem second_setFirst (l : BufferList) (b : Buffer) :
    (l.setFirst b).second = l.second := by
  rcases l with ⟨b0, b1, swapped⟩
  cases swapped <;> rfl

@[simp] theorem first_swapBuffers (l : BufferList) : l.swapBuffers.first = l.second := by
  rcases l with ⟨b0, b1, swapped⟩
  cases swapped <;> rfl

@[simp] theorem second_swapBuffers (l : BufferList) : l.swapBuffers.second = l.first := by
  rcases l with ⟨b0, b1, swapped⟩
  cases swapped <;> rfl

@[simp] theorem view_swapBuffers (l : BufferList) :
    l.swapBuffers.view = l.view.swapBuffers := rfl

@[simp] theorem view_get_zero (l : BufferList) : l.view.get 0 = l.first.view := by
  rcases l with ⟨b0, b1, swapped⟩
  cases swapped <;> rfl

theorem view_setFirst {l : BufferList} {b : Buffer} {f : Frame.Buffer -> Frame.Buffer}
    (h : b.view = f l.first.view) : (l.setFirst b).view = l.view.modify 0 f := by
  rcases l with ⟨b0, b1, swapped⟩
  cases swapped with
  | false =>
      change b.view = f b0.view at h
      change Frame.BufferList.mk b.view b1.view false =
        Frame.BufferList.mk (f b0.view) b1.view false
      rw [h]
  | true =>
      change b.view = f b1.view at h
      change Frame.BufferList.mk b0.view b.view true =
        Frame.BufferList.mk b0.view (f b1.view) true
      rw [h]

end BufferList

/-!
## The invariant
-/

namespace CheckingReader

variable {ρ δ : Type} [Digest δ]

/-- How far the buffers are filled in each state of the reader. -/
def Consistent (me : CheckingReader ρ δ) : Prop :=
  match me.state with
  | .readBuf =>
      me.bufferlist.first.read < 4 ∧
        (me.bufferlist.second.read = 0 ∨ me.bufferlist.second.read = 4)
  | .returnBuf returned false =>
      me.bufferlist.first.read = 4 ∧ me.bufferlist.second.read = 4 ∧ returned ≤ 4
  | .returnBuf returned true =>
      returned ≤ me.bufferlist.first.read ∧ me.bufferlist.first.read ≤ 4 ∧
        me.bufferlist.second.read = 0
  | .ended => True

def view (me : CheckingReader ρ δ) : Frame.CheckingReader ρ δ :=
  { reader := me.reader
    state := me.state
    inEsc := me.inEsc
    bufferlist := me.bufferlist.view
    digest := me.digest }

namespace Iteration

def next : Iteration ρ δ -> CheckingReader ρ δ
  | .continue me => me
  | .answer _ me => me

def view : Iteration ρ δ -> Frame.CheckingReader.Iteration ρ δ
  | .continue me => .continue me.view
  | .answer ans me => .answer ans me.view

end Iteration

/--
An iteration does not panic, leaves the buffers consistent, and is that of the
reader with lists.
-/
def Refines (x : Option (Iteration ρ δ)) (y : Frame.CheckingReader.Iteration ρ δ) : Prop :=
  exists it, x = some it ∧ it.next.Consistent ∧ it.view = y

omit [Digest δ] in
theorem returnHeldBack_refines {me : CheckingReader ρ δ} (hstate : me.state = .readBuf)
    (hfirst : me.bufferlist.first.read = 0 ∨ me.bufferlist.first.read = 4)
    (hsecond : me.bufferlist.second.read = 4) :
    Refines (returnHeldBack me)
      (.continue (Frame.CheckingReader.returnHeldBack me.view)) := by
  have hread : (me.view.bufferlist.get 0).read = me.bufferlist.first.read := by
    change (me.bufferlist.view.get 0).read = _
    rw [BufferList.view_get_zero, Buffer.view_read (by lia)]
  unfold returnHeldBack Frame.CheckingReader.returnHeldBack
  rw [hread, BufferList.get_zero, Option.bind_eq_bind, Option.bind_some]
  rcases hfirst with hempty | hfull
  · rw [if_neg (by lia), if_neg (by lia)]
    refine ⟨_, rfl, ?_, rfl⟩
    change me.Consistent
    unfold Consistent
    rw [hstate]
    exact ⟨by lia, .inr hsecond⟩
  · rw [if_pos (by lia), if_pos (by lia)]
    exact ⟨_, rfl, ⟨hfull, hsecond, Nat.zero_le 4⟩, rfl⟩

theorem group_cases {b : Buffer} (h : b.read = 4) :
    exists b0 b1 b2 b3, b.dataFilled = some [b0, b1, b2, b3] ∧
      b.view.dataFilled = [b0, b1, b2, b3] := by
  have hlen : b.view.dataFilled.length = 4 := (Buffer.view_read (by lia)).trans h
  have hfilled := Buffer.dataFilled_eq (b := b) (by lia)
  match hdata : b.view.dataFilled, hlen with
  | [b0, b1, b2, b3], _ => exact ⟨b0, b1, b2, b3, by rw [hfilled, hdata], rfl⟩

theorem view_emptied (l : BufferList) :
    (l.setFirst (l.first.setRead 0)).view = l.view.modify 0 (·.setRead 0) :=
  BufferList.view_setFirst (Buffer.view_setRead_zero _)

theorem footer_refines {me : CheckingReader ρ δ} {num c0 c1 : UInt8}
    (hsecond : me.bufferlist.second.read = 0 ∨ me.bufferlist.second.read = 4) :
    Refines (footer me me.bufferlist.first [0x1A, num, c0, c1])
      (Frame.CheckingReader.footer me.view num c0 c1) := by
  have hcrc : slice [0x1A, num, c0, c1] 2 4 = some [c0, c1] := rfl
  have hhead : slice [0x1A, num, c0, c1] 0 2 = some [0x1A, num] := rfl
  have hnum : [0x1A, num, c0, c1][1]? = some num := rfl
  have hview := view_emptied me.bufferlist
  change _ = me.view.bufferlist.modify 0 (·.setRead 0) at hview
  have hdigest : me.view.digest = me.digest := rfl
  unfold footer Frame.CheckingReader.footer
  simp only [hnum, hcrc, hhead, tryIntoPair, BufferList.set_zero, BufferList.get_zero,
    BufferList.first_swapBuffers, BufferList.second_setFirst, Option.bind_eq_bind,
    Option.bind_some]
  rw [hdigest, ← hview, ← BufferList.view_swapBuffers, BufferList.view_get_zero,
    BufferList.first_swapBuffers, BufferList.second_setFirst, Buffer.view_read (by lia)]
  by_cases hmatch : swapBytes (fromBeBytes c0 c1) ≠
      Digest.finalize (Digest.update me.digest [0x1A, num])
  · rw [if_pos hmatch, if_pos hmatch]
    exact ⟨_, rfl, trivial, rfl⟩
  · rw [if_neg hmatch, if_neg hmatch]
    by_cases hfill : num > 3
    · rw [if_pos hfill, if_pos hfill]
      exact ⟨_, rfl, trivial, rfl⟩
    · rw [if_neg hfill, if_neg hfill]
      by_cases hless : me.bufferlist.second.read < num.toNat
      · rw [if_pos hless, if_pos hless]
        exact ⟨_, rfl, trivial, rfl⟩
      · rw [if_neg hless, if_neg hless]
        rcases Buffer.subRead_eq (Nat.le_of_not_lt hless) (by lia) with
          ⟨rest, hsub, hread, hbuffer⟩
        rw [hsub, Option.bind_some]
        rw [← BufferList.second_setFirst me.bufferlist (me.bufferlist.first.setRead 0),
          ← BufferList.first_swapBuffers] at hbuffer
        have hlist := BufferList.view_setFirst (f := (·.subRead num.toNat)) hbuffer
        refine ⟨_, rfl, ⟨Nat.zero_le _, ?_, ?_⟩, ?_⟩
        · dsimp only [Iteration.next]
          rw [BufferList.first_setFirst]
          lia
        · dsimp only [Iteration.next]
          rw [BufferList.second_setFirst, BufferList.second_swapBuffers,
            BufferList.first_setFirst]
          rfl
        · rw [← hlist]
          rfl

theorem escaped_refines {me : CheckingReader ρ δ} (hstate : me.state = .readBuf)
    (hfirst : me.bufferlist.first.read = 4)
    (hsecond : me.bufferlist.second.read = 0 ∨ me.bufferlist.second.read = 4) :
    Refines (escaped me me.bufferlist.first) (Frame.CheckingReader.escaped me.view) := by
  rcases group_cases hfirst with ⟨b0, b1, b2, b3, hfilled, hgroup⟩
  rw [← BufferList.view_get_zero] at hgroup
  change (me.view.bufferlist.get 0).dataFilled = _ at hgroup
  unfold escaped Frame.CheckingReader.escaped
  rw [hgroup, hfilled, Option.bind_eq_bind, Option.bind_some]
  by_cases hescape : [b0, b1, b2, b3] = escape
  · simp only [if_pos hescape]
    refine returnHeldBack_refines hstate ?_ ?_
    · change me.bufferlist.swapBuffers.first.read = 0 ∨ _ 
      rw [BufferList.first_swapBuffers]
      exact hsecond
    · change me.bufferlist.swapBuffers.second.read = 4
      rw [BufferList.second_swapBuffers]
      exact hfirst
  · have hhead : [b0, b1, b2, b3][0]? = some b0 := rfl
    simp only [if_neg hescape, hhead, Option.bind_eq_bind, Option.bind_some]
    by_cases hfooter : b0 = 0x1A
    · rw [if_pos hfooter, hfooter]
      exact footer_refines hsecond
    · rw [if_neg hfooter]
      refine ⟨_, rfl, trivial, ?_⟩
      split
      next num c0 c1 hmatch =>
        injection hmatch with hhead
        exact absurd hhead hfooter
      next => rfl

theorem plain_refines {me : CheckingReader ρ δ} (hstate : me.state = .readBuf)
    (hfirst : me.bufferlist.first.read = 4)
    (hsecond : me.bufferlist.second.read = 0 ∨ me.bufferlist.second.read = 4) :
    Refines (plain me me.bufferlist.first) (Frame.CheckingReader.plain me.view) := by
  rcases group_cases hfirst with ⟨b0, b1, b2, b3, hfilled, hgroup⟩
  rw [← BufferList.view_get_zero] at hgroup
  change (me.view.bufferlist.get 0).dataFilled = _ at hgroup
  unfold plain Frame.CheckingReader.plain
  rw [hgroup, hfilled, Option.bind_eq_bind, Option.bind_some]
  by_cases hescape : [b0, b1, b2, b3] = escape
  · simp only [if_pos hescape, BufferList.set_zero, Option.bind_eq_bind, Option.bind_some]
    have hview := view_emptied me.bufferlist
    change _ = me.view.bufferlist.modify 0 (·.setRead 0) at hview
    rw [← hview]
    refine ⟨_, rfl, ?_, rfl⟩
    unfold Consistent
    dsimp only [Iteration.next]
    rw [hstate, BufferList.first_setFirst, BufferList.second_setFirst]
    exact ⟨Nat.zero_lt_succ 3, hsecond⟩
  · simp only [if_neg hescape]
    refine returnHeldBack_refines hstate ?_ ?_
    · rw [BufferList.first_swapBuffers]
      exact hsecond
    · rw [BufferList.second_swapBuffers]
      exact hfirst

theorem received_refines {me : CheckingReader ρ δ} (hstate : me.state = .readBuf)
    {bytes : List UInt8} (hroom : me.bufferlist.first.read + bytes.length ≤ 4)
    (hsecond : me.bufferlist.second.read = 0 ∨ me.bufferlist.second.read = 4) :
    Refines (received me me.bufferlist.first bytes)
      (Frame.CheckingReader.received me.view bytes) := by
  let buffer := (me.bufferlist.first.write bytes).addRead bytes.length
  let me' : CheckingReader ρ δ := { me with bufferlist := me.bufferlist.setFirst buffer }
  have hstate' : me'.state = .readBuf := hstate
  have hread : buffer.read = me.bufferlist.first.read + bytes.length := rfl
  have hfirst : me'.bufferlist.first = buffer := BufferList.first_setFirst _ _
  have hsecond' : me'.bufferlist.second.read = 0 ∨ me'.bufferlist.second.read = 4 := by
    change (me.bufferlist.setFirst buffer).second.read = 0 ∨ _
    rw [BufferList.second_setFirst]
    exact hsecond
  have hlist : me'.bufferlist.view = me.view.bufferlist.modify 0 (·.addRead bytes) :=
    BufferList.view_setFirst (Buffer.view_write hroom)
  have hget : (me'.bufferlist.view.get 0).read = buffer.read := by
    rw [BufferList.view_get_zero, hfirst, Buffer.view_read (by lia)]
  unfold received Frame.CheckingReader.received
  simp only [BufferList.set_zero, Option.bind_eq_bind, Option.bind_some, ← hlist, hget]
  change Refines (if buffer.read < buffer.len then some (.continue me')
    else if me.inEsc then escaped me' buffer else plain me' buffer)
    (if buffer.read < 4 then .continue me'.view
      else if me.inEsc then Frame.CheckingReader.escaped me'.view
      else Frame.CheckingReader.plain me'.view)
  have hlen : buffer.len = 4 := buffer.inner_length
  rw [hlen]
  by_cases hless : buffer.read < 4
  · rw [if_pos hless, if_pos hless]
    refine ⟨_, rfl, ?_, rfl⟩
    change me'.Consistent
    unfold Consistent
    rw [hstate', hfirst]
    exact ⟨hless, hsecond'⟩
  · have hfull : me'.bufferlist.first.read = 4 := by
      rw [hfirst]
      lia
    rw [if_neg hless, if_neg hless, ← hfirst]
    by_cases hesc : me.inEsc = true
    · rw [if_pos hesc, if_pos hesc]
      exact escaped_refines hstate' hfull hsecond'
    · rw [if_neg hesc, if_neg hesc]
      exact plain_refines hstate' hfull hsecond'

omit [Digest δ] in
theorem copy_eq {source buf : List UInt8} {returned copysize : Nat} (hbuf : copysize ≤ buf.length)
    (hsource : returned + copysize ≤ source.length) :
    exists target, slice buf 0 copysize = some target ∧
      (slice source returned (returned + copysize)).bind (copyFromSlice target) =
        some ((source.drop returned).take copysize) := by
  refine ⟨_, slice_eq (Nat.zero_le _) hbuf, ?_⟩
  rw [slice_eq (Nat.le_add_right _ _) hsource, Option.bind_some, Nat.add_sub_cancel_left]
  refine if_pos ?_
  rw [List.length_take, List.length_take, List.length_drop, List.length_drop]
  lia

omit [Digest δ] in
theorem returnBytes_refines {me : CheckingReader ρ δ} {returned : Nat} {lastone : Bool}
    (hstate : me.state = .returnBuf returned lastone) (h : me.Consistent) (buf : List UInt8) :
    Refines (returnBytes me returned lastone buf)
      (Frame.CheckingReader.returnBytes me.view returned lastone buf.length) := by
  unfold Consistent at h
  rw [hstate] at h
  have hread : returned ≤ me.bufferlist.first.read ∧ me.bufferlist.first.read ≤ 4 := by
    cases lastone with
    | false => exact ⟨by lia, by lia⟩
    | true => exact ⟨h.1, h.2.1⟩
  have hfilled := Buffer.dataFilled_eq hread.2
  have hlen : me.bufferlist.first.view.dataFilled.length = me.bufferlist.first.read :=
    Buffer.view_read hread.2
  have hview : (me.view.bufferlist.get 0).dataFilled = me.bufferlist.first.view.dataFilled :=
    congrArg Frame.Buffer.dataFilled (BufferList.view_get_zero me.bufferlist)
  have hempty := view_emptied me.bufferlist
  change _ = me.view.bufferlist.modify 0 (·.setRead 0) at hempty
  unfold returnBytes Frame.CheckingReader.returnBytes
  rw [hview]
  simp only [BufferList.get_zero, BufferList.set_zero, hfilled, Option.bind_eq_bind,
    Option.bind_some]
  generalize me.bufferlist.first.view.dataFilled = source at hlen ⊢
  by_cases hless : returned < source.length
  · have hcopy : returned + min buf.length (source.length - returned) ≤ source.length := by lia
    rcases copy_eq (Nat.min_le_left _ _) hcopy with ⟨target, htarget, hbytes⟩
    simp only [if_pos hless, Usize.checkedSub_eq (Nat.le_of_lt hless), htarget, Option.bind_some]
    rw [← Option.bind_assoc, hbytes, Option.bind_some]
    generalize min buf.length (source.length - returned) = copysize at hcopy ⊢
    by_cases hlast : (lastone && returned + copysize == source.length) = true
    · rw [if_pos hlast, if_pos hlast, ← hempty]
      exact ⟨_, rfl, trivial, rfl⟩
    · rw [if_neg hlast, if_neg hlast]
      refine ⟨_, rfl, ?_, rfl⟩
      cases lastone with
      | false => exact ⟨h.1, h.2.1, show returned + copysize ≤ 4 by lia⟩
      | true => exact ⟨Nat.le_trans hcopy (Nat.le_of_eq hlen), h.2.1, h.2.2⟩
  · simp only [if_neg hless]
    refine ⟨_, rfl, ?_, ?_⟩
    · unfold Consistent
      dsimp only [Iteration.next]
      rw [BufferList.first_setFirst, BufferList.second_setFirst]
      cases lastone with
      | false => exact ⟨Nat.zero_lt_succ 3, .inr h.2.1⟩
      | true => trivial
    · rw [← hempty]
      rfl

def free (me : CheckingReader ρ δ) : Option (List UInt8) :=
  (me.bufferlist.get 0).bind Buffer.dataFreeMut

omit [Digest δ] in
theorem free_eq {me : CheckingReader ρ δ} (hstate : me.state = .readBuf) (h : me.Consistent) :
    exists free, me.free = some free ∧ 0 < free.length ∧
      free.length = 4 - me.bufferlist.first.read := by
  unfold Consistent at h
  rw [hstate] at h
  have hlen := Buffer.length_free me.bufferlist.first
  refine ⟨_, ?_, ?_, hlen⟩
  · unfold free
    rw [BufferList.get_zero, Option.bind_some]
    exact Buffer.dataFreeMut_eq (Nat.le_of_lt h.1)
  · rw [hlen]
    exact Nat.sub_pos_of_lt h.1

theorem iteration_refines [BoundedSource ρ] {me : CheckingReader ρ δ} (h : me.Consistent)
    (buf : List UInt8) :
    exists y, Frame.CheckingReader.iteration me.view buf.length = some y ∧
      Refines (iteration me buf) y := by
  rcases me with ⟨source, state, inEsc, bufferlist, digest⟩
  cases state with
  | returnBuf returned lastone => exact ⟨_, rfl, returnBytes_refines rfl h buf⟩
  | ended => exact ⟨_, rfl, _, rfl, h, rfl⟩
  | readBuf =>
      have hfill : bufferlist.first.read < 4 ∧
        (bufferlist.second.read = 0 ∨ bufferlist.second.read = 4) := h
      have hread : (bufferlist.view.get 0).read = bufferlist.first.read := by
        rw [BufferList.view_get_zero, Buffer.view_read (Nat.le_of_lt hfill.1)]
      rcases BoundedSource.returns source _ (Nat.sub_pos_of_lt hfill.1) with
        ⟨ans, source', hpoll, hroom⟩
      unfold iteration Frame.CheckingReader.iteration view
      simp only [BufferList.get_zero, Buffer.dataFreeMut_eq (Nat.le_of_lt hfill.1),
        Buffer.length_free, Frame.Buffer.len, hread, hpoll, Option.bind_eq_bind,
        Option.bind_some]
      let me' : CheckingReader ρ δ := ⟨source', .readBuf, inEsc, bufferlist, digest⟩
      cases ans with
      | pending => exact ⟨_, rfl, .answer .pending me', rfl, hfill, rfl⟩
      | ready res =>
          cases res with
          | error e => exact ⟨_, rfl, _, rfl, trivial, rfl⟩
          | ok bytes =>
              have hbytes : bytes.length ≤ 4 - bufferlist.first.read := hroom
              have hfits : me'.bufferlist.first.read + bytes.length ≤ 4 := by
                change bufferlist.first.read + bytes.length ≤ 4
                lia
              exact ⟨_, rfl, received_refines (rfl : me'.state = .readBuf) hfits hfill.2⟩

/-!
## Every sequence of polls
-/

/--
The states of the reader before an iteration of the loop, over all sequences of
calls of `poll_read`: each call has its own buffer.
-/
inductive Between [AsyncRead ρ] (reader : ρ) : CheckingReader ρ δ -> List UInt8 -> Prop where
  | start (buf : List UInt8) : Between reader (new reader) buf
  | «continue» {me me' : CheckingReader ρ δ} {buf : List UInt8} (h : Between reader me buf)
      (hstep : iteration me buf = some (.continue me')) : Between reader me' buf
  | call {me me' : CheckingReader ρ δ} {buf : List UInt8}
      {ans : Poll (Except Io.Error (List UInt8))} (h : Between reader me buf)
      (hstep : iteration me buf = some (.answer ans me')) (buf' : List UInt8) :
      Between reader me' buf'

theorem Between.consistent [BoundedSource ρ] {reader : ρ} {me : CheckingReader ρ δ}
    {buf : List UInt8} (h : Between reader me buf) : me.Consistent := by
  induction h with
  | start buf => exact ⟨Nat.zero_lt_succ 3, .inl rfl⟩
  | «continue» h hstep ih =>
      rcases iteration_refines ih _ with ⟨y, _, it, hit, hnext, _⟩
      rw [hstep] at hit
      cases hit
      exact hnext
  | call h hstep buf' ih =>
      rcases iteration_refines ih _ with ⟨y, _, it, hit, hnext, _⟩
      rw [hstep] at hit
      cases hit
      exact hnext

/--
Before every iteration of every poll the buffers are consistent; the source is
polled with a slice that is not empty, and nothing panics.
-/
theorem buffers_consistent [BoundedSource ρ] (reader : ρ) {me : CheckingReader ρ δ}
    {buf : List UInt8} (h : Between reader me buf) :
    me.Consistent ∧
      (me.state = .readBuf -> exists free, me.free = some free ∧ 0 < free.length) ∧
      exists it, iteration me buf = some it := by
  have hconsistent := h.consistent
  refine ⟨hconsistent, ?_, ?_⟩
  · intro hstate
    rcases free_eq hstate hconsistent with ⟨free, hfree, hpos, _⟩
    exact ⟨free, hfree, hpos⟩
  · rcases iteration_refines hconsistent buf with ⟨y, _, it, hit, _⟩
    exact ⟨it, hit⟩

/-- Three bytes are in the buffer, and the source is polled for one more. -/
theorem buffers_consistent_three_bytes :
    exists (me : CheckingReader Pieces Crc),
      Between { pieces := [[1, 2, 3], [4, 5, 6, 7, 8]] } me [0] ∧ me.Consistent ∧
        me.bufferlist.first.read = 3 ∧
        (exists free, me.free = some free ∧ 0 < free.length) ∧
        exists it, iteration me [0] = some it := by
  let reader : Pieces := { pieces := [[1, 2, 3], [4, 5, 6, 7, 8]] }
  have hstart : Between reader (new reader : CheckingReader Pieces Crc) [0] := .start [0]
  have hrun := hstart.continue rfl
  refine ⟨_, hrun, ?_⟩
  rcases buffers_consistent reader hrun with ⟨hconsistent, hfree, hdefined⟩
  exact ⟨hconsistent, rfl, hfree rfl, hdefined⟩

end CheckingReader

end Sliced

end Frame
end Sml
end Smartmeter
