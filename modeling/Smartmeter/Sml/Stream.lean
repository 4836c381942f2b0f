import Smartmeter.Sml.Executor

/-!
# The meaning of the task on a byte stream

What the operations of the task do to a byte stream that is there from the
start.  Nothing is polled: the messages of a frame are a feed, and a read takes
its bytes at once, fails at its end, or is blocked where the stream stops.
-/

namespace Smartmeter
namespace Sml

open Foundation
open Frame (Feed decodeFrame)

/-- The bytes of the source, or the feed of the frame in front of them. -/
inductive StreamLine (δ : Type) where
  | source (unread : List UInt8)
  | frame (feed : Feed) (digest : δ)

structure Stream (δ ω : Type) where
  line : StreamLine δ
  taken : List UInt8
  log : List (Entry ω)

namespace Stream

variable {δ ω : Type}

def new (unread : List UInt8) : Stream δ ω :=
  { line := .source unread, taken := [], log := [] }

def unread (t : Stream δ ω) : List UInt8 :=
  match t.line with
  | .source unread => unread
  | .frame feed _ => feed.unread

def bytes (t : Stream δ ω) : List UInt8 :=
  match t.line with
  | .source _ => []
  | .frame feed _ => feed.bytes

def hasEnded (t : Stream δ ω) : Bool :=
  match t.line with
  | .source _ => true
  | .frame feed _ => feed.ended

def observe (mark : Mark ω) (t : Stream δ ω) : Stream δ ω :=
  { t with log := t.log ++ [{ mark := mark, unread := t.unread, taken := t.taken }] }

variable [Digest δ]

def newFrame (t : Stream δ ω) : Stream δ ω :=
  { t with
    line := .frame ((decodeFrame δ t.unread).feed t.unread) Digest.digest
    taken := [] }

def finalize (t : Stream δ ω) : UInt16 × Stream δ ω :=
  match t.line with
  | .source _ =>
      let crcCalc := Digest.finalize (Digest.digest : δ)
      (crcCalc, t.observe (.finalize crcCalc))
  | .frame feed digest =>
      let crcCalc := Digest.finalize digest
      (crcCalc,
        { t with line := .frame feed Digest.digest }.observe (.finalize crcCalc))

def reset (t : Stream δ ω) : Stream δ ω :=
  match t.line with
  | .source _ => t.observe .reset
  | .frame feed _ => { t with line := .frame feed Digest.digest }.observe .reset

def advance (n : Nat) (t : Stream δ ω) : Stream δ ω :=
  match t.line with
  | .source _ => t
  | .frame feed digest =>
      { t with
        line := .frame (feed.advance n) (Digest.update digest (feed.bytes.take n))
        taken := t.taken ++ feed.bytes.take n }

def exhaust (feed' : Feed) (t : Stream δ ω) : Stream δ ω :=
  match t.line with
  | .source _ => t
  | .frame feed digest =>
      { t with
        line := .frame feed' (Digest.update digest feed.bytes)
        taken := t.taken ++ feed.bytes }

def readBeyond {α : Type} (t : Stream δ ω) :
    Outcome (Except Io.Error α) (Stream δ ω) :=
  match t.line with
  | .source _ => .done (.error .unexpectedEof) t
  | .frame feed _ =>
      match feed.ending with
      | .success rest => .done (.error .unexpectedEof) (t.exhaust (Feed.spent rest))
      | .failure e rest => .done (.error e) (t.exhaust (Feed.spent rest))
      | .starved =>
          .blocked (t.exhaust
            { pend := [], ending := .starved, ended := false, unread := [] })

def readExact (n : Nat) (t : Stream δ ω) :
    Outcome (Except Io.Error (List UInt8)) (Stream δ ω) :=
  if n ≤ t.bytes.length then .done (.ok (t.bytes.take n)) (t.advance n)
  else t.readBeyond

def readU8 (t : Stream δ ω) : Outcome (Except Io.Error UInt8) (Stream δ ω) :=
  match t.bytes with
  | [] => t.readBeyond
  | b :: _ => .done (.ok b) (t.advance 1)

def sourceU8 (t : Stream δ ω) : Outcome (Except Io.Error UInt8) (Stream δ ω) :=
  match t.unread with
  | [] => .blocked { t with line := .source [] }
  | b :: rest => .done (.ok b) { t with line := .source rest }

def read : Handler Tlv.Ops (Stream δ ω)
  | .u8, t => t.readU8
  | .exact n, t => t.readExact n

def handler : Handler (TaskSig ω) (Stream δ ω)
  | .readU8, t => t.sourceU8
  | .newFrame, t => .done () t.newFrame
  | .hasEnded, t => .done t.hasEnded t
  | .finalize, t => .done t.finalize.1 t.finalize.2
  | .reset, t => .done () t.reset
  | .read o, t => read o t
  | .call e, t => .done () (t.observe (.call e))

/-!
## Reads of the messages
-/

@[simp] theorem advance_bytes (n : Nat) (t : Stream δ ω) :
    (t.advance n).bytes = t.bytes.drop n := by
  unfold advance bytes
  cases h : t.line with
  | source unread =>
      rw [h]
      exact List.drop_nil.symm
  | frame feed digest => exact Feed.advance_bytes n feed

theorem advance_zero (t : Stream δ ω) : t.advance 0 = t := by
  rcases t with ⟨line, taken, log⟩
  cases line with
  | source unread => rfl
  | frame feed digest =>
      unfold advance
      simp only [Feed.advance_zero, List.take_zero, Digest.update_nil, List.append_nil]

theorem advance_add {m n : Nat} {t : Stream δ ω} (h : m + n ≤ t.bytes.length) :
    (t.advance m).advance n = t.advance (m + n) := by
  rcases t with ⟨line, taken, log⟩
  cases line with
  | source unread => rfl
  | frame feed digest =>
      have hlen : m + n ≤ feed.pend.length := by
        rw [← Feed.bytes_length]
        exact h
      unfold advance
      simp only [Feed.advance_add hlen, Feed.advance_bytes, Digest.update_append,
        List.append_assoc, List.take_add]

theorem readBeyond_ne_ok {α : Type} (t t' : Stream δ ω) (a : α) :
    t.readBeyond ≠ .done (.ok a) t' := by
  intro h
  unfold readBeyond at h
  split at h
  · cases h
  · split at h <;> cases h

theorem delivers :
    Delivers (read (δ := δ) (ω := ω)) Stream.bytes Stream.advance where
  bytes_advance n t := advance_bytes n t
  advance_zero := advance_zero
  advance_add m n t h := advance_add h
  u8 b bs t h := by
    change t.readU8 = _
    unfold readU8
    rw [h]
  exact n t h := if_pos h
  u8_short t h b t' := by
    change t.readU8 ≠ _
    unfold readU8
    rw [h]
    exact readBeyond_ne_ok t t' b
  exact_short n t h bs t' := by
    change t.readExact n ≠ _
    unfold readExact
    rw [if_neg (Nat.not_le.mpr h)]
    exact readBeyond_ne_ok t t' bs

end Stream

end Sml
end Smartmeter
