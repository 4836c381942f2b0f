import Smartmeter.Foundation.Task

/-!
# The `io` crate

Byte sources are polled: a poll is given the room left in the caller's buffer
and answers with the bytes it wrote there, with an error, or not yet.  The
futures `ReadExact` and `ReadU8` keep what they have read so far
between two polls.
-/

namespace Smartmeter
namespace Io

open Foundation

/-- The errors of the `io` crate in a build without the standard library. -/
inductive Error where
  | nativeUnsigned (ret : UInt32)
  | unexpectedEof
  | unimplemented
  | unknown
deriving DecidableEq, Repr

/--
A polled byte source; the number is the room in the caller's buffer, and
`none` is a poll that does not return.
-/
class AsyncRead (ρ : Type) where
  pollRead : ρ -> Nat -> Option (Poll (Except Error (List UInt8)) × ρ)

def answerBytes : Poll (Except Error (List UInt8)) -> List UInt8
  | .ready (.ok bytes) => bytes
  | _ => []

/-- `read_exact`: the bytes read so far and the size of the rest of the buffer. -/
structure ReadExact where
  filled : List UInt8
  buf : Nat
deriving DecidableEq, Repr

namespace ReadExact

variable {ρ : Type} [AsyncRead ρ]

def new (buf : Nat) : ReadExact := { filled := [], buf := buf }

/--
The loop of `ReadExact::poll`.  An answer that is longer than the buffer
panics in `split_at_mut`.
-/
def pollLoop : Nat -> ReadExact -> ρ ->
    Option (Poll (Except Error (List UInt8)) × ReadExact × ρ)
  | 0, this, reader =>
      if this.buf = 0 then some (.ready (.ok this.filled), this, reader) else none
  | iters + 1, this, reader =>
      if this.buf = 0 then some (.ready (.ok this.filled), this, reader) else
      match AsyncRead.pollRead reader this.buf with
      | none => none
      | some (.pending, reader) => some (.pending, this, reader)
      | some (.ready (.error e), reader) => some (.ready (.error e), this, reader)
      | some (.ready (.ok bytes), reader) =>
          if this.buf < bytes.length then none else
          let rest : ReadExact :=
            { filled := this.filled ++ bytes, buf := this.buf - bytes.length }
          if bytes = [] then some (.ready (.error .unexpectedEof), rest, reader)
          else pollLoop iters rest reader

def poll (this : ReadExact) (reader : ρ) :
    Option (Poll (Except Error (List UInt8)) × ReadExact × ρ) :=
  pollLoop this.buf this reader

end ReadExact

/-- `read_u8`: the one-byte buffer and how much of it is filled. -/
structure ReadU8 where
  buf : UInt8
  read : Nat
deriving DecidableEq, Repr

namespace ReadU8

variable {ρ : Type} [AsyncRead ρ]

def new : ReadU8 := { buf := 0, read := 0 }

/-- `ReadU8::poll`; with a buffer of one byte its loop runs at most once. -/
def poll (this : ReadU8) (reader : ρ) :
    Option (Poll (Except Error UInt8) × ReadU8 × ρ) :=
  if this.read = 1 then some (.ready (.ok this.buf), this, reader) else
  match AsyncRead.pollRead reader (1 - this.read) with
  | none => none
  | some (.pending, reader) => some (.pending, this, reader)
  | some (.ready (.error e), reader) => some (.ready (.error e), this, reader)
  | some (.ready (.ok []), reader) =>
      some (.ready (.error .unexpectedEof), this, reader)
  | some (.ready (.ok (b :: bytes)), reader) =>
      some (.ready (.ok b), { buf := b, read := this.read + bytes.length + 1 }, reader)

end ReadU8

/-!
## Sources that deliver a byte string

The sources the crates are used with never report the end of the input and
never write more than they are asked for: what is left to be read is a byte
string, delivered in pieces with answers that nothing is there yet in between.
-/

class ByteSource (ρ : Type) extends AsyncRead ρ where
  /-- The bytes that were not taken from the source yet. -/
  unread : ρ -> List UInt8
  /-- How often the source can still answer that nothing is there yet. -/
  patience : ρ -> Nat
  answers : forall r n, 0 < n ->
    exists ans r', pollRead r n = some (ans, r') ∧
      match ans with
      | .pending => unread r' = unread r ∧ patience r' ≤ patience r ∧
          (unread r ≠ [] -> patience r' < patience r)
      | .ready (.error _) => False
      | .ready (.ok bytes) => bytes ≠ [] ∧ bytes.length ≤ n ∧
          unread r = bytes ++ unread r' ∧ patience r' ≤ patience r

/-- A source that returns from every poll with at most as many bytes as it has room for. -/
class BoundedSource (ρ : Type) extends AsyncRead ρ where
  returns : forall r n, 0 < n ->
    exists ans r', pollRead r n = some (ans, r') ∧ (answerBytes ans).length ≤ n

instance {ρ : Type} [ByteSource ρ] : BoundedSource ρ where
  returns r n hn := by
    rcases ByteSource.answers r n hn with ⟨ans, r', hpoll, hans⟩
    refine ⟨ans, r', hpoll, ?_⟩
    cases ans with
    | pending => exact Nat.zero_le n
    | ready res =>
        cases res with
        | error e => exact Nat.zero_le n
        | ok bytes => exact hans.2.1

/-- The bytes of a serial line in pieces; an empty piece is a poll that finds nothing. -/
structure Pieces where
  pieces : List (List UInt8)
deriving DecidableEq, Repr

namespace Pieces

/-- The next bytes, at most as many as there is room for. -/
def take (me : Pieces) (buf : Nat) : List UInt8 × Pieces :=
  match me.pieces with
  | [] => ([], { pieces := [] })
  | piece :: rest =>
      if piece.length ≤ buf then (piece, { pieces := rest })
      else (piece.take buf, { pieces := piece.drop buf :: rest })

instance : AsyncRead Pieces where
  pollRead me buf :=
    if (me.take buf).1 = [] then some (.pending, (me.take buf).2)
    else some (.ready (.ok (me.take buf).1), (me.take buf).2)

theorem pollRead_eq (me : Pieces) (buf : Nat) :
    AsyncRead.pollRead me buf =
      if (me.take buf).1 = [] then some (.pending, (me.take buf).2)
      else some (.ready (.ok (me.take buf).1), (me.take buf).2) := rfl

def unread (me : Pieces) : List UInt8 := me.pieces.flatten

def patience (me : Pieces) : Nat := me.pieces.countP (·.isEmpty)

theorem take_unread (me : Pieces) (buf : Nat) :
    me.unread = (me.take buf).1 ++ (me.take buf).2.unread := by
  rcases me with ⟨pieces⟩
  cases pieces with
  | nil => rfl
  | cons piece rest =>
      unfold take
      by_cases hle : piece.length ≤ buf
      · simp only [if_pos hle]
        rfl
      · simp only [if_neg hle]
        change (piece :: rest).flatten = piece.take buf ++ (piece.drop buf :: rest).flatten
        rw [List.flatten_cons, List.flatten_cons, ← List.append_assoc,
          List.take_append_drop]

theorem take_length (me : Pieces) (buf : Nat) : (me.take buf).1.length ≤ buf := by
  rcases me with ⟨pieces⟩
  cases pieces with
  | nil => exact Nat.zero_le buf
  | cons piece rest =>
      unfold take
      by_cases hle : piece.length ≤ buf
      · simp only [if_pos hle]
        exact hle
      · simp only [if_neg hle]
        exact List.length_take_le buf piece

theorem take_patience (me : Pieces) {buf : Nat} (hbuf : 0 < buf) :
    (me.take buf).2.patience ≤ me.patience ∧
      ((me.take buf).1 = [] -> me.unread ≠ [] ->
        (me.take buf).2.patience < me.patience) := by
  rcases me with ⟨pieces⟩
  cases pieces with
  | nil => exact ⟨Nat.le_refl _, fun _ h => absurd rfl h⟩
  | cons piece rest =>
      unfold take patience
      by_cases hle : piece.length ≤ buf
      · simp only [if_pos hle]
        refine ⟨List.Sublist.countP_le (List.sublist_cons_self piece rest), ?_⟩
        intro hempty _
        rw [hempty, List.countP_cons_of_pos rfl]
        exact Nat.lt_succ_self _
      · simp only [if_neg hle]
        have hdrop : piece.drop buf ≠ [] := by
          rw [Ne, List.drop_eq_nil_iff]
          exact hle
        have hpiece : piece ≠ [] := by
          intro h
          rw [h] at hle
          exact hle (Nat.zero_le buf)
        have hcount : forall p : List UInt8, p ≠ [] ->
            (p :: rest).countP (·.isEmpty) = rest.countP (·.isEmpty) := by
          intro p hp
          exact List.countP_cons_of_neg (by simpa using hp)
        rw [hcount _ hdrop, hcount _ hpiece]
        refine ⟨Nat.le_refl _, ?_⟩
        intro hempty
        rw [List.take_eq_nil_iff] at hempty
        rcases hempty with hzero | hnil
        · exact absurd hzero (Nat.ne_of_gt hbuf)
        · exact absurd hnil hpiece

instance : ByteSource Pieces where
  unread := unread
  patience := patience
  answers me n hn := by
    have hunread := me.take_unread n
    rcases me.take_patience hn with ⟨hpatience, hless⟩
    rw [pollRead_eq]
    by_cases hempty : (me.take n).1 = []
    · rw [if_pos hempty]
      refine ⟨.pending, _, rfl, ?_, hpatience, hless hempty⟩
      rw [hempty] at hunread
      exact hunread.symm
    · rw [if_neg hempty]
      exact ⟨.ready (.ok (me.take n).1), _, rfl, hempty, me.take_length n, hunread, hpatience⟩

end Pieces

end Io
end Smartmeter
