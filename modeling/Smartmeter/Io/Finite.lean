import Smartmeter.Io

/-!
# Sources that come to an end

A source of finitely many bytes reports its end by reading nothing, and goes on
doing so.  The same source with a pause in place of every such report never
ends, it waits.
-/

namespace Smartmeter
namespace Io

open Foundation

/-- A source that delivers a byte string in pieces and then reports the end. -/
class FiniteSource (ρ : Type) extends AsyncRead ρ where
  /-- The bytes that were not taken from the source yet. -/
  unread : ρ -> List UInt8
  /-- How often the source can still answer that nothing is there yet. -/
  patience : ρ -> Nat
  answers : forall r n, 0 < n ->
    exists ans r', pollRead r n = some (ans, r') ∧
      match ans with
      | .pending => unread r' = unread r ∧ patience r' < patience r
      | .ready (.error _) => False
      | .ready (.ok bytes) => bytes.length ≤ n ∧ unread r = bytes ++ unread r' ∧
          patience r' ≤ patience r ∧ (bytes = [] -> unread r = [] ∧ patience r' = 0)

namespace FiniteSource

variable {ρ : Type} [FiniteSource ρ]

def Over (r : ρ) : Prop := unread r = [] ∧ patience r = 0

theorem Over.pollRead {r : ρ} (h : Over r) {n : Nat} (hn : 0 < n) :
    exists r', AsyncRead.pollRead r n = some (.ready (.ok []), r') ∧ Over r' := by
  rcases answers r n hn with ⟨ans, r', hpoll, hans⟩
  cases ans with
  | pending =>
      rw [h.2] at hans
      exact absurd hans.2 (Nat.not_lt_zero _)
  | ready res =>
      cases res with
      | error e => exact hans.elim
      | ok bytes =>
          rcases hans with ⟨_, hunread, hpatience, _⟩
          rw [h.1] at hunread
          rw [h.2] at hpatience
          rcases List.append_eq_nil_iff.mp hunread.symm with ⟨rfl, hunread'⟩
          exact ⟨r', hpoll, hunread', Nat.le_zero.mp hpatience⟩

end FiniteSource

/-!
## A pause for the end
-/

structure Paused (ρ : Type) where
  reader : ρ

namespace Paused

variable {ρ : Type} [FiniteSource ρ]

def answer : Poll (Except Error (List UInt8)) -> Poll (Except Error (List UInt8))
  | .ready (.ok []) => .pending
  | ans => ans

instance : AsyncRead (Paused ρ) where
  pollRead me buf := (AsyncRead.pollRead me.reader buf).map fun x => (answer x.1, ⟨x.2⟩)

theorem pollRead_of {r r' : ρ} {buf : Nat} {ans : Poll (Except Error (List UInt8))}
    (h : AsyncRead.pollRead r buf = some (ans, r')) :
    AsyncRead.pollRead (Paused.mk r) buf = some (answer ans, Paused.mk r') := by
  change (AsyncRead.pollRead r buf).map _ = _
  rw [h]
  rfl

instance : ByteSource (Paused ρ) where
  unread me := FiniteSource.unread me.reader
  patience me := FiniteSource.patience me.reader
  answers me n hn := by
    rcases FiniteSource.answers me.reader n hn with ⟨ans, r', hpoll, hans⟩
    refine ⟨answer ans, ⟨r'⟩, pollRead_of hpoll, ?_⟩
    cases ans with
    | pending => exact ⟨hans.1, Nat.le_of_lt hans.2, fun _ => hans.2⟩
    | ready res =>
        cases res with
        | error e => exact hans.elim
        | ok bytes =>
            rcases hans with ⟨hroom, hunread, hpatience, hend⟩
            cases bytes with
            | nil =>
                refine ⟨hunread.symm, hpatience, ?_⟩
                intro hne
                exact absurd (hend rfl).1 hne
            | cons b bytes => exact ⟨List.cons_ne_nil b bytes, hroom, hunread, hpatience⟩

end Paused

/-!
## A recorded line
-/

/-- The pieces of a recorded line; behind the last of them is the end. -/
structure Recorded where
  line : Pieces
deriving DecidableEq, Repr

namespace Recorded

instance : AsyncRead Recorded where
  pollRead me buf :=
    if me.line.pieces = [] then some (.ready (.ok []), me)
    else (AsyncRead.pollRead me.line buf).map fun x => (x.1, ⟨x.2⟩)

theorem take_patience_lt {line : Pieces} (h : line.pieces ≠ []) {buf : Nat} (hbuf : 0 < buf)
    (hempty : (line.take buf).1 = []) : (line.take buf).2.patience < line.patience := by
  rcases line with ⟨pieces⟩
  cases pieces with
  | nil => exact absurd rfl h
  | cons piece rest =>
      unfold Pieces.take at hempty ⊢
      by_cases hle : piece.length ≤ buf
      · simp only [if_pos hle] at hempty ⊢
        unfold Pieces.patience
        rw [hempty, List.countP_cons_of_pos rfl]
        exact Nat.lt_succ_self _
      · simp only [if_neg hle] at hempty
        rw [List.take_eq_nil_iff] at hempty
        rcases hempty with hzero | hnil
        · exact absurd hzero (Nat.ne_of_gt hbuf)
        · rw [hnil] at hle
          exact absurd (Nat.zero_le buf) hle

instance : FiniteSource Recorded where
  unread me := me.line.unread
  patience me := me.line.patience
  answers me n hn := by
    rcases me with ⟨line⟩
    by_cases hnil : line.pieces = []
    · have hunread : line.unread = [] := by
        unfold Pieces.unread
        rw [hnil]
        rfl
      have hpatience : line.patience = 0 := by
        unfold Pieces.patience
        rw [hnil]
        rfl
      exact ⟨.ready (.ok []), ⟨line⟩, if_pos hnil, Nat.zero_le n, rfl, Nat.le_refl _,
        fun _ => ⟨hunread, hpatience⟩⟩
    · have hunread := line.take_unread n
      have hless := take_patience_lt hnil hn
      by_cases hempty : (line.take n).1 = []
      · refine ⟨.pending, ⟨(line.take n).2⟩, ?_, ?_, hless hempty⟩
        · change (if line.pieces = [] then _ else _) = _
          rw [if_neg hnil, Pieces.pollRead_eq, if_pos hempty]
          rfl
        · rw [hempty] at hunread
          exact hunread.symm
      · refine ⟨.ready (.ok (line.take n).1), ⟨(line.take n).2⟩, ?_, line.take_length n, hunread,
          (line.take_patience hn).1, fun h => absurd h hempty⟩
        change (if line.pieces = [] then _ else _) = _
        rw [if_neg hnil, Pieces.pollRead_eq, if_neg hempty]
        rfl

end Recorded

end Io
end Smartmeter
