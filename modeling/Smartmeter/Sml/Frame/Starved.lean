import Smartmeter.Io.Finite
import Smartmeter.Sml.Frame.Delivery

/-!
# A frame that is cut off

A frame reader whose source ends within a group asks for the missing bytes over
and over again.  Next to a reader whose source pauses instead, it does the same
up to that point.
-/

namespace Smartmeter
namespace Sml
namespace Frame

open Foundation
open Io (AsyncRead ByteSource FiniteSource Paused)

/--
The answer to a poll and the answer where the source pauses instead of ending:
`Same` relates the states, `AtEnd` holds of the second one where the
first poll does not return.
-/
inductive Lockstep {σ τ α : Type} (Same : σ -> τ -> Prop) (patience : σ -> Nat)
    (AtEnd : τ -> Prop) (s : σ) : Option (Poll α × σ) -> Option (Poll α × τ) -> Prop where
  | answers (ans : Poll α) {s' : σ} {t' : τ} (same : Same s' t')
      (le : patience s' ≤ patience s) (less : ans = .pending -> patience s' < patience s) :
      Lockstep Same patience AtEnd s (some (ans, s')) (some (ans, t'))
  | hangs {t' : τ} (atEnd : AtEnd t') :
      Lockstep Same patience AtEnd s none (some (.pending, t'))
  | stuck : Lockstep Same patience AtEnd s none none

theorem Lockstep.of_le {σ τ α : Type} {Same : σ -> τ -> Prop} {patience : σ -> Nat}
    {AtEnd : τ -> Prop} {s s' : σ} {x : Option (Poll α × σ)} {y : Option (Poll α × τ)}
    (hle : patience s' ≤ patience s) (h : Lockstep Same patience AtEnd s' x y) :
    Lockstep Same patience AtEnd s x y := by
  cases h with
  | answers ans same le less =>
      exact .answers ans same (Nat.le_trans le hle) fun hans => Nat.lt_of_lt_of_le (less hans) hle
  | hangs atEnd => exact .hangs atEnd
  | stuck => exact .stuck

namespace CheckingReader

variable {ρ δ : Type}

def pause (me : CheckingReader ρ δ) : CheckingReader (Paused ρ) δ :=
  { reader := { reader := me.reader }
    state := me.state
    inEsc := me.inEsc
    bufferlist := me.bufferlist
    digest := me.digest }

def Iteration.pause : Iteration ρ δ -> Iteration (Paused ρ) δ
  | .continue me => .continue me.pause
  | .answer ans me => .answer ans me.pause

structure Hopeless [FiniteSource ρ] (me : CheckingReader ρ δ) : Prop where
  state : me.state = .readBuf
  first : me.first.length < 4
  exhausted : FiniteSource.Over me.reader

@[simp] theorem pause_continue (me : CheckingReader ρ δ) :
    (Iteration.continue me).pause = .continue me.pause := rfl

@[simp] theorem pause_answer (ans : Poll (Except Io.Error (List UInt8)))
    (me : CheckingReader ρ δ) : (Iteration.answer ans me).pause = .answer ans me.pause := rfl

theorem pause_returnHeldBack (me : CheckingReader ρ δ) :
    returnHeldBack me.pause = (returnHeldBack me).pause := by
  unfold returnHeldBack
  rw [apply_ite pause]
  rfl

variable [Digest δ]

theorem pause_footer (me : CheckingReader ρ δ) (num c0 c1 : UInt8) :
    footer me.pause num c0 c1 = (footer me num c0 c1).pause := by
  unfold footer
  simp only [apply_ite Iteration.pause]
  rfl

theorem escaped_escape (me : CheckingReader ρ δ)
    (h : (me.bufferlist.get 0).dataFilled = escape) :
    escaped me = .continue (returnHeldBack { me with
      inEsc := false
      digest := Digest.update me.digest (me.bufferlist.get 0).dataFilled
      bufferlist := me.bufferlist.swapBuffers }) :=
  if_pos h

theorem escaped_footer (me : CheckingReader ρ δ) {num c0 c1 : UInt8}
    (h : (me.bufferlist.get 0).dataFilled = [0x1A, num, c0, c1]) :
    escaped me = footer me num c0 c1 := by
  have hne : [0x1A, num, c0, c1] ≠ escape := by simp [escape]
  unfold escaped
  dsimp only
  rw [h]
  exact if_neg hne

theorem escaped_unknown (me : CheckingReader ρ δ)
    (hesc : (me.bufferlist.get 0).dataFilled ≠ escape)
    (h : forall num c0 c1, (me.bufferlist.get 0).dataFilled ≠ [0x1A, num, c0, c1]) :
    escaped me = .answer (.ready (.error .unimplemented)) { me with state := .ended } := by
  unfold escaped
  dsimp only
  rw [if_neg hesc]
  split
  · next num c0 c1 hgroup => exact absurd hgroup (h num c0 c1)
  · rfl

theorem pause_escaped (me : CheckingReader ρ δ) : escaped me.pause = (escaped me).pause := by
  by_cases hesc : (me.bufferlist.get 0).dataFilled = escape
  · let me' : CheckingReader ρ δ := { me with
      inEsc := false
      digest := Digest.update me.digest (me.bufferlist.get 0).dataFilled
      bufferlist := me.bufferlist.swapBuffers }
    rw [escaped_escape me hesc, escaped_escape me.pause hesc]
    exact congrArg Iteration.continue (pause_returnHeldBack me')
  · by_cases hfoot : exists num c0 c1, (me.bufferlist.get 0).dataFilled = [0x1A, num, c0, c1]
    · rcases hfoot with ⟨num, c0, c1, hgroup⟩
      rw [escaped_footer me hgroup, escaped_footer me.pause hgroup]
      exact pause_footer me num c0 c1
    · have hother : forall num c0 c1,
          (me.bufferlist.get 0).dataFilled ≠ [0x1A, num, c0, c1] :=
        fun num c0 c1 hgroup => hfoot ⟨num, c0, c1, hgroup⟩
      rw [escaped_unknown me hesc hother, escaped_unknown me.pause hesc hother]
      rfl

theorem pause_plain (me : CheckingReader ρ δ) : plain me.pause = (plain me).pause := by
  let me' : CheckingReader ρ δ := { me with
    digest := Digest.update me.digest (me.bufferlist.get 0).dataFilled
    bufferlist := me.bufferlist.swapBuffers }
  have hheld := pause_returnHeldBack me'
  unfold plain
  rw [apply_ite Iteration.pause, pause_continue, pause_continue, ← hheld]
  rfl

theorem pause_received (me : CheckingReader ρ δ) (bytes : List UInt8) :
    received me.pause bytes = (received me bytes).pause := by
  unfold received
  simp only [apply_ite Iteration.pause, ← pause_escaped, ← pause_plain]
  rfl

omit [Digest δ] in
theorem pause_returnBytes (me : CheckingReader ρ δ) (returned : Nat) (lastone : Bool)
    (buf : Nat) : returnBytes me.pause returned lastone buf =
      (returnBytes me returned lastone buf).pause := by
  unfold returnBytes
  simp only [apply_ite Iteration.pause, pause_answer, pause_continue, apply_ite pause]
  rfl

def Iteration.Busy : Iteration ρ δ -> Prop
  | .answer .pending _ => False
  | _ => True

theorem busy_footer (me : CheckingReader ρ δ) (num c0 c1 : UInt8) :
    (footer me num c0 c1).Busy := by
  unfold footer
  dsimp only
  split_ifs <;> trivial

theorem busy_received (me : CheckingReader ρ δ) (bytes : List UInt8) :
    (received me bytes).Busy := by
  unfold received escaped plain
  dsimp only
  split_ifs
  · trivial
  · trivial
  · split
    · exact busy_footer _ _ _ _
    · trivial
  · trivial
  · trivial

omit [Digest δ] in
theorem busy_returnBytes (me : CheckingReader ρ δ) (returned : Nat) (lastone : Bool)
    (buf : Nat) : (returnBytes me returned lastone buf).Busy := by
  unfold returnBytes
  dsimp only
  split_ifs <;> trivial

theorem received_nil (me : CheckingReader ρ δ) (hfirst : me.first.length < 4) :
    exists me' : CheckingReader ρ δ, received me [] = .continue me' ∧ me'.state = me.state ∧
      me'.first.length < 4 ∧ me'.reader = me.reader := by
  have hdata : ((me.bufferlist.modify 0 (·.addRead [])).get 0).data = me.first := by
    rw [BufferList.get_modify_zero]
    exact List.append_nil _
  have hread : ((me.bufferlist.modify 0 (·.addRead [])).get 0).read < 4 := by
    change ((me.bufferlist.modify 0 (·.addRead [])).get 0).data.length < 4
    rw [hdata]
    exact hfirst
  exact ⟨{ me with bufferlist := me.bufferlist.modify 0 (·.addRead []) }, if_pos hread, rfl,
    hread, rfl⟩

variable [FiniteSource ρ]

theorem Hopeless.iteration {me : CheckingReader ρ δ} (h : me.Hopeless) (buf : Nat) :
    exists me', iteration me buf = some (.continue me') ∧ me'.Hopeless := by
  have hroom : 0 < (me.bufferlist.get 0).len - (me.bufferlist.get 0).read :=
    Nat.sub_pos_of_lt h.first
  rcases h.exhausted.pollRead hroom with ⟨reader, hpoll, hover⟩
  rcases received_nil { me with reader := reader } h.first with
    ⟨me', hreceived, hstate, hfirst, hreader⟩
  refine ⟨me', ?_, hstate.trans h.state, hfirst, hreader.symm ▸ hover⟩
  unfold CheckingReader.iteration
  rw [h.state]
  dsimp only
  rw [hpoll, ← hreceived, h.state]

theorem Hopeless.pollLoop {me : CheckingReader ρ δ} (h : me.Hopeless) (buf n : Nat) :
    pollLoop n me buf = none := by
  induction n generalizing me with
  | zero => rfl
  | succ n ih =>
      rcases h.iteration buf with ⟨me', hiteration, hopeless⟩
      unfold CheckingReader.pollLoop
      rw [hiteration]
      exact ih hopeless

def AtEnd (me : CheckingReader (Paused ρ) δ) : Prop := me.unread = []

inductive IterationLockstep (me : CheckingReader ρ δ) :
    Option (Iteration ρ δ) -> Option (Iteration (Paused ρ) δ) -> Prop where
  | busy {x : Iteration ρ δ} (h : x.Busy) : IterationLockstep me (some x) (some x.pause)
  | pending (me' : CheckingReader ρ δ)
      (less : FiniteSource.patience me'.reader < FiniteSource.patience me.reader) :
      IterationLockstep me (some (.answer .pending me')) (some (.answer .pending me'.pause))
  | hopeless {me' : CheckingReader ρ δ} (me'' : CheckingReader (Paused ρ) δ)
      (hopeless : me'.Hopeless) (atEnd : AtEnd me'') :
      IterationLockstep me (some (.continue me')) (some (.answer .pending me''))

theorem iteration_lockstep (buf : Nat) {me : CheckingReader ρ δ} (hinv : me.pause.Inv) :
    IterationLockstep me (iteration me buf) (iteration me.pause buf) := by
  unfold iteration
  have hstate' : me.pause.state = me.state := rfl
  rw [hstate']
  cases hstate : me.state with
  | readBuf =>
      unfold Inv at hinv
      rw [hstate', hstate] at hinv
      have hroom : 0 < (me.bufferlist.get 0).len - (me.bufferlist.get 0).read :=
        Nat.sub_pos_of_lt hinv.1
      rcases FiniteSource.answers me.reader _ hroom with ⟨ans, reader, hpoll, hans⟩
      have hpaused : AsyncRead.pollRead me.pause.reader
          ((me.pause.bufferlist.get 0).len - (me.pause.bufferlist.get 0).read) =
          some (Paused.answer ans, ⟨reader⟩) := Paused.pollRead_of hpoll
      dsimp only
      rw [hpoll, hpaused]
      let me₁ : CheckingReader ρ δ := { me with reader := reader, state := .readBuf }
      cases ans with
      | pending => exact .pending me₁ hans.2
      | ready res =>
          cases res with
          | error e => exact hans.elim
          | ok bytes =>
              rcases hans with ⟨_, hunread, _, hend⟩
              cases bytes with
              | nil =>
                  rcases received_nil me₁ hinv.1 with
                    ⟨me', hreceived, hstate₁, hfirst₁, hreader₁⟩
                  rcases hend rfl with ⟨hempty, hpatience⟩
                  rw [hempty] at hunread
                  have hopeless : me'.Hopeless := by
                    refine ⟨hstate₁, hfirst₁, ?_⟩
                    rw [hreader₁]
                    exact ⟨hunread.symm, hpatience⟩
                  change IterationLockstep me (some (received me₁ [])) _
                  rw [hreceived]
                  exact .hopeless me₁.pause hopeless hunread.symm
              | cons b bytes =>
                  change IterationLockstep me (some (received me₁ (b :: bytes)))
                    (some (received me₁.pause (b :: bytes)))
                  rw [pause_received]
                  exact .busy (busy_received me₁ _)
  | returnBuf returned lastone =>
      dsimp only
      rw [pause_returnBytes]
      exact .busy (busy_returnBytes _ _ _ _)
  | ended => exact .busy (x := .answer (.ready (.ok [])) me) trivial

theorem pollLoop_lockstep {buf : Nat} (hbuf : buf ≠ 0) (n : Nat) (me : CheckingReader ρ δ)
    (hinv : me.pause.Inv) :
    Lockstep (fun me me' => me' = me.pause) (fun me => FiniteSource.patience me.reader) AtEnd me
      (CheckingReader.pollLoop n me buf) (CheckingReader.pollLoop n me.pause buf) := by
  induction n generalizing me with
  | zero => exact .stuck
  | succ n ih =>
      rcases iteration_keeps hbuf hinv with ⟨x, hx, hkeeps⟩
      have hlockstep := iteration_lockstep buf hinv
      rw [hx] at hlockstep
      unfold CheckingReader.pollLoop
      rw [hx]
      generalize hiter : iteration me buf = y at hlockstep
      cases hlockstep with
      | @busy y hbusy =>
          cases y with
          | «continue» me' =>
              exact (ih me' hkeeps.1).of_le hkeeps.2.patience
          | answer ans me' =>
              refine .answers ans rfl hkeeps.patience ?_
              intro hans
              rw [hans] at hbusy
              exact hbusy.elim
      | @pending me' less => exact .answers .pending rfl hkeeps.patience fun _ => less
      | @hopeless me' me'' hopeless atEnd =>
          dsimp only
          rw [hopeless.pollLoop]
          exact .hangs atEnd

end CheckingReader

end Frame
end Sml
end Smartmeter
