import Smartmeter.Sml.Simulation

/-!
# A task that waits, waits for its source

No layer of readers answers that nothing is there yet unless the source has just
said so, and the source is asked for at least one byte.
-/

namespace Smartmeter
namespace Sml

open Foundation
open Io (AsyncRead ByteSource ReadExact ReadU8)

def Paused {ρ : Type} [AsyncRead ρ] (Q : ρ -> Prop) : Prop :=
  forall r n r', 0 < n -> AsyncRead.pollRead r n = some (.pending, r') -> Q r'

namespace Frame
namespace CheckingReader

variable {ρ δ : Type} [Digest δ] [ByteSource ρ] {Q : ρ -> Prop}

omit [ByteSource ρ] in
theorem footer_not_pending (me me' : CheckingReader ρ δ) (num c0 c1 : UInt8) :
    footer me num c0 c1 ≠ .answer .pending me' := by
  unfold footer
  dsimp only
  split
  · nofun
  · split
    · nofun
    · split <;> nofun

omit [ByteSource ρ] in
theorem received_not_pending (me me' : CheckingReader ρ δ) (bytes : List UInt8) :
    received me bytes ≠ .answer .pending me' := by
  unfold received
  dsimp only
  split
  · nofun
  · split
    · unfold escaped
      dsimp only
      split
      · nofun
      · split
        · exact footer_not_pending _ _ _ _ _
        · nofun
    · unfold plain
      dsimp only
      split <;> nofun

omit [Digest δ] [ByteSource ρ] in
theorem returnBytes_not_pending (me me' : CheckingReader ρ δ) (returned : Nat) (lastone : Bool)
    (buf : Nat) : returnBytes me returned lastone buf ≠ .answer .pending me' := by
  unfold returnBytes
  dsimp only
  split <;> nofun

theorem iteration_paused (hQ : Paused Q) {buf : Nat} {me me' : CheckingReader ρ δ}
    (hinv : me.Inv) (h : iteration me buf = some (.answer .pending me')) : Q me'.reader := by
  unfold iteration at h
  cases hstate : me.state with
  | readBuf =>
      unfold Inv at hinv
      simp only [hstate] at hinv h
      have hroom : 0 < (me.bufferlist.get 0).len - (me.bufferlist.get 0).read :=
        Nat.sub_pos_of_lt hinv.1
      cases hpoll : AsyncRead.pollRead me.reader
          ((me.bufferlist.get 0).len - (me.bufferlist.get 0).read) with
      | none =>
          rw [hpoll] at h
          cases h
      | some x =>
          rcases x with ⟨ans, reader⟩
          rw [hpoll] at h
          cases ans with
          | pending =>
              cases h
              exact hQ _ _ _ hroom hpoll
          | ready res =>
              cases res with
              | error e => cases h
              | ok bytes =>
                  injection h with h
                  exact absurd h (received_not_pending _ _ _)
  | returnBuf returned lastone =>
      simp only [hstate] at h
      injection h with h
      exact absurd h (returnBytes_not_pending _ _ _ _ _)
  | ended =>
      simp only [hstate] at h
      cases h

theorem pollLoop_paused (hQ : Paused Q) {buf : Nat} (hbuf : buf ≠ 0) {n : Nat}
    {me me' : CheckingReader ρ δ} (hinv : me.Inv)
    (h : pollLoop n me buf = some (.pending, me')) : Q me'.reader := by
  induction n generalizing me with
  | zero => cases h
  | succ n ih =>
      unfold pollLoop at h
      rcases iteration_keeps hbuf hinv with ⟨x, hx, hkeeps⟩
      rw [hx] at h
      cases x with
      | answer ans me₁ =>
          cases h
          exact iteration_paused hQ hinv hx
      | «continue» me₁ => exact ih hkeeps.1 h

end CheckingReader
end Frame

namespace World

variable {ρ δ ω : Type} [Digest δ] [ByteSource ρ] [Machine] {Q : ρ -> Prop}

theorem pollRead_paused (hQ : Paused Q) {buf : Nat} (hbuf : buf ≠ 0) {w w' : World ρ δ ω}
    (hinv : w.Inv) (h : AsyncRead.pollRead w buf = some (.pending, w')) :
    Q w'.line.reader := by
  rcases w with ⟨line, taken, log⟩
  cases line with
  | source reader => cases h
  | frame messages =>
      rcases messages with ⟨inner, digest⟩
      rcases inner.pollRead_polled hbuf hinv with ⟨ans, inner', hpoll, _⟩
      have hmessages := Message.CheckingReader.pollRead_eq digest hpoll
      simp only [AsyncRead.pollRead] at hmessages h
      simp only [hmessages] at h
      cases h
      exact Frame.CheckingReader.pollLoop_paused hQ hbuf hinv hpoll

theorem readExact_paused (hQ : Paused Q) (iters : Nat) {fut fut' : ReadExact}
    {w w' : World ρ δ ω} (hinv : w.Inv)
    (h : ReadExact.pollLoop iters fut w = some (.pending, fut', w')) : Q w'.line.reader := by
  induction iters generalizing fut w with
  | zero =>
      unfold ReadExact.pollLoop at h
      split at h <;> cases h
  | succ iters ih =>
      unfold ReadExact.pollLoop at h
      by_cases hzero : fut.buf = 0
      · rw [if_pos hzero] at h
        cases h
      · rw [if_neg hzero] at h
        rcases pollRead_polled hzero hinv with ⟨ans, w₁, hpoll, hpolled⟩
        rw [hpoll] at h
        cases ans with
        | pending =>
            cases h
            exact pollRead_paused hQ hzero hinv hpoll
        | ready res =>
            cases res with
            | error e => cases h
            | ok bytes =>
                dsimp only at h
                split at h
                · cases h
                · split at h
                  · cases h
                  · exact ih hpolled.inv h

theorem readU8_paused (hQ : Paused Q) {fut fut' : ReadU8} {w w' : World ρ δ ω}
    (hinv : w.Inv) (hread : fut.read = 0)
    (h : ReadU8.poll fut w = some (.pending, fut', w')) : Q w'.line.reader := by
  unfold ReadU8.poll at h
  rw [if_neg (by lia), hread] at h
  rcases pollRead_polled Nat.one_ne_zero hinv with ⟨ans, w₁, hpoll, _⟩
  rw [hpoll] at h
  cases ans with
  | pending =>
      cases h
      exact pollRead_paused hQ Nat.one_ne_zero hinv hpoll
  | ready res =>
      rcases res with _ | bytes
      · cases h
      · cases bytes <;> cases h

omit [Machine] [Digest δ] in
theorem source_paused (hQ : Paused Q) {fut fut' : ReadU8} {reader reader' : ρ}
    (hread : fut.read = 0) (h : ReadU8.poll fut reader = some (.pending, fut', reader')) :
    Q reader' := by
  unfold ReadU8.poll at h
  rw [if_neg (by lia), hread] at h
  cases hpoll : AsyncRead.pollRead reader (1 - 0) with
  | none =>
      rw [hpoll] at h
      cases h
  | some x =>
      rcases x with ⟨ans, r⟩
      rw [hpoll] at h
      cases ans with
      | pending =>
          cases h
          exact hQ _ _ _ Nat.one_pos hpoll
      | ready res =>
          rcases res with _ | bytes
          · cases h
          · cases bytes <;> cases h

theorem poll_paused (hQ : Paused Q) {o : TaskOp ω} {fut fut' : TaskFut o} {w w' : World ρ δ ω}
    (hinv : w.Inv) (hfut : FutInv fut)
    (h : (taskDriver (ρ := ρ) (δ := δ)).poll fut w = some (.pending, fut', w')) :
    Q w'.line.reader := by
  cases o with
  | readU8 =>
      simp only [taskDriver] at h
      cases hpoll : ReadU8.poll fut w.line.reader with
      | none =>
          rw [hpoll] at h
          cases h
      | some x =>
          rcases x with ⟨ans, fut₁, reader⟩
          rw [hpoll] at h
          cases h
          exact source_paused hQ hfut hpoll
  | read o =>
      cases o with
      | u8 => exact readU8_paused hQ hinv hfut h
      | exact n => exact readExact_paused hQ fut.buf hinv h
  | newFrame => cases h
  | hasEnded => cases h
  | finalize => cases h
  | reset => cases h
  | call e => cases h

theorem waiting_paused {α : Type} (hQ : Paused Q)
    {x : Standing (taskDriver (ρ := ρ) (δ := δ) (ω := ω)) α} (hx : agrees.Sound x)
    (hwaiting : x.isWaiting = true) {t : Task (taskDriver (ρ := ρ) (δ := δ)) α}
    {w : World ρ δ ω} (h : x.poll = .waiting t w) : Q w.line.reader :=
  agrees.waiting_of_pending (Q := fun w => Q w.line.reader)
    (fun _ _ _ _ hinv hfut hpoll => poll_paused hQ hinv hfut hpoll) hx hwaiting h

end World

end Sml
end Smartmeter
