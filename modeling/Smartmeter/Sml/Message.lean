import Smartmeter.Foundation.Machine
import Smartmeter.Io

/-!
# The message reader

`message::CheckingReader` passes every read on and feeds the bytes that
were read to the checksum of the message.
-/

namespace Smartmeter
namespace Sml
namespace Message

open Foundation
open Io (AsyncRead answerBytes)

structure CheckingReader (ρ δ : Type) where
  inner : ρ
  digest : δ

namespace CheckingReader

variable {ρ δ : Type} [Digest δ]

def new (reader : ρ) : CheckingReader ρ δ :=
  { inner := reader, digest := Digest.digest }

def finalize (me : CheckingReader ρ δ) : UInt16 × CheckingReader ρ δ :=
  (Digest.finalize me.digest, { me with digest := Digest.digest })

def reset (me : CheckingReader ρ δ) : CheckingReader ρ δ :=
  { me with digest := Digest.digest }

instance [AsyncRead ρ] : AsyncRead (CheckingReader ρ δ) where
  pollRead me buf :=
    match AsyncRead.pollRead me.inner buf with
    | none => none
    | some (.ready (.ok bytes), inner) =>
        some (.ready (.ok bytes),
          { inner := inner, digest := Digest.update me.digest bytes })
    | some (ans, inner) => some (ans, { me with inner := inner })

theorem pollRead_eq [AsyncRead ρ] {inner inner' : ρ} (digest : δ) {buf : Nat}
    {ans : Poll (Except Io.Error (List UInt8))}
    (h : AsyncRead.pollRead inner buf = some (ans, inner')) :
    AsyncRead.pollRead ({ inner := inner, digest := digest } : CheckingReader ρ δ) buf =
      some (ans, { inner := inner', digest := Digest.update digest (answerBytes ans) }) := by
  change (match AsyncRead.pollRead inner buf with
    | none => none
    | some (Poll.ready (Except.ok bytes), inner) =>
        some (Poll.ready (Except.ok bytes),
          CheckingReader.mk inner (Digest.update digest bytes))
    | some (ans, inner) => some (ans, CheckingReader.mk inner digest)) = _
  rw [h]
  cases ans with
  | pending =>
      unfold answerBytes
      rw [Digest.update_nil]
  | ready r =>
      cases r with
      | ok bytes => rfl
      | error e =>
          unfold answerBytes
          rw [Digest.update_nil]

end CheckingReader

end Message
end Sml
end Smartmeter
