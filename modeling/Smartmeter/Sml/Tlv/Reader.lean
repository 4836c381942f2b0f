import Smartmeter.Foundation.BigEndian
import Smartmeter.Foundation.ByteProg
import Smartmeter.Foundation.Machine
import Smartmeter.Sml.Error

/-!
# The TLV reader

TLV items are read lazily.  What was not read of an item when it is dropped is
added to one of two counters of the reader, bytes for strings and numbers, items
for lists, and is skipped before the next header is read.
-/

namespace Smartmeter
namespace Sml
namespace Tlv

open Foundation

abbrev Ops : Sig := ReadSig Io.Error

/-!
## Headers
-/

/-- One byte of a TLV header: `has_more`, `ty_raw` and `len`. -/
structure TlvHeader where
  byte : UInt8
deriving DecidableEq, Repr

namespace TlvHeader

def hasMore (h : TlvHeader) : Bool := 128 ≤ h.byte.toNat

def tyRaw (h : TlvHeader) : UInt8 := UInt8.ofNat (h.byte.toNat / 16 % 8)

def len (h : TlvHeader) : Nat := h.byte.toNat % 16

def ty (h : TlvHeader) : TlvType := TlvType.ofByte h.tyRaw

end TlvHeader

structure Reader where
  remainingBytes : Nat
  remainingTlvs : Nat
deriving DecidableEq, Repr

section

variable {σ : Type}

def readU8 : Act Ops Error σ UInt8 :=
  fun s => .op .u8 fun r => .ret (r.mapError Error.io, s)

def readExact (buf : Nat) : Act Ops Error σ (List UInt8) :=
  fun s => .op (.exact buf) fun r => .ret (r.mapError Error.io, s)

end

namespace Reader

variable [Machine]

def new : Reader := { remainingBytes := 0, remainingTlvs := 0 }

/--
One iteration of the header loop, on the last header byte, the length and the
length of the header.  The last is a plain number: it counts the bytes of one
header, so the `header_len += 1` of the code can only wrap in a header of
`2 ^ usizeBits` bytes, and nothing in the firmware gets so many: at 9600 baud
they take more than seven weeks on words of 32 bits.
-/
def headerLoop : TlvHeader × Nat × Nat ->
    Act Ops Error Reader ((TlvHeader × Nat × Nat) ⊕ (TlvHeader × Nat × Nat))
  | (header, len, headerLen) => do
    if header.hasMore then
      let byte ← readU8
      let header : TlvHeader := { byte := byte }
      if header.tyRaw ≠ 0 then
        Act.fail (.multibyteTlvReservedType header.tyRaw)
      else
        match Usize.checkedShl len 4 with
        | none => Act.fail .tlvLengthTooBig
        | some len =>
            match Usize.checkedAdd len header.len with
            | none => Act.fail .tlvLengthTooBig
            | some len => pure (.inl (header, len, headerLen + 1))
    else pure (.inr (header, len, headerLen))

/--
The end of `read_tlv_inner`: `ty` is the type of the first header
byte, `header` is the last header byte.
-/
def headerEnd (ty : TlvType) (header : TlvHeader) (len headerLen : Nat) :
    Except Error (TlvType × Nat) :=
  match header.ty with
  | .list => .ok (ty, len)
  | .string =>
      if len = 0 then .error .endOfSmlMessage else
      match Usize.checkedSub len headerLen with
      | none => .error (.shortTlvLength len)
      | some len => .ok (ty, len)
  | _ =>
      if len = 0 then .error (.shortTlvLength len) else
      match Usize.checkedSub len headerLen with
      | none => .error (.shortTlvLength len)
      | some len => .ok (ty, len)

def readTlvInner : Act Ops Error Reader (TlvType × Nat) := do
  let byte ← readU8
  let header : TlvHeader := { byte := byte }
  let ty := header.ty
  let (header, len, headerLen) ←
    Act.iterate Machine.fuel headerLoop (header, header.len, 1)
  Act.ofExcept (headerEnd ty header len headerLen)

def skipBytesLoop (num : Nat) : Act Ops Error Reader (Nat ⊕ Unit) := do
  if num > 0 then
    let readlen := min num 4
    let _ ← readExact readlen
    pure (.inl (num - readlen))
  else pure (.inr ())

def skipBytes (num : Nat) : Act Ops Error Reader Unit :=
  Act.iterate Machine.fuel skipBytesLoop num

def skipTlvsLoop (num : Nat) : Act Ops Error Reader (Nat ⊕ Unit) := do
  if num > 0 then
    let num := num - 1
    match ← Act.attempt readTlvInner with
    | .error .endOfSmlMessage =>
        if num = 0 then Act.fail .endOfSmlMessage
        else Act.fail (.midMessageEndMarker num)
    | .error e => Act.fail e
    | .ok (.list, len) => pure (.inl (Usize.wrappingAdd num len))
    | .ok (_, len) => do
        skipBytes len
        pure (.inl num)
  else pure (.inr ())

def skipTlvs (num : Nat) : Act Ops Error Reader Unit :=
  Act.iterate Machine.fuel skipTlvsLoop num

def skipNow : Act Ops Error Reader Unit := do
  let remainingBytes ← Act.gets Reader.remainingBytes
  if remainingBytes > 0 then
    skipBytes remainingBytes
    Act.modify fun r => { r with remainingBytes := 0 }
  let remainingTlvs ← Act.gets Reader.remainingTlvs
  if remainingTlvs > 0 then
    skipTlvs remainingTlvs
    Act.modify fun r => { r with remainingTlvs := 0 }

def readTlv : Act Ops Error Reader (TlvType × Nat) := do
  skipNow
  readTlvInner

def readList : Act Ops Error Reader Nat := do
  let (ty, len) ← readTlv
  match ty with
  | .list => pure len
  | ty => Act.fail (.unexpectedTlv ty len)

end Reader

/-!
## Items
-/

inductive Kind where
  | string
  | boolean
  | integer
  | unsigned
  | list
deriving DecidableEq, Repr

/-- A `List` and its relatives: the reader and what is left of the item. -/
structure Handle where
  reader : Reader
  len : Nat
deriving DecidableEq, Repr

inductive Item where
  | some (kind : Kind) (len : Nat)
  | none
deriving DecidableEq, Repr

namespace Handle

variable [Machine]

def drop (kind : Kind) (self : Handle) : Reader :=
  match kind with
  | .list =>
      { self.reader with
        remainingTlvs := Usize.wrappingAdd self.reader.remainingTlvs self.len }
  | _ =>
      { self.reader with
        remainingBytes := Usize.wrappingAdd self.reader.remainingBytes self.len }

def scope {S : Sig} {α : Type} (kind : Kind) (len : Nat)
    (body : Act S Error Handle α) : Act S Error Reader α :=
  Act.borrow (fun r => { reader := r, len := len }) (fun h _ => h.drop kind) body

def withReader {S : Sig} {α : Type} (body : Act S Error Reader α) :
    Act S Error Handle α :=
  Act.borrow Handle.reader (fun r h => { h with reader := r }) body

end Handle

/-!
## Lists
-/

namespace List

variable [Machine]

def next : Act Ops Error Handle (Option Item) := do
  let len ← Act.gets Handle.len
  if len = 0 then pure none
  else
    let (ty, len) ← Handle.withReader Reader.readTlv
    Act.modify fun self => { self with len := self.len - 1 }
    match ty with
    | .string =>
        if len = 0 then pure (some .none) else pure (some (.some .string len))
    | .boolean => pure (some (.some .boolean len))
    | .integer => pure (some (.some .integer len))
    | .unsigned => pure (some (.some .unsigned len))
    | .list => pure (some (.some .list len))
    | .other ty => Act.fail (.unsupportedTlvType ty)

def nextAny : Act Ops Error Handle Item := do
  match ← next with
  | some v => pure v
  | none => Act.fail .endOfList

def dropItem : Option Item -> Act Ops Error Handle Unit
  | some (.some kind len) => Handle.withReader (Handle.scope kind len (pure ()))
  | _ => pure ()

def nextVariant (kind : Kind) : Act Ops Error Handle Nat := do
  match ← nextAny with
  | .some kind' len =>
      if kind' = kind then pure len
      else
        dropItem (some (.some kind' len))
        Act.fail .unexpectedValue
  | .none => Act.fail .noneTlv

def nextEnd : Act Ops Error Handle Unit := do
  match ← Act.attempt next with
  | .error .endOfSmlMessage =>
      Act.modify fun self => { self with len := self.len - 1 }
  | .error e => Act.fail e
  | .ok item => do
      dropItem item
      Act.fail .unexpectedValue

def skip (num : Nat) : Act Ops Error Handle Unit := do
  let len ← Act.gets Handle.len
  if num > len then Act.fail .endOfList
  else
    Act.modify fun self => { self with
      reader := { self.reader with
        remainingTlvs := Usize.wrappingAdd self.reader.remainingTlvs num } }
    Act.modify fun self => { self with len := self.len - num }

end List

/-!
## Strings and numbers
-/

def String.read (buf : Nat) : Act Ops Error Handle (List UInt8) := do
  let len ← Act.gets Handle.len
  if buf ≠ len then Act.fail .wrongBufferSize
  else
    let bytes ← readExact buf
    Act.modify fun self => { self with len := 0 }
    pure bytes

def Boolean.intoBool : Act Ops Error Handle Bool := do
  let len ← Act.gets Handle.len
  if len ≠ 1 then Act.fail (.unsupportedLen len)
  else
    let v ← readU8
    Act.modify fun self => { self with len := 0 }
    pure (v ≠ 0)

def fillBuf (maxsz : Nat) (signed : Bool) (readbuf : List UInt8) : List UInt8 :=
  let fill : UInt8 := if signed ∧ 128 ≤ (readbuf.headD 0).toNat then 0xFF else 0x00
  List.replicate (maxsz - readbuf.length) fill ++ readbuf

def intoBytes (minsz maxsz : Nat) : Act Ops Error Handle (List UInt8) := do
  let len ← Act.gets Handle.len
  if minsz ≤ len ∧ len ≤ maxsz then
    let readbuf ← readExact len
    Act.modify fun self => { self with len := 0 }
    pure readbuf
  else Act.fail (.unsupportedLen len)

namespace Integer

def into (minsz maxsz : Nat) : Act Ops Error Handle Int := do
  let readbuf ← intoBytes minsz maxsz
  pure (beInt (fillBuf maxsz true readbuf))

end Integer

namespace Unsigned

def into (minsz maxsz : Nat) : Act Ops Error Handle Nat := do
  let readbuf ← intoBytes minsz maxsz
  pure (beNat (fillBuf maxsz false readbuf))

end Unsigned

end Tlv
end Sml
end Smartmeter
