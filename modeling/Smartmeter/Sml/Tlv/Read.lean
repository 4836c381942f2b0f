import Smartmeter.Sml.Tlv.Reader

/-!
# Well-nested reads

An item borrows the reader of the list it comes from, so a list cannot be used
before the item taken from it is dropped.  A program that reads an item has this
nesting in its syntax: taking an item from a list runs a program for the item,
and the item is dropped when that program ends, whatever was read of it.
-/

namespace Smartmeter
namespace Sml
namespace Tlv

open Foundation

inductive Content : Kind -> Type -> Type where
  | read (buf : Nat) : Content .string (List UInt8)
  | intoBool : Content .boolean Bool
  | intoInteger (minsz maxsz : Nat) : Content .integer Int
  | intoUnsigned (minsz maxsz : Nat) : Content .unsigned Nat

/-- What taking the next item of a list gave, with the result of reading the item. -/
inductive Next (β : Type) where
  | error (e : Error)
  | endOfList
  | none
  | some (b : β)

/--
A program that reads an item of the given kind; the program for the items of a
list depends on their kind.
-/
inductive Read : Kind -> Type -> Type 1 where
  | done {kind : Kind} {α : Type} (a : α) : Read kind α
  | stuck {kind : Kind} {α : Type} : Read kind α
  | len {kind : Kind} {α : Type} (k : Nat -> Read kind α) : Read kind α
  | content {kind : Kind} {α β : Type} (c : Content kind β)
      (k : Except Error β -> Read kind α) : Read kind α
  | next {α β : Type} (child : (kind : Kind) -> Read kind β)
      (k : Next β -> Read .list α) : Read .list α
  | skip {α : Type} (num : Nat) (k : Except Error Unit -> Read .list α) : Read .list α
  | nextEnd {α : Type} (k : Except Error Unit -> Read .list α) : Read .list α

namespace Read

def bind {β : Type} : {kind : Kind} -> {α : Type} -> Read kind α ->
    (α -> Read kind β) -> Read kind β
  | _, _, .done a, f => f a
  | _, _, .stuck, _ => .stuck
  | _, _, .len k, f => .len fun n => (k n).bind f
  | _, _, .content c k, f => .content c fun r => (k r).bind f
  | _, _, .next child k, f => .next child fun r => (k r).bind f
  | _, _, .skip num k, f => .skip num fun r => (k r).bind f
  | _, _, .nextEnd k, f => .nextEnd fun r => (k r).bind f

instance (kind : Kind) : Monad (Read kind) where
  pure := .done
  bind := Read.bind

end Read

/-!
## Running a read program
-/

section

variable [Machine]

def Content.act {kind : Kind} {β : Type} : Content kind β -> Act Ops Error Handle β
  | .read buf => String.read buf
  | .intoBool => Boolean.intoBool
  | .intoInteger minsz maxsz => Integer.into minsz maxsz
  | .intoUnsigned minsz maxsz => Unsigned.into minsz maxsz

namespace Read

def run : {kind : Kind} -> {α : Type} -> Read kind α -> Handle -> Prog Ops (α × Handle)
  | _, _, .done a, self => .ret (a, self)
  | _, _, .stuck, _ => .stuck
  | _, _, .len k, self => (k self.len).run self
  | _, _, .content c k, self => (c.act self).bind fun (r, self) => (k r).run self
  | _, _, .skip num k, self => (List.skip num self).bind fun (r, self) => (k r).run self
  | _, _, .nextEnd k, self => (List.nextEnd self).bind fun (r, self) => (k r).run self
  | _, _, .next child k, self =>
      (List.next self).bind fun
        | (.error e, self) => (k (.error e)).run self
        | (.ok none, self) => (k .endOfList).run self
        | (.ok (some .none), self) => (k .none).run self
        | (.ok (some (.some kind size)), self) =>
            ((child kind).run { reader := self.reader, len := size }).bind
              fun (b, item) => (k (.some b)).run { self with reader := item.drop kind }

end Read

end

/-!
## Derived methods
-/

abbrev Reading (kind : Kind) : Type -> Type 1 := ExceptT Error (Read kind)

namespace Reading

variable {kind : Kind} {α β : Type}

def len : Reading kind Nat := ExceptT.mk (.len fun n => .done (.ok n))

def fail (e : Error) : Reading kind α := ExceptT.mk (.done (.error e))

def content (c : Content kind β) : Reading kind β :=
  ExceptT.mk (.content c fun r => .done r)

def skip (num : Nat) : Reading .list Unit :=
  ExceptT.mk (.skip num fun r => .done r)

def nextEnd : Reading .list Unit := ExceptT.mk (.nextEnd fun r => .done r)

def nextAny (none : Except Error β) (child : (kind : Kind) -> Reading kind β) :
    Reading .list β :=
  ExceptT.mk <| .next child fun
    | .error e => .done (.error e)
    | .endOfList => .done (.error .endOfList)
    | .none => .done none
    | .some r => .done r

def expect (kind : Kind) (child : Reading kind β) (kind' : Kind) : Reading kind' β :=
  if h : kind = kind' then h ▸ child else fail .unexpectedValue

def nextVariant (kind : Kind) (child : Reading kind β) : Reading .list β :=
  nextAny (.error .noneTlv) (expect kind child)

def nextVariantOpt (kind : Kind) (child : Reading kind β) : Reading .list (Option β) :=
  nextAny (.ok none) (expect kind (some <$> child))

def intoI8 : Reading .integer Int := content (.intoInteger 1 1)
def intoI16 : Reading .integer Int := content (.intoInteger 2 2)
def intoI32 : Reading .integer Int := content (.intoInteger 3 4)
def intoI64 : Reading .integer Int := content (.intoInteger 5 8)

def intoI32Relaxed : Reading .integer Int := do
  match ← len with
  | 1 => intoI8
  | 2 => intoI16
  | 3 | 4 => intoI32
  | other => fail (.unsupportedLen other)

def intoI64Relaxed : Reading .integer Int := do
  match ← len with
  | 1 => intoI8
  | 2 => intoI16
  | 3 | 4 => intoI32
  | 5 | 6 | 7 | 8 => intoI64
  | other => fail (.unsupportedLen other)

def intoU8 : Reading .unsigned Nat := content (.intoUnsigned 1 1)
def intoU16 : Reading .unsigned Nat := content (.intoUnsigned 2 2)
def intoU32 : Reading .unsigned Nat := content (.intoUnsigned 3 4)
def intoU64 : Reading .unsigned Nat := content (.intoUnsigned 5 8)

def intoU32Relaxed : Reading .unsigned Nat := do
  match ← len with
  | 1 => intoU8
  | 2 => intoU16
  | 3 | 4 => intoU32
  | other => fail (.unsupportedLen other)

def intoU64Relaxed : Reading .unsigned Nat := do
  match ← len with
  | 1 => intoU8
  | 2 => intoU16
  | 3 | 4 => intoU32
  | 5 | 6 | 7 | 8 => intoU64
  | other => fail (.unsupportedLen other)

def intoBool : Reading .boolean Bool := content .intoBool

def read (buf : Nat) : Reading .string (List UInt8) := content (.read buf)

end Reading

end Tlv
end Sml
end Smartmeter
