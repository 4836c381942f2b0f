import Smartmeter.Sml.Tlv.Read

/-!
# The generated types

The accessors that the build script generates from the schema, as far as frames
and the firmware use them.  A structure stands at one of its fields, given by
the field's number; reading a later field skips the fields in between.  A field
that is not a number is read within the scope of the item it is.
-/

namespace Smartmeter
namespace Sml
namespace Types

open Tlv

variable {β : Type}

def field (numSkip : Nat) (parse : Reading .list β) : Reading .list β := do
  if numSkip > 0 then
    Reading.skip numSkip
  parse

/-!
## `SML_Message`

The fields are `transactionId`, `groupNo`, `abortOnError`,
`messageBody`, `crc16` and `endOfSmlMsg`; each is read from the
structure that stands at it.
-/

namespace Message

def transactionId (child : Reading .string β) : Reading .list β :=
  field 0 (Reading.nextVariant .string child)

def groupNo : Reading .list Nat :=
  field 0 (Reading.nextVariant .unsigned Reading.intoU8)

def abortOnError : Reading .list Nat :=
  field 0 (Reading.nextVariant .unsigned Reading.intoU8)

def crc16 : Reading .list Nat :=
  field 0 (Reading.nextVariant .unsigned Reading.intoU16)

def endOfSmlMsg : Reading .list Unit :=
  field 0 Reading.nextEnd

end Message

/-!
## `SML_MessageBody`
-/

inductive MessageBodyEnum where
  | openRequest
  | openResponse
  | closeRequest
  | closeResponse
  | getProfilePackRequest
  | getProfilePackResponse
  | getProfileListRequest
  | getProfileListResponse
  | getProcParameterRequest
  | getProcParameterResponse
  | setProcParameterRequest
  | getListRequest
  | getListResponse
  | attentionResponse
deriving DecidableEq, Repr

namespace MessageBodyEnum

def ofTag (tag : Nat) : Option MessageBodyEnum :=
  match tag with
  | 0x100 => some .openRequest
  | 0x101 => some .openResponse
  | 0x200 => some .closeRequest
  | 0x201 => some .closeResponse
  | 0x300 => some .getProfilePackRequest
  | 0x301 => some .getProfilePackResponse
  | 0x400 => some .getProfileListRequest
  | 0x401 => some .getProfileListResponse
  | 0x500 => some .getProcParameterRequest
  | 0x501 => some .getProcParameterResponse
  | 0x600 => some .setProcParameterRequest
  | 0x700 => some .getListRequest
  | 0x701 => some .getListResponse
  | 0xFF01 => some .attentionResponse
  | _ => none

end MessageBodyEnum

def MessageBody.read (child : MessageBodyEnum -> Reading .list β) : Reading .list β := do
  let tag ← Reading.nextVariant .unsigned Reading.intoU32Relaxed
  match MessageBodyEnum.ofTag tag with
  | some variant => Reading.nextVariant .list (child variant)
  | none => Reading.fail (.unsupportedTag tag)

/-!
## `SML_GetList.Res`

The fields of the response are `clientId`, `serverId`,
`listName`, `actSensorTime`, `valList`, `listSignature` and
`actGatewayTime`; the fields of an entry of its list are `objName`,
`status`, `valTime`, `unit`, `scaler`, `value` and
`valueSignature`.
-/

def GetListResponse.valList (child : Reading .list β) : Reading .list β :=
  field 4 (Reading.nextVariant .list child)

def SmlList.next (child : Reading .list β) : Reading .list (Option β) := do
  if (← Reading.len) = 0 then pure none
  else
    let entry ← Reading.nextVariant .list child
    pure (some entry)

namespace ListEntry

def objName (child : Reading .string β) : Reading .list β :=
  field 0 (Reading.nextVariant .string child)

def scaler : Reading .list (Option Int) :=
  field 3 (Reading.nextVariantOpt .integer Reading.intoI8)

end ListEntry

/-!
## `SML_Value`
-/

/-- `ValueEnum`, without the strings and lists that stay unread. -/
inductive ValueEnum where
  | booleanValue (b : Bool)
  | byteList
  | n8BitInteger (n : Int)
  | n16BitInteger (n : Int)
  | n32BitInteger (n : Int)
  | n64BitInteger (n : Int)
  | n8BitUnsigned (n : Nat)
  | n16BitUnsigned (n : Nat)
  | n32BitUnsigned (n : Nat)
  | n64BitUnsigned (n : Nat)
  | smlList
deriving DecidableEq, Repr

namespace Value

def fromTlvItem : (kind : Kind) -> Reading kind ValueEnum
  | .boolean => ValueEnum.booleanValue <$> Reading.intoBool
  | .string => pure .byteList
  | .integer => do
      match ← Reading.len with
      | 1 => ValueEnum.n8BitInteger <$> Reading.intoI8
      | 2 => ValueEnum.n16BitInteger <$> Reading.intoI16
      | 3 | 4 => ValueEnum.n32BitInteger <$> Reading.intoI32Relaxed
      | 5 | 6 | 7 | 8 => ValueEnum.n64BitInteger <$> Reading.intoI64Relaxed
      | _ => Reading.fail .unexpectedValue
  | .unsigned => do
      match ← Reading.len with
      | 1 => ValueEnum.n8BitUnsigned <$> Reading.intoU8
      | 2 => ValueEnum.n16BitUnsigned <$> Reading.intoU16
      | 3 | 4 => ValueEnum.n32BitUnsigned <$> Reading.intoU32Relaxed
      | 5 | 6 | 7 | 8 => ValueEnum.n64BitUnsigned <$> Reading.intoU64Relaxed
      | _ => Reading.fail .unexpectedValue
  | .list => pure .smlList

def read : Reading .list ValueEnum :=
  field 0 (Reading.nextAny (.error .unexpectedValue) fromTlvItem)

end Value

def ValueEnum.intoI128Relaxed : ValueEnum -> Except Error Int
  | .n8BitInteger n => .ok n
  | .n16BitInteger n => .ok n
  | .n32BitInteger n => .ok n
  | .n64BitInteger n => .ok n
  | .n8BitUnsigned n => .ok n
  | .n16BitUnsigned n => .ok n
  | .n32BitUnsigned n => .ok n
  | .n64BitUnsigned n => .ok n
  | _ => .error .unexpectedValue

end Types
end Sml
end Smartmeter
