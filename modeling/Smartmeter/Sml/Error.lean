import Smartmeter.Io

/-!
# Errors of the `sml` crate
-/

namespace Smartmeter
namespace Sml

inductive TlvType where
  | string
  | boolean
  | integer
  | unsigned
  | list
  | other (ty : UInt8)
deriving DecidableEq, Repr

namespace TlvType

def ofByte (byte : UInt8) : TlvType :=
  if byte = 0 then .string
  else if byte = 4 then .boolean
  else if byte = 5 then .integer
  else if byte = 6 then .unsigned
  else if byte = 7 then .list
  else .other byte

end TlvType

inductive Error where
  | unexpectedTlv (ty : TlvType) (len : Nat)
  | shortTlvLength (len : Nat)
  | midMessageEndMarker (remaining : Nat)
  | multibyteTlvReservedType (ty : UInt8)
  | tlvLengthTooBig
  | endOfSmlMessage
  | unsupportedTlvType (ty : UInt8)
  | unexpectedValue
  | unsupportedLen (len : Nat)
  | endOfList
  | checksumMismatch (crcRec crcCalc : UInt16)
  | unsupportedTag (tag : Nat)
  | wrongBufferSize
  | noneTlv
  | cantParseTwice
  | io (source : Io.Error)
  | tryFromIntError
deriving DecidableEq, Repr

end Sml
end Smartmeter
