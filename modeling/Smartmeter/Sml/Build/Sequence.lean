import Smartmeter.Sml.Build.Choice
import Smartmeter.Sml.Tlv.Lazy
import Smartmeter.Sml.Types

/-!
# Generated sequences

For every field of a sequence the template generates a structure that stands at
the field.  It has a method for the field and for every later one.  A field that
is a number or a boolean is read by its method; for any other field there is a
structure of its own, which is parsed and finished.
-/

namespace Smartmeter
namespace Sml
namespace Build

open Tlv

/-!
## Rust types
-/

inductive RustPrimitive where
  | u8
  | u16
  | u32
  | u64
  | i8
  | i16
  | i32
  | i64
  | bool
deriving DecidableEq, Repr

inductive RustType where
  | primitive (ty : RustPrimitive)
  | tlvString
  | other (ident : String)
deriving DecidableEq, Repr

def isSeparator (c : Char) : Bool := c = '.' || c = '-'

def replaceSeparator : List Char -> List Char
  | [] => []
  | c :: cs =>
      if isSeparator c then '_' :: cs.dropWhile isSeparator else c :: replaceSeparator cs

def str2ident (toCase : String -> String) (string : String) : Option String :=
  match replaceSeparator string.toList with
  | [] => none
  | first :: rest =>
      let string := if first.isDigit then 'N' :: '_' :: first :: rest else first :: rest
      some (toCase (String.ofList string))

def trimSml : List Char -> List Char
  | 'S' :: 'M' :: 'L' :: '_' :: rest => trimSml rest
  | name => name

inductive ParseField where
  | string
  | list
  | choice
  | implicitChoice
  | unimplemented
deriving DecidableEq, Repr

def SchemaType.parseField : SchemaType -> Option ParseField
  | .sequence [] => none
  | .sequence (_ :: _) => some .list
  | .sequenceOf types => if types.length = 1 then some .list else some .unimplemented
  | .choice => some .choice
  | .implicitChoice _ => some .implicitChoice

inductive FieldType where
  | primitive (ty : RustPrimitive) (optional : Bool)
  | endOfSmlMsg
  | complex (ty : ParseField)
deriving DecidableEq, Repr

namespace Schema

variable (schema : Schema) (toCase : String -> String)

def type2rust (name : String) : Option RustType :=
  match String.ofList (trimSml (schema.resolve name).toList) with
  | "Unsigned8" => some (.primitive .u8)
  | "Unsigned16" => some (.primitive .u16)
  | "Unsigned32" => some (.primitive .u32)
  | "Unsigned64" => some (.primitive .u64)
  | "Integer8" => some (.primitive .i8)
  | "Integer16" => some (.primitive .i16)
  | "Integer32" => some (.primitive .i32)
  | "Integer64" => some (.primitive .i64)
  | "Boolean" => some (.primitive .bool)
  | "Octet String" => some .tlvString
  | other => (str2ident toCase other).map .other

def parseField : RustType -> Option ParseField
  | .primitive _ => none
  | .tlvString => some .string
  | ty =>
      (schema.types.find? fun t => schema.type2rust toCase t.1 = some ty).bind fun t =>
        t.2.parseField

def fieldType (field : Field) : Option FieldType :=
  match schema.type2rust toCase field.ty with
  | none => none
  | some (.primitive ty) => some (.primitive ty field.optional)
  | some ty =>
      if ty = .other "EndOfSmlMsg" then some .endOfSmlMsg
      else (schema.parseField toCase ty).map .complex

end Schema

/-!
## Methods
-/

inductive PrimitiveValue where
  | unsigned (n : Nat)
  | integer (n : Int)
  | boolean (b : Bool)
deriving DecidableEq, Repr

namespace RustPrimitive

def kind : RustPrimitive -> Kind
  | .u8 => .unsigned
  | .u16 => .unsigned
  | .u32 => .unsigned
  | .u64 => .unsigned
  | .i8 => .integer
  | .i16 => .integer
  | .i32 => .integer
  | .i64 => .integer
  | .bool => .boolean

def into : (ty : RustPrimitive) -> Reading ty.kind PrimitiveValue
  | .u8 => .unsigned <$> Reading.intoU8
  | .u16 => .unsigned <$> Reading.intoU16
  | .u32 => .unsigned <$> Reading.intoU32
  | .u64 => .unsigned <$> Reading.intoU64
  | .i8 => .integer <$> Reading.intoI8
  | .i16 => .integer <$> Reading.intoI16
  | .i32 => .integer <$> Reading.intoI32
  | .i64 => .integer <$> Reading.intoI64
  | .bool => .boolean <$> Reading.intoBool

end RustPrimitive

inductive Returned (β : Type) where
  | unit
  | value (v : PrimitiveValue)
  | option (v : Option PrimitiveValue)
  | read (b : β)
deriving DecidableEq, Repr

def smlfn {β : Type} (ty : RustPrimitive) (optional : Bool) : Reading .list (Returned β) :=
  if optional then .option <$> Reading.nextVariantOpt ty.kind ty.into
  else .value <$> Reading.nextVariant ty.kind ty.into

/--
`parse_field`, with a program for the item it takes; `absent` is what
the caller makes of an empty item.
-/
def ParseField.parseField {β : Type} (ty : ParseField) (absent : β)
    (child : (kind : Kind) -> Read kind β) : Reading .list β :=
  match ty with
  | .string => Reading.nextVariant .string (ExceptT.lift (child .string))
  | .list => Reading.nextVariant .list (ExceptT.lift (child .list))
  | .choice => Reading.nextVariant .list do
      let len ← Reading.len
      if len ≠ 2 then Reading.fail (.unsupportedLen len)
      else ExceptT.lift (child .list)
  | .implicitChoice => Reading.nextAny (.ok absent) fun kind => ExceptT.lift (child kind)
  | .unimplemented => Reading.fail .unexpectedValue

inductive Place where
  | field (id : Nat)
  | complex (id : Nat) (parsed : Bool)
  | unit
deriving DecidableEq, Repr

structure Method (β : Type) where
  body : Reading .list (Returned β)
  next : Place

inductive Call (β : Type) : Type 1 where
  | field (id : Nat)
  | parse (absent : β) (child : (kind : Kind) -> Read kind β)
      (total : forall kind, (child kind).Total)
  | finish

section

variable {β : Type} (fields : List FieldType)

def nextTy (id : Nat) : Place :=
  if id + 1 < fields.length then .field (id + 1) else .unit

def renderSequenceFieldfn (ty : FieldType) (id numSkip : Nat) : Method β :=
  match ty with
  | .primitive ty optional =>
      { body := Types.field numSkip (smlfn ty optional)
        next := nextTy fields id }
  | .endOfSmlMsg =>
      { body := Types.field numSkip do
          Reading.nextEnd
          pure .unit
        next := .unit }
  | .complex _ =>
      { body := Types.field numSkip (pure .unit)
        next := .complex id false }

namespace Complex

def parse (ty : ParseField) (id : Nat) (parsed : Bool) (absent : β)
    (child : (kind : Kind) -> Read kind β) : Method β where
  body := do
    if parsed then Reading.fail .cantParseTwice
    else
      let b ← ty.parseField absent child
      pure (.read b)
  next := .complex id true

def finish (ty : ParseField) (id : Nat) (parsed : Bool) : Method β where
  body := do
    if ¬ parsed then
      ty.parseField () fun _ => .done ()
    pure .unit
  next := nextTy fields id

end Complex

def method : Place -> Call β -> Option (Method β)
  | .field id, .field id' =>
      if id ≤ id' then
        fields[id']?.map fun ty => renderSequenceFieldfn fields ty id' (id' - id)
      else none
  | .complex id parsed, .parse absent child _ =>
      match fields[id]? with
      | some (.complex ty) => some (Complex.parse ty id parsed absent child)
      | _ => none
  | .complex id parsed, .finish =>
      match fields[id]? with
      | some (.complex ty) => some (Complex.finish fields ty id parsed)
      | _ => none
  | _, _ => none

end

end Build
end Sml
end Smartmeter
