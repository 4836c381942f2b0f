import Smartmeter.Sml.Build.Accessors

/-!
# Reading all of a value

A caller that reads everything the schema describes: all the fields of a
sequence, all the elements of a sequence-of and the variant of a choice.  It goes
through the structures that the template generates.
-/

namespace Smartmeter
namespace Sml
namespace Build

open Foundation
open Tlv

/-!
## What the script collects
-/

structure Variant where
  ty : String
  value : Nat
deriving DecidableEq, Repr

inductive ParsedType where
  | choice (variants : List (String × Variant))
  | implicitChoice (types : List (String × String))
  | sequence (fields : List Field)
  | sequenceOf (types : List (String × String))
deriving DecidableEq, Repr

def ParsedType.schemaType : ParsedType -> SchemaType
  | .choice _ => .choice
  | .implicitChoice types => .implicitChoice types
  | .sequence fields => .sequence fields
  | .sequenceOf types => .sequenceOf types

structure Template where
  types : List (String × ParsedType)
  typedefs : List (String × String)
deriving DecidableEq, Repr

namespace Template

variable (template : Template) (toCase : String -> String)

def schema : Schema where
  types := template.types.map fun t => (t.1, t.2.schemaType)
  typedefs := template.typedefs

def definition (ident : String) : Option ParsedType :=
  (template.types.find? fun t => template.schema.type2rust toCase t.1 = some (.other ident)).map
    Prod.snd

def valueType (ty : String) : Option (RustType × FieldType) :=
  match template.schema.type2rust toCase ty with
  | none => none
  | some (.primitive ty) => some (.primitive ty, .primitive ty false)
  | some rust => (template.schema.parseField toCase rust).map fun parse => (rust, .complex parse)

def fieldTypes (seq : List Field) : Option (List (RustType × FieldType)) :=
  seq.mapM fun field => do
    let rust ← template.schema.type2rust toCase field.ty
    let ty ← template.schema.fieldType toCase field
    pure (rust, ty)

end Template

/-!
## The caller
-/

inductive SmlValue where
  | primitive (v : PrimitiveValue)
  | absent
  | unit
  | octets (bytes : List UInt8)
  | sequence (values : List SmlValue)
  | sequenceOf (values : List SmlValue)
  | variant (name : String) (v : SmlValue)

def Returned.toValue : Returned (Except Error SmlValue) -> Except Error SmlValue
  | .unit => .ok .unit
  | .value v => .ok (.primitive v)
  | .option none => .ok .absent
  | .option (some v) => .ok (.primitive v)
  | .read r => r

def ofExcept {kind : Kind} {α : Type} (r : Except Error α) : Reading kind α :=
  ExceptT.mk (.done r)

def readString : Reading .string SmlValue := do
  let len ← Reading.len
  SmlValue.octets <$> Reading.read len

abbrev Child := RustType -> (kind : Kind) -> Reading kind SmlValue

def readValue (ty : FieldType) (child : (kind : Kind) -> Reading kind SmlValue) :
    Reading .list SmlValue :=
  match ty with
  | .primitive ty optional => do
      let r ← smlfn ty optional
      ofExcept r.toValue
  | .endOfSmlMsg => do
      Reading.nextEnd
      pure .unit
  | .complex parse => do
      let r ← parse.parseField (.error .unexpectedValue) child
      ofExcept r

def readField (fields : List FieldType) (ty : FieldType) (id : Nat)
    (child : (kind : Kind) -> Reading kind SmlValue) : Reading .list SmlValue := do
  let r ← (renderSequenceFieldfn fields ty id 0).body
  match ty with
  | .complex parse =>
      let r ← (Complex.parse parse id false (.error .unexpectedValue) child).body
      let v ← ofExcept r.toValue
      let _ ← (Complex.finish (β := Unit) fields parse id true).body
      pure v
  | _ => ofExcept r.toValue

def readFields (fields : List FieldType) (child : Child) :
    Nat -> List (RustType × FieldType) -> Reading .list (List SmlValue)
  | _, [] => pure []
  | id, (rust, ty) :: tys => do
      let v ← readField fields ty id (child rust)
      let vs ← readFields fields child (id + 1) tys
      pure (v :: vs)

def next (ty : FieldType) (child : (kind : Kind) -> Reading kind SmlValue) :
    Reading .list (Option SmlValue) := do
  if (← Reading.len) = 0 then pure none
  else
    let v ← readValue ty child
    pure (some v)

def readElements (ty : FieldType) (child : (kind : Kind) -> Reading kind SmlValue) :
    Nat -> Reading .list (List SmlValue)
  | 0 => ExceptT.mk .stuck
  | fuel + 1 => do
      match ← next ty child with
      | none => pure []
      | some v =>
          let vs ← readElements ty child fuel
          pure (v :: vs)

namespace Template

variable (template : Template) (toCase : String -> String) (depth : Nat)

def readVariant (child : Child) (variants : List (String × Variant)) (tag : Nat) :
    Reading .list SmlValue :=
  match variants.find? fun v => v.2.value = tag with
  | none => Reading.fail (.unsupportedTag tag)
  | some (name, variant) =>
      match template.valueType toCase variant.ty with
      | none => ExceptT.mk .stuck
      | some (rust, ty) => SmlValue.variant name <$> readValue ty (child rust)

def readChoice (child : Child) (variants : List (String × Variant)) : Reading .list SmlValue := do
  let tag ← Reading.nextVariant .unsigned Reading.intoU32Relaxed
  template.readVariant toCase child variants tag

def readList (fuel : Nat) (child : Child) : ParsedType -> Reading .list SmlValue
  | .sequence seq =>
      match template.fieldTypes toCase seq with
      | none => ExceptT.mk .stuck
      | some tys => SmlValue.sequence <$> readFields (tys.map Prod.snd) child 0 tys
  | .sequenceOf [(_, ty)] =>
      match template.valueType toCase ty with
      | some (rust, .complex parse) =>
          SmlValue.sequenceOf <$> readElements (.complex parse) (child rust) fuel
      | _ => ExceptT.mk .stuck
  | .choice variants => template.readChoice toCase child variants
  | _ => ExceptT.mk .stuck

end Template

def RustPrimitive.fromTlvItem (ty : RustPrimitive) : Reading ty.kind PrimitiveValue :=
  match ty with
  | .u8 => .unsigned <$> Reading.intoU8
  | .u16 => .unsigned <$> Reading.intoU16
  | .u32 => .unsigned <$> Reading.intoU32Relaxed
  | .u64 => .unsigned <$> Reading.intoU64Relaxed
  | .i8 => .integer <$> Reading.intoI8
  | .i16 => .integer <$> Reading.intoI16
  | .i32 => .integer <$> Reading.intoI32Relaxed
  | .i64 => .integer <$> Reading.intoI64Relaxed
  | .bool => .boolean <$> Reading.intoBool

namespace Template

variable (template : Template) (toCase : String -> String) (depth : Nat)

def fromTlvItem (fuel : Nat) (child : Child) : RustType -> (kind : Kind) -> Reading kind SmlValue
  | .primitive ty, kind => Reading.expect ty.kind (SmlValue.primitive <$> ty.fromTlvItem) kind
  | .tlvString, kind => Reading.expect .string readString kind
  | .other ident, kind =>
      match template.definition toCase ident with
      | some (.sequence seq) =>
          Reading.expect .list (template.readList toCase fuel child (.sequence seq)) kind
      | some (.choice variants) =>
          Reading.expect .list (template.readList toCase fuel child (.choice variants)) kind
      | _ => ExceptT.mk .stuck

def readImplicitChoice (fuel : Nat) (child : Child) (types : List (String × String))
    (kind : Kind) : Reading kind SmlValue := do
  match template.schema.arms depth types with
  | none => ExceptT.mk .stuck
  | some arms =>
      let len ← Reading.len
      match select arms kind len with
      | none => Reading.fail .unexpectedValue
      | some name =>
          match (types.lookup name).bind (template.schema.type2rust toCase) with
          | none => ExceptT.mk .stuck
          | some rust =>
              SmlValue.variant name <$> template.fromTlvItem toCase fuel child rust kind

/--
Read the structure that `parse_field` of a type returns; `fuel` bounds
how deeply the structures are nested.
-/
def readItem : Nat -> Child
  | 0, _, _ => ExceptT.mk .stuck
  | fuel + 1, rust, kind =>
      match rust with
      | .primitive _ => ExceptT.mk .stuck
      | .tlvString => Reading.expect .string readString kind
      | .other ident =>
          match template.definition toCase ident with
          | none => ExceptT.mk .stuck
          | some (.implicitChoice types) =>
              template.readImplicitChoice toCase depth (fuel + 1) (readItem fuel) types kind
          | some ty =>
              Reading.expect .list (template.readList toCase (fuel + 1) (readItem fuel) ty) kind

end Template

end Build
end Sml
end Smartmeter
