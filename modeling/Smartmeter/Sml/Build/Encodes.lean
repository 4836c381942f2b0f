import Smartmeter.Sml.Build.Traversal
import Smartmeter.Sml.Tlv.Yields

/-!
# Values of a schema

Which elements encode which values of the types of a schema.  A caller that goes
through the generated structures reads a value exactly if the elements encode it.
-/

namespace Smartmeter
namespace Sml
namespace Build

open Foundation
open Tlv

/-!
## Encodings
-/

def ParseField.Takes : ParseField -> Element -> Prop
  | .string, .item .string (_ :: _) => True
  | .list, .list _ => True
  | .choice, .list children => children.count = 2
  | .implicitChoice, _ => True
  | _, _ => False

namespace ParseField

theorem takes_string (el : Element) :
    ParseField.string.Takes el <-> exists l, el.Holds .string l ∧ True := by
  constructor
  · intro htakes
    cases el with
    | list children => exact htakes.elim
    | item ty payload =>
        cases ty with
        | string =>
            cases payload with
            | nil => exact htakes.elim
            | cons b bs => exact ⟨_, .string (List.cons_ne_nil b bs), trivial⟩
        | _ => exact htakes.elim
  · intro hel
    rcases hel with ⟨l, hl, _⟩
    cases hl with
    | string hpayload =>
        rcases List.exists_cons_of_ne_nil hpayload with ⟨b, bs, rfl⟩
        trivial

theorem takes_list (el : Element) :
    ParseField.list.Takes el <-> exists l, el.Holds .list l ∧ True := by
  constructor
  · intro htakes
    cases el with
    | list children => exact ⟨_, .list, trivial⟩
    | item ty payload => exact htakes.elim
  · intro hel
    rcases hel with ⟨l, hl, _⟩
    cases hl
    trivial

theorem takes_choice (el : Element) :
    ParseField.choice.Takes el <-> exists l, el.Holds .list l ∧ l.len = 2 := by
  constructor
  · intro htakes
    cases el with
    | list children => exact ⟨_, .list, htakes⟩
    | item ty payload => exact htakes.elim
  · intro hel
    rcases hel with ⟨l, hl, hlen⟩
    cases hl
    exact hlen

end ParseField

mutual

inductive Encodes (template : Template) (toCase : String -> String) :
    RustType -> Element -> SmlValue -> Prop where
  | string {p : List UInt8} (hp : p ≠ []) :
      Encodes template toCase .tlvString (.item .string p) (.octets p)
  | defined {ident : String} {ty : ParsedType} {el : Element} {v : SmlValue}
      (hdef : template.definition toCase ident = some ty)
      (hv : EncodesAs template toCase ty el v) : Encodes template toCase (.other ident) el v

inductive EncodesAs (template : Template) (toCase : String -> String) :
    ParsedType -> Element -> SmlValue -> Prop where
  | sequence {seq : List Field} {tys : List (RustType × FieldType)} {f : Forest}
      {vs : List SmlValue} (htys : template.fieldTypes toCase seq = some tys)
      (hvs : EncodesFields template toCase tys f vs) :
      EncodesAs template toCase (.sequence seq) (.list f) (.sequence vs)
  | sequenceOf {name ty : String} {rust : RustType} {parse : ParseField} {f : Forest}
      {vs : List SmlValue} (hty : template.valueType toCase ty = some (rust, .complex parse))
      (hvs : EncodesElements template toCase rust (.complex parse) f vs) :
      EncodesAs template toCase (.sequenceOf [(name, ty)]) (.list f) (.sequenceOf vs)
  | choice {name : String} {variants : List (String × Variant)} {variant : Variant}
      {rust : RustType} {ty : FieldType} {f : Forest} {tag : List UInt8} {el : Element}
      {v : SmlValue} (hmem : (name, variant) ∈ variants)
      (hty : template.valueType toCase variant.ty = some (rust, ty))
      (htag : f.element 0 = some (.item .unsigned tag)) (hlen : 1 ≤ tag.length ∧ tag.length ≤ 4)
      (hvalue : beNat tag = variant.value) (hel : f.element 1 = some el)
      (hv : EncodesField template toCase rust ty el v) :
      EncodesAs template toCase (.choice variants) (.list f) (.variant name v)
  | implicitChoice {name ty : String} {types : List (String × String)} {rust : RustType}
      {el : Element} {v : SmlValue} (hmem : (name, ty) ∈ types)
      (hty : template.schema.type2rust toCase ty = some rust)
      (hv : EncodesItem template toCase rust el v) :
      EncodesAs template toCase (.implicitChoice types) el (.variant name v)

inductive EncodesItem (template : Template) (toCase : String -> String) :
    RustType -> Element -> SmlValue -> Prop where
  | primitive {ty : RustPrimitive} {p : List UInt8} (hmin : ty.minsz ≤ p.length)
      (hmax : p.length ≤ ty.maxsz) :
      EncodesItem template toCase (.primitive ty) (.item ty.kind.ty p) (.primitive (ty.value p))
  | structured {rust : RustType} {el : Element} {v : SmlValue}
      (hv : Encodes template toCase rust el v) : EncodesItem template toCase rust el v

/-- The value of a field of a sequence, an element of a sequence-of or a variant of a choice. -/
inductive EncodesField (template : Template) (toCase : String -> String) :
    RustType -> FieldType -> Element -> SmlValue -> Prop where
  | primitive {rust : RustType} {ty : RustPrimitive} {optional : Bool} {p : List UInt8}
      (hmin : ty.minsz ≤ p.length) (hmax : p.length ≤ ty.maxsz) :
      EncodesField template toCase rust (.primitive ty optional) (.item ty.kind.ty p)
        (.primitive (ty.value p))
  | absent {rust : RustType} {ty : RustPrimitive} :
      EncodesField template toCase rust (.primitive ty true) (.item .string []) .absent
  | complex {rust : RustType} {parse : ParseField} {el : Element} {v : SmlValue}
      (htakes : parse.Takes el) (hv : Encodes template toCase rust el v) :
      EncodesField template toCase rust (.complex parse) el v

/-- A sequence may be followed by further elements. -/
inductive EncodesFields (template : Template) (toCase : String -> String) :
    List (RustType × FieldType) -> Forest -> List SmlValue -> Prop where
  | done {f : Forest} : EncodesFields template toCase [] f []
  | field {rust : RustType} {ty : FieldType} {tys : List (RustType × FieldType)} {f : Forest}
      {el : Element} {v : SmlValue} {vs : List SmlValue} (hhead : f.head = some el)
      (hv : EncodesField template toCase rust ty el v)
      (hvs : EncodesFields template toCase tys (f.drop 1) vs) :
      EncodesFields template toCase ((rust, ty) :: tys) f (v :: vs)

inductive EncodesElements (template : Template) (toCase : String -> String) :
    RustType -> FieldType -> Forest -> List SmlValue -> Prop where
  | nil {rust : RustType} {ty : FieldType} : EncodesElements template toCase rust ty .nil []
  | cons {rust : RustType} {ty : FieldType} {f : Forest} {el : Element} {v : SmlValue}
      {vs : List SmlValue} (hhead : f.head = some el)
      (hv : EncodesField template toCase rust ty el v)
      (hvs : EncodesElements template toCase rust ty (f.drop 1) vs) :
      EncodesElements template toCase rust ty f (v :: vs)

end

/-!
## Schemas that the generated code compiles for
-/

namespace Template

variable (template : Template) (toCase : String -> String) (depth : Nat)

inductive ArmFor : Leaf -> RustType -> Prop where
  | primitive {p : Primitive} {ty : RustPrimitive} (hkind : p.pattern.kind = ty.kind)
      (hrange : p.pattern.range = some (ty.minsz, ty.maxsz + 1) ∨
        p.pattern.range = none ∧ ty = .bool) : ArmFor (.primitive p) (.primitive ty)
  | octetString : ArmFor (.primitive .octetString) .tlvString
  | sequence {ident : String} {seq : List Field}
      (hdef : template.definition toCase ident = some (.sequence seq)) :
      ArmFor .structured (.other ident)
  | choice {ident : String} {variants : List (String × Variant)}
      (hdef : template.definition toCase ident = some (.choice variants)) :
      ArmFor .structured (.other ident)

/--
What the generated code needs for a type, and that no variant of a choice hides
another one.
-/
def Renders : ParsedType -> Prop
  | .sequence seq => exists tys, template.fieldTypes toCase seq = some tys ∧
      forall rust, (rust, FieldType.complex .unimplemented) ∉ tys
  | .sequenceOf types => exists name ty rust parse, types = [(name, ty)] ∧
      template.valueType toCase ty = some (rust, .complex parse) ∧ parse ≠ .unimplemented
  | .choice variants =>
      (forall v, v ∈ variants -> exists rust ty, template.valueType toCase v.2.ty = some (rust, ty) ∧
        ty ≠ .complex .unimplemented) ∧
      (variants.map fun v => v.2.value).Nodup
  | .implicitChoice types =>
      (exists arms, template.schema.arms depth types = some arms ∧ Disjoint arms) ∧
      (types.map Prod.fst).Nodup ∧
      forall v, v ∈ types -> exists leaf rust,
        (forall leaf', template.schema.Reaches v.2 leaf' <-> leaf' = leaf) ∧
        template.schema.type2rust toCase v.2 = some rust ∧ template.ArmFor toCase leaf rust

end Template

end Build
end Sml
end Smartmeter
