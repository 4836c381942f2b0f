import Mathlib.Data.List.Nodup
import Smartmeter.Sml.Build.Encodes
import Smartmeter.Sml.Typed

/-!
# Reading what is encoded

The caller that reads everything returns a value exactly if the elements encode
it.
-/

namespace Smartmeter
namespace Sml
namespace Build

open Foundation
open Tlv

/-!
## Numbers
-/

namespace RustPrimitive

theorem yields_unsigned {p : List UInt8} {minsz maxsz : Nat} :
    Yields (PrimitiveValue.unsigned <$> Reading.content (.intoUnsigned minsz maxsz))
      p anyLeft fun v => minsz ≤ p.length ∧ p.length ≤ maxsz ∧ v = .unsigned (beNat p) := by
  apply ((Yields.content (.intoUnsigned minsz maxsz)).map PrimitiveValue.unsigned).imp
  intro v
  change (exists n, (readWhole (decide (minsz ≤ p.length ∧ p.length ≤ maxsz)) _ _ p).1 = .ok n ∧ _) <-> _
  constructor
  · intro h
    rcases h with ⟨n, hn, hv⟩
    rw [readWhole_iff, decide_eq_true_eq] at hn
    exact ⟨hn.1.1, hn.1.2, by rw [← hv, hn.2]⟩
  · intro h
    rcases h with ⟨hmin, hmax, hv⟩
    exists beNat p
    rw [readWhole_iff, decide_eq_true_eq]
    exact ⟨⟨⟨hmin, hmax⟩, rfl⟩, hv.symm⟩

theorem yields_integer {p : List UInt8} {minsz maxsz : Nat} :
    Yields (PrimitiveValue.integer <$> Reading.content (.intoInteger minsz maxsz))
      p anyLeft fun v => minsz ≤ p.length ∧ p.length ≤ maxsz ∧ v = .integer (beInt p) := by
  apply ((Yields.content (.intoInteger minsz maxsz)).map PrimitiveValue.integer).imp
  intro v
  change (exists n, (readWhole (decide (minsz ≤ p.length ∧ p.length ≤ maxsz)) _ _ p).1 = .ok n ∧ _) <-> _
  constructor
  · intro h
    rcases h with ⟨n, hn, hv⟩
    rw [readWhole_iff, decide_eq_true_eq] at hn
    exact ⟨hn.1.1, hn.1.2, by rw [← hv, hn.2]⟩
  · intro h
    rcases h with ⟨hmin, hmax, hv⟩
    exists beInt p
    rw [readWhole_iff, decide_eq_true_eq]
    exact ⟨⟨⟨hmin, hmax⟩, rfl⟩, hv.symm⟩

theorem yields_boolean {p : List UInt8} :
    Yields (PrimitiveValue.boolean <$> Reading.intoBool)
      p anyLeft fun v => 1 ≤ p.length ∧ p.length ≤ 1 ∧ v = .boolean (p.headD 0 ≠ 0) := by
  apply ((Yields.content .intoBool).map PrimitiveValue.boolean).imp
  intro v
  change (exists b, (readWhole (decide (p.length = 1)) _ _ p).1 = .ok b ∧ _) <-> _
  constructor
  · intro h
    rcases h with ⟨b, hb, hv⟩
    rw [readWhole_iff, decide_eq_true_eq] at hb
    exact ⟨Nat.le_of_eq hb.1.symm, Nat.le_of_eq hb.1, by rw [← hv, hb.2]⟩
  · intro h
    rcases h with ⟨hmin, hmax, hv⟩
    exists decide (p.headD 0 ≠ 0)
    rw [readWhole_iff, decide_eq_true_eq]
    exact ⟨⟨Nat.le_antisymm hmax hmin, rfl⟩, hv.symm⟩

theorem ofPayload_injective (ty : RustPrimitive) {p p' : List UInt8}
    (h : Left.ofPayload ty.kind p = Left.ofPayload ty.kind p') : p' = p := by
  cases ty <;> exact h.symm

theorem holds_ofPayload (ty : RustPrimitive) (p : List UInt8) :
    (Element.item ty.kind.ty p).Holds ty.kind (Left.ofPayload ty.kind p) := by
  cases ty with
  | bool => exact .boolean
  | i8 => exact .integer
  | i16 => exact .integer
  | i32 => exact .integer
  | i64 => exact .integer
  | u8 => exact .unsigned
  | u16 => exact .unsigned
  | u32 => exact .unsigned
  | u64 => exact .unsigned

theorem eq_of_holds (ty : RustPrimitive) {el : Element} {p : List UInt8}
    (h : el.Holds ty.kind (Left.ofPayload ty.kind p)) : el = .item ty.kind.ty p := by
  rcases RustPrimitive.holds h with ⟨p', hel, hp⟩
  rw [hel, ty.ofPayload_injective hp]

theorem yields_into (ty : RustPrimitive) (p : List UInt8) :
    Yields ty.into (Left.ofPayload ty.kind p) anyLeft
      fun v => ty.minsz ≤ p.length ∧ p.length ≤ ty.maxsz ∧ v = ty.value p := by
  cases ty with
  | u8 => exact yields_unsigned
  | u16 => exact yields_unsigned
  | u32 => exact yields_unsigned
  | u64 => exact yields_unsigned
  | i8 => exact yields_integer
  | i16 => exact yields_integer
  | i32 => exact yields_integer
  | i64 => exact yields_integer
  | bool => exact yields_boolean

theorem yields_fromTlvItem {ty : RustPrimitive} {p : List UInt8}
    (h : ty ≠ .bool -> ty.minsz ≤ p.length ∧ p.length ≤ ty.maxsz) :
    Yields ty.fromTlvItem (Left.ofPayload ty.kind p) anyLeft
      fun v => ty.minsz ≤ p.length ∧ p.length ≤ ty.maxsz ∧ v = ty.value p := by
  have hrelaxed : forall left', ty ≠ .bool ->
      ty.fromTlvItem.walk (Left.ofPayload ty.kind p) = some (.ok (ty.value p), left') ->
      Yields ty.fromTlvItem (Left.ofPayload ty.kind p) anyLeft
        fun v => ty.minsz ≤ p.length ∧ p.length ≤ ty.maxsz ∧ v = ty.value p := by
    intro left' hbool hwalk
    apply (Yields.of_walk hwalk).imp
    intro v
    constructor
    · intro hv
      exact ⟨(h hbool).1, (h hbool).2, hv⟩
    · intro hv
      exact hv.2.2
  have hinto := ty.yields_into p
  cases ty with
  | u8 => exact hinto
  | u16 => exact hinto
  | i8 => exact hinto
  | i16 => exact hinto
  | bool => exact hinto
  | u32 =>
      rcases h RustPrimitive.noConfusion with ⟨hmin, hmax⟩
      change 3 ≤ p.length at hmin
      exact hrelaxed [] RustPrimitive.noConfusion
        (Types.walk_map_ok (Types.walk_intoU32Relaxed ⟨by lia, hmax⟩) _)
  | u64 =>
      rcases h RustPrimitive.noConfusion with ⟨hmin, hmax⟩
      change 5 ≤ p.length at hmin
      exact hrelaxed [] RustPrimitive.noConfusion
        (Types.walk_map_ok (Types.walk_intoU64Relaxed ⟨by lia, hmax⟩) _)
  | i32 =>
      rcases h RustPrimitive.noConfusion with ⟨hmin, hmax⟩
      change 3 ≤ p.length at hmin
      exact hrelaxed [] RustPrimitive.noConfusion
        (Types.walk_map_ok (Types.walk_intoI32Relaxed ⟨by lia, hmax⟩) _)
  | i64 =>
      rcases h RustPrimitive.noConfusion with ⟨hmin, hmax⟩
      change 5 ≤ p.length at hmin
      exact hrelaxed [] RustPrimitive.noConfusion
        (Types.walk_map_ok (Types.walk_intoI64Relaxed ⟨by lia, hmax⟩) _)

end RustPrimitive

/-!
## Values
-/

variable {template : Template} {toCase : String -> String}

theorem Encodes.ne_absent {rust : RustType} {el : Element} {v : SmlValue}
    (h : Encodes template toCase rust el v) : el ≠ .item .string [] := by
  let P (el : Element) : Prop := el ≠ .item .string []
  refine @Encodes.rec template toCase (fun _ el _ _ => P el) (fun _ el _ _ => P el)
    (fun _ el _ _ => P el) (fun _ _ _ _ _ => True) (fun _ _ _ _ => True) (fun _ _ _ _ _ => True)
    ?string ?defined ?sequence ?sequenceOf ?choice ?implicitChoice ?primitive ?structured
    (fun _ _ => trivial) trivial (fun _ _ _ => trivial) trivial (fun _ _ _ _ _ => trivial) trivial
    (fun _ _ _ _ _ => trivial) rust el v h
  case string =>
    intro p hp hel
    cases hel
    exact hp rfl
  case defined =>
    intro _ _ _ _ _ _ ih
    exact ih
  case implicitChoice =>
    intro _ _ _ _ _ _ _ _ _ ih
    exact ih
  case structured =>
    intro _ _ _ _ ih
    exact ih
  case primitive =>
    intro ty _ _ _ hel
    cases ty <;> cases hel
  all_goals
    intros
    intro hel
    cases hel

variable [Machine]

section

variable {f : Forest} (hwf : f.WellFormed) (hknown : f.Known)

include hwf hknown

theorem yields_primitive (rust : RustType) (ty : RustPrimitive) (optional : Bool)
    (child : (kind : Kind) -> Reading kind SmlValue) :
    Yields (readValue (.primitive ty optional) child) f (fun g => g = f.drop 1)
      fun v => exists el, f.head = some el ∧
        EncodesField template toCase rust (.primitive ty optional) el v := by
  let number (l : Left ty.kind) (v : PrimitiveValue) : Prop :=
    exists p, l = Left.ofPayload ty.kind p ∧ ty.minsz ≤ p.length ∧ p.length ≤ ty.maxsz ∧
      v = ty.value p
  have hinto : forall el l, f.head = some el -> el.Holds ty.kind l ->
      Yields ty.into l anyLeft (number l) := by
    intro el l _ hel
    rcases RustPrimitive.holds hel with ⟨p, _, rfl⟩
    apply (ty.yields_into p).imp
    intro v
    constructor
    · intro hv
      exact ⟨p, rfl, hv⟩
    · intro hv
      rcases hv with ⟨p', hp, hv⟩
      rw [← ty.ofPayload_injective hp]
      exact hv
  cases optional with
  | false =>
      apply (((Yields.nextVariant hwf hknown hinto).map Returned.value).bind_ofExcept
        Returned.toValue).imp
      intro v
      constructor
      · intro hv
        rcases hv with ⟨_, ⟨w, ⟨el, hhead, l, hel, p, rfl, hmin, hmax, rfl⟩, rfl⟩, hv⟩
        cases hv
        exists el
        constructor
        · exact hhead
        · rw [ty.eq_of_holds hel]
          exact .primitive hmin hmax
      · intro hv
        rcases hv with ⟨el, hhead, hv⟩
        cases hv with
        | @primitive _ _ _ p hmin hmax =>
            exact ⟨_, ⟨_, ⟨_, hhead, _, ty.holds_ofPayload p, p, rfl, hmin, hmax, rfl⟩, rfl⟩, rfl⟩
  | true =>
      apply (((Yields.nextVariantOpt hwf hknown hinto).map Returned.option).bind_ofExcept
        Returned.toValue).imp
      intro v
      constructor
      · intro hv
        rcases hv with ⟨_, ⟨w, ⟨el, hhead, hw⟩, rfl⟩, hv⟩
        rcases hw with ⟨hel, rfl⟩ | ⟨l, c, hel, ⟨p, rfl, hmin, hmax, rfl⟩, rfl⟩
        · cases hv
          exists el
          constructor
          · exact hhead
          · rw [hel]
            exact .absent
        · cases hv
          exists el
          constructor
          · exact hhead
          · rw [ty.eq_of_holds hel]
            exact .primitive hmin hmax
      · intro hv
        rcases hv with ⟨el, hhead, hv⟩
        cases hv with
        | @primitive _ _ _ p hmin hmax =>
            exact ⟨_, ⟨_, ⟨_, hhead, Or.inr ⟨_, _, ty.holds_ofPayload p,
              ⟨p, rfl, hmin, hmax, rfl⟩, rfl⟩⟩, rfl⟩, rfl⟩
        | absent => exact ⟨_, ⟨_, ⟨_, hhead, Or.inl ⟨rfl, rfl⟩⟩, rfl⟩, rfl⟩

theorem yields_parsed {rust : RustType} {parse : ParseField} {kind : Kind} {C : Left kind -> Prop}
    {child : Reading kind SmlValue} {parsed : Reading kind (Except Error SmlValue)}
    (htakes : forall el, parse.Takes el <-> exists l, el.Holds kind l ∧ C l)
    (hparsed : forall (el : Element) (l : Left kind), f.head = some el -> el.Holds kind l ->
      Yields parsed l anyLeft fun r => C l ∧ exists l', child.walk l = some (r, l'))
    (h : forall (el : Element) (l : Left kind), f.head = some el -> el.Holds kind l ->
      Yields child l anyLeft (Encodes template toCase rust el)) :
    Yields (Reading.nextVariant kind parsed >>= fun r => ofExcept r) f (fun g => g = f.drop 1)
      fun v => exists el, f.head = some el ∧
        EncodesField template toCase rust (.complex parse) el v := by
  apply ((Yields.nextVariant hwf hknown hparsed).bind_ofExcept id).imp
  intro v
  constructor
  · intro hv
    rcases hv with ⟨_, ⟨el, hhead, l, hel, hcond, hwalk⟩, rfl⟩
    exists el
    constructor
    · exact hhead
    · exact .complex ((htakes el).mpr ⟨l, hel, hcond⟩) (((h el l hhead hel).walk_iff v).mp hwalk)
  · intro hv
    rcases hv with ⟨el, hhead, hv⟩
    cases hv with
    | complex hel hv =>
        rcases (htakes el).mp hel with ⟨l, hl, hcond⟩
        exact ⟨_, ⟨el, hhead, l, hl, hcond, ((h el l hhead hl).walk_iff v).mpr hv⟩, rfl⟩

theorem yields_implicitChoice {rust : RustType} {child : (kind : Kind) -> Reading kind SmlValue}
    (h : forall (el : Element) (kind : Kind) (left : Left kind), f.head = some el ->
      el.Holds kind left -> Yields (child kind) left anyLeft (Encodes template toCase rust el)) :
    Yields (readValue (.complex .implicitChoice) child) f (fun g => g = f.drop 1)
      fun v => exists el, f.head = some el ∧
        EncodesField template toCase rust (.complex .implicitChoice) el v := by
  have hnext : Yields (Reading.nextAny (.ok (.error Error.unexpectedValue))
      fun kind => ExceptT.lift (m := Read kind) (child kind)) f (fun g => g = f.drop 1)
      fun r => exists el, f.head = some el ∧
        (el = .item .string [] ∧ r = .error Error.unexpectedValue ∨
          exists kind left l, el.Holds kind left ∧
            (child kind).walk left = some (r, l)) := by
    apply Yields.nextAny hwf hknown
    · intro _ r
      constructor
      · intro hr
        injection hr with hr
        exact Or.inl ⟨rfl, hr.symm⟩
      · intro hr
        rcases hr with ⟨_, hr⟩ | ⟨kind, left, l, hel, _⟩
        · rw [hr]
        · exact absurd hel Element.not_holds_absent
    · intro el kind left hhead hel
      apply (h el kind left hhead hel).lift.imp
      intro r
      constructor
      · intro hr
        rcases hr with ⟨l, hr⟩
        exact Or.inr ⟨kind, left, l, hel, hr⟩
      · intro hr
        rcases hr with ⟨habsent, _⟩ | ⟨kind', left', l, hel', hr⟩
        · rw [habsent] at hel
          exact absurd hel Element.not_holds_absent
        · rcases Element.holds_unique hel hel' with ⟨hkind, hleft⟩
          subst hkind
          rw [eq_of_heq hleft]
          exact ⟨l, hr⟩
  apply (hnext.bind_ofExcept id).imp
  intro v
  constructor
  · intro hv
    rcases hv with ⟨_, ⟨el, hhead, hr⟩, rfl⟩
    rcases hr with ⟨_, hr⟩ | ⟨kind, left, l, hel, hwalk⟩
    · cases hr
    · exact ⟨el, hhead, .complex trivial
        (((h el kind left hhead hel).walk_iff v).mp ⟨l, hwalk⟩)⟩
  · intro hv
    rcases hv with ⟨el, hhead, hv⟩
    cases hv with
    | complex _ hv =>
        rcases Forest.holds_head hwf hknown hhead hv.ne_absent with ⟨kind, left, hel⟩
        rcases ((h el kind left hhead hel).walk_iff v).mpr hv with ⟨l, hwalk⟩
        exact ⟨_, ⟨el, hhead, Or.inr ⟨kind, left, l, hel, hwalk⟩⟩, rfl⟩

theorem yields_complex {rust : RustType} {parse : ParseField} (hparse : parse ≠ .unimplemented)
    {child : (kind : Kind) -> Reading kind SmlValue}
    (h : forall (el : Element) (kind : Kind) (left : Left kind), f.head = some el ->
      el.Holds kind left -> Yields (child kind) left anyLeft (Encodes template toCase rust el)) :
    Yields (readValue (.complex parse) child) f (fun g => g = f.drop 1)
      fun v => exists el, f.head = some el ∧
        EncodesField template toCase rust (.complex parse) el v := by
  have hlift : forall (el : Element) (kind : Kind) (left : Left kind), f.head = some el ->
      el.Holds kind left -> Yields (ExceptT.lift (m := Read kind) (child kind)) left anyLeft
        fun r => exists l, (child kind).walk left = some (r, l) :=
    fun el kind left hhead hel => (h el kind left hhead hel).lift
  have hplain : forall (el : Element) (kind : Kind) (left : Left kind), f.head = some el ->
      el.Holds kind left -> Yields (ExceptT.lift (m := Read kind) (child kind)) left anyLeft
        fun r => True ∧ exists l, (child kind).walk left = some (r, l) := by
    intro el kind left hhead hel
    apply (hlift el kind left hhead hel).imp
    intro r
    rw [true_and]
  cases parse with
  | unimplemented => exact absurd rfl hparse
  | string =>
      apply yields_parsed hwf hknown (C := fun _ => True) _
        (fun el l hhead hel => hplain el .string l hhead hel)
        (fun el l hhead hel => h el .string l hhead hel)
      exact ParseField.takes_string
  | list =>
      apply yields_parsed hwf hknown (C := fun _ => True) _
        (fun el l hhead hel => hplain el .list l hhead hel)
        (fun el l hhead hel => h el .list l hhead hel)
      exact ParseField.takes_list
  | choice =>
      apply yields_parsed hwf hknown (C := fun l => l.len = 2) _ _
        (fun el l hhead hel => h el .list l hhead hel)
      · exact ParseField.takes_choice
      · intro el l hhead hel
        apply Yields.len
        by_cases hlen : l.len = 2
        · rw [if_neg (not_not_intro hlen)]
          apply (hlift el .list l hhead hel).imp
          intro r
          rw [and_iff_right hlen]
        · rw [if_pos hlen]
          apply (Yields.fail _).imp
          intro r
          constructor
          · intro hr
            exact hr.elim
          · intro hr
            exact hlen hr.1
  | implicitChoice => exact yields_implicitChoice hwf hknown h

theorem yields_endOfSmlMsg (rust : RustType) (child : (kind : Kind) -> Reading kind SmlValue) :
    Yields (readValue .endOfSmlMsg child) f (fun g => g = f.drop 1)
      fun v => exists el, f.head = some el ∧ EncodesField template toCase rust .endOfSmlMsg el v := by
  have hnone : forall v, ¬ exists el, f.head = some el ∧
      EncodesField template toCase rust .endOfSmlMsg el v := by
    intro v h
    rcases h with ⟨_, _, h⟩
    cases h
  have herror : forall (e : Error) (g : Forest),
      (readValue .endOfSmlMsg child).walk f = some (.error e, g) ->
      Yields (readValue .endOfSmlMsg child) f (fun g => g = f.drop 1)
        fun v => exists el, f.head = some el ∧
          EncodesField template toCase rust .endOfSmlMsg el v := by
    intro e g hwalk
    refine ⟨.error e, g, hwalk, ?_, ?_⟩
    · intro v
      constructor
      · intro hv
        cases hv
      · intro hv
        exact absurd hv (hnone v)
    · intro v hv
      cases hv
  cases f with
  | nil => exact herror .unexpectedValue Forest.nil rfl
  | list header children rest => exact herror .unexpectedValue rest rfl
  | item header ty payload rest =>
      rcases Item.ofHeader_known hknown.1 payload.length with ⟨item, hitem⟩
      apply herror .unexpectedValue rest
      change (Read.nextEnd _).walk (Forest.item header ty payload rest) = _
      simp only [Read.walk, hitem]
      rfl

end

/-!
## Structures
-/

def Parses (template : Template) (toCase : String -> String) (rust : RustType) (ty : FieldType) :
    Prop :=
  forall parse, ty = .complex parse ->
    parse ≠ .unimplemented ∧ template.schema.parseField toCase rust = some parse

def Structured (template : Template) (toCase : String -> String) : RustType -> Prop
  | .primitive _ => False
  | .tlvString => True
  | .other ident => exists ty, template.definition toCase ident = some ty

omit [Machine] in
theorem structured_of_parseField {rust : RustType} {parse : ParseField}
    (h : template.schema.parseField toCase rust = some parse) :
    Structured template toCase rust := by
  cases rust with
  | primitive ty => cases h
  | tlvString => trivial
  | other ident =>
      rcases Option.bind_eq_some_iff.mp h with ⟨t, hfind, _⟩
      unfold Template.schema at hfind
      dsimp only at hfind
      rw [List.find?_map] at hfind
      rcases Option.map_eq_some_iff.mp hfind with ⟨t', hfind', _⟩
      exact ⟨t'.2, Option.map_eq_some_iff.mpr ⟨t', hfind', rfl⟩⟩

/-- The programs read what is encoded in elements that hold less than `n` others. -/
def Child.Decodes (template : Template) (toCase : String -> String) (n : Nat) (child : Child) :
    Prop :=
  forall (rust : RustType) (el : Element) (kind : Kind) (left : Left kind),
    Structured template toCase rust -> el.Sound -> el.nodes < n -> el.Holds kind left ->
    Yields (child rust kind) left anyLeft (Encodes template toCase rust el)

section

variable {n : Nat} {child : Child} (hchild : child.Decodes template toCase n)

include hchild

theorem yields_readValue {f : Forest} (hwf : f.WellFormed) (hknown : f.Known) (hn : f.nodes ≤ n)
    {rust : RustType} {ty : FieldType} (hty : Parses template toCase rust ty) :
    Yields (readValue ty (child rust)) f (fun g => g = f.drop 1)
      fun v => exists el, f.head = some el ∧ EncodesField template toCase rust ty el v := by
  cases ty with
  | primitive ty optional => exact yields_primitive hwf hknown rust ty optional _
  | endOfSmlMsg => exact yields_endOfSmlMsg hwf hknown rust _
  | complex parse =>
      rcases hty parse rfl with ⟨hparse, hrust⟩
      apply yields_complex hwf hknown hparse
      intro el kind left hhead hel
      exact hchild rust el kind left (structured_of_parseField hrust)
        (Forest.sound_head hwf hknown hhead) (Nat.lt_of_lt_of_le (Forest.nodes_head_lt hhead) hn)
        hel

omit [Machine] hchild in
theorem walk_readField (fields : List FieldType) (ty : FieldType) (id : Nat)
    (child : (kind : Kind) -> Reading kind SmlValue) (f : Left .list) :
    (readField fields ty id child).walk f = (readValue ty child).walk f := by
  cases ty with
  | primitive ty optional => rfl
  | endOfSmlMsg =>
      have hend : forall p : Reading .list Unit,
          ((p >>= fun _ => pure Returned.unit) >>= fun r => ofExcept r.toValue).walk f =
            (p >>= fun _ => pure SmlValue.unit).walk f := by
        intro p
        rw [Reading.walk_bind, Reading.walk_bind, Reading.walk_bind]
        rcases p.walk f with _ | ⟨r, g⟩
        · rfl
        · cases r <;> rfl
      exact hend Reading.nextEnd
  | complex parse =>
      have hparse : forall p : Reading .list (Except Error SmlValue),
          ((p >>= fun b => pure (Returned.read b)) >>= fun r =>
              ofExcept r.toValue >>= fun v => pure v).walk f =
            (p >>= fun r => ofExcept r).walk f := by
        intro p
        rw [Reading.walk_bind, Reading.walk_bind, Reading.walk_bind]
        rcases p.walk f with _ | ⟨r, g⟩
        · rfl
        · rcases r with e | b
          · rfl
          · cases b <;> rfl
      exact hparse (parse.parseField (.error Error.unexpectedValue) child)

theorem yields_readFields (fields : List FieldType) {tys : List (RustType × FieldType)}
    (htys : forall rust ty, (rust, ty) ∈ tys -> Parses template toCase rust ty) {f : Forest}
    (hwf : f.WellFormed) (hknown : f.Known) (hn : f.nodes ≤ n) (id : Nat) :
    Yields (readFields fields child id tys) f anyLeft (EncodesFields template toCase tys f) := by
  induction tys generalizing f id with
  | nil =>
      apply (Yields.pure []).drop.imp
      intro vs
      constructor
      · intro h
        rw [h]
        exact .done
      · intro h
        cases h
        rfl
  | cons x tys ih =>
      rcases x with ⟨rust, ty⟩
      have hfield : Yields (readField fields ty id (child rust)) f (fun g => g = f.drop 1)
          fun v => exists el, f.head = some el ∧ EncodesField template toCase rust ty el v :=
        (yields_readValue hchild hwf hknown hn (htys rust ty List.mem_cons_self)).congr
          (walk_readField fields ty id (child rust) f)
      have hrest : forall v : SmlValue,
          Yields (readFields fields child (id + 1) tys >>= fun vs => pure (v :: vs)) (f.drop 1)
            anyLeft fun vs' => exists vs, EncodesFields template toCase tys (f.drop 1) vs ∧
              vs' = v :: vs := by
        intro v
        have htail := ih (fun rust ty h => htys rust ty (List.mem_cons_of_mem _ h)) (hwf.drop 1)
          (hknown.drop 1) (Nat.le_trans f.nodes_drop_le hn) (id + 1)
        exact htail.bind fun vs left' _ _ => (Yields.pure (v :: vs)).drop
      apply (hfield.bind_left fun v _ => hrest v).imp
      intro vs
      constructor
      · intro h
        rcases h with ⟨v, ⟨el, hhead, hv⟩, vs', hvs, rfl⟩
        exact .field hhead hv hvs
      · intro h
        cases h with
        | field hhead hv hvs => exact ⟨_, ⟨_, hhead, hv⟩, _, hvs, rfl⟩

omit [Machine] hchild in
theorem walk_readElements_nil (ty : FieldType) (child : (kind : Kind) -> Reading kind SmlValue)
    (fuel : Nat) : (readElements ty child (fuel + 1)).walk Forest.nil = some (.ok [], Forest.nil) :=
  rfl

omit [Machine] hchild in
theorem walk_readElements (ty : FieldType) (child : (kind : Kind) -> Reading kind SmlValue)
    (fuel : Nat) {f : Left .list} (hcount : f.len ≠ 0) :
    (readElements ty child (fuel + 1)).walk f =
      (readValue ty child >>= fun v => readElements ty child fuel >>= fun vs =>
        pure (v :: vs)).walk f := by
  have hnext : (next ty child).walk f = (some <$> readValue ty child).walk f := by
    unfold next
    refine (Types.walk_len _ f).trans ?_
    rw [if_neg hcount]
    exact Reading.walk_bind_pure some (readValue ty child) f
  refine (Reading.walk_bind (next ty child) _ f).trans ?_
  rw [hnext, Reading.walk_map, Reading.walk_bind]
  rcases (readValue ty child).walk f with _ | ⟨r, g⟩
  · rfl
  · cases r <;> rfl

theorem yields_readElements {rust : RustType} {ty : FieldType}
    (hty : Parses template toCase rust ty) {fuel : Nat} {f : Forest} (hwf : f.WellFormed)
    (hknown : f.Known) (hn : f.nodes ≤ n) (hfuel : f.count < fuel) :
    Yields (readElements ty (child rust) fuel) f anyLeft
      (EncodesElements template toCase rust ty f) := by
  induction fuel generalizing f with
  | zero => exact absurd hfuel (Nat.not_lt_zero _)
  | succ fuel ih =>
      by_cases hcount : f.count = 0
      · have hnil : f = .nil := by
          cases f with
          | nil => rfl
          | item header ty payload rest => cases hcount
          | list header children rest => cases hcount
        subst hnil
        apply (Yields.of_walk (walk_readElements_nil ty (child rust) fuel)).imp
        intro vs
        constructor
        · intro h
          rw [h]
          exact .nil
        · intro h
          cases h with
          | nil => rfl
          | cons hhead _ _ => cases hhead
      · have hdrop := Forest.count_drop 1 f
        have hrest : forall v : SmlValue,
            Yields (readElements ty (child rust) fuel >>= fun vs => pure (v :: vs)) (f.drop 1)
              anyLeft fun vs' => exists vs,
                EncodesElements template toCase rust ty (f.drop 1) vs ∧ vs' = v :: vs := by
          intro v
          have htail := ih (hwf.drop 1) (hknown.drop 1) (Nat.le_trans f.nodes_drop_le hn) (by lia)
          exact htail.bind fun vs left' _ _ => (Yields.pure (v :: vs)).drop
        have hvalue := yields_readValue hchild hwf hknown hn hty
        have hall := (hvalue.bind_left fun v _ => hrest v).congr
          (walk_readElements ty (child rust) fuel hcount)
        apply hall.imp
        intro vs
        constructor
        · intro h
          rcases h with ⟨v, ⟨el, hhead, hv⟩, vs', hvs, rfl⟩
          exact .cons hhead hv hvs
        · intro h
          cases h with
          | nil => exact absurd rfl hcount
          | cons hhead hv hvs => exact ⟨_, ⟨_, hhead, hv⟩, _, hvs, rfl⟩

/-!
## Lists
-/

omit [Machine] hchild in
theorem parses_of_valueType {name : String} {rust : RustType} {ty : FieldType}
    (h : template.valueType toCase name = some (rust, ty)) (hty : ty ≠ .complex .unimplemented) :
    Parses template toCase rust ty := by
  intro parse hparse
  rw [hparse] at h hty
  constructor
  · intro hun
    rw [hun] at hty
    exact hty rfl
  · unfold Template.valueType at h
    cases hrust : template.schema.type2rust toCase name with
    | none =>
        rw [hrust] at h
        cases h
    | some rust' =>
        rw [hrust] at h
        cases rust' with
        | primitive ty => cases h
        | tlvString =>
            rcases Option.map_eq_some_iff.mp h with ⟨parse', hfield, heq⟩
            cases heq
            exact hfield
        | other ident =>
            rcases Option.map_eq_some_iff.mp h with ⟨parse', hfield, heq⟩
            cases heq
            exact hfield

omit [Machine] hchild in
theorem parses_of_fieldType {field : Field} {rust : RustType} {ty : FieldType}
    (hrust : template.schema.type2rust toCase field.ty = some rust)
    (h : template.schema.fieldType toCase field = some ty) (hty : ty ≠ .complex .unimplemented) :
    Parses template toCase rust ty := by
  intro parse hparse
  rw [hparse] at h hty
  constructor
  · intro hun
    rw [hun] at hty
    exact hty rfl
  · unfold Schema.fieldType at h
    rw [hrust] at h
    cases rust with
    | primitive ty => cases h
    | tlvString =>
        dsimp only at h
        rw [if_neg RustType.noConfusion] at h
        rcases Option.map_eq_some_iff.mp h with ⟨parse', hfield, heq⟩
        cases heq
        exact hfield
    | other ident =>
        dsimp only at h
        split at h
        · cases h
        · rcases Option.map_eq_some_iff.mp h with ⟨parse', hfield, heq⟩
          cases heq
          exact hfield

omit [Machine] hchild in
theorem parses_of_fieldTypes {seq : List Field} {tys : List (RustType × FieldType)}
    (h : template.fieldTypes toCase seq = some tys)
    (hseq : forall rust, (rust, FieldType.complex .unimplemented) ∉ tys) {rust : RustType}
    {ty : FieldType} (hmem : (rust, ty) ∈ tys) : Parses template toCase rust ty := by
  rcases Schema.mem_of_mapM h hmem with ⟨field, _, hfield⟩
  rcases Option.bind_eq_some_iff.mp hfield with ⟨rust', hrust, hfield⟩
  rcases Option.bind_eq_some_iff.mp hfield with ⟨ty', hty, hfield⟩
  cases hfield
  apply parses_of_fieldType hrust hty
  intro hun
  rw [hun] at hmem
  exact hseq rust hmem

omit [Machine] hchild in
theorem yields_tag (p : List UInt8) :
    Yields Reading.intoU32Relaxed p anyLeft
      fun tag => (1 ≤ p.length ∧ p.length ≤ 4) ∧ tag = beNat p := by
  by_cases hlen : 1 ≤ p.length ∧ p.length ≤ 4
  · apply (Yields.of_walk (Types.walk_intoU32Relaxed hlen)).imp
    intro tag
    rw [and_iff_right hlen]
  · apply Yields.len
    generalize hother : @Left.len .unsigned p = len
    change p.length = len at hother
    split
    · lia
    · lia
    · lia
    · lia
    · apply (Yields.fail _).imp
      intro tag
      constructor
      · intro h
        exact h.elim
      · intro h
        exact hlen h.1

theorem yields_readVariant {variants : List (String × Variant)}
    (hvariants : forall v, v ∈ variants -> exists rust ty,
      template.valueType toCase v.2.ty = some (rust, ty) ∧ ty ≠ .complex .unimplemented)
    (hnodup : (variants.map fun v => v.2.value).Nodup) {f : Forest} (hwf : f.WellFormed)
    (hknown : f.Known) (hn : f.nodes ≤ n) (tag : Nat) :
    Yields (template.readVariant toCase child variants tag) f anyLeft
      fun x => exists (name : String) (variant : Variant) (rust : RustType) (ty : FieldType)
        (el : Element) (v : SmlValue), (name, variant) ∈ variants ∧ variant.value = tag ∧
          template.valueType toCase variant.ty = some (rust, ty) ∧ f.head = some el ∧
          EncodesField template toCase rust ty el v ∧ x = .variant name v := by
  unfold Template.readVariant
  cases hfind : variants.find? fun v => v.2.value = tag with
  | none =>
      rw [List.find?_eq_none] at hfind
      apply (Yields.fail _).imp
      intro x
      constructor
      · intro hx
        exact hx.elim
      · intro hx
        rcases hx with ⟨name, variant, _, _, _, _, hmem, hvalue, _⟩
        exact absurd (decide_eq_true hvalue) (hfind _ hmem)
  | some found =>
      rcases found with ⟨name, variant⟩
      have hmem := List.mem_of_find?_eq_some hfind
      have hvalue := List.find?_some hfind
      rw [decide_eq_true_eq] at hvalue
      rcases hvariants _ hmem with ⟨rust, ty, hty, hne⟩
      dsimp only at hty hvalue ⊢
      rw [hty]
      have hread := yields_readValue hchild hwf hknown hn (parses_of_valueType hty hne)
      apply (hread.map (SmlValue.variant name)).drop.imp
      intro x
      constructor
      · intro hx
        rcases hx with ⟨v, ⟨el, hhead, hv⟩, rfl⟩
        exact ⟨name, variant, rust, ty, el, v, hmem, hvalue, hty, hhead, hv, rfl⟩
      · intro hx
        rcases hx with ⟨name', variant', rust', ty', el, v, hmem', hvalue', hty', hhead, hv, rfl⟩
        have heq := List.inj_on_of_nodup_map hnodup hmem' hmem (hvalue'.trans hvalue.symm)
        cases heq
        rw [hty] at hty'
        cases hty'
        exact ⟨v, ⟨el, hhead, hv⟩, rfl⟩

theorem yields_readChoice {variants : List (String × Variant)}
    (hvariants : forall v, v ∈ variants -> exists rust ty,
      template.valueType toCase v.2.ty = some (rust, ty) ∧ ty ≠ .complex .unimplemented)
    (hnodup : (variants.map fun v => v.2.value).Nodup) {f : Forest} (hwf : f.WellFormed)
    (hknown : f.Known) (hn : f.nodes ≤ n) :
    Yields (template.readChoice toCase child variants) f anyLeft
      (EncodesAs template toCase (.choice variants) (.list f)) := by
  have htag := Yields.nextVariant hwf hknown fun _ (p : List UInt8) _ _ => yields_tag p
  have hvariant := fun tag => yields_readVariant hchild hvariants hnodup (hwf.drop 1)
    (hknown.drop 1) (Nat.le_trans f.nodes_drop_le hn) tag
  apply (htag.bind_left fun tag _ => hvariant tag).imp
  intro x
  constructor
  · intro hx
    rcases hx with ⟨tag, ⟨el, hhead, p, hel, hlen, rfl⟩, name, variant, rust, ty, el', v, hmem,
      hvalue, hty, hhead', hv, rfl⟩
    cases hel
    exact .choice hmem hty hhead hlen hvalue.symm hhead' hv
  · intro hx
    cases hx with
    | choice hmem hty htag hlen hvalue hel hv =>
        exact ⟨_, ⟨_, htag, _, .unsigned, hlen, rfl⟩, _, _, _, _, _, _, hmem, hvalue.symm, hty, hel,
          hv, rfl⟩

theorem yields_readList {depth : Nat} {ty : ParsedType} (hty : template.Renders toCase depth ty)
    (hlist : forall types, ty ≠ .implicitChoice types) {f : Forest} (hwf : f.WellFormed)
    (hknown : f.Known) (hn : f.nodes ≤ n) {fuel : Nat} (hfuel : f.count < fuel) :
    Yields (template.readList toCase fuel child ty) f anyLeft
      (EncodesAs template toCase ty (.list f)) := by
  cases ty with
  | implicitChoice types => exact absurd rfl (hlist types)
  | choice variants => exact yields_readChoice hchild hty.1 hty.2 hwf hknown hn
  | sequence seq =>
      rcases hty with ⟨tys, htys, hparses⟩
      unfold Template.readList
      dsimp only
      rw [htys]
      have hfields := yields_readFields hchild (tys.map Prod.snd)
        (fun rust ty hmem => parses_of_fieldTypes htys hparses hmem) hwf hknown hn 0
      apply (hfields.map SmlValue.sequence).imp
      intro x
      constructor
      · intro hx
        rcases hx with ⟨vs, hvs, rfl⟩
        exact .sequence htys hvs
      · intro hx
        cases hx with
        | sequence htys' hvs =>
            rw [htys] at htys'
            cases htys'
            exact ⟨_, hvs, rfl⟩
  | sequenceOf types =>
      rcases hty with ⟨name, ty, rust, parse, rfl, hvalue, hparse⟩
      unfold Template.readList
      dsimp only
      rw [hvalue]
      have hne : FieldType.complex parse ≠ .complex .unimplemented := by
        intro heq
        injection heq with heq
        exact hparse heq
      have helements := yields_readElements hchild (parses_of_valueType hvalue hne) hwf hknown hn
        hfuel
      apply (helements.map SmlValue.sequenceOf).imp
      intro x
      constructor
      · intro hx
        rcases hx with ⟨vs, hvs, rfl⟩
        exact .sequenceOf hvalue hvs
      · intro hx
        cases hx with
        | sequenceOf hvalue' hvs =>
            rw [hvalue] at hvalue'
            cases hvalue'
            exact ⟨_, hvs, rfl⟩

end

end Build
end Sml
end Smartmeter
