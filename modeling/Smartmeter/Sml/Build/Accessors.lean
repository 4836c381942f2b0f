import Smartmeter.Sml.Build.Sequence
import Smartmeter.Sml.Tlv.TakesOne

/-!
# Fields and list elements

However a caller goes through the fields of a sequence, a method reads the
element of the list whose position is the number of its field.
-/

namespace Smartmeter
namespace Sml
namespace Build

open Foundation
open Tlv

/-!
## Fields
-/

namespace RustPrimitive

def minsz : RustPrimitive -> Nat
  | .u8 => 1
  | .u16 => 2
  | .u32 => 3
  | .u64 => 5
  | .i8 => 1
  | .i16 => 2
  | .i32 => 3
  | .i64 => 5
  | .bool => 1

def maxsz : RustPrimitive -> Nat
  | .u8 => 1
  | .u16 => 2
  | .u32 => 4
  | .u64 => 8
  | .i8 => 1
  | .i16 => 2
  | .i32 => 4
  | .i64 => 8
  | .bool => 1

def value (ty : RustPrimitive) (p : List UInt8) : PrimitiveValue :=
  match ty.kind with
  | .unsigned => .unsigned (beNat p)
  | .integer => .integer (beInt p)
  | _ => .boolean (p.headD 0 ≠ 0)

theorem walk_into {ty : RustPrimitive} {p : List UInt8} {v : PrimitiveValue} {left : Left ty.kind}
    (h : ty.into.walk (Left.ofPayload ty.kind p) = some (.ok v, left)) :
    ty.minsz ≤ p.length ∧ p.length ≤ ty.maxsz ∧ v = ty.value p := by
  have hunsigned : forall (minsz maxsz : Nat) (left : Left .unsigned),
      (PrimitiveValue.unsigned <$> Reading.content (.intoUnsigned minsz maxsz)).walk p =
        some (Except.ok v, left) ->
      minsz ≤ p.length ∧ p.length ≤ maxsz ∧ v = .unsigned (beNat p) := by
    intro minsz maxsz left hwalk
    rcases walk_map_content hwalk with ⟨b, hb, hv⟩
    rcases readWhole_ok hb with ⟨hlen, rfl⟩
    rw [decide_eq_true_eq] at hlen
    exact ⟨hlen.1, hlen.2, hv.symm⟩
  have hinteger : forall (minsz maxsz : Nat) (left : Left .integer),
      (PrimitiveValue.integer <$> Reading.content (.intoInteger minsz maxsz)).walk p =
        some (Except.ok v, left) ->
      minsz ≤ p.length ∧ p.length ≤ maxsz ∧ v = .integer (beInt p) := by
    intro minsz maxsz left hwalk
    rcases walk_map_content hwalk with ⟨b, hb, hv⟩
    rcases readWhole_ok hb with ⟨hlen, rfl⟩
    rw [decide_eq_true_eq] at hlen
    exact ⟨hlen.1, hlen.2, hv.symm⟩
  cases ty with
  | u8 => exact hunsigned 1 1 left h
  | u16 => exact hunsigned 2 2 left h
  | u32 => exact hunsigned 3 4 left h
  | u64 => exact hunsigned 5 8 left h
  | i8 => exact hinteger 1 1 left h
  | i16 => exact hinteger 2 2 left h
  | i32 => exact hinteger 3 4 left h
  | i64 => exact hinteger 5 8 left h
  | bool =>
      rcases walk_map_content h with ⟨b, hb, hv⟩
      rcases readWhole_ok hb with ⟨hlen, rfl⟩
      rw [decide_eq_true_eq] at hlen
      have hlen' : p.length = 1 := hlen
      exact ⟨Nat.le_of_eq hlen'.symm, Nat.le_of_eq hlen', hv.symm⟩

end RustPrimitive

inductive Smlfn {β : Type} (ty : RustPrimitive) : Bool -> Element -> Returned β -> Prop where
  | value {p : List UInt8} (hmin : ty.minsz ≤ p.length) (hmax : p.length ≤ ty.maxsz) :
      Smlfn ty false (.item ty.kind.ty p) (.value (ty.value p))
  | some {p : List UInt8} (hmin : ty.minsz ≤ p.length) (hmax : p.length ≤ ty.maxsz) :
      Smlfn ty true (.item ty.kind.ty p) (.option (some (ty.value p)))
  | none : Smlfn ty true (.item .string []) (.option none)

inductive ParseField.Reads {β : Type} (absent : β) (child : (kind : Kind) -> Read kind β) :
    ParseField -> Element -> β -> Prop where
  | string {el : Element} {left left' : Left .string} {b : β} (hel : el.Holds .string left)
      (hwalk : (child .string).walk left = some (b, left')) : Reads absent child .string el b
  | list {el : Element} {left left' : Left .list} {b : β} (hel : el.Holds .list left)
      (hwalk : (child .list).walk left = some (b, left')) : Reads absent child .list el b
  | choice {el : Element} {left left' : Left .list} {b : β} (hel : el.Holds .list left)
      (hlen : left.len = 2) (hwalk : (child .list).walk left = some (b, left')) :
      Reads absent child .choice el b
  | item {el : Element} {kind : Kind} {left left' : Left kind} {b : β} (hel : el.Holds kind left)
      (hwalk : (child kind).walk left = some (b, left')) :
      Reads absent child .implicitChoice el b
  | absent : Reads absent child .implicitChoice (.item .string []) absent

theorem RustPrimitive.holds {ty : RustPrimitive} {el : Element} {left : Left ty.kind}
    (h : el.Holds ty.kind left) :
    exists p, el = .item ty.kind.ty p ∧ left = Left.ofPayload ty.kind p := by
  cases ty <;> (cases h; exact ⟨_, rfl, rfl⟩)

/-!
## The schema
-/

namespace Schema

variable {schema : Schema} {toCase : String -> String}

def Implemented (schema : Schema) (toCase : String -> String) (field : Field) : Prop :=
  forall (t : String × SchemaType) (types : List (String × String)), t ∈ schema.types ->
    schema.type2rust toCase t.1 = schema.type2rust toCase field.ty ->
    t.2 = .sequenceOf types -> types.length = 1

theorem Implemented.fieldType {field : Field} (h : schema.Implemented toCase field) :
    schema.fieldType toCase field ≠ some (.complex .unimplemented) := by
  intro hty
  unfold Schema.fieldType at hty
  cases hrust : schema.type2rust toCase field.ty with
  | none =>
      rw [hrust] at hty
      cases hty
  | some rust =>
      rw [hrust] at hty
      cases rust with
      | primitive ty => cases hty
      | tlvString => cases hty
      | other ident =>
          dsimp only at hty
          split at hty
          · cases hty
          · rcases Option.map_eq_some_iff.mp hty with ⟨parse, hparse, heq⟩
            cases heq
            rcases Option.bind_eq_some_iff.mp hparse with ⟨t, hfind, ht⟩
            have hmem := List.mem_of_find?_eq_some hfind
            have hname := List.find?_some hfind
            rw [decide_eq_true_eq] at hname
            cases hsnd : t.2 with
            | choice =>
                rw [hsnd] at ht
                cases ht
            | implicitChoice types =>
                rw [hsnd] at ht
                cases ht
            | sequence fields =>
                rw [hsnd] at ht
                cases fields <;> cases ht
            | sequenceOf types =>
                rw [hsnd] at ht
                have hlen := h t types hmem (hname.trans hrust.symm) hsnd
                cases (if_pos hlen).symm.trans ht

theorem mem_of_mapM {α γ : Type} {f : α -> Option γ} {xs : List α} {ys : List γ}
    (h : xs.mapM f = some ys) {y : γ} (hy : y ∈ ys) : exists x, x ∈ xs ∧ f x = some y := by
  induction xs generalizing ys with
  | nil =>
      cases h
      cases hy
  | cons x xs ih =>
      rw [List.mapM_cons] at h
      rcases Option.bind_eq_some_iff.mp h with ⟨y', hx, h⟩
      rcases Option.bind_eq_some_iff.mp h with ⟨ys', hxs, h⟩
      cases h
      rcases List.mem_cons.mp hy with rfl | hy
      · exact ⟨x, List.mem_cons_self, hx⟩
      · rcases ih hxs hy with ⟨x', hx', hf⟩
        exact ⟨x', List.mem_cons_of_mem x hx', hf⟩

theorem unimplemented_notMem {seq : List Field} {fields : List FieldType}
    (hfields : seq.mapM (schema.fieldType toCase) = some fields)
    (hseq : forall field, field ∈ seq -> schema.Implemented toCase field) :
    FieldType.complex .unimplemented ∉ fields := by
  intro hmem
  rcases mem_of_mapM hfields hmem with ⟨field, hfield, hty⟩
  exact (hseq field hfield).fieldType hty

end Schema

/-!
## Methods
-/

variable {β : Type}

theorem total_into (ty : RustPrimitive) : ty.into.Total := by
  cases ty <;> exact (Reading.total_content _).map _

theorem total_smlfn (ty : RustPrimitive) (optional : Bool) :
    (smlfn (β := β) ty optional).Total := by
  cases optional with
  | false =>
      exact (Reading.total_nextAny _ (Reading.total_expect (total_into ty))).map _
  | true =>
      exact (Reading.total_nextAny _ (Reading.total_expect ((total_into ty).map _))).map _

theorem total_parseField (ty : ParseField) (absent : β)
    {child : (kind : Kind) -> Read kind β} (hchild : forall kind, (child kind).Total) :
    (ty.parseField absent child).Total := by
  have hlift : forall kind, Reading.Total (ExceptT.lift (child kind)) :=
    fun kind => Reading.total_lift (hchild kind)
  cases ty with
  | string => exact Reading.total_nextAny _ (Reading.total_expect (hlift .string))
  | list => exact Reading.total_nextAny _ (Reading.total_expect (hlift .list))
  | choice =>
      refine Reading.total_nextAny _ (Reading.total_expect ?_)
      refine Reading.total_len.bind ?_
      intro len
      split
      · trivial
      · exact hlift .list
  | implicitChoice => exact Reading.total_nextAny _ hlift
  | unimplemented => trivial

inductive Runs (fields : List FieldType) : Place -> Call β -> Method β -> Prop where
  | field {i id : Nat} {ty : FieldType} (hid : i ≤ id) (hty : fields[id]? = some ty) :
      Runs fields (.field i) (.field id) (renderSequenceFieldfn fields ty id (id - i))
  | parse {id : Nat} {parsed : Bool} {ty : ParseField} {absent : β}
      {child : (kind : Kind) -> Read kind β} {total : forall kind, (child kind).Total}
      (hty : fields[id]? = some (.complex ty)) :
      Runs fields (.complex id parsed) (.parse absent child total)
        (Complex.parse ty id parsed absent child)
  | finish {id : Nat} {parsed : Bool} {ty : ParseField}
      (hty : fields[id]? = some (.complex ty)) :
      Runs fields (.complex id parsed) .finish (Complex.finish fields ty id parsed)

theorem method_runs {fields : List FieldType} {place : Place} {call : Call β} {m : Method β}
    (h : method fields place call = some m) : Runs fields place call m := by
  cases place with
  | unit => cases call <;> cases h
  | field i =>
      cases call with
      | parse absent child total => cases h
      | finish => cases h
      | field id =>
          simp only [method] at h
          split at h
          · next hid =>
            rcases Option.map_eq_some_iff.mp h with ⟨ty, hty, rfl⟩
            exact .field hid hty
          · cases h
  | complex id parsed =>
      cases call with
      | field id' => cases h
      | parse absent child total =>
          simp only [method] at h
          split at h
          · next hty =>
            cases h
            exact .parse hty
          · cases h
      | finish =>
          simp only [method] at h
          split at h
          · next hty =>
            cases h
            exact .finish hty
          · cases h

theorem Runs.total {fields : List FieldType} {place : Place} {call : Call β} {m : Method β}
    (h : Runs fields place call m) : m.body.Total := by
  cases h with
  | field hid hty =>
      rename_i ty
      cases ty with
      | primitive ty optional => exact Reading.total_field (total_smlfn ty optional)
      | endOfSmlMsg => exact Reading.total_field (Reading.total_nextEnd.bind fun _ => trivial)
      | complex ty => exact Reading.total_field trivial
  | @parse id parsed ty absent child total hty =>
      unfold Complex.parse
      cases parsed with
      | true => trivial
      | false => exact (total_parseField ty absent total).bind fun _ => trivial
  | @finish id parsed ty hty =>
      unfold Complex.finish
      cases parsed with
      | true => trivial
      | false =>
          apply Reading.Total.bind
          · exact total_parseField ty () fun _ => trivial
          · intro _
            trivial

/-!
## What a method takes
-/

theorem walk_skip_beyond {num : Nat} {f : Forest} (h : f.count < num) :
    (Reading.skip num).walk f = some (.error .endOfList, f) :=
  if_pos h

theorem walk_skip_within {num : Nat} {f : Forest} (h : num ≤ f.count) :
    (Reading.skip num).walk f = some (.ok (), f.drop num) :=
  if_neg (Nat.not_lt.mpr h)

theorem walk_field_beyond {numSkip : Nat} {p : Reading .list β} {f : Forest}
    (h : f.count < numSkip) :
    (Types.field numSkip p).walk f = some (.error .endOfList, f) := by
  unfold Types.field
  rw [if_pos (Nat.zero_lt_of_lt h)]
  refine (Reading.walk_bind (Reading.skip numSkip) (fun _ => p) f).trans ?_
  rw [walk_skip_beyond h]
  rfl

theorem walk_field_within {numSkip : Nat} {p : Reading .list β} {f : Forest}
    (h : numSkip ≤ f.count) :
    (Types.field numSkip p).walk f = p.walk (f.drop numSkip) := by
  unfold Types.field
  by_cases hpos : numSkip > 0
  · rw [if_pos hpos]
    refine (Reading.walk_bind (Reading.skip numSkip) (fun _ => p) f).trans ?_
    rw [walk_skip_within h]
    rfl
  · have hzero : numSkip = 0 := Nat.eq_zero_of_not_pos hpos
    rw [if_neg hpos, hzero]
    rfl

variable [Machine]

theorem takesOne_smlfn (ty : RustPrimitive) (optional : Bool) :
    TakesOne .endOfList (smlfn (β := β) ty optional) fun el r => Smlfn ty optional el r := by
  cases optional with
  | false =>
      refine ((takesOne_nextAny _ _).map _).imp ?_
      rintro el _ ⟨v, hgives, rfl⟩
      rcases Element.gives_expect hgives with ⟨_, habsent⟩ | ⟨left, left', hel, hwalk⟩
      · cases habsent
      · rcases RustPrimitive.holds hel with ⟨p, rfl, rfl⟩
        rcases RustPrimitive.walk_into hwalk with ⟨hmin, hmax, rfl⟩
        exact .value hmin hmax
  | true =>
      refine ((takesOne_nextAny _ _).map _).imp ?_
      rintro el _ ⟨v, hgives, rfl⟩
      rcases Element.gives_expect hgives with ⟨rfl, habsent⟩ | ⟨left, left', hel, hwalk⟩
      · injection habsent with habsent
        rw [← habsent]
        exact .none
      · rcases RustPrimitive.holds hel with ⟨p, rfl, rfl⟩
        rcases Option.map_eq_some_iff.mp ((Reading.walk_map _ _ _).symm.trans hwalk) with
          ⟨⟨r, left''⟩, hinto, heq⟩
        injection heq with hr _
        cases r with
        | error e => cases hr
        | ok w =>
            injection hr with hr
            rcases RustPrimitive.walk_into hinto with ⟨hmin, hmax, rfl⟩
            rw [← hr]
            exact .some hmin hmax

theorem takesOne_parseField {ty : ParseField} (hty : ty ≠ .unimplemented)
    (absent : β) (child : (kind : Kind) -> Read kind β) :
    TakesOne .endOfList (ty.parseField absent child) fun el b => ty.Reads absent child el b := by
  cases ty with
  | string =>
      refine (takesOne_nextAny _ _).imp ?_
      intro el b hgives
      rcases Element.gives_expect hgives with ⟨_, habsent⟩ | ⟨left, left', hel, hwalk⟩
      · cases habsent
      · exact .string hel (walk_lift hwalk)
  | list =>
      refine (takesOne_nextAny _ _).imp ?_
      intro el b hgives
      rcases Element.gives_expect hgives with ⟨_, habsent⟩ | ⟨left, left', hel, hwalk⟩
      · cases habsent
      · exact .list hel (walk_lift hwalk)
  | choice =>
      refine (takesOne_nextAny _ _).imp ?_
      intro el b hgives
      rcases Element.gives_expect hgives with ⟨_, habsent⟩ | ⟨left, left', hel, hwalk⟩
      · cases habsent
      · have hbody : Reading.walk (if left.len ≠ 2 then Reading.fail (.unsupportedLen left.len)
            else ExceptT.lift (child .list)) left = some (.ok b, left') :=
          (Reading.walk_bind Reading.len _ left).symm.trans hwalk
        by_cases hlen : left.len = 2
        · rw [if_neg (not_not.mpr hlen)] at hbody
          exact .choice hel hlen (walk_lift hbody)
        · rw [if_pos hlen] at hbody
          cases hbody
  | implicitChoice =>
      refine (takesOne_nextAny _ _).imp ?_
      intro el b hgives
      cases hgives with
      | absent => exact .absent
      | some hel hwalk => exact .item hel (walk_lift hwalk)
  | unimplemented => exact absurd rfl hty

theorem takesOne_field {i id : Nat} {missing : Error} {p : Reading .list β}
    {spec : Element -> β -> Prop} (h : TakesOne missing p spec) {f g : Forest}
    (hwf : f.WellFormed) (hknown : f.Known) (hi : i ≤ f.count) (hid : i ≤ id)
    {r : Except Error β} (hwalk : (Types.field (id - i) p).walk (f.drop i) = some (r, g)) :
    f.count ≤ id ∧ r = .error (if id = f.count then missing else .endOfList) ∧
        (exists k, k ≤ f.count ∧ g = f.drop k) ∨
      exists el, f.element id = some el ∧ g = f.drop (id + 1) ∧ forall a, r = .ok a -> spec el a := by
  have hcount := Forest.count_drop i f
  by_cases hbeyond : (f.drop i).count < id - i
  · cases (walk_field_beyond hbeyond).symm.trans hwalk
    have hne : id ≠ f.count := by lia
    rw [if_neg hne]
    exact Or.inl ⟨by lia, rfl, i, hi, rfl⟩
  · have hskip : i + (id - i) = id := Nat.add_sub_cancel' hid
    have hp := (walk_field_within (Nat.le_of_not_lt hbeyond)).symm.trans hwalk
    rw [Forest.drop_drop, hskip] at hp
    rcases h _ _ _ (hwf.drop id) (hknown.drop id) hp with ⟨hnil, hr, hg⟩ | ⟨el, hel, hg, hspec⟩
    · have hge : f.count ≤ id := Forest.count_le_of_element hnil
      have hle : id ≤ f.count := by lia
      rw [if_pos (Nat.le_antisymm hle hge)]
      exact Or.inl ⟨hge, hr, id, hle, hg⟩
    · rw [Forest.drop_drop] at hg
      exact Or.inr ⟨el, hel, hg, hspec⟩

end Build
end Sml
end Smartmeter
