import Smartmeter.Sml.Tlv.Read

/-!
# Generated choices

The build script reads types and typedefs from the schema, validates them, and
generates a match over TLV items for every implicit choice.  The arms come from
the types behind the names; the validation compares the names.
-/

namespace Smartmeter
namespace Sml
namespace Build

open Tlv (Kind)

structure Field where
  name : String
  ty : String
  optional : Bool
deriving DecidableEq, Repr

/--
A type of the schema.  The variants of a choice are names with their types, in
the order in which the script meets them.
-/
inductive SchemaType where
  | choice
  | implicitChoice (types : List (String × String))
  | sequence (fields : List Field)
  | sequenceOf (types : List (String × String))
deriving DecidableEq, Repr

structure Schema where
  types : List (String × SchemaType)
  typedefs : List (String × String)
deriving DecidableEq, Repr

/-!
## The validation loop
-/

namespace Schema

variable (schema : Schema)

def validateVariants (what name : String) (types : List (String × String)) :
    Except String Unit := do
  let count := types.countP fun v => (schema.types.lookup v.2).isSome
  if count > 1 then
    throw s!"{what} {name} has {count} list types"
  for v in types do
    let variantty := v.2
    let count := types.countP fun w => w.2 = variantty
    if count > 1 then
      throw s!"{what} {name} has {count} variants of type {variantty}"

def validate : Except String Unit :=
  schema.types.forM fun (name, parsedTy) =>
    match parsedTy with
    | .sequence _ => pure ()
    | .choice => pure ()
    | .implicitChoice types => schema.validateVariants "choice" name types
    | .sequenceOf types => schema.validateVariants "sequenceof" name types

end Schema

/-!
## Match arms
-/

/-- The items that an arm is for: their kind and the lengths they may have. -/
structure Pattern where
  kind : Kind
  range : Option (Nat × Nat)
deriving DecidableEq, Repr

namespace Pattern

def contains (p : Pattern) (kind : Kind) (len : Nat) : Bool :=
  p.kind == kind &&
    match p.range with
    | none => true
    | some (start, stop) => decide (start ≤ len) && decide (len < stop)

end Pattern

inductive Primitive where
  | unsigned8
  | unsigned16
  | unsigned32
  | unsigned64
  | integer8
  | integer16
  | integer32
  | integer64
  | octetString
  | boolean
deriving DecidableEq, Repr

namespace Primitive

def ofName (name : String) : Option Primitive :=
  if name = "Unsigned8" then some .unsigned8
  else if name = "Unsigned16" then some .unsigned16
  else if name = "Unsigned32" then some .unsigned32
  else if name = "Unsigned64" then some .unsigned64
  else if name = "Integer8" then some .integer8
  else if name = "Integer16" then some .integer16
  else if name = "Integer32" then some .integer32
  else if name = "Integer64" then some .integer64
  else if name = "Octet String" then some .octetString
  else if name = "Boolean" then some .boolean
  else none

def pattern : Primitive -> Pattern
  | .unsigned8 => { kind := .unsigned, range := some (1, 2) }
  | .unsigned16 => { kind := .unsigned, range := some (2, 3) }
  | .unsigned32 => { kind := .unsigned, range := some (3, 5) }
  | .unsigned64 => { kind := .unsigned, range := some (5, 9) }
  | .integer8 => { kind := .integer, range := some (1, 2) }
  | .integer16 => { kind := .integer, range := some (2, 3) }
  | .integer32 => { kind := .integer, range := some (3, 5) }
  | .integer64 => { kind := .integer, range := some (5, 9) }
  | .octetString => { kind := .string, range := none }
  | .boolean => { kind := .boolean, range := none }

end Primitive

structure Arm (ν : Type) where
  variant : ν
  pattern : Pattern
deriving DecidableEq, Repr

def select {ν : Type} (arms : List (Arm ν)) (kind : Kind) (len : Nat) : Option ν :=
  (arms.find? fun arm => arm.pattern.contains kind len).map Arm.variant

namespace Schema

variable (schema : Schema)

def resolve (name : String) : String :=
  (schema.typedefs.lookup name).getD name

/--
`type_to_tlvtypes` with a bound on its recursion; `none` is a panic or a
recursion that does not end within the bound.
-/
def typeToTlvtypes : Nat -> String -> Option (List Pattern)
  | 0, _ => none
  | fuel + 1, name =>
      match Primitive.ofName (schema.resolve name) with
      | some p => some [p.pattern]
      | none =>
          match schema.types.lookup (schema.resolve name) with
          | some (.implicitChoice types) =>
              (types.mapM fun v => typeToTlvtypes fuel v.2).map List.flatten
          | some _ => some [{ kind := .list, range := none }]
          | none => none

def arms (fuel : Nat) (types : List (String × String)) : Option (List (Arm String)) :=
  (types.mapM fun v =>
    (schema.typeToTlvtypes fuel v.2).map fun tlvTypes => tlvTypes.map (Arm.mk v.1)).map
      List.flatten

end Schema

/-!
## What a name stands for
-/

/-- What an arm is for: a type the script knows, or a list that holds any other type. -/
inductive Leaf where
  | primitive (p : Primitive)
  | structured
deriving DecidableEq, Repr

namespace Leaf

def pattern : Leaf -> Pattern
  | .primitive p => p.pattern
  | .structured => { kind := .list, range := none }

def sample : Leaf -> Kind × Nat
  | .primitive p => (p.pattern.kind, (p.pattern.range.map Prod.fst).getD 0)
  | .structured => (.list, 0)

theorem sample_contains (leaf : Leaf) :
    leaf.pattern.contains leaf.sample.1 leaf.sample.2 = true := by
  cases leaf with
  | primitive p => cases p <;> decide
  | structured => decide

theorem eq_of_contains {a b : Leaf} {kind : Kind} {len : Nat}
    (ha : a.pattern.contains kind len = true) (hb : b.pattern.contains kind len = true) :
    a = b := by
  unfold Pattern.contains at ha hb
  rw [Bool.and_eq_true, beq_iff_eq] at ha hb
  rcases ha with ⟨hkind, hrange⟩
  rcases hb with ⟨hkind', hrange'⟩
  have hsame : a.pattern.kind = b.pattern.kind := hkind.trans hkind'.symm
  rcases a with p | _ <;> rcases b with q | _
  · cases p <;> cases q <;>
      first
        | rfl
        | exact absurd hsame (by decide)
        | (simp only [pattern, Primitive.pattern, Bool.and_eq_true, decide_eq_true_eq]
            at hrange hrange'
           lia)
  · cases p <;> cases hsame
  · cases q <;> cases hsame
  · rfl

end Leaf

namespace Schema

variable {schema : Schema}

/-- The leaves that a name stands for, through one typedef and through nested choices. -/
inductive Reaches (schema : Schema) : String -> Leaf -> Prop where
  | primitive {name : String} {p : Primitive}
      (hname : Primitive.ofName (schema.resolve name) = some p) :
      Reaches schema name (.primitive p)
  | structured {name : String} {ty : SchemaType}
      (hname : Primitive.ofName (schema.resolve name) = none)
      (hty : schema.types.lookup (schema.resolve name) = some ty)
      (hstructured : forall types, ty ≠ .implicitChoice types) :
      Reaches schema name .structured
  | choice {name : String} {types : List (String × String)} {v : String × String}
      {leaf : Leaf} (hname : Primitive.ofName (schema.resolve name) = none)
      (hty : schema.types.lookup (schema.resolve name) = some (.implicitChoice types))
      (hmem : v ∈ types) (hv : Reaches schema v.2 leaf) : Reaches schema name leaf

theorem reaches_primitive {name : String} {p : Primitive}
    (h : Primitive.ofName (schema.resolve name) = some p) (leaf : Leaf) :
    schema.Reaches name leaf <-> leaf = .primitive p := by
  constructor
  · intro hleaf
    cases hleaf with
    | primitive hname =>
        rw [h] at hname
        cases hname
        rfl
    | structured hname _ _ =>
        rw [h] at hname
        cases hname
    | choice hname _ _ _ =>
        rw [h] at hname
        cases hname
  · intro hleaf
    rw [hleaf]
    exact .primitive h

theorem reaches_structured {name : String} {ty : SchemaType}
    (hname : Primitive.ofName (schema.resolve name) = none)
    (hty : schema.types.lookup (schema.resolve name) = some ty)
    (hstructured : forall types, ty ≠ .implicitChoice types) (leaf : Leaf) :
    schema.Reaches name leaf <-> leaf = .structured := by
  constructor
  · intro hleaf
    cases hleaf with
    | primitive hname' =>
        rw [hname] at hname'
        cases hname'
    | structured _ _ _ => rfl
    | choice _ hty' _ _ =>
        rw [hty] at hty'
        cases hty'
        exact absurd rfl (hstructured _)
  · intro hleaf
    rw [hleaf]
    exact .structured hname hty hstructured

theorem mem_of_mapM_flatten {α β : Type} {f : α -> Option (List β)} {xs : List α}
    {ys : List β} (h : (xs.mapM f).map List.flatten = some ys) :
    (forall x, x ∈ xs -> exists l, f x = some l) ∧
      forall b, b ∈ ys <-> exists x l, x ∈ xs ∧ f x = some l ∧ b ∈ l := by
  induction xs generalizing ys with
  | nil =>
      cases h
      constructor
      · intro x hx
        cases hx
      · intro b
        constructor
        · intro hb
          cases hb
        · rintro ⟨x, l, hx, _⟩
          cases hx
  | cons x xs ih =>
      rw [List.mapM_cons] at h
      cases hx : f x with
      | none =>
          rw [hx] at h
          cases h
      | some l =>
          cases hxs : xs.mapM f with
          | none =>
              rw [hx, hxs] at h
              cases h
          | some ls =>
              rw [hx, hxs] at h
              cases h
              rcases @ih ls.flatten (by rw [hxs]; rfl) with ⟨hall, hmem⟩
              constructor
              · intro x' hx'
                rcases List.mem_cons.mp hx' with heq | htail
                · exact ⟨l, heq ▸ hx⟩
                · exact hall x' htail
              · intro b
                rw [List.flatten_cons, List.mem_append, hmem]
                constructor
                · rintro (hb | ⟨x', l', hx', hl', hb⟩)
                  · exact ⟨x, l, List.mem_cons_self, hx, hb⟩
                  · exact ⟨x', l', List.mem_cons_of_mem x hx', hl', hb⟩
                · rintro ⟨x', l', hx', hl', hb⟩
                  rcases List.mem_cons.mp hx' with heq | htail
                  · rw [heq, hx] at hl'
                    cases hl'
                    exact Or.inl hb
                  · exact Or.inr ⟨x', l', htail, hl', hb⟩

theorem mem_typeToTlvtypes {fuel : Nat} {name : String} {patterns : List Pattern}
    (h : schema.typeToTlvtypes fuel name = some patterns) (p : Pattern) :
    p ∈ patterns <-> exists leaf, Reaches schema name leaf ∧ leaf.pattern = p := by
  induction fuel generalizing name patterns with
  | zero => cases h
  | succ fuel ih =>
      unfold typeToTlvtypes at h
      cases hname : Primitive.ofName (schema.resolve name) with
      | some q =>
          rw [hname] at h
          cases h
          rw [List.mem_singleton]
          constructor
          · intro hp
            exact ⟨.primitive q, .primitive hname, hp.symm⟩
          · rintro ⟨leaf, hreaches, hp⟩
            cases hreaches with
            | primitive hname' =>
                rw [hname] at hname'
                cases hname'
                exact hp.symm
            | structured hname' _ _ =>
                rw [hname] at hname'
                cases hname'
            | choice hname' _ _ _ =>
                rw [hname] at hname'
                cases hname'
      | none =>
          rw [hname] at h
          cases hty : schema.types.lookup (schema.resolve name) with
          | none =>
              rw [hty] at h
              cases h
          | some ty =>
              have hnested : forall types, ty = .implicitChoice types ->
                  (p ∈ patterns <-> exists leaf, Reaches schema name leaf ∧ leaf.pattern = p) := by
                intro types hchoice
                rw [hty, hchoice] at h
                rcases mem_of_mapM_flatten h with ⟨hall, hmem⟩
                rw [hmem]
                constructor
                · rintro ⟨v, l, hv, hl, hp⟩
                  rcases (ih hl).mp hp with ⟨leaf, hreaches, hleaf⟩
                  exact ⟨leaf, .choice hname (hchoice ▸ hty) hv hreaches, hleaf⟩
                · rintro ⟨leaf, hreaches, hleaf⟩
                  cases hreaches with
                  | primitive hname' =>
                      rw [hname] at hname'
                      cases hname'
                  | structured _ hty' hstructured =>
                      rw [hty] at hty'
                      cases hty'
                      exact absurd hchoice (hstructured types)
                  | choice _ hty' hv hreaches =>
                      rw [hty, hchoice] at hty'
                      cases hty'
                      rcases hall _ hv with ⟨l, hl⟩
                      exact ⟨_, l, hv, hl, (ih hl).mpr ⟨leaf, hreaches, hleaf⟩⟩
              have hlist : (forall types, ty ≠ .implicitChoice types) ->
                  patterns = [{ kind := .list, range := none }] ->
                  (p ∈ patterns <-> exists leaf, Reaches schema name leaf ∧ leaf.pattern = p) := by
                intro hstructured hpatterns
                rw [hpatterns, List.mem_singleton]
                constructor
                · intro hp
                  exact ⟨.structured, .structured hname hty hstructured, hp.symm⟩
                · rintro ⟨leaf, hreaches, hp⟩
                  cases hreaches with
                  | primitive hname' =>
                      rw [hname] at hname'
                      cases hname'
                  | structured _ _ _ => exact hp.symm
                  | choice _ hty' _ _ =>
                      rw [hty] at hty'
                      cases hty'
                      exact absurd rfl (hstructured _)
              rw [hty] at h
              cases ty with
              | implicitChoice types => exact hnested types rfl
              | choice =>
                  cases h
                  exact hlist (fun _ hne => by cases hne) rfl
              | sequence fields =>
                  cases h
                  exact hlist (fun _ hne => by cases hne) rfl
              | sequenceOf types =>
                  cases h
                  exact hlist (fun _ hne => by cases hne) rfl

theorem mem_arms {fuel : Nat} {types : List (String × String)} {arms : List (Arm String)}
    (h : schema.arms fuel types = some arms) (arm : Arm String) :
    arm ∈ arms <-> exists v leaf, v ∈ types ∧ arm.variant = v.1 ∧
      Reaches schema v.2 leaf ∧ leaf.pattern = arm.pattern := by
  rcases mem_of_mapM_flatten h with ⟨hall, hmem⟩
  rw [hmem]
  constructor
  · rintro ⟨v, l, hv, hl, harm⟩
    cases hpatterns : schema.typeToTlvtypes fuel v.2 with
    | none =>
        rw [hpatterns] at hl
        cases hl
    | some patterns =>
        rw [hpatterns] at hl
        cases hl
        rcases List.mem_map.mp harm with ⟨p, hp, rfl⟩
        rcases (mem_typeToTlvtypes hpatterns p).mp hp with ⟨leaf, hreaches, hleaf⟩
        exact ⟨v, leaf, hv, rfl, hreaches, hleaf⟩
  · rintro ⟨v, leaf, hv, hvariant, hreaches, hleaf⟩
    rcases hall v hv with ⟨l, hl⟩
    refine ⟨v, l, hv, hl, ?_⟩
    cases hpatterns : schema.typeToTlvtypes fuel v.2 with
    | none =>
        rw [hpatterns] at hl
        cases hl
    | some patterns =>
        rw [hpatterns] at hl
        cases hl
        have hp := (mem_typeToTlvtypes hpatterns leaf.pattern).mpr ⟨leaf, hreaches, rfl⟩
        refine List.mem_map.mpr ⟨leaf.pattern, hp, ?_⟩
        rw [hleaf, ← hvariant]

end Schema

/-!
## Choices whose arms do not overlap
-/

def Disjoint {ν : Type} (arms : List (Arm ν)) : Prop :=
  forall a b, a ∈ arms -> b ∈ arms -> a.variant ≠ b.variant -> forall kind len,
    ¬ (a.pattern.contains kind len = true ∧ b.pattern.contains kind len = true)

theorem Disjoint.select_eq {ν : Type} {arms arms' : List (Arm ν)} (h : Disjoint arms)
    (hsame : forall arm, arm ∈ arms' <-> arm ∈ arms) (kind : Kind) (len : Nat) :
    select arms' kind len = select arms kind len := by
  unfold select
  cases hfind : arms.find? (fun arm => arm.pattern.contains kind len) with
  | none =>
      have hnone : arms'.find? (fun arm => arm.pattern.contains kind len) = none := by
        rw [List.find?_eq_none] at hfind ⊢
        intro arm harm
        exact hfind arm ((hsame arm).mp harm)
      rw [hnone]
  | some a =>
      have hmem := List.mem_of_find?_eq_some hfind
      have hcontains := List.find?_some hfind
      cases hfind' : arms'.find? (fun arm => arm.pattern.contains kind len) with
      | none =>
          rw [List.find?_eq_none] at hfind'
          exact absurd hcontains (hfind' a ((hsame a).mpr hmem))
      | some b =>
          have hmem' := (hsame b).mp (List.mem_of_find?_eq_some hfind')
          have hcontains' := List.find?_some hfind'
          refine congrArg some ?_
          apply Classical.byContradiction
          intro hne
          exact h b a hmem' hmem hne kind len ⟨hcontains', hcontains⟩

namespace Schema

variable {schema : Schema}

/--
The arms of an implicit choice are disjoint, and the variant of an item does not
depend on the order in which the variants are listed.
-/
def Unambiguous (schema : Schema) (fuel : Nat) (types : List (String × String))
    (arms : List (Arm String)) : Prop :=
  Disjoint arms ∧ forall types' arms', types'.Perm types ->
    schema.arms fuel types' = some arms' ->
    forall kind len, select arms' kind len = select arms kind len

/-- A choice is unambiguous exactly when no leaf is reached from two of its variants. -/
theorem unambiguous_iff {fuel : Nat} {types : List (String × String)}
    {arms : List (Arm String)} (h : schema.arms fuel types = some arms) :
    schema.Unambiguous fuel types arms <->
      forall v w, v ∈ types -> w ∈ types -> v.1 ≠ w.1 -> forall leaf,
        ¬ (Reaches schema v.2 leaf ∧ Reaches schema w.2 leaf) := by
  have hmem := mem_arms h
  constructor
  · rintro ⟨hdisjoint, _⟩ v w hv hw hne leaf ⟨hreaches, hreaches'⟩
    have ha := (hmem { variant := v.1, pattern := leaf.pattern }).mpr
      ⟨v, leaf, hv, rfl, hreaches, rfl⟩
    have hb := (hmem { variant := w.1, pattern := leaf.pattern }).mpr
      ⟨w, leaf, hw, rfl, hreaches', rfl⟩
    have hsample := leaf.sample_contains
    exact hdisjoint _ _ ha hb hne leaf.sample.1 leaf.sample.2 ⟨hsample, hsample⟩
  · intro hleaves
    have hdisjoint : Disjoint arms := by
      rintro a b ha hb hne kind len ⟨hcontains, hcontains'⟩
      rcases (hmem a).mp ha with ⟨v, leaf, hv, hvariant, hreaches, hleaf⟩
      rcases (hmem b).mp hb with ⟨w, leaf', hw, hvariant', hreaches', hleaf'⟩
      rw [← hleaf] at hcontains
      rw [← hleaf'] at hcontains'
      have hsame := Leaf.eq_of_contains hcontains hcontains'
      rw [← hsame] at hreaches'
      rw [hvariant, hvariant'] at hne
      exact hleaves v w hv hw hne leaf ⟨hreaches, hreaches'⟩
    refine ⟨hdisjoint, ?_⟩
    intro types' arms' hperm h' kind len
    apply hdisjoint.select_eq
    intro arm
    rw [mem_arms h', hmem]
    constructor
    · rintro ⟨v, leaf, hv, hrest⟩
      exact ⟨v, leaf, hperm.mem_iff.mp hv, hrest⟩
    · rintro ⟨v, leaf, hv, hrest⟩
      exact ⟨v, leaf, hperm.mem_iff.mpr hv, hrest⟩

def statusTypes : List (String × String) :=
  [("count", "Unsigned8"), ("status", "SML_Status")]

def statusSchema : Schema where
  types := [("SML_Reading", .implicitChoice statusTypes)]
  typedefs := [("SML_Status", "Unsigned8")]

def statusArms : List (Arm String) :=
  [{ variant := "count", pattern := Primitive.unsigned8.pattern },
    { variant := "status", pattern := Primitive.unsigned8.pattern }]

def flagTypes : List (String × String) :=
  [("count", "Unsigned8"), ("valid", "SML_Flag")]

def flagSchema : Schema where
  types := [("SML_Reading", .implicitChoice flagTypes)]
  typedefs := [("SML_Flag", "Boolean")]

def flagArms : List (Arm String) :=
  [{ variant := "count", pattern := Primitive.unsigned8.pattern },
    { variant := "valid", pattern := Primitive.boolean.pattern }]

theorem flag_leaves (v w : String × String) (hv : v ∈ flagTypes) (hw : w ∈ flagTypes)
    (hne : v.1 ≠ w.1) (leaf : Leaf) :
    ¬ (Reaches flagSchema v.2 leaf ∧ Reaches flagSchema w.2 leaf) := by
  have hcount : Reaches flagSchema "Unsigned8" leaf <-> leaf = .primitive .unsigned8 :=
    reaches_primitive (by decide) leaf
  have hvalid : Reaches flagSchema "SML_Flag" leaf <-> leaf = .primitive .boolean :=
    reaches_primitive (by decide) leaf
  simp only [flagTypes, List.mem_cons, List.not_mem_nil, or_false] at hv hw
  rcases hv with rfl | rfl <;> rcases hw with rfl | rfl
  · exact absurd rfl hne
  · simp only [hcount, hvalid]
    rintro ⟨rfl, h⟩
    cases h
  · simp only [hcount, hvalid]
    rintro ⟨rfl, h⟩
    cases h
  · exact absurd rfl hne

/-- A flag is told from a count by its header, a status is not. -/
theorem unambiguous_status :
    flagSchema.Unambiguous 1 flagTypes flagArms ∧
      ¬ statusSchema.Unambiguous 1 statusTypes statusArms := by
  constructor
  · exact (unambiguous_iff (by decide)).mpr flag_leaves
  · intro h
    have hcount : Reaches statusSchema "Unsigned8" (.primitive .unsigned8) :=
      .primitive (by decide)
    have hstatus : Reaches statusSchema "SML_Status" (.primitive .unsigned8) :=
      .primitive (by decide)
    exact (unambiguous_iff (by decide)).mp h ("count", "Unsigned8") ("status", "SML_Status")
      List.mem_cons_self (List.mem_cons_of_mem _ List.mem_cons_self) (by decide) _
      ⟨hcount, hstatus⟩

/-- The validation accepts it, and the order of its variants decides how a byte is read. -/
theorem validate_status_ambiguous :
    statusSchema.validate = .ok () ∧
      statusSchema.arms 1 statusTypes = some statusArms ∧
      ¬ statusSchema.Unambiguous 1 statusTypes statusArms ∧
      select statusArms .unsigned 1 = some "count" ∧
      (statusSchema.arms 1 statusTypes.reverse).map (fun arms => select arms .unsigned 1) =
        some (some "status") := by
  refine ⟨by rfl, by decide, ?_, by decide, by decide⟩
  rintro ⟨hdisjoint, _⟩
  have hcount : { variant := "count", pattern := Primitive.unsigned8.pattern } ∈ statusArms :=
    List.mem_cons_self
  have hstatus : { variant := "status", pattern := Primitive.unsigned8.pattern } ∈ statusArms :=
    List.mem_cons_of_mem _ List.mem_cons_self
  exact hdisjoint _ _ hcount hstatus (by decide) .unsigned 1 (by decide)

end Schema

end Build
end Sml
end Smartmeter
