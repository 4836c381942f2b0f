import Smartmeter.Sml.Build.Decoding

/-!
# Reading items

A variant of an implicit choice is the item itself, and the arms select it.  With
that, a list that is read through all the structures of a type gives the value
that its elements encode.
-/

namespace Smartmeter
namespace Sml
namespace Build

open Foundation
open Tlv

variable {template : Template} {toCase : String -> String}

/-!
## Items of implicit choices
-/

theorem yields_readString (p : List UInt8) :
    Yields readString p anyLeft fun v => v = .octets p := by
  apply Yields.len
  exact Yields.of_walk (Types.walk_map_ok (Types.walk_read p) SmlValue.octets)

theorem Encodes.string_iff {el : Element} {v : SmlValue} :
    Encodes template toCase .tlvString el v <->
      exists l, el.Holds .string l ∧ v = .octets l := by
  constructor
  · intro h
    cases h with
    | string hp => exact ⟨_, .string hp, rfl⟩
  · intro h
    rcases h with ⟨l, hl, rfl⟩
    cases hl with
    | string hp => exact .string hp

theorem Encodes.list_iff {ident : String} {ty : ParsedType} {el : Element} {v : SmlValue}
    (hdef : template.definition toCase ident = some ty)
    (hlist : forall types, ty ≠ .implicitChoice types) :
    Encodes template toCase (.other ident) el v <->
      exists l, el.Holds .list l ∧ EncodesAs template toCase ty (.list l) v := by
  constructor
  · intro h
    cases h with
    | defined hdef' hv =>
        rw [hdef] at hdef'
        cases hdef'
        cases hv with
        | sequence htys hvs => exact ⟨_, .list, .sequence htys hvs⟩
        | sequenceOf hty hvs => exact ⟨_, .list, .sequenceOf hty hvs⟩
        | choice hmem hty htag hlen hvalue hel hv =>
            exact ⟨_, .list, .choice hmem hty htag hlen hvalue hel hv⟩
        | implicitChoice _ _ _ => exact absurd rfl (hlist _)
  · intro h
    rcases h with ⟨l, hl, hv⟩
    cases hl
    exact .defined hdef hv

theorem EncodesItem.primitive_iff {ty : RustPrimitive} {el : Element} {v : SmlValue} :
    EncodesItem template toCase (.primitive ty) el v <->
      exists p, el = .item ty.kind.ty p ∧ ty.minsz ≤ p.length ∧ p.length ≤ ty.maxsz ∧
        v = .primitive (ty.value p) := by
  constructor
  · intro h
    cases h with
    | primitive hmin hmax => exact ⟨_, rfl, hmin, hmax, rfl⟩
    | structured hv => cases hv
  · intro h
    rcases h with ⟨p, rfl, hmin, hmax, rfl⟩
    exact .primitive hmin hmax

theorem EncodesItem.structured_iff {rust : RustType} {el : Element} {v : SmlValue}
    (hrust : forall ty, rust ≠ .primitive ty) :
    EncodesItem template toCase rust el v <-> Encodes template toCase rust el v := by
  constructor
  · intro h
    cases h with
    | primitive _ _ => exact absurd rfl (hrust _)
    | structured hv => exact hv
  · exact .structured

theorem Pattern.contains_iff {p : Pattern} {kind : Kind} {len : Nat} :
    p.contains kind len = true <-> p.kind = kind ∧ forall start stop, p.range = some (start, stop) ->
      start ≤ len ∧ len < stop := by
  unfold Pattern.contains
  rw [Bool.and_eq_true, beq_iff_eq]
  rcases p with ⟨_, _ | ⟨start, stop⟩⟩
  · simp
  · simp

theorem contains_list {el : Element} {l : Left .list} {kind : Kind} {left : Left kind}
    (hl : el.Holds .list l) (hel : el.Holds kind left) :
    Leaf.structured.pattern.contains kind left.len = true := by
  rcases Element.holds_unique hl hel with ⟨rfl, _⟩
  rfl

theorem contains_of_encodesItem {leaf : Leaf} {rust : RustType} {el : Element} {v : SmlValue}
    {kind : Kind} {left : Left kind} (hfor : template.ArmFor toCase leaf rust)
    (hv : EncodesItem template toCase rust el v) (hel : el.Holds kind left) :
    leaf.pattern.contains kind left.len = true := by
  cases hfor with
  | @primitive p ty hkind hrange =>
      rcases EncodesItem.primitive_iff.mp hv with ⟨payload, rfl, hmin, hmax, _⟩
      rcases Element.holds_unique (ty.holds_ofPayload payload) hel with ⟨rfl, hleft⟩
      rw [← eq_of_heq hleft, Pattern.contains_iff]
      have hlen : (Left.ofPayload ty.kind payload).len = payload.length := by
        cases ty <;> rfl
      constructor
      · exact hkind
      · intro start stop hstart
        change p.pattern.range = some (start, stop) at hstart
        rw [hlen]
        rcases hrange with hrange | ⟨hrange, _⟩
        · rw [hrange] at hstart
          cases hstart
          exact ⟨hmin, Nat.lt_succ_of_le hmax⟩
        · rw [hrange] at hstart
          cases hstart
  | octetString =>
      rw [EncodesItem.structured_iff fun _ => RustType.noConfusion, Encodes.string_iff] at hv
      rcases hv with ⟨l, hl, _⟩
      rcases Element.holds_unique hl hel with ⟨rfl, _⟩
      rfl
  | sequence hdef =>
      rw [EncodesItem.structured_iff fun _ => RustType.noConfusion,
        Encodes.list_iff hdef fun _ => ParsedType.noConfusion] at hv
      rcases hv with ⟨l, hl, _⟩
      exact contains_list hl hel
  | choice hdef =>
      rw [EncodesItem.structured_iff fun _ => RustType.noConfusion,
        Encodes.list_iff hdef fun _ => ParsedType.noConfusion] at hv
      rcases hv with ⟨l, hl, _⟩
      exact contains_list hl hel

section

variable [Machine] {n : Nat} {child : Child} (hchild : child.Decodes template toCase n)

include hchild

theorem yields_listItem {depth : Nat} {ident : String} {ty : ParsedType}
    (hdef : template.definition toCase ident = some ty) (hty : template.Renders toCase depth ty)
    (hlist : forall types, ty ≠ .implicitChoice types) {el : Element} {kind : Kind}
    {left : Left kind} (hsound : el.Sound) (hn : el.nodes ≤ n) {fuel : Nat} (hfuel : n < fuel)
    (hel : el.Holds kind left) :
    Yields (Reading.expect .list (template.readList toCase fuel child ty) kind) left anyLeft
      (Encodes template toCase (.other ident) el) := by
  have hread : forall l, el.Holds .list l -> Yields (template.readList toCase fuel child ty) l
      anyLeft (EncodesAs template toCase ty (.list l)) := by
    intro l hl
    cases hl
    have hcount := Nat.le_trans (Forest.count_le_nodes l) hn
    exact yields_readList hchild hty hlist hsound.1 hsound.2 hn (Nat.lt_of_le_of_lt hcount hfuel)
  apply (Yields.expect hel hread).imp
  intro v
  exact (Encodes.list_iff hdef hlist).symm

theorem yields_fromTlvItem {depth : Nat}
    (hrenders : forall ident ty, template.definition toCase ident = some ty ->
      template.Renders toCase depth ty) {leaf : Leaf} {rust : RustType} {el : Element} {kind : Kind}
    {left : Left kind} (hfor : template.ArmFor toCase leaf rust)
    (hcontains : leaf.pattern.contains kind left.len = true) (hsound : el.Sound)
    (hn : el.nodes ≤ n) {fuel : Nat} (hfuel : n < fuel) (hel : el.Holds kind left) :
    Yields (template.fromTlvItem toCase fuel child rust kind) left anyLeft
      (EncodesItem template toCase rust el) := by
  cases hfor with
  | @primitive p ty hkind hrange =>
      rw [Pattern.contains_iff] at hcontains
      rcases hcontains with ⟨hsame, hrange'⟩
      cases (hkind.symm.trans hsame : ty.kind = kind)
      rcases RustPrimitive.holds hel with ⟨payload, rfl, rfl⟩
      have hlen : (Left.ofPayload ty.kind payload).len = payload.length := by
        cases ty <;> rfl
      have hwidth : ty ≠ .bool -> ty.minsz ≤ payload.length ∧ payload.length ≤ ty.maxsz := by
        intro hbool
        rcases hrange with hrange | ⟨_, hrange⟩
        · rw [← hlen]
          rcases hrange' _ _ hrange with ⟨hmin, hmax⟩
          exact ⟨hmin, Nat.le_of_lt_succ hmax⟩
        · exact absurd hrange hbool
      unfold Template.fromTlvItem
      dsimp only
      rw [Reading.expect_self]
      apply ((RustPrimitive.yields_fromTlvItem hwidth).map SmlValue.primitive).imp
      intro v
      rw [EncodesItem.primitive_iff]
      constructor
      · intro hv
        rcases hv with ⟨w, ⟨hmin, hmax, rfl⟩, rfl⟩
        exact ⟨payload, rfl, hmin, hmax, rfl⟩
      · intro hv
        rcases hv with ⟨p', hp', hmin, hmax, rfl⟩
        cases hp'
        exact ⟨_, ⟨hmin, hmax, rfl⟩, rfl⟩
  | octetString =>
      have hread : forall l : Left .string, el.Holds .string l ->
          Yields readString l anyLeft fun v => v = .octets l := fun l _ => yields_readString l
      apply (Yields.expect hel hread).imp
      intro v
      rw [EncodesItem.structured_iff fun _ => RustType.noConfusion]
      exact Encodes.string_iff.symm
  | @sequence ident seq hdef =>
      unfold Template.fromTlvItem
      dsimp only
      rw [hdef]
      apply (yields_listItem hchild hdef (hrenders ident _ hdef) (fun _ => ParsedType.noConfusion)
        hsound hn hfuel hel).imp
      intro v
      exact (EncodesItem.structured_iff fun _ => RustType.noConfusion).symm
  | @choice ident variants hdef =>
      unfold Template.fromTlvItem
      dsimp only
      rw [hdef]
      apply (yields_listItem hchild hdef (hrenders ident _ hdef) (fun _ => ParsedType.noConfusion)
        hsound hn hfuel hel).imp
      intro v
      exact (EncodesItem.structured_iff fun _ => RustType.noConfusion).symm

omit [Machine] hchild in
theorem select_of_mem {arms : List (Arm String)} (hdisjoint : Disjoint arms) {arm : Arm String}
    (hmem : arm ∈ arms) {kind : Kind} {len : Nat} (hcontains : arm.pattern.contains kind len = true) :
    select arms kind len = some arm.variant := by
  unfold select
  cases hfind : arms.find? fun arm => arm.pattern.contains kind len with
  | none =>
      rw [List.find?_eq_none] at hfind
      exact absurd hcontains (hfind arm hmem)
  | some found =>
      have hfound := List.find?_some hfind
      apply congrArg some
      apply Classical.byContradiction
      intro hne
      exact hdisjoint found arm (List.mem_of_find?_eq_some hfind) hmem hne kind len
        ⟨hfound, hcontains⟩

omit [Machine] hchild in
theorem lookup_of_mem {types : List (String × String)} (hnodup : (types.map Prod.fst).Nodup)
    {name ty : String} (hmem : (name, ty) ∈ types) : types.lookup name = some ty := by
  induction types with
  | nil => cases hmem
  | cons t types ih =>
      rcases t with ⟨name', ty'⟩
      rw [List.map_cons, List.nodup_cons] at hnodup
      rw [List.lookup_cons]
      rcases List.mem_cons.mp hmem with heq | hmem
      · cases heq
        rw [beq_self_eq_true]
      · have hne : name ≠ name' := by
          intro heq
          apply hnodup.1
          rw [← heq]
          exact List.mem_map.mpr ⟨(name, ty), hmem, rfl⟩
        rw [beq_false_of_ne hne]
        exact ih hnodup.2 hmem

theorem yields_readImplicitChoice {depth : Nat}
    (hrenders : forall ident ty, template.definition toCase ident = some ty ->
      template.Renders toCase depth ty) {types : List (String × String)}
    (hty : template.Renders toCase depth (.implicitChoice types)) {el : Element} {kind : Kind}
    {left : Left kind} (hsound : el.Sound) (hn : el.nodes ≤ n) {fuel : Nat} (hfuel : n < fuel)
    (hel : el.Holds kind left) :
    Yields (template.readImplicitChoice toCase depth fuel child types kind) left anyLeft
      (EncodesAs template toCase (.implicitChoice types) el) := by
  rcases hty with ⟨⟨arms, harms, hdisjoint⟩, hnodup, htypes⟩
  have hmem := Schema.mem_arms harms
  -- The arms select the variant that the item encodes a value of.
  have hselect : forall name ty rust w, (name, ty) ∈ types ->
      template.schema.type2rust toCase ty = some rust -> EncodesItem template toCase rust el w ->
      select arms kind left.len = some name := by
    intro name ty rust w hvariant hrust hw
    rcases htypes _ hvariant with ⟨leaf, rust', hreaches, hrust', hfor⟩
    dsimp only at hreaches hrust'
    rw [hrust] at hrust'
    cases hrust'
    have harm := (hmem { variant := name, pattern := leaf.pattern }).mpr
      ⟨(name, ty), leaf, hvariant, rfl, (hreaches leaf).mpr rfl, rfl⟩
    exact select_of_mem hdisjoint harm (contains_of_encodesItem hfor hw hel)
  unfold Template.readImplicitChoice
  rw [harms]
  apply Yields.len
  cases hfound : select arms kind left.len with
  | none =>
      apply (Yields.fail _).imp
      intro x
      constructor
      · intro hx
        exact hx.elim
      · intro hx
        cases hx with
        | implicitChoice hvariant hrust hw =>
            rw [hselect _ _ _ _ hvariant hrust hw] at hfound
            cases hfound
  | some name =>
      rcases Option.map_eq_some_iff.mp hfound with ⟨arm, hfind, rfl⟩
      rcases (hmem arm).mp (List.mem_of_find?_eq_some hfind) with
        ⟨⟨name, ty⟩, leaf, hvariant, hname, hreaches, hleaf⟩
      have hcontains := List.find?_some hfind
      rw [← hleaf] at hcontains
      rcases htypes _ hvariant with ⟨leaf', rust, hreaches', hrust, hfor⟩
      cases (hreaches' leaf).mp hreaches
      dsimp only at hname hrust ⊢
      rw [hname, lookup_of_mem hnodup hvariant, Option.bind_some, hrust]
      apply ((yields_fromTlvItem hchild hrenders hfor hcontains hsound hn hfuel hel).map
        (SmlValue.variant name)).imp
      intro x
      constructor
      · intro hx
        rcases hx with ⟨w, hw, rfl⟩
        exact .implicitChoice hvariant hrust hw
      · intro hx
        cases hx with
        | implicitChoice hvariant' hrust' hw =>
            have hname' := hselect _ _ _ _ hvariant' hrust' hw
            rw [hfound, hname] at hname'
            cases hname'
            have hlookup := (lookup_of_mem hnodup hvariant).symm.trans
              (lookup_of_mem hnodup hvariant')
            cases hlookup
            rw [hrust] at hrust'
            cases hrust'
            exact ⟨_, hw, rfl⟩

omit hchild in
theorem decodes_readItem {depth : Nat}
    (hrenders : forall ident ty, template.definition toCase ident = some ty ->
      template.Renders toCase depth ty) (n : Nat) :
    (template.readItem toCase depth n).Decodes template toCase n := by
  induction n with
  | zero =>
      intro rust el kind left _ _ hlt _
      exact absurd hlt (Nat.not_lt_zero _)
  | succ n ih =>
      intro rust el kind left hrust hsound hlt hel
      have hn := Nat.le_of_lt_succ hlt
      cases rust with
      | primitive ty => exact hrust.elim
      | tlvString =>
          have hread : forall l : Left .string, el.Holds .string l ->
              Yields readString l anyLeft fun v => v = .octets l := fun l _ => yields_readString l
          apply (Yields.expect hel hread).imp
          intro v
          exact Encodes.string_iff.symm
      | other ident =>
          rcases hrust with ⟨ty, hdef⟩
          have hty := hrenders ident ty hdef
          unfold Template.readItem
          dsimp only
          rw [hdef]
          have hlist : (forall types, ty ≠ .implicitChoice types) ->
              Yields (Reading.expect .list
                (template.readList toCase (n + 1) (template.readItem toCase depth n) ty) kind) left
                anyLeft (Encodes template toCase (.other ident) el) := fun hlist =>
            yields_listItem ih hdef hty hlist hsound hn (Nat.lt_succ_self n) hel
          cases ty with
          | choice variants => exact hlist fun _ => ParsedType.noConfusion
          | sequence seq => exact hlist fun _ => ParsedType.noConfusion
          | sequenceOf types => exact hlist fun _ => ParsedType.noConfusion
          | implicitChoice types =>
              apply (yields_readImplicitChoice ih hrenders hty hsound hn (Nat.lt_succ_self n)
                hel).imp
              intro v
              constructor
              · intro hv
                exact .defined hdef hv
              · intro hv
                cases hv with
                | defined hdef' hv =>
                    rw [hdef] at hdef'
                    cases hdef'
                    exact hv

omit hchild in
/--
A list that is read through all the structures of a type gives a value exactly
if its elements encode the value, and dropping it leads to the first byte behind
it in any case.
-/
theorem reads_iff_encodes {depth : Nat}
    (hrenders : forall ident ty, template.definition toCase ident = some ty ->
      template.Renders toCase depth ty) {ident : String} {ty : ParsedType}
    (hdef : template.definition toCase ident = some ty) {header : List UInt8} {children : Forest}
    (hheader : decodeHeader header = some (.ok (.list, children.count), []))
    (hwf : children.WellFormed) (hknown : children.Known) (hfits : children.Fits 0)
    (hlength : children.bytes.length < Machine.fuel) {fuel : Nat}
    (hfuel : children.bytes.length < fuel) (rest : List UInt8) :
    Reader.readList.parse Reader.new (header ++ (children.bytes ++ rest)) =
        some ((.ok children.count, Reader.new), children.bytes ++ rest) ∧
      exists (r : Except Error SmlValue) (self : Handle) (bs : List UInt8),
        (template.readItem toCase depth fuel (.other ident) .list).act.parse
            { reader := Reader.new, len := children.count } (children.bytes ++ rest) =
          some ((r, self), bs) ∧
        (forall v, r = .ok v <-> Encodes template toCase (.other ident) (.list children) v) ∧
        Reader.skipNow.parse (self.drop .list) bs = some ((.ok (), Reader.new), rest) := by
  have hread := Reader.readList_of_header (children.bytes ++ rest)
    (Reader.Pending.new_iff.mpr rfl) (Nat.lt_of_lt_of_le (by decide) Machine.fuel_ge) hheader
  have hnodes := Nat.lt_of_le_of_lt (Forest.nodes_le_length hwf) hfuel
  rcases decodes_readItem hrenders fuel (.other ident) (.list children) .list children
    ⟨ty, hdef⟩ ⟨hwf, hknown⟩ hnodes .list with ⟨r, left, hwalk, hresults, _⟩
  have hstart : Stands children 0 rest { reader := Reader.new, len := children.count }
      (children.bytes ++ rest) := .start rest hwf hfits (decodeHeader_lt hheader)
  have hlimit : (children.bytes ++ rest).length < rest.length + Machine.fuel := by
    rw [List.length_append]
    lia
  rcases Read.run_walk (template.readItem toCase depth fuel (.other ident) .list) hstart
    (Nat.le_refl _) hlimit hwalk with ⟨self, bs, hrun, hat, hle⟩
  have hdrop : Stands Forest.nil 0 rest { reader := self.drop .list, len := 0 } bs := by
    have hleft : Stands left (Forest.nil.count + 0) (Forest.nil.bytes ++ rest) self bs := hat
    exact hleft.drop trivial trivial
  exact ⟨hread, r, self, bs, hrun, hresults, hdrop.skipNow (Nat.lt_of_le_of_lt hle hlimit)⟩

end

/-!
## Entries with a time
-/

def timeVariants : List (String × Variant) :=
  [("secIndex", { ty := "Unsigned32", value := 1 }),
    ("timestamp", { ty := "SML_Timestamp", value := 2 })]

def timeFields : List Field :=
  [⟨"name", "Octet String", false⟩, ⟨"unit", "Unsigned8", true⟩, ⟨"reading", "SML_Reading", false⟩]

def timeTemplate : Template where
  types := [("SML_Entries", .sequenceOf [("entry", "SML_Entry")]),
    ("SML_Entry", .sequence timeFields),
    ("SML_Reading", .implicitChoice [("number", "Integer16"), ("time", "SML_Time")]),
    ("SML_Time", .choice timeVariants)]
  typedefs := [("SML_Timestamp", "Unsigned32")]

def timeTys : List (RustType × FieldType) :=
  [(.tlvString, .complex .string), (.primitive .u8, .primitive .u8 true),
    (.other "Reading", .complex .implicitChoice)]

def timeArms : List (Arm String) :=
  [{ variant := "number", pattern := { kind := .integer, range := some (2, 3) } },
    { variant := "time", pattern := { kind := .list, range := none } }]

theorem disjoint_timeArms : Disjoint timeArms := by
  intro a b ha hb hne kind len h
  rcases h with ⟨hcontains, hcontains'⟩
  rw [Pattern.contains_iff] at hcontains hcontains'
  have hsame := hcontains.1.trans hcontains'.1.symm
  simp only [timeArms, List.mem_cons, List.not_mem_nil, or_false] at ha hb
  rcases ha with rfl | rfl <;> rcases hb with rfl | rfl
  · exact hne rfl
  · cases hsame
  · cases hsame
  · exact hne rfl

theorem renders_timeTemplate (ident : String) (ty : ParsedType)
    (h : timeTemplate.definition id ident = some ty) : timeTemplate.Renders id 1 ty := by
  rcases Option.map_eq_some_iff.mp h with ⟨t, hfind, rfl⟩
  have hmem := List.mem_of_find?_eq_some hfind
  simp only [timeTemplate, List.mem_cons, List.not_mem_nil, or_false] at hmem
  rcases hmem with rfl | rfl | rfl | rfl
  · exact ⟨"entry", "SML_Entry", .other "Entry", .list, rfl, by decide, by decide⟩
  · exists timeTys
    constructor
    · decide
    · intro rust hrust
      simp [timeTys] at hrust
  · refine ⟨⟨timeArms, by decide, disjoint_timeArms⟩, by decide, ?_⟩
    rw [List.forall_mem_cons, List.forall_mem_singleton]
    constructor
    · exact ⟨.primitive .integer16, .primitive .i16, Schema.reaches_primitive (by decide), by decide,
        .primitive rfl (Or.inl rfl)⟩
    · have hlookup : timeTemplate.schema.types.lookup (timeTemplate.schema.resolve "SML_Time") =
          some .choice := by decide
      have hdef : timeTemplate.definition id "Time" = some (.choice timeVariants) := by decide
      exact ⟨.structured, .other "Time", Schema.reaches_structured (by decide) hlookup
        (fun _ => SchemaType.noConfusion), by decide, .choice hdef⟩
  · constructor
    · unfold timeVariants
      rw [List.forall_mem_cons, List.forall_mem_singleton]
      constructor
      · exact ⟨.primitive .u32, .primitive .u32 false, by decide, FieldType.noConfusion⟩
      · exact ⟨.primitive .u32, .primitive .u32 false, by decide, FieldType.noConfusion⟩
    · decide

def numberEntry : Forest :=
  .item [0x02] .string [0x61] (.item [0x01] .string [] (.item [0x53] .integer [0x01, 0x02] .nil))

def timeChoice : Forest :=
  .item [0x62] .unsigned [0x01] (.item [0x65] .unsigned [0x00, 0x00, 0x00, 0x0A] .nil)

def timeEntry : Forest :=
  .item [0x02] .string [0x62] (.item [0x62] .unsigned [0x1E] (.list [0x72] timeChoice .nil))

def timeElements : Forest := .list [0x73] numberEntry (.list [0x73] timeEntry .nil)

def timeValue : SmlValue :=
  .sequenceOf [.sequence [.octets [0x61], .absent, .variant "number" (.primitive (.integer 258))],
    .sequence [.octets [0x62], .primitive (.unsigned 30),
      .variant "time" (.variant "secIndex" (.primitive (.unsigned 10)))]]

theorem encodes_time :
    Encodes timeTemplate id (.other "Entries") (.list timeElements) timeValue := by
  have hfields : timeTemplate.fieldTypes id timeFields = some timeTys := by decide
  have hentries : timeTemplate.definition id "Entries" =
      some (.sequenceOf [("entry", "SML_Entry")]) := by decide
  have hentry : timeTemplate.definition id "Entry" = some (.sequence timeFields) := by decide
  have hreading : timeTemplate.definition id "Reading" =
      some (.implicitChoice [("number", "Integer16"), ("time", "SML_Time")]) := by decide
  have htime : timeTemplate.definition id "Time" = some (.choice timeVariants) := by decide
  have hsecIndex : timeTemplate.valueType id "Unsigned32" =
      some (.primitive .u32, .primitive .u32 false) := by decide
  have hnumber : EncodesItem timeTemplate id (.primitive .i16)
      (.item RustPrimitive.i16.kind.ty [0x01, 0x02])
      (.primitive (RustPrimitive.i16.value [0x01, 0x02])) := .primitive (by decide) (by decide)
  have hunit : EncodesField timeTemplate id (.primitive .u8) (.primitive .u8 true)
      (.item RustPrimitive.u8.kind.ty [0x1E])
      (.primitive (RustPrimitive.u8.value [0x1E])) := .primitive (by decide) (by decide)
  have hseconds : EncodesField timeTemplate id (.primitive .u32) (.primitive .u32 false)
      (.item RustPrimitive.u32.kind.ty [0x00, 0x00, 0x00, 0x0A])
      (.primitive (RustPrimitive.u32.value [0x00, 0x00, 0x00, 0x0A])) :=
    .primitive (by decide) (by decide)
  have hchoice : Encodes timeTemplate id (.other "Time") (.list timeChoice)
      (.variant "secIndex" (.primitive (.unsigned 10))) :=
    .defined htime (.choice List.mem_cons_self hsecIndex rfl (by decide) (by decide) rfl hseconds)
  have hfirst : Encodes timeTemplate id (.other "Entry") (.list numberEntry) (.sequence
      [.octets [0x61], .absent, .variant "number" (.primitive (.integer 258))]) :=
    .defined hentry (.sequence hfields (.field rfl (.complex trivial (.string (by decide)))
      (.field rfl .absent (.field rfl (.complex trivial (.defined hreading
        (.implicitChoice List.mem_cons_self (by decide) hnumber))) .done))))
  have hsecond : Encodes timeTemplate id (.other "Entry") (.list timeEntry) (.sequence
      [.octets [0x62], .primitive (.unsigned 30),
        .variant "time" (.variant "secIndex" (.primitive (.unsigned 10)))]) :=
    .defined hentry (.sequence hfields (.field rfl (.complex trivial (.string (by decide)))
      (.field rfl hunit (.field rfl (.complex trivial (.defined hreading (.implicitChoice
        (List.mem_cons_of_mem _ List.mem_cons_self) (by decide) (.structured hchoice)))) .done))))
  have helement : timeTemplate.valueType id "SML_Entry" =
      some (.other "Entry", .complex .list) := by decide
  exact .defined hentries (.sequenceOf helement
    (.cons rfl (.complex trivial hfirst) (.cons rfl (.complex trivial hsecond) .nil)))

section

variable [Machine]

theorem readable_numberEntry : Types.Readable numberEntry :=
  .item .string (by decide) (decodeHeader_single (by decide))
    (.item .string (by decide) (decodeHeader_single (by decide))
      (.item .integer (by decide) (decodeHeader_single (by decide)) ⟨trivial, trivial⟩))

theorem readable_timeEntry : Types.Readable timeEntry := by
  have htime : Types.Readable timeChoice :=
    .item .unsigned (by decide) (decodeHeader_single (by decide))
      (.item .unsigned (by decide) (decodeHeader_single (by decide)) ⟨trivial, trivial⟩)
  exact .item .string (by decide) (decodeHeader_single (by decide))
    (.item .unsigned (by decide) (decodeHeader_single (by decide))
      (.list (decodeHeader_single (by decide)) htime ⟨trivial, trivial⟩))

theorem readable_timeElements : Types.Readable timeElements :=
  .list (decodeHeader_single (by decide)) readable_numberEntry
    (.list (decodeHeader_single (by decide)) readable_timeEntry ⟨trivial, trivial⟩)

end

/-- The entries are read, in front of another byte. -/
theorem reads_iff_encodes_time :
    letI := Machine.word32 64 (by decide)
    exists (self : Handle) (bs : List UInt8),
      (timeTemplate.readItem id 1 64 (.other "Entries") .list).act.parse
          { reader := Reader.new, len := 2 } (timeElements.bytes ++ [0x63]) =
        some ((.ok timeValue, self), bs) ∧
      Reader.skipNow.parse (self.drop .list) bs = some ((.ok (), Reader.new), [0x63]) := by
  let := Machine.word32 64 (by decide)
  have hentries : timeTemplate.definition id "Entries" =
      some (.sequenceOf [("entry", "SML_Entry")]) := by decide
  have hheader : decodeHeader [0x72] = some (.ok (.list, timeElements.count), []) :=
    decodeHeader_single (by decide)
  have hlength : timeElements.bytes.length < 64 := by decide
  have hwf := readable_timeElements.1
  have hfits : timeElements.Fits 0 :=
    Types.fits_of_length hwf (Nat.lt_trans hlength (by decide))
  rcases (reads_iff_encodes renders_timeTemplate hentries hheader hwf readable_timeElements.2 hfits
    hlength hlength [0x63]).2 with ⟨r, self, bs, hrun, hresults, hskip⟩
  rw [(hresults timeValue).mpr encodes_time] at hrun
  exact ⟨self, bs, hrun, hskip⟩

end Build
end Sml
end Smartmeter
