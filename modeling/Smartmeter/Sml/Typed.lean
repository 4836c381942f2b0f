import Smartmeter.Sml.Build.Accessors
import Smartmeter.Sml.Numbers

/-!
# Elements that are typed as the schema says

What the methods of an entry of a value list read of its elements: its name, its
scaler and its value.  The other elements may be any of the known types.
-/

namespace Smartmeter
namespace Sml
namespace Types

open Foundation
open Tlv

variable [Machine]

/-- Elements that are not read: any number of them, of the known types. -/
structure Unread (n : Nat) where
  elements : Forest
  count : elements.count = n
  wellFormed : elements.WellFormed
  known : elements.Known

def Readable (f : Forest) : Prop := f.WellFormed ∧ f.Known

/-!
## Values
-/

/-- The kinds and lengths of the variants of `SML_Value` that hold no elements. -/
def Variant : Kind -> Nat -> Prop
  | .string, _ => True
  | .boolean, len => len = 1
  | .integer, len => 1 ≤ len ∧ len ≤ 8
  | .unsigned, len => 1 ≤ len ∧ len ≤ 8
  | .list, _ => False

structure TypedPrimitive where
  kind : Kind
  header : List UInt8
  payload : List UInt8
  header_eq : decodeHeader header = some (.ok (kind.ty, payload.length), [])
  variant : Variant kind payload.length

/-- An `SML_Value`; the elements of an `smlList` are not read. -/
inductive TypedValue where
  | primitive (v : TypedPrimitive)
  | smlList (header : List UInt8) (children : Forest) (readable : Readable children)
      (header_eq : decodeHeader header = some (.ok (.list, children.count), []))

namespace TypedPrimitive

def elements (v : TypedPrimitive) (rest : Forest) : Forest :=
  .item v.header v.kind.ty v.payload rest

def Empty (v : TypedPrimitive) : Prop := v.kind = .string ∧ v.payload = []

instance (v : TypedPrimitive) : Decidable v.Empty := inferInstanceAs (Decidable (_ ∧ _))

end TypedPrimitive

namespace TypedValue

def elements : TypedValue -> Forest -> Forest
  | primitive v, rest => v.elements rest
  | smlList header children _ _, rest => .list header children rest

def Empty : TypedValue -> Prop
  | primitive v => v.Empty
  | smlList _ _ _ _ => False

instance : (v : TypedValue) -> Decidable v.Empty
  | primitive v => inferInstanceAs (Decidable v.Empty)
  | smlList _ _ _ _ => inferInstanceAs (Decidable False)

end TypedValue

/-!
## Walks
-/

section

omit [Machine]

variable {β : Type}

theorem walk_bind_ok {α : Type} {kind : Kind} {p : Reading kind α} {left left' : Left kind}
    {a : α} (h : p.walk left = some (.ok a, left')) (f : α -> Reading kind β) :
    (p >>= f).walk left = (f a).walk left' := by
  rw [Reading.walk_bind, h]
  rfl

theorem walk_bind_error {α : Type} {kind : Kind} {p : Reading kind α} {left left' : Left kind}
    {e : Error} (h : p.walk left = some (.error e, left')) (f : α -> Reading kind β) :
    (p >>= f).walk left = some (.error e, left') := by
  rw [Reading.walk_bind, h]
  rfl

theorem walk_bind_run {α : Type} {kind : Kind} {p : Reading kind α} {left left' : Left kind}
    {res : Except Error α} (h : p.walk left = some (res, left'))
    (f : Except Error α -> Read kind β) : (p.run >>= f).walk left = (f res).walk left' :=
  (Read.walk_bind _ _ _).trans (congrArg (Option.bind · _) h)

theorem walk_map_ok {α : Type} {kind : Kind} {p : Reading kind α} {left left' : Left kind} {a : α}
    (h : p.walk left = some (.ok a, left')) (f : α -> β) :
    (f <$> p).walk left = some (.ok (f a), left') := by
  rw [Reading.walk_map, h]
  rfl

theorem walk_nextAny_item {kind : Kind} {p : List UInt8}
    (hp : kind = .string -> p ≠ []) (header : List UInt8) (rest : Forest)
    (absent : Except Error β) (child : (kind : Kind) -> Reading kind β) :
    (Reading.nextAny absent child).walk (.item header kind.ty p rest) =
      ((child kind).walk (Left.ofPayload kind p)).map fun x => (x.1, rest) := by
  have hitem : Item.ofHeader (kind.ty, p.length) = .ok (.some kind p.length) :=
    Item.ofHeader_ty fun h => fun hlen => hp h (List.length_eq_zero_iff.mp hlen)
  unfold Reading.walk Reading.nextAny ExceptT.mk
  simp only [Read.walk, hitem]
  rw [Option.map_eq_bind]
  rfl

theorem walk_nextAny_absent (header : List UInt8) (rest : Forest) (absent : Except Error β)
    (child : (kind : Kind) -> Reading kind β) :
    (Reading.nextAny absent child).walk (.item header .string [] rest) =
      some (absent, rest) := rfl

theorem walk_nextAny_list (header : List UInt8) (children rest : Forest)
    (absent : Except Error β) (child : (kind : Kind) -> Reading kind β) :
    (Reading.nextAny absent child).walk (.list header children rest) =
      ((child .list).walk children).map fun x => (x.1, rest) := by
  unfold Reading.walk Reading.nextAny ExceptT.mk
  simp only [Read.walk]
  rw [Option.map_eq_bind]
  rfl

theorem walk_nextVariant_list (header : List UInt8) (children rest : Forest)
    (child : Reading .list β) :
    (Reading.nextVariant .list child).walk (.list header children rest) =
      (child.walk children).map fun x => (x.1, rest) :=
  walk_nextAny_list header children rest _ _

theorem walk_nextVariant_item {kind : Kind} {p : List UInt8}
    (hp : kind = .string -> p ≠ []) (header : List UInt8) (rest : Forest)
    (child : Reading kind β) :
    (Reading.nextVariant kind child).walk (.item header kind.ty p rest) =
      (child.walk (Left.ofPayload kind p)).map fun x => (x.1, rest) := by
  have hexpect : Reading.expect kind child kind = child := by
    unfold Reading.expect
    rw [dif_pos rfl]
  have hwalk := walk_nextAny_item hp header rest (.error .noneTlv)
    (Reading.expect kind child)
  rw [hexpect] at hwalk
  exact hwalk

theorem walk_intoInteger {minsz maxsz : Nat} {p : List UInt8}
    (h : minsz ≤ p.length ∧ p.length ≤ maxsz) :
    (Reading.content (.intoInteger minsz maxsz)).walk p = some (.ok (beInt p), []) := by
  change some (readWhole (decide (minsz ≤ p.length ∧ p.length ≤ maxsz)) _ _ p) = _
  rw [decide_eq_true h]
  rfl

theorem walk_intoUnsigned {minsz maxsz : Nat} {p : List UInt8}
    (h : minsz ≤ p.length ∧ p.length ≤ maxsz) :
    (Reading.content (.intoUnsigned minsz maxsz)).walk p = some (.ok (beNat p), []) := by
  change some (readWhole (decide (minsz ≤ p.length ∧ p.length ≤ maxsz)) _ _ p) = _
  rw [decide_eq_true h]
  rfl

theorem walk_read (p : List UInt8) : (Reading.read p.length).walk p = some (.ok p, []) := by
  change some (readWhole (decide (p.length = p.length)) _ _ p) = _
  rw [decide_eq_true rfl]
  rfl

theorem walk_len {kind : Kind} (f : Nat -> Reading kind β) (left : Left kind) :
    (Reading.len >>= f).walk left = (f left.len).walk left := by
  rw [Reading.walk_bind]
  rfl

theorem walk_intoU32Relaxed {p : List UInt8} (h : 1 ≤ p.length ∧ p.length ≤ 4) :
    Reading.intoU32Relaxed.walk p = some (.ok (beNat p), []) := by
  refine (walk_len _ (Left.ofPayload .unsigned p)).trans ?_
  generalize hlen : (Left.ofPayload .unsigned p).len = len
  change p.length = len at hlen
  split <;> first | exact walk_intoUnsigned (p := p) (by lia) | lia

theorem walk_intoI32Relaxed {p : List UInt8} (h : 1 ≤ p.length ∧ p.length ≤ 4) :
    Reading.intoI32Relaxed.walk p = some (.ok (beInt p), []) := by
  refine (walk_len _ (Left.ofPayload .integer p)).trans ?_
  generalize hlen : (Left.ofPayload .integer p).len = len
  change p.length = len at hlen
  split <;> first | exact walk_intoInteger (p := p) (by lia) | lia

theorem walk_intoI64Relaxed {p : List UInt8} (h : 1 ≤ p.length ∧ p.length ≤ 8) :
    Reading.intoI64Relaxed.walk p = some (.ok (beInt p), []) := by
  refine (walk_len _ (Left.ofPayload .integer p)).trans ?_
  generalize hlen : (Left.ofPayload .integer p).len = len
  change p.length = len at hlen
  split <;> first | exact walk_intoInteger (p := p) (by lia) | lia

theorem walk_intoU64Relaxed {p : List UInt8} (h : 1 ≤ p.length ∧ p.length ≤ 8) :
    Reading.intoU64Relaxed.walk p = some (.ok (beNat p), []) := by
  refine (walk_len _ (Left.ofPayload .unsigned p)).trans ?_
  generalize hlen : (Left.ofPayload .unsigned p).len = len
  change p.length = len at hlen
  split <;> first | exact walk_intoUnsigned (p := p) (by lia) | lia

end

/-!
## The value of an entry
-/

namespace TypedPrimitive

def value (v : TypedPrimitive) : ValueEnum :=
  match v.kind with
  | .boolean => .booleanValue (v.payload.headD 0 ≠ 0)
  | .integer => Value.integerValue v.payload.length (beInt v.payload)
  | .unsigned => Value.unsignedValue v.payload.length (beNat v.payload)
  | _ => .byteList

theorem walk_fromTlvItem (v : TypedPrimitive) :
    exists left, (Value.fromTlvItem v.kind).walk (Left.ofPayload v.kind v.payload) =
      some (.ok v.value, left) := by
  rcases v with ⟨kind, header, p, _, hvariant⟩
  unfold value
  cases kind with
  | list => exact hvariant.elim
  | string => exact ⟨p, rfl⟩
  | boolean =>
      exists []
      change (ValueEnum.booleanValue <$> Reading.intoBool).walk p = _
      apply walk_map_ok
      change some (readWhole (decide (p.length = 1)) _ _ p) = _
      have hlen : p.length = 1 := hvariant
      rw [decide_eq_true hlen]
      rfl
  | integer =>
      exists []
      rcases hvariant with ⟨hmin, hmax⟩
      refine (walk_len _ (Left.ofPayload .integer p)).trans ?_
      dsimp only
      generalize hlen : (Left.ofPayload .integer p).len = len
      change p.length = len at hlen
      rw [hlen]
      split
      · exact walk_map_ok (walk_intoInteger (p := p) (by lia)) _
      · exact walk_map_ok (walk_intoInteger (p := p) (by lia)) _
      · exact walk_map_ok (walk_intoI32Relaxed (p := p) (by lia)) _
      · exact walk_map_ok (walk_intoI32Relaxed (p := p) (by lia)) _
      · exact walk_map_ok (walk_intoI64Relaxed (p := p) (by lia)) _
      · exact walk_map_ok (walk_intoI64Relaxed (p := p) (by lia)) _
      · exact walk_map_ok (walk_intoI64Relaxed (p := p) (by lia)) _
      · exact walk_map_ok (walk_intoI64Relaxed (p := p) (by lia)) _
      · lia
  | unsigned =>
      exists []
      rcases hvariant with ⟨hmin, hmax⟩
      refine (walk_len _ (Left.ofPayload .unsigned p)).trans ?_
      dsimp only
      generalize hlen : (Left.ofPayload .unsigned p).len = len
      change p.length = len at hlen
      rw [hlen]
      split
      · exact walk_map_ok (walk_intoUnsigned (p := p) (by lia)) _
      · exact walk_map_ok (walk_intoUnsigned (p := p) (by lia)) _
      · exact walk_map_ok (walk_intoU32Relaxed (p := p) (by lia)) _
      · exact walk_map_ok (walk_intoU32Relaxed (p := p) (by lia)) _
      · exact walk_map_ok (walk_intoU64Relaxed (p := p) (by lia)) _
      · exact walk_map_ok (walk_intoU64Relaxed (p := p) (by lia)) _
      · exact walk_map_ok (walk_intoU64Relaxed (p := p) (by lia)) _
      · exact walk_map_ok (walk_intoU64Relaxed (p := p) (by lia)) _
      · lia

theorem walk_nextAny (v : TypedPrimitive) (rest : Forest) :
    (Reading.nextAny (.error .unexpectedValue) Value.fromTlvItem).walk (v.elements rest) =
      some (if v.Empty then .error .unexpectedValue else .ok v.value, rest) := by
  by_cases hempty : v.Empty
  · rw [if_pos hempty]
    unfold elements
    rw [hempty.1, hempty.2]
    exact walk_nextAny_absent _ _ _ _
  · rw [if_neg hempty]
    rcases v.walk_fromTlvItem with ⟨left, hwalk⟩
    refine (walk_nextAny_item (fun hkind hp => hempty ⟨hkind, hp⟩) _ _ _ _).trans ?_
    exact congrArg (Option.map _) hwalk

end TypedPrimitive

namespace TypedValue

def value : TypedValue -> ValueEnum
  | primitive v => v.value
  | smlList _ _ _ _ => .smlList

theorem walk_value (v : TypedValue) (rest : Forest) :
    Value.read.walk (v.elements rest) =
      some (if v.Empty then .error .unexpectedValue else .ok v.value, rest) := by
  cases v with
  | primitive v => exact v.walk_nextAny rest
  | smlList header children readable header_eq =>
      have hempty : ¬ (smlList header children readable header_eq).Empty := id
      rw [if_neg hempty]
      exact walk_nextAny_list header children rest _ _

end TypedValue

/-!
## The scaler of an entry
-/

/-- An `Integer8`, or the empty octet string where there is none. -/
inductive TypedScaler where
  | absent (header : List UInt8) (header_eq : decodeHeader header = some (.ok (.string, 0), []))
  | integer8 (header : List UInt8) (byte : UInt8)
      (header_eq : decodeHeader header = some (.ok (.integer, 1), []))

namespace TypedScaler

def elements : TypedScaler -> Forest -> Forest
  | absent header _, rest => .item header .string [] rest
  | integer8 header byte _, rest => .item header .integer [byte] rest

def value : TypedScaler -> Option Int
  | absent _ _ => none
  | integer8 _ byte _ => some (beInt [byte])

theorem walk_scaler (scaler : TypedScaler) (rest : Forest) :
    (Reading.nextVariantOpt .integer Reading.intoI8).walk (scaler.elements rest) =
      some (.ok scaler.value, rest) := by
  cases scaler with
  | absent header _ => rfl
  | integer8 header byte _ => rfl

end TypedScaler

/-!
## Entries
-/

/-- An `SML_ListEntry`: `objName`, three fields, `scaler`, `value` and a field. -/
structure TypedEntry where
  header : List UInt8
  nameHeader : List UInt8
  objName : List UInt8
  status : Unread 3
  scaler : TypedScaler
  value : TypedValue
  valueSignature : Unread 1
  header_eq : decodeHeader header = some (.ok (.list, 7), [])
  nameHeader_eq : decodeHeader nameHeader = some (.ok (.string, objName.length), [])

namespace TypedEntry

def afterStatus (e : TypedEntry) : Forest :=
  e.scaler.elements (e.value.elements e.valueSignature.elements)

def afterName (e : TypedEntry) : Forest :=
  e.status.elements.append e.afterStatus

def children (e : TypedEntry) : Forest :=
  .item e.nameHeader .string e.objName e.afterName

def elements (e : TypedEntry) (rest : Forest) : Forest :=
  .list e.header e.children rest

end TypedEntry

theorem Readable.item (kind : Kind) (hkind : kind ≠ .list) {header payload : List UInt8}
    {rest : Forest} (hheader : decodeHeader header = some (.ok (kind.ty, payload.length), []))
    (h : Readable rest) : Readable (.item header kind.ty payload rest) := by
  have hty : kind.ty ≠ .list ∧ forall raw : UInt8, kind.ty ≠ .other raw := by
    cases kind with
    | list => exact absurd rfl hkind
    | _ => exact ⟨TlvType.noConfusion, fun _ => TlvType.noConfusion⟩
  exact ⟨⟨hheader, hty.1, h.1⟩, hty.2, h.2⟩

theorem Readable.list {header : List UInt8} {children rest : Forest}
    (hheader : decodeHeader header = some (.ok (.list, children.count), []))
    (hchildren : Readable children) (h : Readable rest) : Readable (.list header children rest) :=
  ⟨⟨hheader, hchildren.1, h.1⟩, hchildren.2, h.2⟩

omit [Machine] in
theorem known_append {f g : Forest} (hf : f.Known) (hg : g.Known) : (f.append g).Known := by
  induction f with
  | nil => exact hg
  | item header ty payload rest ih => exact ⟨hf.1, ih hf.2⟩
  | list header children rest _ ih => exact ⟨hf.1, ih hf.2⟩

theorem Unread.readable {n : Nat} (u : Unread n) : Readable u.elements := ⟨u.wellFormed, u.known⟩

theorem Unread.readable_append {n : Nat} (u : Unread n) {rest : Forest} (h : Readable rest) :
    Readable (u.elements.append rest) :=
  ⟨Forest.wellFormed_append.mpr ⟨u.wellFormed, h.1⟩, known_append u.known h.2⟩

theorem Unread.count_append {n : Nat} (u : Unread n) (rest : Forest) :
    (u.elements.append rest).count = n + rest.count := by
  rw [Forest.count_append, u.count]

omit [Machine] in
theorem drop_append (f rest : Forest) : (f.append rest).drop f.count = rest := by
  induction f with
  | nil => rfl
  | item header ty payload f ih => exact ih
  | list header children f _ ih => exact ih

theorem Unread.drop_append {n : Nat} (u : Unread n) (rest : Forest) :
    (u.elements.append rest).drop n = rest := by
  have hdrop := Types.drop_append u.elements rest
  rw [u.count] at hdrop
  exact hdrop

theorem TypedValue.readable (v : TypedValue) {rest : Forest} (h : Readable rest) :
    Readable (v.elements rest) := by
  cases v with
  | smlList header children readable header_eq => exact .list header_eq readable h
  | primitive v =>
      apply Readable.item v.kind _ v.header_eq h
      intro hkind
      have hvariant := v.variant
      rw [hkind] at hvariant
      exact hvariant

theorem TypedValue.count (v : TypedValue) (rest : Forest) :
    (v.elements rest).count = rest.count + 1 := by
  cases v with
  | primitive v => rfl
  | smlList header children _ _ => rfl

theorem TypedScaler.readable (scaler : TypedScaler) {rest : Forest} (h : Readable rest) :
    Readable (scaler.elements rest) := by
  cases scaler with
  | absent header header_eq => exact .item .string (by decide) header_eq h
  | integer8 header byte header_eq => exact .item .integer (by decide) header_eq h

theorem TypedScaler.count (scaler : TypedScaler) (rest : Forest) :
    (scaler.elements rest).count = rest.count + 1 := by
  cases scaler with
  | absent header header_eq => rfl
  | integer8 header byte header_eq => rfl

namespace TypedEntry

theorem count_children (e : TypedEntry) : e.children.count = 7 := by
  change e.afterName.count + 1 = 7
  unfold afterName afterStatus
  rw [Unread.count_append, TypedScaler.count, TypedValue.count, e.valueSignature.count]

theorem readable_children (e : TypedEntry) : Readable e.children := by
  apply Readable.item .string (by decide) e.nameHeader_eq
  apply Unread.readable_append
  apply TypedScaler.readable
  apply TypedValue.readable
  exact e.valueSignature.readable

end TypedEntry

def listElements : List TypedEntry -> Forest
  | [] => .nil
  | e :: es => e.elements (listElements es)

theorem count_listElements (es : List TypedEntry) : (listElements es).count = es.length := by
  induction es with
  | nil => rfl
  | cons e es ih => exact congrArg Nat.succ ih

theorem readable_listElements (es : List TypedEntry) : Readable (listElements es) := by
  induction es with
  | nil => exact ⟨trivial, trivial⟩
  | cons e es ih =>
      have hheader := e.header_eq
      rw [← e.count_children] at hheader
      exact .list hheader e.readable_children ih

theorem count_le_length {f : Forest} (h : f.WellFormed) : f.count ≤ f.bytes.length := by
  induction f with
  | nil => exact Nat.le_refl 0
  | item header ty payload rest ih =>
      have hpos := List.length_pos_iff.mpr (decodeHeader_ne_nil h.1)
      have hrest := ih h.2.2
      change rest.count + 1 ≤ (header ++ payload ++ rest.bytes).length
      rw [List.length_append, List.length_append]
      lia
  | list header children rest _ ih =>
      have hpos := List.length_pos_iff.mpr (decodeHeader_ne_nil h.1)
      have hrest := ih h.2.2
      change rest.count + 1 ≤ (header ++ children.bytes ++ rest.bytes).length
      rw [List.length_append, List.length_append]
      lia

theorem fits_of_length {f : Forest} (h : f.WellFormed) {outer : Nat}
    (hlength : f.bytes.length + outer < Usize.size) : f.Fits outer := by
  induction f generalizing outer with
  | nil => trivial
  | item header ty payload rest ih =>
      change (header ++ payload ++ rest.bytes).length + outer < Usize.size at hlength
      rw [List.length_append, List.length_append] at hlength
      have hrest : rest.bytes.length + outer < Usize.size := by lia
      exact ih h.2.2 hrest
  | list header children rest ihchildren ih =>
      have hpos := List.length_pos_iff.mpr (decodeHeader_ne_nil h.1)
      have hchildren := count_le_length h.2.1
      have hrest := count_le_length h.2.2
      change (header ++ children.bytes ++ rest.bytes).length + outer < Usize.size at hlength
      rw [List.length_append, List.length_append] at hlength
      exact ⟨by lia, ihchildren h.2.1 (by lia), ih h.2.2 (by lia)⟩

/-!
## Bodies
-/

/-- An `SML_GetList.Res`: four fields, `valList` and two fields. -/
structure TypedResponse where
  clientId : Unread 4
  listHeader : List UInt8
  entries : List TypedEntry
  listSignature : Unread 2
  listHeader_eq : decodeHeader listHeader = some (.ok (.list, entries.length), [])

namespace TypedResponse

def children (r : TypedResponse) : Forest :=
  r.clientId.elements.append
    (.list r.listHeader (listElements r.entries) r.listSignature.elements)

theorem readable (r : TypedResponse) : Readable r.children := by
  apply Unread.readable_append
  have hheader := r.listHeader_eq
  rw [← count_listElements] at hheader
  exact .list hheader (readable_listElements r.entries) r.listSignature.readable

end TypedResponse

/-- The sequence of a body: a response with its list, or what is not read of another variant. -/
inductive TypedSequence : MessageBodyEnum -> Type where
  | response (r : TypedResponse) : TypedSequence .getListResponse
  | other {variant : MessageBodyEnum} (hvariant : variant ≠ .getListResponse) (children : Forest)
      (readable : Readable children) : TypedSequence variant

namespace TypedSequence

def children {variant : MessageBodyEnum} : TypedSequence variant -> Forest
  | response r => r.children
  | other _ children _ => children

def entries {variant : MessageBodyEnum} : TypedSequence variant -> List TypedEntry
  | response r => r.entries
  | other _ _ _ => []

theorem readable {variant : MessageBodyEnum} (s : TypedSequence variant) :
    Readable s.children := by
  cases s with
  | response r => exact r.readable
  | other _ children readable => exact readable

end TypedSequence

/-- An `SML_MessageBody`: a tag and the sequence of its variant. -/
structure TypedBody where
  tagHeader : List UInt8
  tag : List UInt8
  header : List UInt8
  variant : MessageBodyEnum
  sequence : TypedSequence variant
  tag_length : 1 ≤ tag.length ∧ tag.length ≤ 4
  variant_eq : MessageBodyEnum.ofTag (beNat tag) = some variant
  tagHeader_eq : decodeHeader tagHeader = some (.ok (.unsigned, tag.length), [])
  header_eq : decodeHeader header = some (.ok (.list, sequence.children.count), [])

namespace TypedBody

def elements (b : TypedBody) : Forest :=
  .item b.tagHeader .unsigned b.tag (.list b.header b.sequence.children .nil)

def entries (b : TypedBody) : List TypedEntry := b.sequence.entries

theorem readable (b : TypedBody) : Readable b.elements :=
  have hnil : Readable .nil := ⟨trivial, trivial⟩
  .item .unsigned (by decide) b.tagHeader_eq (.list b.header_eq b.sequence.readable hnil)

theorem length_entries_le (b : TypedBody) : b.entries.length ≤ b.elements.bytes.length := by
  rcases b with ⟨tagHeader, tag, header, variant, sequence, _, _, _, _⟩
  cases sequence with
  | response r =>
      have hle := count_le_length (readable_listElements r.entries).1
      rw [count_listElements] at hle
      change r.entries.length ≤ (tagHeader ++ tag ++ (header ++ (r.clientId.elements.append
        (.list r.listHeader (listElements r.entries) r.listSignature.elements)).bytes ++ [])).length
      simp only [List.length_append, Forest.bytes_append]
      change r.entries.length ≤ _ + (_ + (_ + (r.listHeader ++ (listElements r.entries).bytes ++
        r.listSignature.elements.bytes).length) + _)
      simp only [List.length_append]
      lia
  | other _ children _ => exact Nat.zero_le _

theorem walk_tag (b : TypedBody) :
    (Reading.nextVariant .unsigned Reading.intoU32Relaxed).walk b.elements =
      some (.ok (beNat b.tag), .list b.header b.sequence.children .nil) := by
  have hitem : (Reading.nextVariant .unsigned Reading.intoU32Relaxed).walk b.elements = _ :=
    walk_nextVariant_item (fun h => Kind.noConfusion h) _ _ _
  exact hitem.trans (congrArg (Option.map _) (walk_intoU32Relaxed b.tag_length))

theorem walk_read {β : Type} (b : TypedBody) {child : MessageBodyEnum -> Reading .list β}
    {res : Except Error β} {left : Forest}
    (h : (child b.variant).walk b.sequence.children = some (res, left)) :
    (MessageBody.read child).walk b.elements = some (res, Forest.nil) := by
  unfold MessageBody.read
  refine (walk_bind_ok b.walk_tag _).trans ?_
  rw [b.variant_eq]
  refine (walk_nextVariant_list _ _ _ _).trans ?_
  exact congrArg (Option.map _) h

end TypedBody

end Types
end Sml
end Smartmeter
