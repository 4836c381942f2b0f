import Mathlib.Tactic.IntervalCases
import Smartmeter.Sml.Build.Choice
import Smartmeter.Sml.Tlv.Items

/-!
# Numbers

A number of the stream can be read by a method of its width, by a method that
takes several widths, and through the generated choice of `SML_Value`.
-/

namespace Smartmeter
namespace Sml

open Foundation
open Tlv

namespace Types

/-!
## The generated match of `SML_Value`
-/

inductive ValueVariant where
  | booleanValue
  | byteList
  | n8BitInteger
  | n16BitInteger
  | n32BitInteger
  | n64BitInteger
  | n8BitUnsigned
  | n16BitUnsigned
  | n32BitUnsigned
  | n64BitUnsigned
  | smlList
deriving DecidableEq, Repr

namespace ValueVariant

def leaf : ValueVariant -> Build.Leaf
  | booleanValue => .primitive .boolean
  | byteList => .primitive .octetString
  | n8BitInteger => .primitive .integer8
  | n16BitInteger => .primitive .integer16
  | n32BitInteger => .primitive .integer32
  | n64BitInteger => .primitive .integer64
  | n8BitUnsigned => .primitive .unsigned8
  | n16BitUnsigned => .primitive .unsigned16
  | n32BitUnsigned => .primitive .unsigned32
  | n64BitUnsigned => .primitive .unsigned64
  | smlList => .structured

def fromTlvItem : ValueVariant -> (kind : Kind) -> Reading kind ValueEnum
  | booleanValue => Reading.expect .boolean (ValueEnum.booleanValue <$> Reading.intoBool)
  | byteList => Reading.expect .string (pure ValueEnum.byteList)
  | n8BitInteger => Reading.expect .integer (ValueEnum.n8BitInteger <$> Reading.intoI8)
  | n16BitInteger => Reading.expect .integer (ValueEnum.n16BitInteger <$> Reading.intoI16)
  | n32BitInteger =>
      Reading.expect .integer (ValueEnum.n32BitInteger <$> Reading.intoI32Relaxed)
  | n64BitInteger =>
      Reading.expect .integer (ValueEnum.n64BitInteger <$> Reading.intoI64Relaxed)
  | n8BitUnsigned => Reading.expect .unsigned (ValueEnum.n8BitUnsigned <$> Reading.intoU8)
  | n16BitUnsigned => Reading.expect .unsigned (ValueEnum.n16BitUnsigned <$> Reading.intoU16)
  | n32BitUnsigned =>
      Reading.expect .unsigned (ValueEnum.n32BitUnsigned <$> Reading.intoU32Relaxed)
  | n64BitUnsigned =>
      Reading.expect .unsigned (ValueEnum.n64BitUnsigned <$> Reading.intoU64Relaxed)
  | smlList => Reading.expect .list (pure ValueEnum.smlList)

theorem leaf_injective {v w : ValueVariant} (h : v.leaf = w.leaf) : v = w := by
  cases v <;> cases w <;> first | rfl | exact absurd h (by decide)

end ValueVariant

namespace Value

def arms (variants : List ValueVariant) : List (Build.Arm ValueVariant) :=
  variants.map fun v => { variant := v, pattern := v.leaf.pattern }

def readItem (variants : List ValueVariant) (kind : Kind) : Reading kind ValueEnum := do
  let len ← Reading.len
  match Build.select (arms variants) kind len with
  | some variant => variant.fromTlvItem kind
  | none => Reading.fail .unexpectedValue

def readI128 (variants : List ValueVariant) : Reading .list Int := do
  let value ← field 0 (Reading.nextAny (.error .unexpectedValue) (readItem variants))
  ExceptT.mk (.done value.intoI128Relaxed)

theorem select_arms {variants : List ValueVariant} {v : ValueVariant} {kind : Kind} {len : Nat}
    (hmem : v ∈ variants) (hv : v.leaf.pattern.contains kind len = true) :
    Build.select (arms variants) kind len = some v := by
  unfold Build.select
  cases hfind : (arms variants).find? (fun arm => arm.pattern.contains kind len) with
  | none =>
      rw [List.find?_eq_none] at hfind
      exact absurd hv (hfind _ (List.mem_map_of_mem hmem))
  | some arm =>
      have harm := List.find?_some hfind
      rcases List.mem_map.mp (List.mem_of_find?_eq_some hfind) with ⟨w, _, hw⟩
      rw [← hw] at harm ⊢
      have hleaf : w.leaf = v.leaf := Build.Leaf.eq_of_contains harm hv
      exact congrArg some (ValueVariant.leaf_injective hleaf)

theorem select_arms_none {variants : List ValueVariant} {kind : Kind} {len : Nat}
    (h : forall v, v ∈ variants -> v.leaf.pattern.contains kind len = false) :
    Build.select (arms variants) kind len = none := by
  unfold Build.select
  rw [Option.map_eq_none_iff, List.find?_eq_none]
  intro arm harm
  rcases List.mem_map.mp harm with ⟨v, hv, rfl⟩
  rw [h v hv]
  exact Bool.false_ne_true

theorem len_of_contains {v : ValueVariant} {kind : Kind} {len : Nat}
    (hkind : kind = .integer ∨ kind = .unsigned)
    (h : v.leaf.pattern.contains kind len = true) : 1 ≤ len ∧ len ≤ 8 := by
  unfold Build.Pattern.contains at h
  rw [Bool.and_eq_true, beq_iff_eq] at h
  rcases h with ⟨hpattern, hrange⟩
  cases v with
  | booleanValue => rcases hkind with rfl | rfl <;> cases hpattern
  | byteList => rcases hkind with rfl | rfl <;> cases hpattern
  | smlList => rcases hkind with rfl | rfl <;> cases hpattern
  | _ =>
      simp only [ValueVariant.leaf, Build.Leaf.pattern, Build.Primitive.pattern,
        Bool.and_eq_true, decide_eq_true_eq] at hrange
      lia

def integerVariants : List ValueVariant :=
  [.n8BitInteger, .n16BitInteger, .n32BitInteger, .n64BitInteger]

def integerValue (len : Nat) (n : Int) : ValueEnum :=
  match len with
  | 1 => .n8BitInteger n
  | 2 => .n16BitInteger n
  | 3 | 4 => .n32BitInteger n
  | _ => .n64BitInteger n

theorem integerValue_intoI128Relaxed (len : Nat) (n : Int) :
    (integerValue len n).intoI128Relaxed = .ok (n : Int) := by
  unfold integerValue
  split <;> rfl

def unsignedVariants : List ValueVariant :=
  [.n8BitUnsigned, .n16BitUnsigned, .n32BitUnsigned, .n64BitUnsigned]

def unsignedValue (len : Nat) (n : Nat) : ValueEnum :=
  match len with
  | 1 => .n8BitUnsigned n
  | 2 => .n16BitUnsigned n
  | 3 | 4 => .n32BitUnsigned n
  | _ => .n64BitUnsigned n

theorem unsignedValue_intoI128Relaxed (len : Nat) (n : Nat) :
    (unsignedValue len n).intoI128Relaxed = .ok (n : Int) := by
  unfold unsignedValue
  split <;> rfl

section

variable [Machine]

theorem act_readItem (variants : List ValueVariant) (kind : Kind) (self : Handle) :
    (readItem variants kind).act self =
      (match Build.select (arms variants) kind self.len with
        | some variant => variant.fromTlvItem kind
        | none => Reading.fail .unexpectedValue).act self := by
  unfold readItem
  rw [Reading.act_len_bind]

theorem act_readItem_some {variants : List ValueVariant} {v : ValueVariant} {kind : Kind}
    (self : Handle) (hmem : v ∈ variants)
    (hv : v.leaf.pattern.contains kind self.len = true) :
    (readItem variants kind).act self = (v.fromTlvItem kind).act self := by
  rw [act_readItem, select_arms hmem hv]

theorem act_readItem_none {variants : List ValueVariant} {kind : Kind} (self : Handle)
    (hkind : kind = .integer ∨ kind = .unsigned) (hlen : ¬ (1 ≤ self.len ∧ self.len ≤ 8)) :
    (readItem variants kind).act self = Act.fail .unexpectedValue self := by
  rw [act_readItem, select_arms_none]
  · rfl
  · intro v _
    apply Bool.eq_false_iff.mpr
    intro hcontains
    exact hlen (len_of_contains hkind hcontains)

end

end Value

end Types

/-!
## Decoding an item

A program decodes payloads of certain lengths completely; it refuses others and
leaves them unread.
-/

variable {kind : Kind} {β γ : Type} [Machine]

def Decodes (child : Reading kind β) (minsz maxsz : Nat) (error : Nat -> Error)
    (value : List UInt8 -> β) : Prop :=
  forall p rest : List UInt8,
    child.act.parse { reader := Reader.new, len := p.length } (p ++ rest) =
      some (if minsz ≤ p.length ∧ p.length ≤ maxsz then
          ((.ok (value p), { reader := Reader.new, len := 0 }), rest)
        else ((.error (error p.length), { reader := Reader.new, len := p.length }), p ++ rest))

namespace Decodes

theorem intoInteger (minsz maxsz : Nat) :
    Decodes (Reading.content (.intoInteger minsz maxsz)) minsz maxsz .unsupportedLen beInt := by
  intro p rest
  rw [Reading.act_content]
  exact parse_intoInteger minsz maxsz Reader.new p rest

theorem intoUnsigned (minsz maxsz : Nat) :
    Decodes (Reading.content (.intoUnsigned minsz maxsz)) minsz maxsz .unsupportedLen beNat := by
  intro p rest
  rw [Reading.act_content]
  exact parse_intoUnsigned minsz maxsz Reader.new p rest

theorem map {child : Reading kind β} {minsz maxsz : Nat} {error : Nat -> Error}
    {value : List UInt8 -> β} (h : Decodes child minsz maxsz error value) (f : β -> γ) :
    Decodes (f <$> child) minsz maxsz error (fun p => f (value p)) := by
  intro p rest
  rw [Reading.act_map, Act.parse_bind, h p rest]
  by_cases hlen : minsz ≤ p.length ∧ p.length ≤ maxsz
  · rw [if_pos hlen, if_pos hlen]
    rfl
  · rw [if_neg hlen, if_neg hlen]

theorem choose {prog : Reading kind β} {minsz maxsz : Nat} {error : Nat -> Error}
    {value : List UInt8 -> β}
    (hin : forall len, minsz ≤ len -> len ≤ maxsz ->
      exists (child : Reading kind β) (minsz' maxsz' : Nat) (error' : Nat -> Error)
        (value' : List UInt8 -> β),
        Decodes child minsz' maxsz' error' value' ∧ minsz' ≤ len ∧ len ≤ maxsz' ∧
          (forall p, p.length = len -> value' p = value p) ∧
          prog.act { reader := Reader.new, len := len } =
            child.act { reader := Reader.new, len := len })
    (hout : forall len, ¬ (minsz ≤ len ∧ len ≤ maxsz) ->
      prog.act { reader := Reader.new, len := len } =
        Act.fail (error len) { reader := Reader.new, len := len }) :
    Decodes prog minsz maxsz error value := by
  intro p rest
  by_cases hlen : minsz ≤ p.length ∧ p.length ≤ maxsz
  · rw [if_pos hlen]
    rcases hin p.length hlen.1 hlen.2 with
      ⟨child, minsz', maxsz', error', value', hchild, hmin, hmax, hvalue, hact⟩
    have hparse := hchild p rest
    rw [if_pos ⟨hmin, hmax⟩, hvalue p rfl] at hparse
    unfold Act.parse at hparse ⊢
    rw [hact]
    exact hparse
  · rw [if_neg hlen]
    unfold Act.parse
    rw [hout p.length hlen]
    rfl

theorem intoI32Relaxed : Decodes Reading.intoI32Relaxed 1 4 .unsupportedLen beInt := by
  unfold Reading.intoI32Relaxed
  apply choose
  · intro len hmin hmax
    rw [Reading.act_len_bind]
    interval_cases len
    · exact ⟨_, _, _, _, _, intoInteger 1 1, by decide, by decide, fun _ _ => rfl, rfl⟩
    · exact ⟨_, _, _, _, _, intoInteger 2 2, by decide, by decide, fun _ _ => rfl, rfl⟩
    · exact ⟨_, _, _, _, _, intoInteger 3 4, by decide, by decide, fun _ _ => rfl, rfl⟩
    · exact ⟨_, _, _, _, _, intoInteger 3 4, by decide, by decide, fun _ _ => rfl, rfl⟩
  · intro len hlen
    rw [Reading.act_len_bind]
    dsimp only
    split <;> first | rfl | exact absurd (by decide) hlen

theorem intoI64Relaxed : Decodes Reading.intoI64Relaxed 1 8 .unsupportedLen beInt := by
  unfold Reading.intoI64Relaxed
  apply choose
  · intro len hmin hmax
    rw [Reading.act_len_bind]
    interval_cases len
    · exact ⟨_, _, _, _, _, intoInteger 1 1, by decide, by decide, fun _ _ => rfl, rfl⟩
    · exact ⟨_, _, _, _, _, intoInteger 2 2, by decide, by decide, fun _ _ => rfl, rfl⟩
    · exact ⟨_, _, _, _, _, intoInteger 3 4, by decide, by decide, fun _ _ => rfl, rfl⟩
    · exact ⟨_, _, _, _, _, intoInteger 3 4, by decide, by decide, fun _ _ => rfl, rfl⟩
    · exact ⟨_, _, _, _, _, intoInteger 5 8, by decide, by decide, fun _ _ => rfl, rfl⟩
    · exact ⟨_, _, _, _, _, intoInteger 5 8, by decide, by decide, fun _ _ => rfl, rfl⟩
    · exact ⟨_, _, _, _, _, intoInteger 5 8, by decide, by decide, fun _ _ => rfl, rfl⟩
    · exact ⟨_, _, _, _, _, intoInteger 5 8, by decide, by decide, fun _ _ => rfl, rfl⟩
  · intro len hlen
    rw [Reading.act_len_bind]
    dsimp only
    split <;> first | rfl | exact absurd (by decide) hlen

theorem intoU32Relaxed : Decodes Reading.intoU32Relaxed 1 4 .unsupportedLen beNat := by
  unfold Reading.intoU32Relaxed
  apply choose
  · intro len hmin hmax
    rw [Reading.act_len_bind]
    interval_cases len
    · exact ⟨_, _, _, _, _, intoUnsigned 1 1, by decide, by decide, fun _ _ => rfl, rfl⟩
    · exact ⟨_, _, _, _, _, intoUnsigned 2 2, by decide, by decide, fun _ _ => rfl, rfl⟩
    · exact ⟨_, _, _, _, _, intoUnsigned 3 4, by decide, by decide, fun _ _ => rfl, rfl⟩
    · exact ⟨_, _, _, _, _, intoUnsigned 3 4, by decide, by decide, fun _ _ => rfl, rfl⟩
  · intro len hlen
    rw [Reading.act_len_bind]
    dsimp only
    split <;> first | rfl | exact absurd (by decide) hlen

theorem intoU64Relaxed : Decodes Reading.intoU64Relaxed 1 8 .unsupportedLen beNat := by
  unfold Reading.intoU64Relaxed
  apply choose
  · intro len hmin hmax
    rw [Reading.act_len_bind]
    interval_cases len
    · exact ⟨_, _, _, _, _, intoUnsigned 1 1, by decide, by decide, fun _ _ => rfl, rfl⟩
    · exact ⟨_, _, _, _, _, intoUnsigned 2 2, by decide, by decide, fun _ _ => rfl, rfl⟩
    · exact ⟨_, _, _, _, _, intoUnsigned 3 4, by decide, by decide, fun _ _ => rfl, rfl⟩
    · exact ⟨_, _, _, _, _, intoUnsigned 3 4, by decide, by decide, fun _ _ => rfl, rfl⟩
    · exact ⟨_, _, _, _, _, intoUnsigned 5 8, by decide, by decide, fun _ _ => rfl, rfl⟩
    · exact ⟨_, _, _, _, _, intoUnsigned 5 8, by decide, by decide, fun _ _ => rfl, rfl⟩
    · exact ⟨_, _, _, _, _, intoUnsigned 5 8, by decide, by decide, fun _ _ => rfl, rfl⟩
    · exact ⟨_, _, _, _, _, intoUnsigned 5 8, by decide, by decide, fun _ _ => rfl, rfl⟩
  · intro len hlen
    rw [Reading.act_len_bind]
    dsimp only
    split <;> first | rfl | exact absurd (by decide) hlen

theorem readItem_integer {variants : List Types.ValueVariant}
    (hvariants : forall v, v ∈ Types.Value.integerVariants -> v ∈ variants) :
    Decodes (Types.Value.readItem variants .integer) 1 8 (fun _ => .unexpectedValue)
      (fun p => Types.Value.integerValue p.length (beInt p)) := by
  have hsome : forall (v : Types.ValueVariant) (len : Nat), v ∈ Types.Value.integerVariants ->
      v.leaf.pattern.contains .integer len = true ->
      (Types.Value.readItem variants .integer).act { reader := Reader.new, len := len } =
        (v.fromTlvItem .integer).act { reader := Reader.new, len := len } :=
    fun v len hmem hv => Types.Value.act_readItem_some _ (hvariants v hmem) hv
  apply choose
  · intro len hmin hmax
    interval_cases len
    · exact ⟨_, _, _, _, _, (intoInteger 1 1).map .n8BitInteger, by decide, by decide,
        fun p hp => by rw [hp]; rfl, hsome .n8BitInteger 1 (by decide) rfl⟩
    · exact ⟨_, _, _, _, _, (intoInteger 2 2).map .n16BitInteger, by decide, by decide,
        fun p hp => by rw [hp]; rfl, hsome .n16BitInteger 2 (by decide) rfl⟩
    · exact ⟨_, _, _, _, _, (intoI32Relaxed).map .n32BitInteger, by decide, by decide,
        fun p hp => by rw [hp]; rfl, hsome .n32BitInteger 3 (by decide) rfl⟩
    · exact ⟨_, _, _, _, _, (intoI32Relaxed).map .n32BitInteger, by decide, by decide,
        fun p hp => by rw [hp]; rfl, hsome .n32BitInteger 4 (by decide) rfl⟩
    · exact ⟨_, _, _, _, _, (intoI64Relaxed).map .n64BitInteger, by decide, by decide,
        fun p hp => by rw [hp]; rfl, hsome .n64BitInteger 5 (by decide) rfl⟩
    · exact ⟨_, _, _, _, _, (intoI64Relaxed).map .n64BitInteger, by decide, by decide,
        fun p hp => by rw [hp]; rfl, hsome .n64BitInteger 6 (by decide) rfl⟩
    · exact ⟨_, _, _, _, _, (intoI64Relaxed).map .n64BitInteger, by decide, by decide,
        fun p hp => by rw [hp]; rfl, hsome .n64BitInteger 7 (by decide) rfl⟩
    · exact ⟨_, _, _, _, _, (intoI64Relaxed).map .n64BitInteger, by decide, by decide,
        fun p hp => by rw [hp]; rfl, hsome .n64BitInteger 8 (by decide) rfl⟩
  · intro len hlen
    exact Types.Value.act_readItem_none _ (by decide) hlen

theorem readItem_unsigned {variants : List Types.ValueVariant}
    (hvariants : forall v, v ∈ Types.Value.unsignedVariants -> v ∈ variants) :
    Decodes (Types.Value.readItem variants .unsigned) 1 8 (fun _ => .unexpectedValue)
      (fun p => Types.Value.unsignedValue p.length (beNat p)) := by
  have hsome : forall (v : Types.ValueVariant) (len : Nat), v ∈ Types.Value.unsignedVariants ->
      v.leaf.pattern.contains .unsigned len = true ->
      (Types.Value.readItem variants .unsigned).act { reader := Reader.new, len := len } =
        (v.fromTlvItem .unsigned).act { reader := Reader.new, len := len } :=
    fun v len hmem hv => Types.Value.act_readItem_some _ (hvariants v hmem) hv
  apply choose
  · intro len hmin hmax
    interval_cases len
    · exact ⟨_, _, _, _, _, (intoUnsigned 1 1).map .n8BitUnsigned, by decide, by decide,
        fun p hp => by rw [hp]; rfl, hsome .n8BitUnsigned 1 (by decide) rfl⟩
    · exact ⟨_, _, _, _, _, (intoUnsigned 2 2).map .n16BitUnsigned, by decide, by decide,
        fun p hp => by rw [hp]; rfl, hsome .n16BitUnsigned 2 (by decide) rfl⟩
    · exact ⟨_, _, _, _, _, (intoU32Relaxed).map .n32BitUnsigned, by decide, by decide,
        fun p hp => by rw [hp]; rfl, hsome .n32BitUnsigned 3 (by decide) rfl⟩
    · exact ⟨_, _, _, _, _, (intoU32Relaxed).map .n32BitUnsigned, by decide, by decide,
        fun p hp => by rw [hp]; rfl, hsome .n32BitUnsigned 4 (by decide) rfl⟩
    · exact ⟨_, _, _, _, _, (intoU64Relaxed).map .n64BitUnsigned, by decide, by decide,
        fun p hp => by rw [hp]; rfl, hsome .n64BitUnsigned 5 (by decide) rfl⟩
    · exact ⟨_, _, _, _, _, (intoU64Relaxed).map .n64BitUnsigned, by decide, by decide,
        fun p hp => by rw [hp]; rfl, hsome .n64BitUnsigned 6 (by decide) rfl⟩
    · exact ⟨_, _, _, _, _, (intoU64Relaxed).map .n64BitUnsigned, by decide, by decide,
        fun p hp => by rw [hp]; rfl, hsome .n64BitUnsigned 7 (by decide) rfl⟩
    · exact ⟨_, _, _, _, _, (intoU64Relaxed).map .n64BitUnsigned, by decide, by decide,
        fun p hp => by rw [hp]; rfl, hsome .n64BitUnsigned 8 (by decide) rfl⟩
  · intro len hlen
    exact Types.Value.act_readItem_none _ (by decide) hlen

end Decodes

/-!
## Reading an element of a list
-/

/--
On an element with payload `p` a program gives `res`, and the next
header is read from the first byte behind the payload.
-/
def ReadsAs (prog : Reading .list β) (ty : TlvType) (p : List UInt8)
    (res : Except Error β) : Prop :=
  forall (r : Reader) (used header rest : List UInt8) (m : Nat),
    r.Pending used -> used.length < Machine.fuel -> p.length < Machine.fuel ->
    decodeHeader header = some (.ok (ty, p.length), []) ->
    exists (r' : Reader) (bs : List UInt8),
      prog.act.parse { reader := r, len := m + 1 } (used ++ (header ++ (p ++ rest))) =
        some ((res, { reader := r', len := m }), bs) ∧
      Reader.readTlv.parse r' bs = Reader.readTlvInner.parse Reader.new rest

theorem Decodes.nextAny {child : (kind : Kind) -> Reading kind β} {minsz maxsz : Nat}
    {error : Nat -> Error} {value : List UInt8 -> β}
    (h : Decodes (child kind) minsz maxsz error value)
    (hkind : kind = .integer ∨ kind = .unsigned) (none : Except Error β) (p : List UInt8) :
    ReadsAs (Reading.nextAny none child) kind.ty p
      (if minsz ≤ p.length ∧ p.length ≤ maxsz then .ok (value p)
        else .error (error p.length)) := by
  intro r used header rest m hpending hused hfuel hheader
  have hstring : kind = .string -> p.length ≠ 0 := by
    rcases hkind with rfl | rfl <;> intro heq <;> cases heq
  have hlist : kind ≠ .list := by
    rcases hkind with rfl | rfl <;> decide
  have hnext := List.next_of_header m (p ++ rest) hpending hused hheader
    (Item.ofHeader_ty hstring)
  rw [Reading.act_nextAny, Act.parse_bind_ok hnext, Reading.parse_withNext_some, h p rest]
  by_cases hlen : minsz ≤ p.length ∧ p.length ≤ maxsz
  · rw [if_pos hlen, if_pos hlen]
    refine ⟨_, _, rfl, ?_⟩
    dsimp only
    rw [Handle.drop_zero kind rfl]
    exact Reader.readTlv_new rest
  · rw [if_neg hlen, if_neg hlen]
    refine ⟨_, _, rfl, ?_⟩
    dsimp only
    rw [Handle.readTlv_drop hlist (decodeHeader_lt hheader) hfuel rest]
    exact Reader.readTlv_new rest

theorem Decodes.nextVariant {child : Reading kind β} {minsz maxsz : Nat}
    {error : Nat -> Error} {value : List UInt8 -> β}
    (h : Decodes child minsz maxsz error value)
    (hkind : kind = .integer ∨ kind = .unsigned) (p : List UInt8) :
    ReadsAs (Reading.nextVariant kind child) kind.ty p
      (if minsz ≤ p.length ∧ p.length ≤ maxsz then .ok (value p)
        else .error (error p.length)) := by
  have hself : Decodes (Reading.expect kind child kind) minsz maxsz error value := by
    rw [Reading.expect_self]
    exact h
  exact hself.nextAny hkind (.error .noneTlv) p

theorem ReadsAs.bind_done {prog : Reading .list β} {ty : TlvType} {p : List UInt8}
    {res : Except Error β} (h : ReadsAs prog ty p res) (f : β -> Except Error γ) :
    ReadsAs (prog >>= fun b => ExceptT.mk (.done (f b))) ty p (res >>= f) := by
  intro r used header rest m hpending hused hfuel hheader
  rcases h r used header rest m hpending hused hfuel hheader with ⟨r', bs, hparse, hnext⟩
  refine ⟨r', bs, ?_, hnext⟩
  rw [Reading.act_bind, Act.parse_bind, hparse]
  cases res with
  | error e => rfl
  | ok b => rfl

/-!
## All paths give the same number
-/

/-- Payloads of `minsz` to `maxsz` bytes are decoded, others are refused. -/
def ReadsNumber (prog : Reading .list β) (ty : TlvType) (minsz maxsz : Nat)
    (error : Nat -> Error) (value : List UInt8 -> β) : Prop :=
  forall p : List UInt8, ReadsAs prog ty p
    (if minsz ≤ p.length ∧ p.length ≤ maxsz then .ok (value p) else .error (error p.length))

/-- The ways to read an integer; all give its value in two's complement. -/
structure IntegerPaths (variants : List Types.ValueVariant) : Prop where
  intoI8 : ReadsNumber (Reading.nextVariant .integer Reading.intoI8) .integer 1 1
    .unsupportedLen beInt
  intoI16 : ReadsNumber (Reading.nextVariant .integer Reading.intoI16) .integer 2 2
    .unsupportedLen beInt
  intoI32 : ReadsNumber (Reading.nextVariant .integer Reading.intoI32) .integer 3 4
    .unsupportedLen beInt
  intoI64 : ReadsNumber (Reading.nextVariant .integer Reading.intoI64) .integer 5 8
    .unsupportedLen beInt
  intoI32Relaxed : ReadsNumber (Reading.nextVariant .integer Reading.intoI32Relaxed) .integer
    1 4 .unsupportedLen beInt
  intoI64Relaxed : ReadsNumber (Reading.nextVariant .integer Reading.intoI64Relaxed) .integer
    1 8 .unsupportedLen beInt
  value : ReadsNumber (Types.Value.readI128 variants) .integer 1 8
    (fun _ => .unexpectedValue) beInt

/-- The ways to read an unsigned number; all give its plain value. -/
structure UnsignedPaths (variants : List Types.ValueVariant) : Prop where
  intoU8 : ReadsNumber (Reading.nextVariant .unsigned Reading.intoU8) .unsigned 1 1
    .unsupportedLen beNat
  intoU16 : ReadsNumber (Reading.nextVariant .unsigned Reading.intoU16) .unsigned 2 2
    .unsupportedLen beNat
  intoU32 : ReadsNumber (Reading.nextVariant .unsigned Reading.intoU32) .unsigned 3 4
    .unsupportedLen beNat
  intoU64 : ReadsNumber (Reading.nextVariant .unsigned Reading.intoU64) .unsigned 5 8
    .unsupportedLen beNat
  intoU32Relaxed : ReadsNumber (Reading.nextVariant .unsigned Reading.intoU32Relaxed)
    .unsigned 1 4 .unsupportedLen beNat
  intoU64Relaxed : ReadsNumber (Reading.nextVariant .unsigned Reading.intoU64Relaxed)
    .unsigned 1 8 .unsupportedLen beNat
  value : ReadsNumber (Types.Value.readI128 variants) .unsigned 1 8
    (fun _ => .unexpectedValue) (fun p => (beNat p : Int))

variable {variants : List Types.ValueVariant}

theorem readsNumber_readI128 {value : List UInt8 -> Types.ValueEnum} {number : List UInt8 -> Int}
    (hkind : kind = .integer ∨ kind = .unsigned)
    (h : Decodes (Types.Value.readItem variants kind) 1 8 (fun _ => .unexpectedValue) value)
    (hvalue : forall p, (value p).intoI128Relaxed = .ok (number p)) :
    ReadsNumber (Types.Value.readI128 variants) kind.ty 1 8 (fun _ => .unexpectedValue) number := by
  intro p
  have hread := (h.nextAny hkind (.error .unexpectedValue) p).bind_done
    Types.ValueEnum.intoI128Relaxed
  by_cases hlen : 1 ≤ p.length ∧ p.length ≤ 8
  · rw [if_pos hlen] at hread ⊢
    change ReadsAs _ _ _ (value p).intoI128Relaxed at hread
    rw [hvalue] at hread
    exact hread
  · rw [if_neg hlen] at hread ⊢
    exact hread

theorem integerPaths
    (hvariants : forall v, v ∈ Types.Value.integerVariants -> v ∈ variants) :
    IntegerPaths variants where
  intoI8 := (Decodes.intoInteger 1 1).nextVariant (Or.inl rfl)
  intoI16 := (Decodes.intoInteger 2 2).nextVariant (Or.inl rfl)
  intoI32 := (Decodes.intoInteger 3 4).nextVariant (Or.inl rfl)
  intoI64 := (Decodes.intoInteger 5 8).nextVariant (Or.inl rfl)
  intoI32Relaxed := Decodes.intoI32Relaxed.nextVariant (Or.inl rfl)
  intoI64Relaxed := Decodes.intoI64Relaxed.nextVariant (Or.inl rfl)
  value := readsNumber_readI128 (Or.inl rfl) (Decodes.readItem_integer hvariants)
    fun p => Types.Value.integerValue_intoI128Relaxed p.length (beInt p)

theorem unsignedPaths
    (hvariants : forall v, v ∈ Types.Value.unsignedVariants -> v ∈ variants) :
    UnsignedPaths variants where
  intoU8 := (Decodes.intoUnsigned 1 1).nextVariant (Or.inr rfl)
  intoU16 := (Decodes.intoUnsigned 2 2).nextVariant (Or.inr rfl)
  intoU32 := (Decodes.intoUnsigned 3 4).nextVariant (Or.inr rfl)
  intoU64 := (Decodes.intoUnsigned 5 8).nextVariant (Or.inr rfl)
  intoU32Relaxed := Decodes.intoU32Relaxed.nextVariant (Or.inr rfl)
  intoU64Relaxed := Decodes.intoU64Relaxed.nextVariant (Or.inr rfl)
  value := readsNumber_readI128 (Or.inr rfl) (Decodes.readItem_unsigned hvariants)
    fun p => Types.Value.unsignedValue_intoI128Relaxed p.length (beNat p)

theorem ReadsNumber.roundtrip {prog : Reading .list β} {ty : TlvType} {error : Nat -> Error}
    {value : List UInt8 -> β} (h : ReadsNumber prog ty 1 8 error value) {p : List UInt8}
    {n : β} (hmin : 1 ≤ p.length) (hmax : p.length ≤ 8) (hvalue : value p = n) :
    ReadsAs prog ty p (.ok n) := by
  have hread := h p
  rw [if_pos ⟨hmin, hmax⟩, hvalue] at hread
  exact hread

/--
All paths give the same number, whatever the order of the variants of
`SML_Value`, and a number that was encoded is read back.
-/
theorem numbers_agree
    (hvariants : forall v,
      v ∈ Types.Value.integerVariants ++ Types.Value.unsignedVariants -> v ∈ variants) :
    IntegerPaths variants ∧ UnsignedPaths variants ∧
      (forall (k : Nat) (n : Int), 1 ≤ k -> k ≤ 8 -> -(256 ^ k) ≤ 2 * n -> 2 * n < 256 ^ k ->
        (beIntBytes k n).length = k ∧
        ReadsAs (Reading.nextVariant .integer Reading.intoI64Relaxed) .integer
          (beIntBytes k n) (.ok n) ∧
        ReadsAs (Types.Value.readI128 variants) .integer (beIntBytes k n) (.ok n)) ∧
      forall k n : Nat, 1 ≤ k -> k ≤ 8 -> n < 256 ^ k ->
        (beBytes k n).length = k ∧
        ReadsAs (Reading.nextVariant .unsigned Reading.intoU64Relaxed) .unsigned
          (beBytes k n) (.ok n) ∧
        ReadsAs (Types.Value.readI128 variants) .unsigned (beBytes k n) (.ok (n : Int)) := by
  have hintegers : IntegerPaths variants :=
    integerPaths fun v hv => hvariants v (List.mem_append_left _ hv)
  have hunsigneds : UnsignedPaths variants :=
    unsignedPaths fun v hv => hvariants v (List.mem_append_right _ hv)
  refine ⟨hintegers, hunsigneds, ?_, ?_⟩
  · intro k n hpos hmax hlow hhigh
    have hlength : (beIntBytes k n).length = k := length_beBytes k _
    have hvalue := beInt_beIntBytes hpos hlow hhigh
    have hmin' : 1 ≤ (beIntBytes k n).length := hlength.symm ▸ hpos
    have hmax' : (beIntBytes k n).length ≤ 8 := hlength.symm ▸ hmax
    exact ⟨hlength, hintegers.intoI64Relaxed.roundtrip hmin' hmax' hvalue,
      hintegers.value.roundtrip hmin' hmax' hvalue⟩
  · intro k n hpos hmax hlt
    have hlength : (beBytes k n).length = k := length_beBytes k n
    have hvalue : beNat (beBytes k n) = n := (beNat_beBytes k n).trans (Nat.mod_eq_of_lt hlt)
    have hmin' : 1 ≤ (beBytes k n).length := hlength.symm ▸ hpos
    have hmax' : (beBytes k n).length ≤ 8 := hlength.symm ▸ hmax
    exact ⟨hlength, hunsigneds.intoU64Relaxed.roundtrip hmin' hmax' hvalue,
      hunsigneds.value.roundtrip hmin' hmax' (congrArg Nat.cast hvalue)⟩

omit [Machine] in
/-- An integer of three bytes, with the variants in another order. -/
theorem numbers_agree_negative :
    letI := Machine.word32 32 (Nat.le_refl 32)
    exists (r' : Reader) (bs : List UInt8),
      (Types.Value.readI128 (Types.Value.unsignedVariants ++
          Types.Value.integerVariants.reverse)).act.parse
        { reader := Reader.new, len := 1 } [0x54, 0xFF, 0xFF, 0xFE, 0x00] =
        some ((.ok (-2), { reader := r', len := 0 }), bs) ∧
      Reader.readTlv.parse r' bs = Reader.readTlvInner.parse Reader.new [0x00] := by
  let := Machine.word32 32 (Nat.le_refl 32)
  have hpaths := @numbers_agree _
    (Types.Value.unsignedVariants ++ Types.Value.integerVariants.reverse) (by decide)
  exact hpaths.1.value [0xFF, 0xFF, 0xFE] Reader.new [] [0x54] [0x00] 0
    (Reader.Pending.new_iff.mpr rfl) (by decide) (by decide) rfl

end Sml
end Smartmeter
