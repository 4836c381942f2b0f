import Smartmeter.Sml.Tlv.Walk

/-!
# Lazy skipping

A list can be read in any way; when it is dropped, the next header is read from
the first byte behind it.  This holds as long as the counter of the elements to
be skipped does not wrap.
-/

namespace Smartmeter
namespace Sml
namespace Tlv

open Foundation

def Forest.Known : Forest -> Prop
  | .nil => True
  | .item _ ty _ rest => (forall raw : UInt8, ty ≠ .other raw) ∧ rest.Known
  | .list _ children rest => children.Known ∧ rest.Known

theorem Forest.Known.drop {f : Forest} (h : f.Known) (n : Nat) : (f.drop n).Known := by
  induction n generalizing f with
  | zero => exact h
  | succ n ih =>
      cases f with
      | nil => trivial
      | item header ty payload rest => exact ih h.2
      | list header children rest => exact ih h.2

theorem Item.ofHeader_known {ty : TlvType} (h : forall raw : UInt8, ty ≠ .other raw)
    (size : Nat) : exists item : Item, Item.ofHeader (ty, size) = .ok item := by
  cases hitem : Item.ofHeader (ty, size) with
  | ok item => exact ⟨item, rfl⟩
  | error e =>
      rcases Item.ofHeader_error hitem with ⟨raw, hty, _⟩
      exact absurd hty (h raw)

namespace Read

def Total : {kind : Kind} -> {α : Type} -> Read kind α -> Prop
  | _, _, .done _ => True
  | _, _, .stuck => False
  | _, _, .len k => forall n, (k n).Total
  | _, _, .content _ k => forall r, (k r).Total
  | _, _, .next child k => (forall kind, (child kind).Total) ∧ forall r, (k r).Total
  | _, _, .skip _ k => forall r, (k r).Total
  | _, _, .nextEnd k => forall r, (k r).Total

def KnownLeft : (kind : Kind) -> Left kind -> Prop
  | .list, (f : Forest) => f.Known
  | _, _ => True

theorem Total.walk {kind : Kind} {α : Type} {prog : Read kind α} (h : prog.Total)
    {left : Left kind} (hleft : KnownLeft kind left) :
    exists x, prog.walk left = some x ∧ KnownLeft kind x.2 := by
  induction prog with
  | done a => exact ⟨_, rfl, hleft⟩
  | stuck => exact absurd h id
  | len k ih => exact ih _ (h _) hleft
  | content c k ih =>
      refine ih _ (h _) ?_
      cases c <;> trivial
  | skip num k ih =>
      unfold Read.walk
      split
      · exact ih _ (h _) hleft
      · exact ih _ (h _) (Forest.Known.drop hleft num)
  | nextEnd k ih =>
      cases left with
      | nil => exact ih _ (h _) hleft
      | list header children rest => exact ih _ (h _) hleft.2
      | item header ty payload rest =>
          rcases Item.ofHeader_known hleft.1 payload.length with ⟨item, hitem⟩
          simp only [Read.walk]
          rw [hitem]
          exact ih _ (h _) hleft.2
  | next child k ihchild ih =>
      cases left with
      | nil => exact ih _ (h.2 _) hleft
      | list header children rest =>
          rcases ihchild .list (h.1 .list) hleft.1 with ⟨x, hx, _⟩
          simp only [Read.walk, hx, Option.bind_some]
          exact ih _ (h.2 _) hleft.2
      | item header ty payload rest =>
          rcases Item.ofHeader_known hleft.1 payload.length with ⟨item, hitem⟩
          simp only [Read.walk]
          rw [hitem]
          cases item with
          | none => exact ih _ (h.2 _) hleft.2
          | some kind size =>
              have hpayload : KnownLeft kind (Left.ofPayload kind payload) := by
                cases kind <;> trivial
              rcases ihchild kind (h.1 kind) hpayload with ⟨x, hx, _⟩
              dsimp only
              rw [hx]
              exact ih _ (h.2 _) hleft.2

end Read

variable [Machine]

/-!
## The list of a tree
-/

/--
Whatever is read of a list, the items are the elements at the positions reached,
its length is the number of those that are left, and when it is dropped the
reader skips to the first byte behind it.
-/
def ReadsLazily (header : List UInt8) (children : Forest) : Prop :=
  forall {α : Type} (prog : Read .list α) (rest : List UInt8), prog.Total ->
    Reader.readList.parse Reader.new (header ++ (children.bytes ++ rest)) =
        some ((.ok children.count, Reader.new), children.bytes ++ rest) ∧
      exists (x : α × Forest) (self : Handle) (bs : List UInt8),
        prog.walk children = some x ∧
        (prog.run { reader := Reader.new, len := children.count }).parse
          (children.bytes ++ rest) = some ((x.1, self), bs) ∧
        self.len = x.2.count ∧
        Reader.skipNow.parse (self.drop .list) bs = some ((.ok (), Reader.new), rest)

theorem readsLazily_of_fits {header : List UInt8} {children : Forest}
    (hheader : decodeHeader header = some (.ok (.list, children.count), []))
    (hwf : children.WellFormed) (hknown : children.Known) (hfits : children.Fits 0)
    (hfuel : children.bytes.length < Machine.fuel) : ReadsLazily header children := by
  intro α prog rest htotal
  have hread := Reader.readList_of_header (children.bytes ++ rest)
    (Reader.Pending.new_iff.mpr rfl) (Nat.lt_of_lt_of_le (by decide) Machine.fuel_ge) hheader
  rcases htotal.walk hknown with ⟨x, hwalk, _⟩
  have hstart : Stands children 0 rest { reader := Reader.new, len := children.count }
      (children.bytes ++ rest) := .start rest hwf hfits (decodeHeader_lt hheader)
  have hlimit : (children.bytes ++ rest).length < rest.length + Machine.fuel := by
    rw [List.length_append]
    lia
  rcases prog.run_walk hstart (Nat.le_refl _) hlimit hwalk with ⟨self, bs, hrun, hat, hle⟩
  change Stands x.2 0 rest self bs at hat
  have hdrop : Stands Forest.nil 0 rest { reader := self.drop .list, len := 0 } bs := by
    have hat' : Stands x.2 (Forest.nil.count + 0) (Forest.nil.bytes ++ rest) self bs := hat
    exact hat'.drop trivial trivial
  refine ⟨hread, x, self, bs, hwalk, hrun, hat.len, ?_⟩
  exact hdrop.skipNow (Nat.lt_of_le_of_lt hle hlimit)

theorem fits_of_readsLazily {header : List UInt8} {children : Forest}
    (hheader : decodeHeader header = some (.ok (.list, children.count), []))
    (hwf : children.WellFormed) (h : ReadsLazily header children) : children.Fits 0 := by
  rcases h (.done ()) [] trivial with ⟨_, x, self, bs, _, hrun, _, hskip⟩
  cases hrun
  rcases Reader.skipNow_ok hskip with ⟨_, used, hused, hpending⟩
  have hlt := decodeHeader_lt hheader
  have hdrop : (Handle.drop .list { reader := Reader.new, len := children.count }) =
      { remainingBytes := 0, remainingTlvs := children.count } := by
    rw [Handle.drop_list]
    change Reader.mk 0 (Usize.wrappingAdd 0 children.count) = _
    rw [Usize.wrappingAdd_eq (by rw [Nat.zero_add]; exact hlt), Nat.zero_add]
  rw [hdrop] at hpending
  rcases hpending with ⟨junk, tlvs, htlvs, hjunk, hskips⟩
  have hnil : junk = [] := List.length_eq_zero_iff.mp hjunk
  rw [hnil, List.nil_append] at htlvs
  rw [List.append_nil, List.append_nil, htlvs] at hused
  dsimp only at hskips
  rw [← hused] at hskips
  exact (Forest.skips_iff hwf).mp hskips

/--
A list can be read lazily exactly if no list in it raises the number of
outstanding elements beyond a word.
-/
theorem readsLazily_iff {header : List UInt8} {children : Forest}
    (hheader : decodeHeader header = some (.ok (.list, children.count), []))
    (hwf : children.WellFormed) (hknown : children.Known)
    (hfuel : children.bytes.length < Machine.fuel) :
    ReadsLazily header children <-> children.Fits 0 :=
  ⟨fits_of_readsLazily hheader hwf, fun hfits =>
    readsLazily_of_fits hheader hwf hknown hfits hfuel⟩

omit [Machine] in
/-- A list of two numbers. -/
theorem readsLazily_numbers :
    letI := Machine.word32 32 (Nat.le_refl 32)
    ReadsLazily [0x72] (.item [0x52] .integer [0x05] (.item [0x63] .unsigned [0x01, 0x02] .nil)) :=
  (@readsLazily_iff (.word32 32 (Nat.le_refl 32)) [0x72]
    (.item [0x52] .integer [0x05] (.item [0x63] .unsigned [0x01, 0x02] .nil)) rfl
    ⟨rfl, by decide, rfl, by decide, trivial⟩
    ⟨fun _ => TlvType.noConfusion, fun _ => TlvType.noConfusion, trivial⟩ (by decide)).mpr trivial

/-!
## A list that is too long
-/

def emptyIntegers : Nat -> Forest -> Forest
  | 0, rest => rest
  | n + 1, rest => .item [0x51] .integer [] (emptyIntegers n rest)

omit [Machine] in
theorem count_emptyIntegers (n : Nat) (rest : Forest) :
    (emptyIntegers n rest).count = n + rest.count := by
  induction n with
  | zero => exact (Nat.zero_add _).symm
  | succ n ih =>
      change (emptyIntegers n rest).count + 1 = _
      rw [ih]
      exact Nat.add_right_comm _ _ _

omit [Machine] in
theorem length_emptyIntegers (n : Nat) (rest : Forest) :
    (emptyIntegers n rest).bytes.length = n + rest.bytes.length := by
  induction n with
  | zero => exact (Nat.zero_add _).symm
  | succ n ih =>
      change (emptyIntegers n rest).bytes.length + 1 = _
      rw [ih]
      exact Nat.add_right_comm _ _ _

omit [Machine] in
theorem known_emptyIntegers (n : Nat) {rest : Forest} (h : rest.Known) :
    (emptyIntegers n rest).Known := by
  induction n with
  | zero => exact h
  | succ n ih => exact ⟨fun _ => TlvType.noConfusion, ih⟩

theorem wellFormed_emptyIntegers
    (hheader : decodeHeader [0x51] = some (.ok (.integer, 0), [])) (n : Nat) {rest : Forest}
    (h : rest.WellFormed) : (emptyIntegers n rest).WellFormed := by
  induction n with
  | zero => exact h
  | succ n ih => exact ⟨hheader, by decide, ih⟩

def nestedList (header : List UInt8) (n m : Nat) : Forest :=
  .list header (emptyIntegers n .nil) (emptyIntegers m .nil)

omit [Machine] in
theorem count_nestedList (header : List UInt8) (n m : Nat) :
    (nestedList header n m).count = m + 1 :=
  congrArg Nat.succ (count_emptyIntegers m .nil)

omit [Machine] in
theorem length_nestedList (header : List UInt8) (n m : Nat) :
    (nestedList header n m).bytes.length = header.length + (n + m) := by
  unfold nestedList Forest.bytes
  rw [List.length_append, List.length_append, length_emptyIntegers, length_emptyIntegers]
  exact Nat.add_assoc _ _ _

omit [Machine] in
theorem known_nestedList (header : List UInt8) (n m : Nat) : (nestedList header n m).Known :=
  ⟨known_emptyIntegers n trivial, known_emptyIntegers m trivial⟩

theorem wellFormed_nestedList {header : List UInt8} {n : Nat}
    (hheader : decodeHeader header = some (.ok (.list, n), []))
    (hempty : decodeHeader [0x51] = some (.ok (.integer, 0), [])) (m : Nat) :
    (nestedList header n m).WellFormed := by
  refine ⟨?_, wellFormed_emptyIntegers hempty n trivial, wellFormed_emptyIntegers hempty m trivial⟩
  rw [count_emptyIntegers]
  exact hheader

theorem not_fits_nestedList (header : List UInt8) {outer n m : Nat}
    (hbig : Usize.size ≤ n + m + outer) : ¬ (nestedList header n m).Fits outer := by
  intro hfits
  have hlt := hfits.1
  rw [count_emptyIntegers, count_emptyIntegers] at hlt
  change n + 0 + (m + 0) + outer < Usize.size at hlt
  lia

theorem not_readsLazily_nestedList {root header : List UInt8} {n m : Nat}
    (hroot : decodeHeader root = some (.ok (.list, m + 1), []))
    (hheader : decodeHeader header = some (.ok (.list, n), []))
    (hempty : decodeHeader [0x51] = some (.ok (.integer, 0), []))
    (hfuel : header.length + (n + m) < Machine.fuel) (hbig : Usize.size ≤ n + m) :
    decodeHeader root = some (.ok (.list, (nestedList header n m).count), []) ∧
      (nestedList header n m).WellFormed ∧ (nestedList header n m).Known ∧
      (nestedList header n m).bytes.length < Machine.fuel ∧
      ¬ ReadsLazily root (nestedList header n m) := by
  have hwf := wellFormed_nestedList hheader hempty m
  rw [← count_nestedList header n m] at hroot
  rw [← length_nestedList] at hfuel
  refine ⟨hroot, hwf, known_nestedList header n m, hfuel, ?_⟩
  intro h
  exact not_fits_nestedList header hbig (fits_of_readsLazily hroot hwf h)

theorem decodeHeader_eq {first : UInt8} {more : List UInt8}
    (hheader : WellFormedHeader first more) (hsize : headerLength first more < Usize.size)
    (hfuel : more.length < Machine.fuel) {x : Except Error (TlvType × Nat)}
    (hend : Reader.headerEnd (TlvHeader.mk first).ty (TlvHeader.mk (more.getLast?.getD first))
      (headerLength first more) (first :: more).length = x) :
    decodeHeader (first :: more) = some (x, []) := by
  have hdecode := decodeHeader_wellFormed hheader hsize hfuel []
  rw [List.append_nil, hend] at hdecode
  exact hdecode

omit [Machine] in
theorem decodeHeader_longest :
    letI := Machine.word32 (2 ^ 33) (by decide)
    decodeHeader [0xFF, 0x8F, 0x8F, 0x8F, 0x8F, 0x8F, 0x8F, 0x0F] =
      some (.ok (.list, 2 ^ 32 - 9), []) := by
  let := Machine.word32 (2 ^ 33) (by decide)
  have hfuel : 7 < Machine.fuel := by decide
  exact @decodeHeader_eq _ 0xFF [0x8F, 0x8F, 0x8F, 0x8F, 0x8F, 0x8F, 0x0F]
    ⟨by simp, by simp, by simp⟩ (by decide) hfuel _ rfl

omit [Machine] in
/-- On words of 32 bits, a list of `2 ^ 32 - 9` elements with fourteen others behind it. -/
theorem readsLazily_wraps :
    letI := Machine.word32 (2 ^ 33) (by decide)
    letI tree := nestedList [0xFF, 0x8F, 0x8F, 0x8F, 0x8F, 0x8F, 0x8F, 0x0F] (2 ^ 32 - 9) 14
    decodeHeader [0x7F] = some (.ok (.list, tree.count), []) ∧ tree.WellFormed ∧
      tree.Known ∧ tree.bytes.length < Machine.fuel ∧ ¬ ReadsLazily [0x7F] tree := by
  let := Machine.word32 (2 ^ 33) (by decide)
  apply not_readsLazily_nestedList
  · exact decodeHeader_single (by decide)
  · exact decodeHeader_longest
  · exact decodeHeader_single (by decide)
  · decide
  · decide

end Tlv
end Sml
end Smartmeter
