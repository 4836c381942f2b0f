import Smartmeter.Sml.Tlv.Elements

/-!
# Forests

The elements of a list as a tree structure: every element has its header, and a
list has the elements it holds.
-/

namespace Smartmeter
namespace Sml
namespace Tlv

open Foundation

/-- Elements in a row; each of them is one constructor in front of the others. -/
inductive Forest where
  | nil
  | item (header : List UInt8) (ty : TlvType) (payload : List UInt8) (rest : Forest)
  | list (header : List UInt8) (children rest : Forest)

namespace Forest

def count : Forest -> Nat
  | nil => 0
  | item _ _ _ rest => rest.count + 1
  | list _ _ rest => rest.count + 1

def bytes : Forest -> List UInt8
  | nil => []
  | item header _ payload rest => header ++ payload ++ rest.bytes
  | list header children rest => header ++ children.bytes ++ rest.bytes

def append : Forest -> Forest -> Forest
  | nil, g => g
  | item header ty payload rest, g => item header ty payload (rest.append g)
  | list header children rest, g => list header children (rest.append g)

def take : Nat -> Forest -> Forest
  | 0, _ => nil
  | _ + 1, nil => nil
  | n + 1, item header ty payload rest => item header ty payload (take n rest)
  | n + 1, list header children rest => list header children (take n rest)

def drop : Nat -> Forest -> Forest
  | 0, f => f
  | _ + 1, nil => nil
  | n + 1, item _ _ _ rest => drop n rest
  | n + 1, list _ _ rest => drop n rest

theorem count_append (f g : Forest) : (f.append g).count = f.count + g.count := by
  induction f with
  | nil => exact (Nat.zero_add _).symm
  | item header ty payload rest ih =>
      change (rest.append g).count + 1 = _
      rw [ih]
      exact Nat.add_right_comm _ _ _
  | list header children rest _ ih =>
      change (rest.append g).count + 1 = _
      rw [ih]
      exact Nat.add_right_comm _ _ _

theorem bytes_append (f g : Forest) : (f.append g).bytes = f.bytes ++ g.bytes := by
  induction f with
  | nil => rfl
  | item header ty payload rest ih =>
      change header ++ payload ++ (rest.append g).bytes = _
      rw [ih]
      exact (List.append_assoc _ _ _).symm
  | list header children rest _ ih =>
      change header ++ children.bytes ++ (rest.append g).bytes = _
      rw [ih]
      exact (List.append_assoc _ _ _).symm

theorem take_append_drop (n : Nat) (f : Forest) : (f.take n).append (f.drop n) = f := by
  induction n generalizing f with
  | zero => rfl
  | succ n ih =>
      cases f with
      | nil => rfl
      | item header ty payload rest => exact congrArg (item header ty payload) (ih rest)
      | list header children rest => exact congrArg (list header children) (ih rest)

theorem count_take {n : Nat} {f : Forest} (h : n ≤ f.count) : (f.take n).count = n := by
  induction n generalizing f with
  | zero => rfl
  | succ n ih =>
      cases f with
      | nil => exact absurd h (Nat.not_succ_le_zero n)
      | item header ty payload rest => exact congrArg Nat.succ (ih (Nat.le_of_succ_le_succ h))
      | list header children rest => exact congrArg Nat.succ (ih (Nat.le_of_succ_le_succ h))

theorem count_drop (n : Nat) (f : Forest) : (f.drop n).count = f.count - n := by
  induction n generalizing f with
  | zero => rfl
  | succ n ih =>
      cases f with
      | nil => exact (Nat.zero_sub _).symm
      | item header ty payload rest =>
          rw [show (item header ty payload rest).drop (n + 1) = rest.drop n from rfl, ih]
          exact (Nat.succ_sub_succ _ _).symm
      | list header children rest =>
          rw [show (list header children rest).drop (n + 1) = rest.drop n from rfl, ih]
          exact (Nat.succ_sub_succ _ _).symm

/-!
## Well-formed forests
-/

variable [Machine]

def WellFormed : Forest -> Prop
  | nil => True
  | item header ty payload rest =>
      decodeHeader header = some (.ok (ty, payload.length), []) ∧ ty ≠ .list ∧ rest.WellFormed
  | list header children rest =>
      decodeHeader header = some (.ok (.list, children.count), []) ∧ children.WellFormed ∧
        rest.WellFormed

theorem wellFormed_append {f g : Forest} :
    (f.append g).WellFormed <-> f.WellFormed ∧ g.WellFormed := by
  induction f with
  | nil => exact ⟨fun h => ⟨trivial, h⟩, fun h => h.2⟩
  | item header ty payload rest ih =>
      constructor
      · rintro ⟨hheader, hty, hrest⟩
        rcases ih.mp hrest with ⟨hrest, hg⟩
        exact ⟨⟨hheader, hty, hrest⟩, hg⟩
      · rintro ⟨⟨hheader, hty, hrest⟩, hg⟩
        exact ⟨hheader, hty, ih.mpr ⟨hrest, hg⟩⟩
  | list header children rest _ ih =>
      constructor
      · rintro ⟨hheader, hchildren, hrest⟩
        rcases ih.mp hrest with ⟨hrest, hg⟩
        exact ⟨⟨hheader, hchildren, hrest⟩, hg⟩
      · rintro ⟨⟨hheader, hchildren, hrest⟩, hg⟩
        exact ⟨hheader, hchildren, ih.mpr ⟨hrest, hg⟩⟩

theorem WellFormed.drop {f : Forest} (h : f.WellFormed) (n : Nat) : (f.drop n).WellFormed := by
  rw [← take_append_drop n f] at h
  exact (wellFormed_append.mp h).2

theorem WellFormed.elements_append {f : Forest} (h : f.WellFormed) {num : Nat}
    {bs : List UInt8} (hbs : Elements num bs) : Elements (f.count + num) (f.bytes ++ bs) := by
  induction f generalizing num bs with
  | nil =>
      change Elements (0 + num) bs
      rw [Nat.zero_add]
      exact hbs
  | item header ty payload rest ih =>
      rcases h with ⟨hheader, hty, hrest⟩
      change Elements (rest.count + 1 + num) (header ++ payload ++ rest.bytes ++ bs)
      rw [Nat.add_right_comm, List.append_assoc (header ++ payload)]
      exact .item hheader hty rfl (ih hrest hbs)
  | list header children rest ihchildren ih =>
      rcases h with ⟨hheader, hchildren, hrest⟩
      change Elements (rest.count + 1 + num) (header ++ children.bytes ++ rest.bytes ++ bs)
      rw [Nat.add_right_comm, List.append_assoc, List.append_assoc]
      refine .list hheader ?_
      rw [Nat.add_comm]
      exact ihchildren hchildren (ih hrest hbs)

theorem WellFormed.elements {f : Forest} (h : f.WellFormed) : Elements f.count f.bytes := by
  have helements := h.elements_append .nil
  rw [List.append_nil, Nat.add_zero] at helements
  exact helements

/-!
## Forests that the counter can skip
-/

/--
With `outer` elements behind the forest, no list in it raises the number of
outstanding elements beyond a word.
-/
def Fits (outer : Nat) : Forest -> Prop
  | nil => True
  | item _ _ _ rest => rest.Fits outer
  | list _ children rest =>
      children.count + rest.count + outer < Usize.size ∧
        children.Fits (rest.count + outer) ∧ rest.Fits outer

theorem Fits.mono {outer outer' : Nat} {f : Forest} (h : f.Fits outer)
    (hle : outer' ≤ outer) : f.Fits outer' := by
  induction f generalizing outer outer' with
  | nil => trivial
  | item header ty payload rest ih => exact @ih outer outer' h hle
  | list header children rest ihchildren ih =>
      rcases h with ⟨hcount, hchildren, hrest⟩
      exact ⟨by lia, ihchildren hchildren (Nat.add_le_add_left hle _), ih hrest hle⟩

theorem fits_append {outer : Nat} {f g : Forest} :
    (f.append g).Fits outer <-> f.Fits (g.count + outer) ∧ g.Fits outer := by
  induction f with
  | nil => exact ⟨fun h => ⟨trivial, h⟩, fun h => h.2⟩
  | item header ty payload rest ih => exact ih
  | list header children rest _ ih =>
      have hcount : (rest.append g).count + outer = rest.count + (g.count + outer) := by
        rw [count_append, Nat.add_assoc]
      constructor
      · rintro ⟨hlt, hchildren, hrest⟩
        rcases ih.mp hrest with ⟨hrest, hg⟩
        rw [Nat.add_assoc, hcount, ← Nat.add_assoc] at hlt
        rw [hcount] at hchildren
        exact ⟨⟨hlt, hchildren, hrest⟩, hg⟩
      · rintro ⟨⟨hlt, hchildren, hrest⟩, hg⟩
        refine ⟨?_, ?_, ih.mpr ⟨hrest, hg⟩⟩
        · rw [Nat.add_assoc, hcount, ← Nat.add_assoc]
          exact hlt
        · rw [hcount]
          exact hchildren

theorem not_overflows {f : Forest} (h : f.WellFormed) {outer : Nat} (hfits : f.Fits outer)
    {bs : List UInt8} (hbs : ¬ Overflows outer bs) :
    ¬ Overflows (f.count + outer) (f.bytes ++ bs) := by
  induction f generalizing outer bs with
  | nil =>
      change ¬ Overflows (0 + outer) bs
      rw [Nat.zero_add]
      exact hbs
  | item header ty payload rest ih =>
      rcases h with ⟨hheader, hty, hrest⟩
      change ¬ Overflows (rest.count + 1 + outer) (header ++ payload ++ rest.bytes ++ bs)
      rw [Nat.add_right_comm, List.append_assoc (header ++ payload)]
      intro ho
      exact ih hrest hfits hbs (ho.of_item hheader hty rfl)
  | list header children rest ihchildren ih =>
      rcases h with ⟨hheader, hchildren, hrest⟩
      rcases hfits with ⟨hlt, hfitsc, hfitsr⟩
      change ¬ Overflows (rest.count + 1 + outer) (header ++ children.bytes ++ rest.bytes ++ bs)
      rw [Nat.add_right_comm, List.append_assoc, List.append_assoc]
      intro ho
      rcases ho.of_list hheader with hbig | ho
      · lia
      · rw [Nat.add_comm] at ho
        exact ihchildren hchildren hfitsc (ih hrest hfitsr hbs) ho

theorem overflows_append {f : Forest} (h : f.WellFormed) {outer : Nat} {bs : List UInt8}
    (hbs : Overflows outer bs) : Overflows (f.count + outer) (f.bytes ++ bs) := by
  induction f generalizing outer bs with
  | nil =>
      change Overflows (0 + outer) bs
      rw [Nat.zero_add]
      exact hbs
  | item header ty payload rest ih =>
      rcases h with ⟨hheader, hty, hrest⟩
      change Overflows (rest.count + 1 + outer) (header ++ payload ++ rest.bytes ++ bs)
      rw [Nat.add_right_comm, List.append_assoc (header ++ payload)]
      exact .item hheader hty rfl (ih hrest hbs)
  | list header children rest ihchildren ih =>
      rcases h with ⟨hheader, hchildren, hrest⟩
      change Overflows (rest.count + 1 + outer) (header ++ children.bytes ++ rest.bytes ++ bs)
      rw [Nat.add_right_comm, List.append_assoc, List.append_assoc]
      refine .list hheader ?_
      rw [Nat.add_comm]
      exact ihchildren hchildren (ih hrest hbs)

theorem overflows_of_not_fits {f : Forest} (h : f.WellFormed) {outer : Nat}
    (hfits : ¬ f.Fits outer) (bs : List UInt8) :
    Overflows (f.count + outer) (f.bytes ++ bs) := by
  induction f generalizing outer bs with
  | nil => exact absurd trivial hfits
  | item header ty payload rest ih =>
      rcases h with ⟨hheader, hty, hrest⟩
      change Overflows (rest.count + 1 + outer) (header ++ payload ++ rest.bytes ++ bs)
      rw [Nat.add_right_comm, List.append_assoc (header ++ payload)]
      exact .item hheader hty rfl (ih hrest hfits bs)
  | list header children rest ihchildren ih =>
      rcases h with ⟨hheader, hchildren, hrest⟩
      change Overflows (rest.count + 1 + outer) (header ++ children.bytes ++ rest.bytes ++ bs)
      rw [Nat.add_right_comm, List.append_assoc, List.append_assoc]
      by_cases hlt : children.count + rest.count + outer < Usize.size
      · refine .list hheader ?_
        rw [Nat.add_comm]
        by_cases hfitsc : children.Fits (rest.count + outer)
        · have hfitsr : ¬ rest.Fits outer := fun hr => hfits ⟨hlt, hfitsc, hr⟩
          exact overflows_append hchildren (ih hrest hfitsr bs)
        · exact ihchildren hchildren hfitsc _
      · exact .here hheader (by lia)

theorem skips_iff {f : Forest} (h : f.WellFormed) : Skips f.count f.bytes <-> f.Fits 0 := by
  constructor
  · intro hskips
    apply Classical.byContradiction
    intro hfits
    have hstop : forall x rest, decodeHeader [] ≠ some (.ok x, rest) := by
      intro x rest hx
      cases hx
    have hlow := (hskips.elements_unique hstop h.elements (Nat.le_refl _) rfl).2
    have hoverflows := overflows_of_not_fits h hfits []
    rw [List.append_nil] at hoverflows
    exact hlow hoverflows
  · intro hfits
    have hlow := @not_overflows _ f h 0 hfits [] (fun ho => by cases ho)
    rw [List.append_nil] at hlow
    exact h.elements.skips hlow

end Forest

end Tlv
end Sml
end Smartmeter
