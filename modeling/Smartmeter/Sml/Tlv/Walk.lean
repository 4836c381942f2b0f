import Smartmeter.Sml.Tlv.Forest

/-!
# Walking a forest

What a read program should do is told by the elements it is for: taking an item
from a list takes the first element that is left, whatever was read of the items
before it.  The reader with its two counters does the same on the bytes.
-/

namespace Smartmeter
namespace Sml
namespace Tlv

open Foundation

/-- What is left of an item: the elements of a list, the bytes of anything else. -/
def Left : Kind -> Type
  | .list => Forest
  | _ => List UInt8

def readWhole {β : Type} (accepted : Bool) (e : Error) (value : β) (p : List UInt8) :
    Except Error β × List UInt8 :=
  if accepted then (.ok value, []) else (.error e, p)

def Content.walk : {kind : Kind} -> {β : Type} -> Content kind β -> Left kind ->
    Except Error β × Left kind
  | _, _, .read buf, (p : List UInt8) =>
      readWhole (buf = p.length) .wrongBufferSize p p
  | _, _, .intoBool, (p : List UInt8) =>
      readWhole (p.length = 1) (.unsupportedLen p.length) (p.headD 0 ≠ 0) p
  | _, _, .intoInteger minsz maxsz, (p : List UInt8) =>
      readWhole (minsz ≤ p.length ∧ p.length ≤ maxsz) (.unsupportedLen p.length) (beInt p) p
  | _, _, .intoUnsigned minsz maxsz, (p : List UInt8) =>
      readWhole (minsz ≤ p.length ∧ p.length ≤ maxsz) (.unsupportedLen p.length) (beNat p) p

namespace Left

def len : {kind : Kind} -> Left kind -> Nat
  | .list, (f : Forest) => f.count
  | .string, (p : List UInt8) => p.length
  | .boolean, (p : List UInt8) => p.length
  | .integer, (p : List UInt8) => p.length
  | .unsigned, (p : List UInt8) => p.length

def ofPayload : (kind : Kind) -> List UInt8 -> Left kind
  | .list, _ => Forest.nil
  | .string, p => p
  | .boolean, p => p
  | .integer, p => p
  | .unsigned, p => p

end Left

namespace Read

/--
What a program gives on the elements.  There is no result where the bytes behind
a header cannot be skipped: where an element has a reserved type and a payload.
-/
def walk : {kind : Kind} -> {α : Type} -> Read kind α -> Left kind -> Option (α × Left kind)
  | _, _, .done a, left => some (a, left)
  | _, _, .stuck, _ => none
  | _, _, .len k, left => (k left.len).walk left
  | _, _, .content c k, left => (k (c.walk left).1).walk (c.walk left).2
  | _, _, .skip num k, (f : Forest) =>
      if num > f.count then (k (.error .endOfList)).walk f else (k (.ok ())).walk (f.drop num)
  | _, _, .nextEnd k, (f : Forest) =>
      match f with
      | .nil => (k (.error .unexpectedValue)).walk Forest.nil
      | .list _ _ rest => (k (.error .unexpectedValue)).walk rest
      | .item _ ty payload rest =>
          match Item.ofHeader (ty, payload.length) with
          | .error e => if payload = [] then (k (.error e)).walk rest else none
          | .ok _ => (k (.error .unexpectedValue)).walk rest
  | _, _, .next child k, (f : Forest) =>
      match f with
      | .nil => (k .endOfList).walk Forest.nil
      | .list _ children rest =>
          ((child .list).walk children).bind fun x => (k (.some x.1)).walk rest
      | .item _ ty payload rest =>
          match Item.ofHeader (ty, payload.length) with
          | .error e => if payload = [] then (k (.error e)).walk rest else none
          | .ok .none => (k .none).walk rest
          | .ok (.some kind _) =>
              ((child kind).walk (Left.ofPayload kind payload)).bind fun x =>
                (k (.some x.1)).walk rest

theorem walk_bind {kind : Kind} {α β : Type} (p : Read kind α) (f : α -> Read kind β)
    (left : Left kind) :
    (p >>= f).walk left = (p.walk left).bind fun x => (f x.1).walk x.2 := by
  change (p.bind f).walk left = _
  induction p with
  | done a => rfl
  | stuck => rfl
  | len k ih => exact ih left.len f left
  | content c k ih => exact ih (c.walk left).1 f (c.walk left).2
  | skip num k ih =>
      simp only [Read.bind, walk]
      split
      · exact ih _ f left
      · exact ih _ f _
  | nextEnd k ih =>
      cases left with
      | nil => exact ih _ f Forest.nil
      | list header children rest => exact ih _ f rest
      | item header ty payload rest =>
          simp only [Read.bind, walk]
          cases Item.ofHeader (ty, payload.length) with
          | error e =>
              dsimp only
              split
              · exact ih _ f rest
              · rfl
          | ok item => exact ih _ f rest
  | next child k _ ih =>
      cases left with
      | nil => exact ih _ f Forest.nil
      | list header children rest =>
          simp only [Read.bind, walk]
          cases (child .list).walk children with
          | none => rfl
          | some x => exact ih _ f rest
      | item header ty payload rest =>
          simp only [Read.bind, walk]
          cases Item.ofHeader (ty, payload.length) with
          | error e =>
              dsimp only
              split
              · exact ih _ f rest
              · rfl
          | ok item =>
              cases item with
              | none => exact ih _ f rest
              | some kind size =>
                  dsimp only
                  cases (child kind).walk (Left.ofPayload kind payload) with
                  | none => rfl
                  | some x => exact ih _ f rest

end Read

/-!
## The position of the reader

The reader stands behind what was read; the bytes in front of it are those to be
skipped, then those of the elements that are left, then those behind the item.
-/

variable [Machine]

structure Stands (f : Forest) (outer : Nat) (rest : List UInt8) (handle : Handle)
    (bs : List UInt8) : Prop where
  len : handle.len = f.count
  wellFormed : f.WellFormed
  fits : f.Fits outer
  pending : exists (junk : List UInt8) (skipped : Forest),
    bs = junk ++ (skipped.bytes ++ (f.bytes ++ rest)) ∧
      junk.length = handle.reader.remainingBytes ∧
      skipped.count = handle.reader.remainingTlvs ∧ skipped.WellFormed ∧
      skipped.Fits (f.count + outer) ∧ skipped.count + (f.count + outer) < Usize.size

def At : (kind : Kind) -> Left kind -> Nat -> List UInt8 -> Handle -> List UInt8 -> Prop
  | .list, (f : Forest), outer, rest, self, bs => Stands f outer rest self bs
  | .string, (p : List UInt8), _, rest, self, bs =>
      self = { reader := Reader.new, len := p.length } ∧ bs = p ++ rest ∧ p.length < Usize.size
  | .boolean, (p : List UInt8), _, rest, self, bs =>
      self = { reader := Reader.new, len := p.length } ∧ bs = p ++ rest ∧ p.length < Usize.size
  | .integer, (p : List UInt8), _, rest, self, bs =>
      self = { reader := Reader.new, len := p.length } ∧ bs = p ++ rest ∧ p.length < Usize.size
  | .unsigned, (p : List UInt8), _, rest, self, bs =>
      self = { reader := Reader.new, len := p.length } ∧ bs = p ++ rest ∧ p.length < Usize.size

namespace Stands

variable {f : Forest} {outer : Nat} {rest bs : List UInt8} {self : Handle}

theorem pendingBytes (h : Stands f outer rest self bs) :
    exists used : List UInt8, bs = used ++ (f.bytes ++ rest) ∧ self.reader.Pending used := by
  rcases h.pending with ⟨junk, skipped, hbs, hjunk, hcount, hskipped, hfits, _⟩
  refine ⟨junk ++ skipped.bytes, ?_, junk, skipped.bytes, rfl, hjunk, ?_⟩
  · rw [hbs, List.append_assoc]
  · rw [← hcount]
    exact (Forest.skips_iff hskipped).mpr (hfits.mono (Nat.zero_le _))

theorem skipNow (h : Stands f outer rest self bs)
    (hfuel : bs.length < (f.bytes ++ rest).length + Machine.fuel) :
    Reader.skipNow.parse self.reader bs = some ((.ok (), Reader.new), f.bytes ++ rest) := by
  rcases h.pendingBytes with ⟨used, hbs, hpending⟩
  rw [hbs, List.length_append] at hfuel
  rw [hbs]
  exact Reader.skipNow_of_pending _ hpending (by lia)

theorem length_le (h : Stands f outer rest self bs) :
    (f.bytes ++ rest).length ≤ bs.length := by
  rcases h.pendingBytes with ⟨used, hbs, _⟩
  have hlength := congrArg List.length hbs
  rw [List.length_append] at hlength
  lia

theorem count_lt (h : Stands f outer rest self bs) : f.count + outer < Usize.size := by
  rcases h.pending with ⟨_, _, _, _, _, _, _, hlt⟩
  exact Nat.lt_of_le_of_lt (Nat.le_add_left _ _) hlt

theorem start {f : Forest} {outer : Nat} (rest : List UInt8) (hwf : f.WellFormed)
    (hfits : f.Fits outer) (hlt : f.count + outer < Usize.size) :
    Stands f outer rest { reader := Reader.new, len := f.count } (f.bytes ++ rest) where
  len := rfl
  wellFormed := hwf
  fits := hfits
  pending := ⟨[], .nil, rfl, rfl, rfl, trivial, trivial, by
    change 0 + (f.count + outer) < Usize.size
    rw [Nat.zero_add]
    exact hlt⟩

theorem drop {g : Forest} (h : Stands f (g.count + outer) (g.bytes ++ rest) self bs)
    (hg : g.WellFormed) (hgfits : g.Fits outer) :
    Stands g outer rest { reader := self.drop .list, len := g.count } bs := by
  rcases h.pending with ⟨junk, skipped, hbs, hjunk, hcount, hskipped, hfits, hlt⟩
  refine ⟨rfl, hg, hgfits, junk, skipped.append f, ?_, hjunk, ?_, ?_, ?_, ?_⟩
  · rw [hbs, Forest.bytes_append, List.append_assoc]
  · change _ = Usize.wrappingAdd self.reader.remainingTlvs self.len
    rw [Forest.count_append, h.len, ← hcount, Usize.wrappingAdd_eq (by lia)]
  · exact Forest.wellFormed_append.mpr ⟨hskipped, h.wellFormed⟩
  · exact Forest.fits_append.mpr ⟨hfits, h.fits⟩
  · rw [Forest.count_append]
    lia

theorem skip (h : Stands f outer rest self bs) {num : Nat} (hnum : num ≤ self.len) :
    Stands (f.drop num) outer rest
      { reader := { self.reader with
          remainingTlvs := Usize.wrappingAdd self.reader.remainingTlvs num }
        len := self.len - num } bs := by
  rcases h.pending with ⟨junk, skipped, hbs, hjunk, hcount, hskipped, hfits, hlt⟩
  rw [h.len] at hnum ⊢
  have hsplit := Forest.take_append_drop num f
  have htake := Forest.count_take hnum
  have hdrop := Forest.count_drop num f
  have hwf : (f.take num).WellFormed ∧ (f.drop num).WellFormed := by
    rw [← Forest.wellFormed_append, hsplit]
    exact h.wellFormed
  have hffits : (f.take num).Fits ((f.drop num).count + outer) ∧ (f.drop num).Fits outer := by
    rw [← Forest.fits_append, hsplit]
    exact h.fits
  refine ⟨hdrop.symm, hwf.2, hffits.2, junk, skipped.append (f.take num), ?_, hjunk, ?_, ?_, ?_,
    ?_⟩
  · rw [hbs, Forest.bytes_append, List.append_assoc skipped.bytes,
      ← List.append_assoc (f.take num).bytes, ← Forest.bytes_append, hsplit]
  · change _ = Usize.wrappingAdd self.reader.remainingTlvs num
    rw [Forest.count_append, htake, ← hcount, Usize.wrappingAdd_eq (by lia)]
  · exact Forest.wellFormed_append.mpr ⟨hskipped, hwf.1⟩
  · refine Forest.fits_append.mpr ⟨?_, hffits.1⟩
    rw [htake, hdrop, ← Nat.add_assoc, Nat.add_sub_cancel' hnum]
    exact hfits
  · rw [Forest.count_append, htake, hdrop]
    lia

theorem next {g : Forest} {header tail : List UInt8} {x : TlvType × Nat}
    (h : Stands f outer rest self bs) (hcount : f.count = g.count + 1)
    (hbytes : f.bytes = header ++ tail) (hheader : decodeHeader header = some (.ok x, []))
    (hfuel : bs.length < (f.bytes ++ rest).length + Machine.fuel) :
    List.next.parse self bs =
      some (((Item.ofHeader x).map some, { reader := Reader.new, len := g.count }),
        tail ++ rest) := by
  rcases h.pendingBytes with ⟨used, hbs, hpending⟩
  rcases self with ⟨r, len⟩
  have hlen : len = g.count + 1 := h.len.trans hcount
  rw [hbs, List.length_append] at hfuel
  rw [hlen, hbs, hbytes, List.append_assoc, List.parse_next_succ,
    Reader.readTlv_of_header _ hpending (by lia) hheader]

end Stands

namespace At

variable {kind : Kind} {outer : Nat} {rest bs : List UInt8} {self : Handle}

theorem start (hkind : kind ≠ .list) (outer : Nat) {payload : List UInt8} (rest : List UInt8)
    (hsize : payload.length < Usize.size) :
    At kind (Left.ofPayload kind payload) outer rest
      { reader := Reader.new, len := payload.length } (payload ++ rest) := by
  cases kind with
  | list => exact absurd rfl hkind
  | _ => exact ⟨rfl, rfl, hsize⟩

theorem len {left : Left kind} (h : At kind left outer rest self bs) : self.len = left.len := by
  cases kind with
  | list => exact Stands.len h
  | _ =>
      rcases h with ⟨rfl, _⟩
      rfl

theorem drop {left : Left kind} {g : Forest}
    (h : At kind left (g.count + outer) (g.bytes ++ rest) self bs) (hg : g.WellFormed)
    (hgfits : g.Fits outer) (hlt : g.count + outer < Usize.size) :
    Stands g outer rest { reader := self.drop kind, len := g.count } bs := by
  have hbytes : forall p : List UInt8, kind ≠ .list ->
      self = { reader := Reader.new, len := p.length } -> bs = p ++ (g.bytes ++ rest) ->
      p.length < Usize.size ->
      Stands g outer rest { reader := self.drop kind, len := g.count } bs := by
    intro p hkind hself hbs hsize
    have hdrop : self.drop kind = { remainingBytes := p.length, remainingTlvs := 0 } := by
      rw [hself, Handle.drop_bytes hkind hsize]
    refine ⟨rfl, hg, hgfits, p, .nil, hbs, ?_, ?_, trivial, trivial, ?_⟩
    · rw [hdrop]
    · rw [hdrop]
      rfl
    · change 0 + (g.count + outer) < Usize.size
      rw [Nat.zero_add]
      exact hlt
  cases kind with
  | list => exact Stands.drop h hg hgfits
  | string => exact hbytes left (by decide) h.1 h.2.1 h.2.2
  | boolean => exact hbytes left (by decide) h.1 h.2.1 h.2.2
  | integer => exact hbytes left (by decide) h.1 h.2.1 h.2.2
  | unsigned => exact hbytes left (by decide) h.1 h.2.1 h.2.2

theorem content_of_parse {β : Type} {m : Act Ops Error Handle β} {p rest : List UInt8}
    {accepted : Bool} {e : Error} {value : β} (hsize : p.length < Usize.size)
    (htrue : accepted = true -> m.parse { reader := Reader.new, len := p.length } (p ++ rest) =
      some ((.ok value, { reader := Reader.new, len := 0 }), rest))
    (hfalse : accepted = false ->
      m.parse { reader := Reader.new, len := p.length } (p ++ rest) =
        some ((.error e, { reader := Reader.new, len := p.length }), p ++ rest)) :
    exists (self' : Handle) (bs' : List UInt8),
      m.parse { reader := Reader.new, len := p.length } (p ++ rest) =
        some (((readWhole accepted e value p).1, self'), bs') ∧
      (self' = { reader := Reader.new, len := (readWhole accepted e value p).2.length } ∧
        bs' = (readWhole accepted e value p).2 ++ rest ∧
        (readWhole accepted e value p).2.length < Usize.size) ∧
      bs'.length ≤ (p ++ rest).length := by
  cases accepted with
  | true =>
      refine ⟨_, _, htrue rfl, ⟨rfl, rfl, Usize.size_pos⟩, ?_⟩
      rw [List.length_append]
      exact Nat.le_add_left _ _
  | false => exact ⟨_, _, hfalse rfl, ⟨rfl, rfl, hsize⟩, Nat.le_refl _⟩

theorem content {β : Type} {left : Left kind} (h : At kind left outer rest self bs)
    (c : Content kind β) :
    exists (self' : Handle) (bs' : List UInt8),
      c.act.parse self bs = some (((c.walk left).1, self'), bs') ∧
        At kind (c.walk left).2 outer rest self' bs' ∧ bs'.length ≤ bs.length := by
  cases c with
  | read buf =>
      rcases h with ⟨rfl, rfl, hsize⟩
      refine content_of_parse hsize ?_ ?_
      · intro hbuf
        rw [decide_eq_true_eq] at hbuf
        rw [hbuf]
        exact parse_read_self Reader.new left rest
      · intro hbuf
        rw [decide_eq_false_iff_not] at hbuf
        exact parse_read_other Reader.new hbuf _
  | intoBool =>
      rcases h with ⟨rfl, rfl, hsize⟩
      refine content_of_parse hsize ?_ ?_
      · intro hlen
        rw [decide_eq_true_eq] at hlen
        rcases List.length_eq_one_iff.mp hlen with ⟨b, rfl⟩
        exact parse_intoBool Reader.new b rest
      · intro hlen
        rw [decide_eq_false_iff_not] at hlen
        exact parse_intoBool_other Reader.new hlen _
  | intoInteger minsz maxsz =>
      rcases h with ⟨rfl, rfl, hsize⟩
      have hparse := parse_intoInteger minsz maxsz Reader.new left rest
      refine content_of_parse hsize ?_ ?_
      · intro hlen
        rw [decide_eq_true_eq] at hlen
        rw [if_pos hlen] at hparse
        exact hparse
      · intro hlen
        rw [decide_eq_false_iff_not] at hlen
        rw [if_neg hlen] at hparse
        exact hparse
  | intoUnsigned minsz maxsz =>
      rcases h with ⟨rfl, rfl, hsize⟩
      have hparse := parse_intoUnsigned minsz maxsz Reader.new left rest
      refine content_of_parse hsize ?_ ?_
      · intro hlen
        rw [decide_eq_true_eq] at hlen
        rw [if_pos hlen] at hparse
        exact hparse
      · intro hlen
        rw [decide_eq_false_iff_not] at hlen
        rw [if_neg hlen] at hparse
        exact hparse

end At

/-!
## Reading is walking
-/

namespace Stands

variable {g : Forest} {outer limit : Nat} {header payload rest bs : List UInt8} {ty : TlvType}
  {children : Forest} {self : Handle}

theorem next_item (h : Stands (.item header ty payload g) outer rest self bs)
    (hbs : bs.length ≤ limit) (hfuel : limit < rest.length + Machine.fuel) :
    List.next.parse self bs =
        some (((Item.ofHeader (ty, payload.length)).map some,
          { reader := Reader.new, len := g.count }), payload ++ (g.bytes ++ rest)) ∧
      (payload ++ (g.bytes ++ rest)).length ≤ limit ∧ g.count + outer < Usize.size := by
  have hle := h.length_le
  have hlt := h.count_lt
  have hbytes : (Forest.item header ty payload g).bytes = header ++ (payload ++ g.bytes) :=
    List.append_assoc _ _ _
  have hnext := h.next rfl hbytes h.wellFormed.1
    (by rw [List.length_append]; lia)
  rw [List.append_assoc payload] at hnext
  refine ⟨hnext, ?_, ?_⟩
  · rw [hbytes, List.append_assoc, List.append_assoc, List.length_append] at hle
    lia
  · change g.count + 1 + outer < Usize.size at hlt
    lia

theorem next_list (h : Stands (.list header children g) outer rest self bs)
    (hbs : bs.length ≤ limit) (hfuel : limit < rest.length + Machine.fuel) :
    List.next.parse self bs =
        some ((.ok (some (.some .list children.count)),
          { reader := Reader.new, len := g.count }), children.bytes ++ (g.bytes ++ rest)) ∧
      Stands children (g.count + outer) (g.bytes ++ rest)
        { reader := Reader.new, len := children.count } (children.bytes ++ (g.bytes ++ rest)) ∧
      (children.bytes ++ (g.bytes ++ rest)).length ≤ limit ∧ g.count + outer < Usize.size := by
  have hle := h.length_le
  have hlt := h.count_lt
  rcases h.fits with ⟨hcount, hchildren, _⟩
  have hbytes : (Forest.list header children g).bytes = header ++ (children.bytes ++ g.bytes) :=
    List.append_assoc _ _ _
  have hnext := h.next rfl hbytes h.wellFormed.1
    (by rw [List.length_append]; lia)
  rw [List.append_assoc children.bytes] at hnext
  refine ⟨hnext, .start _ h.wellFormed.2.1 hchildren (by lia), ?_, ?_⟩
  · rw [hbytes, List.append_assoc, List.append_assoc, List.length_append] at hle
    lia
  · change g.count + 1 + outer < Usize.size at hlt
    lia

theorem behind (h : Stands (.item header ty payload g) outer rest self bs)
    (hpayload : payload = []) :
    Stands g outer rest { reader := Reader.new, len := g.count }
      (payload ++ (g.bytes ++ rest)) := by
  have hlt := h.count_lt
  change g.count + 1 + outer < Usize.size at hlt
  rw [hpayload]
  exact .start rest h.wellFormed.2.2 h.fits (by lia)

theorem item_at (h : Stands (.item header ty payload g) outer rest self bs) {kind : Kind}
    {size : Nat} (hitem : Item.ofHeader (ty, payload.length) = .ok (.some kind size)) :
    At kind (Left.ofPayload kind payload) (g.count + outer) (g.bytes ++ rest)
      { reader := Reader.new, len := size } (payload ++ (g.bytes ++ rest)) := by
  rcases h.wellFormed with ⟨hheader, hty, _⟩
  have hsize := decodeHeader_lt hheader
  rcases Item.ofHeader_some hitem with ⟨hx, _⟩
  injection hx with hkind hlen
  have hlist : kind ≠ .list := by
    rintro rfl
    exact hty hkind
  rw [← hlen]
  exact At.start hlist _ _ hsize

end Stands

namespace Read

variable {kind : Kind} {α : Type}

/-- The reader does to the bytes what the program does to the elements. -/
def Follows (prog : Read kind α) : Prop :=
  forall {left : Left kind} {outer limit : Nat} {rest bs : List UInt8} {self : Handle}
    {x : α × Left kind}, At kind left outer rest self bs -> bs.length ≤ limit ->
    limit < rest.length + Machine.fuel -> prog.walk left = some x ->
    exists (self' : Handle) (bs' : List UInt8),
      (prog.run self).parse bs = some ((x.1, self'), bs') ∧
        At kind x.2 outer rest self' bs' ∧ bs'.length ≤ limit

omit [Machine] in
theorem parse_behind {σ β γ : Type} {m : Act Ops Error σ β} {s : σ} {bs bs' : List UInt8}
    {r : Except Error β × σ} (h : m.parse s bs = some (r, bs'))
    (f : Except Error β × σ -> Prog Ops γ) :
    ((m s).bind f).parse bs = (f r).parse bs' := by
  rw [Prog.parse_bind]
  unfold Act.parse at h
  rw [h]
  rfl

theorem next_parse_nil {outer : Nat} {rest bs : List UInt8} {self : Handle}
    (h : Stands .nil outer rest self bs) :
    List.next.parse self bs = some ((.ok none, self), bs) := by
  rcases self with ⟨r, len⟩
  have hlen : len = 0 := h.len
  rw [hlen]
  exact List.parse_next_zero r bs

theorem follows_len {k : Nat -> Read kind α} (ih : forall n, (k n).Follows) :
    (Read.len k).Follows := by
  intro left outer limit rest bs self x h hbs hfuel hwalk
  rw [Read.run, h.len]
  exact ih _ h hbs hfuel hwalk

theorem follows_content {β : Type} (c : Content kind β) {k : Except Error β -> Read kind α}
    (ih : forall r, (k r).Follows) : (Read.content c k).Follows := by
  intro left outer limit rest bs self x h hbs hfuel hwalk
  rcases h.content c with ⟨self₁, bs₁, hparse, hat, hle⟩
  rw [Read.run, parse_behind hparse]
  exact ih _ hat (Nat.le_trans hle hbs) hfuel hwalk

theorem follows_skip (num : Nat) {k : Except Error Unit -> Read .list α}
    (ih : forall r, (k r).Follows) : (Read.skip num k).Follows := by
  intro left outer limit rest bs self x h hbs hfuel hwalk
  change Stands left outer rest self bs at h
  rw [Read.run]
  unfold Read.walk at hwalk
  by_cases hnum : num > self.len
  · rw [parse_behind (List.parse_skip_beyond hnum bs)]
    rw [if_pos (h.len ▸ hnum)] at hwalk
    exact ih _ h hbs hfuel hwalk
  · rw [parse_behind (List.parse_skip (Nat.le_of_not_lt hnum) bs)]
    rw [if_neg (h.len ▸ hnum)] at hwalk
    exact ih _ (h.skip (Nat.le_of_not_lt hnum)) hbs hfuel hwalk

theorem follows_nextEnd {k : Except Error Unit -> Read .list α}
    (ih : forall r, (k r).Follows) : (Read.nextEnd k).Follows := by
  intro left outer limit rest bs self x h hbs hfuel hwalk
  change Stands left outer rest self bs at h
  rw [Read.run]
  cases left with
  | nil =>
      rw [parse_behind (List.nextEnd_of_none (next_parse_nil h) (Or.inl rfl))]
      exact ih _ h hbs hfuel hwalk
  | list header children g =>
      rcases h.next_list hbs hfuel with ⟨hnext, hchildren, hle, hlt⟩
      rw [parse_behind (List.nextEnd_of_item hnext)]
      exact ih _ (hchildren.drop h.wellFormed.2.2 h.fits.2.2) hle hfuel hwalk
  | item header ty payload g =>
      rcases h.next_item hbs hfuel with ⟨hnext, hle, hlt⟩
      simp only [Read.walk] at hwalk
      cases hitem : Item.ofHeader (ty, payload.length) with
      | error e =>
          rw [hitem] at hwalk hnext
          rcases Item.ofHeader_error hitem with ⟨_, _, he⟩
          rw [parse_behind (List.nextEnd_of_error hnext (by rw [he]; exact Error.noConfusion))]
          dsimp only at hwalk
          by_cases hpayload : payload = []
          · rw [if_pos hpayload] at hwalk
            exact ih _ (h.behind hpayload) hle hfuel hwalk
          · rw [if_neg hpayload] at hwalk
            cases hwalk
      | ok item =>
          rw [hitem] at hwalk hnext
          cases item with
          | none =>
              rw [parse_behind (List.nextEnd_of_none hnext (Or.inr rfl))]
              have hpayload := List.length_eq_zero_iff.mp (Item.ofHeader_none hitem)
              exact ih _ (h.behind hpayload) hle hfuel hwalk
          | some kind size =>
              rw [parse_behind (List.nextEnd_of_item hnext)]
              exact ih _ ((h.item_at hitem).drop h.wellFormed.2.2 h.fits hlt) hle hfuel hwalk

/-- The child reads its item, and the list goes on behind it. -/
theorem follows_child {β : Type} {child : Read kind β} {k : Next β -> Read .list α}
    {g : Forest} {left : Left kind} {outer limit : Nat} {rest bs : List UInt8}
    {item : Handle} {x : α × Forest} (hchild : child.Follows)
    (ih : forall r, (k r).Follows) (h : At kind left (g.count + outer) (g.bytes ++ rest) item bs)
    (hg : g.WellFormed) (hfits : g.Fits outer) (hlt : g.count + outer < Usize.size)
    (hbs : bs.length ≤ limit) (hfuel : limit < rest.length + Machine.fuel)
    (hwalk : ((child.walk left).bind fun y => (k (.some y.1)).walk g) = some x) :
    exists (self' : Handle) (bs' : List UInt8),
      ((child.run item).bind fun y =>
        (k (.some y.1)).run { reader := y.2.drop kind, len := g.count }).parse bs =
          some ((x.1, self'), bs') ∧
        At .list x.2 outer rest self' bs' ∧ bs'.length ≤ limit := by
  rcases Option.bind_eq_some_iff.mp hwalk with ⟨y, hchildwalk, hwalk⟩
  rcases hchild h hbs (by rw [List.length_append]; lia) hchildwalk with
    ⟨item', bs₁, hrun, hat, hle⟩
  rw [Prog.parse_bind, hrun]
  exact ih _ (hat.drop hg hfits hlt) hle hfuel hwalk

theorem follows_next {β : Type} {child : (kind : Kind) -> Read kind β}
    {k : Next β -> Read .list α} (hchild : forall kind, (child kind).Follows)
    (ih : forall r, (k r).Follows) : (Read.next child k).Follows := by
  intro left outer limit rest bs self x h hbs hfuel hwalk
  change Stands left outer rest self bs at h
  rw [Read.run_next]
  cases left with
  | nil =>
      rw [parse_behind (next_parse_nil h)]
      exact ih _ h hbs hfuel hwalk
  | list header children g =>
      rcases h.next_list hbs hfuel with ⟨hnext, hchildren, hle, hlt⟩
      rw [parse_behind hnext]
      exact follows_child (hchild .list) ih hchildren h.wellFormed.2.2 h.fits.2.2 hlt hle hfuel
        hwalk
  | item header ty payload g =>
      rcases h.next_item hbs hfuel with ⟨hnext, hle, hlt⟩
      rw [parse_behind hnext]
      simp only [Read.walk] at hwalk
      cases hitem : Item.ofHeader (ty, payload.length) with
      | error e =>
          rw [hitem] at hwalk
          dsimp only at hwalk
          by_cases hpayload : payload = []
          · rw [if_pos hpayload] at hwalk
            exact ih _ (h.behind hpayload) hle hfuel hwalk
          · rw [if_neg hpayload] at hwalk
            cases hwalk
      | ok item =>
          rw [hitem] at hwalk
          cases item with
          | none =>
              have hpayload := List.length_eq_zero_iff.mp (Item.ofHeader_none hitem)
              exact ih _ (h.behind hpayload) hle hfuel hwalk
          | some kind size =>
              exact follows_child (hchild kind) ih (h.item_at hitem) h.wellFormed.2.2 h.fits
                hlt hle hfuel hwalk

theorem run_walk (prog : Read kind α) : prog.Follows := by
  induction prog with
  | done a =>
      intro left outer limit rest bs self x h hbs hfuel hwalk
      cases hwalk
      exact ⟨self, bs, rfl, h, hbs⟩
  | stuck =>
      intro left outer limit rest bs self x h hbs hfuel hwalk
      cases hwalk
  | len k ih => exact follows_len ih
  | content c k ih => exact follows_content c ih
  | skip num k ih => exact follows_skip num ih
  | nextEnd k ih => exact follows_nextEnd ih
  | next child k ihchild ih => exact follows_next ihchild ih

end Read

end Tlv
end Sml
end Smartmeter
