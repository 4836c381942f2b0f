import Smartmeter.Foundation.FiniteBytes
import Smartmeter.Sml.Tlv.Elements

/-!
# The bookkeeping of what is to be skipped

What a run adds to the counters, next to the headers of the lists that it meets.
A call that meets the end of the bytes fails, and the run goes on behind it.
The counters stay within a word as long as no header announces more elements
than fit into a word together with those that are outstanding already.
-/

namespace Smartmeter
namespace Sml
namespace Tlv

open Foundation

/--
What happens to the counters: an operator `+=`, the header of a list with all the
elements that are outstanding behind it, and a call of `skip_now`.
-/
inductive Event where
  | add (a b : Nat)
  | list (outstanding : Nat)
  | skip (r : Reader) (bs : List UInt8)
deriving DecidableEq

section

variable [Machine] (e : Io.Error)

/-- No counter wraps, and what a call of `skip_now` has skipped is what was pending. -/
def Event.Safe : Event -> Prop
  | add a b => a + b < Usize.size
  | list _ => True
  | skip r bs => forall (r' : Reader) (rest : List UInt8),
      (Reader.skipNow r).run (finite e) bs = .done (.ok (), r') rest ->
      exists junk tlvs, bs = junk ++ (tlvs ++ rest) ∧ junk.length = r.remainingBytes ∧
        Elements r.remainingTlvs tlvs

/-- The header is not the one that announces too many elements. -/
def Event.Low : Event -> Prop
  | list outstanding => outstanding < Usize.size
  | _ => True

/-!
## The events of a run
-/

/-- The loop of `skip_tlvs`, with `opened` elements left in open lists. -/
def skipTlvsEvents (opened : Nat) : Nat -> Nat -> List UInt8 -> List Event
  | 0, _, _ => []
  | _ + 1, 0, _ => []
  | n + 1, num + 1, bs =>
      match decodeHeader bs with
      | some (.ok (ty, len), rest) =>
          if ty = .list then
            .add num len :: .list (num + len + opened) ::
              skipTlvsEvents opened n (Usize.wrappingAdd num len) rest
          else if len ≤ rest.length then skipTlvsEvents opened n num (rest.drop len)
          else []
      | _ => []

def skipNowEvents (opened : Nat) (r : Reader) (bs : List UInt8) : List Event :=
  .skip r bs :: skipTlvsEvents opened Machine.fuel r.remainingTlvs (bs.drop r.remainingBytes)

def openEvents (opened : Nat) (kind : Kind) (size : Nat) : List Event :=
  match kind with
  | .list => [.list (size + opened)]
  | _ => []

def dropEvents (kind : Kind) (self : Handle) : List Event :=
  match kind with
  | .list => [.add self.reader.remainingTlvs self.len]
  | _ => [.add self.reader.remainingBytes self.len]

/-- The events behind a call that returns; it returns an error at the end of the bytes. -/
def eventsAfter {α : Type} (x : Outcome α (List UInt8)) (f : α -> List UInt8 -> List Event) :
    List Event :=
  match x with
  | .done a bs => f a bs
  | _ => []

/-- What `next` does before it reads a header. -/
def nextEvents (opened : Nat) (self : Handle) (bs : List UInt8) : List Event :=
  if self.len = 0 then [] else skipNowEvents (self.len + opened) self.reader bs

/-- What `next_end` does with an item that it meets instead of a marker. -/
def nextEndEvents (opened : Nat) (self : Handle) (bs : List UInt8) : List Event :=
  eventsAfter ((List.next self).run (finite e) bs) fun x _ =>
    match x with
    | (.ok (some (.some kind size)), self) =>
        openEvents (self.len + opened) kind size ++
          dropEvents kind { reader := self.reader, len := size }
    | _ => []

/-- The events of a program on an item, with `opened` elements in the lists around it. -/
def Read.events : {kind : Kind} -> {α : Type} -> Read kind α -> Nat -> Handle ->
    List UInt8 -> List Event
  | _, _, .done _, _, _, _ => []
  | _, _, .stuck, _, _, _ => []
  | _, _, .len k, opened, self, bs => (k self.len).events opened self bs
  | _, _, .content c k, opened, self, bs =>
      eventsAfter ((c.act self).run (finite e) bs) fun (r, self) bs =>
        (k r).events opened self bs
  | _, _, .skip num k, opened, self, bs =>
      (if num ≤ self.len then [.add self.reader.remainingTlvs num] else []) ++
        eventsAfter ((List.skip num self).run (finite e) bs) fun (r, self) bs =>
          (k r).events opened self bs
  | _, _, .nextEnd k, opened, self, bs =>
      nextEvents opened self bs ++
        (nextEndEvents e opened self bs ++
          eventsAfter ((List.nextEnd self).run (finite e) bs) fun (r, self) bs =>
            (k r).events opened self bs)
  | _, _, .next child k, opened, self, bs =>
      nextEvents opened self bs ++
        eventsAfter ((List.next self).run (finite e) bs) fun x bs =>
          match x with
          | (.error error, self) => (k (.error error)).events opened self bs
          | (.ok none, self) => (k .endOfList).events opened self bs
          | (.ok (some .none), self) => (k .none).events opened self bs
          | (.ok (some (.some kind size)), self) =>
              openEvents (self.len + opened) kind size ++
                ((child kind).events (self.len + opened) { reader := self.reader, len := size }
                    bs ++
                  eventsAfter (((child kind).run { reader := self.reader, len := size }).run
                      (finite e) bs) fun (b, item) bs =>
                    dropEvents kind item ++
                      (k (.some b)).events opened { self with reader := item.drop kind } bs)

/-- A method of the reader itself. -/
inductive ReaderCall where
  | skipNow
  | readList (prog : Read .list Unit)

/-- The events of a sequence of calls, whether they succeed or fail. -/
def readerEvents : List ReaderCall -> Reader -> List UInt8 -> List Event
  | [], _, _ => []
  | .skipNow :: calls, r, bs =>
      skipNowEvents 0 r bs ++
        eventsAfter ((Reader.skipNow r).run (finite e) bs) fun (_, r) bs =>
          readerEvents calls r bs
  | .readList prog :: calls, r, bs =>
      skipNowEvents 0 r bs ++
        eventsAfter ((Reader.readList r).run (finite e) bs) fun x bs =>
          match x with
          | (.error _, r) => readerEvents calls r bs
          | (.ok size, r) =>
              openEvents 0 .list size ++
                (prog.events e 0 { reader := r, len := size } bs ++
                  eventsAfter ((prog.run { reader := r, len := size }).run (finite e) bs)
                    fun (_, list) bs =>
                      dropEvents .list list ++ readerEvents calls (list.drop .list) bs)

variable {e}

/-!
## Skipping
-/

theorem skipTlvsEvents_safe {opened n num : Nat} {bs : List UInt8}
    (hlow : forall ev, ev ∈ skipTlvsEvents opened n num bs -> ev.Low) :
    forall ev, ev ∈ skipTlvsEvents opened n num bs -> ev.Safe e := by
  induction n generalizing num bs with
  | zero =>
      intro ev hev
      cases hev
  | succ n ih =>
      cases num with
      | zero =>
          intro ev hev
          cases hev
      | succ num =>
          unfold skipTlvsEvents at hlow ⊢
          split at hlow
          · next ty len rest hdecode =>
              by_cases hlist : ty = .list
              · rw [if_pos hlist] at hlow ⊢
                have hlt : num + len + opened < Usize.size :=
                  hlow _ (List.mem_cons_of_mem _ List.mem_cons_self)
                intro ev hev
                rcases List.mem_cons.mp hev with heq | hev
                · rw [heq]
                  exact Nat.lt_of_le_of_lt (Nat.le_add_right _ opened) hlt
                · rcases List.mem_cons.mp hev with heq | hev
                  · rw [heq]
                    trivial
                  · refine ih ?_ ev hev
                    intro ev' hev'
                    exact hlow ev' (List.mem_cons_of_mem _ (List.mem_cons_of_mem _ hev'))
              · rw [if_neg hlist] at hlow ⊢
                by_cases hlen : len ≤ rest.length
                · rw [if_pos hlen] at hlow ⊢
                  exact ih hlow
                · rw [if_neg hlen]
                  intro ev hev
                  cases hev
          · intro ev hev
            cases hev

theorem iterate_skipTlvsLoop_elements {opened n num : Nat} {r r' : Reader}
    {bs rest : List UInt8}
    (h : (Act.iterate n Reader.skipTlvsLoop num).parse r bs = some ((.ok (), r'), rest))
    (hlow : forall ev, ev ∈ skipTlvsEvents opened n num bs -> ev.Low) :
    exists used, bs = used ++ rest ∧ Elements num used := by
  induction n generalizing num bs r with
  | zero => cases h
  | succ n ih =>
      rw [Act.iterate_succ, Act.parse_bind] at h
      cases num with
      | zero =>
          rw [Reader.skipTlvsLoop_zero] at h
          injection h with h
          injection h with _ hrest
          exact ⟨[], hrest, .nil⟩
      | succ num =>
          rw [Reader.skipTlvsLoop_succ] at h
          unfold skipTlvsEvents at hlow
          cases hdecode : decodeHeader bs with
          | none =>
              rw [hdecode] at h
              cases h
          | some x =>
              rcases x with ⟨res, rest'⟩
              rw [hdecode] at h hlow
              rcases decodeHeader_split hdecode with ⟨header, hbs, hheader⟩
              cases res with
              | error e => cases e <;> cases h
              | ok y =>
                  rcases y with ⟨ty, len⟩
                  dsimp only at h hlow
                  by_cases hlist : ty = .list
                  · rw [if_pos hlist] at h hlow
                    have hlt : num + len + opened < Usize.size :=
                      hlow _ (List.mem_cons_of_mem _ List.mem_cons_self)
                    rcases ih h (fun ev hev => hlow ev
                      (List.mem_cons_of_mem _ (List.mem_cons_of_mem _ hev))) with
                      ⟨used, hused, helements⟩
                    rw [Usize.wrappingAdd_eq (by lia)] at helements
                    rw [hlist] at hheader
                    refine ⟨header ++ used, ?_, .list hheader helements⟩
                    rw [hbs, hused, List.append_assoc]
                  · rw [if_neg hlist] at h hlow
                    rw [Act.parse_bind] at h
                    cases hbytes : (Reader.skipBytes len).parse r rest' with
                    | none =>
                        rw [hbytes] at h
                        cases h
                    | some z =>
                        rcases z with ⟨z, after⟩
                        rcases Reader.skipBytes_ok hbytes with ⟨hz, hlen, hafter⟩
                        rw [hbytes, hz] at h
                        rw [if_pos hlen, ← hafter] at hlow
                        rcases ih h hlow with ⟨used, hused, helements⟩
                        have hpayload := List.length_take_of_le hlen
                        refine ⟨header ++ rest'.take len ++ used, ?_,
                          .item hheader hlist hpayload helements⟩
                        rw [hbs, List.append_assoc, List.append_assoc, ← hused, hafter,
                          List.take_append_drop]

theorem skipNowEvents_safe {opened : Nat} {r : Reader} {bs : List UInt8}
    (hlow : forall ev, ev ∈ skipNowEvents opened r bs -> ev.Low) :
    forall ev, ev ∈ skipNowEvents opened r bs -> ev.Safe e := by
  have hloop : forall ev,
      ev ∈ skipTlvsEvents opened Machine.fuel r.remainingTlvs (bs.drop r.remainingBytes) ->
      ev.Low := fun ev hev => hlow ev (List.mem_cons_of_mem _ hev)
  intro ev hev
  rcases List.mem_cons.mp hev with heq | hev
  · rw [heq]
    intro r' rest hrun
    -- a run that succeeds has found every byte
    rcases (Reader.strict_skipNow r).parse_of_run (finite_delivers e) hrun with ⟨_, _, _, hskip⟩
    change Reader.skipNow.parse r bs = _ at hskip
    rw [Reader.skipNow_eq] at hskip
    rcases Act.parse_bind_eq_ok hskip with ⟨_, r₁, mid, hbytes, htlvs⟩
    rcases Reader.skipPendingBytes_ok hbytes with ⟨hr₁, junk, hbs, hjunk⟩
    have hmid : bs.drop r.remainingBytes = mid := by
      rw [hbs, ← hjunk, List.drop_left]
    rw [hmid] at hloop
    unfold Reader.skipPendingTlvs at htlvs
    rw [Act.parse_bind_ok (Act.parse_gets _ _ _), hr₁] at htlvs
    dsimp only at htlvs
    by_cases hpos : r.remainingTlvs > 0
    · rw [if_pos hpos] at htlvs
      rcases Act.parse_bind_eq_ok htlvs with ⟨_, r₂, mid', htlvs, hmodify⟩
      rcases iterate_skipTlvsLoop_elements htlvs hloop with ⟨used, hused, helements⟩
      injection hmodify with hmodify
      injection hmodify with _ hrest
      exact ⟨junk, used, by rw [hbs, hused, hrest], hjunk, helements⟩
    · rw [if_neg hpos] at htlvs
      injection htlvs with htlvs
      injection htlvs with _ hrest
      have hzero : r.remainingTlvs = 0 := Nat.eq_zero_of_not_pos hpos
      exact ⟨junk, [], by rw [hbs, hrest]; rfl, hjunk, hzero.symm ▸ .nil⟩
  · exact skipTlvsEvents_safe hloop ev hev

/-!
## The counters in a run
-/

/-- Nothing is scheduled in the reader. -/
def Reader.Fewer (r r' : Reader) : Prop := r'.remainingTlvs ≤ r.remainingTlvs

omit [Machine] in
theorem Reader.Fewer.trans {r r' r'' : Reader} (h : r.Fewer r') (h' : r'.Fewer r'') :
    r.Fewer r'' := Nat.le_trans h' h

instance : IsPreorder Reader Reader.Fewer where
  refl r := Nat.le_refl r.remainingTlvs
  trans _ _ _ := Reader.Fewer.trans

/-- Nothing is scheduled in the reader of a list, and no element is added to the list. -/
def Handle.Fewer (self self' : Handle) : Prop :=
  self.reader.Fewer self'.reader ∧ self'.len ≤ self.len

omit [Machine] in
theorem Handle.Fewer.trans {self self' self'' : Handle} (h : self.Fewer self')
    (h' : self'.Fewer self'') : self.Fewer self'' :=
  ⟨h.1.trans h'.1, Nat.le_trans h'.2 h.2⟩

instance : IsPreorder Handle Handle.Fewer where
  refl _ := ⟨Nat.le_refl _, Nat.le_refl _⟩
  trans _ _ _ := Handle.Fewer.trans

/-- The counters of the reader stay, and what is left of the item does not grow. -/
def Handle.Reads (self self' : Handle) : Prop :=
  self'.reader = self.reader ∧ self'.len ≤ self.len

omit [Machine] in
theorem Handle.Reads.trans {self self' self'' : Handle} (h : self.Reads self')
    (h' : self'.Reads self'') : self.Reads self'' :=
  ⟨h'.1.trans h.1, Nat.le_trans h'.2 h.2⟩

instance : IsPreorder Handle Handle.Reads where
  refl _ := ⟨rfl, Nat.le_refl _⟩
  trans _ _ _ := Handle.Reads.trans

section

variable {σ : Type} {R : σ -> σ -> Prop} [IsPreorder σ R]

omit [Machine] in
theorem moves_readU8 : Act.Moves R (readU8 : Act Ops Error σ UInt8) :=
  fun s _ => refl_of R s

omit [Machine] in
theorem moves_readExact (n : Nat) : Act.Moves R (readExact n : Act Ops Error σ (List UInt8)) :=
  fun s _ => refl_of R s

end

namespace Reader

variable {R : Reader -> Reader -> Prop} [IsPreorder Reader R]

theorem moves_headerLoop (x : TlvHeader × Nat × Nat) : Act.Moves R (headerLoop x) := by
  rcases x with ⟨header, len, headerLen⟩
  unfold headerLoop
  dsimp only
  split
  · apply Act.Moves.bind moves_readU8
    intro byte
    split
    · exact .fail _
    · split
      · exact .fail _
      · split
        · exact .fail _
        · exact .pure _
  · exact .pure _

theorem moves_readTlvInner : Act.Moves R readTlvInner := by
  apply Act.Moves.bind moves_readU8
  intro byte
  exact .bind (.iterate moves_headerLoop _ _) fun _ => .ofExcept _

theorem moves_skipBytes (num : Nat) : Act.Moves R (skipBytes num) := by
  apply Act.Moves.iterate
  intro num
  unfold skipBytesLoop
  split
  · exact .bind (moves_readExact _) fun _ => .pure _
  · exact .pure _

theorem moves_skipTlvs (num : Nat) : Act.Moves R (skipTlvs num) := by
  apply Act.Moves.iterate
  intro num
  unfold skipTlvsLoop
  split
  · apply Act.Moves.bind moves_readTlvInner.attempt
    intro r
    cases r with
    | error e =>
        cases e with
        | endOfSmlMessage =>
            dsimp only
            split
            · exact .fail _
            · exact .fail _
        | _ => exact .fail _
    | ok x =>
        rcases x with ⟨ty, len⟩
        cases ty with
        | list => exact .pure _
        | _ => exact .bind (moves_skipBytes _) fun _ => .pure _
  · exact .pure _

theorem moves_skipNow : Act.Moves Fewer skipNow := by
  rw [skipNow_eq]
  apply Act.Moves.bind
  · apply Act.Moves.bind (.gets _)
    intro remainingBytes
    split
    · exact .bind (moves_skipBytes _) fun _ => .modify fun r => Nat.le_refl r.remainingTlvs
    · exact .pure _
  · intro _
    apply Act.Moves.bind (.gets _)
    intro remainingTlvs
    split
    · exact .bind (moves_skipTlvs _) fun _ => .modify fun r => Nat.zero_le r.remainingTlvs
    · exact .pure _

theorem moves_readTlv : Act.Moves Fewer readTlv :=
  .bind moves_skipNow fun _ => moves_readTlvInner

theorem moves_readList : Act.Moves Fewer readList := by
  apply Act.Moves.bind moves_readTlv
  rintro ⟨ty, len⟩
  cases ty with
  | list => exact .pure _
  | _ => exact .fail _

end Reader

theorem List.moves_next : Act.Moves Handle.Fewer next := by
  apply Act.Moves.bind (.gets _)
  intro len
  dsimp only
  split
  · exact .pure _
  · apply Act.Moves.bind
    · exact Reader.moves_readTlv.borrow fun self r' h => ⟨h, Nat.le_refl self.len⟩
    · rintro ⟨ty, len⟩
      apply Act.Moves.bind
      · exact .modify fun self => ⟨Nat.le_refl _, Nat.sub_le self.len 1⟩
      · intro _
        cases ty with
        | string =>
            dsimp only
            split
            · exact .pure _
            · exact .pure _
        | other ty => exact .fail _
        | _ => exact .pure _

omit [Machine] in
theorem moves_finish :
    Act.Moves Handle.Reads (Act.modify fun self => { self with len := 0 } :
      Act Ops Error Handle Unit) :=
  .modify fun self => ⟨rfl, Nat.zero_le self.len⟩

omit [Machine] in
theorem moves_intoBytes (minsz maxsz : Nat) : Act.Moves Handle.Reads (intoBytes minsz maxsz) := by
  apply Act.Moves.bind (.gets _)
  intro len
  split
  · exact .bind (moves_readExact _) fun _ => .bind moves_finish fun _ => .pure _
  · exact .fail _

omit [Machine] in
/-- Reading an item leaves the counters alone, also when it fails. -/
theorem Content.moves {kind : Kind} {β : Type} (c : Content kind β) :
    Act.Moves Handle.Reads c.act := by
  cases c with
  | read buf =>
      apply Act.Moves.bind (.gets _)
      intro len
      split
      · exact .fail _
      · exact .bind (moves_readExact _) fun _ => .bind moves_finish fun _ => .pure _
  | intoBool =>
      apply Act.Moves.bind (.gets _)
      intro len
      split
      · exact .fail _
      · exact .bind moves_readU8 fun _ => .bind moves_finish fun _ => .pure _
  | intoInteger minsz maxsz => exact .bind (moves_intoBytes _ _) fun _ => .pure _
  | intoUnsigned minsz maxsz => exact .bind (moves_intoBytes _ _) fun _ => .pure _

/-- What is outstanding in the reader, the item and the lists around it fits into a word. -/
def Within : Kind -> Nat -> Handle -> Prop
  | .list, opened, self => self.reader.remainingTlvs + self.len + opened < Usize.size
  | _, opened, self =>
      self.reader.remainingTlvs + opened < Usize.size ∧
        self.reader.remainingBytes + self.len < Usize.size

namespace Within

variable {kind : Kind} {opened : Nat} {self self' : Handle}

theorem list_mono (h : Within .list opened self)
    (hreader : self'.reader.remainingTlvs ≤ self.reader.remainingTlvs)
    (hlen : self'.len ≤ self.len) : Within .list opened self' := by
  change self.reader.remainingTlvs + self.len + opened < Usize.size at h
  change self'.reader.remainingTlvs + self'.len + opened < Usize.size
  lia

theorem start {size : Nat} (hsize : size < Usize.size) (hopened : opened < Usize.size)
    (hlow : forall ev, ev ∈ openEvents opened kind size -> ev.Low) :
    Within kind opened { reader := Reader.new, len := size } := by
  cases kind with
  | list =>
      have hlt : size + opened < Usize.size := hlow _ List.mem_cons_self
      change 0 + size + opened < Usize.size
      rw [Nat.zero_add]
      exact hlt
  | _ =>
      constructor
      · change 0 + opened < Usize.size
        rw [Nat.zero_add]
        exact hopened
      · change 0 + size < Usize.size
        rw [Nat.zero_add]
        exact hsize

theorem drop {len : Nat} (h : Within kind (len + opened) self) :
    (forall ev, ev ∈ dropEvents kind self -> ev.Safe e) ∧
      Within .list opened { reader := self.drop kind, len := len } := by
  cases kind with
  | list =>
      change self.reader.remainingTlvs + self.len + (len + opened) < Usize.size at h
      constructor
      · intro ev hev
        rw [List.mem_singleton.mp hev]
        change self.reader.remainingTlvs + self.len < Usize.size
        lia
      · change Usize.wrappingAdd self.reader.remainingTlvs self.len + len + opened < Usize.size
        rw [Usize.wrappingAdd_eq (by lia)]
        lia
  | _ =>
      rcases h with ⟨hreader, hbytes⟩
      constructor
      · intro ev hev
        rw [List.mem_singleton.mp hev]
        exact hbytes
      · change self.reader.remainingTlvs + len + opened < Usize.size
        lia

end Within

theorem Within.of_reads {kind : Kind} {opened : Nat} {self self' : Handle}
    (h : Within kind opened self) (hreads : self.Reads self') : Within kind opened self' := by
  rcases hreads with ⟨hreader, hlen⟩
  cases kind with
  | list => exact h.list_mono (by rw [hreader]) hlen
  | _ =>
      rcases h with ⟨htlvs, hbytes⟩
      constructor
      · rw [hreader]
        exact htlvs
      · rw [hreader]
        exact Nat.lt_of_le_of_lt (Nat.add_le_add_left hlen _) hbytes

/-- A list after an item was asked for. -/
theorem Within.next {opened : Nat} {self self' : Handle} {bs rest : List UInt8}
    {res : Except Error (Option Item)} (h : Within .list opened self)
    (hnext : (List.next self).run (finite e) bs = .done (res, self') rest) :
    Within .list opened self' := by
  rcases List.moves_next.of_run hnext with ⟨hreader, hlen⟩
  exact h.list_mono hreader hlen

/-- The item that was taken. -/
theorem Within.item {opened : Nat} {self self' : Handle} {bs rest : List UInt8} {kind : Kind}
    {size : Nat} (h : Within .list opened self)
    (hnext : (List.next self).run (finite e) bs =
      .done (.ok (some (.some kind size)), self') rest)
    (hlow : forall ev, ev ∈ openEvents (self'.len + opened) kind size -> ev.Low) :
    Within kind (self'.len + opened) { reader := self'.reader, len := size } := by
  rcases (List.strict_next self).parse_of_run (finite_delivers e) hnext with ⟨_, _, _, hparse⟩
  rcases List.next_ok hparse with ⟨_, header, x, _, _, hheader, hitem, hlen, hnew⟩
  rcases Item.ofHeader_some hitem with ⟨rfl, _⟩
  change self.reader.remainingTlvs + self.len + opened < Usize.size at h
  rw [hnew]
  exact .start (decodeHeader_lt hheader) (by lia) hlow

theorem nextEvents_safe {opened : Nat} {self : Handle} {bs : List UInt8}
    (hlow : forall ev, ev ∈ nextEvents opened self bs -> ev.Low) :
    forall ev, ev ∈ nextEvents opened self bs -> ev.Safe e := by
  unfold nextEvents at hlow ⊢
  by_cases hlen : self.len = 0
  · rw [if_pos hlen]
    intro ev hev
    cases hev
  · rw [if_neg hlen] at hlow ⊢
    exact skipNowEvents_safe hlow

theorem openEvents_safe (opened : Nat) (kind : Kind) (size : Nat) :
    forall ev, ev ∈ openEvents opened kind size -> ev.Safe e := by
  intro ev hev
  cases kind with
  | list =>
      rw [List.mem_singleton.mp hev]
      trivial
  | _ => cases hev

/-!
## Runs of programs

If no header announces too many elements, the events of a run are safe and the
run leaves what fits into a word.
-/

variable (e) in
/-- The events and the outcome of a part of a run. -/
def Bounded {α : Type} (events : List Event) (x : Outcome α (List UInt8)) (Q : α -> Prop) :
    Prop :=
  (forall ev, ev ∈ events -> ev.Low) ->
    (forall ev, ev ∈ events -> ev.Safe e) ∧ forall a rest, x = .done a rest -> Q a

namespace Bounded

variable {α β : Type} {Q : β -> Prop}

theorem done {b : β} {bs : List UInt8} (h : Q b) : Bounded e [] (.done b bs) Q := by
  intro _
  constructor
  · intro ev hev
    cases hev
  · intro b' rest heq
    cases heq
    exact h

theorem append {events events' : List Event} {x : Outcome β (List UInt8)}
    (h : (forall ev, ev ∈ events -> ev.Low) ->
      (forall ev, ev ∈ events -> ev.Safe e) ∧ Bounded e events' x Q) :
    Bounded e (events ++ events') x Q := by
  intro hlow
  rw [List.forall_mem_append] at hlow ⊢
  rcases hlow with ⟨hlow, hlow'⟩
  rcases h hlow with ⟨hsafe, hbounded⟩
  rcases hbounded hlow' with ⟨hsafe', hdone⟩
  exact ⟨⟨hsafe, hsafe'⟩, hdone⟩

theorem after {x : Outcome α (List UInt8)} {f : α -> List UInt8 -> List Event}
    {g : α -> List UInt8 -> Outcome β (List UInt8)}
    (h : forall a bs, x = .done a bs -> Bounded e (f a bs) (g a bs) Q) :
    Bounded e (eventsAfter x f) (x.andThen g) Q := by
  cases x with
  | done a bs => exact h a bs rfl
  | _ =>
      intro _
      constructor
      · intro ev hev
        cases hev
      · intro b rest heq
        cases heq

end Bounded

/-- A list after `next_end`. -/
theorem Within.nextEnd {opened : Nat} {self : Handle} {bs : List UInt8}
    (h : Within .list opened self) :
    Bounded e (nextEndEvents e opened self bs) ((List.nextEnd self).run (finite e) bs)
      fun x => Within .list opened x.2 := by
  unfold nextEndEvents List.nextEnd
  rw [Act.run_attempt_bind]
  apply Bounded.after
  rintro ⟨res, self'⟩ bs' hnext
  have hwithin := h.next hnext
  cases res with
  | error error =>
      cases error with
      | endOfSmlMessage => exact .done (hwithin.list_mono (Nat.le_refl _) (Nat.sub_le _ _))
      | _ => exact .done hwithin
  | ok item =>
      cases item with
      | none => exact .done hwithin
      | some item =>
          cases item with
          | none => exact .done hwithin
          | some kind size =>
              apply Bounded.append
              intro hlow
              refine ⟨openEvents_safe _ _ _, ?_⟩
              rcases (h.item hnext hlow).drop with ⟨hdrop, hlist⟩
              intro _
              refine ⟨hdrop, ?_⟩
              intro x rest hrun
              cases hrun
              exact hlist

variable (e) in
/-- On every item and all bytes the program stays within a word. -/
def Read.Stays {kind : Kind} {α : Type} (prog : Read kind α) : Prop :=
  forall {opened : Nat} {self : Handle} {bs : List UInt8}, Within kind opened self ->
    Bounded e (prog.events e opened self bs) ((prog.run self).run (finite e) bs)
      fun x => Within kind opened x.2

namespace Read

variable {α : Type}

theorem stays_content {kind : Kind} {β : Type} (c : Content kind β)
    {k : Except Error β -> Read kind α} (hk : forall r, (k r).Stays e) :
    (Read.content c k).Stays e := by
  intro opened self bs h
  unfold Read.events
  rw [Read.run, Prog.run_bind]
  apply Bounded.after
  rintro ⟨r, self'⟩ bs' hrun
  exact hk r (h.of_reads (c.moves.of_run hrun))

theorem stays_skip (num : Nat) {k : Except Error Unit -> Read .list α}
    (hk : forall r, (k r).Stays e) : (Read.skip num k).Stays e := by
  intro opened self bs h
  unfold Read.events
  rw [Read.run, Prog.run_bind]
  change self.reader.remainingTlvs + self.len + opened < Usize.size at h
  by_cases hnum : num ≤ self.len
  · have hrun : (List.skip num self).run (finite e) bs = .done (.ok (),
        { reader := { self.reader with
            remainingTlvs := Usize.wrappingAdd self.reader.remainingTlvs num }
          len := self.len - num }) bs :=
      (finite_delivers e).run_of_parse (List.nil_append bs).symm (List.parse_skip hnum bs)
    rw [if_pos hnum, hrun]
    apply Bounded.append
    intro _
    constructor
    · intro ev hev
      rw [List.mem_singleton.mp hev]
      change self.reader.remainingTlvs + num < Usize.size
      lia
    · apply hk
      change Usize.wrappingAdd self.reader.remainingTlvs num + (self.len - num) + opened < _
      rw [Usize.wrappingAdd_eq (by lia)]
      lia
  · have hrun : (List.skip num self).run (finite e) bs = .done (.error .endOfList, self) bs :=
      (finite_delivers e).run_of_parse (List.nil_append bs).symm
        (List.parse_skip_beyond (Nat.lt_of_not_le hnum) bs)
    rw [if_neg hnum, hrun]
    exact hk _ h

theorem stays_nextEnd {k : Except Error Unit -> Read .list α} (hk : forall r, (k r).Stays e) :
    (Read.nextEnd k).Stays e := by
  intro opened self bs h
  unfold Read.events
  rw [Read.run, Prog.run_bind]
  apply Bounded.append
  intro hlow
  refine ⟨nextEvents_safe hlow, ?_⟩
  apply Bounded.append
  intro hlow
  rcases h.nextEnd hlow with ⟨hsafe, hwithin⟩
  refine ⟨hsafe, ?_⟩
  apply Bounded.after
  rintro ⟨r, self'⟩ bs' hrun
  exact hk r (hwithin _ _ hrun)

/-- An item is read by its own program and dropped. -/
theorem stays_item {β : Type} {kind : Kind} {child : Read kind β} {k : β -> Read .list α}
    (hchild : child.Stays e) (hk : forall b, (k b).Stays e) {opened : Nat} {self : Handle}
    {size : Nat} {bs : List UInt8}
    (h : Within kind (self.len + opened) { reader := self.reader, len := size }) :
    Bounded e
      (child.events e (self.len + opened) { reader := self.reader, len := size } bs ++
        eventsAfter ((child.run { reader := self.reader, len := size }).run (finite e) bs)
          fun (b, item) bs => dropEvents kind item ++
            (k b).events e opened { self with reader := item.drop kind } bs)
      (((child.run { reader := self.reader, len := size }).bind fun (b, item) =>
        (k b).run { self with reader := item.drop kind }).run (finite e) bs)
      fun x => Within .list opened x.2 := by
  rw [Prog.run_bind]
  apply Bounded.append
  intro hlow
  rcases hchild h hlow with ⟨hsafe, hwithin⟩
  refine ⟨hsafe, ?_⟩
  apply Bounded.after
  rintro ⟨b, item⟩ bs' hrun
  rcases (hwithin _ _ hrun).drop with ⟨hdrop, hlist⟩
  apply Bounded.append
  intro _
  exact ⟨hdrop, hk b hlist⟩

theorem stays_next {β : Type} {child : (kind : Kind) -> Read kind β}
    {k : Next β -> Read .list α} (hchild : forall kind, (child kind).Stays e)
    (hk : forall r, (k r).Stays e) : (Read.next child k).Stays e := by
  intro opened self bs h
  unfold Read.events
  rw [Read.run_next, Prog.run_bind]
  apply Bounded.append
  intro hlow
  refine ⟨nextEvents_safe hlow, ?_⟩
  apply Bounded.after
  rintro ⟨res, self'⟩ bs' hnext
  have hwithin := h.next hnext
  cases res with
  | error error => exact hk _ hwithin
  | ok item =>
      cases item with
      | none => exact hk _ hwithin
      | some item =>
          cases item with
          | none => exact hk _ hwithin
          | some kind size =>
              apply Bounded.append
              intro hlow
              refine ⟨openEvents_safe _ _ _, ?_⟩
              exact stays_item (hchild kind) (fun b => hk (.some b)) (h.item hnext hlow)

theorem stays {kind : Kind} (prog : Read kind α) : prog.Stays e := by
  induction prog with
  | done a => exact fun h => .done h
  | stuck =>
      intro opened self bs _ _
      constructor
      · intro ev hev
        cases hev
      · intro x rest hrun
        cases hrun
  | len k ih => exact fun {_ self _} h => ih self.len h
  | content c k ih => exact stays_content c ih
  | skip num k ih => exact stays_skip num ih
  | nextEnd k ih => exact stays_nextEnd ih
  | next child k ihchild ih => exact stays_next ihchild ih

end Read

/-!
## Runs of the reader
-/

omit [Machine] in
theorem forall_eventsAfter {α : Type} {x : Outcome α (List UInt8)}
    {f : α -> List UInt8 -> List Event} {P : Event -> Prop} :
    (forall ev, ev ∈ eventsAfter x f -> P ev) <->
      forall a bs, x = .done a bs -> forall ev, ev ∈ f a bs -> P ev := by
  cases x <;> simp [eventsAfter]

theorem skipNow_safe {calls : List ReaderCall} {r : Reader} {bs : List UInt8}
    (ih : forall {r : Reader} {bs : List UInt8}, r.remainingTlvs < Usize.size ->
      (forall ev, ev ∈ readerEvents e calls r bs -> ev.Low) ->
        forall ev, ev ∈ readerEvents e calls r bs -> ev.Safe e)
    (h : r.remainingTlvs < Usize.size)
    (hlow : forall ev, ev ∈ readerEvents e (.skipNow :: calls) r bs -> ev.Low) :
    forall ev, ev ∈ readerEvents e (.skipNow :: calls) r bs -> ev.Safe e := by
  unfold readerEvents at hlow ⊢
  rw [List.forall_mem_append, forall_eventsAfter] at hlow ⊢
  rcases hlow with ⟨hskip, hlow⟩
  refine ⟨skipNowEvents_safe hskip, ?_⟩
  rintro ⟨res, r'⟩ bs' hrun
  have hfewer := Reader.moves_skipNow.of_run hrun
  exact ih (Nat.lt_of_le_of_lt hfewer h) (hlow _ _ hrun)

theorem readList_safe {calls : List ReaderCall} (prog : Read .list Unit) {r : Reader}
    {bs : List UInt8}
    (ih : forall {r : Reader} {bs : List UInt8}, r.remainingTlvs < Usize.size ->
      (forall ev, ev ∈ readerEvents e calls r bs -> ev.Low) ->
        forall ev, ev ∈ readerEvents e calls r bs -> ev.Safe e)
    (h : r.remainingTlvs < Usize.size)
    (hlow : forall ev, ev ∈ readerEvents e (.readList prog :: calls) r bs -> ev.Low) :
    forall ev, ev ∈ readerEvents e (.readList prog :: calls) r bs -> ev.Safe e := by
  unfold readerEvents at hlow ⊢
  rw [List.forall_mem_append, forall_eventsAfter] at hlow ⊢
  rcases hlow with ⟨hskip, hlow⟩
  refine ⟨skipNowEvents_safe hskip, ?_⟩
  rintro ⟨res, r'⟩ bs' hread
  have hlow' := hlow _ _ hread
  cases res with
  | error error =>
      have hfewer := Reader.moves_readList.of_run hread
      exact ih (Nat.lt_of_le_of_lt hfewer h) hlow'
  | ok size =>
      rcases (Reader.strict_readList r).parse_of_run (finite_delivers e) hread with
        ⟨_, _, _, hparse⟩
      rcases Reader.readList_ok hparse with ⟨rfl, _, header, _, _, hheader⟩
      dsimp only at hlow' ⊢
      rw [List.forall_mem_append, List.forall_mem_append, forall_eventsAfter] at hlow' ⊢
      rcases hlow' with ⟨hopen, hprog, hlow'⟩
      have hwithin := Within.start (decodeHeader_lt hheader) Usize.size_pos hopen
      rcases prog.stays hwithin hprog with ⟨hsafe, hdone⟩
      refine ⟨openEvents_safe 0 .list size, hsafe, ?_⟩
      rintro ⟨u, list⟩ bs'' hrun
      have hlist : Within .list (0 + 0) list := hdone _ _ hrun
      rcases hlist.drop with ⟨hdrop, hreader⟩
      have hlow'' := hlow' _ _ hrun
      rw [List.forall_mem_append] at hlow'' ⊢
      exact ⟨hdrop, ih hreader hlow''.2⟩

/-- The same over the calls of the reader itself. -/
theorem readerEvents_safe (calls : List ReaderCall) {r : Reader} {bs : List UInt8}
    (h : r.remainingTlvs < Usize.size)
    (hlow : forall ev, ev ∈ readerEvents e calls r bs -> ev.Low) :
    forall ev, ev ∈ readerEvents e calls r bs -> ev.Safe e := by
  induction calls generalizing r bs with
  | nil =>
      intro ev hev
      cases hev
  | cons call calls ih =>
      cases call with
      | skipNow => exact skipNow_safe ih h hlow
      | readList prog => exact readList_safe prog ih h hlow

/--
In a run on any bytes in which no header of a list announces more elements than
fit into a word together with the outstanding ones, no counter wraps and only
complete elements are skipped; `e` is the error that a call gives at the end of
the bytes, behind which the run goes on.
-/
theorem bookkeeping_safe (e : Io.Error) (calls : List ReaderCall) (bs : List UInt8)
    (hlow : forall ev, ev ∈ readerEvents e calls Reader.new bs -> ev.Low) :
    forall ev, ev ∈ readerEvents e calls Reader.new bs -> ev.Safe e :=
  readerEvents_safe calls Usize.size_pos hlow

end

/-- Taking one item out of a list, without reading it. -/
def takeOne : Read .list Unit :=
  .next (fun _ => .done ()) (fun _ => .done ())

/-- Taking two items. -/
def takeTwo : Read .list Unit :=
  .next (fun _ => .done ()) (fun _ => takeOne)

/-- The bytes end behind the first of three numbers; both lists and the reader go on. -/
theorem bookkeeping_safe_numbers :
    letI := Machine.word32 32 (Nat.le_refl 32)
    letI events := readerEvents .unexpectedEof [.readList takeTwo, .skipNow] Reader.new
      [0x73, 0x52, 0x01]
    events = [.skip Reader.new [0x73, 0x52, 0x01], .list 3, .skip Reader.new [0x52, 0x01],
        .add 0 1, .skip { remainingBytes := 1, remainingTlvs := 0 } [0x01], .add 0 2,
        .skip { remainingBytes := 0, remainingTlvs := 2 } []] ∧
      forall ev, ev ∈ events -> ev.Safe .unexpectedEof := by
  let := Machine.word32 32 (Nat.le_refl 32)
  have hevents : readerEvents .unexpectedEof [.readList takeTwo, .skipNow] Reader.new
      [0x73, 0x52, 0x01] =
      [.skip Reader.new [0x73, 0x52, 0x01], .list 3, .skip Reader.new [0x52, 0x01],
        .add 0 1, .skip { remainingBytes := 1, remainingTlvs := 0 } [0x01], .add 0 2,
        .skip { remainingBytes := 0, remainingTlvs := 2 } []] := by
    decide +kernel
  constructor
  · exact hevents
  · apply bookkeeping_safe
    intro ev hev
    rw [hevents] at hev
    cases ev with
    | list outstanding =>
        have heq : outstanding = 3 := by simpa using hev
        rw [heq]
        exact (by decide : 3 < 2 ^ 32)
    | _ => trivial

/-- On words of 32 bits, `2 ^ 32 - 9` unread elements are added to fourteen others. -/
theorem bookkeeping_wraps :
    letI := Machine.word32 32 (Nat.le_refl 32)
    ¬ forall (e : Io.Error) (calls : List ReaderCall) (bs : List UInt8) (ev : Event),
      ev ∈ readerEvents e calls Reader.new bs -> ev.Safe e := by
  let := Machine.word32 32 (Nat.le_refl 32)
  intro h
  have hevents : readerEvents .unexpectedEof [.readList takeOne, .skipNow] Reader.new
      [0x7F, 0xFF, 0x8F, 0x8F, 0x8F, 0x8F, 0x8F, 0x8F, 0x0F, 0x51, 0x51, 0x51, 0x51, 0x51] =
      [.skip Reader.new
          [0x7F, 0xFF, 0x8F, 0x8F, 0x8F, 0x8F, 0x8F, 0x8F, 0x0F, 0x51, 0x51, 0x51, 0x51, 0x51],
        .list 15,
        .skip Reader.new
          [0xFF, 0x8F, 0x8F, 0x8F, 0x8F, 0x8F, 0x8F, 0x0F, 0x51, 0x51, 0x51, 0x51, 0x51],
        .list (2 ^ 32 + 5), .add 0 (2 ^ 32 - 9), .add (2 ^ 32 - 9) 14,
        .skip { remainingBytes := 0, remainingTlvs := 5 } [0x51, 0x51, 0x51, 0x51, 0x51]] := by
    decide +kernel
  have hsafe : 2 ^ 32 - 9 + 14 < 2 ^ 32 := by
    apply h .unexpectedEof [.readList takeOne, .skipNow] _ (.add (2 ^ 32 - 9) 14)
    rw [hevents]
    simp
  lia

end Tlv
end Sml
end Smartmeter
