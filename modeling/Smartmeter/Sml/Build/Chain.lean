import Smartmeter.Sml.Build.Accessors

/-!
# Chains of calls

A caller goes from structure to structure with any calls that succeed.  The
structure of a field is reached when exactly the elements in front of the field
are taken or scheduled for skipping.
-/

namespace Smartmeter
namespace Sml
namespace Build

open Foundation
open Tlv

variable {β : Type}

/-- The structure that the caller holds, with its list and the bytes in front of the reader. -/
structure State where
  place : Place
  list : Handle
  unread : List UInt8

structure Event (β : Type) : Type 1 where
  id : Nat
  call : Call β
  returned : Returned β

def Place.target : Place -> Call β -> Nat
  | _, .field id => id
  | .complex id _, _ => id
  | _, _ => 0

inductive FieldType.Reads : FieldType -> Call β -> Option Element -> Returned β -> Prop where
  | primitive {ty : RustPrimitive} {optional : Bool} {id : Nat} {el : Element} {r : Returned β}
      (h : Smlfn ty optional el r) : Reads (.primitive ty optional) (.field id) (some el) r
  | accessor {ty : ParseField} {id : Nat} {el : Option Element} :
      Reads (.complex ty) (.field id) el .unit
  | parse {ty : ParseField} {absent b : β} {child : (kind : Kind) -> Read kind β}
      {total : forall kind, (child kind).Total} {el : Element} (h : ty.Reads absent child el b) :
      Reads (.complex ty) (.parse absent child total) (some el) (.read b)
  | finish {ty : ParseField} {el : Element} (h : ty.Reads () (fun _ => .done ()) el ()) :
      Reads (.complex ty) .finish (some el) .unit

/--
The result of a call for a field that the list has no element for.  Skipping
fails if elements in front of the field are missing, too.
-/
def FieldType.Beyond (count id : Nat) : FieldType -> Call β -> Except Error (Returned β) -> Prop
  | .complex _, .field _, r => r = if id = count then .ok .unit else .error .endOfList
  | .endOfSmlMsg, .field _, r => r = .error (if id = count then .unexpectedValue else .endOfList)
  | _, _, r => r = .error .endOfList

variable [Machine]

inductive Chain (fields : List FieldType) (s₀ : State) : List (Event β) -> State -> Prop where
  | nil : Chain fields s₀ [] s₀
  | call {events : List (Event β)} {s : State} {call : Call β} {m : Method β} {r : Returned β}
      {list : Handle} {unread : List UInt8} (h : Chain fields s₀ events s)
      (hmethod : method fields s.place call = some m)
      (hrun : m.body.act.parse s.list s.unread = some ((.ok r, list), unread)) :
      Chain fields s₀ (events ++ [{ id := s.place.target call, call := call, returned := r }])
        { place := m.next, list := list, unread := unread }

structure Readable (f : Forest) : Prop where
  wellFormed : f.WellFormed
  known : f.Known
  fits : f.Fits 0
  count_lt : f.count < Usize.size
  bytes_lt : f.bytes.length < Machine.fuel

/-- The structure that a sequence is parsed to, in front of the elements. -/
def State.start (f : Forest) (rest : List UInt8) : State where
  place := .field 0
  list := { reader := Reader.new, len := f.count }
  unread := f.bytes ++ rest

/-- Exactly `k` elements are taken or scheduled for skipping. -/
structure State.Behind (f : Forest) (rest : List UInt8) (k : Nat) (s : State) : Prop where
  le : k ≤ f.count
  stands : Stands (f.drop k) 0 rest s.list s.unread
  unread_le : s.unread.length ≤ (f.bytes ++ rest).length

/-- The number of elements that the reader is behind when the caller holds a structure. -/
def Place.At (fields : List FieldType) (f : Forest) : Place -> Nat -> Prop
  | .field i, k => k = i
  | .complex i false, k => k = i
  | .complex i true, k => k = i + 1 ∧ exists ty el, fields[i]? = some (.complex ty) ∧
      f.element i = some el ∧ ty.Reads () (fun _ => .done ()) el ()
  | .unit, _ => True

variable {fields : List FieldType} {f : Forest} {rest : List UInt8} {s : State}

theorem State.Behind.suffix {k : Nat} (h : s.Behind f rest k) : rest <:+ s.unread := by
  rcases h.stands.pendingBytes with ⟨used, hunread, _⟩
  rw [hunread, ← List.append_assoc]
  exact List.suffix_append _ _

theorem Readable.start (hf : Readable f) (rest : List UInt8) :
    (State.start f rest).Behind f rest 0 where
  le := Nat.zero_le _
  stands := .start rest hf.wellFormed hf.fits (by rw [Nat.add_zero]; exact hf.count_lt)
  unread_le := Nat.le_refl _

theorem State.Behind.run {k : Nat} (h : s.Behind f rest k) (hf : Readable f)
    {body : Reading .list (Returned β)} (htotal : body.Total) :
    exists (r : Except Error (Returned β)) (g : Forest) (list : Handle) (unread : List UInt8),
      body.walk (f.drop k) = some (r, g) ∧
        body.act.parse s.list s.unread = some ((r, list), unread) ∧
        Stands g 0 rest list unread ∧ unread.length ≤ (f.bytes ++ rest).length := by
  rcases Read.Total.walk htotal (hf.known.drop k) with ⟨⟨r, g⟩, hwalk, _⟩
  have hfuel : (f.bytes ++ rest).length < rest.length + Machine.fuel := by
    rw [List.length_append, Nat.add_comm]
    exact Nat.add_lt_add_left hf.bytes_lt _
  rcases Read.run_walk body h.stands h.unread_le hfuel hwalk with ⟨list, unread, hrun, hat, hle⟩
  exact ⟨r, g, list, unread, hwalk, hrun, hat, hle⟩

omit [Machine] in
theorem at_nextTy (id : Nat) : (nextTy fields id).At fields f (id + 1) := by
  unfold nextTy
  split
  · rfl
  · trivial

omit [Machine] in
theorem ParseField.Reads.accepts {ty : ParseField} {absent b : β}
    {child : (kind : Kind) -> Read kind β} {el : Element} (h : ty.Reads absent child el b) :
    ty.Reads () (fun _ => .done ()) el () := by
  cases h with
  | string hel hwalk => exact .string hel rfl
  | list hel hwalk => exact .list hel rfl
  | choice hel hlen hwalk => exact .choice hel hlen rfl
  | item hel hwalk => exact .item hel rfl
  | absent => exact .absent

/-- What a method leaves of the elements in front of it, and what it returns. -/
structure Answers (fields : List FieldType) (f : Forest) (place : Place) (call : Call β)
    (next : Place) (r : Except Error (Returned β)) (g : Forest) (ty : FieldType) (k : Nat) :
    Prop where
  field : fields[place.target call]? = some ty
  le : k ≤ f.count
  left : g = f.drop k
  next_at : forall a, r = .ok a -> next.At fields f k
  reads : forall a, r = .ok a -> ty.Reads call (f.element (place.target call)) a
  beyond : f.count ≤ place.target call -> ty.Beyond f.count (place.target call) call r

omit [Machine] in
theorem Answers.of_error {place next : Place} {call : Call β} {e : Error} {g : Forest}
    {ty : FieldType} {k : Nat} (hty : fields[place.target call]? = some ty) (hk : k ≤ f.count)
    (hg : g = f.drop k)
    (hbeyond : f.count ≤ place.target call ->
      ty.Beyond f.count (place.target call) call (.error e)) :
    Answers fields f place call next (.error e) g ty k where
  field := hty
  le := hk
  left := hg
  next_at := by
    intro a ha
    cases ha
  reads := by
    intro a ha
    cases ha
  beyond := hbeyond

theorem answers_primitive {i id : Nat} {ty : RustPrimitive} {optional : Bool}
    (hf : Readable f) (hi : i ≤ f.count) (hid : i ≤ id)
    (hty : fields[id]? = some (.primitive ty optional)) {r : Except Error (Returned β)} {g : Forest}
    (hwalk : (renderSequenceFieldfn fields (.primitive ty optional) id (id - i)).body.walk
      (f.drop i) = some (r, g)) :
    exists k, Answers fields f (.field i) (.field id) (nextTy fields id) r g
      (.primitive ty optional) k := by
  rcases takesOne_field (takesOne_smlfn ty optional) hf.wellFormed hf.known hi hid hwalk with
    ⟨_, rfl, k, hk, hg⟩ | ⟨el, hel, hg, hspec⟩
  · refine ⟨k, .of_error hty hk hg fun _ => ?_⟩
    rw [ite_self]
    rfl
  · have hlt := Forest.lt_of_element hel
    refine ⟨id + 1, hty, hlt, hg, fun _ _ => at_nextTy id, ?_, ?_⟩
    · intro a ha
      change FieldType.Reads _ _ (f.element id) a
      rw [hel]
      exact .primitive (hspec a ha)
    · intro hbeyond
      exact absurd hlt (Nat.not_lt.mpr hbeyond)

theorem answers_endOfSmlMsg {i id : Nat} (hf : Readable f) (hi : i ≤ f.count) (hid : i ≤ id)
    (hty : fields[id]? = some .endOfSmlMsg) {r : Except Error (Returned β)} {g : Forest}
    (hwalk : (renderSequenceFieldfn fields .endOfSmlMsg id (id - i)).body.walk (f.drop i) =
      some (r, g)) :
    exists k, Answers fields f (.field i) (.field id) .unit r g .endOfSmlMsg k := by
  have hend : TakesOne .unexpectedValue Reading.nextEnd fun _ _ => False := takesOne_nextEnd
  rcases takesOne_field (hend.bind_pure fun _ => Returned.unit) hf.wellFormed hf.known hi hid hwalk with
    ⟨_, rfl, k, hk, hg⟩ | ⟨el, hel, hg, hspec⟩
  · exact ⟨k, .of_error hty hk hg fun _ => rfl⟩
  · have hlt := Forest.lt_of_element hel
    cases r with
    | error e => exact ⟨id + 1, .of_error hty hlt hg fun hle => absurd hlt (Nat.not_lt.mpr hle)⟩
    | ok a =>
        rcases hspec a rfl with ⟨_, hfalse, _⟩
        exact hfalse.elim

omit [Machine] in
theorem answers_accessor {i id : Nat} {ty : ParseField} (hi : i ≤ f.count) (hid : i ≤ id)
    (hty : fields[id]? = some (.complex ty)) {r : Except Error (Returned β)} {g : Forest}
    (hwalk : (renderSequenceFieldfn fields (.complex ty) id (id - i)).body.walk (f.drop i) =
      some (r, g)) :
    exists k, Answers fields f (.field i) (.field id) (.complex id false) r g (.complex ty) k := by
  have hcount := Forest.count_drop i f
  by_cases hbeyond : (f.drop i).count < id - i
  · cases (walk_field_beyond hbeyond).symm.trans hwalk
    refine ⟨i, .of_error hty hi rfl ?_⟩
    intro _
    have hne : id ≠ f.count := by lia
    change Except.error Error.endOfList = if id = f.count then _ else _
    rw [if_neg hne]
  · have hskip : i + (id - i) = id := Nat.add_sub_cancel' hid
    cases (walk_field_within (Nat.le_of_not_lt hbeyond)).symm.trans hwalk
    have hle : id ≤ f.count := by lia
    refine ⟨id, hty, hle, ?_, fun _ _ => rfl, ?_, ?_⟩
    · rw [Forest.drop_drop, hskip]
    · intro a ha
      cases ha
      exact .accessor
    · intro hge
      change Except.ok Returned.unit = if id = f.count then _ else _
      rw [if_pos (Nat.le_antisymm hle hge)]

theorem answers_takesOne {id : Nat} {call : Call β} {next : Place} {ty : ParseField}
    {body : Reading .list (Returned β)} {spec : Element -> Returned β -> Prop}
    (htakes : TakesOne .endOfList body spec) (hf : Readable f) (hid : id ≤ f.count)
    (hcall : (Place.complex id false).target call = id)
    (hty : fields[id]? = some (.complex ty))
    (hspec : forall el a, f.element id = some el -> spec el a ->
      next.At fields f (id + 1) ∧ (FieldType.complex ty).Reads call (some el) a)
    (hbeyond : (FieldType.complex ty).Beyond f.count id call (.error .endOfList))
    {r : Except Error (Returned β)} {g : Forest} (hwalk : body.walk (f.drop id) = some (r, g)) :
    exists k, Answers fields f (.complex id false) call next r g (.complex ty) k := by
  rcases htakes _ _ _ (hf.wellFormed.drop id) (hf.known.drop id) hwalk with
    ⟨_, rfl, hg⟩ | ⟨el, hel, hg, ha⟩
  · refine ⟨id, .of_error ?_ hid hg ?_⟩
    · rw [hcall]
      exact hty
    · intro _
      rw [hcall]
      exact hbeyond
  · have hlt := Forest.lt_of_element hel
    rw [Forest.drop_drop] at hg
    refine ⟨id + 1, ?_, hlt, hg, fun a hr => (hspec el a hel (ha a hr)).1, ?_, ?_⟩
    · rw [hcall]
      exact hty
    · intro a hr
      rw [hcall, show f.element id = some el from hel]
      exact (hspec el a hel (ha a hr)).2
    · intro hle
      rw [hcall] at hle
      exact absurd hlt (Nat.not_lt.mpr hle)

theorem Runs.answers {place : Place} {call : Call β} {m : Method β}
    (h : Runs fields place call m) (hf : Readable f)
    (hsingle : FieldType.complex .unimplemented ∉ fields) {k : Nat} (hk : k ≤ f.count)
    (hat : place.At fields f k) {r : Except Error (Returned β)} {g : Forest}
    (hwalk : m.body.walk (f.drop k) = some (r, g)) :
    exists ty k', Answers fields f place call m.next r g ty k' := by
  cases h with
  | @field i id ty hid hty =>
      change k = i at hat
      subst hat
      cases ty with
      | primitive ty optional =>
          exact ⟨_, answers_primitive hf hk hid hty hwalk⟩
      | endOfSmlMsg => exact ⟨_, answers_endOfSmlMsg hf hk hid hty hwalk⟩
      | complex ty => exact ⟨_, answers_accessor hk hid hty hwalk⟩
  | @parse id parsed ty absent child total hty =>
      have hne : ty ≠ .unimplemented := by
        intro heq
        rw [heq] at hty
        exact hsingle (List.mem_of_getElem? hty)
      cases parsed with
      | true =>
          rcases hat with ⟨rfl, hel⟩
          cases hwalk
          refine ⟨_, id + 1, .of_error hty hk rfl ?_⟩
          intro hle
          exact absurd hk (Nat.not_le.mpr (Nat.lt_succ_of_le hle))
      | false =>
          change k = id at hat
          subst hat
          refine ⟨_, answers_takesOne ((takesOne_parseField hne absent child).bind_pure _) hf hk rfl
            hty ?_ ?_ hwalk⟩
          · rintro el _ hel ⟨b, hreads, rfl⟩
            exact ⟨⟨rfl, ty, el, hty, hel, hreads.accepts⟩, .parse hreads⟩
          · rfl
  | @finish id parsed ty hty =>
      have hne : ty ≠ .unimplemented := by
        intro heq
        rw [heq] at hty
        exact hsingle (List.mem_of_getElem? hty)
      cases parsed with
      | true =>
          rcases hat with ⟨rfl, ty', el, hty', hel, haccepts⟩
          cases hwalk
          cases hty.symm.trans hty'
          have hlt := Forest.lt_of_element hel
          refine ⟨_, id + 1, hty, hk, rfl, fun _ _ => at_nextTy id, ?_, ?_⟩
          · intro a ha
            cases ha
            change FieldType.Reads _ _ (f.element id) _
            rw [hel]
            exact .finish haccepts
          · intro hle
            exact absurd hlt (Nat.not_lt.mpr hle)
      | false =>
          change k = id at hat
          subst hat
          refine ⟨_, answers_takesOne ((takesOne_parseField hne () fun _ => .done ()).bind_pure _)
            hf hk rfl hty ?_ ?_ hwalk⟩
          · rintro el _ hel ⟨b, hreads, rfl⟩
            exact ⟨at_nextTy k, .finish hreads⟩
          · rfl

theorem State.Behind.call {k : Nat} (h : s.Behind f rest k) (hat : s.place.At fields f k)
    (hf : Readable f) (hsingle : FieldType.complex .unimplemented ∉ fields) {call : Call β}
    {m : Method β} (hruns : Runs fields s.place call m) :
    exists (r : Except Error (Returned β)) (g : Forest) (ty : FieldType) (k' : Nat)
      (list : Handle) (unread : List UInt8),
      m.body.act.parse s.list s.unread = some ((r, list), unread) ∧
        Answers fields f s.place call m.next r g ty k' ∧
        State.Behind f rest k' { place := m.next, list := list, unread := unread } := by
  rcases h.run hf hruns.total with ⟨r, g, list, unread, hwalk, hrun, hstands, hle⟩
  rcases hruns.answers hf hsingle h.le hat hwalk with ⟨ty, k', hanswers⟩
  refine ⟨r, g, ty, k', list, unread, hrun, hanswers, hanswers.le, ?_, hle⟩
  rw [← hanswers.left]
  exact hstands

theorem Chain.follows (hf : Readable f) (hsingle : FieldType.complex .unimplemented ∉ fields)
    {events : List (Event β)} (h : Chain fields (State.start f rest) events s) :
    (forall e, e ∈ events -> exists ty, fields[e.id]? = some ty ∧
        ty.Reads e.call (f.element e.id) e.returned) ∧
      exists k, s.Behind f rest k ∧ s.place.At fields f k := by
  induction h with
  | nil =>
      constructor
      · intro e he
        cases he
      · exact ⟨0, hf.start rest, rfl⟩
  | @call events s call m r list unread h hmethod hrun ih =>
      rcases ih with ⟨hevents, k, hbehind, hat⟩
      rcases hbehind.call hat hf hsingle (method_runs hmethod) with
        ⟨r', g, ty, k', list', unread', hrun', hanswers, hbehind'⟩
      cases hrun.symm.trans hrun'
      constructor
      · intro e he
        rcases List.mem_append.mp he with he | he
        · exact hevents e he
        · cases List.mem_singleton.mp he
          exact ⟨ty, hanswers.field, hanswers.reads r rfl⟩
      · exact ⟨k', hbehind', hanswers.next_at r rfl⟩

/--
Whatever chain of calls a caller makes on a generated sequence, every call reads
the element whose position is the number of its field, a structure is reached
when exactly the elements in front of its field are taken or scheduled, and a
call for a field beyond the elements fails when the field is parsed.
-/
theorem fields_read_elements {schema : Schema} {toCase : String -> String} {seq : List Field}
    (hfields : seq.mapM (schema.fieldType toCase) = some fields)
    (hseq : forall field, field ∈ seq -> schema.Implemented toCase field) (hf : Readable f)
    {events : List (Event β)} (h : Chain fields (State.start f rest) events s) :
    (forall e, e ∈ events -> exists ty, fields[e.id]? = some ty ∧
        ty.Reads e.call (f.element e.id) e.returned) ∧
      (exists k, s.Behind f rest k ∧ s.place.At fields f k) ∧
      forall (call : Call β) (m : Method β), method fields s.place call = some m ->
        f.count ≤ s.place.target call ->
        exists (ty : FieldType) (r : Except Error (Returned β)) (list : Handle)
          (unread : List UInt8),
          fields[s.place.target call]? = some ty ∧
            m.body.act.parse s.list s.unread = some ((r, list), unread) ∧
            ty.Beyond f.count (s.place.target call) call r ∧ rest <:+ unread := by
  have hsingle := Schema.unimplemented_notMem hfields hseq
  rcases h.follows hf hsingle with ⟨hevents, k, hbehind, hat⟩
  refine ⟨hevents, ⟨k, hbehind, hat⟩, ?_⟩
  intro call m hmethod hge
  rcases hbehind.call hat hf hsingle (method_runs hmethod) with
    ⟨r, g, ty, k', list, unread, hrun, hanswers, hbehind'⟩
  exact ⟨ty, r, list, unread, hanswers.field, hrun, hanswers.beyond hge, hbehind'.suffix⟩

/-!
## An entry of a list
-/

def entrySchema : Schema where
  types := [("SML_Entry", .sequence [⟨"status", "Unsigned8", true⟩, ⟨"values", "SML_Values", false⟩,
      ⟨"unit", "SML_Unit", false⟩, ⟨"end", "EndOfSmlMsg", false⟩]),
    ("SML_Values", .sequenceOf [("value", "Integer8")])]
  typedefs := [("SML_Unit", "Unsigned8")]

def entrySeq : List Field :=
  [⟨"status", "Unsigned8", true⟩, ⟨"values", "SML_Values", false⟩, ⟨"unit", "SML_Unit", false⟩,
    ⟨"end", "EndOfSmlMsg", false⟩]

def entryFields : List FieldType :=
  [.primitive .u8 true, .complex .list, .primitive .u8 false, .endOfSmlMsg]

def entryElements : Forest :=
  .item [0x01] .string [] (.list [0x72] (.item [0x52] .integer [0x05]
    (.item [0x52] .integer [0x07] .nil)) (.item [0x62] .unsigned [0x1E] .nil))

def readLen (kind : Kind) : Read kind Nat := .len fun n => .done n

def entryState (place : Place) (tlvs len : Nat) (unread : List UInt8) : State where
  place := place
  list := { reader := { remainingBytes := 0, remainingTlvs := tlvs }, len := len }
  unread := unread

theorem Chain.step {s₀ : State} {events : List (Event β)} (h : Chain fields s₀ events s)
    (call : Call β) (r : Returned β) (s' : State) {m : Method β}
    (hmethod : method fields s.place call = some m) (hnext : m.next = s'.place)
    (hrun : m.body.act.parse s.list s.unread = some ((.ok r, s'.list), s'.unread)) :
    Chain fields s₀ (events ++ [{ id := s.place.target call, call := call, returned := r }]) s' := by
  rcases s' with ⟨place, list, unread⟩
  change m.next = place at hnext
  rw [← hnext]
  exact h.call hmethod hrun

omit [Machine] in
theorem chain_entry :
    letI := Machine.word32 32 (Nat.le_refl 32)
    exists events : List (Event Nat),
      events.map Event.returned =
          [.option none, .unit, .read 2, .unit, .value (.unsigned 30)] ∧
        Chain entryFields (State.start entryElements []) events (entryState (.field 3) 0 0 []) := by
  let := Machine.word32 32 (Nat.le_refl 32)
  have h₀ : Chain entryFields (State.start entryElements []) ([] : List (Event Nat))
      (State.start entryElements []) := .nil
  have h₁ := h₀.step (.field 0) (.option none)
    (entryState (.field 1) 0 2 [0x72, 0x52, 0x05, 0x52, 0x07, 0x62, 0x1E]) rfl rfl
    (by decide +kernel)
  have h₂ := h₁.step (.field 1) .unit
    (entryState (.complex 1 false) 0 2 [0x72, 0x52, 0x05, 0x52, 0x07, 0x62, 0x1E]) rfl rfl
    (by decide +kernel)
  have h₃ := h₂.step (.parse 0 readLen fun _ _ => trivial) (.read 2)
    (entryState (.complex 1 true) 2 1 [0x52, 0x05, 0x52, 0x07, 0x62, 0x1E]) rfl rfl
    (by decide +kernel)
  have h₄ := h₃.step .finish .unit
    (entryState (.field 2) 2 1 [0x52, 0x05, 0x52, 0x07, 0x62, 0x1E]) rfl rfl
    (by decide +kernel)
  have h₅ := h₄.step (.field 2) (.value (.unsigned 30)) (entryState (.field 3) 0 0 [])
    rfl rfl (by decide +kernel)
  exact ⟨_, rfl, h₅⟩

omit [Machine] in
/-- What was read are the elements at the positions of the fields. -/
theorem fields_read_elements_entry :
    letI := Machine.word32 32 (Nat.le_refl 32)
    exists events : List (Event Nat),
      events.map Event.returned =
          [.option none, .unit, .read 2, .unit, .value (.unsigned 30)] ∧
        (forall e, e ∈ events -> exists ty, entryFields[e.id]? = some ty ∧
          ty.Reads e.call (entryElements.element e.id) e.returned) ∧
        State.Behind entryElements [] 3 (entryState (.field 3) 0 0 []) := by
  let := Machine.word32 32 (Nat.le_refl 32)
  rcases chain_entry with ⟨events, hreturned, hchain⟩
  have hfields : entrySeq.mapM (entrySchema.fieldType id) = some entryFields := by decide
  have hseq : forall field, field ∈ entrySeq -> entrySchema.Implemented id field := by
    intro field _ t types ht _ heq
    rcases List.mem_cons.mp ht with rfl | ht
    · cases heq
    · cases List.mem_singleton.mp ht
      cases heq
      rfl
  have hf : Readable entryElements :=
    ⟨⟨rfl, by decide, rfl, ⟨rfl, by decide, rfl, by decide, trivial⟩, rfl, by decide, trivial⟩,
      ⟨fun _ => TlvType.noConfusion, ⟨fun _ => TlvType.noConfusion, fun _ => TlvType.noConfusion,
        trivial⟩, fun _ => TlvType.noConfusion, trivial⟩,
      ⟨by decide, trivial, trivial⟩, by decide, by decide⟩
  rcases fields_read_elements hfields hseq hf hchain with ⟨hevents, ⟨k, hbehind, rfl⟩, _⟩
  exact ⟨events, hreturned, hevents, hbehind⟩

omit [Machine] in
/-- An end marker that is missing is reported as an unexpected value. -/
theorem endOfSmlMsg_missing :
    letI := Machine.word32 32 (Nat.le_refl 32)
    exists (events : List (Event Nat)) (m : Method Nat),
      Chain entryFields (State.start entryElements []) events (entryState (.field 3) 0 0 []) ∧
        method entryFields (.field 3) (.field 3) = some m ∧ entryElements.count = 3 ∧
        m.body.act.parse { reader := Reader.new, len := 0 } [] =
          some ((.error .unexpectedValue, { reader := Reader.new, len := 0 }), []) := by
  let := Machine.word32 32 (Nat.le_refl 32)
  rcases chain_entry with ⟨events, _, hchain⟩
  exact ⟨events, _, hchain, rfl, rfl, by decide +kernel⟩

end Build
end Sml
end Smartmeter
