import Smartmeter.Firmware.ValueList
import Smartmeter.Sml.Typed

/-!
# Typed value lists

What the callback makes of a body that is typed as the schema says: it goes over
the entries of the list and stores those that it looks for, up to the first one
that cannot be decoded or stored.
-/

namespace Smartmeter
namespace Firmware

open Foundation
open Sml
open Sml.Tlv (Forest Kind Left Reading)
open Sml.Types

variable [Machine]

/-!
## Entries
-/

def decoded (e : TypedEntry) : Except Error (Option Entry) :=
  if e.objName = [] then .error .noneTlv
  else if 7 < e.objName.length then .ok none
  else if e.value.Empty then .error .unexpectedValue
  else .ok (some { objName := e.objName, scaler := e.scaler.value.getD 0, value := e.value.value })

theorem walk_objName {e : TypedEntry} (hname : e.objName ≠ []) :
    (ListEntry.objName do
      let len ← Reading.len
      if len > 7 then pure none else some <$> Reading.read len).walk e.children =
        some (.ok (if 7 < e.objName.length then none else some e.objName), e.afterName) := by
  have hitem := walk_nextVariant_item (p := e.objName) (fun _ => hname) e.nameHeader e.afterName
    (do
      let len ← Reading.len
      if len > 7 then pure none else some <$> Reading.read len : Reading .string _)
  refine hitem.trans ?_
  by_cases hlong : 7 < e.objName.length
  · have hread : Reading.walk (do
        let len ← Reading.len
        if len > 7 then pure none else some <$> Reading.read len : Reading .string _)
        (Left.ofPayload .string e.objName) = some (.ok none, e.objName) := by
      refine (walk_len _ _).trans ?_
      exact congrArg (fun p : Reading .string _ => p.walk _) (if_pos hlong)
    rw [if_pos hlong]
    exact congrArg (Option.map _) hread
  · have hread : Reading.walk (do
        let len ← Reading.len
        if len > 7 then pure none else some <$> Reading.read len : Reading .string _)
        (Left.ofPayload .string e.objName) = some (.ok (some e.objName), []) := by
      refine (walk_len _ _).trans ?_
      refine (congrArg (fun p : Reading .string _ => p.walk _) (if_neg hlong)).trans ?_
      exact walk_map_ok (walk_read e.objName) some
    rw [if_neg hlong]
    exact congrArg (Option.map _) hread

theorem walk_scaler (e : TypedEntry) :
    ListEntry.scaler.walk e.afterName =
      some (.ok e.scaler.value, e.value.elements e.valueSignature.elements) := by
  have hle : 3 ≤ e.afterName.count := by
    unfold TypedEntry.afterName
    rw [Unread.count_append]
    exact Nat.le_add_right _ _
  refine (Build.walk_field_within hle).trans ?_
  unfold TypedEntry.afterName
  rw [Unread.drop_append]
  exact e.scaler.walk_scaler _

theorem walk_decode (e : TypedEntry) :
    exists left, Entry.decode.walk e.children = some (decoded e, left) := by
  unfold Entry.decode decoded
  by_cases hname : e.objName = []
  · exists e.afterName
    rw [if_pos hname]
    apply walk_bind_error
    unfold TypedEntry.children
    rw [hname]
    exact walk_nextAny_absent _ _ _ _
  · rw [if_neg hname]
    have hobj := walk_objName hname
    by_cases hlong : 7 < e.objName.length
    · rw [if_pos hlong] at hobj ⊢
      exact ⟨_, walk_bind_ok hobj _⟩
    · rw [if_neg hlong] at hobj ⊢
      have hvalue := e.value.walk_value e.valueSignature.elements
      exists e.valueSignature.elements
      refine (walk_bind_ok hobj _).trans ?_
      refine (walk_bind_ok (walk_scaler e) _).trans ?_
      by_cases hempty : e.value.Empty
      · rw [if_pos hempty] at hvalue ⊢
        exact walk_bind_error hvalue _
      · rw [if_neg hempty] at hvalue ⊢
        exact walk_bind_ok hvalue _

/-!
## Lists
-/

namespace MessageCallback

def receive : MessageCallback -> List TypedEntry -> Except Error Unit × MessageCallback
  | self, [] => (.ok (), self)
  | self, e :: es =>
      match decoded e with
      | .error err => (.error err, self)
      | .ok none => receive self es
      | .ok (some entry) =>
          match self.store entry with
          | .error err => (.error err, self)
          | .ok self => receive self es

theorem walk_next (e : TypedEntry) (es : List TypedEntry) :
    (SmlList.next Entry.decode).walk (listElements (e :: es)) =
      some ((decoded e).map some, listElements es) := by
  rcases walk_decode e with ⟨left, hdecode⟩
  have hentry : (Reading.nextVariant .list Entry.decode).walk (listElements (e :: es)) =
      some (decoded e, listElements es) := by
    refine (walk_nextVariant_list _ _ _ _).trans ?_
    exact congrArg (Option.map _) hdecode
  refine (walk_len _ _).trans ?_
  refine (congrArg (fun p : Reading .list _ => p.walk _)
    (if_neg (Nat.succ_ne_zero (listElements es).count))).trans ?_
  cases hdecoded : decoded e with
  | error err =>
      rw [hdecoded] at hentry
      exact walk_bind_error hentry _
  | ok entry =>
      rw [hdecoded] at hentry
      exact walk_bind_ok hentry _

theorem walk_entries {es : List TypedEntry} {n : Nat} (hn : es.length < n)
    (self : MessageCallback) :
    exists left, (entries n self).walk (listElements es) = some (receive self es, left) := by
  induction es generalizing n self with
  | nil =>
      cases n with
      | zero => exact absurd hn (Nat.not_lt_zero _)
      | succ n => exact ⟨_, rfl⟩
  | cons e es ih =>
      cases n with
      | zero => exact absurd hn (Nat.not_lt_zero _)
      | succ n =>
          rw [List.length_cons] at hn
          have hless := Nat.lt_of_succ_lt_succ hn
          have hnext := walk_next e es
          unfold entries receive
          cases hdecoded : decoded e with
          | error err =>
              rw [hdecoded] at hnext
              exact ⟨listElements es, walk_bind_run hnext _⟩
          | ok entry? =>
              rw [hdecoded] at hnext
              cases entry? with
              | none =>
                  rcases ih hless self with ⟨left, hwalk⟩
                  exact ⟨left, (walk_bind_run hnext _).trans hwalk⟩
              | some entry =>
                  cases hstore : self.store entry with
                  | error err =>
                      exists listElements es
                      refine (walk_bind_run hnext _).trans ?_
                      dsimp only [Except.map]
                      rw [hstore]
                      rfl
                  | ok self₁ =>
                      rcases ih hless self₁ with ⟨left, hwalk⟩
                      exists left
                      refine (walk_bind_run hnext _).trans ?_
                      dsimp only [Except.map]
                      rw [hstore]
                      exact hwalk

/-!
## Bodies
-/

theorem walk_valList {r : TypedResponse} (hfuel : r.entries.length < Machine.fuel)
    (self : MessageCallback) :
    (GetListResponse.valList (ExceptT.lift (entries Machine.fuel self))).walk r.children =
      some (.ok (receive self r.entries), r.listSignature.elements) := by
  rcases walk_entries hfuel self with ⟨left, hentries⟩
  have hle : 4 ≤ r.children.count := by
    unfold TypedResponse.children
    rw [Unread.count_append]
    exact Nat.le_add_right _ _
  have hlift : (ExceptT.lift (entries Machine.fuel self) : Reading .list _).walk
      (listElements r.entries) = some (.ok (receive self r.entries), left) := by
    refine (Tlv.Read.walk_bind _ _ _).trans ?_
    rw [hentries]
    rfl
  refine (Build.walk_field_within hle).trans ?_
  unfold TypedResponse.children
  rw [Unread.drop_append]
  refine (walk_nextVariant_list _ _ _ _).trans ?_
  exact congrArg (Option.map _) hlift

def readSequence (self : MessageCallback) (variant : MessageBodyEnum) :
    Reading .list (Except Error Unit × MessageCallback) :=
  match variant with
  | .getListResponse => GetListResponse.valList (ExceptT.lift (entries Machine.fuel self))
  | _ => pure (.ok (), self)

theorem walk_readSequence {variant : MessageBodyEnum} {s : TypedSequence variant}
    (hfuel : s.entries.length < Machine.fuel) (self : MessageCallback) :
    exists left, (readSequence self variant).walk s.children =
      some (.ok (receive self s.entries), left) := by
  cases s with
  | response r => exact ⟨_, walk_valList hfuel self⟩
  | other hvariant children _ =>
      exists children
      cases variant with
      | getListResponse => exact absurd rfl hvariant
      | _ => rfl

theorem walk_messageReceived {b : TypedBody} (hfuel : b.entries.length < Machine.fuel)
    (self : MessageCallback) :
    (messageReceived self).walk b.elements = some (receive self b.entries, Forest.nil) := by
  rcases walk_readSequence hfuel self with ⟨left, hsequence⟩
  have hread := b.walk_read hsequence
  exact walk_bind_run hread _

/-!
## Entries that matter
-/

def Decodable (e : TypedEntry) : Prop :=
  e.objName ≠ [] ∧ (e.objName.length ≤ 7 -> ¬ e.value.Empty)

def entryOf (e : TypedEntry) : Option Entry :=
  if 7 < e.objName.length then none
  else some { objName := e.objName, scaler := e.scaler.value.getD 0, value := e.value.value }

theorem decoded_of_decodable {e : TypedEntry} (h : Decodable e) : decoded e = .ok (entryOf e) := by
  unfold decoded entryOf
  rw [if_neg h.1]
  by_cases hlong : 7 < e.objName.length
  · rw [if_pos hlong, if_pos hlong]
  · rw [if_neg hlong, if_neg hlong, if_neg (h.2 (Nat.le_of_not_lt hlong))]

theorem decodable_of_decoded {e : TypedEntry} {x : Option Entry} (h : decoded e = .ok x) :
    Decodable e := by
  unfold decoded at h
  by_cases hname : e.objName = []
  · rw [if_pos hname] at h
    cases h
  · constructor
    · exact hname
    · intro hle hempty
      rw [if_neg hname, if_neg (Nat.not_lt.mpr hle), if_pos hempty] at h
      cases h

theorem receive_eq_ok {es : List TypedEntry} {self self' : MessageCallback} :
    receive self es = (.ok (), self') <->
      (forall e, e ∈ es -> Decodable e) ∧ (es.filterMap entryOf).foldlM store self = .ok self' := by
  induction es generalizing self with
  | nil =>
      constructor
      · intro h
        cases h
        exact ⟨fun e he => absurd he List.not_mem_nil, rfl⟩
      · intro h
        cases h.2
        rfl
  | cons e es ih =>
      unfold receive
      rw [List.forall_mem_cons, List.filterMap_cons]
      cases hdecoded : decoded e with
      | error err =>
          constructor
          · intro h
            cases h
          · intro h
            rw [decoded_of_decodable h.1.1] at hdecoded
            cases hdecoded
      | ok x =>
          have he := decodable_of_decoded hdecoded
          rw [decoded_of_decodable he] at hdecoded
          injection hdecoded with hx
          rw [hx]
          cases x with
          | none =>
              dsimp only
              rw [ih]
              exact ⟨fun h => ⟨⟨he, h.1⟩, h.2⟩, fun h => ⟨h.1.2, h.2⟩⟩
          | some entry =>
              dsimp only
              rw [List.foldlM_cons, bind_eq_ok]
              constructor
              · intro h
                cases hstore : self.store entry with
                | error err =>
                    rw [hstore] at h
                    cases h
                | ok self₁ =>
                    rw [hstore] at h
                    rcases ih.mp h with ⟨hes, hfold⟩
                    exact ⟨⟨he, hes⟩, self₁, rfl, hfold⟩
              · intro h
                rcases h with ⟨⟨_, hes⟩, self₁, hstore, hfold⟩
                rw [hstore]
                exact ih.mpr ⟨hes, hfold⟩

def Relevant (e : TypedEntry) : Prop :=
  e.objName = obisActivePower ∨ e.objName = obisActiveEnergy

instance (e : TypedEntry) : Decidable (Relevant e) := inferInstanceAs (Decidable (_ ∨ _))

def relevant (es : List TypedEntry) : List TypedEntry := es.filter fun e => Relevant e

theorem store_irrelevant {e : TypedEntry} (h : ¬ Relevant e) (self : MessageCallback) :
    self.store { objName := e.objName, scaler := e.scaler.value.getD 0, value := e.value.value } =
      .ok self := by
  unfold store
  rw [if_neg fun hpower => h (Or.inl hpower), if_neg fun henergy => h (Or.inr henergy)]
  rfl

theorem receive_relevant {es : List TypedEntry}
    (h : forall e, e ∈ es -> ¬ Relevant e -> Decodable e) (self : MessageCallback) :
    receive self es = receive self (relevant es) := by
  induction es generalizing self with
  | nil => rfl
  | cons e es ih =>
      rw [List.forall_mem_cons] at h
      by_cases he : Relevant e
      · have hcons : relevant (e :: es) = e :: relevant es :=
          List.filter_cons_of_pos (decide_eq_true he)
        rw [hcons]
        unfold receive
        cases decoded e with
        | error err => rfl
        | ok x =>
            cases x with
            | none => exact ih h.2 self
            | some entry =>
                dsimp only
                cases self.store entry with
                | error err => rfl
                | ok self₁ => exact ih h.2 self₁
      · have hcons : relevant (e :: es) = relevant es :=
          List.filter_cons_of_neg (by rw [decide_eq_true_eq]; exact he)
        rw [hcons, ← ih h.2]
        have hpass : receive self (e :: es) = receive self es := by
          rw [receive, decoded_of_decodable (h.1 he)]
          unfold entryOf
          by_cases hlong : 7 < e.objName.length
          · rw [if_pos hlong]
          · rw [if_neg hlong]
            dsimp only
            rw [store_irrelevant he]
        exact hpass

theorem decodable_of_receive {es : List TypedEntry} {self self' : MessageCallback}
    (h : receive self es = (.ok (), self')) : forall e, e ∈ es -> Decodable e :=
  (receive_eq_ok.mp h).1

/-!
## Bodies in front of other bytes
-/

/-- The result for a body, behind which the reader skips to the bytes that follow. -/
def Answers (self : MessageCallback) (b : TypedBody) (rest : List UInt8)
    (res : Except Error Unit × MessageCallback) : Prop :=
  exists item bs,
    ((messageReceived self).run { reader := Tlv.Reader.new, len := 2 }).parse
      (b.elements.bytes ++ rest) = some ((res, item), bs) ∧
    Tlv.Reader.skipNow.parse (item.drop .list) bs = some ((.ok (), Tlv.Reader.new), rest)

theorem answers_receive {b : TypedBody} (hfits : b.elements.Fits 0)
    (hfuel : b.elements.bytes.length < Machine.fuel) (self : MessageCallback)
    (rest : List UInt8) : Answers self b rest (receive self b.entries) := by
  have hentries := Nat.lt_of_le_of_lt b.length_entries_le hfuel
  have hcount : b.elements.count = 2 := rfl
  have hsize : b.elements.count + 0 < Usize.size := by
    rw [hcount]
    exact Nat.lt_of_lt_of_le (by decide) Usize.pow_le_size
  have hstart := Tlv.Stands.start rest b.readable.1 hfits hsize
  have hlimit : (b.elements.bytes ++ rest).length < rest.length + Machine.fuel := by
    rw [List.length_append]
    lia
  rcases (messageReceived self).run_walk hstart (Nat.le_refl _) hlimit
    (walk_messageReceived hentries self) with ⟨item, bs, hparse, hat, hle⟩
  have hdrop : Tlv.Stands Forest.nil 0 rest { reader := item.drop .list, len := 0 } bs := by
    have hleft : Tlv.Stands Forest.nil (Forest.nil.count + 0) (Forest.nil.bytes ++ rest) item bs :=
      hat
    exact hleft.drop trivial trivial
  exact ⟨item, bs, hparse, hdrop.skipNow (Nat.lt_of_le_of_lt hle hlimit)⟩

theorem Answers.unique {self : MessageCallback} {b : TypedBody} {rest : List UInt8}
    {res res' : Except Error Unit × MessageCallback} (h : Answers self b rest res)
    (h' : Answers self b rest res') : res = res' := by
  rcases h with ⟨_, _, hparse, _⟩
  rcases h' with ⟨_, _, hparse', _⟩
  rw [hparse] at hparse'
  injection hparse' with hparse'
  exact congrArg (fun x => x.1.1) hparse'

/--
Entries with other names do not disturb the reading of a body as long as they
can be decoded; if one of them cannot, the body is not received well.
-/
theorem answers_relevant {b : TypedBody} (hfits : b.elements.Fits 0)
    (hfuel : b.elements.bytes.length < Machine.fuel) (self : MessageCallback)
    (rest : List UInt8) :
    ((forall e, e ∈ b.entries -> ¬ Relevant e -> Decodable e) ->
        Answers self b rest (receive self (relevant b.entries))) ∧
      forall self', Answers self b rest (.ok (), self') <->
        (forall e, e ∈ b.entries -> Decodable e) ∧
          receive self (relevant b.entries) = (.ok (), self') := by
  have hanswers := answers_receive hfits hfuel self rest
  constructor
  · intro h
    rw [← receive_relevant h]
    exact hanswers
  · intro self'
    constructor
    · intro h
      have hreceive := hanswers.unique h
      have hall := decodable_of_receive hreceive
      rw [receive_relevant fun e he _ => hall e he] at hreceive
      exact ⟨hall, hreceive⟩
    · intro h
      rcases h with ⟨hall, hreceive⟩
      rw [receive_relevant fun e he _ => hall e he, hreceive] at hanswers
      exact hanswers

end MessageCallback

/-!
## A list of three entries
-/

def emptyOctets : Nat -> Tlv.Forest
  | 0 => .nil
  | n + 1 => .item [0x01] .string [] (emptyOctets n)

def unreadOctets (n : Nat) : Unread n where
  elements := emptyOctets n
  count := by
    induction n with
    | zero => rfl
    | succ n ih => exact congrArg Nat.succ ih
  wellFormed := by
    induction n with
    | zero => trivial
    | succ n ih => exact ⟨Tlv.decodeHeader_single (by decide), by decide, ih⟩
  known := by
    induction n with
    | zero => trivial
    | succ n ih => exact ⟨fun _ => TlvType.noConfusion, ih⟩

def sampleEntry (objName : List UInt8) (hname : objName.length = 6) (byte : UInt8) :
    TypedEntry where
  header := [0x77]
  nameHeader := [0x07]
  objName := objName
  status := unreadOctets 3
  scaler := .absent [0x01] (Tlv.decodeHeader_single (by decide))
  value := .primitive
    { kind := .unsigned
      header := [0x62]
      payload := [byte]
      header_eq := Tlv.decodeHeader_single (by decide)
      variant := ⟨Nat.le_refl 1, Nat.le_add_left 1 7⟩ }
  valueSignature := unreadOctets 1
  header_eq := Tlv.decodeHeader_single (by decide)
  nameHeader_eq := by
    rw [hname]
    exact Tlv.decodeHeader_single (by decide)

def obisOther : List UInt8 := [0x01, 0x00, 0x02, 0x08, 0x00, 0xFF]

/-- A response whose list has the two entries and another one between them. -/
def sampleBody (power energy : UInt8) : TypedBody where
  tagHeader := [0x63]
  tag := [0x07, 0x01]
  header := [0x77]
  variant := .getListResponse
  sequence := .response
    { clientId := unreadOctets 4
      listHeader := [0x73]
      entries :=
        [sampleEntry obisActivePower rfl power, sampleEntry obisOther rfl 1,
          sampleEntry obisActiveEnergy rfl energy]
      listSignature := unreadOctets 2
      listHeader_eq := Tlv.decodeHeader_single (by decide) }
  tag_length := by decide
  variant_eq := by decide
  tagHeader_eq := Tlv.decodeHeader_single (by decide)
  header_eq := by
    change Tlv.decodeHeader [0x77] = some (.ok (.list, 7), [])
    exact Tlv.decodeHeader_single (by decide)

theorem decodable_sample (power energy : UInt8) (e : TypedEntry)
    (h : e ∈ (sampleBody power energy).entries) : MessageCallback.Decodable e := by
  have hentry : forall (objName : List UInt8) (hname : objName.length = 6) (byte : UInt8),
      MessageCallback.Decodable (sampleEntry objName hname byte) := by
    intro objName hname byte
    constructor
    · intro hnil
      change objName = [] at hnil
      rw [hnil] at hname
      cases hname
    · intro _ hempty
      cases hempty.1
  change e ∈ [sampleEntry obisActivePower rfl power, sampleEntry obisOther rfl 1,
    sampleEntry obisActiveEnergy rfl energy] at h
  revert e
  rw [List.forall_mem_cons, List.forall_mem_cons, List.forall_mem_singleton]
  exact ⟨hentry _ _ _, hentry _ _ _, hentry _ _ _⟩

omit [Machine] in
/-- The entry between the two does not matter. -/
theorem answers_relevant_sample :
    letI := Machine.word32 128 (by decide)
    MessageCallback.Answers MessageCallback.new (sampleBody 5 7) [0x63] (.ok (),
      { activePower := some { scaler := 0, value := 5 },
        activeEnergy := some { scaler := 0, value := 7 } }) := by
  let := Machine.word32 128 (by decide)
  have hlength : (sampleBody 5 7).elements.bytes.length < Machine.fuel := by decide +kernel
  have hfits : (sampleBody 5 7).elements.Fits 0 :=
    fits_of_length (sampleBody 5 7).readable.1 (Nat.lt_trans hlength (by decide))
  have hiff := (MessageCallback.answers_relevant hfits hlength MessageCallback.new [0x63]).2
  apply (hiff _).mpr
  constructor
  · exact decodable_sample 5 7
  · decide +kernel

end Firmware
end Smartmeter
