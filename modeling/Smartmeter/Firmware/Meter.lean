import Smartmeter.Firmware.Told
import Smartmeter.Firmware.TypedList
import Smartmeter.Sml.Leaves

/-!
# From the meter to C

A meter sends frames of typed messages.  When the entries of a frame can be
decoded, C is told the two values that the lists of the frame hold, once for
each frame that holds both, and nothing else.
-/

namespace Smartmeter
namespace Firmware

open Foundation
open Sml
open Sml.Frame (Sent encode)
open Sml.Tlv (decodeHeader)
open Sml.Types

variable {δ : Type} [Digest δ] [Machine]

/-!
## Messages
-/

structure TypedMessage (δ : Type) [Digest δ] where
  header : List UInt8
  front : Front
  body : TypedBody
  back : Back
  header_list : decodeHeader header = some (.ok (.list, 6), [])
  front_shape : front.Shape 2
  back_shape : back.Shape
  crc : (Digest.checksum δ (header ++ (front.bytes ++ body.elements.bytes))).toNat =
    back.c0.toNat + 256 * back.c1.toNat

namespace TypedMessage

def parts (m : TypedMessage δ) : Parts :=
  { skipped := [], header := m.header, more := 0, front := m.front, body := m.body.elements.bytes,
    back := m.back }

theorem shape (m : TypedMessage δ) : m.parts.Shape 0 :=
  ⟨.nil, m.header_list, m.front_shape, m.back_shape⟩

theorem verdict (m : TypedMessage δ) :
    m.parts.back.verdict (Digest.checksum δ m.parts.covered) = .ok () :=
  Back.verdict_eq_ok.mpr m.crc

theorem length_body_le (m : TypedMessage δ) :
    m.body.elements.bytes.length ≤ m.parts.bytes.length := by
  simp only [Parts.bytes, Parts.covered, parts, List.length_append]
  lia

end TypedMessage

theorem chain_typed (ms : List (TypedMessage δ)) : Chain 0 (ms.map TypedMessage.parts) := by
  induction ms with
  | nil => trivial
  | cons m ms ih => exact ⟨m.shape, ih⟩

theorem verdict_typed (ms : List (TypedMessage δ)) :
    Sml.verdict δ (ms.map TypedMessage.parts) = .ok () := by
  rw [verdict_eq_ok, List.forall_mem_map]
  exact fun m _ => m.verdict

def entriesOf (ms : List (TypedMessage δ)) : List Entry :=
  ms.flatMap fun m => m.body.entries.filterMap MessageCallback.entryOf

theorem leaves_typed {ms : List (TypedMessage δ)} {self self' : MessageCallback}
    (hsize : forall m, m ∈ ms -> m.body.elements.bytes.length < Usize.size ∧
      m.body.elements.bytes.length < Machine.fuel)
    (hdecodable : forall m, m ∈ ms -> forall e, e ∈ m.body.entries -> MessageCallback.Decodable e)
    (hstore : (entriesOf ms).foldlM MessageCallback.store self = .ok self') :
    Leaves δ MessageCallback.callback self (ms.map TypedMessage.parts) self' := by
  induction ms generalizing self with
  | nil =>
      cases hstore
      rfl
  | cons m ms ih =>
      rw [List.forall_mem_cons] at hsize hdecodable
      rw [entriesOf, List.flatMap_cons, List.foldlM_append, MessageCallback.bind_eq_ok] at hstore
      rcases hstore with ⟨self₁, hfirst, hrest⟩
      exists self₁
      constructor
      · have hreceive := MessageCallback.receive_eq_ok.mpr ⟨hdecodable.1, hfirst⟩
        have hentries := Nat.lt_of_le_of_lt m.body.length_entries_le hsize.1.2
        have hwalk := MessageCallback.walk_messageReceived hentries self
        rw [hreceive] at hwalk
        exact passes_of_walk rfl m.body.readable.1 (fits_of_length m.body.readable.1 hsize.1.1) hwalk
      · exact ih hsize.2 hdecodable.2 hrest

/-!
## Frames
-/

/-- Bytes without an escape byte, and a frame behind them with what its lists hold. -/
structure Transmission (δ : Type) [Digest δ] where
  junk : List UInt8
  messages : List (TypedMessage δ)
  power : Option Value
  energy : Option Value
  junk_ne : forall b, b ∈ junk -> b ≠ 0x1B
  messages_ne_nil : messages ≠ []
  decodable : forall m, m ∈ messages -> forall e, e ∈ m.body.entries -> MessageCallback.Decodable e
  power_found : Found obisActivePower (entriesOf messages) power
  energy_found : Found obisActiveEnergy (entriesOf messages) energy

namespace Transmission

def payload (f : Transmission δ) : List UInt8 := joined (f.messages.map TypedMessage.parts)

def bytes (f : Transmission δ) : List UInt8 := f.junk ++ encode δ f.payload

theorem length_payload_le (f : Transmission δ) : f.payload.length ≤ f.bytes.length := by
  have hle := payload_length_le (Sent.of δ f.payload) []
  rw [Sent.of_payload, List.append_nil] at hle
  rw [bytes, Sent.encode_eq, List.length_append, List.length_append]
  lia

theorem length_message_le {f : Transmission δ} {m : TypedMessage δ} (hm : m ∈ f.messages) :
    m.body.elements.bytes.length ≤ f.bytes.length := by
  have hjoined : forall ms : List (TypedMessage δ), m ∈ ms ->
      m.body.elements.bytes.length ≤ (joined (ms.map TypedMessage.parts)).length := by
    intro ms hm
    induction ms with
    | nil => exact absurd hm List.not_mem_nil
    | cons m' ms ih =>
        rw [List.map_cons, joined, List.flatMap_cons, List.length_append]
        rcases List.mem_cons.mp hm with hm | hm
        · rw [hm]
          exact Nat.le_add_right_of_le m'.length_body_le
        · exact Nat.le_add_left_of_le (ih hm)
  exact Nat.le_trans (hjoined f.messages hm) f.length_payload_le

end Transmission

def transmitted (frames : List (Transmission δ)) (tail : List UInt8) : List UInt8 :=
  frames.flatMap Transmission.bytes ++ tail

def calls : List (Transmission δ) -> List UInt8 -> List Told
  | [], _ => []
  | f :: frames, tail =>
      (.frameFinished true, transmitted frames tail) ::
        (report f.power f.energy).map (fun data => (.function data, transmitted frames tail)) ++
          calls frames tail

omit [Machine] in
theorem told_before_end {mid : List (Sml.Entry CallbackData)}
    (h : forall e, e ∈ mid -> e.mark = .call .frameStart ∨ e.mark.Inner) :
    mid.filterMap told = [] := by
  rw [List.filterMap_eq_nil_iff]
  intro e he
  rcases h e he with hstart | hinner
  · unfold told
    rw [hstart]
  · exact List.filterMap_eq_nil_iff.mp (told_inner
      (List.forall_mem_singleton.mpr hinner)) e List.mem_cons_self

theorem taskLoop_transmission {f : Transmission δ} (self : MessageCallback)
    {t : Sml.Stream δ CallbackData} {behind : List UInt8}
    (hunread : t.unread = f.bytes ++ behind) (hfuel : t.unread.length < Machine.fuel)
    (hsize : t.unread.length < Usize.size) :
    exists self' t', (taskLoop MessageCallback.callback () self).run Stream.handler t =
        .done (.ok (.inl ()), self') t' ∧ t'.unread = behind ∧
      t'.log.filterMap told = t.log.filterMap told ++ (.frameFinished true, behind) ::
        (report f.power f.energy).map (fun data => (.function data, behind)) := by
  let found : MessageCallback := { activePower := f.power, activeEnergy := f.energy }
  have hstore : (entriesOf f.messages).foldlM MessageCallback.store MessageCallback.new =
      .ok found := MessageCallback.foldlM_store.mpr ⟨f.power_found, f.energy_found⟩
  have hbytes : forall m, m ∈ f.messages -> m.body.elements.bytes.length < Usize.size ∧
      m.body.elements.bytes.length < Machine.fuel := by
    intro m hm
    have hle := Transmission.length_message_le hm
    rw [hunread, List.length_append] at hfuel hsize
    constructor <;> lia
  have hleaves := leaves_typed hbytes f.decodable hstore
  have hne : f.messages.map TypedMessage.parts ≠ [] :=
    fun hnil => f.messages_ne_nil (List.map_eq_nil_iff.mp hnil)
  rcases taskLoop_leaves f.junk_ne hne rfl
    (chain_typed f.messages) (verdict_typed f.messages) hleaves hunread hfuel with
    ⟨t₁, mid, hrun, hbehind, hlog, hmid⟩
  refine ⟨_, _, hrun, ?_, ?_⟩
  · rw [Stream.tell_unread]
    exact hbehind
  · rw [told_tell, told_frameFinished, hlog, List.filterMap_append, told_before_end hmid,
      List.append_nil, Stream.observe_unread, hbehind, List.append_assoc]
    change _ ++ ([_] ++ (MessageCallback.frameFinished true found).2.map _) = _
    rw [frameFinished_report]
    rfl

theorem task_transmitted {frames : List (Transmission δ)} {tail : List UInt8}
    (htail : forall b, b ∈ tail -> b ≠ 0x1B) {k : Nat} (hk : frames.length < k)
    (self : MessageCallback) {t : Sml.Stream δ CallbackData}
    (hunread : t.unread = transmitted frames tail) (hfuel : t.unread.length < Machine.fuel)
    (hsize : t.unread.length < Usize.size) :
    exists t', (Act.iterate k (taskLoop MessageCallback.callback) () self).run Stream.handler t =
        .blocked t' ∧ t'.log.filterMap told = t.log.filterMap told ++ calls frames tail := by
  induction frames generalizing k self t with
  | nil =>
      cases k with
      | zero => exact absurd hk (Nat.not_lt_zero _)
      | succ k =>
          have hfind : findStart 0 t.unread = none := by
            rw [hunread]
            have hskip := findStart_skip htail []
            rw [List.append_nil] at hskip
            exact hskip
          have hrun := run_startSequence self Machine.fuel 0 t hfuel (by decide)
          rw [hfind] at hrun
          exists { t with line := .source [] }
          constructor
          · rw [Act.iterate_succ, Act.bind_apply, Prog.run_bind]
            unfold taskLoop
            rw [Act.bind_apply, Prog.run_bind]
            unfold waitForStartSequence
            rw [hrun]
            rfl
          · exact (List.append_nil _).symm
  | cons f frames ih =>
      cases k with
      | zero => exact absurd hk (Nat.not_lt_zero _)
      | succ k =>
          have hsplit : t.unread = f.bytes ++ transmitted frames tail := by
            rw [hunread, transmitted, List.flatMap_cons, List.append_assoc]
            rfl
          rcases taskLoop_transmission self hsplit hfuel hsize with
            ⟨self₁, t₁, hrun, hunread₁, htold⟩
          rw [hsplit, List.length_append, ← hunread₁] at hfuel hsize
          rw [List.length_cons] at hk
          rcases ih (Nat.lt_of_succ_lt_succ hk) self₁ hunread₁ (by lia) (by lia) with
            ⟨t', hrun', htold'⟩
          exists t'
          constructor
          · rw [Act.iterate_succ, Act.run_bind_of_ok hrun]
            exact hrun'
          · rw [htold', htold, calls, List.append_assoc]

theorem length_le_transmitted (frames : List (Transmission δ)) (tail : List UInt8) :
    frames.length ≤ (transmitted frames tail).length := by
  induction frames with
  | nil => exact Nat.zero_le _
  | cons f frames ih =>
      have hsplit : transmitted (f :: frames) tail = f.bytes ++ transmitted frames tail := by
        rw [transmitted, List.flatMap_cons, List.append_assoc]
        rfl
      have hpos : 8 ≤ f.bytes.length := by
        rw [Transmission.bytes, Sent.encode_eq, List.length_append, List.length_append]
        have hmarker : Frame.startMarker.length = 8 := rfl
        lia
      rw [hsplit, List.length_append, List.length_cons]
      lia

/-!
## However C polls
-/

namespace Capi

open Io (ByteSource)

/--
C is told exactly the values of the frames that the meter has sent, each as soon
as the last byte of its frame was taken.
-/
theorem meter_told {κ : Type} [ByteSource (Reader κ)] {function : κ}
    {frames : List (Transmission δ)} {tail : List UInt8} (htail : forall b, b ∈ tail -> b ≠ 0x1B)
    (hsource : ByteSource.unread (Reader.mk function) = transmitted frames tail)
    (hfuel : (transmitted frames tail).length < Machine.fuel)
    (hsize : (transmitted frames tail).length < Usize.size) :
    (forall n, toldAfter δ function n <+: calls frames tail) ∧
      exists n, toldAfter δ function n = calls frames tail := by
  have hk : frames.length < Machine.fuel :=
    Nat.lt_of_le_of_lt (length_le_transmitted frames tail) hfuel
  rw [← hsource] at hfuel hsize
  rcases task_transmitted htail hk MessageCallback.new
    (t := Stream.new (ByteSource.unread (Reader.mk function))) hsource hfuel hsize with
    ⟨t, hrun, htold⟩
  have hcalls : t.log.filterMap told = calls frames tail := htold
  rw [← hcalls]
  exact toldAfter_run function (congrArg Outcome.state hrun)

end Capi

/-!
## A frame of one message
-/

theorem checksum_sample :
    (Digest.checksum Crc ([0x76] ++ ((sample 0x76 0 0 0).front.bytes ++
      (sampleBody 5 7).elements.bytes))).toNat = 0x28 + 256 * 0x5A := by
  have hbody : (sampleBody 5 7).elements.bytes =
      [0x63, 0x07, 0x01, 0x77, 0x01, 0x01, 0x01, 0x01, 0x73,
        0x77, 0x07, 0x01, 0x00, 0x10, 0x07, 0x00, 0xFF, 0x01, 0x01, 0x01, 0x01, 0x62, 0x05, 0x01,
        0x77, 0x07, 0x01, 0x00, 0x02, 0x08, 0x00, 0xFF, 0x01, 0x01, 0x01, 0x01, 0x62, 0x01, 0x01,
        0x77, 0x07, 0x01, 0x00, 0x01, 0x08, 0x00, 0xFF, 0x01, 0x01, 0x01, 0x01, 0x62, 0x07, 0x01,
        0x01, 0x01] := rfl
  rw [hbody]
  decide +kernel

theorem decodeHeader_sample :
    Tlv.decodeHeader [0x76] = some (.ok (.list, 6), []) := by
  exact Tlv.decodeHeader_single (by decide)

def sampleMessage : TypedMessage Crc where
  header := [0x76]
  front := (sample 0x76 0 0 0).front
  body := sampleBody 5 7
  back := (sample 0x76 0 0x28 0x5A).back
  header_list := decodeHeader_sample
  front_shape := sample_front
  back_shape := sample_back 0x28 0x5A
  crc := checksum_sample

def sampleStored (objName : List UInt8) (n : Nat) : Entry :=
  { objName := objName, scaler := 0, value := .n8BitUnsigned n }

def sampleTransmission : Transmission Crc where
  junk := [0x1A]
  messages := [sampleMessage]
  power := some { scaler := 0, value := 5 }
  energy := some { scaler := 0, value := 7 }
  junk_ne := by
    rw [List.forall_mem_singleton]
    decide
  messages_ne_nil := List.cons_ne_nil _ _
  decodable := by
    rw [List.forall_mem_singleton]
    exact decodable_sample 5 7
  power_found := by
    have hentries : entriesOf [sampleMessage] = [] ++ sampleStored obisActivePower 5 ::
        [sampleStored obisOther 1, sampleStored obisActiveEnergy 7] := rfl
    have hafter : forall e, e ∈ [sampleStored obisOther 1, sampleStored obisActiveEnergy 7] ->
        e.objName ≠ obisActivePower := by
      rw [List.forall_mem_cons, List.forall_mem_singleton]
      decide
    exact .some hentries rfl (List.forall_mem_nil _) hafter ⟨rfl, rfl, by decide⟩
  energy_found := by
    have hentries : entriesOf [sampleMessage] = [sampleStored obisActivePower 5,
        sampleStored obisOther 1] ++ sampleStored obisActiveEnergy 7 :: [] := rfl
    have hbefore : forall e, e ∈ [sampleStored obisActivePower 5, sampleStored obisOther 1] ->
        e.objName ≠ obisActiveEnergy := by
      rw [List.forall_mem_cons, List.forall_mem_singleton]
      decide
    exact .some hentries rfl hbefore (List.forall_mem_nil _) ⟨rfl, rfl, by decide⟩

omit [Machine] in
/-- The frame is told in pieces that do not end where it does. -/
theorem meter_told_sample :
    letI := Machine.word32 128 (by decide)
    let source := transmitted [sampleTransmission] [0x00]
    exists n, Capi.toldAfter Crc (Io.Pieces.mk [source.take 20, [], source.drop 20]) n =
      [(.frameFinished true, [0x00]),
        (.function
          { activePower := { scaler := 0, value := 5 }
            activeEnergy := { scaler := 0, value := 7 } }, [0x00])] := by
  let := Machine.word32 128 (by decide)
  intro source
  have hsource : Io.ByteSource.unread (Capi.Reader.mk
      (Io.Pieces.mk [source.take 20, [], source.drop 20])) = source := by
    change [source.take 20, [], source.drop 20].flatten = source
    rw [List.flatten_cons, List.flatten_cons, List.flatten_cons, List.flatten_nil,
      List.append_nil, List.nil_append, List.take_append_drop]
  have htail : forall b, b ∈ [(0x00 : UInt8)] -> b ≠ 0x1B := by
    rw [List.forall_mem_singleton]
    decide
  have hlength : source.length < 128 := by decide +kernel
  exact (Capi.meter_told htail hsource hlength (Nat.lt_trans hlength (by decide))).2

end Firmware
end Smartmeter
