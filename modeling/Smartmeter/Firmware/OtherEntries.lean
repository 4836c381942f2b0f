import Smartmeter.Firmware.TypedList

/-!
# Two lists that agree on the values

Two value lists with the same entries for power and energy are received with the
same result, whatever other entries they have, as long as those can be decoded.
The name of an entry must not be empty and, where it fits into the buffer of the
callback, neither must its value: a string of length 0 stands for a value that
is absent.
-/

namespace Smartmeter
namespace Firmware

open Foundation
open Sml
open Sml.Types

variable [Machine]

namespace MessageCallback

theorem answers_iff {b : TypedBody} (hfits : b.elements.Fits 0)
    (hfuel : b.elements.bytes.length < Machine.fuel) (self : MessageCallback) (rest : List UInt8)
    (res : Except Error Unit × MessageCallback) :
    Answers self b rest res <-> res = receive self b.entries := by
  have hanswers := answers_receive hfits hfuel self rest
  constructor
  · intro h
    exact h.unique hanswers
  · intro h
    rw [h]
    exact hanswers

/--
Bodies whose lists agree on the entries for power and energy are received with
one and the same result, and leave the same values in the callback.
-/
theorem received_alike {b b' : TypedBody} (hagree : relevant b.entries = relevant b'.entries)
    (hother : forall e, e ∈ b.entries ++ b'.entries -> ¬ Relevant e -> Decodable e)
    (hfits : b.elements.Fits 0) (hfits' : b'.elements.Fits 0)
    (hfuel : b.elements.bytes.length < Machine.fuel)
    (hfuel' : b'.elements.bytes.length < Machine.fuel)
    (self : MessageCallback) (rest rest' : List UInt8) :
    exists res, forall res', (Answers self b rest res' <-> res' = res) ∧
      (Answers self b' rest' res' <-> res' = res) := by
  have hreceive : receive self b.entries = receive self (relevant b.entries) :=
    receive_relevant (fun e he => hother e (List.mem_append_left _ he)) self
  have hreceive' : receive self b'.entries = receive self (relevant b.entries) := by
    rw [hagree]
    exact receive_relevant (fun e he => hother e (List.mem_append_right _ he)) self
  exists receive self (relevant b.entries)
  intro res'
  constructor
  · rw [answers_iff hfits hfuel, hreceive]
  · rw [answers_iff hfits' hfuel', hreceive']

end MessageCallback

/-!
## Lists with and without another entry
-/

theorem decodeHeader_absent : Tlv.decodeHeader [0x01] = some (.ok (.string, 0), []) := by
  exact Tlv.decodeHeader_single (by decide)

theorem decodeHeader_name :
    Tlv.decodeHeader [0x07] = some (.ok (.string, obisOther.length), []) := by
  exact Tlv.decodeHeader_single (by decide)

theorem decodeHeader_tag : Tlv.decodeHeader [0x63] = some (.ok (.unsigned, 2), []) := by
  exact Tlv.decodeHeader_single (by decide)

theorem decodeHeader_one : Tlv.decodeHeader [0x71] = some (.ok (.list, 1), []) := by
  exact Tlv.decodeHeader_single (by decide)

theorem decodeHeader_two : Tlv.decodeHeader [0x72] = some (.ok (.list, 2), []) := by
  exact Tlv.decodeHeader_single (by decide)

theorem decodeHeader_seven : Tlv.decodeHeader [0x77] = some (.ok (.list, 7), []) := by
  exact Tlv.decodeHeader_single (by decide)

omit [Machine] in
theorem length_tag : 1 ≤ ([0x07, 0x01] : List UInt8).length ∧
    ([0x07, 0x01] : List UInt8).length ≤ 4 := by
  decide

omit [Machine] in
theorem ofTag_getListResponse :
    MessageBodyEnum.ofTag (beNat [0x07, 0x01]) = some .getListResponse := by
  decide

omit [Machine] in
theorem length_obisActivePower : obisActivePower.length = 6 := rfl

omit [Machine] in
theorem length_obisActiveEnergy : obisActiveEnergy.length = 6 := rfl

omit [Machine] in
theorem length_obisOther : obisOther.length = 6 := rfl

/-- An entry with another name, whose value is the empty string. -/
def emptyValueEntry : TypedEntry where
  header := [0x77]
  nameHeader := [0x07]
  objName := obisOther
  status := unreadOctets 3
  scaler := .absent [0x01] decodeHeader_absent
  value := .primitive
    { kind := .string
      header := [0x01]
      payload := []
      header_eq := decodeHeader_absent
      variant := trivial }
  valueSignature := unreadOctets 1
  header_eq := decodeHeader_seven
  nameHeader_eq := decodeHeader_name

def responseBody (listHeader : List UInt8) (entries : List TypedEntry)
    (listHeader_eq : Tlv.decodeHeader listHeader = some (.ok (.list, entries.length), [])) :
    TypedBody where
  tagHeader := [0x63]
  tag := [0x07, 0x01]
  header := [0x77]
  variant := .getListResponse
  sequence := .response
    { clientId := unreadOctets 4
      listHeader := listHeader
      entries := entries
      listSignature := unreadOctets 2
      listHeader_eq := listHeader_eq }
  tag_length := length_tag
  variant_eq := ofTag_getListResponse
  tagHeader_eq := decodeHeader_tag
  header_eq := decodeHeader_seven

/-- The list of the sample body without the entry between the two values. -/
def pairBody (power energy : UInt8) : TypedBody :=
  responseBody [0x72]
    [sampleEntry obisActivePower length_obisActivePower power,
      sampleEntry obisActiveEnergy length_obisActiveEnergy energy] decodeHeader_two

def numberBody : TypedBody :=
  responseBody [0x71] [sampleEntry obisOther length_obisOther 1] decodeHeader_one

def emptyValueBody : TypedBody := responseBody [0x71] [emptyValueEntry] decodeHeader_one

omit [Machine] in
theorem received_alike_pair :
    letI := Machine.word32 128 (by decide)
    exists res, forall res',
      (MessageCallback.Answers MessageCallback.new (sampleBody 5 7) [0x63] res' <-> res' = res) ∧
        (MessageCallback.Answers MessageCallback.new (pairBody 5 7) [] res' <-> res' = res) := by
  let := Machine.word32 128 (by decide)
  have hlength : (sampleBody 5 7).elements.bytes.length < Machine.fuel := by decide +kernel
  have hlength' : (pairBody 5 7).elements.bytes.length < Machine.fuel := by decide +kernel
  have hsize : Machine.fuel < Usize.size := by decide
  have hagree : MessageCallback.relevant (sampleBody 5 7).entries =
      MessageCallback.relevant (pairBody 5 7).entries := rfl
  have hpair : forall e, e ∈ (pairBody 5 7).entries -> e ∈ (sampleBody 5 7).entries := by
    intro e he
    rcases List.mem_cons.mp he with he | he
    · exact List.mem_cons.mpr (Or.inl he)
    · exact List.mem_cons_of_mem _ (List.mem_cons_of_mem _ he)
  apply MessageCallback.received_alike hagree
  · intro e he _
    rcases List.mem_append.mp he with he | he
    · exact decodable_sample 5 7 e he
    · exact decodable_sample 5 7 e (hpair e he)
  · exact fits_of_length (sampleBody 5 7).readable.1 (Nat.lt_trans hlength hsize)
  · exact fits_of_length (pairBody 5 7).readable.1 (Nat.lt_trans hlength' hsize)
  · exact hlength
  · exact hlength'

omit [Machine] in
/-- A number is received and the empty string is not, though no value is looked for. -/
theorem received_apart_emptyValue :
    letI := Machine.word32 128 (by decide)
    ¬ forall (b b' : TypedBody), MessageCallback.relevant b.entries =
        MessageCallback.relevant b'.entries ->
      b.elements.bytes.length < Machine.fuel -> b'.elements.bytes.length < Machine.fuel ->
      forall (self : MessageCallback) (rest : List UInt8), exists res,
        MessageCallback.Answers self b rest res ∧ MessageCallback.Answers self b' rest res := by
  let := Machine.word32 128 (by decide)
  intro h
  have hlength : numberBody.elements.bytes.length < Machine.fuel := by decide +kernel
  have hlength' : emptyValueBody.elements.bytes.length < Machine.fuel := by decide +kernel
  have hsize : Machine.fuel < Usize.size := by decide
  rcases h numberBody emptyValueBody rfl hlength hlength' MessageCallback.new [] with
    ⟨res, hnumber, hempty⟩
  have hfits : numberBody.elements.Fits 0 :=
    fits_of_length numberBody.readable.1 (Nat.lt_trans hlength hsize)
  have hfits' : emptyValueBody.elements.Fits 0 :=
    fits_of_length emptyValueBody.readable.1 (Nat.lt_trans hlength' hsize)
  rw [MessageCallback.answers_iff hfits hlength] at hnumber
  rw [MessageCallback.answers_iff hfits' hlength', hnumber] at hempty
  cases hempty

end Firmware
end Smartmeter
