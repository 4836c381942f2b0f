import Smartmeter.Sml.Blocked
import Smartmeter.Sml.FrameRun
import Smartmeter.Sml.Crc

/-!
# The frames that are accepted

Reading a frame succeeds, with a callback that reads nothing, when its payload is
messages one after the other that can be passed through.  These are the messages
of the grammar as long as nothing in them is more than the grammar allows.
-/

namespace Smartmeter
namespace Sml

open Foundation
open Frame (Feed Sent)
open Tlv (Handle Reader Skips Elements Overflows decodeHeader decodeHeader_unique)

variable {δ ω : Type} [Digest δ] [Machine]

/-!
## What reading nothing passes through
-/

theorem Tlv.Reader.Pending.skips {pending : Nat} {used : List UInt8}
    (h : ({ remainingBytes := 0, remainingTlvs := pending } : Reader).Pending used) :
    Skips pending used := by
  rcases h with ⟨junk, tlvs, hused, hjunk, hskips⟩
  rw [hused, List.length_eq_zero_iff.mp hjunk]
  exact hskips

theorem received_idle_ok {len : Nat} {x x' : Handle × Unit} {t t' : Stream δ Empty}
    (hreader : x.1.reader = Reader.new)
    (hrun : (received Callback.idle len x).run Stream.handler t = .done (.ok (), x') t') :
    len = 2 ∧ x' = ({ reader := { remainingBytes := 0, remainingTlvs := 2 }, len := x.1.len }, ()) ∧
      t' = t.observe (.call .messageReceived) := by
  rcases x with ⟨⟨reader, size⟩, u⟩
  dsimp only at hreader
  subst hreader
  have hlt : 2 < Usize.size := Nat.lt_of_lt_of_le (by decide) Usize.pow_le_size
  unfold received at hrun
  rcases Act.run_borrow_ok hrun with ⟨y, hlist, hx'⟩
  rcases Act.run_borrow_ok hlist with ⟨z, hbody, hy⟩
  by_cases hlen : len = 2
  · rw [if_neg (not_not_intro hlen)] at hbody
    cases hbody
    refine ⟨hlen, ?_, rfl⟩
    rw [hx', hy, hlen]
    simp only [Handle.drop_list_new hlt]
  · rw [if_pos hlen] at hbody
    cases hbody

theorem message_idle_ok {feed : Feed} {start n size : Nat} {x' : Handle × Unit}
    {t t' : Stream δ Empty} (hat : Stream.At feed start n t)
    (hrun : (message Callback.idle ({ reader := Reader.new, len := size }, ())).run
      Stream.handler t = .done (.ok (), x') t') :
    exists (front : Front) (body : List UInt8) (back : Back) (rest : List UInt8),
      front.Shape 2 ∧ Skips 2 body ∧ back.Shape ∧
      feed.bytes.drop n = front.bytes ++ (body ++ (back.bytes ++ rest)) ∧
      (Digest.checksum δ ((feed.bytes.take (n + front.bytes.length + body.length)).drop start)).toNat =
        back.c0.toNat + 256 * back.c1.toNat ∧
      size = 6 + x'.1.len ∧ x'.1.reader = Reader.new ∧
      Stream.At feed (n + front.bytes.length + body.length)
        (n + front.bytes.length + body.length + back.bytes.length) t' := by
  rw [message_eq] at hrun
  rcases Act.run_bind_ok hrun with ⟨len, x₁, t₁, h₁, hrun⟩
  rcases Act.run_bind_ok hrun with ⟨_, x₂, t₂, h₂, h₃⟩
  rcases onList_at strict_front hat h₁ with ⟨n₁, hle₁, hat₁, _, _, hparse⟩
  rcases front_ok hparse with ⟨front, hfront, hbytes₁, hsize, hreader⟩
  have hn₁ := hat₁.eq_add hle₁ hbytes₁
  subst hn₁
  rcases received_idle_ok hreader h₂ with ⟨hlen, hx₂, ht₂⟩
  subst hlen hx₂ ht₂
  rcases closing_ok (hat₁.observe _) h₃ with
    ⟨body, crcHeader, c0, c1, marker, stop, _, hbytes₂, hpending, hcrcHeader, hmarker, hcrc,
      hlen₃, hreader₃, _, hle₃, hat₃, _⟩
  let back : Back := { crcHeader := crcHeader, c0 := c0, c1 := c1, marker := marker }
  have hback : back.bytes ++ feed.bytes.drop stop =
      crcHeader ++ ([c0, c1] ++ (marker ++ feed.bytes.drop stop)) := by
    simp only [Back.bytes, back, List.append_assoc]
  rw [← hback] at hbytes₂
  refine ⟨front, body, back, feed.bytes.drop stop, hfront, hpending.skips,
    ⟨hcrcHeader, hmarker⟩, ?_, hcrc, ?_, hreader₃, ?_⟩
  · rw [hbytes₁, hbytes₂]
  · rw [hsize]
    change x₁.1.len = x'.1.len + 2 at hlen₃
    lia
  · have hstop : stop = n + front.bytes.length + (body ++ back.bytes).length := by
      apply hat₃.eq_add (by lia)
      rw [hbytes₂, List.append_assoc]
    rw [hstop, List.length_append, ← Nat.add_assoc] at hat₃
    exact hat₃

theorem readFrameLoop_idle_ok {feed : Feed} {n pending : Nat} {x x' : Reader × Unit}
    {t t' : Stream δ Empty} (hat : Stream.At feed n n t)
    (hx : x.1 = { remainingBytes := 0, remainingTlvs := pending })
    (hrun : (readFrameLoop Callback.idle () x).run Stream.handler t =
      .done (.ok (.inl ()), x') t') :
    exists m : Parts, m.Shape pending ∧ Skips 2 m.body ∧
      m.back.verdict (Digest.checksum δ m.covered) = .ok () ∧
      feed.bytes.drop n = m.bytes ++ feed.bytes.drop (n + m.bytes.length) ∧
      Stream.At feed (n + m.bytes.length) (n + m.bytes.length) t' ∧
      x'.1 = { remainingBytes := 0, remainingTlvs := m.more } := by
  rcases Act.run_bind_ok hrun with ⟨ended, x₀, t₀, h₀, hrun⟩
  cases h₀
  split at hrun
  · cases hrun
  · rcases Act.run_bind_ok hrun with ⟨len, x₁, t₁, h₁, hrun⟩
    rcases Act.run_bind_ok hrun with ⟨_, x₂, t₂, h₂, hrun⟩
    rcases Act.run_bind_ok hrun with ⟨_, x₃, t₃, h₃, hret⟩
    rcases Act.run_borrow_ok h₁ with ⟨reader, hlist, hx₁⟩
    rw [Stream.run_onMessages, hx] at hlist
    rcases hat.read Reader.strict_readList hlist with ⟨k, hat₁, _, hparse₁⟩
    rcases Reader.readList_ok hparse₁ with ⟨hreader, skipped, header, hbytes₁, hskipped, hheader⟩
    rcases Act.run_borrow_ok h₂ with ⟨y, hmessage, hx₂⟩
    subst hx₁
    rw [hreader] at hmessage
    rcases message_idle_ok hat₁ hmessage with
      ⟨front, body, back, rest, hfront, hbody, hback, hbytes₂, hcrc, hsize, hreader', hat₂⟩
    let m : Parts :=
      { skipped := skipped, header := header, more := y.1.len, front := front, body := body,
        back := back }
    have hk : n + k = n + (skipped ++ header).length := by
      apply hat₁.eq_add (Nat.le_add_right n k)
      rw [hbytes₁, List.append_assoc]
    have hsplit : feed.bytes.drop n = m.bytes ++ rest := by
      rw [hbytes₁, hbytes₂]
      simp only [m, Parts.bytes, Parts.covered, List.append_assoc]
    have hcovered : n + k + front.bytes.length + body.length = n + m.covered.length := by
      rw [hk]
      simp only [m, Parts.covered, List.length_append]
      lia
    have hlen : n + m.covered.length + back.bytes.length = n + m.bytes.length := by
      simp only [m, Parts.bytes, List.length_append]
      lia
    have htake : (feed.bytes.take (n + m.covered.length)).drop n = m.covered := by
      rw [List.drop_take, Nat.add_sub_cancel_left, hsplit, Parts.bytes, List.append_assoc,
        List.take_left]
    have hrest : feed.bytes.drop (n + m.bytes.length) = rest := by
      rw [← List.drop_drop, hsplit, List.drop_left]
    have hmore : y.1 = { reader := Reader.new, len := m.more } := by
      rw [← hreader']
    rw [hcovered, htake] at hcrc
    rw [hcovered, hlen] at hat₂
    rw [hsize] at hheader
    cases h₃
    cases hret
    refine ⟨m, ⟨hskipped.skips, hheader, hfront, hback⟩, hbody, Back.verdict_eq_ok.mpr hcrc, ?_,
      hat₂.reset.1, ?_⟩
    · rw [hrest]
      exact hsplit
    · rw [hx₂]
      change Handle.drop .list y.1 = _
      rw [hmore]
      exact Handle.drop_list_new
        (Nat.lt_of_le_of_lt (Nat.le_add_left _ 6) (Tlv.decodeHeader_lt hheader))

/-- A message that passes: its body is passed over and its checksum is good. -/
structure Parts.Passed (δ : Type) [Digest δ] (m : Parts) : Prop where
  body : Skips 2 m.body
  verdict : m.back.verdict (Digest.checksum δ m.covered) = .ok ()

omit [Machine] in
theorem verdict_eq_ok {ms : List Parts} :
    verdict δ ms = .ok () <->
      forall m, m ∈ ms -> m.back.verdict (Digest.checksum δ m.covered) = .ok () := by
  induction ms with
  | nil => exact ⟨fun _ m hm => absurd hm List.not_mem_nil, fun _ => rfl⟩
  | cons m ms ih =>
      rw [List.forall_mem_cons, ← ih]
      cases hverdict : m.back.verdict (Digest.checksum δ m.covered) with
      | ok _ =>
          rw [verdict_cons_ok hverdict]
          exact ⟨fun h => ⟨rfl, h⟩, fun h => h.2⟩
      | error e =>
          rw [verdict_cons_error hverdict]
          constructor
          · intro h
            cases h
          · rintro ⟨h, _⟩
            cases h

def leftOver : Nat -> List Parts -> Nat
  | pending, [] => pending
  | _, m :: ms => leftOver m.more ms

omit [Machine] in
theorem leftOver_concat (pending : Nat) (ms : List Parts) (m : Parts) :
    leftOver pending (ms ++ [m]) = m.more := by
  induction ms generalizing pending with
  | nil => rfl
  | cons m' ms ih => exact ih m'.more

theorem Chain.concat {pending : Nat} {ms : List Parts} {m : Parts} (h : Chain pending ms)
    (hm : m.Shape (leftOver pending ms)) : Chain pending (ms ++ [m]) := by
  induction ms generalizing pending with
  | nil => exact ⟨hm, trivial⟩
  | cons m' ms ih => exact ⟨h.1, ih h.2 hm⟩

def Through (feed : Feed) (x : Reader × Unit) (t : Stream δ Empty) : Prop :=
  exists n ms, Stream.At feed n n t ∧
    x.1 = { remainingBytes := 0, remainingTlvs := leftOver 0 ms } ∧
    feed.bytes.take n = joined ms ∧ Chain 0 ms ∧ forall m : Parts, m ∈ ms -> m.Passed δ

theorem readFrame_idle_ok {s' : Unit} {t t' : Stream δ Empty}
    (hrun : (readFrame Callback.idle ()).run Stream.handler t = .done (.ok (), s') t') :
    exists (f : Sent δ) (ms : List Parts), t.unread = f.bytes ++ t'.unread ∧ ms ≠ [] ∧
      f.payload = joined ms ∧ Chain 0 ms ∧ forall m, m ∈ ms -> m.Passed δ := by
  have hstart : Through (Stream.frameFeed δ t.unread) (Reader.new, ()) t.newFrame :=
    ⟨0, [], Stream.newFrame_at t, rfl, rfl, trivial, fun m hm => absurd hm List.not_mem_nil⟩
  have hstep : forall (i : Unit) (x : Reader × Unit) (t₁ : Stream δ Empty) (i' : Unit)
      (x' : Reader × Unit) (t₁' : Stream δ Empty),
      Through (Stream.frameFeed δ t.unread) x t₁ ->
      (readFrameLoop Callback.idle i x).run Stream.handler t₁ = .done (.ok (.inl i'), x') t₁' ->
      Through (Stream.frameFeed δ t.unread) x' t₁' := by
    rintro _ x t₁ _ x' t₁' ⟨n, ms, hat, hx, hjoined, hchain, hpassed⟩ hloop
    rcases readFrameLoop_idle_ok hat hx hloop with
      ⟨m, hm, hbody, hverdict, hbytes, hat', hx'⟩
    refine ⟨n + m.bytes.length, ms ++ [m], hat', ?_, ?_, hchain.concat hm, ?_⟩
    · rw [leftOver_concat]
      exact hx'
    · rw [List.take_add, hjoined, hbytes, List.take_left, joined, joined, List.flatMap_append,
        List.flatMap_singleton]
    · intro m' hm'
      rcases List.mem_append.mp hm' with hmem | hlast
      · exact hpassed m' hmem
      · rw [List.mem_singleton.mp hlast]
        exact ⟨hbody, hverdict⟩
  rcases Act.run_bind_ok hrun with ⟨_, s₀, t₀, h₀, hrun⟩
  cases h₀
  rcases Act.run_borrow_ok hrun with ⟨x, hloop, _⟩
  rcases Act.run_iterate_ok (fun _ => Through (Stream.frameFeed δ t.unread)) hstep hstart hloop with ⟨_, x₁, t₁, ⟨n, ms, hat, hx, hjoined, hchain, hpassed⟩, hlast⟩
  cases hended : t₁.hasEnded with
  | false =>
      rcases Act.run_bind_ok hlast with ⟨ended, x₂, t₂, h₂, hlast⟩
      cases h₂
      rw [hended] at hlast
      rcases Act.run_bind_ok hlast with ⟨_, _, _, _, hlast⟩
      rcases Act.run_bind_ok hlast with ⟨_, _, _, _, hlast⟩
      rcases Act.run_bind_ok hlast with ⟨_, _, _, _, hret⟩
      cases hret
  | true =>
      rw [readFrameLoop_ended _ _ hended] at hlast
      cases hlast
      rcases hat.sent_of_hasEnded hended with ⟨f, hs, hbytes, hn, hpos⟩
      rw [hbytes, hn, List.take_length] at hjoined
      refine ⟨f, ms, hs, ?_, hjoined, hchain, hpassed⟩
      intro hnil
      rw [hnil] at hjoined
      apply hpos
      rw [hn, hjoined]
      rfl

structure PassedThrough (δ : Type) [Digest δ] (payload : List UInt8) (ms : List Parts) : Prop where
  ne_nil : ms ≠ []
  payload : payload = joined ms
  chain : Chain 0 ms
  passed : forall m, m ∈ ms -> m.Passed δ

omit [Machine] in
theorem payload_length_le (f : Sent δ) (rest : List UInt8) :
    f.payload.length ≤ (f.bytes ++ rest).length := by
  have hle := newFrame_bytes_le (Stream.new (f.bytes ++ rest) : Stream δ Empty)
  have hbytes := (frameFeed_sent f rest).1
  change (Stream.frameFeed δ (f.bytes ++ rest)).bytes.length ≤ _ at hle
  rw [hbytes] at hle
  exact hle

theorem readFrame_idle_iff {t : Stream δ Empty} (hfuel : t.unread.length < Machine.fuel) :
    (exists s' t', (readFrame Callback.idle ()).run Stream.handler t = .done (.ok (), s') t') <->
      exists (f : Sent δ) (rest : List UInt8) (ms : List Parts),
        t.unread = f.bytes ++ rest ∧ PassedThrough δ f.payload ms := by
  constructor
  · rintro ⟨s', t', hrun⟩
    rcases readFrame_idle_ok hrun with ⟨f, ms, hs, hne, hpayload, hchain, hpassed⟩
    exact ⟨f, t'.unread, ms, hs, hne, hpayload, hchain, hpassed⟩
  · rintro ⟨f, rest, ms, hs, hthrough⟩
    have hlen := payload_length_le f rest
    rw [← hs] at hlen
    rcases readFrame_run hthrough.ne_nil hthrough.payload hthrough.chain (by lia)
      (follows_idle fun m hm => (hthrough.passed m hm).body) hs with
      ⟨s', t', hrun, _⟩
    rw [verdict_eq_ok.mpr fun m hm => (hthrough.passed m hm).verdict] at hrun
    exact ⟨s', t', hrun⟩

omit [Machine] in
theorem Frame.Sent.payload_unique {f f' : Sent δ} {rest rest' : List UInt8}
    (h : f.bytes ++ rest = f'.bytes ++ rest') : f.payload = f'.payload := by
  rw [← (frameFeed_sent f rest).1, h, (frameFeed_sent f' rest').1]

/-!
## The grammar
-/

/--
A message of the grammar: a list of six elements, which are an octet string, two
numbers of one byte, a list of two elements, the checksum of the bytes in front
of it and the byte that ends a message.
-/
structure Parts.Grammatical (δ : Type) [Digest δ] (m : Parts) : Prop where
  skipped : m.skipped = []
  more : m.more = 0
  header : decodeHeader m.header = some (.ok (.list, 6), [])
  front : m.front.Shape 2
  body : Elements 2 m.body
  crcHeader : decodeHeader m.back.crcHeader = some (.ok (.unsigned, 2), [])
  crc : (Digest.checksum δ m.covered).toNat = m.back.c0.toNat + 256 * m.back.c1.toNat
  marker : m.back.marker = [0x00]

structure Spelled (δ : Type) [Digest δ] (payload : List UInt8) (ms : List Parts) : Prop where
  ne_nil : ms ≠ []
  payload : payload = joined ms
  grammatical : forall m, m ∈ ms -> m.Grammatical δ

def Grammar (δ : Type) [Digest δ] (source : List UInt8) : Prop :=
  exists (f : Sent δ) (rest : List UInt8) (ms : List Parts),
    source = f.bytes ++ rest ∧ Spelled δ f.payload ms

/-- A message that has six elements, ends with one byte and has a body that can be counted. -/
structure Parts.Regular (m : Parts) : Prop where
  more : m.more = 0
  marker : m.back.marker = [0x00]
  countable : ¬ Overflows 2 m.body

theorem Parts.Grammatical.shape {m : Parts} (h : m.Grammatical δ) : m.Shape 0 where
  skipped := by
    rw [h.skipped]
    exact .nil
  header := by
    rw [h.more]
    exact h.header
  front := h.front
  back := by
    refine ⟨h.crcHeader, ?_⟩
    rw [h.marker]
    exact Tlv.decodeHeader_single (by decide)

theorem Parts.Grammatical.passed {m : Parts} (h : m.Grammatical δ) (hm : m.Regular) :
    m.Passed δ :=
  ⟨h.body.skips hm.countable, Back.verdict_eq_ok.mpr h.crc⟩

theorem Parts.Regular.grammatical {m : Parts} (h : m.Regular) (hm : m.Shape 0)
    (hpassed : m.Passed δ) : m.Grammatical δ where
  skipped := Skips.zero_iff.mp hm.skipped
  more := h.more
  header := by
    have hheader := hm.header
    rw [h.more] at hheader
    exact hheader
  front := hm.front
  body := hpassed.body.elements h.countable
  crcHeader := hm.back.crcHeader
  crc := Back.verdict_eq_ok.mp hpassed.verdict
  marker := h.marker

theorem Back.Shape.elements {m : Back} (h : m.Shape) {k : Nat} {more rest tail : List UInt8}
    (hmore : Elements k more) (heq : m.bytes ++ rest = more ++ tail) : k ≤ 1 := by
  rcases m with ⟨crcHeader, c0, c1, marker⟩
  simp only [Back.bytes, List.append_assoc] at heq
  cases hmore with
  | nil => exact Nat.zero_le 1
  | @item num len ty header payload after hheader hty hpayload hrest =>
      cases num with
      | zero => exact Nat.le_refl 1
      | succ num =>
          rw [List.append_assoc, List.append_assoc] at heq
          rcases decodeHeader_unique h.crcHeader hheader heq with ⟨_, hx, htail⟩
          injection hx with hx
          injection hx with _ hlen
          rw [← hlen] at hpayload
          rcases hrest.not_stop tail with ⟨x, stop, hx⟩
          rw [← (List.append_inj htail hpayload.symm).2, Tlv.decodeHeader_append h.marker] at hx
          cases hx
  | list hheader _ =>
      rw [List.append_assoc] at heq
      rcases decodeHeader_unique h.crcHeader hheader heq with ⟨_, hx, _⟩
      cases hx

theorem Parts.Shape.regular {m m' : Parts} {rest rest' : List UInt8} (h : m.Shape 0)
    (hbody : Skips 2 m.body) (h' : m'.Grammatical δ)
    (heq : m.bytes ++ rest = m'.bytes ++ rest') : m.Regular ∧ m = m' ∧ rest = rest' := by
  have hcut := (h.unique_front h'.shape heq).2
  rcases hbody.elements_split h'.body (Nat.le_refl 2) hcut with
    ⟨k, more, hmore, hstop, hk, hlost, hkept⟩
  have hlow : ¬ Overflows 2 m.body := by
    intro hoverflows
    have hsize := Foundation.Usize.pow_le_size
    have hle := h.back.elements hmore hstop
    have hbig := hlost hoverflows
    lia
  have hzero : k = 0 := by
    have hsum := hkept hlow
    lia
  subst hzero
  cases hmore
  have hbody' : m.body = m'.body := by
    rw [List.nil_append] at hstop
    rw [hstop] at hcut
    exact List.append_cancel_right hcut
  have hsame := h.unique h'.shape hbody (hbody' ▸ hbody) heq
  refine ⟨⟨?_, ?_, hlow⟩, hsame⟩
  · rw [hsame.1]
    exact h'.more
  · rw [hsame.1]
    exact h'.marker

theorem Chain.of_grammatical {ms : List Parts} (h : forall m, m ∈ ms -> m.Grammatical δ) :
    Chain 0 ms := by
  induction ms with
  | nil => trivial
  | cons m ms ih =>
      refine ⟨(h m List.mem_cons_self).shape, ?_⟩
      rw [(h m List.mem_cons_self).more]
      exact ih fun m' hm' => h m' (List.mem_cons_of_mem m hm')

theorem Chain.grammatical {ms : List Parts} (hchain : Chain 0 ms)
    (hpassed : forall m, m ∈ ms -> m.Passed δ) (hregular : forall m, m ∈ ms -> m.Regular) :
    forall m, m ∈ ms -> m.Grammatical δ := by
  induction ms with
  | nil => exact fun m hm => absurd hm List.not_mem_nil
  | cons m ms ih =>
      have hm := hregular m List.mem_cons_self
      have hrest := hchain.2
      rw [hm.more] at hrest
      rw [List.forall_mem_cons]
      exact ⟨hm.grammatical hchain.1 (hpassed m List.mem_cons_self),
        ih hrest (fun m' hm' => hpassed m' (List.mem_cons_of_mem m hm'))
          fun m' hm' => hregular m' (List.mem_cons_of_mem m hm')⟩

theorem Chain.regular {ms ms' : List Parts} (hchain : Chain 0 ms)
    (hpassed : forall m, m ∈ ms -> m.Passed δ) (h' : forall m, m ∈ ms' -> m.Grammatical δ)
    (heq : joined ms = joined ms') : ms = ms' ∧ forall m, m ∈ ms -> m.Regular := by
  induction ms generalizing ms' with
  | nil =>
      cases ms' with
      | nil => exact ⟨rfl, fun m hm => absurd hm List.not_mem_nil⟩
      | cons m' ms' =>
          rw [joined, joined, List.flatMap_cons] at heq
          exact absurd (List.append_eq_nil_iff.mp heq.symm).1 m'.bytes_ne_nil
  | cons m ms ih =>
      cases ms' with
      | nil =>
          rw [joined, joined, List.flatMap_cons] at heq
          exact absurd (List.append_eq_nil_iff.mp heq).1 m.bytes_ne_nil
      | cons m' ms' =>
          rw [joined, joined, List.flatMap_cons, List.flatMap_cons] at heq
          rcases hchain.1.regular (hpassed m List.mem_cons_self).body (h' m' List.mem_cons_self)
            heq with ⟨hregular, hm, hrest⟩
          have hchain' := hchain.2
          rw [hregular.more] at hchain'
          rcases ih hchain' (fun m hm => hpassed m (List.mem_cons_of_mem _ hm))
            (fun m hm => h' m (List.mem_cons_of_mem _ hm)) hrest with ⟨hms, hall⟩
          rw [List.forall_mem_cons, hm, hms]
          rw [hm] at hregular
          rw [hms] at hall
          exact ⟨rfl, hregular, hall⟩

theorem PassedThrough.regular {payload : List UInt8} {ms ms' : List Parts}
    (h : PassedThrough δ payload ms) (h' : Spelled δ payload ms') :
    ms = ms' ∧ forall m, m ∈ ms -> m.Regular :=
  h.chain.regular h.passed h'.grammatical (h.payload.symm.trans h'.payload)

theorem PassedThrough.spelled {payload : List UInt8} {ms : List Parts}
    (h : PassedThrough δ payload ms) (hregular : forall m, m ∈ ms -> m.Regular) :
    Spelled δ payload ms :=
  ⟨h.ne_nil, h.payload, h.chain.grammatical h.passed hregular⟩

theorem Spelled.passedThrough {payload : List UInt8} {ms : List Parts}
    (h : Spelled δ payload ms) (hregular : forall m, m ∈ ms -> m.Regular) :
    PassedThrough δ payload ms :=
  ⟨h.ne_nil, h.payload, .of_grammatical h.grammatical,
    fun m hm => (h.grammatical m hm).passed (hregular m hm)⟩

/-!
## When exactly the grammar is accepted
-/

/-- `read_frame` returns `Ok`, however the source is cut. -/
def Accepts (δ : Type) [Digest δ] {ρ : Type} [Io.ByteSource ρ] (reader : ρ) : Prop :=
  exists n s w, (Standing.waiting (.fresh (readFrame Callback.idle ())) (World.new reader) :
    Standing (taskDriver (ρ := ρ) (δ := δ)) _).polls n = .finished (.ok (), s) w

/--
The messages in the frame at the beginning of the source, as the code passes
through them or as the grammar spells them, have six elements, the byte
`00` behind them and a body that a word can count.
-/
def Plain (δ : Type) [Digest δ] (source : List UInt8) : Prop :=
  forall (f : Sent δ) (rest : List UInt8) (ms : List Parts), source = f.bytes ++ rest ->
    PassedThrough δ f.payload ms ∨ Spelled δ f.payload ms -> forall m, m ∈ ms -> m.Regular

theorem accepts_iff {ρ : Type} [Io.ByteSource ρ] {reader : ρ}
    (hfuel : (Io.ByteSource.unread reader).length < Machine.fuel) :
    Accepts δ reader <-> exists (f : Sent δ) (rest : List UInt8) (ms : List Parts),
      Io.ByteSource.unread reader = f.bytes ++ rest ∧ PassedThrough δ f.payload ms := by
  refine Iff.trans ?_ (readFrame_idle_iff (t := Stream.new (Io.ByteSource.unread reader)) hfuel)
  constructor
  · rintro ⟨n, s, w, hpolls⟩
    rcases (World.finished_iff _ reader (Except.ok (), s)).mp ⟨n, w, hpolls⟩ with ⟨t, hrun⟩
    exact ⟨s, t, hrun⟩
  · rintro ⟨s, t, hrun⟩
    rcases (World.finished_iff _ reader (Except.ok (), s)).mpr ⟨t, hrun⟩ with ⟨n, w, hpolls⟩
    exact ⟨n, s, w, hpolls⟩

/-- The frames of the grammar are accepted and no others, if and only if the source is plain. -/
theorem accepts_grammar_iff {ρ : Type} [Io.ByteSource ρ] {reader : ρ}
    (hfuel : (Io.ByteSource.unread reader).length < Machine.fuel) :
    (Accepts δ reader <-> Grammar δ (Io.ByteSource.unread reader)) <->
      Plain δ (Io.ByteSource.unread reader) := by
  rw [accepts_iff hfuel]
  constructor
  · intro hiff f rest ms hs hms
    rcases hms with hthrough | hspelled
    · rcases hiff.mp ⟨f, rest, ms, hs, hthrough⟩ with ⟨f', rest', ms', hs', hspelled⟩
      rw [Frame.Sent.payload_unique (hs.symm.trans hs')] at hthrough
      exact (hthrough.regular hspelled).2
    · rcases hiff.mpr ⟨f, rest, ms, hs, hspelled⟩ with ⟨f', rest', ms', hs', hthrough⟩
      rw [Frame.Sent.payload_unique (hs.symm.trans hs')] at hspelled
      rcases hthrough.regular hspelled with ⟨hsame, hregular⟩
      rw [← hsame]
      exact hregular
  · intro hplain
    constructor
    · rintro ⟨f, rest, ms, hs, hthrough⟩
      exact ⟨f, rest, ms, hs, hthrough.spelled (hplain f rest ms hs (Or.inl hthrough))⟩
    · rintro ⟨f, rest, ms, hs, hspelled⟩
      exact ⟨f, rest, ms, hs, hspelled.passedThrough (hplain f rest ms hs (Or.inr hspelled))⟩

/-!
## A message that declares an element too many
-/

/-- A message with a body of two empty octet strings. -/
def sample (header : UInt8) (more : Nat) (c0 c1 : UInt8) : Parts :=
  { skipped := []
    header := [header]
    more := more
    front :=
      { idHeader := [0x02], id := [0x01], groupHeader := [0x62], group := 0x00,
        abortHeader := [0x62], abort := 0x00, bodyHeader := [0x72] }
    body := [0x01, 0x01]
    back := { crcHeader := [0x63], c0 := c0, c1 := c1, marker := [0x00] } }

theorem sample_body : Elements 2 [0x01, 0x01] := by
  have hempty : decodeHeader [0x01] = some (.ok (.string, 0), []) :=
    Tlv.decodeHeader_single (by decide)
  have hitem {num : Nat} {rest : List UInt8} (hrest : Elements num rest) :
      Elements (num + 1) ([0x01] ++ [] ++ rest) := .item hempty (by decide) rfl hrest
  exact hitem (hitem .nil)

theorem sample_front : (sample 0x76 0 0 0).front.Shape 2 := by
  refine ⟨?_, List.cons_ne_nil _ _, ?_, ?_, ?_⟩
  all_goals exact Tlv.decodeHeader_single (by decide)

theorem sample_back (c0 c1 : UInt8) : (sample 0x76 0 c0 c1).back.Shape :=
  ⟨Tlv.decodeHeader_single (by decide), Tlv.decodeHeader_single (by decide)⟩

theorem sample_passedThrough {header : UInt8} {more : Nat} {c0 c1 : UInt8}
    (hheader : decodeHeader [header] = some (.ok (.list, 6 + more), []))
    (hcrc : (Digest.checksum Crc (sample header more c0 c1).covered).toNat =
      c0.toNat + 256 * c1.toNat) :
    PassedThrough Crc (sample header more c0 c1).bytes [sample header more c0 c1] := by
  have hempty : decodeHeader [0x01] = some (.ok (.string, 0), []) :=
    Tlv.decodeHeader_single (by decide)
  have hitem {num : Nat} {rest : List UInt8} (hrest : Skips num rest) :
      Skips (num + 1) ([0x01] ++ [] ++ rest) := .item hempty (by decide) rfl hrest
  have hbody : Skips 2 [0x01, 0x01] :=
    hitem (hitem .nil)
  have hshape : (sample header more c0 c1).Shape 0 :=
    ⟨.nil, hheader, sample_front, sample_back c0 c1⟩
  refine ⟨List.cons_ne_nil _ _, (List.append_nil _).symm, ⟨hshape, trivial⟩, ?_⟩
  rw [List.forall_mem_singleton]
  exact ⟨hbody, Back.verdict_eq_ok.mpr hcrc⟩

def sampleFrame (header c0 c1 : UInt8) : List (List UInt8) :=
  [[header, 0x02, 0x01, 0x62], [0x00, 0x62, 0x00, 0x72], [0x01, 0x01, 0x63, c0], [c1, 0, 0, 0]]

omit [Machine] in
/-- A message of the grammar is accepted. -/
theorem accepts_grammar_six :
    letI := Machine.word32 32 (Nat.le_refl 32)
    Accepts Crc (Io.Pieces.mk
      [[0x76, 0x02, 0x01, 0x62, 0x00, 0x62, 0x00, 0x72, 0x01, 0x01, 0x63, 0x47], [],
        [0xA7, 0, 0, 0, 0x1B, 0x1B, 0x1B, 0x1B, 0x1A, 2, 0x46, 0x5E]]) := by
  let := Machine.word32 32 (Nat.le_refl 32)
  have hthrough : PassedThrough Crc _ [sample 0x76 0 0x47 0xA7] :=
    sample_passedThrough (Tlv.decodeHeader_single (by decide)) (by decide +kernel)
  let f : Sent Crc :=
    { groups := sampleFrame 0x76 0x47 0xA7
      num := 2
      c0 := 0x46
      c1 := 0x5E
      groups_length := by decide
      num_le := by decide
      padded := by decide
      crc := by decide +kernel }
  have hspelled : Spelled Crc f.payload [sample 0x76 0 0x47 0xA7] := by
    refine ⟨List.cons_ne_nil _ _, rfl, ?_⟩
    rw [List.forall_mem_singleton]
    have hshape := hthrough.chain.1
    exact ⟨rfl, rfl, hshape.header, hshape.front, sample_body, hshape.back.crcHeader,
      Back.verdict_eq_ok.mp (hthrough.passed _ List.mem_cons_self).verdict, rfl⟩
  let reader := Io.Pieces.mk
      [[0x76, 0x02, 0x01, 0x62, 0x00, 0x62, 0x00, 0x72, 0x01, 0x01, 0x63, 0x47], [],
        [0xA7, 0, 0, 0, 0x1B, 0x1B, 0x1B, 0x1B, 0x1A, 2, 0x46, 0x5E]]
  have hs : Io.ByteSource.unread reader = f.bytes ++ [] := by decide
  have hplain : Plain Crc (Io.ByteSource.unread reader) := by
    intro f' rest ms hs' hms
    rw [← Frame.Sent.payload_unique (hs.symm.trans hs')] at hms
    rcases hms with hthrough' | hspelled'
    · exact (hthrough'.regular hspelled).2
    · rcases hthrough.regular hspelled' with ⟨hsame, hregular⟩
      rw [← hsame]
      exact hregular
  have hfuel : (Io.ByteSource.unread reader).length < Machine.fuel := by decide
  exact ((accepts_grammar_iff hfuel).mpr hplain).mpr ⟨f, [], _, hs, hspelled⟩

omit [Machine] in
/-- A message that declares seven elements and has six is accepted. -/
theorem accepts_seven :
    letI := Machine.word32 32 (Nat.le_refl 32)
    let reader := Io.Pieces.mk
      [[0x77, 0x02, 0x01, 0x62, 0x00, 0x62, 0x00, 0x72, 0x01, 0x01, 0x63, 0x60], [],
        [0x8B, 0, 0, 0, 0x1B, 0x1B, 0x1B, 0x1B, 0x1A, 2, 0x77, 0xC0]]
    Accepts Crc reader ∧ ¬ Grammar Crc (Io.ByteSource.unread reader) := by
  intro reader
  let := Machine.word32 32 (Nat.le_refl 32)
  have hthrough : PassedThrough Crc _ [sample 0x77 1 0x60 0x8B] :=
    sample_passedThrough (Tlv.decodeHeader_single (by decide)) (by decide +kernel)
  let f : Sent Crc :=
    { groups := sampleFrame 0x77 0x60 0x8B
      num := 2
      c0 := 0x77
      c1 := 0xC0
      groups_length := by decide
      num_le := by decide
      padded := by decide
      crc := by decide +kernel }
  have hs : Io.ByteSource.unread reader = f.bytes ++ [] := by decide
  constructor
  · exact (accepts_iff (by decide)).mpr ⟨f, [], _, hs, hthrough⟩
  · rintro ⟨f', rest, ms, hs', hspelled⟩
    rw [← Frame.Sent.payload_unique (hs.symm.trans hs')] at hspelled
    have hmore := ((hthrough.regular hspelled).2 _ List.mem_cons_self).more
    cases hmore

end Sml
end Smartmeter
