import Smartmeter.Sml.Frame.Decode

/-!
# The frame reader delivers what the decoder says

The feed of a frame reader is read off its state: what the two buffers hold,
followed by what the decoder makes of the unread bytes of the source.  One
iteration of the loop in `poll_read` either continues with the same feed or
answers with the next part of it.
-/

namespace Smartmeter
namespace Sml
namespace Frame

open Foundation
open Io (AsyncRead ByteSource)

namespace BufferList

@[simp] theorem get_modify_zero (l : BufferList) (f : Buffer -> Buffer) :
    (l.modify 0 f).get 0 = f (l.get 0) := by
  rcases l with ⟨b0, b1, swapped⟩
  cases swapped <;> rfl

@[simp] theorem get_modify_one (l : BufferList) (f : Buffer -> Buffer) :
    (l.modify 0 f).get 1 = l.get 1 := by
  rcases l with ⟨b0, b1, swapped⟩
  cases swapped <;> rfl

@[simp] theorem get_swap_zero (l : BufferList) :
    l.swapBuffers.get 0 = l.get 1 := by
  rcases l with ⟨b0, b1, swapped⟩
  cases swapped <;> rfl

@[simp] theorem get_swap_one (l : BufferList) :
    l.swapBuffers.get 1 = l.get 0 := by
  rcases l with ⟨b0, b1, swapped⟩
  cases swapped <;> rfl

end BufferList

theorem toNat_swapBytes_fromBeBytes (hi lo : UInt8) :
    (swapBytes (fromBeBytes hi lo)).toNat = hi.toNat + 256 * lo.toNat := by
  have hhi := hi.toNat_lt
  have hlo := lo.toNat_lt
  have hbe : (fromBeBytes hi lo).toNat = 256 * hi.toNat + lo.toNat := by
    unfold fromBeBytes
    rw [UInt16.toNat_ofNat']
    lia
  unfold swapBytes
  rw [hbe, UInt16.toNat_ofNat']
  lia

/-!
## Answers
-/

inductive Feed.Answer (buf : Nat) (f : Feed) :
    Poll (Except Io.Error (List UInt8)) -> Feed -> Prop where
  | pending {f' : Feed} (same : f'.Same f) (running : f.ended = false)
      (running' : f'.ended = false) : Answer buf f .pending f'
  | bytes (n : Nat) (pos : n ≠ 0) (room : n ≤ buf) (avail : n ≤ f.pend.length) :
      Answer buf f (.ready (.ok (f.bytes.take n))) (f.advance n)
  | eof (rest : List UInt8) (pend : f.pend = []) (ending : f.ending = .success rest) :
      Answer buf f (.ready (.ok [])) (Feed.spent rest)
  | error (e : Io.Error) (rest : List UInt8) (pend : f.pend = [])
      (ending : f.ending = .failure e rest) :
      Answer buf f (.ready (.error e)) (Feed.spent rest)

theorem Feed.Answer.congr {buf : Nat} {f g f' : Feed}
    {ans : Poll (Except Io.Error (List UInt8))} (hsame : f.Same g)
    (hrunning : f.ended = false) (h : Feed.Answer buf g ans f') :
    Feed.Answer buf f ans f' := by
  cases h with
  | pending same running running' =>
      exact .pending (same.trans hsame.symm) hrunning running'
  | bytes n pos room avail =>
      have hbytes : g.bytes = f.bytes := congrArg (List.map Prod.fst) hsame.1.symm
      have havail : n ≤ f.pend.length := by
        rw [hsame.1]
        exact avail
      rw [hbytes, ← hsame.advance pos havail]
      exact .bytes n pos room havail
  | eof rest pend ending => exact .eof rest (hsame.1.trans pend) (hsame.2.trans ending)
  | error e rest pend ending =>
      exact .error e rest (hsame.1.trans pend) (hsame.2.trans ending)

def Decoded.feed (d : Decoded) (unread : List UInt8) : Feed :=
  { pend := d.pend, ending := d.ending, ended := false, unread := unread }

theorem Decoded.advance_feed_prepend (d : Decoded) {held : List UInt8}
    (unread : List UInt8) {n : Nat} (hn : n ≠ 0) (hle : n ≤ held.length) :
    ((d.prepend held unread).feed unread).advance n =
      { (d.prepend (held.drop n) unread).feed unread with
        ended := (d.prepend (held.drop n) unread).pend.isEmpty &&
          d.ending.isSuccess } := by
  have hdrop : (d.prepend held unread).pend.drop n =
      (d.prepend (held.drop n) unread).pend := by
    change (held.map (fun b => (b, unread)) ++ d.pend).drop n = _
    rw [List.drop_append_of_le_length (by rwa [List.length_map]), ← List.map_drop]
    rfl
  have hunread : ((d.prepend held unread).feed unread).unreadAfter n = unread := by
    change ((((held.map (fun b => (b, unread)) ++ d.pend).take n).map
      Prod.snd).getLast?).getD unread = unread
    rw [List.take_append_of_le_length (by rwa [List.length_map]), ← List.map_take,
      List.map_map]
    cases hlast : ((held.take n).map
        (Prod.snd ∘ fun b : UInt8 => (b, unread))).getLast? with
    | none => rfl
    | some u =>
        rcases List.mem_map.mp (List.mem_of_getLast? hlast) with ⟨b, _, hb⟩
        exact hb.symm
  rw [Feed.advance_pos hn, hunread]
  change Feed.mk ((d.prepend held unread).pend.drop n) d.ending
    (((d.prepend held unread).pend.drop n).isEmpty && d.ending.isSuccess) unread = _
  rw [hdrop]
  rfl

namespace CheckingReader

variable {ρ δ : Type} [Digest δ] [ByteSource ρ]

def unread (me : CheckingReader ρ δ) : List UInt8 := ByteSource.unread me.reader

def first (me : CheckingReader ρ δ) : List UInt8 := (me.bufferlist.get 0).data

def second (me : CheckingReader ρ δ) : List UInt8 := (me.bufferlist.get 1).data

def behind (me : CheckingReader ρ δ) (lastone : Bool) : Decoded :=
  if lastone then { pend := [], ending := .success me.unread }
  else decode false me.second me.digest me.unread

def feed (me : CheckingReader ρ δ) : Feed :=
  match me.state with
  | .readBuf =>
      (decode me.inEsc me.second me.digest (me.first ++ me.unread)).feed me.unread
  | .returnBuf returned lastone =>
      ((me.behind lastone).prepend (me.first.drop returned) me.unread).feed me.unread
  | .ended => Feed.spent me.unread

def Inv (me : CheckingReader ρ δ) : Prop :=
  match me.state with
  | .readBuf => me.first.length < 4 ∧ (me.second = [] ∨ me.second.length = 4)
  | .returnBuf returned false =>
      me.inEsc = false ∧ me.first.length = 4 ∧ me.second.length = 4 ∧ returned ≤ 4
  | .returnBuf returned true =>
      returned ≤ me.first.length ∧ me.first.length ≤ 4 ∧ me.second = []
  | .ended => True

/-- A bound on the iterations until the next answer. -/
def turns (me : CheckingReader ρ δ) : Nat :=
  match me.state with
  | .readBuf =>
      let groups :=
        if me.second = [] then if me.inEsc then 2 else 3
        else if me.inEsc then 0 else 1
      (4 - me.first.length) + 5 * groups + 3
  | .returnBuf returned false => if returned < me.first.length then 1 else 13
  | .returnBuf _ true => 2
  | .ended => 1

omit [Digest δ] [ByteSource ρ] in
theorem turns_lt (me : CheckingReader ρ δ) : me.turns < 23 := by
  unfold turns
  split
  · split <;> split <;> lia
  · split <;> lia
  · lia
  · lia

theorem feed_readBuf (me : CheckingReader ρ δ) (h : me.state = .readBuf) :
    me.feed =
      (decode me.inEsc me.second me.digest (me.first ++ me.unread)).feed
        me.unread := by
  unfold feed
  rw [h]

theorem feed_returnBuf (me : CheckingReader ρ δ) {returned : Nat} {lastone : Bool}
    (h : me.state = .returnBuf returned lastone) :
    me.feed =
      ((me.behind lastone).prepend (me.first.drop returned) me.unread).feed
        me.unread := by
  unfold feed
  rw [h]

theorem feed_ended (me : CheckingReader ρ δ) (h : me.state = .ended) :
    me.feed = Feed.spent me.unread := by
  unfold feed
  rw [h]

theorem feed_unread (me : CheckingReader ρ δ) : me.feed.unread = me.unread := by
  unfold feed
  split <;> rfl

theorem hasEnded_eq (me : CheckingReader ρ δ) : me.hasEnded = me.feed.ended := by
  unfold hasEnded feed
  cases h : me.state with
  | readBuf => rfl
  | returnBuf returned lastone => rfl
  | ended => rfl

def patience (me : CheckingReader ρ δ) : Nat := ByteSource.patience me.reader

structure Continued (me me' : CheckingReader ρ δ) : Prop where
  same : me'.feed.Same me.feed
  running : me.feed.ended = false
  patience : me'.patience ≤ me.patience
  turns : me'.turns < me.turns

structure Polled (buf : Nat) (me : CheckingReader ρ δ)
    (ans : Poll (Except Io.Error (List UInt8))) (me' : CheckingReader ρ δ) :
    Prop where
  inv : me'.Inv
  answer : Feed.Answer buf me.feed ans me'.feed
  patience : me'.patience ≤ me.patience
  waits : ans = .pending -> me'.unread ≠ [] -> me'.patience < me.patience
  starves : ans = .pending -> me'.unread = [] ->
    me'.feed.pend = [] ∧ me'.feed.ending = .starved

theorem Polled.of_continued {buf : Nat} {me me' me'' : CheckingReader ρ δ}
    {ans : Poll (Except Io.Error (List UInt8))} (hc : Continued me me')
    (hp : Polled buf me' ans me'') : Polled buf me ans me'' where
  inv := hp.inv
  answer := hp.answer.congr hc.same.symm hc.running
  patience := Nat.le_trans hp.patience hc.patience
  waits hans hne := Nat.lt_of_lt_of_le (hp.waits hans hne) hc.patience
  starves := hp.starves

theorem Continued.trans {me me' me'' : CheckingReader ρ δ}
    (h : Continued me me') (h' : Continued me' me'') : Continued me me'' where
  same := h'.same.trans h.same
  running := h.running
  patience := Nat.le_trans h'.patience h.patience
  turns := Nat.lt_trans h'.turns h.turns

def Iteration.Keeps (buf : Nat) (me : CheckingReader ρ δ) :
    Iteration ρ δ -> Prop
  | .continue me' => me'.Inv ∧ Continued me me'
  | .answer ans me' => Polled buf me ans me'

theorem Iteration.Keeps.of_continued {buf : Nat} {me me' : CheckingReader ρ δ}
    {x : Iteration ρ δ} (hc : Continued me me') (hx : x.Keeps buf me') :
    x.Keeps buf me := by
  cases x with
  | «continue» me'' => exact ⟨hx.1, hc.trans hx.2⟩
  | answer ans me'' => exact Polled.of_continued hc hx

structure Filled (me : CheckingReader ρ δ) : Prop where
  state : me.state = .readBuf
  first : me.first.length = 4
  second : me.second = [] ∨ me.second.length = 4

omit [Digest δ] [ByteSource ρ] in
theorem Filled.turns {me : CheckingReader ρ δ} (h : me.Filled) :
    me.turns =
      5 * (if me.second = [] then if me.inEsc then 2 else 3
        else if me.inEsc then 0 else 1) + 3 := by
  unfold CheckingReader.turns
  rw [h.state]
  simp only [h.first, Nat.sub_self, Nat.zero_add]

theorem returnHeldBack_keeps {buf : Nat} {me me' : CheckingReader ρ δ}
    (h : me.Filled) (hstate : me'.state = .readBuf) (hesc : me'.inEsc = false)
    (hfirst : me'.first = me.second) (hsecond : me'.second = me.first)
    (hreader : me'.reader = me.reader)
    (hfeed : me.feed = ((decode false me.first me'.digest me.unread).prepend
      me.second me.unread).feed me.unread) :
    (Iteration.continue (returnHeldBack me')).Keeps buf me := by
  have hunread : me'.unread = me.unread := congrArg ByteSource.unread hreader
  have hpatience : me'.patience ≤ me.patience :=
    Nat.le_of_eq (congrArg ByteSource.patience hreader)
  have hrunning : me.feed.ended = false := by
    rw [hfeed]
    rfl
  have hlen := h.first
  rcases h.second with hnil | hfull
  · -- nothing was held back: the next group is read
    have hread : ¬ (me'.bufferlist.get 0).read > 0 := by
      change ¬ me'.first.length > 0
      rw [hfirst, hnil]
      exact Nat.lt_irrefl 0
    have hne : me'.second ≠ [] := by
      intro h'
      rw [hsecond] at h'
      rw [h'] at hlen
      cases hlen
    have hkept : returnHeldBack me' = me' := if_neg hread
    rw [hkept]
    constructor
    · unfold Inv
      rw [hstate]
      constructor
      · rw [hfirst, hnil]
        exact Nat.zero_lt_succ 3
      · right
        rw [hsecond]
        exact hlen
    · constructor
      · rw [feed_readBuf _ hstate, hesc, hsecond, hfirst, hunread, hfeed, hnil]
        exact Feed.Same.refl _
      · exact hrunning
      · exact hpatience
      · rw [h.turns]
        unfold turns
        rw [hstate]
        simp only [hfirst, hnil, if_neg hne, hesc, if_true, List.length_nil,
          Bool.false_eq_true, if_false]
        split <;> decide
  · have hread : (me'.bufferlist.get 0).read > 0 := by
      change me'.first.length > 0
      rw [hfirst, hfull]
      exact Nat.zero_lt_succ 3
    have hkept : returnHeldBack me' = { me' with state := .returnBuf 0 false } :=
      if_pos hread
    rw [hkept]
    constructor
    · refine ⟨hesc, ?_, ?_, Nat.zero_le 4⟩
      · change me'.first.length = 4
        rw [hfirst]
        exact hfull
      · change me'.second.length = 4
        rw [hsecond]
        exact hlen
    · constructor
      · rw [feed_returnBuf _ rfl, hfeed]
        change Feed.Same
          (((decode false me'.second me'.digest me'.unread).prepend
            (me'.first.drop 0) me'.unread).feed me'.unread) _
        rw [hfirst, hsecond, hunread, List.drop_zero]
        exact Feed.Same.refl _
      · exact hrunning
      · exact hpatience
      · rw [h.turns]
        have hone : ({ me' with state := .returnBuf 0 false } :
            CheckingReader ρ δ).turns = 1 := by
          change (if 0 < me'.first.length then 1 else 13) = 1
          rw [hfirst, hfull]
          rfl
        rw [hone]
        lia

theorem plain_keeps {buf : Nat} {me : CheckingReader ρ δ} (h : me.Filled)
    (hesc : me.inEsc = false) : (plain me).Keeps buf me := by
  have hfeed := feed_readBuf _ h.state
  rw [hesc] at hfeed
  unfold plain
  by_cases hgroup : me.first = escape
  · -- the escape sequence: the next group decides what it means
    have hstep : (me.bufferlist.get 0).dataFilled = escape := hgroup
    rw [hgroup, decode_escape] at hfeed
    simp only [if_pos hstep]
    let me' : CheckingReader ρ δ := { me with
      digest := Digest.update me.digest (me.bufferlist.get 0).dataFilled
      bufferlist := me.bufferlist.modify 0 (·.setRead 0)
      inEsc := true }
    have hstate : me'.state = .readBuf := h.state
    have hdigest : me'.digest = Digest.update me.digest escape := by
      rw [← hstep]
    have hfirst : me'.first = [] := by
      change ((me.bufferlist.modify 0 (·.setRead 0)).get 0).data = []
      rw [BufferList.get_modify_zero]
      rfl
    have hsecond : me'.second = me.second := by
      change ((me.bufferlist.modify 0 (·.setRead 0)).get 1).data = _
      rw [BufferList.get_modify_one]
      rfl
    change me'.Inv ∧ Continued me me'
    constructor
    · unfold Inv
      rw [hstate]
      constructor
      · rw [hfirst]
        exact Nat.zero_lt_succ 3
      · rw [hsecond]
        exact h.second
    · constructor
      · rw [feed_readBuf _ hstate, hfeed, hfirst, hsecond, hdigest]
        exact Feed.Same.refl _
      · rw [hfeed]
        rfl
      · exact Nat.le_refl _
      · rw [h.turns]
        unfold turns
        rw [hstate]
        simp only [hfirst, hsecond, hesc, List.length_nil]
        change 4 - 0 + 5 * (if me.second = [] then 2 else 0) + 3 < _
        split <;> decide
  · have hstep : (me.bufferlist.get 0).dataFilled ≠ escape := hgroup
    rw [decode_data me.unread h.first hgroup] at hfeed
    simp only [if_neg hstep]
    apply returnHeldBack_keeps h
    · exact h.state
    · exact hesc
    · exact congrArg Buffer.data (BufferList.get_swap_zero me.bufferlist)
    · exact congrArg Buffer.data (BufferList.get_swap_one me.bufferlist)
    · rfl
    · exact hfeed

theorem Polled.failure {buf : Nat} {me me' : CheckingReader ρ δ} {e : Io.Error}
    (hfeed : me.feed = Decoded.feed { pend := [], ending := .failure e me.unread }
      me.unread)
    (hstate : me'.state = .ended) (hreader : me'.reader = me.reader) :
    Polled buf me (.ready (.error e)) me' where
  inv := by
    unfold Inv
    rw [hstate]
    trivial
  answer := by
    have hunread : me'.unread = me.unread := congrArg ByteSource.unread hreader
    rw [feed_ended _ hstate, hunread]
    apply Feed.Answer.error
    · rw [hfeed]
      rfl
    · rw [hfeed]
      rfl
  patience := Nat.le_of_eq (congrArg ByteSource.patience hreader)
  waits h := by cases h
  starves h := by cases h

theorem Polled.bytes {buf : Nat} {me me' : CheckingReader ρ δ} {bytes : List UInt8}
    (hinv : me'.Inv)
    (hanswer : Feed.Answer buf me.feed (.ready (.ok bytes)) me'.feed)
    (hreader : me'.reader = me.reader) :
    Polled buf me (.ready (.ok bytes)) me' where
  inv := hinv
  answer := hanswer
  patience := Nat.le_of_eq (congrArg ByteSource.patience hreader)
  waits h := by cases h
  starves h := by cases h

theorem footer_keeps {buf : Nat} {me : CheckingReader ρ δ} (h : me.Filled)
    {num c0 c1 : UInt8} (hgroup : me.first = [0x1A, num, c0, c1])
    (hesc : me.inEsc = true) : (footer me num c0 c1).Keeps buf me := by
  have hfeed := feed_readBuf _ h.state
  rw [hesc, hgroup, decode_footer] at hfeed
  have hcrc := toNat_swapBytes_fromBeBytes c0 c1
  have hheld : ((me.bufferlist.modify 0 (·.setRead 0)).swapBuffers.get 0).data =
      me.second := by
    rw [BufferList.get_swap_zero, BufferList.get_modify_one]
    rfl
  have hempty : ((me.bufferlist.modify 0 (·.setRead 0)).swapBuffers.get 1).data =
      [] := by
    rw [BufferList.get_swap_one, BufferList.get_modify_zero]
    rfl
  have hnum : num > 3 <-> ¬ num.toNat ≤ 3 := by
    rw [Nat.not_le]
    exact Iff.rfl
  unfold decodeFooter at hfeed
  unfold footer
  by_cases hsum : swapBytes (fromBeBytes c0 c1) =
      Digest.finalize (Digest.update me.digest [0x1A, num])
  · simp only [if_neg (not_not_intro hsum)]
    rw [← hcrc, hsum] at hfeed
    by_cases hthree : num.toNat ≤ 3
    · simp only [if_neg (fun hgt => hnum.mp hgt hthree)]
      by_cases hlen : num.toNat ≤ me.second.length
      · have hread : ¬ ((me.bufferlist.modify 0 (·.setRead 0)).swapBuffers.get 0).read <
            num.toNat := by
          change ¬ ((me.bufferlist.modify 0 (·.setRead 0)).swapBuffers.get 0).data.length <
            num.toNat
          rw [hheld]
          exact Nat.not_lt_of_le hlen
        simp only [if_neg hread]
        rw [if_pos ⟨rfl, hthree, hlen⟩] at hfeed
        let me' : CheckingReader ρ δ := { me with
          bufferlist := ((me.bufferlist.modify 0 (·.setRead 0)).swapBuffers).modify 0
            (·.subRead num.toNat)
          digest := Digest.digest
          state := .returnBuf 0 true }
        have hfirst : me'.first = me.second.take (me.second.length - num.toNat) := by
          change ((((me.bufferlist.modify 0 (·.setRead 0)).swapBuffers).modify 0
            (·.subRead num.toNat)).get 0).data = _
          rw [BufferList.get_modify_zero]
          unfold Buffer.subRead
          rw [hheld]
        have hsecond : me'.second = [] := by
          change ((((me.bufferlist.modify 0 (·.setRead 0)).swapBuffers).modify 0
            (·.subRead num.toNat)).get 1).data = _
          rw [BufferList.get_modify_one]
          exact hempty
        have hfour : me.second.length ≤ 4 := by
          rcases h.second with hnil | hfull
          · rw [hnil]
            exact Nat.zero_le 4
          · exact Nat.le_of_eq hfull
        change me'.Inv ∧ Continued me me'
        constructor
        · refine ⟨Nat.zero_le _, ?_, hsecond⟩
          rw [hfirst, List.length_take]
          lia
        · constructor
          · rw [feed_returnBuf me' rfl, hfeed, hfirst, List.drop_zero]
            constructor
            · exact List.append_nil _
            · rfl
          · rw [hfeed]
            rfl
          · exact Nat.le_refl _
          · rw [h.turns]
            change 2 < _
            lia
      · have hread : ((me.bufferlist.modify 0 (·.setRead 0)).swapBuffers.get 0).read <
            num.toNat := by
          change ((me.bufferlist.modify 0 (·.setRead 0)).swapBuffers.get 0).data.length <
            num.toNat
          rw [hheld]
          exact Nat.lt_of_not_le hlen
        simp only [if_pos hread]
        rw [if_neg (fun hok => hlen hok.2.2)] at hfeed
        exact Polled.failure hfeed rfl rfl
    · simp only [if_pos (hnum.mpr hthree)]
      rw [if_neg (fun hok => hthree hok.2.1)] at hfeed
      exact Polled.failure hfeed rfl rfl
  · simp only [if_pos hsum]
    have hne : c0.toNat + 256 * c1.toNat ≠
        (Digest.finalize (Digest.update me.digest [0x1A, num])).toNat := by
      rw [← hcrc]
      exact fun heq => hsum (UInt16.toNat_inj.mp heq)
    rw [if_neg (fun hok => hne hok.1)] at hfeed
    exact Polled.failure hfeed rfl rfl

theorem escaped_keeps {buf : Nat} {me : CheckingReader ρ δ} (h : me.Filled)
    (hesc : me.inEsc = true) : (escaped me).Keeps buf me := by
  have hfeed := feed_readBuf _ h.state
  rw [hesc] at hfeed
  unfold escaped
  by_cases hgroup : me.first = escape
  · have hstep : (me.bufferlist.get 0).dataFilled = escape := hgroup
    simp only [if_pos hstep]
    have hescape : Digest.update me.digest (me.bufferlist.get 0).dataFilled =
        Digest.update me.digest escape := by
      rw [hstep]
    rw [hgroup, decode_escaped, ← hescape, ← hgroup] at hfeed
    apply returnHeldBack_keeps h
    · exact h.state
    · rfl
    · exact congrArg Buffer.data (BufferList.get_swap_zero me.bufferlist)
    · exact congrArg Buffer.data (BufferList.get_swap_one me.bufferlist)
    · rfl
    · exact hfeed
  · have hstep : (me.bufferlist.get 0).dataFilled ≠ escape := hgroup
    simp only [if_neg hstep]
    split
    · next num c0 c1 hfirst => exact footer_keeps h hfirst hesc
    · next hother =>
        rw [decode_unknown me.unread h.first hgroup hother] at hfeed
        exact Polled.failure hfeed rfl rfl

theorem received_keeps {buf : Nat} {me : CheckingReader ρ δ} {reader : ρ}
    {bytes : List UInt8} (hstate : me.state = .readBuf) (hinv : me.Inv)
    (hne : bytes ≠ []) (hroom : bytes.length ≤ 4 - me.first.length)
    (hunread : me.unread = bytes ++ ByteSource.unread reader)
    (hpatience : ByteSource.patience reader ≤ me.patience) :
    (received { me with reader := reader } bytes).Keeps buf me := by
  unfold Inv at hinv
  rw [hstate] at hinv
  rcases hinv with ⟨hshort, hsecond⟩
  let me' : CheckingReader ρ δ := { me with
    reader := reader
    bufferlist := me.bufferlist.modify 0 (·.addRead bytes) }
  have hstate' : me'.state = .readBuf := hstate
  have hfirst : me'.first = me.first ++ bytes := by
    change ((me.bufferlist.modify 0 (·.addRead bytes)).get 0).data = _
    rw [BufferList.get_modify_zero]
    rfl
  have hsecond' : me'.second = me.second := by
    change ((me.bufferlist.modify 0 (·.addRead bytes)).get 1).data = _
    rw [BufferList.get_modify_one]
    rfl
  have hlen : me'.first.length = me.first.length + bytes.length := by
    rw [hfirst, List.length_append]
  have hpos : 0 < bytes.length := List.length_pos_iff.mpr hne
  have hcontinued : Continued me me' := by
    constructor
    · rw [feed_readBuf _ hstate', feed_readBuf _ hstate, hfirst, hsecond', hunread,
        List.append_assoc]
      exact Feed.Same.refl _
    · rw [feed_readBuf _ hstate]
      rfl
    · exact hpatience
    · unfold turns
      rw [hstate']
      simp only [hsecond', hlen]
      change 4 - (me.first.length + bytes.length) +
        5 * (if me.second = [] then if me.inEsc = true then 2 else 3
          else if me.inEsc = true then 0 else 1) + 3 < _
      lia
  change (if me'.first.length < 4 then Iteration.continue me'
    else if me.inEsc then escaped me' else plain me').Keeps buf me
  by_cases hfull : me'.first.length < 4
  · rw [if_pos hfull]
    constructor
    · unfold Inv
      rw [hstate']
      constructor
      · exact hfull
      · rw [hsecond']
        exact hsecond
    · exact hcontinued
  · rw [if_neg hfull]
    have hfilled : me'.Filled := by
      constructor
      · exact hstate'
      · lia
      · rw [hsecond']
        exact hsecond
    cases hesc : me.inEsc with
    | true =>
        rw [if_pos rfl]
        exact (escaped_keeps hfilled hesc).of_continued hcontinued
    | false =>
        rw [if_neg Bool.false_ne_true]
        exact (plain_keeps hfilled hesc).of_continued hcontinued

/-- What is delivered behind the first `returned` bytes of the first buffer. -/
def feedBehind (me : CheckingReader ρ δ) (returned : Nat) (lastone : Bool) : Feed :=
  let d := (me.behind lastone).prepend (me.first.drop returned) me.unread
  { d.feed me.unread with ended := d.pend.isEmpty && (me.behind lastone).ending.isSuccess }

theorem returned_answer {buf returned n : Nat} {lastone : Bool} {me : CheckingReader ρ δ}
    (hstate : me.state = .returnBuf returned lastone) (hn : n ≠ 0) (hbuf : n ≤ buf)
    (hle : n ≤ (me.first.drop returned).length) :
    Feed.Answer buf me.feed (.ready (.ok ((me.first.drop returned).take n)))
      (me.feedBehind (returned + n) lastone) := by
  have hfeed := feed_returnBuf _ hstate
  have hbytes : ((me.first.drop returned).take n) = me.feed.bytes.take n := by
    rw [hfeed]
    change _ = (((me.first.drop returned).map (fun b => (b, me.unread)) ++
      (me.behind lastone).pend).map Prod.fst).take n
    rw [List.map_append, List.map_map,
      List.take_append_of_le_length (by rwa [List.length_map]), ← List.map_take]
    exact (List.map_id _).symm
  have havail : n ≤ me.feed.pend.length := by
    rw [hfeed]
    change n ≤ ((me.first.drop returned).map _ ++ (me.behind lastone).pend).length
    rw [List.length_append, List.length_map]
    exact Nat.le_add_right_of_le hle
  have hadvance := Decoded.advance_feed_prepend (me.behind lastone) me.unread hn hle
  rw [← hfeed, List.drop_drop] at hadvance
  have hanswer := Feed.Answer.bytes (f := me.feed) n hn hbuf havail
  rw [← hbytes, hadvance] at hanswer
  exact hanswer

/-- A frame that ends well has not ended before its last byte. -/
theorem feedBehind_open {returned : Nat} {lastone : Bool} {me : CheckingReader ρ δ}
    (hlast : lastone = true -> returned < me.first.length)
    (hsecond : lastone = false -> me.second.length = 4) :
    me.feedBehind returned lastone =
      ((me.behind lastone).prepend (me.first.drop returned) me.unread).feed me.unread := by
  have hopen : (((me.behind lastone).prepend (me.first.drop returned)
      me.unread).pend.isEmpty && (me.behind lastone).ending.isSuccess) = false := by
    cases lastone with
    | true =>
        have hrest : me.first.drop returned ≠ [] := by
          rw [Ne, List.drop_eq_nil_iff]
          have hlt := hlast rfl
          lia
        have hempty : ((me.behind true).prepend (me.first.drop returned)
            me.unread).pend.isEmpty = false := by
          rw [List.isEmpty_eq_false_iff]
          intro hnil
          exact hrest (List.map_eq_nil_iff.mp (List.append_eq_nil_iff.mp hnil).1)
        rw [hempty, Bool.false_and]
    | false =>
        cases hsuccess : (me.behind false).ending.isSuccess with
        | false => rw [Bool.and_false]
        | true =>
            have hne := decode_pend_ne_nil (hsecond rfl) hsuccess
            rw [Bool.and_true, List.isEmpty_eq_false_iff]
            intro hnil
            exact hne (List.append_eq_nil_iff.mp hnil).2
  unfold feedBehind Decoded.feed
  dsimp only
  rw [hopen]

theorem returnLast_keeps {buf returned n : Nat} {me : CheckingReader ρ δ}
    (hstate : me.state = .returnBuf returned true) (hn : n ≠ 0) (hbuf : n ≤ buf)
    (hle : n ≤ (me.first.drop returned).length) (hend : returned + n = me.first.length) :
    Polled buf me (.ready (.ok ((me.first.drop returned).take n)))
      { me with bufferlist := me.bufferlist.modify 0 (·.setRead 0), state := .ended } := by
  let me' : CheckingReader ρ δ := { me with
    bufferlist := me.bufferlist.modify 0 (·.setRead 0)
    state := .ended }
  have hanswer := returned_answer hstate hn hbuf hle
  unfold feedBehind at hanswer
  rw [List.drop_eq_nil_of_le (Nat.le_of_eq hend.symm)] at hanswer
  apply Polled.bytes
  · trivial
  · rw [feed_ended me' rfl]
    exact hanswer
  · rfl

theorem returnMore_keeps {buf returned n : Nat} {lastone : Bool} {me : CheckingReader ρ δ}
    (hstate : me.state = .returnBuf returned lastone) (hinv : me.Inv) (hn : n ≠ 0)
    (hbuf : n ≤ buf) (hle : n ≤ (me.first.drop returned).length)
    (hmore : ¬ (lastone = true ∧ returned + n = me.first.length)) :
    Polled buf me (.ready (.ok ((me.first.drop returned).take n)))
      { me with state := .returnBuf (returned + n) lastone } := by
  have hsum : returned + n ≤ me.first.length := by
    rw [List.length_drop] at hle
    lia
  unfold Inv at hinv
  rw [hstate] at hinv
  have hanswer := returned_answer hstate hn hbuf hle
  refine Polled.bytes ?_ ?_ rfl
  · cases lastone with
    | true => exact ⟨hsum, hinv.2⟩
    | false =>
        rcases hinv with ⟨hesc, hfirst, hsecond, _⟩
        refine ⟨hesc, hfirst, hsecond, ?_⟩
        rw [← hfirst]
        exact hsum
  · let me' : CheckingReader ρ δ := { me with state := .returnBuf (returned + n) lastone }
    rw [feedBehind_open] at hanswer
    · rw [feed_returnBuf me' rfl]
      exact hanswer
    · intro hlast
      have hne : returned + n ≠ me.first.length := fun h => hmore ⟨hlast, h⟩
      lia
    · rintro rfl
      exact hinv.2.2.1

theorem returnEnded_keeps {buf returned : Nat} {me : CheckingReader ρ δ}
    (hstate : me.state = .returnBuf returned true) (hleft : ¬ returned < me.first.length) :
    Iteration.Keeps buf me (.continue { me with
      bufferlist := me.bufferlist.modify 0 (·.setRead 0), state := .ended }) := by
  have hfeed := feed_returnBuf _ hstate
  rw [List.drop_eq_nil_of_le (Nat.le_of_not_lt hleft)] at hfeed
  let me' : CheckingReader ρ δ := { me with
    bufferlist := me.bufferlist.modify 0 (·.setRead 0)
    state := .ended }
  change me'.Inv ∧ Continued me me'
  constructor
  · trivial
  · constructor
    · rw [feed_ended me' rfl, hfeed]
      exact Feed.Same.refl _
    · rw [hfeed]
      rfl
    · exact Nat.le_refl _
    · unfold turns
      rw [hstate]
      exact Nat.lt_succ_self 1

theorem returnRead_keeps {buf returned : Nat} {me : CheckingReader ρ δ}
    (hstate : me.state = .returnBuf returned false) (hinv : me.Inv)
    (hleft : ¬ returned < me.first.length) :
    Iteration.Keeps buf me (.continue { me with
      bufferlist := me.bufferlist.modify 0 (·.setRead 0), state := .readBuf }) := by
  have hfeed := feed_returnBuf _ hstate
  rw [List.drop_eq_nil_of_le (Nat.le_of_not_lt hleft)] at hfeed
  unfold Inv at hinv
  rw [hstate] at hinv
  rcases hinv with ⟨hesc, _, hsecond, _⟩
  let me' : CheckingReader ρ δ := { me with
    bufferlist := me.bufferlist.modify 0 (·.setRead 0)
    state := .readBuf }
  have hfirst' : me'.first = [] := by
    change ((me.bufferlist.modify 0 (·.setRead 0)).get 0).data = []
    rw [BufferList.get_modify_zero]
    rfl
  have hsecond' : me'.second = me.second := by
    change ((me.bufferlist.modify 0 (·.setRead 0)).get 1).data = _
    rw [BufferList.get_modify_one]
    rfl
  change me'.Inv ∧ Continued me me'
  constructor
  · constructor
    · rw [hfirst']
      exact Nat.zero_lt_succ 3
    · right
      rw [hsecond']
      exact hsecond
  · constructor
    · rw [feed_readBuf me' rfl, hfeed, hfirst', hsecond']
      change Feed.Same ((decode me.inEsc me.second me.digest
        ([] ++ me.unread)).feed me.unread) _
      rw [hesc]
      exact Feed.Same.refl _
    · rw [hfeed]
      rfl
    · exact Nat.le_refl _
    · have hne : me.second ≠ [] := by
        intro h
        rw [h] at hsecond
        cases hsecond
      have hturns : me'.turns = 12 := by
        change (4 - me'.first.length) + 5 * (if me'.second = [] then
          if me.inEsc then 2 else 3 else if me.inEsc then 0 else 1) + 3 = 12
        rw [hfirst', hsecond', if_neg hne, hesc]
        rfl
      rw [hturns]
      unfold turns
      rw [hstate]
      change 12 < if returned < me.first.length then 1 else 13
      rw [if_neg hleft]
      exact Nat.lt_succ_self 12

theorem returnBytes_keeps {buf returned : Nat} {lastone : Bool}
    {me : CheckingReader ρ δ} (hbuf : buf ≠ 0)
    (hstate : me.state = .returnBuf returned lastone) (hinv : me.Inv) :
    (returnBytes me returned lastone buf).Keeps buf me := by
  unfold returnBytes
  change (if returned < me.first.length then _ else _ : Iteration ρ δ).Keeps buf me
  by_cases hleft : returned < me.first.length
  · rw [if_pos hleft]
    let n := min buf (me.first.length - returned)
    have hn : n ≠ 0 := by
      change min buf (me.first.length - returned) ≠ 0
      lia
    have hle : n ≤ (me.first.drop returned).length := by
      rw [List.length_drop]
      exact Nat.min_le_right buf _
    change Polled buf me (.ready (.ok ((me.first.drop returned).take n)))
      (if (lastone && returned + n == me.first.length) = true then _ else _)
    by_cases hlast : lastone = true ∧ returned + n = me.first.length
    · rcases hlast with ⟨rfl, hend⟩
      rw [if_pos (by rw [hend, Bool.true_and]; exact beq_self_eq_true _)]
      exact returnLast_keeps hstate hn (Nat.min_le_left buf _) hle hend
    · rw [if_neg (by rw [Bool.and_eq_true, beq_iff_eq]; exact hlast)]
      exact returnMore_keeps hstate hinv hn (Nat.min_le_left buf _) hle hlast
  · rw [if_neg hleft]
    cases lastone with
    | true => exact returnEnded_keeps hstate hleft
    | false => exact returnRead_keeps hstate hinv hleft

theorem iteration_keeps {buf : Nat} {me : CheckingReader ρ δ} (hbuf : buf ≠ 0)
    (hinv : me.Inv) :
    exists x, iteration me buf = some x ∧ x.Keeps buf me := by
  unfold iteration
  cases hstate : me.state with
  | readBuf =>
      have hfeed := feed_readBuf _ hstate
      have hinv' := hinv
      unfold Inv at hinv'
      rw [hstate] at hinv'
      rcases hinv' with ⟨hshort, _⟩
      have hroom : 0 < (me.bufferlist.get 0).len - (me.bufferlist.get 0).read :=
        Nat.sub_pos_of_lt hshort
      rcases ByteSource.answers me.reader _ hroom with ⟨ans, reader, hpoll, hans⟩
      simp only [hpoll]
      cases ans with
      | pending =>
          rcases hans with ⟨hunread, hpatience⟩
          refine ⟨_, rfl, ?_⟩
          rw [← hstate]
          let me' : CheckingReader ρ δ := { me with reader := reader }
          have hfeed' : me'.feed = me.feed := by
            rw [feed_readBuf me' hstate, hfeed]
            change Decoded.feed (decode _ _ _ (me.first ++ ByteSource.unread reader))
              (ByteSource.unread reader) = _
            rw [hunread]
            rfl
          have hrunning : me.feed.ended = false := by
            rw [hfeed]
            rfl
          change Polled buf me .pending me'
          constructor
          · exact hinv
          · rw [hfeed']
            exact .pending (Feed.Same.refl _) hrunning hrunning
          · exact hpatience.1
          · intro _ hne
            apply hpatience.2
            rw [← hunread]
            exact hne
          · intro _ hnil
            have hempty : me.unread = [] := hunread.symm.trans hnil
            rw [hfeed', hfeed, hempty, List.append_nil, decode_short _ _ _ hshort]
            exact ⟨rfl, rfl⟩
      | ready res =>
          cases res with
          | error e => exact hans.elim
          | ok bytes =>
              rcases hans with ⟨hne, hle, hunread, hpatience⟩
              refine ⟨_, rfl, ?_⟩
              rw [← hstate]
              exact received_keeps hstate hinv hne hle hunread hpatience
  | returnBuf returned lastone =>
      exact ⟨_, rfl, returnBytes_keeps hbuf hstate hinv⟩
  | ended =>
      refine ⟨_, rfl, ?_⟩
      change Polled buf me (.ready (.ok [])) me
      have hfeed := feed_ended _ hstate
      refine Polled.bytes hinv ?_ rfl
      rw [hfeed]
      exact .eof me.unread rfl rfl

theorem pollLoop_polled {buf : Nat} (hbuf : buf ≠ 0) {n : Nat}
    {me : CheckingReader ρ δ} (hinv : me.Inv) (hn : me.turns < n) :
    exists ans me', pollLoop n me buf = some (ans, me') ∧ Polled buf me ans me' := by
  induction n generalizing me with
  | zero => exact absurd hn (Nat.not_lt_zero _)
  | succ n ih =>
      rcases iteration_keeps hbuf hinv with ⟨x, hx, hkeeps⟩
      unfold pollLoop
      rw [hx]
      cases x with
      | answer ans me' => exact ⟨ans, me', rfl, hkeeps⟩
      | «continue» me' =>
          rcases hkeeps with ⟨hinv', hcontinued⟩
          have hlt : me'.turns < n :=
            Nat.lt_of_lt_of_le hcontinued.turns (Nat.lt_succ_iff.mp hn)
          rcases ih hinv' hlt with ⟨ans, me'', hloop, hpolled⟩
          exact ⟨ans, me'', hloop, hpolled.of_continued hcontinued⟩

theorem pollRead_polled [Machine] {buf : Nat} (hbuf : buf ≠ 0)
    {me : CheckingReader ρ δ} (hinv : me.Inv) :
    exists ans me', AsyncRead.pollRead me buf = some (ans, me') ∧
      Polled buf me ans me' := by
  apply pollLoop_polled hbuf hinv
  have hturns := me.turns_lt
  have hfuel := Machine.fuel_ge
  lia

omit [ByteSource ρ] in
theorem new_inv (reader : ρ) : (new reader : CheckingReader ρ δ).Inv := by
  constructor
  · exact Nat.zero_lt_succ 3
  · left
    rfl

theorem new_feed (reader : ρ) :
    (new reader : CheckingReader ρ δ).feed =
      (decodeFrame δ (ByteSource.unread reader)).feed (ByteSource.unread reader) := rfl

end CheckingReader

end Frame
end Sml
end Smartmeter
