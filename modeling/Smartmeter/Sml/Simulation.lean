import Smartmeter.Sml.Stream

/-!
# Polling agrees with the meaning on the stream

What a run of polls has done so far, and what it will do, is what the task does
on the whole byte stream, whatever pieces the source cuts it into.
-/

namespace Smartmeter
namespace Sml

open Foundation
open Frame (Feed)
open Io (AsyncRead ByteSource ReadExact ReadU8 answerBytes)

/-!
## The stream behind the readers
-/

namespace World

variable {ρ δ ω : Type} [Digest δ] [ByteSource ρ]

def view (w : World ρ δ ω) : Stream δ ω :=
  { line :=
      match w.line with
      | .source reader => .source (ByteSource.unread reader)
      | .frame messages => .frame messages.inner.feed messages.digest
    taken := w.taken
    log := w.log }

def Inv (w : World ρ δ ω) : Prop :=
  match w.line with
  | .source _ => True
  | .frame messages => messages.inner.Inv

def patience (w : World ρ δ ω) : Nat := ByteSource.patience w.line.reader

def Drained (w : World ρ δ ω) : Prop := w.unread = []

theorem view_unread (w : World ρ δ ω) : w.view.unread = w.unread := by
  rcases w with ⟨line, taken, log⟩
  cases line with
  | source reader => rfl
  | frame messages => exact messages.inner.feed_unread

theorem view_observe (mark : Mark ω) (w : World ρ δ ω) :
    (w.observe mark).view = w.view.observe mark := by
  unfold observe Stream.observe
  rw [view_unread]
  rfl

theorem view_newFrame (w : World ρ δ ω) : w.newFrame.view = w.view.newFrame := by
  unfold newFrame Stream.newFrame
  rw [view_unread]
  rfl

theorem view_hasEnded (w : World ρ δ ω) : w.line.hasEnded = w.view.hasEnded := by
  rcases w with ⟨line, taken, log⟩
  cases line with
  | source reader => rfl
  | frame messages => exact messages.inner.hasEnded_eq

theorem view_finalize (w : World ρ δ ω) :
    w.finalize.1 = w.view.finalize.1 ∧ w.finalize.2.view = w.view.finalize.2 := by
  rcases w with ⟨line, taken, log⟩
  cases line with
  | source reader => exact ⟨rfl, view_observe _ _⟩
  | frame messages => exact ⟨rfl, view_observe _ _⟩

theorem view_reset (w : World ρ δ ω) : w.reset.view = w.view.reset := by
  rcases w with ⟨line, taken, log⟩
  cases line with
  | source reader => exact view_observe _ _
  | frame messages => exact view_observe _ _

end World

/-!
## Answers of the messages
-/

namespace Stream

variable {δ ω : Type} [Digest δ]

structure SameFrame (t t' : Stream δ ω) : Prop where
  frames : exists feed feed' digest, t.line = .frame feed digest ∧
    t'.line = .frame feed' digest ∧ feed'.Same feed
  taken : t'.taken = t.taken
  log : t'.log = t.log

namespace SameFrame

variable {t t' : Stream δ ω}

omit [Digest δ] in
theorem bytes (h : SameFrame t t') : t'.bytes = t.bytes := by
  rcases h.frames with ⟨feed, feed', digest, hline, hline', hsame⟩
  unfold Stream.bytes
  rw [hline, hline']
  exact congrArg (List.map Prod.fst) hsame.1

theorem advance (h : SameFrame t t') {n : Nat} (hn : n ≠ 0)
    (hle : n ≤ t.bytes.length) : t'.advance n = t.advance n := by
  have hbytes := h.bytes
  rcases t with ⟨line, taken, log⟩
  rcases t' with ⟨line', taken', log'⟩
  rcases h with ⟨⟨feed, feed', digest, hline, hline', hsame⟩, htaken, hlog⟩
  cases hline
  cases hline'
  cases htaken
  cases hlog
  have hpend : n ≤ feed'.pend.length := by
    rw [hsame.1, ← Feed.bytes_length]
    exact hle
  change feed'.bytes = feed.bytes at hbytes
  unfold Stream.advance
  simp only [hsame.advance hn hpend, hbytes]

theorem readBeyond {α : Type} (h : SameFrame t t') :
    t'.readBeyond (α := α) = t.readBeyond := by
  have hbytes := h.bytes
  rcases t with ⟨line, taken, log⟩
  rcases t' with ⟨line', taken', log'⟩
  rcases h with ⟨⟨feed, feed', digest, hline, hline', hsame⟩, htaken, hlog⟩
  cases hline
  cases hline'
  cases htaken
  cases hlog
  change feed'.bytes = feed.bytes at hbytes
  unfold Stream.readBeyond exhaust
  simp only [hsame.2, hbytes]

theorem readExact (h : SameFrame t t') {n : Nat} (hn : n ≠ 0) :
    t'.readExact n = t.readExact n := by
  unfold Stream.readExact
  rw [h.bytes, h.readBeyond]
  by_cases hle : n ≤ t.bytes.length
  · rw [if_pos hle, if_pos hle, h.advance hn hle]
  · rw [if_neg hle, if_neg hle]

theorem readU8 (h : SameFrame t t') : t'.readU8 = t.readU8 := by
  unfold Stream.readU8
  rw [h.bytes, h.readBeyond]
  cases hbytes : t.bytes with
  | nil => rfl
  | cons b bs =>
      have hle : 1 ≤ t.bytes.length := by
        rw [hbytes]
        exact Nat.succ_le_succ (Nat.zero_le _)
      simp only [h.advance Nat.one_ne_zero hle]

end SameFrame

inductive Answer (buf : Nat) (t : Stream δ ω) :
    Poll (Except Io.Error (List UInt8)) -> Stream δ ω -> Prop where
  | pending {t' : Stream δ ω} (same : SameFrame t t') : Answer buf t .pending t'
  | bytes (n : Nat) (pos : n ≠ 0) (room : n ≤ buf) (avail : n ≤ t.bytes.length) :
      Answer buf t (.ready (.ok (t.bytes.take n))) (t.advance n)
  | eof {t' : Stream δ ω} (empty : t.bytes = [])
      (beyond : forall α, t.readBeyond (α := α) = .done (.error .unexpectedEof) t') :
      Answer buf t (.ready (.ok [])) t'
  | error {t' : Stream δ ω} (e : Io.Error) (empty : t.bytes = [])
      (beyond : forall α, t.readBeyond (α := α) = .done (.error e) t') :
      Answer buf t (.ready (.error e)) t'

structure Starved (t : Stream δ ω) : Prop where
  bytes : t.bytes = []
  beyond : forall α, t.readBeyond (α := α) = .blocked t

theorem readBeyond_advance {α : Type} (k : Nat) (t : Stream δ ω) :
    (t.advance k).readBeyond (α := α) = t.readBeyond := by
  rcases t with ⟨line, taken, log⟩
  cases line with
  | source unread => rfl
  | frame feed digest =>
      unfold Stream.readBeyond exhaust Stream.advance
      simp only [Feed.advance_ending, Feed.advance_bytes, Digest.update_append,
        List.append_assoc, List.take_append_drop]

theorem readBeyond_map {α β : Type} (f : α -> β) (t : Stream δ ω) :
    t.readBeyond.andThen (fun r t' => .done (r.map f) t') = t.readBeyond := by
  unfold readBeyond
  split
  · rfl
  · split <;> rfl

theorem readExact_advance {t : Stream δ ω} {k n : Nat} (hk : k ≤ n)
    (hle : k ≤ t.bytes.length) :
    ((t.advance k).readExact (n - k)).andThen
        (fun r t' => .done (r.map (t.bytes.take k ++ ·)) t') =
      t.readExact n := by
  have hsum : k + (n - k) = n := Nat.add_sub_of_le hk
  unfold Stream.readExact
  rw [advance_bytes, List.length_drop]
  by_cases hn : n ≤ t.bytes.length
  · have hrest : n - k ≤ t.bytes.length - k := Nat.sub_le_sub_right hn k
    have hadvance : (t.advance k).advance (n - k) = t.advance n := by
      rw [advance_add (by rw [hsum]; exact hn), hsum]
    rw [if_pos hrest, if_pos hn, hadvance]
    change Outcome.done (Except.ok (t.bytes.take k ++ (t.bytes.drop k).take (n - k))) _ = _
    rw [← List.take_add, hsum]
  · have hrest : ¬ n - k ≤ t.bytes.length - k := by lia
    rw [if_neg hrest, if_neg hn, readBeyond_map, readBeyond_advance]

end Stream

namespace World

variable {ρ δ ω : Type} [Digest δ] [ByteSource ρ]

structure Polled (buf : Nat) (w : World ρ δ ω)
    (ans : Poll (Except Io.Error (List UInt8))) (w' : World ρ δ ω) : Prop where
  inv : w'.Inv
  answer : Stream.Answer buf w.view ans w'.view
  patience : w'.patience ≤ w.patience
  waits : ans = .pending -> w'.patience < w.patience ∨ w'.Drained
  starves : ans = .pending -> w'.Drained -> w'.view.Starved

theorem starved_of_feed {t : Stream δ ω} {feed : Feed} {digest : δ}
    (hline : t.line = .frame feed digest) (hpend : feed.pend = [])
    (hending : feed.ending = .starved) (hended : feed.ended = false)
    (hunread : feed.unread = []) : t.Starved := by
  rcases t with ⟨line, taken, log⟩
  cases hline
  rcases feed with ⟨pend, ending, ended, unread⟩
  cases hpend
  cases hending
  cases hended
  cases hunread
  constructor
  · rfl
  · intro α
    unfold Stream.readBeyond Stream.exhaust Feed.bytes
    simp only [List.map_nil, Digest.update_nil, List.append_nil]

variable [Machine]

theorem pollRead_polled {buf : Nat} (hbuf : buf ≠ 0) {w : World ρ δ ω} (hinv : w.Inv) :
    exists ans w', AsyncRead.pollRead w buf = some (ans, w') ∧ w.Polled buf ans w' := by
  rcases w with ⟨line, taken, log⟩
  cases line with
  | source reader =>
      refine ⟨.ready (.ok []), ⟨.source reader, taken ++ [], log⟩, rfl, ?_⟩
      rw [List.append_nil]
      constructor
      · trivial
      · exact .eof rfl (fun _ => rfl)
      · exact Nat.le_refl _
      · intro h
        cases h
      · intro h
        cases h
  | frame messages =>
      rcases messages with ⟨inner, digest⟩
      rcases inner.pollRead_polled hbuf hinv with ⟨ans, inner', hpoll, hpolled⟩
      have hanswer := hpolled.answer
      let messages' : Message.CheckingReader (Frame.CheckingReader ρ δ) δ :=
        { inner := inner', digest := Digest.update digest (answerBytes ans) }
      let w' : World ρ δ ω :=
        { line := .frame messages', taken := taken ++ answerBytes ans, log := log }
      have hworld : AsyncRead.pollRead
          (World.mk (.frame { inner := inner, digest := digest }) taken log :
            World ρ δ ω) buf = some (ans, w') := by
        have hmessages := Message.CheckingReader.pollRead_eq digest hpoll
        simp only [AsyncRead.pollRead] at hmessages ⊢
        simp only [hmessages]
        rfl
      refine ⟨ans, w', hworld, ?_⟩
      have hpatience : w'.patience ≤ _ := hpolled.patience
      refine ⟨hpolled.inv, ?_, hpolled.patience, ?_, ?_⟩
      · generalize hfeed : inner'.feed = feed' at hanswer
        have hview : w'.view = Stream.mk
            (.frame feed' (Digest.update digest (answerBytes ans)))
            (taken ++ answerBytes ans) log := by
          rw [← hfeed]
          rfl
        rw [hview]
        cases hanswer with
        | pending same running running' =>
            apply Stream.Answer.pending
            refine ⟨⟨inner.feed, feed', digest, rfl, ?_, same⟩, List.append_nil _, rfl⟩
            unfold answerBytes
            rw [Digest.update_nil]
        | bytes n pos room avail =>
            apply Stream.Answer.bytes n pos room
            change n ≤ inner.feed.bytes.length
            rw [Feed.bytes_length]
            exact avail
        | eof rest pend ending =>
            have hbytes : inner.feed.bytes = [] := congrArg (List.map Prod.fst) pend
            refine Stream.Answer.eof (show Stream.bytes _ = [] from hbytes) ?_
            intro α
            unfold Stream.readBeyond Stream.exhaust
            simp only [World.view, ending, hbytes]
            rfl
        | error e rest pend ending =>
            have hbytes : inner.feed.bytes = [] := congrArg (List.map Prod.fst) pend
            refine Stream.Answer.error e (show Stream.bytes _ = [] from hbytes) ?_
            intro α
            unfold Stream.readBeyond Stream.exhaust
            simp only [World.view, ending, hbytes]
            rfl
      · intro hans
        by_cases hdrained : w'.Drained
        · exact Or.inr hdrained
        · exact Or.inl (hpolled.waits hans hdrained)
      · intro hans hdrained
        subst hans
        have hstarves := hpolled.starves rfl hdrained
        cases hanswer with
        | pending same running running' =>
            exact starved_of_feed rfl hstarves.1 hstarves.2 running'
              (inner'.feed_unread.trans hdrained)

/-!
## Futures of the messages
-/

def restExact (fut : ReadExact) (t : Stream δ ω) :
    Outcome (Except Io.Error (List UInt8)) (Stream δ ω) :=
  (t.readExact fut.buf).andThen fun r t' => .done (r.map (fut.filled ++ ·)) t'

omit [ByteSource ρ] [Machine] in
theorem restExact_new (n : Nat) (t : Stream δ ω) :
    restExact (ReadExact.new n) t = t.readExact n := by
  have hid : (fun (r : Except Io.Error (List UInt8)) => r.map ([] ++ ·)) = id := by
    funext r
    cases r <;> rfl
  unfold restExact ReadExact.new
  simp only [congrFun hid, id_eq]
  cases t.readExact n <;> rfl

/-- How one poll of a future of the messages leaves things. -/
def FutPolled {Fut α : Type} (rest : Fut -> Stream δ ω -> Outcome α (Stream δ ω))
    (fut : Fut) (w : World ρ δ ω) (x : Poll α × Fut × World ρ δ ω) : Prop :=
  x.2.2.Inv ∧ x.2.2.patience ≤ w.patience ∧
    match x.1 with
    | .ready r => rest fut w.view = .done r x.2.2.view
    | .pending => rest fut w.view = rest x.2.1 x.2.2.view ∧
        (x.2.2.patience < w.patience ∨ x.2.2.Drained) ∧
        (x.2.2.Drained -> rest x.2.1 x.2.2.view = .blocked x.2.2.view)

omit [ByteSource ρ] [Machine] in
theorem restExact_zero {fut : ReadExact} (h : fut.buf = 0) (t : Stream δ ω) :
    restExact fut t = .done (.ok fut.filled) t := by
  unfold restExact Stream.readExact
  rw [h, if_pos (Nat.zero_le _), Stream.advance_zero, List.take_zero]
  change Outcome.done (Except.ok (fut.filled ++ [])) t = _
  rw [List.append_nil]

omit [ByteSource ρ] [Machine] in
theorem restExact_advance (fut : ReadExact) {k : Nat} {t : Stream δ ω}
    (hk : k ≤ fut.buf) (hle : k ≤ t.bytes.length) :
    restExact { filled := fut.filled ++ t.bytes.take k, buf := fut.buf - k }
        (t.advance k) = restExact fut t := by
  unfold restExact
  rw [← Stream.readExact_advance hk hle, Outcome.andThen_assoc]
  congr 1
  funext r t'
  cases r with
  | error e => rfl
  | ok bytes =>
      change Outcome.done (Except.ok (fut.filled ++ t.bytes.take k ++ bytes)) t' = _
      rw [List.append_assoc]
      rfl

theorem readExact_pollLoop (iters : Nat) (fut : ReadExact) {w : World ρ δ ω}
    (hinv : w.Inv) (hiters : fut.buf ≤ iters) :
    exists x, ReadExact.pollLoop iters fut w = some x ∧ FutPolled restExact fut w x := by
  induction iters generalizing fut w with
  | zero =>
      have hzero : fut.buf = 0 := Nat.le_zero.mp hiters
      refine ⟨_, if_pos hzero, hinv, Nat.le_refl _, ?_⟩
      exact restExact_zero hzero w.view
  | succ iters ih =>
      unfold ReadExact.pollLoop
      by_cases hzero : fut.buf = 0
      · rw [if_pos hzero]
        refine ⟨_, rfl, hinv, Nat.le_refl _, ?_⟩
        exact restExact_zero hzero w.view
      · rw [if_neg hzero]
        rcases pollRead_polled hzero hinv with ⟨ans, w', hpoll, hpolled⟩
        have hanswer := hpolled.answer
        rw [hpoll]
        generalize hview : w'.view = t' at hanswer
        cases hanswer with
        | pending same =>
            have hrest : restExact fut w.view = restExact fut w'.view := by
              unfold restExact
              rw [hview, same.readExact hzero]
            refine ⟨_, rfl, hpolled.inv, hpolled.patience, hrest,
              hpolled.waits rfl, ?_⟩
            intro hdrained
            have hstarved := hpolled.starves rfl hdrained
            change (w'.view.readExact fut.buf).andThen _ = _
            unfold Stream.readExact
            rw [hstarved.bytes, if_neg (by simpa using hzero), hstarved.beyond]
            rfl
        | bytes n pos room avail =>
            have hlen : (w.view.bytes.take n).length = n := List.length_take_of_le avail
            have hne : w.view.bytes.take n ≠ [] := by
              intro h
              rw [h] at hlen
              exact pos hlen.symm
            have hroom : ¬ fut.buf < n := Nat.not_lt_of_le room
            simp only [hlen, if_neg hroom, if_neg hne]
            rcases ih { filled := fut.filled ++ w.view.bytes.take n, buf := fut.buf - n }
              hpolled.inv (show fut.buf - n ≤ iters by lia) with ⟨x, hloop, hx⟩
            refine ⟨x, hloop, hx.1, Nat.le_trans hx.2.1 hpolled.patience, ?_⟩
            have hrest := restExact_advance fut room avail
            rcases x with ⟨res, fut', w''⟩
            have hx' := hx.2.2
            rw [hview, hrest] at hx'
            cases res with
            | ready r => exact hx'
            | pending =>
                refine ⟨hx'.1, ?_, hx'.2.2⟩
                rcases hx'.2.1 with hless | hdrained
                · exact Or.inl (Nat.lt_of_lt_of_le hless hpolled.patience)
                · exact Or.inr hdrained
        | eof empty beyond =>
            have hbeyond := beyond (List UInt8)
            rw [← hview] at hbeyond
            refine ⟨_, rfl, hpolled.inv, hpolled.patience, ?_⟩
            change restExact fut w.view = .done (.error .unexpectedEof) w'.view
            unfold restExact Stream.readExact
            rw [empty, if_neg (by simpa using hzero), hbeyond]
            rfl
        | error e empty beyond =>
            have hbeyond := beyond (List UInt8)
            rw [← hview] at hbeyond
            refine ⟨_, rfl, hpolled.inv, hpolled.patience, ?_⟩
            change restExact fut w.view = .done (.error e) w'.view
            unfold restExact Stream.readExact
            rw [empty, if_neg (by simpa using hzero), hbeyond]
            rfl

def restU8 (_ : ReadU8) (t : Stream δ ω) : Outcome (Except Io.Error UInt8) (Stream δ ω) :=
  t.readU8

theorem readU8_poll (fut : ReadU8) {w : World ρ δ ω} (hinv : w.Inv)
    (hread : fut.read = 0) :
    exists x, ReadU8.poll fut w = some x ∧ FutPolled restU8 fut w x ∧
      (x.1 = .pending -> x.2.1.read = 0) := by
  unfold ReadU8.poll
  rw [if_neg (by lia), hread]
  rcases pollRead_polled Nat.one_ne_zero hinv with ⟨ans, w', hpoll, hpolled⟩
  have hanswer := hpolled.answer
  rw [hpoll]
  generalize hview : w'.view = t' at hanswer
  cases hanswer with
  | pending same =>
      refine ⟨_, rfl, ⟨hpolled.inv, hpolled.patience, ?_, hpolled.waits rfl, ?_⟩,
        fun _ => hread⟩
      · unfold restU8
        rw [hview, same.readU8]
      · intro hdrained
        have hstarved := hpolled.starves rfl hdrained
        unfold restU8 Stream.readU8
        rw [hstarved.bytes]
        exact hstarved.beyond _
  | bytes n pos room avail =>
      have hone : n = 1 := by lia
      cases hbytes : w.view.bytes with
      | nil =>
          rw [hbytes] at avail
          exact absurd (Nat.le_zero.mp avail) pos
      | cons b bs =>
          rw [hone] at hview ⊢
          refine ⟨_, rfl, ⟨hpolled.inv, hpolled.patience, ?_⟩, fun h => by cases h⟩
          change restU8 fut w.view = .done (.ok b) w'.view
          unfold restU8 Stream.readU8
          rw [hbytes, hview]
  | eof empty beyond =>
      refine ⟨_, rfl, ⟨hpolled.inv, hpolled.patience, ?_⟩, fun h => by cases h⟩
      change restU8 fut w.view = .done (.error .unexpectedEof) w'.view
      unfold restU8 Stream.readU8
      rw [empty, hview]
      exact beyond _
  | error e empty beyond =>
      refine ⟨_, rfl, ⟨hpolled.inv, hpolled.patience, ?_⟩, fun h => by cases h⟩
      change restU8 fut w.view = .done (.error e) w'.view
      unfold restU8 Stream.readU8
      rw [empty, hview]
      exact beyond _

/-!
## The source itself
-/

def restSource (_ : ReadU8) (t : Stream δ ω) :
    Outcome (Except Io.Error UInt8) (Stream δ ω) :=
  t.sourceU8

def giveBack (w : World ρ δ ω) (reader : ρ) : World ρ δ ω :=
  { w with line := .source reader }

omit [Machine] in
theorem view_sourceU8 (w : World ρ δ ω) :
    w.view.sourceU8 =
      match w.unread with
      | [] => .blocked { w.view with line := .source [] }
      | b :: rest => .done (.ok b) { w.view with line := .source rest } := by
  cases h : w.unread with
  | nil => simp only [Stream.sourceU8, view_unread, h]
  | cons b rest => simp only [Stream.sourceU8, view_unread, h]

omit [Machine] in
theorem sourceU8_poll (fut : ReadU8) (w : World ρ δ ω) (hread : fut.read = 0) :
    exists ans fut' reader, ReadU8.poll fut w.line.reader = some (ans, fut', reader) ∧
      FutPolled restSource fut w (ans, fut', w.giveBack reader) ∧
      (ans = .pending -> fut'.read = 0) := by
  unfold ReadU8.poll
  rw [if_neg (by lia), hread]
  rcases ByteSource.answers w.line.reader 1 Nat.one_pos with ⟨ans, reader, hpoll, hans⟩
  rw [hpoll]
  cases ans with
  | pending =>
      rcases hans with ⟨hunread, hle, hless⟩
      refine ⟨_, _, _, rfl, ⟨trivial, hle, ?_, ?_, ?_⟩, fun _ => hread⟩
      · change w.view.sourceU8 = (w.giveBack reader).view.sourceU8
        rw [view_sourceU8, view_sourceU8,
          show (w.giveBack reader).unread = w.unread from hunread]
        rfl
      · by_cases hnil : ByteSource.unread w.line.reader = []
        · exact Or.inr (hunread.trans hnil)
        · exact Or.inl (hless hnil)
      · intro hdrained
        change (w.giveBack reader).view.sourceU8 = _
        rw [view_sourceU8, show (w.giveBack reader).unread = [] from hdrained]
        have hline : (w.giveBack reader).view.line = .source [] :=
          congrArg StreamLine.source hdrained
        rw [← hline]
  | ready r =>
      cases r with
      | error e => exact hans.elim
      | ok bytes =>
          rcases hans with ⟨hne, hle, hunread, hpatience⟩
          cases bytes with
          | nil => exact absurd rfl hne
          | cons b bs =>
              have hbs : bs = [] := by
                rw [List.length_cons] at hle
                exact List.length_eq_zero_iff.mp (by lia)
              rw [hbs] at hunread
              refine ⟨_, _, _, rfl, ⟨trivial, hpatience, ?_⟩, fun h => by cases h⟩
              change w.view.sourceU8 = .done (.ok b) (w.giveBack reader).view
              rw [view_sourceU8, show w.unread = b :: ByteSource.unread reader from hunread]
              rfl

/-!
## The task
-/

def rest : {o : TaskOp ω} -> TaskFut o -> Stream δ ω ->
    Outcome ((TaskSig ω).Resp o) (Stream δ ω)
  | .readU8 => restSource
  | .read .u8 => restU8
  | .read (.exact _) => restExact
  | .newFrame => fun _ t => Stream.handler .newFrame t
  | .hasEnded => fun _ t => Stream.handler .hasEnded t
  | .finalize => fun _ t => Stream.handler .finalize t
  | .reset => fun _ t => Stream.handler .reset t
  | .call e => fun _ t => Stream.handler (.call e) t

def FutInv : {o : TaskOp ω} -> TaskFut o -> Prop
  | .readU8 => fun fut => fut.read = 0
  | .read .u8 => fun fut => fut.read = 0
  | .read (.exact _) => fun _ => True
  | .newFrame => fun _ => True
  | .hasEnded => fun _ => True
  | .finalize => fun _ => True
  | .reset => fun _ => True
  | .call _ => fun _ => True

omit [Machine] in
theorem inv_finalize {w : World ρ δ ω} (h : w.Inv) :
    w.finalize.2.Inv ∧ w.finalize.2.patience = w.patience := by
  rcases w with ⟨line, taken, log⟩
  cases line <;> exact ⟨h, rfl⟩

omit [Machine] in
theorem inv_reset {w : World ρ δ ω} (h : w.Inv) :
    w.reset.Inv ∧ w.reset.patience = w.patience := by
  rcases w with ⟨line, taken, log⟩
  cases line <;> exact ⟨h, rfl⟩

theorem poll_polled {o : TaskOp ω} (fut : TaskFut o) {w : World ρ δ ω} (hinv : w.Inv)
    (hfut : FutInv fut) :
    exists x, (taskDriver (ρ := ρ) (δ := δ)).poll fut w = some x ∧
      FutPolled rest fut w x ∧ (x.1 = .pending -> FutInv x.2.1) := by
  have hready : forall {α Fut : Type} (rest : Fut -> Stream δ ω -> Outcome α (Stream δ ω))
      (fut : Fut) (r : α) (w' : World ρ δ ω), w'.Inv -> w'.patience ≤ w.patience ->
      rest fut w.view = .done r w'.view -> FutPolled rest fut w (.ready r, fut, w') :=
    fun _ _ _ _ hinv' hle hrest => ⟨hinv', hle, hrest⟩
  cases o with
  | readU8 =>
      rcases sourceU8_poll fut w hfut with ⟨ans, fut', reader, hpoll, hpolled, hpending⟩
      refine ⟨(ans, fut', w.giveBack reader), ?_, hpolled, hpending⟩
      simp only [taskDriver, hpoll]
      rfl
  | read o =>
      cases o with
      | u8 => exact readU8_poll fut hinv hfut
      | exact n =>
          rcases readExact_pollLoop fut.buf fut hinv (Nat.le_refl _) with
            ⟨x, hpoll, hpolled⟩
          exact ⟨x, hpoll, hpolled, fun _ => trivial⟩
  | newFrame =>
      refine ⟨_, rfl, hready _ _ _ _ ?_ (Nat.le_refl _) ?_, fun h => by cases h⟩
      · exact Frame.CheckingReader.new_inv w.line.reader
      · rw [view_newFrame]
        rfl
  | hasEnded =>
      refine ⟨_, rfl, hready _ _ _ _ hinv (Nat.le_refl _) ?_, fun h => by cases h⟩
      rw [view_hasEnded]
      rfl
  | finalize =>
      refine ⟨_, rfl, hready _ _ _ _ ?_ ?_ ?_, fun h => by cases h⟩
      · exact (inv_finalize hinv).1
      · exact Nat.le_of_eq (inv_finalize hinv).2
      · rw [w.view_finalize.1, w.view_finalize.2]
        rfl
  | reset =>
      refine ⟨_, rfl, hready _ _ _ _ ?_ ?_ ?_, fun h => by cases h⟩
      · exact (inv_reset hinv).1
      · exact Nat.le_of_eq (inv_reset hinv).2
      · rw [view_reset]
        rfl
  | call e =>
      refine ⟨_, rfl, hready _ _ _ _ hinv (Nat.le_refl _) ?_, fun h => by cases h⟩
      rw [view_observe]
      rfl

theorem polled_eq {o : TaskOp ω} {fut fut' : TaskFut o} {w w' : World ρ δ ω}
    {ans : Poll ((TaskSig ω).Resp o)} (hinv : w.Inv) (hfut : FutInv fut)
    (h : (taskDriver (ρ := ρ) (δ := δ)).poll fut w = some (ans, fut', w')) :
    FutPolled rest fut w (ans, fut', w') ∧ (ans = .pending -> FutInv fut') := by
  rcases poll_polled fut hinv hfut with ⟨x, hpoll, hpolled, hpending⟩
  have heq := hpoll.symm.trans h
  injection heq with heq
  rw [heq] at hpolled hpending
  exact ⟨hpolled, hpending⟩

def agrees : Agrees (taskDriver (ρ := ρ) (δ := δ) (ω := ω)) Stream.handler
    World.view World.Inv where
  rest := rest
  FutInv := FutInv
  futInv_start o := by
    cases o with
    | read o => cases o <;> trivial
    | _ => trivial
  rest_start o t := by
    cases o with
    | read o =>
        cases o with
        | u8 => rfl
        | exact n => exact restExact_new n t
    | _ => rfl
  returns fut w hinv hfut := by
    rcases poll_polled fut hinv hfut with ⟨x, hpoll, _⟩
    rw [hpoll]
    exact Option.some_ne_none x
  ready fut fut' w w' r hinv hfut h := by
    rcases (polled_eq hinv hfut h).1 with ⟨hinv', _, hrest⟩
    exact ⟨hinv', hrest⟩
  pending fut fut' w w' hinv hfut h := by
    rcases polled_eq hinv hfut h with ⟨⟨hinv', _, hrest, _⟩, hfut'⟩
    exact ⟨hinv', hfut' rfl, hrest⟩

theorem patient : Patient (agrees (ρ := ρ) (δ := δ) (ω := ω)) World.patience
    World.Drained where
  ready _ _ _ _ _ hinv hfut h := (polled_eq hinv hfut h).1.2.1
  pending _ _ _ _ hinv hfut h := (polled_eq hinv hfut h).1.2.2.2.1
  drained _ _ _ _ hinv hfut h := (polled_eq hinv hfut h).1.2.2.2.2

end World

end Sml
end Smartmeter
