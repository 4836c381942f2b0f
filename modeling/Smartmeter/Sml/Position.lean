import Smartmeter.Foundation.Hoare
import Smartmeter.Sml.Frame.Grammar
import Smartmeter.Sml.Stream
import Smartmeter.Sml.Tlv.Reading

/-!
# Positions in a frame

While the messages of a frame are read and no read has failed, the stream is
determined by how many bytes were taken and where the current checksum began.
-/

namespace Smartmeter
namespace Sml

open Foundation
open Frame (Feed decodeFrame)
open Tlv (Ops)

namespace Stream

variable {δ ω : Type} [Digest δ]

/-!
## What a read does to the stream
-/

theorem advance_frame {t : Stream δ ω} {feed : Feed} {digest : δ}
    (h : t.line = .frame feed digest) (n : Nat) :
    t.advance n =
      { line := .frame (feed.advance n) (Digest.update digest (feed.bytes.take n))
        taken := t.taken ++ feed.bytes.take n
        log := t.log } := by
  unfold advance
  rw [h]

inductive Past (feed : Feed) : Feed -> Prop where
  | success {rest : List UInt8} (h : feed.ending = .success rest) : Past feed (Feed.spent rest)
  | failure {e : Io.Error} {rest : List UInt8} (h : feed.ending = .failure e rest) :
      Past feed (Feed.spent rest)
  | starved (h : feed.ending = .starved) :
      Past feed { pend := [], ending := .starved, ended := false, unread := [] }

theorem Past.pend {feed feed' : Feed} (h : Past feed feed') : feed'.pend = [] := by
  cases h <;> rfl

/-- The state a read leaves: some bytes taken, or all of them. -/
inductive After (t : Stream δ ω) : Stream δ ω -> Prop where
  | advance {n : Nat} (h : n ≤ t.bytes.length) : After t (t.advance n)
  | none {unread : List UInt8} (h : t.line = .source unread) : After t t
  | past {feed feed' : Feed} {digest : δ} (h : t.line = .frame feed digest)
      (hpast : Past feed feed') :
      After t
        { line := .frame feed' (Digest.update digest feed.bytes)
          taken := t.taken ++ feed.bytes
          log := t.log }

theorem readBeyond_after {α : Type} (t : Stream δ ω) :
    After t (t.readBeyond : Outcome (Except Io.Error α) (Stream δ ω)).state := by
  unfold readBeyond exhaust
  cases hline : t.line with
  | source unread => exact .none hline
  | frame feed digest =>
      cases hending : feed.ending with
      | success rest =>
          simp only [hending]
          exact .past hline (.success hending)
      | failure e rest =>
          simp only [hending]
          exact .past hline (.failure hending)
      | starved =>
          simp only [hending]
          exact .past hline (.starved hending)

theorem read_after (o : Ops.Op) (t : Stream δ ω) : After t (read o t).state := by
  cases o with
  | u8 =>
      change After t t.readU8.state
      unfold readU8
      cases hbytes : t.bytes with
      | nil => exact readBeyond_after t
      | cons b bs =>
          refine .advance ?_
          rw [hbytes]
          exact Nat.succ_le_succ (Nat.zero_le _)
  | exact n =>
      change After t (t.readExact n).state
      unfold readExact
      split
      · next hle => exact .advance hle
      · exact readBeyond_after t

theorem After.log {t t' : Stream δ ω} (h : After t t') : t'.log = t.log := by
  cases h with
  | advance h =>
      unfold Stream.advance
      cases t.line <;> rfl
  | none h => rfl
  | past h hpast => rfl

/-!
## Positions
-/

/--
The first `n` bytes of a feed are taken, and the checksum covers those
behind the first `start`.
-/
structure At (feed : Feed) (start n : Nat) (t : Stream δ ω) : Prop where
  line : t.line = .frame (feed.advance n)
    (Digest.update Digest.digest ((feed.bytes.take n).drop start))
  taken : t.taken = feed.bytes.take n
  start_le : start ≤ n
  le : n ≤ feed.bytes.length

namespace At

variable {feed : Feed} {start n : Nat} {t : Stream δ ω}

theorem bytes (h : At feed start n t) : t.bytes = feed.bytes.drop n := by
  unfold Stream.bytes
  rw [h.line]
  exact Feed.advance_bytes n feed

theorem unread (h : At feed start n t) : t.unread = (feed.advance n).unread := by
  unfold Stream.unread
  rw [h.line]

theorem hasEnded (h : At feed start n t) : t.hasEnded = (feed.advance n).ended := by
  unfold Stream.hasEnded
  rw [h.line]

theorem advance (h : At feed start n t) {k : Nat} (hk : k ≤ t.bytes.length) :
    At feed start (n + k) (t.advance k) := by
  have hbytes := h.bytes
  have hle : n + k ≤ feed.bytes.length := by
    have hstart := h.le
    rw [hbytes, List.length_drop] at hk
    lia
  have hsplit : (feed.bytes.take n).drop start ++ (feed.bytes.drop n).take k =
      (feed.bytes.take (n + k)).drop start := by
    have hlen : start ≤ (feed.bytes.take n).length := by
      rw [List.length_take_of_le h.le]
      exact h.start_le
    rw [List.take_add, List.drop_append_of_le_length hlen]
  rw [advance_frame h.line, Feed.advance_bytes, Digest.update_append, hsplit,
    Feed.advance_add (by rw [← Feed.bytes_length]; exact hle), h.taken, ← List.take_add]
  exact ⟨rfl, rfl, Nat.le_add_right_of_le h.start_le, hle⟩

theorem eq_add {n' : Nat} (h : At feed start n' t) (hle : n ≤ n') {used : List UInt8}
    (hused : feed.bytes.drop n = used ++ feed.bytes.drop n') : n' = n + used.length := by
  have hlen := congrArg List.length hused
  have hbound := h.le
  rw [List.length_append, List.length_drop, List.length_drop] at hlen
  lia

theorem observe (h : At feed start n t) (mark : Mark ω) :
    At feed start n (t.observe mark) :=
  ⟨h.line, h.taken, h.start_le, h.le⟩

theorem finalize (h : At feed start n t) :
    t.finalize.1 = Digest.checksum δ ((feed.bytes.take n).drop start) ∧
      At feed n n t.finalize.2 ∧
      t.finalize.2.log = t.log ++
        [{ mark := .finalize (Digest.checksum δ ((feed.bytes.take n).drop start)),
           unread := t.unread, taken := feed.bytes.take n }] := by
  have hdrop : (feed.bytes.take n).drop n = [] := by
    rw [List.drop_eq_nil_iff, List.length_take]
    exact Nat.min_le_left _ _
  have hunread := h.unread
  unfold Stream.finalize
  rw [h.line]
  refine ⟨rfl, ⟨?_, h.taken, Nat.le_refl n, h.le⟩, ?_⟩
  · rw [hdrop, Digest.update_nil]
    rfl
  · rw [hunread, ← h.taken]
    rfl

theorem reset (h : At feed start n t) :
    At feed n n t.reset ∧
      t.reset.log = t.log ++
        [{ mark := .reset, unread := t.unread, taken := feed.bytes.take n }] := by
  have hdrop : (feed.bytes.take n).drop n = [] := by
    rw [List.drop_eq_nil_iff, List.length_take]
    exact Nat.min_le_left _ _
  have hunread := h.unread
  unfold Stream.reset
  rw [h.line]
  refine ⟨⟨?_, h.taken, Nat.le_refl n, h.le⟩, ?_⟩
  · rw [hdrop, Digest.update_nil]
    rfl
  · rw [hunread, ← h.taken]
    rfl

end At

def frameFeed (δ : Type) [Digest δ] (s : List UInt8) : Feed :=
  (decodeFrame δ s).feed s

theorem newFrame_at (t : Stream δ ω) : At (frameFeed δ t.unread) 0 0 t.newFrame := by
  constructor
  · rw [Feed.advance_zero, List.take_zero, List.drop_nil, Digest.update_nil]
    rfl
  · exact (List.take_zero).symm
  · exact Nat.le_refl 0
  · exact Nat.zero_le _

/-!
## Reading
-/

section

variable {τ α : Type}

theorem run_embed_read (p : Prog Ops α) (t : Stream δ ω) :
    (p.embed TaskOp.read fun _ r => r : Prog (TaskSig ω) α).run handler t =
      p.run Stream.read t := by
  rw [Prog.run_embed]
  congr 1
  funext o t'
  exact Outcome.andThen_done _

theorem run_onMessages (p : Act Ops Error τ α) (s : τ) (t : Stream δ ω) :
    (onMessages p s).run handler t = (p s).run Stream.read t :=
  run_embed_read (p s) t

theorem run_read_log (p : Prog Ops α) (t : Stream δ ω) :
    (p.run Stream.read t).state.log = t.log := by
  have hstep : forall (o : Ops.Op) (t' : Stream δ ω), t'.log = t.log ->
      (Stream.read o t').state.log = t.log := by
    intro o t' h
    rw [(read_after o t').log]
    exact h
  exact Prog.run_invariant hstep p rfl

theorem At.read {feed : Feed} {start n : Nat} {t t' : Stream δ ω} (h : At feed start n t)
    {p : Act Ops Error τ α} (hp : Tlv.Strict p) {s s' : τ} {a : α}
    (hrun : (p s).run Stream.read t = .done (.ok a, s') t') :
    exists k, At feed start (n + k) t' ∧ t'.log = t.log ∧
      p.parse s (feed.bytes.drop n) = some ((.ok a, s'), feed.bytes.drop (n + k)) := by
  rcases (hp s).parse_of_run delivers hrun with ⟨used, hused, ht', hparse⟩
  have hlen : used.length ≤ t.bytes.length := by
    rw [hused, List.length_append]
    exact Nat.le_add_right _ _
  have hat := h.advance hlen
  rw [← ht'] at hat
  refine ⟨used.length, hat, ?_, ?_⟩
  · have hlog := run_read_log (p s) t
    rw [hrun] at hlog
    exact hlog
  · rw [← h.bytes, ← hat.bytes]
    exact hparse

theorem At.run_of_parse_prog {feed : Feed} {start n : Nat} {t : Stream δ ω}
    (h : At feed start n t) {p : Prog Ops α} {x : α} {used rest : List UInt8}
    (hbytes : feed.bytes.drop n = used ++ rest) (hparse : p.parse (used ++ rest) = some (x, rest)) :
    exists t', p.run Stream.read t = .done x t' ∧ At feed start (n + used.length) t' ∧
      t'.log = t.log := by
  have hbytes' : t.bytes = used ++ rest := h.bytes.trans hbytes
  have hlen : used.length ≤ t.bytes.length := by
    rw [hbytes', List.length_append]
    exact Nat.le_add_right _ _
  have hrun := delivers.run_of_parse hbytes' (p := p) (by rw [hbytes']; exact hparse)
  refine ⟨t.advance used.length, hrun, h.advance hlen, ?_⟩
  have hlog := run_read_log p t
  rw [hrun] at hlog
  exact hlog

theorem At.run_of_parse {feed : Feed} {start n : Nat} {t : Stream δ ω}
    (h : At feed start n t) {p : Act Ops Error τ α} {s : τ} {x : Except Error α × τ}
    {used rest : List UInt8} (hbytes : feed.bytes.drop n = used ++ rest)
    (hparse : p.parse s (used ++ rest) = some (x, rest)) :
    exists t', (p s).run Stream.read t = .done x t' ∧ At feed start (n + used.length) t' ∧
      t'.log = t.log :=
  h.run_of_parse_prog hbytes hparse

end

theorem After.bytes_le {t t' : Stream δ ω} (h : After t t') :
    t'.bytes.length ≤ t.bytes.length := by
  cases h with
  | advance h =>
      rw [advance_bytes, List.length_drop]
      exact Nat.sub_le _ _
  | none h => exact Nat.le_refl _
  | past h hpast =>
      change (List.map Prod.fst _).length ≤ _
      rw [hpast.pend]
      exact Nat.zero_le _

theorem finalize_bytes (t : Stream δ ω) : t.finalize.2.bytes = t.bytes := by
  rcases t with ⟨line, taken, log⟩
  cases line <;> rfl

theorem run_read_nil {α : Type} {t : Stream δ ω} (h : t.bytes = []) (p : Prog Ops α) :
    (p.run Stream.read t).state.bytes = [] := by
  have hstep : forall (o : Ops.Op) (t' : Stream δ ω), t'.bytes = [] ->
      (Stream.read o t').state.bytes = [] := by
    intro o t' hnil
    have hle := (read_after o t').bytes_le
    rw [hnil] at hle
    exact List.length_eq_zero_iff.mp (Nat.le_zero.mp hle)
  exact Prog.run_invariant hstep p h

/-- Whatever was read and failed, as long as there are bytes left no byte was lost. -/
def Within (feed : Feed) (start n : Nat) (t : Stream δ ω) : Prop :=
  t.bytes = [] ∨ exists k, n ≤ k ∧ At feed start k t

theorem Within.after {feed : Feed} {start n : Nat} {t t' : Stream δ ω}
    (h : Within feed start n t) (hafter : After t t') : Within feed start n t' := by
  cases hafter with
  | @advance k hk =>
      rcases h with hnil | ⟨m, hle, hat⟩
      · left
        rw [advance_bytes, hnil, List.drop_nil]
      · exact Or.inr ⟨m + k, Nat.le_add_right_of_le hle, hat.advance hk⟩
  | none hline => exact h
  | past hline hpast => exact Or.inl (congrArg (List.map Prod.fst) hpast.pend)

theorem Within.run {α : Type} {feed : Feed} {start n : Nat} {t : Stream δ ω}
    (h : Within feed start n t) (p : Prog Ops α) :
    Within feed start n (p.run Stream.read t).state :=
  Prog.run_invariant (fun o t' h => h.after (read_after o t')) p h

/-!
## The source never goes back
-/

/-- What is left of the source, now and later, is a suffix of `s`. -/
def Behind (s : List UInt8) (t : Stream δ ω) : Prop :=
  match t.line with
  | .source unread => unread <:+ s
  | .frame feed _ => feed.unread <:+ s ∧ (Frame.Decoded.mk feed.pend feed.ending).Behind s

namespace Behind

variable {s : List UInt8} {t t' : Stream δ ω}

omit [Digest δ] in
theorem of_frame {feed : Feed} {digest : δ} (h : t.line = .frame feed digest)
    (hb : t.Behind s) :
    feed.unread <:+ s ∧ (Frame.Decoded.mk feed.pend feed.ending).Behind s := by
  unfold Behind at hb
  rw [h] at hb
  exact hb

omit [Digest δ] in
theorem unread (h : t.Behind s) : t.unread <:+ s := by
  unfold Stream.unread
  unfold Behind at h
  cases hline : t.line with
  | source unread =>
      rw [hline] at h
      exact h
  | frame feed digest =>
      rw [hline] at h
      exact h.1

theorem unreadAfter {feed : Feed} (hunread : feed.unread <:+ s)
    (h : (Frame.Decoded.mk feed.pend feed.ending).Behind s) (n : Nat) :
    feed.unreadAfter n <:+ s := by
  unfold Feed.unreadAfter
  cases hlast : ((feed.pend.take n).map Prod.snd).getLast? with
  | none => exact hunread
  | some r =>
      rcases List.mem_map.mp (List.mem_of_getLast? hlast) with ⟨x, hx, rfl⟩
      exact h.pend x (List.mem_of_mem_take hx)

theorem after (h : t.Behind s) (hafter : After t t') : t'.Behind s := by
  cases hafter with
  | @advance n hn =>
      cases hline : t.line with
      | source unread =>
          have hsame : t.advance n = t := by
            unfold Stream.advance
            rw [hline]
          rw [hsame]
          exact h
      | frame feed digest =>
          rcases of_frame hline h with ⟨hunread, hfeed⟩
          rw [advance_frame hline]
          change (feed.advance n).unread <:+ s ∧
            (Frame.Decoded.mk (feed.advance n).pend (feed.advance n).ending).Behind s
          by_cases hzero : n = 0
          · rw [hzero, Feed.advance_zero]
            exact ⟨hunread, hfeed⟩
          · rw [Feed.advance_pos hzero]
            refine ⟨unreadAfter hunread hfeed n, ?_⟩
            constructor
            · intro x hx
              exact hfeed.pend x (List.mem_of_mem_drop hx)
            · exact hfeed.success
            · exact hfeed.failure
  | none hline => exact h
  | past hline hpast =>
      rcases of_frame hline h with ⟨hunread, hfeed⟩
      have hspent : forall {rest : List UInt8}, rest <:+ s ->
          (Feed.spent rest).unread <:+ s ∧
            (Frame.Decoded.mk (Feed.spent rest).pend (Feed.spent rest).ending).Behind s := by
        intro rest hrest
        refine ⟨hrest, fun x hx => absurd hx List.not_mem_nil, ?_, ?_⟩
        · intro rest' heq
          injection heq with heq
          exact heq ▸ hrest
        · intro e rest' heq
          cases heq
      cases hpast with
      | success hending => exact hspent (hfeed.success _ hending)
      | failure hending => exact hspent (hfeed.failure _ _ hending)
      | starved hending =>
          exact ⟨List.nil_suffix, Frame.starved_behind s rfl⟩

theorem step (h : t.Behind s) (o : TaskOp ω) : (handler o t).state.Behind s := by
  have hunread := h.unread
  cases o with
  | readU8 =>
      change t.sourceU8.state.Behind s
      unfold sourceU8
      cases hleft : t.unread with
      | nil => exact List.nil_suffix
      | cons b rest =>
          rw [hleft] at hunread
          exact (List.suffix_cons b rest).trans hunread
  | newFrame =>
      exact ⟨hunread, (Frame.decode_behind _ _ _ _).mono hunread⟩
  | hasEnded => exact h
  | finalize =>
      change t.finalize.2.Behind s
      unfold finalize
      cases hline : t.line with
      | source unread => exact h
      | frame feed digest => exact of_frame hline h
  | reset =>
      change t.reset.Behind s
      unfold reset
      cases hline : t.line with
      | source unread => exact h
      | frame feed digest => exact of_frame hline h
  | read o => exact h.after (read_after o t)
  | call e => exact h

theorem run {α : Type} (h : t.Behind s) (p : Prog (TaskSig ω) α) :
    (p.run handler t).state.Behind s :=
  Prog.run_invariant (fun o _ h => h.step o) p h

end Behind

end Stream

end Sml
end Smartmeter
