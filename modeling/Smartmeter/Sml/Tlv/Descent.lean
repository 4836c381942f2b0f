import Mathlib.Logic.Relation
import Smartmeter.Foundation.FiniteBytes
import Smartmeter.Sml.Tlv.Endurance

/-!
# Skipping as a descent

Skipping one item, and skipping the elements of a list one by one, as two
functions on byte strings that call each other: a header is what
`read_tlv_inner` makes of the bytes, and behind it come as many bytes, or as
many elements, as it says.  What `skip_tlvs` does with one counter instead is
the same on every byte string: the counter is the number of items that are
outstanding in all the lists that are open.
-/

namespace Smartmeter
namespace Sml
namespace Tlv

open Foundation

/-!
## The recursive definition
-/

/-- What stops a descent: an end marker where items are outstanding, or another error. -/
inductive Stop where
  | marker (outstanding : Nat)
  | failed (e : Error)
deriving DecidableEq, Repr

namespace Stop

/-- An item whose header is an end marker is outstanding itself. -/
def ofHeader : Error -> Stop
  | .endOfSmlMessage => .marker 1
  | e => .failed e

def outside (num : Nat) : Stop -> Stop
  | .marker outstanding => .marker (outstanding + num)
  | .failed e => .failed e

def report : Stop -> Error
  | .marker outstanding =>
      if outstanding = 1 then .endOfSmlMessage else .midMessageEndMarker (outstanding - 1)
  | .failed e => e

/-- At least the item at the end marker is outstanding; other errors are not about markers. -/
def Proper : Stop -> Prop
  | .marker outstanding => 0 < outstanding
  | .failed e => e ≠ .endOfSmlMessage ∧ forall remaining, e ≠ .midMessageEndMarker remaining

theorem outside_zero (s : Stop) : s.outside 0 = s := by
  cases s <;> rfl

theorem report_marker {outstanding : Nat} (h : outstanding ≠ 1) :
    (marker outstanding).report = .midMessageEndMarker (outstanding - 1) := if_neg h

theorem outside_outside (s : Stop) (m n : Nat) :
    (s.outside m).outside n = s.outside (m + n) := by
  cases s with
  | marker outstanding => exact congrArg marker (Nat.add_assoc _ _ _)
  | failed e => rfl

theorem Proper.outside {s : Stop} (h : s.Proper) (num : Nat) : (s.outside num).Proper := by
  cases s with
  | marker outstanding => exact Nat.add_pos_left h num
  | failed e => exact h

theorem proper_ofHeader {e : Error} (h : forall remaining, e ≠ .midMessageEndMarker remaining) :
    (ofHeader e).Proper := by
  cases e with
  | endOfSmlMessage => exact Nat.one_pos
  | midMessageEndMarker remaining => exact absurd rfl (h remaining)
  | _ => exact ⟨by simp, by simp⟩

theorem report_ofHeader (e : Error) (num : Nat) :
    ((ofHeader e).outside num).report =
      if e = .endOfSmlMessage then
        if num = 0 then .endOfSmlMessage else .midMessageEndMarker num
      else e := by
  cases e with
  | endOfSmlMessage =>
      rw [if_pos rfl]
      change (marker (1 + num)).report = _
      by_cases hzero : num = 0
      · rw [if_pos hzero, hzero]
        rfl
      · rw [if_neg hzero, report_marker (by lia), Nat.add_sub_cancel_left]
  | _ => rfl

theorem report_eq_endOfSmlMessage {s : Stop} (h : s.Proper) :
    s.report = .endOfSmlMessage <-> s = .marker 1 := by
  constructor
  · intro hreport
    cases s with
    | marker outstanding =>
        by_cases hone : outstanding = 1
        · rw [hone]
        · rw [report_marker hone] at hreport
          cases hreport
    | failed e => exact absurd hreport h.1
  · intro hs
    rw [hs]
    rfl

theorem report_eq_midMessageEndMarker {s : Stop} (h : s.Proper) (remaining : Nat) :
    s.report = .midMessageEndMarker remaining <->
      0 < remaining ∧ s = .marker (remaining + 1) := by
  constructor
  · intro hreport
    cases s with
    | marker outstanding =>
        have hpos : 0 < outstanding := h
        by_cases hone : outstanding = 1
        · rw [hone] at hreport
          cases hreport
        · rw [report_marker hone] at hreport
          injection hreport with hremaining
          rw [← hremaining]
          exact ⟨by lia, congrArg marker (by lia)⟩
    | failed e => exact absurd hreport (h.2 remaining)
  · rintro ⟨hpos, hs⟩
    rw [hs, report_marker (by lia), Nat.add_sub_cancel]

theorem report_eq_other {s : Stop} {e : Error} (hend : e ≠ .endOfSmlMessage)
    (hmid : forall remaining, e ≠ .midMessageEndMarker remaining) :
    s.report = e <-> s = .failed e := by
  constructor
  · intro hreport
    cases s with
    | marker outstanding =>
        by_cases hone : outstanding = 1
        · rw [hone] at hreport
          exact absurd hreport.symm hend
        · rw [report_marker hone] at hreport
          exact absurd hreport.symm (hmid _)
    | failed e' => exact congrArg failed hreport
  · intro hs
    rw [hs]
    rfl

theorem mapError_report_iff {descent : Except Stop Unit}
    (hproper : forall s, descent = .error s -> s.Proper) {err : Error} {P : Stop -> Prop}
    (h : forall s, s.Proper -> (s.report = err <-> P s)) :
    descent.mapError report = .error err <-> exists s, descent = .error s ∧ P s := by
  constructor
  · intro hreport
    cases descent with
    | ok u => cases hreport
    | error s =>
        injection hreport with hreport
        exact ⟨s, rfl, (h s (hproper s rfl)).mp hreport⟩
  · rintro ⟨s, hs, hP⟩
    rw [hs]
    exact congrArg Except.error ((h s (hproper s hs)).mpr hP)

end Stop

variable [Machine]

namespace Reader

/-- What stops a descent, if anything does, and the bytes behind what it has consumed. -/
abbrev Descent : Type := Option (Except Stop Unit × List UInt8)

/-- Skip several items, each of them as `one` does. -/
def skipEach (one : List UInt8 -> Descent) : Nat -> List UInt8 -> Descent
  | 0, bs => some (.ok (), bs)
  | num + 1, bs =>
      match one bs with
      | some (.ok (), rest) => skipEach one num rest
      | some (.error s, rest) => some (.error (s.outside num), rest)
      | none => none

/--
Skip one item with lists in it at most `depth` deep; `e` is the error that a read
beyond the bytes gives.
-/
def skipTlv (e : Io.Error) : Nat -> List UInt8 -> Descent
  | 0, _ => none
  | depth + 1, bs =>
      match (readTlvInner new).run (finite e) bs with
      | .done (.ok (ty, len), _) rest =>
          if ty = .list then skipEach (skipTlv e depth) len rest
          else if len ≤ rest.length then some (.ok (), rest.drop len)
          else some (.error (.failed (.io e)), [])
      | .done (.error err, _) rest => some (.error (.ofHeader err), rest)
      | _ => none

/-!
## The loop with an exact counter
-/

def skipTlvsExactLoop (num : Nat) : Act Ops Error Reader (Nat ⊕ Unit) := do
  if num > 0 then
    let num := num - 1
    match ← Act.attempt readTlvInner with
    | .error .endOfSmlMessage =>
        if num = 0 then Act.fail .endOfSmlMessage
        else Act.fail (.midMessageEndMarker num)
    | .error e => Act.fail e
    | .ok (.list, len) => pure (.inl (num + len))
    | .ok (_, len) => do
        skipBytes len
        pure (.inl num)
  else pure (.inr ())

def skipTlvsExact (num : Nat) : Act Ops Error Reader Unit :=
  Act.iterate Machine.fuel skipTlvsExactLoop num

/-!
## What the methods below make of a byte string
-/

def readHeader (e : Io.Error) (bs : List UInt8) : Except Error (TlvType × Nat) × List UInt8 :=
  (decodeHeader bs).getD (.error (.io e), [])

theorem readHeader_shorter {e : Io.Error} {bs rest : List UInt8} {x : TlvType × Nat}
    (h : readHeader e bs = (.ok x, rest)) : rest.length < bs.length := by
  unfold readHeader at h
  cases hdecode : decodeHeader bs with
  | none =>
      rw [hdecode] at h
      cases h
  | some y =>
      rw [hdecode] at h
      rw [show y = (.ok x, rest) from h] at hdecode
      rcases decodeHeader_split hdecode with ⟨header, hbs, hheader⟩
      have hpos := List.length_pos_iff.mpr (decodeHeader_ne_nil hheader)
      rw [hbs, List.length_append]
      lia

theorem readHeader_suffix (e : Io.Error) (bs : List UInt8) : (readHeader e bs).2 <:+ bs := by
  unfold readHeader
  cases hdecode : decodeHeader bs with
  | none => exact List.nil_suffix
  | some y =>
      rcases decodeHeader_split hdecode with ⟨header, hbs, _⟩
      exact ⟨header, hbs.symm⟩

def NotMidMessage (e : Error) : Prop := forall remaining, e ≠ .midMessageEndMarker remaining

def OfReader (e : Error) : Prop := exists i, e = .io i

omit [Machine] in
theorem failsIn_readU8 {P : Error -> Prop} (hP : forall i, P (.io i)) :
    Act.FailsIn P (readU8 : Act Ops Error Reader UInt8) := by
  intro r ans
  refine ⟨?_, rfl⟩
  intro e he
  cases ans with
  | ok b => cases he
  | error i =>
      injection he with he
      rw [← he]
      exact hP i

omit [Machine] in
theorem failsIn_readExact {P : Error -> Prop} (hP : forall i, P (.io i)) (n : Nat) :
    Act.FailsIn P (readExact n : Act Ops Error Reader (List UInt8)) := by
  intro r ans
  refine ⟨?_, rfl⟩
  intro e he
  cases ans with
  | ok bs => cases he
  | error i =>
      injection he with he
      rw [← he]
      exact hP i

theorem failsIn_headerLoop (x : TlvHeader × Nat × Nat) :
    Act.FailsIn NotMidMessage (headerLoop x) := by
  rcases x with ⟨header, len, headerLen⟩
  unfold headerLoop
  dsimp only
  by_cases hmore : header.hasMore = true
  · rw [if_pos hmore]
    refine .bind (failsIn_readU8 (by simp [NotMidMessage])) ?_
    intro byte
    split
    · exact .fail (by simp [NotMidMessage])
    · cases Usize.checkedShl len 4 with
      | none => exact .fail (by simp [NotMidMessage])
      | some len' =>
          dsimp only
          cases Usize.checkedAdd len' (TlvHeader.mk byte).len with
          | none => exact .fail (by simp [NotMidMessage])
          | some len'' => exact .pure _
  · rw [if_neg hmore]
    exact .pure _

omit [Machine] in
theorem notMidMessage_headerEnd {ty : TlvType} {header : TlvHeader} {len headerLen : Nat}
    (e : Error) (h : headerEnd ty header len headerLen = .error e) : NotMidMessage e := by
  intro remaining he
  rw [he] at h
  unfold headerEnd at h
  split at h <;> try split at h
  all_goals first | cases h | (split at h <;> cases h)

theorem failsIn_readTlvInner : Act.FailsIn NotMidMessage readTlvInner := by
  refine .bind (failsIn_readU8 (by simp [NotMidMessage])) ?_
  intro byte
  exact .bind (.iterate failsIn_headerLoop _ _) fun _ => .ofExcept notMidMessage_headerEnd

theorem failsIn_skipBytes (num : Nat) : Act.FailsIn OfReader (skipBytes num) := by
  refine .iterate ?_ _ num
  intro num
  unfold skipBytesLoop
  by_cases hpos : num > 0
  · rw [if_pos hpos]
    exact .bind (failsIn_readExact (fun i => ⟨i, rfl⟩) _) fun _ => .pure _
  · rw [if_neg hpos]
    exact .pure _

theorem run_readTlvInner (e : Io.Error) (r : Reader) {bs : List UInt8}
    (hbs : bs.length < Machine.fuel) :
    (readTlvInner r).run (finite e) bs =
      .done ((readHeader e bs).1, r) (readHeader e bs).2 := by
  rw [Act.run_finite failsIn_readTlvInner strict_readTlvInner spends_readTlvInner.endures e r hbs,
    parse_readTlvInner]
  unfold readHeader
  cases decodeHeader bs with
  | none => rfl
  | some y => rfl

theorem readHeader_error {e : Io.Error} {bs rest : List UInt8} {err : Error}
    (hbs : bs.length < Machine.fuel) (h : readHeader e bs = (.error err, rest)) :
    NotMidMessage err := by
  have hrun := run_readTlvInner e new hbs
  rw [h] at hrun
  exact (failsIn_readTlvInner.of_run hrun).1 err rfl

theorem run_skipBytes (e : Io.Error) (r : Reader) (num : Nat) {bs : List UInt8}
    (hbs : bs.length < Machine.fuel) :
    (skipBytes num r).run (finite e) bs =
      .done (if num ≤ bs.length then .ok () else .error (.io e), r) (bs.drop num) := by
  rw [Act.run_finite (failsIn_skipBytes num) (strict_skipBytes num) (endures_skipBytes num) e r hbs]
  by_cases hle : num ≤ bs.length
  · have hparse := skipBytes_append r (bs.drop num) (List.length_take_of_le hle)
      (Nat.lt_of_le_of_lt hle hbs)
    rw [List.take_append_drop] at hparse
    rw [hparse, if_pos hle]
  · cases hparse : (skipBytes num).parse r bs with
    | some x => exact absurd (skipBytes_ok hparse).2.1 hle
    | none => rw [if_neg hle, List.drop_eq_nil_of_le (Nat.le_of_not_le hle)]

/-!
## One item
-/

theorem run_skipTlvsExactLoop (e : Io.Error) (r : Reader) (num : Nat) {bs : List UInt8}
    (hbs : bs.length < Machine.fuel) :
    (skipTlvsExactLoop (num + 1) r).run (finite e) bs =
      match readHeader e bs with
      | (.error err, rest) =>
          .done (.error ((Stop.ofHeader err).outside num).report, r) rest
      | (.ok (ty, len), rest) =>
          if ty = .list then .done (.ok (.inl (num + len)), r) rest
          else if len ≤ rest.length then .done (.ok (.inl num), r) (rest.drop len)
          else .done (.error (.io e), r) [] := by
  unfold skipTlvsExactLoop
  rw [if_pos (Nat.succ_pos num), Act.run_attempt_bind, run_readTlvInner e r hbs,
    Nat.add_sub_cancel, Outcome.done_andThen]
  cases hheader : readHeader e bs with
  | mk res rest =>
      cases res with
      | error err =>
          dsimp only
          rw [Stop.report_ofHeader]
          cases err with
          | endOfSmlMessage =>
              by_cases hzero : num = 0
              · simp only [if_pos hzero]
                rfl
              · simp only [if_neg hzero]
                rfl
          | _ => rfl
      | ok x =>
          rcases x with ⟨ty, len⟩
          have hless := readHeader_shorter hheader
          have hbytes := run_skipBytes e r len (Nat.lt_trans hless hbs)
          have hdrop : ¬ len ≤ rest.length -> rest.drop len = [] :=
            fun h => List.drop_eq_nil_of_le (Nat.le_of_not_le h)
          by_cases hlist : ty = .list
          · rw [hlist]
            rfl
          · dsimp only
            rw [if_neg hlist]
            by_cases hle : len ≤ rest.length
            · rw [if_pos hle] at hbytes ⊢
              cases ty with
              | list => exact absurd rfl hlist
              | _ => exact Act.run_bind_of_ok hbytes
            · rw [if_neg hle, hdrop hle] at hbytes
              rw [if_neg hle]
              cases ty with
              | list => exact absurd rfl hlist
              | _ => exact Act.run_bind_of_error hbytes

theorem skipTlv_succ (e : Io.Error) (depth : Nat) {bs : List UInt8}
    (hbs : bs.length < Machine.fuel) :
    skipTlv e (depth + 1) bs =
      match readHeader e bs with
      | (.error err, rest) => some (.error (.ofHeader err), rest)
      | (.ok (ty, len), rest) =>
          if ty = .list then skipEach (skipTlv e depth) len rest
          else if len ≤ rest.length then some (.ok (), rest.drop len)
          else some (.error (.failed (.io e)), []) := by
  unfold skipTlv
  rw [run_readTlvInner e new hbs]
  rcases readHeader e bs with ⟨res, rest⟩
  cases res <;> rfl

/-!
## The loop and the descent
-/

theorem run_iterate_exact (e : Io.Error) (r : Reader) (n num : Nat) {bs : List UInt8}
    (hbs : bs.length < Machine.fuel) :
    (Act.iterate (n + 1) skipTlvsExactLoop (num + 1) r).run (finite e) bs =
      match readHeader e bs with
      | (.error err, rest) =>
          .done (.error ((Stop.ofHeader err).outside num).report, r) rest
      | (.ok (ty, len), rest) =>
          if ty = .list then (Act.iterate n skipTlvsExactLoop (num + len) r).run (finite e) rest
          else if len ≤ rest.length then
            (Act.iterate n skipTlvsExactLoop num r).run (finite e) (rest.drop len)
          else .done (.error (.io e), r) [] := by
  have hstep := run_skipTlvsExactLoop e r num hbs
  rw [Act.iterate_succ, Act.bind_apply, Prog.run_bind, hstep]
  cases readHeader e bs with
  | mk res rest =>
      cases res with
      | error err => rfl
      | ok x =>
          rcases x with ⟨ty, len⟩
          dsimp only
          by_cases hlist : ty = .list
          · rw [if_pos hlist, if_pos hlist]
            rfl
          · rw [if_neg hlist, if_neg hlist]
            by_cases hle : len ≤ rest.length
            · rw [if_pos hle, if_pos hle]
              rfl
            · rw [if_neg hle, if_neg hle]
              rfl

theorem run_iterate_fuel (e : Io.Error) (r : Reader) {n : Nat} (m num : Nat)
    (bs : List UInt8) (hbs : bs.length < Machine.fuel) (hn : bs.length < n) (hm : bs.length < m) :
    (Act.iterate n skipTlvsExactLoop num r).run (finite e) bs =
      (Act.iterate m skipTlvsExactLoop num r).run (finite e) bs := by
  induction n generalizing m num bs with
  | zero => exact absurd hn (Nat.not_lt_zero _)
  | succ n ih =>
      cases m with
      | zero => exact absurd hm (Nat.not_lt_zero _)
      | succ m =>
          cases num with
          | zero => rfl
          | succ num =>
              rw [run_iterate_exact e r n num hbs, run_iterate_exact e r m num hbs]
              cases hheader : readHeader e bs with
              | mk res rest =>
                  cases res with
                  | error err => rfl
                  | ok x =>
                      rcases x with ⟨ty, len⟩
                      have hless := readHeader_shorter hheader
                      have hdrop : (rest.drop len).length ≤ rest.length := by
                        rw [List.length_drop]
                        exact Nat.sub_le _ _
                      dsimp only
                      rw [ih m (num + len) rest (by lia) (by lia) (by lia),
                        ih m num (rest.drop len) (by lia) (by lia) (by lia)]

/-- The loop on a byte string, unrolled as often as that takes. -/
def exactFrom (e : Io.Error) (r : Reader) (num : Nat) (bs : List UInt8) :
    Outcome (Except Error Unit × Reader) (List UInt8) :=
  (Act.iterate (bs.length + 1) skipTlvsExactLoop num r).run (finite e) bs

theorem run_skipTlvsExact (e : Io.Error) (r : Reader) (num : Nat) {bs : List UInt8}
    (hbs : bs.length < Machine.fuel) :
    (skipTlvsExact num r).run (finite e) bs = exactFrom e r num bs :=
  run_iterate_fuel e r _ num bs hbs hbs (Nat.lt_succ_self _)

theorem exactFrom_succ (e : Io.Error) (r : Reader) (num : Nat) {bs : List UInt8}
    (hbs : bs.length < Machine.fuel) :
    exactFrom e r (num + 1) bs =
      match readHeader e bs with
      | (.error err, rest) =>
          .done (.error ((Stop.ofHeader err).outside num).report, r) rest
      | (.ok (ty, len), rest) =>
          if ty = .list then exactFrom e r (num + len) rest
          else if len ≤ rest.length then exactFrom e r num (rest.drop len)
          else .done (.error (.io e), r) [] := by
  unfold exactFrom
  rw [run_iterate_exact e r bs.length num hbs]
  cases hheader : readHeader e bs with
  | mk res rest =>
      cases res with
      | error err => rfl
      | ok x =>
          rcases x with ⟨ty, len⟩
          have hless := readHeader_shorter hheader
          have hdrop : (rest.drop len).length ≤ rest.length := by
            rw [List.length_drop]
            exact Nat.sub_le _ _
          dsimp only
          rw [run_iterate_fuel e r (rest.length + 1) (num + len) rest (by lia) hless
              (Nat.lt_succ_self _),
            run_iterate_fuel e r ((rest.drop len).length + 1) num (rest.drop len) (by lia)
              (by lia) (Nat.lt_succ_self _)]

/--
A counter of `num + k` stands for `num` items in front of `k`
others: the loop does what `p` does with the first `num` of them.
-/
def Descends (e : Io.Error) (r : Reader) (p : List UInt8 -> Descent) (num : Nat)
    (bs : List UInt8) : Prop :=
  exists res rest,
    p bs = some (res, rest) ∧ rest <:+ bs ∧ (forall s, res = .error s -> s.Proper) ∧
      forall k, exactFrom e r (num + k) bs =
        match res with
        | .ok () => exactFrom e r k rest
        | .error s => .done (.error (s.outside k).report, r) rest

theorem descends_skipTlv {e : Io.Error} {r : Reader} {depth : Nat} {bs : List UInt8}
    (hbs : bs.length < Machine.fuel)
    (helements : forall num rest, rest.length < bs.length ->
      Descends e r (skipEach (skipTlv e depth) num) num rest) :
    Descends e r (skipTlv e (depth + 1)) 1 bs := by
  have hone := skipTlv_succ e depth hbs
  have hloop := fun k => exactFrom_succ e r k hbs
  have hrest := readHeader_suffix e bs
  cases hheader : readHeader e bs with
  | mk res rest =>
      rw [hheader] at hone hrest
      simp only [hheader] at hloop
      cases res with
      | error err =>
          refine ⟨_, rest, hone, hrest, ?_, ?_⟩
          · intro s hs
            injection hs with hs
            rw [← hs]
            exact Stop.proper_ofHeader (readHeader_error hbs hheader)
          · intro k
            rw [Nat.add_comm]
            exact hloop k
      | ok x =>
          rcases x with ⟨ty, len⟩
          have hless := readHeader_shorter hheader
          dsimp only at hone hloop
          by_cases hlist : ty = .list
          · rw [if_pos hlist] at hone
            rcases helements len rest hless with ⟨res, rest', hrun, hsuffix, hproper, hcount⟩
            refine ⟨res, rest', hone.trans hrun, hsuffix.trans hrest, hproper, ?_⟩
            intro k
            rw [Nat.add_comm, hloop, if_pos hlist, Nat.add_comm k len]
            exact hcount k
          · rw [if_neg hlist] at hone
            by_cases hle : len ≤ rest.length
            · rw [if_pos hle] at hone
              refine ⟨_, _, hone, (List.drop_suffix len rest).trans hrest, ?_, ?_⟩
              · intro s hs
                cases hs
              · intro k
                rw [Nat.add_comm, hloop, if_neg hlist, if_pos hle]
            · rw [if_neg hle] at hone
              refine ⟨_, _, hone, List.nil_suffix, ?_, ?_⟩
              · intro s hs
                injection hs with hs
                rw [← hs]
                exact ⟨by simp, by simp⟩
              · intro k
                rw [Nat.add_comm, hloop, if_neg hlist, if_neg hle]
                rfl

theorem Descends.cons {e : Io.Error} {r : Reader} {one : List UInt8 -> Descent} {num : Nat}
    {bs : List UInt8} (hone : Descends e r one 1 bs)
    (hothers : forall rest, rest <:+ bs -> Descends e r (skipEach one num) num rest) :
    Descends e r (skipEach one (num + 1)) (num + 1) bs := by
  rcases hone with ⟨res, rest, hrun, hsuffix, hproper, hcount⟩
  have hsum : forall k, num + 1 + k = 1 + (num + k) := fun k => by lia
  cases res with
  | error s =>
      refine ⟨.error (s.outside num), rest, ?_, hsuffix, ?_, ?_⟩
      · unfold skipEach
        rw [hrun]
      · intro s' hs'
        injection hs' with hs'
        rw [← hs']
        exact (hproper s rfl).outside num
      · intro k
        rw [hsum, hcount]
        dsimp only
        rw [Stop.outside_outside]
  | ok x =>
      rcases hothers rest hsuffix with ⟨res', rest', hrun', hsuffix', hproper', hcount'⟩
      refine ⟨res', rest', ?_, hsuffix'.trans hsuffix, hproper', ?_⟩
      · unfold skipEach
        rw [hrun]
        exact hrun'
      · intro k
        rw [hsum, hcount]
        exact hcount' k

theorem descends_skipEach (e : Io.Error) (r : Reader) {depth : Nat} (num : Nat)
    {bs : List UInt8} (hdepth : bs.length < depth) (hbs : bs.length < Machine.fuel) :
    Descends e r (skipEach (skipTlv e depth) num) num bs := by
  -- on the depth for the elements of a list, then on the number of items
  induction depth generalizing num bs with
  | zero => exact absurd hdepth (Nat.not_lt_zero _)
  | succ depth ihdepth =>
      induction num generalizing bs with
      | zero =>
          refine ⟨.ok (), bs, rfl, List.suffix_refl bs, ?_, ?_⟩
          · intro s hs
            cases hs
          · intro k
            rw [Nat.zero_add]
      | succ num ih =>
          have helements : forall num rest, rest.length < bs.length ->
              Descends e r (skipEach (skipTlv e depth) num) num rest :=
            fun num rest hless => ihdepth num (by lia) (by lia)
          apply (descends_skipTlv hbs helements).cons
          intro rest hsuffix
          have hle := hsuffix.length_le
          exact ih (by lia) (by lia)

/-!
## The counter of the code
-/

def CounterStep (e : Io.Error) (r : Reader) (x y : Nat × List UInt8) : Prop :=
  (skipTlvsExactLoop x.1 r).run (finite e) x.2 = .done (.ok (.inl y.1), r) y.2

def CounterFits (e : Io.Error) (r : Reader) (num : Nat) (bs : List UInt8) : Prop :=
  forall y, Relation.ReflTransGen (CounterStep e r) (num, bs) y -> y.1 < Usize.size

theorem CounterFits.step {e : Io.Error} {r : Reader} {num num' : Nat} {bs rest : List UInt8}
    (h : CounterFits e r num bs) (hstep : CounterStep e r (num, bs) (num', rest)) :
    CounterFits e r num' rest :=
  fun y hy => h y (.head hstep hy)

theorem failsIn_skipTlvsExactLoop (num : Nat) :
    Act.FailsIn (fun _ => True) (skipTlvsExactLoop num) := by
  unfold skipTlvsExactLoop
  by_cases hpos : num > 0
  · rw [if_pos hpos]
    refine .bind (.attempt failsIn_readTlvInner) ?_
    intro res
    have hbytes : forall len, Act.FailsIn (fun _ => True)
        (skipBytes len >>= fun _ => pure (.inl (num - 1) : Nat ⊕ Unit)) := by
      intro len
      exact .bind ((failsIn_skipBytes len).mono fun _ _ => trivial) fun _ => .pure _
    cases res with
    | error err =>
        cases err with
        | endOfSmlMessage =>
            dsimp only
            split
            · exact .fail trivial
            · exact .fail trivial
        | _ => exact .fail trivial
    | ok x =>
        rcases x with ⟨ty, len⟩
        cases ty with
        | list => exact .pure _
        | _ => exact hbytes len
  · rw [if_neg hpos]
    exact .pure _

theorem run_skipTlvsLoop {e : Io.Error} {r : Reader} {num : Nat} {bs : List UInt8}
    (h : CounterFits e r num bs) :
    (skipTlvsLoop num r).run (finite e) bs = (skipTlvsExactLoop num r).run (finite e) bs := by
  have hnext : forall num' rest, CounterStep e r (num, bs) (num', rest) -> num' < Usize.size :=
    fun num' rest hstep => h (num', rest) (.single hstep)
  unfold CounterStep at hnext
  unfold skipTlvsExactLoop at hnext
  unfold skipTlvsLoop skipTlvsExactLoop
  by_cases hpos : num > 0
  · simp only [if_pos hpos] at hnext ⊢
    simp only [Act.run_attempt_bind] at hnext ⊢
    cases hheader : (readTlvInner r).run (finite e) bs with
    | blocked rest => rfl
    | stuck rest => rfl
    | done x rest =>
        rcases x with ⟨res, r'⟩
        simp only [hheader, Outcome.done_andThen] at hnext ⊢
        have hr' := (failsIn_readTlvInner.of_run hheader).2
        cases res with
        | error err => cases err <;> rfl
        | ok x =>
            rcases x with ⟨ty, len⟩
            cases ty with
            | list =>
                have hfits := hnext (num - 1 + len) rest (by rw [hr']; rfl)
                dsimp only
                rw [Usize.wrappingAdd_eq hfits]
            | _ => rfl
  · simp only [if_neg hpos]

theorem run_skipTlvs {e : Io.Error} {r : Reader} {num : Nat} {bs : List UInt8}
    (h : CounterFits e r num bs) :
    (skipTlvs num r).run (finite e) bs = (skipTlvsExact num r).run (finite e) bs := by
  unfold skipTlvs skipTlvsExact
  generalize Machine.fuel = n
  induction n generalizing num bs with
  | zero => rfl
  | succ n ih =>
      rw [Act.iterate_succ, Act.iterate_succ, Act.bind_apply, Act.bind_apply, Prog.run_bind,
        Prog.run_bind, run_skipTlvsLoop h]
      cases hstep : (skipTlvsExactLoop num r).run (finite e) bs with
      | blocked rest => rfl
      | stuck rest => rfl
      | done x rest =>
          rcases x with ⟨res, r'⟩
          have hr' := ((failsIn_skipTlvsExactLoop num).of_run hstep).2
          cases res with
          | error err => rfl
          | ok next =>
              cases next with
              | inr u => rfl
              | inl num' =>
                  rw [hr'] at hstep ⊢
                  exact ih (h.step hstep)

end Reader

/-!
## The main theorem
-/

/--
On a byte string that ends, the loop of `skip_tlvs` with an exact counter
comes to the end that the descent comes to, with the same bytes consumed: after
`num` items; at an end marker with one item outstanding, or with several;
or at another error.  The counter of the code is exact while it fits into a word.
-/
theorem skipTlvs_descends (e : Io.Error) (r : Reader) (num : Nat) {bs : List UInt8}
    (hbs : bs.length < Machine.fuel) {depth : Nat} (hdepth : bs.length < depth) :
    exists loop descent rest,
      (Reader.skipTlvsExact num r).run (finite e) bs = .done (loop, r) rest ∧
        Reader.skipEach (Reader.skipTlv e depth) num bs = some (descent, rest) ∧
        rest <:+ bs ∧
        (loop = .ok () <-> descent = .ok ()) ∧
        (loop = .error .endOfSmlMessage <-> descent = .error (.marker 1)) ∧
        (forall remaining, loop = .error (.midMessageEndMarker remaining) <->
          0 < remaining ∧ descent = .error (.marker (remaining + 1))) ∧
        (forall err, err ≠ .endOfSmlMessage ->
          (forall remaining, err ≠ .midMessageEndMarker remaining) ->
            (loop = .error err <-> descent = .error (.failed err))) ∧
        (Reader.CounterFits e r num bs ->
          (Reader.skipTlvs num r).run (finite e) bs = .done (loop, r) rest) := by
  rcases Reader.descends_skipEach e r num hdepth hbs with
    ⟨descent, rest, hdescent, hsuffix, hproper, hcount⟩
  have hloop : (Reader.skipTlvsExact num r).run (finite e) bs =
      .done (descent.mapError Stop.report, r) rest := by
    rw [Reader.run_skipTlvsExact e r num hbs, ← Nat.add_zero num, hcount 0]
    cases descent with
    | ok u => rfl
    | error s =>
        dsimp only
        rw [Stop.outside_zero]
        rfl
  refine ⟨descent.mapError Stop.report, descent, rest, hloop, hdescent, hsuffix,
    ?_, ?_, ?_, ?_, ?_⟩
  · cases descent with
    | ok u => exact ⟨fun _ => rfl, fun _ => rfl⟩
    | error s =>
        constructor
        · intro h
          cases h
        · intro h
          cases h
  · rw [Stop.mapError_report_iff hproper fun _ hs => Stop.report_eq_endOfSmlMessage hs,
      exists_eq_right]
  · intro remaining
    rw [Stop.mapError_report_iff hproper fun _ hs =>
      Stop.report_eq_midMessageEndMarker hs remaining]
    constructor
    · rintro ⟨s, hs, hpos, hmarker⟩
      exact ⟨hpos, by rw [hs, hmarker]⟩
    · rintro ⟨hpos, hs⟩
      exact ⟨_, hs, hpos, rfl⟩
  · intro err hend hmid
    rw [Stop.mapError_report_iff hproper fun _ _ => Stop.report_eq_other hend hmid,
      exists_eq_right]
  · intro hfits
    rw [Reader.run_skipTlvs hfits, hloop]

omit [Machine] in
/-- A list of two numbers in front of another byte, and one number with an end marker behind it. -/
theorem skipTlvs_descends_list :
    letI := Machine.word32 32 (Nat.le_refl 32)
    letI numbers : List UInt8 := [0x72, 0x52, 0x07, 0x62, 0x00, 0xFF]
    letI marked : List UInt8 := [0x72, 0x52, 0x07, 0x00]
    Reader.skipEach (Reader.skipTlv .unexpectedEof 7) 1 numbers = some (.ok (), [0xFF]) ∧
      (Reader.skipTlvsExact 1 Reader.new).run (finite Io.Error.unexpectedEof) numbers =
        .done (.ok (), Reader.new) [0xFF] ∧
      Reader.skipEach (Reader.skipTlv .unexpectedEof 5) 3 marked =
        some (.error (.marker 3), []) ∧
      (Reader.skipTlvsExact 3 Reader.new).run (finite Io.Error.unexpectedEof) marked =
        .done (.error (.midMessageEndMarker 2), Reader.new) [] := by
  let := Machine.word32 32 (Nat.le_refl 32)
  have hnumbers : Reader.skipEach (Reader.skipTlv .unexpectedEof 7) 1
      [0x72, 0x52, 0x07, 0x62, 0x00, 0xFF] = some (.ok (), [0xFF]) := rfl
  have hmarked : Reader.skipEach (Reader.skipTlv .unexpectedEof 5) 3 [0x72, 0x52, 0x07, 0x00] =
      some (.error (.marker 3), []) := rfl
  refine ⟨hnumbers, ?_, hmarked, ?_⟩
  · rcases @skipTlvs_descends _ Io.Error.unexpectedEof Reader.new 1
      [0x72, 0x52, 0x07, 0x62, 0x00, 0xFF] (by decide) 7 (by decide) with
      ⟨loop, descent, rest, hloop, hdescent, _, hok, _⟩
    rw [hnumbers] at hdescent
    injection hdescent with hdescent
    injection hdescent with hdescent hrest
    rw [hloop, hok.mpr hdescent.symm, hrest]
  · rcases @skipTlvs_descends _ Io.Error.unexpectedEof Reader.new 3 [0x72, 0x52, 0x07, 0x00]
      (by decide) 5 (by decide) with ⟨loop, descent, rest, hloop, hdescent, _, _, _, hmid, _⟩
    rw [hmarked] at hdescent
    injection hdescent with hdescent
    injection hdescent with hdescent hrest
    rw [hloop, (hmid 2).mpr ⟨Nat.two_pos, hdescent.symm⟩, hrest]

end Tlv
end Sml
end Smartmeter
