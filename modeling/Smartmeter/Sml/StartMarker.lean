import Mathlib.Data.List.Induction
import Smartmeter.Sml.Crc
import Smartmeter.Sml.Stream

/-!
# Waiting for the start marker

The automaton of `wait_for_start_sequence` on a finite stream, and the
streams on which it finds the first start marker.
-/

namespace Smartmeter
namespace Sml

open Foundation
open Frame (escape startMarker)

variable {δ τ ω : Type}

/-!
## The automaton on a list of bytes
-/

def findStart : Nat -> List UInt8 -> Option (List UInt8)
  | count, [] => if count < 8 then none else some []
  | count, byte :: rest =>
      if count < 8 then findStart (startSequenceStep count byte) rest
      else some (byte :: rest)

def matched (bs : List UInt8) : Nat := bs.foldl startSequenceStep 0

theorem matched_append (bs more : List UInt8) :
    matched (bs ++ more) = more.foldl startSequenceStep (matched bs) :=
  List.foldl_append

theorem findStart_done (bs : List UInt8) : findStart 8 bs = some bs := by
  cases bs <;> rfl

theorem startMarker_take_succ {count : Nat} {byte : UInt8} (hcount : count < 8)
    (h : (count < 4 ∧ byte = 0x1B) ∨ (4 ≤ count ∧ byte = 0x01)) :
    startMarker.take (count + 1) = startMarker.take count ++ [byte] := by
  have hescape : forall i, i < 4 -> startMarker[i]? = some 0x1B := by decide
  have hstart : forall i, i < 8 -> 4 ≤ i -> startMarker[i]? = some 0x01 := by decide
  rw [List.take_add_one]
  rcases h with ⟨hlt, hbyte⟩ | ⟨hle, hbyte⟩
  · rw [hescape count hlt, hbyte]
    rfl
  · rw [hstart count hcount hle, hbyte]
    rfl

theorem startSequenceStep_suffix {bs : List UInt8} {count : Nat} (byte : UInt8)
    (hcount : count < 8) (h : startMarker.take count <:+ bs) :
    startSequenceStep count byte ≤ 8 ∧
      startMarker.take (startSequenceStep count byte) <:+ bs ++ [byte] := by
  rcases h with ⟨skipped, hbs⟩
  unfold startSequenceStep
  by_cases hnext : (count < 4 ∧ byte = 0x1B) ∨ (4 ≤ count ∧ byte = 0x01)
  · rw [if_pos hnext, startMarker_take_succ hcount hnext, ← hbs, List.append_assoc]
    exact ⟨hcount, List.suffix_append _ _⟩
  · rw [if_neg hnext]
    by_cases hstay : count = 4 ∧ byte = 0x1B
    · -- one more byte of the escape sequence: the first one is skipped instead
      rw [if_pos hstay, hstay.1]
      refine ⟨by decide, skipped ++ [0x1B], ?_⟩
      rw [← hbs, hstay.1, hstay.2, List.append_assoc, List.append_assoc]
      rfl
    · rw [if_neg hstay, List.take_zero]
      exact ⟨Nat.zero_le _, List.nil_suffix⟩

theorem matched_suffix {bs : List UInt8} (h : ¬ startMarker <:+: bs) :
    matched bs < 8 ∧ startMarker.take (matched bs) <:+ bs := by
  induction bs using List.reverseRecOn with
  | nil => exact ⟨by decide, List.suffix_rfl⟩
  | append_singleton bs byte ih =>
      rcases ih fun hbs => h (hbs.trans (List.prefix_append bs [byte]).isInfix) with
        ⟨hlt, hsuffix⟩
      rw [matched_append]
      change startSequenceStep (matched bs) byte < 8 ∧
        startMarker.take (startSequenceStep (matched bs) byte) <:+ bs ++ [byte]
      rcases startSequenceStep_suffix byte hlt hsuffix with ⟨hle, hstep⟩
      refine ⟨Nat.lt_of_le_of_ne hle ?_, hstep⟩
      intro height
      rw [height] at hstep
      exact h hstep.isInfix

theorem findStart_append {bs : List UInt8} (rest : List UInt8) (h : ¬ startMarker <:+: bs) :
    findStart 0 (bs ++ rest) = findStart (matched bs) rest := by
  induction bs using List.reverseRecOn generalizing rest with
  | nil => rfl
  | append_singleton bs byte ih =>
      have hbs : ¬ startMarker <:+: bs :=
        fun hwithin => h (hwithin.trans (List.prefix_append bs [byte]).isInfix)
      rw [List.append_assoc, ih _ hbs, matched_append]
      exact if_pos (matched_suffix hbs).1

theorem findStart_sound {s rest : List UInt8} (h : findStart 0 s = some rest) :
    exists skipped, s = skipped ++ startMarker ++ rest := by
  have hscan : forall (bs more : List UInt8) (count : Nat), count ≤ 8 ->
      startMarker.take count <:+ bs -> findStart count more = some rest ->
      exists skipped, bs ++ more = skipped ++ startMarker ++ rest := by
    intro bs more
    induction more generalizing bs with
    | nil =>
        intro count hle hsuffix hfind
        unfold findStart at hfind
        by_cases hlt : count < 8
        · rw [if_pos hlt] at hfind
          cases hfind
        · rw [if_neg hlt] at hfind
          have height : count = 8 := by lia
          rw [height] at hsuffix
          rcases hsuffix with ⟨skipped, hbs⟩
          cases hfind
          exact ⟨skipped, by rw [← hbs]; rfl⟩
    | cons byte more ih =>
        intro count hle hsuffix hfind
        unfold findStart at hfind
        by_cases hlt : count < 8
        · rw [if_pos hlt] at hfind
          rcases startSequenceStep_suffix byte hlt hsuffix with ⟨hle', hsuffix'⟩
          rcases ih (bs ++ [byte]) _ hle' hsuffix' hfind with ⟨skipped, hs⟩
          refine ⟨skipped, ?_⟩
          rw [← hs, List.append_assoc]
          rfl
        · rw [if_neg hlt] at hfind
          have height : count = 8 := by lia
          rw [height] at hsuffix
          rcases hsuffix with ⟨skipped, hbs⟩
          cases hfind
          exact ⟨skipped, by rw [← hbs]; rfl⟩
  exact hscan [] s 0 (Nat.zero_le _) List.nil_suffix h

/-!
## Markers that are broken off

Behind a marker that is broken off after one to three bytes `01` the
automaton starts over and loses the byte `1B` that broke it off.  If no
further `1B` precedes, it misses the marker that begins there, and finds it
again if that one is broken off, too.
-/

/-- A start marker that is broken off after one to three bytes `01`. -/
def Broken (block : List UInt8) : Prop :=
  exists j, 1 ≤ j ∧ j ≤ 3 ∧ block = escape ++ List.replicate j 0x01

/-- An odd number of broken markers in a row, counted from the end. -/
def OddBroken (bs : List UInt8) : Prop :=
  exists (skipped : List UInt8) (blocks : List (List UInt8)),
    bs = skipped ++ blocks.flatten ∧
    (forall block, block ∈ blocks -> Broken block) ∧
    (forall block, Broken block -> ¬ block <:+ skipped) ∧ blocks.length % 2 = 1

theorem Broken.ne_nil {block : List UInt8} (h : Broken block) : block ≠ [] := by
  rcases h with ⟨j, _, _, hblock⟩
  rw [hblock]
  exact List.cons_ne_nil _ _

theorem exists_blocks (bs : List UInt8) :
    exists (skipped : List UInt8) (blocks : List (List UInt8)),
      bs = skipped ++ blocks.flatten ∧
      (forall block, block ∈ blocks -> Broken block) ∧
      (forall block, Broken block -> ¬ block <:+ skipped) := by
  generalize hn : bs.length = n
  induction n using Nat.strongRecOn generalizing bs with
  | _ n ih =>
      by_cases hlast : exists block, Broken block ∧ block <:+ bs
      · rcases hlast with ⟨block, hblock, before, hbs⟩
        have hpos := List.length_pos_iff.mpr hblock.ne_nil
        have hless : before.length < n := by
          rw [← hn, ← hbs, List.length_append]
          lia
        rcases ih _ hless before rfl with ⟨skipped, blocks, hbefore, hblocks, hskipped⟩
        refine ⟨skipped, blocks ++ [block], ?_, ?_, hskipped⟩
        · rw [List.flatten_append, List.flatten_singleton, ← List.append_assoc, ← hbefore,
            hbs]
        · intro b hb
          rcases List.mem_append.mp hb with hleft | hright
          · exact hblocks b hleft
          · rw [List.mem_singleton.mp hright]
            exact hblock
      · refine ⟨bs, [], (List.append_nil bs).symm, ?_, ?_⟩
        · intro b hb
          cases hb
        · intro block hblock hsuffix
          exact hlast ⟨block, hblock, hsuffix⟩

theorem foldl_broken {block : List UInt8} (h : Broken block) {count : Nat} (hcount : count < 8) :
    (count ≤ 4 -> 5 ≤ block.foldl startSequenceStep count) ∧
      (5 ≤ count -> block.foldl startSequenceStep count = 0) := by
  have hall : forall j, j < 4 -> 1 ≤ j -> forall count, count < 8 ->
      (count ≤ 4 -> 5 ≤ (escape ++ List.replicate j 0x01).foldl startSequenceStep count) ∧
        (5 ≤ count ->
          (escape ++ List.replicate j 0x01).foldl startSequenceStep count = 0) := by decide
  rcases h with ⟨j, hlow, hhigh, hblock⟩
  rw [hblock]
  exact hall j (Nat.lt_succ_of_le hhigh) hlow count hcount

theorem foldl_startMarker {count : Nat} (h : count < 8) :
    (count ≤ 4 -> startMarker.foldl startSequenceStep count = 8) ∧
      (5 ≤ count -> startMarker.foldl startSequenceStep count = 0) := by
  have hall : forall count, count < 8 ->
      (count ≤ 4 -> startMarker.foldl startSequenceStep count = 8) ∧
        (5 ≤ count -> startMarker.foldl startSequenceStep count = 0) := by decide
  exact hall count h

theorem matched_le_four {bs : List UInt8} (h : ¬ startMarker <:+: bs)
    (hbroken : forall block, Broken block -> ¬ block <:+ bs) : matched bs ≤ 4 := by
  rcases matched_suffix h with ⟨hlt, hsuffix⟩
  apply Nat.le_of_not_lt
  intro hmore
  have htake : forall count, count < 8 -> 4 < count ->
      startMarker.take count = escape ++ List.replicate (count - 4) 0x01 := by decide
  rw [htake _ hlt hmore] at hsuffix
  exact hbroken _ ⟨matched bs - 4, by lia, by lia, rfl⟩ hsuffix

theorem matched_blocks {skipped : List UInt8} {blocks : List (List UInt8)}
    (h : ¬ startMarker <:+: skipped ++ blocks.flatten)
    (hblocks : forall block, block ∈ blocks -> Broken block)
    (hskipped : forall block, Broken block -> ¬ block <:+ skipped) :
    5 ≤ matched (skipped ++ blocks.flatten) <-> blocks.length % 2 = 1 := by
  induction blocks using List.reverseRecOn with
  | nil =>
      rw [List.flatten_nil, List.append_nil] at h ⊢
      have hle := matched_le_four h hskipped
      constructor
      · intro hmore
        lia
      · intro hodd
        cases hodd
  | append_singleton blocks block ih =>
      rw [List.flatten_append, List.flatten_singleton, ← List.append_assoc] at h ⊢
      have hbefore : ¬ startMarker <:+: skipped ++ blocks.flatten :=
        fun hwithin => h (hwithin.trans (List.prefix_append _ block).isInfix)
      have hblock := hblocks block (List.mem_append_right _ List.mem_cons_self)
      have hiff := ih hbefore fun b hb => hblocks b (List.mem_append_left _ hb)
      rcases foldl_broken hblock (matched_suffix hbefore).1 with ⟨hlow, hhigh⟩
      rw [matched_append, List.length_append, List.length_singleton]
      by_cases hodd : blocks.length % 2 = 1
      · rw [hhigh (hiff.mpr hodd)]
        constructor
        · intro hmore
          cases hmore
        · intro heven
          lia
      · have hle : matched (skipped ++ blocks.flatten) ≤ 4 := by
          apply Nat.le_of_not_lt
          intro hmore
          exact hodd (hiff.mp hmore)
        constructor
        · intro _
          lia
        · intro _
          exact hlow hle

theorem five_le_matched_iff {bs : List UInt8} (h : ¬ startMarker <:+: bs) :
    5 ≤ matched bs <-> OddBroken bs := by
  constructor
  · intro hmore
    rcases exists_blocks bs with ⟨skipped, blocks, hbs, hblocks, hskipped⟩
    rw [hbs] at h hmore
    exact ⟨skipped, blocks, hbs, hblocks, hskipped,
      (matched_blocks h hblocks hskipped).mp hmore⟩
  · rintro ⟨skipped, blocks, hbs, hblocks, hskipped, hodd⟩
    rw [hbs] at h ⊢
    exact (matched_blocks h hblocks hskipped).mpr hodd

/-!
## The first start marker
-/

structure FirstMarker (s before rest : List UInt8) : Prop where
  split : s = before ++ startMarker ++ rest
  first : forall before' rest', s = before' ++ startMarker ++ rest' ->
    before.length ≤ before'.length

namespace FirstMarker

variable {s before rest : List UInt8}

theorem absent (h : FirstMarker s before rest) :
    ¬ startMarker <:+: before ++ startMarker.take 7 := by
  rintro ⟨before', after, hsame⟩
  have hs : s = before' ++ startMarker ++ (after ++ 0x01 :: rest) := by
    rw [h.split, ← List.append_assoc, hsame, List.append_assoc, List.append_assoc]
    rfl
  have hle := h.first _ _ hs
  have hlen := congrArg List.length hsame
  rw [List.length_append, List.length_append, List.length_append] at hlen
  have hmarker : startMarker.length = 8 := rfl
  have htake : (startMarker.take 7).length = 7 := rfl
  lia

theorem absent_before (h : FirstMarker s before rest) : ¬ startMarker <:+: before :=
  fun hwithin => h.absent (hwithin.trans (List.prefix_append before _).isInfix)

theorem find_iff (h : FirstMarker s before rest) :
    findStart 0 s = some rest <-> ¬ OddBroken before := by
  have hmatched := matched_suffix h.absent_before
  have hscan : findStart 0 s = findStart (matched (before ++ startMarker)) rest := by
    have hsplit : s = (before ++ startMarker.take 7) ++ 0x01 :: rest := by
      rw [h.split, List.append_assoc, List.append_assoc]
      rfl
    have hmarker : before ++ startMarker = (before ++ startMarker.take 7) ++ [0x01] := by
      rw [List.append_assoc]
      rfl
    rw [hsplit, findStart_append _ h.absent, hmarker, matched_append _ [0x01]]
    exact if_pos (matched_suffix h.absent).1
  rw [hscan, matched_append, ← five_le_matched_iff h.absent_before]
  rcases foldl_startMarker hmatched.1 with ⟨hlow, hhigh⟩
  by_cases hmore : 5 ≤ matched before
  · rw [hhigh hmore]
    constructor
    · intro hfind
      rcases findStart_sound hfind with ⟨skipped, hrest⟩
      have hlen := congrArg List.length hrest
      rw [List.length_append, List.length_append] at hlen
      have hmarker : startMarker.length = 8 := rfl
      lia
    · intro hnot
      exact absurd hmore hnot
  · rw [hlow (by lia), findStart_done]
    exact ⟨fun _ => hmore, fun _ => rfl⟩

end FirstMarker

/-!
## On a finite stream
-/

section

variable [Digest δ]

def Stream.finite : Handler (TaskSig ω) (Stream δ ω)
  | .readU8, t =>
      match t.unread with
      | [] => .done (.error .unexpectedEof) { t with line := .source [] }
      | b :: rest => .done (.ok b) { t with line := .source rest }
  | o, t => handler o t

variable [Machine]

omit [Machine] in
theorem run_startSequenceLoop (x : τ) (n count : Nat) (bs : List UInt8) (hn : bs.length < n)
    (hcount : count ≤ 8) :
    (Act.iterate n startSequenceLoop count x).run Stream.finite
        (Stream.new bs : Stream δ ω) =
      match findStart count bs with
      | some rest => .done (.ok (), x) (Stream.new rest)
      | none => .done (.error (.io .unexpectedEof), x) (Stream.new []) := by
  induction n generalizing count bs with
  | zero => exact absurd hn (Nat.not_lt_zero _)
  | succ n ih =>
      rw [Act.iterate_succ, Act.bind_apply, Prog.run_bind]
      unfold startSequenceLoop
      cases bs with
      | nil =>
          unfold findStart
          by_cases hlt : count < 8
          · rw [if_pos hlt, if_pos hlt]
            rfl
          · rw [if_neg hlt, if_neg hlt]
            rfl
      | cons byte rest =>
          unfold findStart
          by_cases hlt : count < 8
          · rw [if_pos hlt, if_pos hlt]
            have hstep : startSequenceStep count byte ≤ 8 := by
              unfold startSequenceStep
              split
              · exact hlt
              · split <;> lia
            exact ih _ rest (Nat.lt_of_succ_lt_succ hn) hstep
          · rw [if_neg hlt, if_neg hlt]
            rfl

omit [Machine] in
theorem run_startSequence (x : τ) (n count : Nat) (t : Stream δ ω) (hn : t.unread.length < n)
    (hcount : count < 8) :
    (Act.iterate n startSequenceLoop count x).run Stream.handler t =
      match findStart count t.unread with
      | some rest => .done (.ok (), x) { t with line := .source rest }
      | none => .blocked { t with line := .source [] } := by
  induction n generalizing count t with
  | zero => exact absurd hn (Nat.not_lt_zero _)
  | succ n ih =>
      rw [Act.iterate_succ, Act.bind_apply, Prog.run_bind]
      unfold startSequenceLoop
      rw [if_pos hcount]
      cases hunread : t.unread with
      | nil =>
          have hread : t.sourceU8 = .blocked { t with line := .source [] } := by
            unfold Stream.sourceU8
            rw [hunread]
          change (t.sourceU8.andThen _).andThen _ = _
          rw [hread]
          unfold findStart
          rw [if_pos hcount]
          rfl
      | cons byte rest =>
          have hread : t.sourceU8 = .done (.ok byte) { t with line := .source rest } := by
            unfold Stream.sourceU8
            rw [hunread]
          change (t.sourceU8.andThen _).andThen _ = _
          rw [hread]
          change (Act.iterate n startSequenceLoop (startSequenceStep count byte) x).run
            Stream.handler { t with line := .source rest } = _
          unfold findStart
          rw [if_pos hcount]
          have hle : startSequenceStep count byte ≤ 8 := by
            unfold startSequenceStep
            split
            · exact hcount
            · split <;> lia
          rw [hunread, List.length_cons] at hn
          rcases Nat.lt_or_eq_of_le hle with hlt | height
          · exact ih _ { t with line := .source rest } (Nat.lt_of_succ_lt_succ hn) hlt
          · rw [height, findStart_done]
            cases n with
            | zero => exact absurd hn (by lia)
            | succ n => rfl

/--
The first start marker is found and nothing behind it is consumed; without a
start marker the end of the stream is reported.
-/
def FindsMarker (δ ω : Type) [Digest δ] (x : τ) (s : List UInt8) : Prop :=
  (forall before rest, FirstMarker s before rest ->
    (waitForStartSequence x).run Stream.finite (Stream.new s : Stream δ ω) =
      .done (.ok (), x) (Stream.new rest)) ∧
  ((forall before rest, s ≠ before ++ startMarker ++ rest) ->
    (waitForStartSequence x).run Stream.finite (Stream.new s : Stream δ ω) =
      .done (.error (.io .unexpectedEof), x) (Stream.new []))

theorem findsMarker_iff {x : τ} {s : List UInt8} (hfuel : s.length < Machine.fuel) :
    FindsMarker δ ω x s <->
      forall before rest, FirstMarker s before rest -> ¬ OddBroken before := by
  have hrun := run_startSequenceLoop (δ := δ) (ω := ω) x Machine.fuel 0 s hfuel (Nat.zero_le _)
  constructor
  · rintro ⟨hfinds, _⟩ before rest hfirst
    have hfound := hfinds before rest hfirst
    unfold waitForStartSequence at hfound
    rw [hrun] at hfound
    rw [← hfirst.find_iff]
    cases hfind : findStart 0 s with
    | none =>
        rw [hfind] at hfound
        cases hfound
    | some rest' =>
        rw [hfind] at hfound
        cases hfound
        rfl
  · intro hcond
    constructor
    · intro before rest hfirst
      unfold waitForStartSequence
      rw [hrun, hfirst.find_iff.mpr (hcond before rest hfirst)]
    · intro hnone
      unfold waitForStartSequence
      rw [hrun]
      cases hfind : findStart 0 s with
      | none => rfl
      | some rest =>
          rcases findStart_sound hfind with ⟨skipped, hs⟩
          exact absurd hs (hnone skipped rest)

end

theorem OddBroken.length_le {bs : List UInt8} (h : OddBroken bs) : 5 ≤ bs.length := by
  rcases h with ⟨skipped, blocks, hbs, hblocks, _, hodd⟩
  cases blocks with
  | nil => cases hodd
  | cons block blocks =>
      rcases hblocks block List.mem_cons_self with ⟨j, hlow, _, hblock⟩
      have hescape : escape.length = 4 := rfl
      rw [hbs, List.flatten_cons, hblock, List.length_append, List.length_append,
        List.length_append, List.length_replicate]
      lia

/-- A start marker behind one more byte `1B`. -/
theorem findsMarker_longer_escape :
    letI := Machine.word32 32 (Nat.le_refl 32)
    FindsMarker Crc Unit () (0x1B :: startMarker) := by
  let := Machine.word32 32 (Nat.le_refl 32)
  refine (findsMarker_iff (by decide)).mpr ?_
  intro before rest hfirst hodd
  have hlen := congrArg List.length hfirst.split
  have hfive := hodd.length_le
  rw [List.length_append, List.length_append] at hlen
  have hmarker : startMarker.length = 8 := rfl
  have hwhole : (0x1B :: startMarker).length = 9 := rfl
  lia

/-- A start marker behind one that is broken off is missed. -/
theorem findsMarker_missed :
    letI := Machine.word32 32 (Nat.le_refl 32)
    let before : List UInt8 := [0x1B, 0x1B, 0x1B, 0x1B, 0x01]
    FirstMarker (before ++ startMarker) before [] ∧
      (waitForStartSequence ()).run Stream.finite
          (Stream.new (before ++ startMarker) : Stream Crc Unit) =
        .done (.error (.io .unexpectedEof), ()) (Stream.new []) ∧
      ¬ FindsMarker Crc Unit () (before ++ startMarker) := by
  intro before
  let := Machine.word32 32 (Nat.le_refl 32)
  have hfirst : FirstMarker (before ++ startMarker) before [] := by
    constructor
    · exact (List.append_nil _).symm
    · intro before' rest' hs
      apply Nat.le_of_not_lt
      intro hless
      have hplaces : forall i, i < 5 ->
          ((before ++ startMarker).drop i).take 8 ≠ startMarker := by decide
      refine hplaces before'.length hless ?_
      rw [hs, List.append_assoc, List.drop_left]
      exact List.take_left' rfl
  have hrun : (waitForStartSequence ()).run Stream.finite
      (Stream.new (before ++ startMarker) : Stream Crc Unit) =
        .done (.error (.io .unexpectedEof), ()) (Stream.new []) := rfl
  refine ⟨hfirst, hrun, ?_⟩
  rintro ⟨hfinds, _⟩
  have hfound := hfinds before [] hfirst
  rw [hrun] at hfound
  cases hfound

end Sml
end Smartmeter
