import Mathlib.Data.List.Induction
import Mathlib.Data.List.Perm.Basic
import Smartmeter.Firmware.Powermeter.Publish

/-!
# Where the samples go

A ledger follows the samples through a run: those that were received, those that
a message covers, and those that are in the sum.  It is written from the labels
of the run alone and agrees with the variables of the device.
-/

namespace Smartmeter
namespace Firmware
namespace Powermeter

open Foundation

/-!
## The ledger
-/

structure Sample where
  number : Nat
  cbdata : CallbackData
deriving DecidableEq, Repr

structure Ledger where
  received : List Sample
  published : List (List Sample)
  accumulated : List Sample
deriving DecidableEq, Repr

namespace Ledger

def empty : Ledger := { received := [], published := [], accumulated := [] }

def sample (l : Ledger) (cbdata : CallbackData) : Sample :=
  { number := l.received.length, cbdata := cbdata }

def receive (l : Ledger) (cbdata : CallbackData) : Ledger :=
  { l with
    received := l.received ++ [l.sample cbdata]
    accumulated := l.accumulated ++ [l.sample cbdata] }

def publish (l : Ledger) : Ledger := { l with published := l.published ++ [l.accumulated] }

def settle (l : Ledger) : Ledger := { l with accumulated := [] }

def record (l : Ledger) : SplitStep -> Ledger
  | .step (.smlDataCb cbdata) => l.receive cbdata
  | .piece (.publishActivePower ret) => if ret = 0 then l.publish else l
  | .piece .reset => l.settle
  | _ => l

def ofSteps (as : List SplitStep) : Ledger := as.foldl record empty

theorem ofSteps_snoc (as : List SplitStep) (a : SplitStep) :
    ofSteps (as ++ [a]) = (ofSteps as).record a := by
  unfold ofSteps
  rw [List.foldl_append]
  rfl

theorem record_publishActivePower (l : Ledger) {ret : Int} (h : ret ≠ 0) :
    l.record (.piece (.publishActivePower ret)) = l :=
  if_neg h

/-!
## Conservation
-/

/-- Every sample is covered by one message or is in the sum, and by no two of these. -/
def Conserved (l : Ledger) : Prop :=
  l.received.Perm (l.published.flatten ++ l.accumulated)

/-- The last message covers the samples in the sum up to some that came later. -/
def Open (l : Ledger) : Prop :=
  exists covered later, l.published.getLast? = some covered ∧
    l.accumulated = covered ++ later ∧ l.received.Perm (l.published.flatten ++ later)

theorem Conserved.receive {l : Ledger} (h : l.Conserved) (cbdata : CallbackData) :
    (l.receive cbdata).Conserved := by
  change (l.received ++ [_]).Perm (l.published.flatten ++ (l.accumulated ++ [_]))
  rw [← List.append_assoc]
  exact h.append_right _

theorem Open.receive {l : Ledger} (h : l.Open) (cbdata : CallbackData) :
    (l.receive cbdata).Open := by
  rcases h with ⟨covered, later, hlast, hacc, hperm⟩
  refine ⟨covered, later ++ [l.sample cbdata], hlast, ?_, ?_⟩
  · rw [← List.append_assoc, ← hacc]
    rfl
  · rw [← List.append_assoc]
    exact hperm.append_right _

theorem Conserved.publish {l : Ledger} (h : l.Conserved) : l.publish.Open := by
  refine ⟨l.accumulated, [], List.getLast?_concat .., (List.append_nil _).symm, ?_⟩
  change l.received.Perm ((l.published ++ [l.accumulated]).flatten ++ [])
  rw [List.flatten_concat, List.append_nil]
  exact h

theorem Open.conserved_iff {l : Ledger} (h : l.Open) :
    l.Conserved <-> l.published.getLast? = some [] := by
  rcases h with ⟨covered, later, hlast, hacc, hperm⟩
  unfold Conserved
  rw [hlast, hacc]
  constructor
  · intro hconserved
    have hlen := hconserved.length_eq
    rw [hperm.length_eq] at hlen
    simp only [List.length_append] at hlen
    have hnil : covered = [] := List.length_eq_zero_iff.mp (by lia)
    rw [hnil]
  · intro hnil
    injection hnil with hnil
    rw [hnil]
    exact hperm

theorem Open.settle_conserved_iff {l : Ledger} (h : l.Open) :
    l.settle.Conserved <-> l.published.getLast? = some l.accumulated := by
  rcases h with ⟨covered, later, hlast, hacc, hperm⟩
  change l.received.Perm (l.published.flatten ++ []) <-> _
  rw [hlast, hacc]
  constructor
  · intro hconserved
    have hlen := hconserved.length_eq
    rw [hperm.length_eq] at hlen
    simp only [List.length_append, List.length_nil] at hlen
    have hnil : later = [] := List.length_eq_zero_iff.mp (by lia)
    rw [hnil, List.append_nil]
  · intro hall
    injection hall with hall
    rw [List.self_eq_append_right.mp hall] at hperm
    exact hperm

end Ledger

section

variable {φ : Type}

/-- The thread is in `app_publish_callback`, behind the first message. -/
def Phase.Inside : Phase -> Prop
  | .powerPublished => True
  | .energyPublished => True
  | _ => False

structure Ledger.Kept (l : Ledger) (d : Device φ) : Prop where
  inside : d.phase.Inside -> l.Open
  outside : ¬ d.phase.Inside -> l.Conserved

namespace Ledger.Kept

theorem of_conserved {l : Ledger} {d : Device φ} (h : l.Conserved) (hphase : ¬ d.phase.Inside) :
    l.Kept d where
  inside hinside := absurd hinside hphase
  outside _ := h

theorem of_open {l : Ledger} {d : Device φ} (h : l.Open) (hphase : d.phase.Inside) :
    l.Kept d where
  inside _ := h
  outside houtside := absurd hphase houtside

theorem conserved {l : Ledger} {d : Device φ} {phase : Phase} (h : l.Kept d)
    (hphase : d.phase = phase) (hout : ¬ phase.Inside) : l.Conserved := by
  apply h.outside
  rw [hphase]
  exact hout

theorem opened {l : Ledger} {d : Device φ} {phase : Phase} (h : l.Kept d)
    (hphase : d.phase = phase) (hin : phase.Inside) : l.Open := by
  apply h.inside
  rw [hphase]
  exact hin

end Ledger.Kept

end

/-!
## Agreement with the device
-/

variable {φ : Type} [CFloat φ] [Machine]

def sumPower (φ : Type) [CFloat φ] (samples : List Sample) : φ :=
  samples.foldl (fun sum s => CFloat.add sum (CFloat.ofValue s.cbdata.activePower))
    CFloat.zero

def Message.average : Message φ -> Option (φ × Nat)
  | .activePower sum numSamples => some (sum, numSamples)
  | .activeEnergy _ => none

namespace Ledger

/-- The sum and the number of samples that a message which covers them carries. -/
def average (φ : Type) [CFloat φ] (samples : List Sample) : φ × Nat :=
  (sumPower φ samples, samples.length % Usize.size)

/-- The ledger tells what is in the sum and what the messages that were sent carry. -/
structure Agrees (l : Ledger) (d : Device φ) : Prop where
  accumulated : (d.samples.activePower, d.samples.numSamples) = average φ l.accumulated
  sent : d.sent.filterMap Message.average = l.published.map (average φ)

namespace Agrees

theorem empty : Ledger.empty.Agrees (Device.start : Device φ) where
  accumulated := Prod.ext rfl (Nat.zero_mod _).symm
  sent := rfl

theorem receive {l : Ledger} {d d' : Device φ} {cbdata : CallbackData} (h : l.Agrees d)
    (hsamples : d'.samples = d.samples.smlDataCb cbdata) (hsent : d'.sent = d.sent) :
    (l.receive cbdata).Agrees d' := by
  have hpower : d.samples.activePower = sumPower φ l.accumulated :=
    congrArg Prod.fst h.accumulated
  have hnum : d.samples.numSamples = l.accumulated.length % Usize.size :=
    congrArg Prod.snd h.accumulated
  constructor
  · rw [hsamples]
    apply Prod.ext
    · change CFloat.add d.samples.activePower (CFloat.ofValue cbdata.activePower) =
        (l.accumulated ++ [_]).foldl _ _
      rw [hpower, List.foldl_append]
      rfl
    · change (d.samples.numSamples + 1) % Usize.size =
        (l.accumulated ++ [_]).length % Usize.size
      rw [hnum, List.length_append, List.length_singleton, Nat.mod_add_mod]
  · rw [hsent]
    exact h.sent

theorem move {l : Ledger} {d d' : Device φ} (h : l.Agrees d)
    (hsamples : d'.samples = d.samples) (hsent : d'.sent = d.sent) : l.Agrees d' := by
  constructor
  · rw [hsamples]
    exact h.accumulated
  · rw [hsent]
    exact h.sent

theorem step {l : Ledger} {d d' : Device φ} {a : Step} (h : l.Agrees d)
    (hstep : d.step a = some d') : (l.record (.step a)).Agrees d' := by
  cases Device.steps_of_step hstep with
  | sample cbdata => exact h.receive rfl rfl
  | event | work | idle | request | again | failed => exact h.move rfl rfl

theorem piece {l : Ledger} {d d' : Device φ} {p : Piece} (h : l.Agrees d)
    (hstep : d.piece p = some d') : (l.record (.piece p)).Agrees d' := by
  cases Device.pieces_of_piece hstep with
  | power hphase =>
      constructor
      · exact h.accumulated
      · change (d.sent ++ [_]).filterMap Message.average =
          (l.published ++ [l.accumulated]).map (average φ)
        rw [List.filterMap_append, List.map_append, h.sent]
        congr 1
        exact congrArg (fun x => [x]) h.accumulated
  | powerFailed hphase hret =>
      rw [record_publishActivePower l hret]
      exact h.move rfl rfl
  | energy hphase =>
      constructor
      · exact h.accumulated
      · change (d.sent ++ [_]).filterMap Message.average = _
        rw [List.filterMap_append, h.sent]
        exact List.append_nil _
  | energyFailed hphase hret => exact h.move rfl rfl
  | reset hphase =>
      constructor
      · exact Prod.ext rfl (Nat.zero_mod _).symm
      · exact h.sent

end Agrees

theorem agrees {as : List SplitStep} {d : Device φ} (run : (splitSystem φ).Run as d) :
    (ofSteps as).Agrees d := by
  refine run.invariant (I := fun as d => (ofSteps as).Agrees d) ?_ ?_
  · exact Agrees.empty
  intro as a d d' _ h hstep
  rw [ofSteps_snoc]
  cases a with
  | step a => exact h.step hstep
  | piece p => exact h.piece hstep

end Ledger

/-!
## Runs
-/

/--
The sum is reset when the last message covers all of it, and the publication
between that message and the reset fails only when it covers nothing.
-/
def Settles (as : List SplitStep) (_ : Device φ) : SplitStep -> Prop
  | .piece .reset =>
      (Ledger.ofSteps as).published.getLast? = some (Ledger.ofSteps as).accumulated
  | .piece (.publishActiveEnergy ret) =>
      ret ≠ 0 -> (Ledger.ofSteps as).published.getLast? = some []
  | _ => True

namespace Ledger
namespace Kept

theorem step {l : Ledger} {d d' : Device φ} {a : Step} (h : l.Kept d)
    (hstep : d.step a = some d') : (l.record (.step a)).Kept d' := by
  cases Device.steps_of_step hstep with
  | sample cbdata => exact ⟨fun hin => (h.inside hin).receive cbdata,
      fun hout => (h.outside hout).receive cbdata⟩
  | event connected => exact ⟨h.inside, h.outside⟩
  | work hphase _ => exact .of_conserved (h.conserved hphase not_false) not_false
  | idle hphase _ => exact h
  | request hphase _ => exact .of_conserved (h.conserved hphase not_false) not_false
  | again hphase _ => exact .of_conserved (h.conserved hphase not_false) not_false
  | failed hphase => exact .of_conserved (h.conserved hphase not_false) not_false

omit [Machine] in
theorem piece {as : List SplitStep} {d d' : Device φ} {p : Piece} (h : (ofSteps as).Kept d)
    (hsettles : Settles as d (.piece p)) (hstep : d.piece p = some d') :
    ((ofSteps as).record (.piece p)).Kept d' := by
  cases Device.pieces_of_piece hstep with
  | power hphase => exact .of_open (h.conserved hphase not_false).publish trivial
  | powerFailed hphase hret =>
      rw [record_publishActivePower _ hret]
      exact .of_conserved (h.conserved hphase not_false) not_false
  | energy hphase => exact .of_open (h.opened hphase trivial) trivial
  | energyFailed hphase hret =>
      have hopen := h.opened hphase trivial
      exact .of_conserved (hopen.conserved_iff.mpr (hsettles hret)) not_false
  | reset hphase =>
      have hopen := h.opened hphase trivial
      exact .of_conserved (hopen.settle_conserved_iff.mpr hsettles) not_false

theorem not_conserved {as : List SplitStep} {d d' : Device φ} {a : SplitStep}
    (h : (ofSteps as).Kept d) (hnot : ¬ Settles as d a)
    (hstep : (splitSystem φ).next d a = some d') :
    ¬ d'.phase.Inside ∧ ¬ ((ofSteps as).record a).Conserved := by
  cases a with
  | step a => exact absurd trivial hnot
  | piece p =>
      cases Device.pieces_of_piece hstep with
      | power | powerFailed => exact absurd trivial hnot
      | energy hphase => exact absurd (fun hne => absurd rfl hne) hnot
      | energyFailed hphase hret =>
          have hopen := h.opened hphase trivial
          exact ⟨not_false, fun hconserved => hnot fun _ => hopen.conserved_iff.mp hconserved⟩
      | reset hphase =>
          have hopen := h.opened hphase trivial
          exact ⟨not_false, fun hconserved => hnot (hopen.settle_conserved_iff.mp hconserved)⟩

end Kept
end Ledger

/--
Outside of `app_publish_callback` every sample is covered by one message or
is in the sum, all along a run, if and only if every step of the run settles.
-/
theorem samples_conserved_iff {as : List SplitStep} {d : Device φ}
    (run : (splitSystem φ).Run as d) :
    (Ledger.ofSteps as).Agrees d ∧
      ((splitSystem φ).Always
          (fun as d => ¬ d.phase.Inside -> (Ledger.ofSteps as).Conserved) as <->
        (splitSystem φ).EachStep Settles as) := by
  refine ⟨Ledger.agrees run, ?_⟩
  apply System.always_iff_eachStep (I := fun as d => (Ledger.ofSteps as).Kept d)
  · exact .of_conserved (List.Perm.refl []) not_false
  · intro as a d d' h hsettles hstep
    rw [Ledger.ofSteps_snoc]
    cases a with
    | step a => exact h.step hstep
    | piece p => exact h.piece hsettles hstep
  · intro as d h
    exact h.outside
  · intro as a d d' h hnot hstep
    rw [Ledger.ofSteps_snoc]
    rcases h.not_conserved hnot hstep with ⟨hout, hlost⟩
    exact fun hconserved => hlost (hconserved hout)
  · exact run

/-- A sample arrives, and the MQTT thread starts to publish it. -/
def started : List SplitStep :=
  [.step (.smlDataCb reading), .step (.evtCb true), .step .doWork, .step .eventfdRead,
    .piece (.publishActivePower 0)]

omit [Machine] in
/-- Nothing happens between the two messages and the reset. -/
theorem samples_conserved_iff_settled :
    letI := Machine.word32 32 (Nat.le_refl 32)
    (Ledger.ofSteps (started ++ [.piece (.publishActiveEnergy 0), .piece .reset])).Conserved := by
  let := Machine.word32 32 (Nat.le_refl 32)
  have hrun : exists d, (splitSystem Rat).steps Device.start
      (started ++ [.piece (.publishActiveEnergy 0), .piece .reset]) = some d ∧
      d.phase = .outside := ⟨_, rfl, rfl⟩
  rcases hrun with ⟨d, hsteps, hphase⟩
  have run := System.run_of_steps (M := splitSystem Rat) hsteps
  have hsettles : (splitSystem Rat).EachStep Settles
      (started ++ [.piece (.publishActiveEnergy 0), .piece .reset]) := by
    apply System.eachStep_of_meets
    refine And.intro trivial fun _ _ => And.intro trivial fun _ _ => And.intro trivial
      fun _ _ => And.intro trivial fun _ _ => And.intro trivial fun _ _ =>
      And.intro (fun hne => absurd rfl hne) fun _ _ => And.intro rfl fun _ _ => trivial
  apply (samples_conserved_iff run).2.mpr hsettles _ [] d (List.append_nil _).symm run
  rw [hphase]
  exact not_false

omit [Machine] in
/--
The second message is not sent: its sample stays in the sum although the first
message covers it.  Or a sample arrives before the reset: it is in no message.
-/
theorem samples_not_conserved :
    letI := Machine.word32 32 (Nat.le_refl 32)
    (exists d, (splitSystem Rat).Run (started ++ [.piece (.publishActiveEnergy (-11))]) d ∧
      ¬ d.phase.Inside ∧
      ¬ (Ledger.ofSteps (started ++ [.piece (.publishActiveEnergy (-11))])).Conserved) ∧
    exists d, (splitSystem Rat).Run (started ++ [.step (.smlDataCb reading),
        .piece (.publishActiveEnergy 0), .piece .reset]) d ∧
      ¬ d.phase.Inside ∧
      ¬ (Ledger.ofSteps (started ++ [.step (.smlDataCb reading),
        .piece (.publishActiveEnergy 0), .piece .reset])).Conserved := by
  let := Machine.word32 32 (Nat.le_refl 32)
  constructor
  · refine ⟨_, System.run_of_steps rfl, not_false, ?_⟩
    intro h
    exact absurd h.length_eq (by decide)
  · refine ⟨_, System.run_of_steps rfl, not_false, ?_⟩
    intro h
    exact absurd h.length_eq (by decide)

end Powermeter
end Firmware
end Smartmeter
