import Smartmeter.Firmware.Powermeter.Publish

/-!
# Requests and samples

A publication is requested when a sample has arrived.  A sample that arrives
between the moment the request is read and the moment the sum is reset is
published, but the request it has made is left behind.
-/

namespace Smartmeter
namespace Firmware
namespace Powermeter

open Foundation

theorem eventfdWrite_pos (count : Nat) : 0 < eventfdWrite count 1 := by
  unfold eventfdWrite
  by_cases h : count + 1 < 2 ^ 64 - 1
  · rw [if_pos h]
    exact Nat.succ_pos count
  · rw [if_neg h]
    lia

variable {φ : Type} [CFloat φ] [Machine]

/--
When the sum is reset, no sample has arrived since the request was read; and the
number of samples does not wrap.
-/
def Prompt (_ : List WholeStep) (d : Device φ) : WholeStep -> Prop
  | .step (.smlDataCb _) => d.samples.numSamples + 1 < Usize.size
  | .appPublishCallback retPower retEnergy =>
      retPower = 0 -> retEnergy = 0 -> d.eventfdPublish = 0
  | _ => True

structure Device.Backed (d : Device φ) : Prop where
  phase : d.phase = .outside ∨ d.phase = .reading ∨ d.phase = .requested
  numSamples_lt : d.samples.numSamples < Usize.size
  samples : 0 < d.eventfdPublish ∨ d.phase = .requested -> 1 ≤ d.samples.numSamples

namespace Device.Backed

theorem start : (Device.start : Device φ).Backed where
  phase := .inl rfl
  numSamples_lt := Usize.size_pos
  samples h := by
    rcases h with h | h
    · exact absurd h (Nat.lt_irrefl 0)
    · cases h

omit [CFloat φ] in
theorem move {d d' : Device φ} (h : d.Backed)
    (hphase : d'.phase = .outside ∨ d'.phase = .reading) (hsamples : d'.samples = d.samples)
    (hcount : d'.eventfdPublish = d.eventfdPublish) : d'.Backed := by
  constructor
  · rcases hphase with hphase | hphase
    · exact .inl hphase
    · exact .inr (.inl hphase)
  · rw [hsamples]
    exact h.numSamples_lt
  · rw [hsamples, hcount]
    rintro (hpos | hrequested)
    · exact h.samples (.inl hpos)
    · rw [hrequested] at hphase
      rcases hphase with hphase | hphase <;> cases hphase

theorem step {as : List WholeStep} {d d' : Device φ} {a : Step} (h : d.Backed)
    (hprompt : Prompt as d (.step a)) (hstep : d.step a = some d') : d'.Backed := by
  cases Device.steps_of_step hstep with
  | sample cbdata =>
      have hadd : Usize.wrappingAdd d.samples.numSamples 1 = d.samples.numSamples + 1 :=
        Usize.wrappingAdd_eq hprompt
      constructor
      · exact h.phase
      · exact Usize.wrappingAdd_lt _ _
      · intro _
        change 1 ≤ Usize.wrappingAdd d.samples.numSamples 1
        rw [hadd]
        exact Nat.le_add_left 1 _
  | event connected => exact ⟨h.phase, h.numSamples_lt, h.samples⟩
  | work hphase connected => exact h.move (.inr rfl) rfl rfl
  | idle hphase connected => exact h
  | request hphase hcount =>
      refine ⟨.inr (.inr rfl), h.numSamples_lt, ?_⟩
      intro _
      exact h.samples (.inl (Nat.pos_of_ne_zero hcount))
  | again hphase hcount => exact h.move (.inl rfl) rfl rfl
  | failed hphase => exact h.move (.inl rfl) rfl rfl

theorem callback {as : List WholeStep} {d d' : Device φ} {retPower retEnergy : Int}
    (h : d.Backed) (hprompt : Prompt as d (.appPublishCallback retPower retEnergy))
    (hstep : d.callback retPower retEnergy = some d') : d'.Backed := by
  cases (Device.publishes_of_callback hstep).2 with
  | powerFailed hpower => exact h.move (.inl rfl) rfl rfl
  | energyFailed hpower henergy => exact h.move (.inl rfl) rfl rfl
  | finished hpower henergy =>
      refine ⟨.inl rfl, Usize.size_pos, ?_⟩
      rintro (hpos | hrequested)
      · have hzero : d.eventfdPublish = 0 := hprompt hpower henergy
        change 0 < d.eventfdPublish at hpos
        exact absurd hzero (Nat.ne_of_gt hpos)
      · cases hrequested

end Device.Backed

theorem backed_of_prompt {as : List WholeStep} {d : Device φ}
    (run : (wholeSystem φ).Run as d) (h : (wholeSystem φ).EachStep Prompt as) : d.Backed := by
  refine run.invariant_of_eachStep (I := fun _ d => d.Backed) Device.Backed.start ?_ h
  intro as a d d' hbacked hprompt hstep
  cases a with
  | step a => exact hbacked.step hprompt hstep
  | appPublishCallback retPower retEnergy => exact hbacked.callback hprompt hstep

/-!
## Requests that are left behind
-/

/-- A step of the MQTT thread that leads to `app_publish_callback`. -/
def Step.Leads : Step -> Prop
  | .smlDataCb _ => False
  | _ => True

theorem publishes_nothing {d : Device φ} (hphase : d.phase = .outside ∨ d.phase = .reading ∨
      d.phase = .requested) (hcount : 0 < d.eventfdPublish)
    (hzero : d.samples.numSamples = 0) :
    exists (bs : List Step) (e : Device φ), (forall b, b ∈ bs -> b.Leads) ∧
      (wholeSystem φ).steps d (bs.map .step) = some e ∧ e.phase = .requested ∧
      e.samples.numSamples = 0 := by
  have hread : forall e : Device φ, e.phase = .reading -> 0 < e.eventfdPublish ->
      (wholeSystem φ).steps e [.step .eventfdRead] =
        some { e with phase := .requested, eventfdPublish := 0 } := by
    intro e hreading hpos
    change (e.step .eventfdRead).bind some = _
    rw [Option.bind_fun_some]
    exact Device.step_of_steps (.request hreading (Nat.ne_of_gt hpos))
  rcases hphase with hphase | hphase | hphase
  · let e : Device φ := { d with mqttSnConnected := true }
    refine ⟨[.evtCb true, .doWork, .eventfdRead],
      { e with phase := .requested, eventfdPublish := 0 }, ?_, ?_, ?_, hzero⟩
    · simp [Step.Leads]
    · have hwork : e.step .doWork = some { e with phase := .reading } :=
        Device.step_of_steps (.work hphase rfl)
      change (e.step .doWork).bind (fun e => (wholeSystem φ).steps e [.step .eventfdRead]) = _
      rw [hwork]
      exact hread { e with phase := .reading } rfl hcount
    · rfl
  · refine ⟨[.eventfdRead], _, ?_, hread d hphase hcount, rfl, hzero⟩
    simp [Step.Leads]
  · exact ⟨[], d, fun _ h => (List.not_mem_nil h).elim, rfl, hphase, hzero⟩

/--
While every reset is prompt and the number of samples does not wrap, an average
is never taken over zero samples; behind any other step the MQTT thread may go
on to take one.
-/
theorem averages_have_samples {as : List WholeStep} {d : Device φ}
    (run : (wholeSystem φ).Run as d) (h : (wholeSystem φ).EachStep Prompt as) :
    (forall retPower retEnergy d',
      (wholeSystem φ).next d (.appPublishCallback retPower retEnergy) = some d' ->
      1 ≤ d.samples.numSamples) ∧
    forall a d', (wholeSystem φ).next d a = some d' -> ¬ Prompt as d a ->
      exists (bs : List Step) (e : Device φ), (forall b, b ∈ bs -> b.Leads) ∧
        (wholeSystem φ).Run (as ++ a :: bs.map .step) e ∧ e.phase = .requested ∧
        e.samples.numSamples = 0 := by
  have hbacked := backed_of_prompt run h
  constructor
  · intro retPower retEnergy d' hstep
    exact hbacked.samples (.inr (Device.publishes_of_callback hstep).1)
  · intro a d' hstep hnot
    have hleft : (d'.phase = .outside ∨ d'.phase = .reading ∨ d'.phase = .requested) ∧
        0 < d'.eventfdPublish ∧ d'.samples.numSamples = 0 := by
      cases a with
      | step a =>
          cases Device.steps_of_step hstep with
          | sample cbdata =>
              refine ⟨hbacked.phase, eventfdWrite_pos _, ?_⟩
              have hlt := hbacked.numSamples_lt
              have hwrap : d.samples.numSamples + 1 = Usize.size :=
                Nat.le_antisymm hlt (Nat.le_of_not_lt hnot)
              change (d.samples.numSamples + 1) % Usize.size = 0
              rw [hwrap, Nat.mod_self]
          | event | work | idle | request | again | failed => exact absurd trivial hnot
      | appPublishCallback retPower retEnergy =>
          unfold Prompt at hnot
          cases (Device.publishes_of_callback hstep).2 with
          | powerFailed hpower => exact absurd (fun h => absurd h hpower) hnot
          | energyFailed hpower henergy => exact absurd (fun _ h => absurd h henergy) hnot
          | finished hpower henergy =>
              refine ⟨.inl rfl, ?_, rfl⟩
              apply Nat.pos_of_ne_zero
              intro hzero
              exact hnot fun _ _ => hzero
    rcases publishes_nothing hleft.1 hleft.2.1 hleft.2.2 with ⟨bs, e, hbs, hsteps, hphase, hzero⟩
    refine ⟨bs, e, hbs, ?_, hphase, hzero⟩
    rw [List.append_cons]
    exact (run.snoc hstep).append hsteps

omit [Machine] in
/-- A sample is published when no other arrives. -/
theorem averages_have_samples_one :
    letI := Machine.word32 32 (Nat.le_refl 32)
    exists d, (wholeSystem Rat).Run [.step (.smlDataCb reading), .step (.evtCb true),
        .step .doWork, .step .eventfdRead] d ∧ 1 ≤ d.samples.numSamples := by
  let := Machine.word32 32 (Nat.le_refl 32)
  have hrun : exists d, (wholeSystem Rat).steps Device.start [.step (.smlDataCb reading),
      .step (.evtCb true), .step .doWork, .step .eventfdRead] = some d ∧
      d.phase = .requested := ⟨_, rfl, rfl⟩
  rcases hrun with ⟨d, hsteps, hphase⟩
  have run := System.run_of_steps (M := wholeSystem Rat) hsteps
  have hprompt : (wholeSystem Rat).EachStep Prompt [.step (.smlDataCb reading),
      .step (.evtCb true), .step .doWork, .step .eventfdRead] := by
    apply System.eachStep_of_meets
    refine And.intro (show 0 + 1 < 2 ^ 32 by decide) fun _ _ => And.intro trivial fun _ _ => And.intro trivial
      fun _ _ => And.intro trivial fun _ _ => trivial
  exact ⟨d, run, (averages_have_samples run hprompt).1 0 0 _ (if_pos hphase)⟩

omit [Machine] in
/-- A sample arrives between the request and the publication, and no other after it. -/
theorem averages_without_samples :
    letI := Machine.word32 32 (Nat.le_refl 32)
    ¬ forall (as : List WholeStep) (d d' : Device Rat) (retPower retEnergy : Int),
      (wholeSystem Rat).Run as d ->
      (wholeSystem Rat).next d (.appPublishCallback retPower retEnergy) = some d' ->
      1 ≤ d.samples.numSamples := by
  let := Machine.word32 32 (Nat.le_refl 32)
  intro h
  have hrun : exists d, (wholeSystem Rat).steps Device.start [.step (.smlDataCb reading),
      .step (.evtCb true), .step .doWork, .step .eventfdRead, .step (.smlDataCb reading),
      .appPublishCallback 0 0, .step .doWork, .step .eventfdRead] = some d ∧
      d.phase = .requested ∧ d.samples.numSamples = 0 := ⟨_, rfl, rfl, rfl⟩
  rcases hrun with ⟨d, hsteps, hphase, hzero⟩
  have hpos := h _ d _ 0 0 (System.run_of_steps hsteps) (if_pos hphase)
  rw [hzero] at hpos
  exact absurd hpos (Nat.not_lt_zero 0)

end Powermeter
end Firmware
end Smartmeter
