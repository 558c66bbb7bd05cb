import C2c.Orchestrator.RepairRuns

namespace C2c.Orchestrator.VerifiedRuns

open C2c.Library.JavaText
open C2c.Library.PythonText
open C2c.Library.PythonJson
open C2c.Library.Raising
open C2c.Orchestrator.RunContract
open C2c.Orchestrator.StepReplies
open C2c.Orchestrator.RunErrors
open C2c.Orchestrator.RunSteps
open C2c.Orchestrator.RunAgents
open C2c.Orchestrator.WorkflowRun
open C2c.Orchestrator.RunFrames
open C2c.Orchestrator.RepairTurns
open C2c.Orchestrator.RepairRuns

/-- The last build was successful, and it ran on the candidate recorded, with
the files stored under its reference. -/
def Verified (s : RunState) : Prop :=
  ∃ build builds, s.traffic.builds = build :: builds ∧
    buildTestOutcome build.payload = none ∧
    build.generatedArtifactRef = s.contract.generatedJavaRef ∧
    s.traffic.projects.head? =
      some ⟨s.contract.generatedJavaRef, iterGeneratedFiles build.generatedProject⟩

/-- What a successful run rests on: a verified candidate, and an evidence pack
whose reply neither gives an incomplete status nor names a missing artifact. -/
def Sound (s : RunState) : Prop :=
  Verified s ∧ ∃ payload, s.locals.evidenceOutput = some payload ∧
    evidenceMaterialized payload = true

theorem verified_of_exited {s : RunState} (h : Exited s) (hunblocked : s.locals.blocked = false) :
    Verified s := by
  obtain ⟨h, hsuccess⟩ | h := h
  · obtain ⟨payload, builds, hbuilds, -, houtcome, -⟩ := h.build
    refine ⟨_, builds, hbuilds, ?_, h.recorded.symm, ?_⟩
    · rw [hsuccess] at houtcome
      exact Option.isNone_iff_eq_none.mp houtcome.symm
    · rw [h.recorded]
      exact h.stored
  · rw [h.blocked] at hunblocked
    contradiction

/-- What the steps after the last build leave alone. -/
structure SameBuild (s s' : RunState) : Prop where
  builds : s'.traffic.builds = s.traffic.builds
  projects : s'.traffic.projects = s.traffic.projects
  generatedJavaRef : s'.contract.generatedJavaRef = s.contract.generatedJavaRef

theorem Verified.same {s s' : RunState} (h : Verified s) (h' : SameBuild s s') : Verified s' := by
  unfold Verified
  rw [h'.builds, h'.projects, h'.generatedJavaRef]
  exact h

/-- The same, with the variables of the run. -/
structure SameOutcome (s s' : RunState) : Prop extends SameBuild s s' where
  locals : s'.locals = s.locals

instance : IsPreorder RunState SameOutcome where
  refl _ := ⟨⟨rfl, rfl, rfl⟩, rfl⟩
  trans _ _ _ h h' :=
    ⟨⟨h'.builds.trans h.builds, h'.projects.trans h.projects,
      h'.generatedJavaRef.trans h.generatedJavaRef⟩, h'.locals.trans h.locals⟩

theorem sameOutcome_of_undisturbed {s s' : RunState} (h : Undisturbed s s') : SameOutcome s s' :=
  ⟨⟨congrArg Traffic.builds h.traffic, congrArg Traffic.projects h.traffic, h.generatedJavaRef⟩,
    h.locals⟩

section Evidence

variable {env : Env} {options : Options} {A : Type}

theorem sameOutcome_of_calm {m : Run A} (h : Calm m) : Within SameOutcome m :=
  fun s => (h s).mono (fun _ _ hs => sameOutcome_of_undisturbed hs)
    fun _ _ hs => sameOutcome_of_undisturbed hs

theorem sameOutcome_invokeAttempts (stepName : Text) (attempts : Nat) :
    Within SameOutcome (invokeAttempts env stepName attempts) := by
  induction attempts with
  | zero => exact within_throw _
  | succ attempts ih =>
      simp only [invokeAttempts]
      refine within_bind (within_modify fun _ => ⟨⟨rfl, rfl, rfl⟩, rfl⟩) fun _ =>
        within_bind (sameOutcome_of_calm calm_tick) fun t => ?_
      split
      · exact within_pure _
      · split
        · exact ih
        · exact within_throw _

theorem sameOutcome_invokeStep (stepName : Text) (capability : Capability) :
    Within SameOutcome (invokeStep env options stepName capability) := by
  unfold invokeStep
  split
  · exact within_throw _
  · exact sameOutcome_invokeAttempts _ _

theorem sameOutcome_guide : Within SameOutcome (guide env options) := by
  refine within_bind within_get fun s => ?_
  split
  · exact within_bind (sameOutcome_of_calm (calm_requireCapability _)) fun _ =>
      within_bind (sameOutcome_invokeStep _ _) fun _ =>
      within_bind (within_modify fun _ => ⟨⟨rfl, rfl, rfl⟩, rfl⟩) fun _ =>
      within_bind (sameOutcome_of_calm calm_outside) fun _ =>
      sameOutcome_of_calm (calm_writeSummary _ _ _)
  · exact sameOutcome_of_calm calm_persistModelPolicySkipped

/-- An unblocked run has a verified candidate. -/
def VerifiedUnlessBlocked (s : RunState) : Prop :=
  s.locals.blocked = false → Verified s

theorem VerifiedUnlessBlocked.same {s s' : RunState} (h : VerifiedUnlessBlocked s)
    (h' : SameOutcome s s') : VerifiedUnlessBlocked s' := by
  intro hunblocked
  rw [h'.locals] at hunblocked
  exact (h hunblocked).same h'.toSameBuild

theorem sameOutcome_outside : Within SameOutcome (outside env) :=
  sameOutcome_of_calm calm_outside

theorem after_writeEvidence (capabilities : Capabilities) {s : RunState}
    (h : VerifiedUnlessBlocked s) :
    Returns (writeEvidence env options capabilities)
      (fun _ s' => VerifiedUnlessBlocked s' ∧ ∃ payload, s'.locals.evidenceOutput = some payload)
      s := by
  unfold writeEvidence
  refine (sameOutcome_of_calm calm_fetchTrajectoryLedger).bind (fun _ s₁ h₁ => ?_)
    fun _ _ _ => trivial
  refine sameOutcome_outside.bind (fun _ s₂ h₂ => ?_) fun _ _ _ => trivial
  refine sameOutcome_outside.bind (fun _ s₃ h₃ => ?_) fun _ _ _ => trivial
  refine sameOutcome_outside.bind (fun _ s₄ h₄ => ?_) fun _ _ _ => trivial
  refine sameOutcome_outside.bind (fun _ s₅ h₅ => ?_) fun _ _ _ => trivial
  refine (sameOutcome_invokeStep _ _).bind (fun payload s₆ h₆ => ?_) fun _ _ _ => trivial
  have hverified := ((((h.same h₁).same h₂).same h₃).same h₄).same (trans_of SameOutcome h₅ h₆)
  rw [after_bind, updateLocals, after_modify]
  refine sameOutcome_outside.bind (fun _ s₇ h₇ => ?_) fun _ _ _ => trivial
  rw [updateContract, after_modify]
  refine ⟨fun hunblocked => ?_, payload, ?_⟩
  · have hunblocked' : s₆.locals.blocked = false := by
      dsimp only at hunblocked
      rw [h₇.locals] at hunblocked
      exact hunblocked
    exact (hverified hunblocked').same ⟨h₇.builds, h₇.projects, h₇.generatedJavaRef⟩
  · dsimp only
    rw [h₇.locals]

/-- A complete evidence pack is what an unblocked run ends with. -/
theorem after_classifyEvidence {s : RunState} (h : VerifiedUnlessBlocked s)
    (hevidence : ∃ payload, s.locals.evidenceOutput = some payload) :
    Returns (classifyEvidence env) (fun _ s' => s'.locals.blocked = false → Sound s') s := by
  obtain ⟨payload, hpayload⟩ := hevidence
  unfold classifyEvidence
  rw [Returns, after_bind, after_get, hpayload]
  split
  · rename_i hmaterialized
    refine (returns_of_calm (calm_advanceW02 (by decide) _ _ _) s).mono ?_ fun _ _ h => h
    intro _ s₁ h₁ hunblocked
    have hsame := sameOutcome_of_undisturbed h₁
    refine ⟨h.same hsame hunblocked, payload, ?_, hmaterialized⟩
    rw [h₁.locals]
    exact hpayload
  · refine (sameOutcome_of_calm (calm_advanceW02 (by decide) _ _ _)).bind (fun _ s₁ h₁ => ?_)
      fun _ _ _ => trivial
    rw [updateLocals, after_modify]
    intro hunblocked
    dsimp only [blockOnEvidence] at hunblocked
    split at hunblocked
    · rename_i hblocked
      rw [hblocked] at hunblocked
      contradiction
    · contradiction

theorem after_repair {capabilities : Capabilities} {s : RunState} (h : Entered options s) :
    Returns (repair env options capabilities) (fun _ => VerifiedUnlessBlocked) s := by
  have hturns : s.contract.repairBudget.remaining < repairTurns s.contract :=
    Nat.lt_succ_of_le (Nat.sub_le _ _)
  unfold repair
  rw [Returns, after_bind, after_get, after_bind]
  exact (after_repairLoop h _ hturns).mono (fun _ _ h' => verified_of_exited h'.exited)
    fun _ _ _ => trivial

theorem after_verifyCandidate {capabilities : Capabilities} {s : RunState} (h : Produced s) :
    Returns (verifyCandidate env options capabilities)
      (fun _ s' => s'.locals.blocked = false → Sound s') s := by
  unfold verifyCandidate
  rw [Returns, after_bind]
  refine (after_verify h).mono ?_ fun _ _ h => h
  intro _ s₁ h₁
  rw [after_bind]
  refine (after_repair h₁).mono ?_ fun _ _ h => h
  intro _ s₂ h₂
  refine (sameOutcome_of_calm calm_selectFinalJava).bind (fun _ s₃ h₃ => ?_) fun _ _ _ => trivial
  refine sameOutcome_guide.bind (fun _ s₄ h₄ => ?_) fun _ _ _ => trivial
  rw [after_bind]
  refine (after_writeEvidence capabilities ((h₂.same h₃).same h₄)).mono ?_ fun _ _ h => h
  exact fun _ s₅ h₅ => after_classifyEvidence h₅.1 h₅.2

end Evidence

/-- What the records of the end of a run leave alone; only a successful exit
makes the run a success. -/
structure Afterwards (s s' : RunState) : Prop extends SameBuild s s' where
  evidenceOutput : s'.locals.evidenceOutput = s.locals.evidenceOutput
  success : s'.contract.finalClassification = some .success →
    s.contract.finalClassification = some .success

instance : IsPreorder RunState Afterwards where
  refl _ := ⟨⟨rfl, rfl, rfl⟩, rfl, id⟩
  trans _ _ _ h h' :=
    ⟨⟨h'.builds.trans h.builds, h'.projects.trans h.projects,
      h'.generatedJavaRef.trans h.generatedJavaRef⟩, h'.evidenceOutput.trans h.evidenceOutput,
      h.success ∘ h'.success⟩

theorem Sound.same {s s' : RunState} (h : Sound s) (h' : SameBuild s s')
    (hevidence : s'.locals.evidenceOutput = s.locals.evidenceOutput) : Sound s' := by
  refine ⟨h.1.same h', ?_⟩
  rw [hevidence]
  exact h.2

/-- A run that is a success is a sound one. -/
def SoundSuccess (s : RunState) : Prop :=
  s.contract.finalClassification = some .success → Sound s

theorem SoundSuccess.afterwards {s s' : RunState} (h : SoundSuccess s) (h' : Afterwards s s') :
    SoundSuccess s' :=
  fun hsuccess => (h (h'.success hsuccess)).same h'.toSameBuild h'.evidenceOutput

theorem soundSuccess_of_none {s : RunState} (h : s.contract.finalClassification = none) :
    SoundSuccess s := by
  intro hsuccess
  rw [h] at hsuccess
  contradiction

section Exits

variable {env : Env} {options : Options} {A : Type}

theorem afterwards_of_undisturbed {s s' : RunState} (h : Undisturbed s s') : Afterwards s s' :=
  ⟨(sameOutcome_of_undisturbed h).toSameBuild, congrArg Locals.evidenceOutput h.locals, by
    rw [h.finalClassification]
    exact id⟩

theorem afterwards_of_calm {m : Run A} (h : Calm m) : Within Afterwards m :=
  fun s => (h s).mono (fun _ _ hs => afterwards_of_undisturbed hs)
    fun _ _ hs => afterwards_of_undisturbed hs

theorem afterwards_finalizeRun {classification : Classification}
    (hclassification : classification ≠ .success) (code : Option FailureCode)
    (message : Option Text) : Within Afterwards (finalizeRun env classification code message) := by
  refine within_bind within_get fun given => within_bind (fun s => ?_) fun _ =>
    afterwards_of_calm calm_outside
  rw [after_onContract]
  refine (after_finalizeW02 classification code message _).mono ?_ ?_
  · intro _ c h
    refine ⟨⟨rfl, rfl, h.generatedJavaRef⟩, rfl, fun hsuccess => ?_⟩
    rw [h.classification] at hsuccess
    exact absurd (Option.some.inj hsuccess) hclassification
  · rintro _ _ rfl
    exact refl_of Afterwards s

theorem afterwards_finishGenerateOnly : Within Afterwards (finishGenerateOnly env) :=
  within_bind (afterwards_of_calm (calm_advanceW02 (by decide) _ _ _)) fun _ =>
    within_bind (afterwards_finalizeRun (by decide) _ _) fun _ =>
    within_bind (afterwards_of_calm (calm_writeSummary _ _ _)) fun _ =>
    afterwards_of_calm (calm_updateRun _ _)

theorem finalClassificationOf_ne_success {v : Locals} (h : v.blocked = true) :
    finalClassificationOf v ≠ .success := by
  rw [finalClassificationOf, if_pos h]
  split <;> decide

theorem afterwards_finishBlocked {v : Locals} (h : v.blocked = true) :
    Within Afterwards (finishBlocked env v) :=
  within_bind (afterwards_finalizeRun (finalClassificationOf_ne_success h) _ _) fun _ =>
    within_bind (afterwards_of_calm (calm_writeSummary _ _ _)) fun _ =>
    afterwards_of_calm (calm_updateRun _ _)

theorem Sound.afterwards {s s' : RunState} (h : Sound s) (h' : Afterwards s s') : Sound s' :=
  h.same h'.toSameBuild h'.evidenceOutput

theorem sound_finalizeRun (classification : Classification) (code : Option FailureCode)
    (message : Option Text) {s : RunState} (h : Sound s) :
    After (finalizeRun env classification code message) (fun _ => Sound) (fun _ => Sound) s := by
  have houtside : Within Afterwards (outside env) := afterwards_of_calm calm_outside
  unfold finalizeRun
  rw [after_bind, after_get, after_bind, after_onContract]
  refine (after_finalizeW02 classification code message _).mono ?_ ?_
  · intro _ c hc
    have hsound : Sound { s with contract := c } := h.same ⟨rfl, rfl, hc.generatedJavaRef⟩ rfl
    exact (houtside _).mono (fun _ _ h' => hsound.afterwards h') fun _ _ h' => hsound.afterwards h'
  · rintro _ _ rfl
    exact h

theorem after_finishSuccess {s : RunState} (h : Sound s) :
    After (finishSuccess env) (fun _ => Sound) (fun _ => Sound) s := by
  have hrest : Within Afterwards (do
      writeSummary env "completed".toList "W0 migration workflow completed".toList none
      updateRun env "completed".toList "W0 migration workflow completed".toList) :=
    within_bind (afterwards_of_calm (calm_writeSummary _ _ _)) fun _ =>
      afterwards_of_calm (calm_updateRun _ _)
  unfold finishSuccess
  rw [after_bind]
  refine (sound_finalizeRun _ _ _ h).mono ?_ fun _ _ h => h
  intro _ s₁ h₁
  exact (hrest s₁).mono (fun _ _ h' => h₁.afterwards h') fun _ _ h' => h₁.afterwards h'

theorem after_conclude {s : RunState} (hnone : s.contract.finalClassification = none)
    (h : s.locals.blocked = false → Sound s) :
    After (conclude env) (fun _ => SoundSuccess) (fun _ => SoundSuccess) s := by
  unfold conclude
  refine Within.bind calm_outside (fun _ s₁ h₁ => ?_)
    fun _ _ h₁ => soundSuccess_of_none (h₁.finalClassification.trans hnone)
  rw [after_bind, after_get]
  split
  · rename_i hblocked
    have hsound := soundSuccess_of_none (h₁.finalClassification.trans hnone)
    exact (afterwards_finishBlocked hblocked s₁).mono (fun _ _ h' => hsound.afterwards h')
      fun _ _ h' => hsound.afterwards h'
  · rename_i hunblocked
    rw [Bool.not_eq_true, h₁.locals] at hunblocked
    have hsound := (h hunblocked).afterwards (afterwards_of_undisturbed h₁)
    exact (after_finishSuccess hsound).mono (fun _ _ h' _ => h') fun _ _ h' _ => h'

theorem afterwards_settleMachine (e : Raised) (current : WorkflowState) (code : FailureCode) :
    Within Afterwards (settleMachine env e current code) := by
  have hadvance {target : WorkflowState} (htarget : target ≠ .finalClassification)
      (message : Text) :
      Within Afterwards (swallowingIllegalTransition
        (advanceW02 env target none message (some code))) := by
    refine within_tryCatch (afterwards_of_calm (calm_advanceW02 htarget _ _ _)) fun e => ?_
    split
    · exact within_pure _
    · exact within_throw e
  unfold settleMachine
  split
  · exact hadvance (by decide) _
  · split
    · exact within_pure _
    · exact hadvance (by decide) _

theorem finalClassificationForFailureCode_ne_success (code : FailureCode) :
    finalClassificationForFailureCode code ≠ .success := by
  unfold finalClassificationForFailureCode
  split <;> decide

theorem afterwards_finalizeFailure (e : Raised) : Within Afterwards (finalizeFailure env e) := by
  refine within_bind within_get fun s => ?_
  dsimp only
  split
  · exact within_pure _
  · refine within_bind (afterwards_settleMachine _ _ _) fun _ =>
      within_bind (within_modify fun _ => ⟨⟨rfl, rfl, rfl⟩, rfl, id⟩) fun _ =>
      within_tryCatch (afterwards_finalizeRun
        (finalClassificationForFailureCode_ne_success _) _ _) fun e => ?_
    split
    · exact within_pure _
    · exact within_throw e

theorem afterwards_recordFailure (e : Raised) : Within Afterwards (recordFailure env e) := by
  have hswallow {m : Run PUnit} (h : Within Afterwards m) : Within Afterwards (swallowing m) :=
    within_tryCatch h fun _ => within_pure _
  have hskip : Within Afterwards (skipUnaskedModel env) := by
    refine within_bind within_get fun s => ?_
    split
    · exact within_pure _
    · exact afterwards_of_calm calm_persistModelPolicySkipped
  exact within_bind (hswallow hskip) fun _ =>
    within_bind (hswallow (afterwards_finalizeFailure e)) fun _ =>
    within_bind (hswallow (afterwards_of_calm (calm_updateRun _ _))) fun _ =>
    hswallow (within_bind within_get fun _ => afterwards_of_calm (calm_writeSummary _ _ _))

end Exits

section Runs

variable {env : Env} {options : Options}

theorem unclassified_of_spends {s s' : RunState} (h : RunAccounts.Spends s s') :
    s'.contract.finalClassification = s.contract.finalClassification := by
  obtain ⟨_, -, htraded⟩ := h
  exact htraded.finalClassification

theorem unclassified_of_accounts {s s' : RunState} (h : RunAccounts.Accounts options s s') :
    s'.contract.finalClassification = s.contract.finalClassification := by
  obtain ⟨_, -, htraded⟩ := h
  exact htraded.finalClassification

theorem after_body {s : RunState} (h : Fresh s)
    (hnone : s.contract.finalClassification = none) :
    After (body env options) (fun _ => SoundSuccess) (fun _ => SoundSuccess) s := by
  unfold body
  rw [after_bind]
  refine ((after_produceCandidate h).and (RunAccounts.after_produceCandidate s)).mono ?_
    fun _ _ h' => soundSuccess_of_none ((unclassified_of_spends h'.2).trans hnone)
  rintro capabilities s₁ ⟨hproduced, hsettles⟩
  have hnone₁ := (unclassified_of_spends hsettles.spends).trans hnone
  rw [after_bind, after_get]
  split
  · have hsound := soundSuccess_of_none hnone₁
    exact (afterwards_finishGenerateOnly s₁).mono (fun _ _ h' => hsound.afterwards h')
      fun _ _ h' => hsound.afterwards h'
  · rw [after_bind]
    refine ((after_verifyCandidate hproduced).and
      (RunAccounts.after_verifyCandidate capabilities s₁)).mono ?_
      fun _ _ h' => soundSuccess_of_none ((unclassified_of_accounts h'.2).trans hnone₁)
    exact fun _ s₂ h₂ => after_conclude ((unclassified_of_accounts h₂.2).trans hnone₁) h₂.1

/-- A run that is finalised as a success made its last build, a successful one,
on exactly the candidate recorded, and its evidence was not given as
incomplete. -/
theorem success_is_sound (env : Env) (options : Options)
    (given : CapabilityName → Option Capability) (now : Timestamp)
    (hsuccess : (stateAfter (run env options) (start options given now)).contract.finalClassification
      = some .success) :
    Sound (stateAfter (run env options) (start options given now)) := by
  have h : After (run env options) (fun _ => SoundSuccess) (fun _ => SoundSuccess)
      (start options given now) := by
    unfold run
    rw [after_tryCatch]
    refine (after_body (fresh_start given now) rfl).mono (fun _ _ h => h) ?_
    intro e s₁ h₁
    rw [after_bind]
    exact (afterwards_recordFailure e s₁).mono (fun _ _ h' => h₁.afterwards h')
      fun _ _ h' => h₁.afterwards h'
  exact After.result (p := fun _ => SoundSuccess) h hsuccess

open C2c.Orchestrator.RunAccounts in
theorem passed_build_is_sound :
    Sound (stateAfter (run (steadyEnv passedBuild) steadyOptions)
      (start steadyOptions (fun _ => none) [])) :=
  success_is_sound _ _ _ _ (by decide +kernel)

/-- A reply that states its pack complete and lists no artifact as missing. -/
def statesComplete (payload : Json) : Bool :=
  (match get payload "status" with
    | .text status => decide (lower (strip status) ∈ completeStatuses.tail)
    | _ => false) &&
  match get payload "missingArtifacts" with
  | .array [] => true
  | _ => false

open C2c.Orchestrator.RunAccounts in
/-- An evidence reply that says nothing makes a run a success as well. -/
theorem silent_evidence_succeeds :
    let s := finalState (steadyEnv passedBuild) steadyOptions
    s.contract.finalClassification = some .success ∧
      ¬ s.locals.evidenceOutput.any statesComplete = true := by
  decide +kernel

end Runs

end C2c.Orchestrator.VerifiedRuns
