import C2c.Orchestrator.RepairTurns
import C2c.Orchestrator.RunAccounts

namespace C2c.Orchestrator.RepairRuns

open C2c.Library.JavaText
open C2c.Library.PythonText
open C2c.Library.PythonJson
open C2c.Library.Raising
open C2c.Orchestrator.RunContract
open C2c.Orchestrator.StepReplies
open C2c.Orchestrator.RunErrors
open C2c.Orchestrator.RunSteps
open C2c.Orchestrator.RunAgents
open C2c.Orchestrator.WorkflowRun
open C2c.Orchestrator.RunFrames
open C2c.Orchestrator.RepairTurns

section Loop

variable {env : Env} {options : Options} {capabilities : Capabilities}

/-- What the repair loop starts from: a candidate that has been built, or a
run that needs no repair because it is blocked. -/
def Entered (options : Options) (s : RunState) : Prop :=
  Standing s ∧ (options.parityRun = true → s.locals.success = true) ∨
    Blocked s ∧ needsRepair options s = false

/-- What the repair loop ends with. -/
def Exited (s : RunState) : Prop :=
  Standing s ∧ s.locals.success = true ∨ Blocked s

/-- The states the repair loop tests its condition in. -/
inductive LoopHead (env : Env) (options : Options) (capabilities : Capabilities) :
    RunState → RunState → Prop
  | here (s : RunState) : LoopHead env options capabilities s s
  | turn {s s₁ s' : RunState} (hneeds : needsRepair options s = true)
      (hturn : repairTurn env options capabilities s = .ok true s₁)
      (h : LoopHead env options capabilities s₁ s') : LoopHead env options capabilities s s'

theorem Entered.standing {s : RunState} (h : Entered options s)
    (hneeds : needsRepair options s = true) :
    Standing s ∧ s.locals.success = false ∧ options.parityRun = false := by
  obtain ⟨h, -⟩ | ⟨-, hnone⟩ := h
  · simp only [needsRepair, Bool.and_eq_true, Bool.not_eq_true'] at hneeds
    exact ⟨h, hneeds.1.2, hneeds.2⟩
  · rw [hneeds] at hnone
    contradiction

theorem Entered.exited {s : RunState} (h : Entered options s)
    (hneeds : needsRepair options s = false) : Exited s := by
  obtain ⟨h, hparity⟩ | ⟨h, -⟩ := h
  · refine .inl ⟨h, ?_⟩
    obtain ⟨payload, builds, -, houtput, -⟩ := h.build
    by_cases hrun : options.parityRun = true
    · exact hparity hrun
    · simpa [needsRepair, houtput, hrun] using hneeds
  · exact .inr h

/-- What the loop leads to when it returns. -/
structure LoopTaken (env : Env) (options : Options) (capabilities : Capabilities)
    (s : RunState) (ended : Bool) (s' : RunState) : Prop where
  ended : ended = true
  exited : Exited s'
  limit : s'.contract.repairBudget.limit = s.contract.repairBudget.limit
  fair : Steady env options capabilities → Charged options s s' ∧
    ∀ head, LoopHead env options capabilities s head → needsRepair options head = true →
      Acceptable env options head

theorem charged_refl (s : RunState) : Charged options s s :=
  ⟨rfl, rfl⟩

theorem after_repairLoop {s : RunState} (h : Entered options s) (turns : Nat)
    (hturns : s.contract.repairBudget.remaining < turns) :
    After (repairLoop env options capabilities turns) (LoopTaken env options capabilities s)
      (fun _ s' => Steady env options capabilities →
        (∃ head, LoopHead env options capabilities s head ∧ needsRepair options head = true ∧
          ¬ Acceptable env options head) ∧ Unrecorded s') s := by
  induction turns generalizing s with
  | zero => exact absurd hturns (Nat.not_lt_zero _)
  | succ turns ih =>
      unfold repairLoop
      rw [after_bind, after_get]
      split
      · rename_i hneeds
        obtain ⟨hs, hfailed, hparity⟩ := h.standing hneeds
        rw [after_bind]
        refine (turning_repairTurn hs hfailed).outcome.mono ?_ ?_
        · rintro again s₁ ⟨hturn, ⟨hlimit, houtcome⟩, hfair⟩
          obtain ⟨rfl, h₁, hused⟩ | ⟨rfl, h₁⟩ := houtcome
          · have hentered : Entered options s₁ := by
              refine .inl ⟨h₁, fun hrun => ?_⟩
              rw [hparity] at hrun
              contradiction
            have hroom : s₁.contract.repairBudget.remaining < turns := by
              unfold Budget.remaining at hturns ⊢
              have := s₁.contract.repairBudget.within
              omega
            rw [if_pos rfl]
            refine (ih hentered hroom).mono ?_ ?_
            · intro ended s' h'
              refine ⟨h'.ended, h'.exited, h'.limit.trans hlimit, fun hsteady => ?_⟩
              obtain ⟨hcharged, hacceptable⟩ := hfair hsteady
              obtain ⟨hcharged', hacceptable'⟩ := h'.fair hsteady
              refine ⟨hcharged.trans hcharged', fun head hhead hhneeds => ?_⟩
              cases hhead with
              | here => exact hacceptable
              | turn _ hturn' hhead =>
                  rw [hturn] at hturn'
                  cases hturn'
                  exact hacceptable' head hhead hhneeds
            · intro e s' h' hsteady
              obtain ⟨⟨head, hhead, hrefused⟩, hunrecorded⟩ := h' hsteady
              exact ⟨⟨head, .turn hneeds hturn hhead, hrefused⟩, hunrecorded⟩
          · refine ⟨rfl, .inr h₁, hlimit, fun hsteady => ⟨(hfair hsteady).1, ?_⟩⟩
            intro head hhead hhneeds
            cases hhead with
            | here => exact (hfair hsteady).2
            | turn _ hturn' _ =>
                rw [hturn] at hturn'
                cases hturn'
        · rintro e s' ⟨-, h'⟩ hsteady
          exact ⟨⟨s, .here s, hneeds, (h' hsteady).1⟩, (h' hsteady).2⟩
      · rename_i hneeds
        rw [Bool.not_eq_true] at hneeds
        refine ⟨rfl, h.exited hneeds, rfl, fun _ => ⟨charged_refl s, ?_⟩⟩
        intro head hhead hhneeds
        cases hhead with
        | here =>
            rw [hneeds] at hhneeds
            contradiction
        | turn hyes _ _ =>
            rw [hneeds] at hyes
            contradiction

end Loop

section Candidates

variable {env : Env} {options : Options} {A : Type}

/-- What the phases before the first build leave alone. -/
structure Aside (s s' : RunState) : Prop where
  locals : s'.locals = s.locals
  builds : s'.traffic.builds = s.traffic.builds
  repairCalls : s'.traffic.repairCalls = s.traffic.repairCalls
  repairBudget : s'.contract.repairBudget = s.contract.repairBudget
  repairAttempts : s'.contract.repairAttempts = s.contract.repairAttempts
  generatedJavaRef : s'.contract.generatedJavaRef = s.contract.generatedJavaRef

instance : IsPreorder RunState Aside where
  refl _ := ⟨rfl, rfl, rfl, rfl, rfl, rfl⟩
  trans _ _ _ h h' :=
    ⟨h'.locals.trans h.locals, h'.builds.trans h.builds, h'.repairCalls.trans h.repairCalls,
      h'.repairBudget.trans h.repairBudget, h'.repairAttempts.trans h.repairAttempts,
      h'.generatedJavaRef.trans h.generatedJavaRef⟩

theorem aside_of_undisturbed {s s' : RunState} (h : Undisturbed s s') : Aside s s' :=
  ⟨h.locals, congrArg Traffic.builds h.traffic, congrArg Traffic.repairCalls h.traffic,
    h.repairBudget, h.repairAttempts, h.generatedJavaRef⟩

theorem aside_of_outer {s s' : RunState} (h : Outer s s') : Aside s s' :=
  ⟨h.locals, h.builds, h.repairCalls, congrArg W02RunContract.repairBudget h.contract,
    congrArg W02RunContract.repairAttempts h.contract,
    congrArg W02RunContract.generatedJavaRef h.contract⟩

/-- The computation raises, or returns what is said after it. -/
abbrev Returns (m : Run A) (post : A → RunState → Prop) (s : RunState) : Prop :=
  After m post (fun _ _ => True) s

theorem returns_of_calm {m : Run A} (h : Calm m) (s : RunState) :
    Returns m (fun _ => Undisturbed s) s :=
  (h s).mono (fun _ _ hs => hs) fun _ _ _ => trivial

/-- A run before its first build, without a candidate yet. -/
structure Fresh (s : RunState) : Prop where
  attempts : s.contract.repairAttempts = []
  used : s.contract.repairBudget.used = 0
  counter : s.locals.repairAttemptCounter = 0
  calls : s.traffic.repairCalls = 0
  builds : s.traffic.builds = []
  javaRef : s.contract.generatedJavaRef = none
  output : s.locals.buildTestOutput = none
  success : s.locals.success = false
  failureCode : s.locals.blocked = true → s.locals.failureCode.isSome = true

theorem Fresh.aside {s s' : RunState} (h : Fresh s) (h' : Aside s s') : Fresh s' where
  attempts := h'.repairAttempts.trans h.attempts
  used := (congrArg Budget.used h'.repairBudget).trans h.used
  counter := (congrArg Locals.repairAttemptCounter h'.locals).trans h.counter
  calls := h'.repairCalls.trans h.calls
  builds := h'.builds.trans h.builds
  javaRef := h'.generatedJavaRef.trans h.javaRef
  output := (congrArg Locals.buildTestOutput h'.locals).trans h.output
  success := (congrArg Locals.success h'.locals).trans h.success
  failureCode := by
    rw [h'.locals]
    exact h.failureCode

/-- The candidate of the run is the one stored last. -/
def Stored (s : RunState) : Prop :=
  s.traffic.projects.head? =
    some ⟨s.locals.generatedArtifactRef, iterGeneratedFiles s.locals.generatedProject⟩

theorem Stored.undisturbed {s s' : RunState} (h : Stored s) (h' : Undisturbed s s') :
    Stored s' := by
  rw [Stored, h'.locals, h'.traffic]
  exact h

theorem after_storeGeneratedProject (generatedProject : Json) {s : RunState} (h : Fresh s) :
    Returns (storeGeneratedProject env generatedProject)
      (fun _ s' => Fresh s' ∧ Stored s') s := by
  unfold storeGeneratedProject
  rw [Returns, after_bind]
  refine (returns_of_calm (calm_outsideEach _) s).mono ?_ fun _ _ h => h
  intro _ s₁ h₁
  rw [after_bind]
  refine (returns_of_calm calm_tick s₁).mono ?_ fun _ _ h => h
  intro t s₂ h₂
  have hfresh := (h.aside (aside_of_undisturbed h₁)).aside (aside_of_undisturbed h₂)
  split
  · trivial
  · rw [after_bind, recordProject, after_modify, updateLocals, after_modify]
    exact ⟨⟨hfresh.attempts, hfresh.used, hfresh.counter, hfresh.calls, hfresh.builds,
      hfresh.javaRef, hfresh.output, hfresh.success, hfresh.failureCode⟩, rfl⟩

theorem after_generateJava (capabilities : Capabilities) {s : RunState} (h : Fresh s) :
    Returns (generateJava env options capabilities) (fun _ s' => Fresh s' ∧ Stored s') s := by
  unfold generateJava
  rw [Returns, after_bind]
  refine (returns_of_calm (calm_advanceW02 (by decide) _ _ _) s).mono ?_ fun _ _ h => h
  intro _ s₁ h₁
  rw [after_bind]
  refine (returns_of_calm (calm_invokeStep (by decide) _) s₁).mono ?_ fun _ _ h => h
  intro payload s₂ h₂
  have hfresh := (h.aside (aside_of_undisturbed h₁)).aside (aside_of_undisturbed h₂)
  split
  · trivial
  · rw [after_bind, updateLocals, after_modify, after_bind]
    have hfresh' : Fresh { s₂ with locals := { s₂.locals with
        generatorOutputRef := coerceStepOutputRef env options payload stepGenerateJava } } :=
      ⟨hfresh.attempts, hfresh.used, hfresh.counter, hfresh.calls, hfresh.builds,
        hfresh.javaRef, hfresh.output, hfresh.success, hfresh.failureCode⟩
    refine (returns_of_calm calm_outside _).mono ?_ fun _ _ h => h
    intro _ s₃ h₃
    rw [after_bind]
    refine (after_storeGeneratedProject _ (hfresh'.aside (aside_of_undisturbed h₃))).mono ?_
      fun _ _ h => h
    rintro _ s₄ ⟨hfresh₄, hstored⟩
    refine (returns_of_calm (calm_writeSummary _ _ _) s₄).mono ?_ fun _ _ h => h
    exact fun _ s₅ h₅ => ⟨hfresh₄.aside (aside_of_undisturbed h₅), hstored.undisturbed h₅⟩

/-- The candidate of a result was stored last, under the reference the result
gives. -/
def Offers (result : TransformationResult) (s : RunState) : Prop :=
  ∀ candidate, result.candidate = some candidate → ∃ reference,
    result.javaCandidateRef = some reference ∧
      s.traffic.projects.head? = some ⟨some reference, candidate.files⟩

theorem aside_callModelGateway {B : Type} (answer : Nat → Except Raised B) :
    Within Aside (callModelGateway env answer) :=
  within_bind (fun s => (calm_outside s).mono (fun _ _ h => aside_of_undisturbed h)
      fun _ _ h => aside_of_undisturbed h) fun _ =>
    within_bind (within_modify fun _ => ⟨rfl, rfl, rfl, rfl, rfl, rfl⟩) fun _ =>
    within_bind (fun s => (calm_tick s).mono (fun _ _ h => aside_of_undisturbed h)
      fun _ _ h => aside_of_undisturbed h) fun t => within_returning (answer t)

theorem after_transformationResult (reply : TransformationReply) (s : RunState) :
    Returns (transformationResult env reply)
      (fun result s' => Aside s s' ∧ Offers result s') s := by
  cases reply with
  | success candidate =>
      simp only [transformationResult]
      rw [Returns, after_bind, storeCandidate, after_bind]
      refine (returns_of_calm (calm_outsideEach _) s).mono ?_ fun _ _ h => h
      intro _ s₁ h₁
      rw [after_bind]
      refine (returns_of_calm calm_writeReferenced s₁).mono ?_ fun _ _ h => h
      intro reference s₂ h₂
      rw [after_bind, recordProject, after_modify, after_pure, after_bind]
      refine (returns_of_calm calm_outside _).mono ?_ fun _ _ h => h
      intro _ s₃ h₃
      have haside := trans_of Aside (aside_of_undisturbed h₁) (aside_of_undisturbed h₂)
      have haside₃ := aside_of_undisturbed h₃
      refine ⟨trans_of Aside haside ⟨haside₃.locals, haside₃.builds, haside₃.repairCalls,
        haside₃.repairBudget, haside₃.repairAttempts, haside₃.generatedJavaRef⟩, ?_⟩
      rintro _ ⟨⟩
      refine ⟨reference, rfl, ?_⟩
      rw [h₃.traffic]
      rfl
  | declined status failureCode failureMessage =>
      simp only [transformationResult]
      rw [Returns, after_bind]
      refine (returns_of_calm calm_outside s).mono ?_ fun _ _ h => h
      exact fun _ s₁ h₁ => ⟨aside_of_undisturbed h₁, by rintro _ ⟨⟩⟩

theorem after_invokeTransformationAgent (s : RunState) :
    Returns (invokeTransformationAgent env options)
      (fun result s' => Aside s s' ∧ Offers result s') s := by
  unfold invokeTransformationAgent
  rw [Returns, after_bind]
  refine (returns_of_calm calm_outside s).mono ?_ fun _ _ h => h
  intro _ s₁ h₁
  rw [after_bind]
  refine (returns_of_calm (calm_requireCapability _) s₁).mono ?_ fun _ _ h => h
  intro _ s₂ h₂
  rw [after_bind, recordAgentAttempt, updateContract, after_modify, after_bind]
  refine (returns_of_calm calm_outside _).mono ?_ fun _ _ h => h
  intro _ s₃ h₃
  have haside₃ := aside_of_undisturbed h₃
  have haside : Aside s s₃ :=
    trans_of Aside (trans_of Aside (aside_of_undisturbed h₁) (aside_of_undisturbed h₂))
      ⟨haside₃.locals, haside₃.builds, haside₃.repairCalls, haside₃.repairBudget,
        haside₃.repairAttempts, haside₃.generatedJavaRef⟩
  unfold transformationAgentInvoke
  rw [after_bind]
  refine (returns_of_calm calm_outside s₃).mono ?_ fun _ _ h => h
  intro _ s₄ h₄
  rw [after_bind, recordingResponse, after_tryCatch]
  refine (aside_callModelGateway env.transformation s₄).mono ?_ ?_
  · intro reply s₅ h₅
    refine (after_transformationResult reply s₅).mono ?_ fun _ _ h => h
    rintro result s₆ ⟨h₆, hoffers⟩
    exact ⟨trans_of Aside haside (trans_of Aside (aside_of_undisturbed h₄)
      (trans_of Aside h₅ h₆)), hoffers⟩
  · intro e s₅ _
    have hthrows (m : Run TransformationReply) (hm : ∀ s, Returns m (fun _ _ => False) s) :
        After m (fun a => After (transformationResult env a)
          (fun result s' => Aside s s' ∧ Offers result s') fun _ _ => True)
          (fun _ _ => True) s₅ :=
      (hm s₅).mono (fun _ _ h => h.elim) fun _ _ h => h
    refine hthrows _ fun s => ?_
    split
    · rw [Returns, after_bind]
      refine (returns_of_calm calm_outside s).mono ?_ fun _ _ h => h
      intro _ s' _
      rw [after_bind]
      exact (returns_of_calm calm_outside s').mono (fun _ _ _ => trivial) fun _ _ h => h
    · trivial

/-- A run with a candidate, unless it is blocked. -/
structure Supplied (s : RunState) : Prop extends Fresh s where
  stored : s.locals.blocked = false → Stored s

theorem after_useTransformationResult {result : TransformationResult} {s : RunState}
    (h : Fresh s) (hoffers : Offers result s) :
    Returns (useTransformationResult env result) (fun _ => Supplied) s := by
  unfold useTransformationResult
  split
  · rename_i candidate hcandidate
    obtain ⟨reference, hreference, hstored⟩ := hoffers candidate hcandidate
    rw [Returns, after_bind, updateLocals, after_modify]
    refine (returns_of_calm (calm_writeSummary _ _ _) _).mono ?_ fun _ _ h => h
    intro _ s₁ h₁
    have hfresh : Fresh { s with locals := { s.locals with
        generatedArtifactRef := result.javaCandidateRef.orElse fun _ =>
          s.locals.generatedArtifactRef
        generatedProject := transformationProject candidate } } :=
      ⟨h.attempts, h.used, h.counter, h.calls, h.builds, h.javaRef, h.output, h.success,
        h.failureCode⟩
    refine ⟨hfresh.aside (aside_of_undisturbed h₁), fun _ => Stored.undisturbed ?_ h₁⟩
    dsimp only [Stored]
    rw [iterGeneratedFiles_transformationProject, hreference]
    exact hstored
  · rw [Returns, updateLocals, after_modify]
    exact ⟨⟨h.attempts, h.used, h.counter, h.calls, h.builds, h.javaRef, h.output, h.success,
      fun _ => rfl⟩, by rintro ⟨⟩⟩

theorem aside_spendModelUnit : Within Aside spendModelUnit := by
  refine within_bind within_get fun s => ?_
  split
  · exact within_pure _
  · exact within_bind (within_modify fun _ => ⟨rfl, rfl, rfl, rfl, rfl, rfl⟩) fun _ =>
      within_bind (within_modify fun _ => ⟨rfl, rfl, rfl, rfl, rfl, rfl⟩) fun _ => within_pure _

/-- The baseline stays the candidate unless the agent offers another. -/
theorem after_transform {s : RunState} (h : Fresh s) (hstored : Stored s) :
    Returns (transform env options) (fun _ => Supplied) s := by
  unfold transform
  rw [Returns, after_bind, after_get]
  split
  · rw [after_bind]
    refine (returns_of_calm (calm_advanceW02 (by decide) _ _ _) s).mono ?_ fun _ _ h => h
    intro _ s₁ h₁
    rw [after_bind]
    refine (aside_spendModelUnit s₁).mono ?_ fun _ _ _ => trivial
    intro spent s₂ h₂
    split
    · rw [after_bind, after_tryCatch]
      refine (after_invokeTransformationAgent s₂).mono ?_ fun _ _ _ => trivial
      rintro result s₃ ⟨h₃, hoffers⟩
      have haside := trans_of Aside (aside_of_undisturbed h₁) (trans_of Aside h₂ h₃)
      exact after_useTransformationResult (h.aside haside) hoffers
    · rw [after_bind, after_get]
      trivial
  · exact ⟨h, fun _ => hstored⟩

/-- What the run has when its candidate is persisted. -/
structure Produced (s : RunState) : Prop where
  attempts : s.contract.repairAttempts = []
  used : s.contract.repairBudget.used = 0
  counter : s.locals.repairAttemptCounter = 0
  calls : s.traffic.repairCalls = 0
  builds : s.traffic.builds = []
  recorded : s.contract.generatedJavaRef = s.locals.generatedArtifactRef
  output : s.locals.buildTestOutput = none
  failureCode : s.locals.blocked = true → s.locals.failureCode.isSome = true
  stored : s.locals.blocked = false → Stored s

theorem Supplied.produced {s : RunState} (h : Supplied s)
    (hrecorded : s.contract.generatedJavaRef = s.locals.generatedArtifactRef) : Produced s :=
  ⟨h.attempts, h.used, h.counter, h.calls, h.builds, hrecorded, h.output, h.failureCode,
    h.stored⟩

theorem Produced.undisturbed {s s' : RunState} (h : Produced s) (h' : Undisturbed s s') :
    Produced s' where
  attempts := h'.repairAttempts.trans h.attempts
  used := (congrArg Budget.used h'.repairBudget).trans h.used
  counter := (congrArg Locals.repairAttemptCounter h'.locals).trans h.counter
  calls := (congrArg Traffic.repairCalls h'.traffic).trans h.calls
  builds := (congrArg Traffic.builds h'.traffic).trans h.builds
  recorded := h'.generatedJavaRef.trans
    (h.recorded.trans (congrArg Locals.generatedArtifactRef h'.locals).symm)
  output := (congrArg Locals.buildTestOutput h'.locals).trans h.output
  failureCode := by
    rw [h'.locals]
    exact h.failureCode
  stored := by
    intro hblocked
    rw [h'.locals] at hblocked
    exact (h.stored hblocked).undisturbed h'

theorem after_persistCandidate {s : RunState} (h : Supplied s) :
    Returns (persistCandidate env) (fun _ => Produced) s := by
  have hadvance {s : RunState} (h : Produced s) :
      Returns (advanceW02 env .javaCandidatePersisted (some stepCompileTestJava)
        "java candidate persisted to artifact store".toList none) (fun _ => Produced) s :=
    (returns_of_calm (calm_advanceW02 (by decide) _ _ _) s).mono
      (fun _ _ h' => h.undisturbed h') fun _ _ h' => h'
  unfold persistCandidate
  rw [Returns, after_bind, after_get]
  split
  · rw [after_bind, updateContract, after_modify]
    exact hadvance ⟨h.attempts, h.used, h.counter, h.calls, h.builds, rfl, h.output,
      h.failureCode, h.stored⟩
  · rename_i hnone
    rw [Option.not_isSome_iff_eq_none] at hnone
    exact hadvance (h.produced (h.javaRef.trans hnone.symm))

theorem after_produceCandidate {s : RunState} (h : Fresh s) :
    Returns (produceCandidate env options) (fun _ => Produced) s := by
  unfold produceCandidate
  rw [Returns, after_bind]
  refine (returns_of_calm calm_acceptRun s).mono ?_ fun _ _ h => h
  intro _ s₁ h₁
  rw [after_bind]
  refine (returns_of_calm calm_requireCapabilities s₁).mono ?_ fun _ _ h => h
  intro capabilities s₂ h₂
  rw [after_bind]
  refine (returns_of_calm (calm_parseCobol _) s₂).mono ?_ fun _ _ h => h
  intro _ s₃ h₃
  rw [after_bind]
  refine (returns_of_calm (calm_generateIr _) s₃).mono ?_ fun _ _ h => h
  intro _ s₄ h₄
  have hcalm := trans_of Undisturbed h₁ (trans_of Undisturbed h₂ (trans_of Undisturbed h₃ h₄))
  rw [after_bind]
  refine (after_generateJava capabilities (h.aside (aside_of_undisturbed hcalm))).mono ?_
    fun _ _ h => h
  rintro _ s₅ ⟨hfresh, hstored⟩
  rw [after_bind]
  refine (returns_of_calm calm_recordAssistDecision s₅).mono ?_ fun _ _ h => h
  intro _ s₆ h₆
  rw [after_bind]
  refine (after_transform (hfresh.aside (aside_of_undisturbed h₆))
    (hstored.undisturbed h₆)).mono ?_ fun _ _ h => h
  intro _ s₇ h₇
  rw [after_bind]
  exact (after_persistCandidate h₇).mono (fun _ _ h => h) fun _ _ h => h

theorem fresh_start (capabilities : CapabilityName → Option Capability) (now : Timestamp) :
    Fresh (start options capabilities now) :=
  ⟨rfl, rfl, rfl, rfl, rfl, rfl, rfl, rfl, by rintro ⟨⟩⟩

end Candidates

section Verification

variable {env : Env} {options : Options} {capabilities : Capabilities} {A : Type}

theorem outer_outside : Within Outer (outside env) := by
  refine within_bind (fun _ => ⟨rfl, rfl, rfl, rfl⟩) fun t => ?_
  split
  · exact within_pure _
  · exact within_throw _

theorem outer_writeSummary (status message : Text) (failedStep : Option Text) :
    Within Outer (writeSummary env status message failedStep) := by
  refine within_bind (fun _ => ⟨rfl, rfl, rfl, rfl⟩) fun t => ?_
  split
  · exact within_modify fun _ => ⟨rfl, rfl, rfl, rfl⟩
  · refine within_bind (within_modify fun s => ?_) fun _ => within_throw _
    split
    · exact ⟨rfl, rfl, rfl, rfl⟩
    · exact refl_of Outer s

theorem outer_invokeStep (stepName : Text) (capability : Capability) :
    Within Outer (invokeStep env options stepName capability) := by
  have hattempts (attempts : Nat) : Within Outer (invokeAttempts env stepName attempts) := by
    induction attempts with
    | zero => exact within_throw _
    | succ attempts ih =>
        simp only [invokeAttempts]
        refine within_bind (within_modify fun _ => ⟨rfl, rfl, rfl, rfl⟩) fun _ =>
          within_bind (fun _ => ⟨rfl, rfl, rfl, rfl⟩) fun t => ?_
        split
        · exact within_pure _
        · split
          · exact ih
          · exact within_throw _
  unfold invokeStep
  split
  · exact within_throw _
  · exact hattempts _

theorem returns_same {m : Run A} (hcalm : Calm m) (houter : Within Outer m) (s : RunState) :
    Returns m (fun _ => Same s) s :=
  ((hcalm s).and (houter s)).mono (fun _ _ h => same_of_calm h.1 h.2) fun _ _ _ => trivial

theorem returns_outside (s : RunState) : Returns (outside env) (fun _ => Same s) s :=
  returns_same calm_outside outer_outside s

theorem returns_writeSummary (status message : Text) (failedStep : Option Text) (s : RunState) :
    Returns (writeSummary env status message failedStep) (fun _ => Same s) s :=
  returns_same (calm_writeSummary _ _ _) (outer_writeSummary _ _ _) s

theorem returns_setBuildTestResultRef (payload : Json) (s : RunState) :
    Returns (setBuildTestResultRef env options payload) (fun _ => Same s) s :=
  ⟨⟨rfl, rfl, rfl, rfl, rfl, rfl⟩, rfl, rfl⟩

/-- A run that is to make its first build. -/
structure Ready (s : RunState) : Prop extends Buildable s where
  current : s.contract.stateMachine.current = .buildTestRunning
  unbuilt : s.traffic.builds = []
  output : s.locals.buildTestOutput = none

theorem movedTo_of_same {s s' : RunState} (h : Same s s') :
    MovedTo s.contract.stateMachine.current s s' :=
  ⟨h.toSameBooks, h.locals, h.current⟩

theorem Ready.same {s s' : RunState} (h : Ready s) (h' : Same s s') : Ready s' where
  toBuildable := h.toBuildable.moved (movedTo_of_same h')
  current := h'.current.trans h.current
  unbuilt := (congrArg Traffic.builds h'.traffic).trans h.unbuilt
  output := (congrArg Locals.buildTestOutput h'.locals).trans h.output

theorem Ready.books {s : RunState} (h : Ready s) : Books s where
  attempts := h.attempts
  counter := h.counter
  calls := h.calls
  builds := h.room.trans (Nat.le_succ _)
  recorded := h.recorded
  built := by
    rw [h.unbuilt]
    rintro _ ⟨⟩

theorem Produced.ready {s s' : RunState} (h : Produced s) (hunblocked : s.locals.blocked = false)
    (h' : MovedTo .buildTestRunning s s') : Ready s' := by
  have hbuildable : Buildable s := by
    refine ⟨?_, h.counter.trans h.used.symm, h.calls.le.trans (Nat.zero_le _), ?_, h.recorded,
      hunblocked, h.stored hunblocked⟩
    · rw [h.attempts, h.used]
      rfl
    · rw [h.builds]
      exact Nat.zero_le _
  exact ⟨hbuildable.moved h', h'.current, (congrArg Traffic.builds h'.traffic).trans h.builds,
    (congrArg Locals.buildTestOutput h'.locals).trans h.output⟩

/-- A run that is blocked before its first build is not built. -/
theorem blocked_of_blockedAs {code : Option FailureCode} {s s' : RunState} (h : Books s)
    (hcode : code.isSome = true) (hnone : needsRepair options s = false)
    (h' : BlockedAs code s s') : Blocked s' ∧ needsRepair options s' = false := by
  refine ⟨h.blocked hcode h', ?_⟩
  obtain ⟨message, hlocals⟩ := h'.locals
  rw [needsRepair, hlocals]
  exact hnone

theorem needsRepair_of_none {s : RunState} (h : s.locals.buildTestOutput = none) :
    needsRepair options s = false := by
  rw [needsRepair, h]
  rfl

theorem blocked_same {s s' : RunState} (h : Blocked s ∧ needsRepair options s = false)
    (h' : Same s s') : Blocked s' ∧ needsRepair options s' = false := by
  obtain ⟨h, hnone⟩ := h
  refine ⟨⟨⟨?_, ?_, ?_, ?_, ?_, ?_⟩, ?_, ?_, h'.current.trans h.current⟩, ?_⟩
  · rw [h'.repairAttempts, h'.repairBudget]
    exact h.attempts
  · rw [h'.locals, h'.repairBudget]
    exact h.counter
  · rw [h'.traffic, h'.repairBudget]
    exact h.calls
  · rw [h'.traffic, h'.repairBudget]
    exact h.builds
  · rw [h'.generatedJavaRef, h'.locals]
    exact h.recorded
  · rw [h'.traffic, h'.locals]
    exact h.built
  · rw [h'.locals]
    exact h.blocked
  · rw [h'.locals]
    exact h.failureCode
  · rw [needsRepair, h'.locals]
    exact hnone

theorem after_runSourceReference {s : RunState} (h : Ready s) :
    Returns (runSourceReference env options capabilities)
      (fun _ s' => Ready s' ∨ (Blocked s' ∧ needsRepair options s' = false)) s := by
  unfold runSourceReference
  split
  · rw [Returns, after_bind]
    refine (returns_same (calm_invokeStep (by decide) _) (outer_invokeStep _ _) s).mono ?_
      fun _ _ h => h
    intro payload s₁ h₁
    rw [after_bind]
    refine (returns_outside s₁).mono ?_ fun _ _ h => h
    intro _ s₂ h₂
    rw [after_bind]
    refine (returns_writeSummary _ _ _ s₂).mono ?_ fun _ _ h => h
    intro _ s₃ h₃
    have hready := ((h.same h₁).same h₂).same h₃
    split
    · exact .inl hready
    · refine (after_blockRun options capabilities _ _ s₃).mono ?_ fun _ _ _ => trivial
      intro _ s₄ h₄
      exact .inr (blocked_of_blockedAs hready.books rfl (needsRepair_of_none hready.output) h₄)
  · trivial
  · trivial

theorem after_firstBuild {s : RunState} (h : Ready s) :
    Returns (firstBuild env options capabilities) (fun _ => Entered options) s := by
  unfold firstBuild
  rw [Returns, after_bind]
  refine (after_runBuild s).mono ?_ fun _ _ _ => trivial
  intro payload s₁ h₁
  rw [after_bind]
  refine (returns_outside s₁).mono ?_ fun _ _ h => h
  intro _ s₂ h₂
  rw [after_bind]
  refine (returns_writeSummary _ _ _ s₂).mono ?_ fun _ _ h => h
  intro _ s₃ h₃
  rw [after_bind]
  refine (returns_setBuildTestResultRef payload s₃).mono ?_ fun _ _ h => h
  intro _ s₄ h₄
  rw [after_bind]
  refine (returns_outside s₄).mono ?_ fun _ _ h => h
  intro _ s₅ h₅
  rw [after_bind]
  refine (after_classifyBuild h₁ (trans_of Same h₂ (trans_of Same h₃ (trans_of Same h₄
    h₅)))).mono ?_ fun _ _ h => h.elim
  intro _ s₆ h₆
  have hstanding := h.toBuildable.standing h.current h₆
  have hsuccess : s₆.locals.success = (buildTestOutcome payload).isNone := by rw [h₆.locals]
  split
  · rename_i hblocks
    refine (after_blockRun options capabilities _ _ s₆).mono ?_ fun _ _ _ => trivial
    intro _ s₇ h₇
    refine .inr (blocked_of_blockedAs hstanding.toBooks hblocks.2 ?_ h₇)
    rw [needsRepair, hblocks.1]
    simp
  · rename_i hgoes
    refine .inl ⟨hstanding, fun hparity => ?_⟩
    rw [hsuccess, ← Option.not_isSome]
    simpa [hparity] using hgoes

/-- A run the transformation agent blocked is not built. -/
theorem Produced.entered {s s' : RunState} (h : Produced s) (hblocked : s.locals.blocked = true)
    (h' : MovedTo .runBlocked s s') : Entered options s' := by
  have houtput : s'.locals.buildTestOutput = none := by
    rw [h'.locals]
    exact h.output
  refine .inr ⟨⟨⟨?_, ?_, ?_, ?_, ?_, ?_⟩, ?_, ?_, h'.current⟩, needsRepair_of_none houtput⟩
  · rw [h'.repairAttempts, h'.repairBudget, h.attempts, h.used]
    rfl
  · rw [h'.locals, h'.repairBudget, h.counter, h.used]
  · rw [h'.traffic, h.calls]
    exact Nat.zero_le _
  · rw [h'.traffic, h.builds]
    exact Nat.zero_le _
  · rw [h'.generatedJavaRef, h'.locals]
    exact h.recorded
  · rw [h'.traffic, h.builds]
    rintro _ ⟨⟩
  · rw [h'.locals]
    exact hblocked
  · rw [h'.locals]
    exact h.failureCode hblocked

theorem after_buildUnlessBlocked {s : RunState}
    (h : Ready s ∨ (Blocked s ∧ needsRepair options s = false)) :
    Returns (do
      let s ← get
      if s.locals.blocked then pure ⟨⟩ else firstBuild env options capabilities)
      (fun _ => Entered options) s := by
  rw [Returns, after_bind, after_get]
  split
  · rename_i hblocked
    obtain h | h := h
    · rw [h.unblocked] at hblocked
      contradiction
    · exact .inr h
  · rename_i hunblocked
    obtain h | ⟨h, -⟩ := h
    · exact after_firstBuild h
    · exact absurd h.blocked hunblocked

theorem after_verify {s : RunState} (h : Produced s) :
    Returns (verify env options capabilities) (fun _ => Entered options) s := by
  unfold verify
  rw [Returns, after_bind, after_get]
  split
  · rename_i hblocked
    exact (after_advanceW02 options capabilities _ _ _ _ s).mono
      (fun _ _ h₁ => h.entered hblocked h₁) fun _ _ _ => trivial
  · rename_i hunblocked
    rw [Bool.not_eq_true] at hunblocked
    unfold verifyUnblocked
    rw [after_bind]
    refine (after_advanceW02 options capabilities _ _ _ _ s).mono ?_ fun _ _ _ => trivial
    intro _ s₁ h₁
    have hready := h.ready hunblocked h₁
    split
    · rw [after_bind]
      refine (after_runSourceReference hready).mono ?_ fun _ _ h => h
      intro _ s₂ h₂
      rw [after_bind]
      refine (returns_outside s₂).mono ?_ fun _ _ h => h
      exact fun _ s₃ h₃ => after_buildUnlessBlocked (h₂.imp (·.same h₃) (blocked_same · h₃))
    · exact after_buildUnlessBlocked (.inl hready)

end Verification

section Settlement

variable {env : Env} {options : Options} {capabilities : Capabilities}

/-- The candidate recorded is the one the last build ran on. -/
def BuiltLast (s : RunState) : Prop :=
  ∀ build ∈ s.traffic.builds.head?, build.generatedArtifactRef = s.contract.generatedJavaRef

/-- How the repair loop is to leave a run that it was entered with: within the
budgets, every attempt recorded and charged, with a successful build or
blocked. -/
structure RepairSettled (env : Env) (options : Options) (capabilities : Capabilities)
    (s s' : RunState) : Prop where
  calls : s'.traffic.repairCalls ≤ s.contract.repairBudget.limit
  builds : s'.traffic.builds.length ≤ 1 + s.contract.repairBudget.limit
  attempts : s'.contract.repairAttempts.map RepairAttempt.attemptNumber =
    List.range' 1 s'.contract.repairBudget.used
  units : s'.contract.modelInvocationBudget.used + unitsOf options s s.traffic.repairCalls =
    s.contract.modelInvocationBudget.used + unitsOf options s s'.traffic.repairCalls
  exit : s'.locals.success = true ∨ (s'.locals.blocked = true ∧
    s'.locals.failureCode.isSome = true ∧ s'.contract.stateMachine.current = .runBlocked)
  candidate : BuiltLast s' ∧ ∀ head, LoopHead env options capabilities s head → BuiltLast head

theorem builtLast_of_books {s : RunState} (h : Books s) : BuiltLast s := by
  intro build hbuild
  rw [h.recorded]
  exact h.built build hbuild

theorem Exited.books {s : RunState} (h : Exited s) : Books s := by
  obtain ⟨h, -⟩ | h := h
  · exact h.toBooks
  · exact h.toBooks

theorem Entered.books {s : RunState} (h : Entered options s) : Books s := by
  obtain ⟨h, -⟩ | ⟨h, -⟩ := h
  · exact h.toBooks
  · exact h.toBooks

theorem builtLast_of_loopHead {s head : RunState} (h : Entered options s)
    (hhead : LoopHead env options capabilities s head) : BuiltLast head := by
  induction hhead with
  | here s => exact builtLast_of_books h.books
  | turn hneeds hturn _ ih =>
      obtain ⟨hs, hfailed, hparity⟩ := h.standing hneeds
      have hturning : Turning env options capabilities _ (repairTurn env options capabilities) _ :=
        turning_repairTurn hs hfailed
      unfold Turning After at hturning
      rw [hturn] at hturning
      obtain ⟨⟨-, houtcome⟩, -⟩ := hturning
      obtain ⟨-, h₁, -⟩ | ⟨hstop, -⟩ := houtcome
      · refine ih (.inl ⟨h₁, fun hrun => ?_⟩)
        rw [hparity] at hrun
        contradiction
      · contradiction

theorem settled_of_loopTaken {s s' : RunState} {ended : Bool} (h : Entered options s)
    (hcharged : Charged options s s')
    (h' : LoopTaken env options capabilities s ended s') :
    RepairSettled env options capabilities s s' := by
  have hbooks := h'.exited.books
  have hwithin := s'.contract.repairBudget.within
  rw [h'.limit] at hwithin
  refine ⟨hbooks.calls.trans hwithin, ?_, hbooks.attempts, hcharged.units, ?_, builtLast_of_books hbooks,
    fun head hhead => builtLast_of_loopHead h hhead⟩
  · have := hbooks.builds
    omega
  · obtain ⟨-, hsuccess⟩ | hblocked := h'.exited
    · exact .inl hsuccess
    · exact .inr ⟨hblocked.blocked, hblocked.failureCode, hblocked.current⟩

/-- An attempt that is not recorded unsettles the loop. -/
theorem not_settled_of_unrecorded {s s' : RunState} (h : Unrecorded s') :
    ¬ RepairSettled env options capabilities s s' := by
  intro hsettled
  have hlength := congrArg List.length hsettled.attempts
  rw [List.length_map, List.length_range'] at hlength
  exact h.ne hlength

theorem entered_of_run {given : CapabilityName → Option Capability} {now : Timestamp}
    {s₀ s : RunState}
    (hproduced : produceCandidate env options (start options given now) = .ok capabilities s₀)
    (hverified : verify env options capabilities s₀ = .ok ⟨⟩ s) : Entered options s := by
  have h₀ : Returns (produceCandidate env options) (fun _ => Produced)
      (start options given now) := after_produceCandidate (fresh_start given now)
  unfold Returns After at h₀
  rw [hproduced] at h₀
  have h : Returns (verify env options capabilities) (fun _ => Entered options) s₀ :=
    after_verify h₀
  unfold Returns After at h
  rw [hverified] at h
  exact h

end Settlement

section Samples

open C2c.Orchestrator.RunAccounts

/-- A build that failed for the given reason. -/
def failedBuild (reason : String) : Json :=
  .object [("status".toList, .text "failed".toList), ("reason".toList, .text reason.toList)]

/-- The phases of a run before its repair loop. -/
def beforeRepair (env : Env) (options : Options) : Run Capabilities := do
  let capabilities ← produceCandidate env options
  verify env options capabilities
  pure capabilities

def steadyStart : RunState :=
  start steadyOptions (fun _ => none) []

theorem steady_steadyEnv (build : Json) {capabilities : Capabilities}
    (hendpoint : strip capabilities.buildTest.endpoint ≠ []) :
    Steady (steadyEnv build) steadyOptions capabilities where
  raises _ := rfl
  capability _ := ⟨_, rfl, rfl⟩
  reference _ := ⟨_, rfl⟩
  build _ := ⟨_, rfl⟩
  repair := by rintro _ _ ⟨⟩
  endpoint := hendpoint
  retries := Int.le_refl 0

/-- The phases before the repair loop, taken apart. -/
theorem returns_of_beforeRepair {env : Env} {options : Options} {start s : RunState}
    {capabilities : Capabilities}
    (h : beforeRepair env options start = .ok capabilities s) :
    ∃ s₀, produceCandidate env options start = .ok capabilities s₀ ∧
      verify env options capabilities s₀ = .ok ⟨⟩ s := by
  unfold beforeRepair at h
  obtain ⟨_, s₀, hproduced, h⟩ := returns_of_bind h
  obtain ⟨_, _, hverified, h⟩ := returns_of_bind h
  cases h
  exact ⟨s₀, hproduced, hverified⟩

/-- The state the repair loop leaves. -/
def loopExit (env : Env) (options : Options) (capabilities : Capabilities) (s : RunState) :
    RunState :=
  stateAfter (repairLoop env options capabilities (repairTurns s.contract)) s

/-- A steady run whose first build fails enters its repair loop. -/
theorem enters_of_resultOf (build : Json)
    (hend : ((resultOf (beforeRepair (steadyEnv build) steadyOptions) steadyStart).map
      fun capabilities => strip capabilities.buildTest.endpoint) = some "endpoint".toList) :
    ∃ capabilities s,
      beforeRepair (steadyEnv build) steadyOptions steadyStart = .ok capabilities s ∧
      Steady (steadyEnv build) steadyOptions capabilities := by
  obtain ⟨capabilities, hresult, hendpoint⟩ := Option.map_eq_some_iff.mp hend
  obtain ⟨s, hreturns⟩ := returns_of_resultOf hresult
  refine ⟨capabilities, s, hreturns, steady_steadyEnv build ?_⟩
  rw [hendpoint]
  decide

/-- What a run leaves its repair loop with: the units used, the attempts
recorded, and whether it is blocked. -/
def exitOf (env : Env) (options : Options) : Option (Nat × Nat × Bool × Bool × WorkflowState) :=
  match beforeRepair env options (start options (fun _ => none) []) with
  | .ok capabilities s =>
      let s' := loopExit env options capabilities s
      some (s'.contract.repairBudget.used, s'.contract.repairAttempts.length, s'.locals.success,
        s'.locals.blocked, s'.contract.stateMachine.current)
  | .error _ _ => none

end Samples

end C2c.Orchestrator.RepairRuns
