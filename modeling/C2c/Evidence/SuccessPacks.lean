import C2c.Evidence.Invariants

namespace C2c.Evidence.SuccessPacks

open C2c.Library.JavaText
open C2c.Library.Machine
open C2c.Evidence
open C2c.Evidence.FieldErrors
open C2c.Evidence.Artifacts
open C2c.Evidence.Validation
open C2c.Evidence.Manifest
open C2c.Evidence.Store
open C2c.Evidence.Invariants

/-- The evidence a W0.2 pack owes before it may be called a success. -/
structure Earned (a : Artifacts) : Prop where
  matched : ∃ comparison, a.oracleComparison = some comparison ∧ comparison.matched = true
  required : ∀ name ∈ requiredArtifacts .w02, present a name = true
  integrity : validateW02ReferentialIntegrity a = []

/-- Every stored W0.2 success has earned its classification. -/
def SuccessesEarned (s : PackStore) : Prop :=
  ∀ packId m, s.packs packId = some m → m.wave = .w02 → m.classification = .success →
    Earned m.artifacts

/-- An oracle comparison that found a mismatch. -/
def mismatched (a : Artifacts) : Bool :=
  a.oracleComparison.any fun comparison => !comparison.matched

/-- A W0.2 manifest that is not blocked, passes every check and is complete, but
whose oracle comparison found a mismatch. -/
def CompleteMismatch (parseUrl : UrlParser) (m : EvidencePackManifest) (blocked : Bool) : Prop :=
  blocked = false ∧ m.wave = .w02 ∧ (evaluateValidationForManifest m).ok = true ∧
    mismatched m.artifacts = true ∧ validate parseUrl (derive m blocked) = none

/-- The call builds no such manifest. -/
def NoMismatch (parseUrl : UrlParser) (s : PackStore) (call : Call) : Prop :=
  ∀ m blocked, built s call = some (m, blocked) → ¬ CompleteMismatch parseUrl m blocked

section Derived

variable {parseUrl : UrlParser} {m : EvidencePackManifest} {blocked : Bool}

theorem evaluateValidationForManifest_ok (h : (evaluateValidationForManifest m).ok = true) :
    (evaluateValidationForWave m.artifacts m.wave).ok = true := by
  unfold evaluateValidationForManifest at h
  dsimp only at h
  split at h
  · split at h
    · exact h
    · contradiction
  · exact h

theorem classification_derive_success :
    (derive m blocked).classification = .success ↔
      blocked = false ∧ (evaluateValidationForManifest m).ok = true := by
  cases blocked with
  | true => simp [derive, deriveClassification]
  | false =>
      simp only [derive, deriveClassification, recordedValidation, Bool.false_eq_true,
        Bool.false_and, if_false, true_and]
      split <;> simp_all

/-- A complete pack lacks at most the match. -/
theorem earned_iff (hwave : m.wave = .w02) (hok : (evaluateValidationForManifest m).ok = true) :
    Earned m.artifacts ↔ mismatched m.artifacts = false := by
  have hwaveOk := evaluateValidationForManifest_ok hok
  rw [hwave, evaluateValidationForWave_ok_iff] at hwaveOk
  obtain ⟨hpresent, hintegrity⟩ := hwaveOk
  have hcomparison := hpresent .oracleComparison (by decide)
  constructor
  · rintro ⟨⟨comparison, hsome, hmatched⟩, -, -⟩
    simp [mismatched, hsome, hmatched]
  · intro hmismatched
    refine ⟨?_, ?_, hintegrity rfl⟩
    · cases hsome : m.artifacts.oracleComparison with
      | none => simp [present, hsome] at hcomparison
      | some comparison =>
          refine ⟨comparison, rfl, ?_⟩
          simpa [mismatched, hsome] using hmismatched
    · intro name hname
      exact hpresent name ((mem_checkedArtifacts_iff .w02 name).mpr hname)

theorem derive_earned_iff (hvalid : validate parseUrl (derive m blocked) = none) :
    ((derive m blocked).wave = .w02 → (derive m blocked).classification = .success →
      Earned (derive m blocked).artifacts) ↔ ¬ CompleteMismatch parseUrl m blocked := by
  constructor
  · rintro hearned ⟨hblocked, hwave, hok, hmismatched, -⟩
    have hsuccess := classification_derive_success.mpr ⟨hblocked, hok⟩
    have hmatched := (earned_iff hwave hok).mp (hearned hwave hsuccess)
    rw [hmismatched] at hmatched
    contradiction
  · intro hnot hwave hsuccess
    obtain ⟨hblocked, hok⟩ := classification_derive_success.mp hsuccess
    apply (earned_iff hwave hok).mpr
    rw [← Bool.not_eq_true]
    intro hmismatched
    exact hnot ⟨hblocked, hwave, hok, hmismatched, hvalid⟩

end Derived

theorem successesEarned_put {s : PackStore} {packId : Text} {m : EvidencePackManifest}
    (hs : SuccessesEarned s) :
    SuccessesEarned (s.put packId m) ↔
      (m.wave = .w02 → m.classification = .success → Earned m.artifacts) := by
  constructor
  · intro hput
    exact hput packId m (by simp [put_packs])
  · intro hm other m' hm'
    rw [put_packs] at hm'
    split at hm'
    · obtain rfl := Option.some.inj hm'
      exact hm
    · exact hs other m' hm'

/-- The condition on a call, when it builds a manifest that is admitted. -/
theorem noMismatch_iff {parseUrl : UrlParser} {s : PackStore} {call : Call}
    {m : EvidencePackManifest} {blocked : Bool} (hbuilt : built s call = some (m, blocked)) :
    NoMismatch parseUrl s call ↔ ¬ CompleteMismatch parseUrl m blocked := by
  constructor
  · intro h
    exact h m blocked hbuilt
  · intro h m' blocked' hbuilt'
    rw [hbuilt] at hbuilt'
    obtain ⟨rfl, rfl⟩ := Prod.mk.inj (Option.some.inj hbuilt')
    exact h

theorem valid_of_accepted {parseUrl : UrlParser} {m : EvidencePackManifest} {blocked : Bool}
    (h : rejection parseUrl m blocked = none) : validate parseUrl m = none :=
  (firstError_cons_none.mp (firstError_cons_none.mp h).2).1

theorem successesEarned_step {parseUrl : UrlParser} {s : PackStore} (call : Call)
    (hs : SuccessesEarned s) :
    SuccessesEarned (step parseUrl s call) ↔ NoMismatch parseUrl s call := by
  have heffect := step_effect parseUrl s call
  generalize step parseUrl s call = s' at heffect
  cases heffect with
  | rejected hpacks hseq hrejected =>
      constructor
      · rintro - m blocked hbuilt ⟨rfl, hwave, hok, hmismatched, hvalid⟩
        refine hrejected m false hbuilt (firstError_cons_none.mpr ⟨rfl, ?_⟩)
        exact firstError_cons_none.mpr ⟨hvalid, rfl⟩
      · intro _ packId m hm
        rw [hpacks] at hm
        exact hs packId m hm
  | created hbuilt haccepted =>
      rw [noMismatch_iff hbuilt, ← derive_earned_iff (valid_of_accepted haccepted)]
      exact successesEarned_put hs
  | updated hcurrent haccepted =>
      rw [noMismatch_iff (built_update _ hcurrent), ← derive_earned_iff (valid_of_accepted haccepted)]
      exact successesEarned_put hs
  | exported hexported =>
      have hkept := hs _ _ hexported
      constructor
      · rintro - _ _ ⟨⟩
      · intro _
        exact (successesEarned_put hs).mpr hkept

/-- Every success of every store along a run has been earned exactly if no call
of the run builds a complete pack with a mismatch. -/
theorem successesEarned_iff (parseUrl : UrlParser) (calls : List Call) :
    (∀ n, SuccessesEarned (run (step parseUrl) newPackStore (calls.take n))) ↔
      Along (step parseUrl) (NoMismatch parseUrl) newPackStore calls :=
  run_invariant_iff (fun _ call hs => successesEarned_step call hs) (by rintro _ _ ⟨⟩) calls

section Mismatch

def sampleReference : DataReference :=
  ⟨['f'], List.replicate 64 '0', 0, [], []⟩

def sampleCandidate : JavaCandidateRef :=
  { uri := ['f'], sha256 := List.replicate 64 '0', byteSize := 0, attemptNumber := 0
    origin := "deterministic-baseline".toList, selected := true }

def sampleSnapshot : BudgetSnapshot :=
  ⟨0, 0, 0⟩

/-- A complete W0.2 set of artifacts around an oracle comparison. -/
def sampleArtifacts (comparison : OracleComparison) : Artifacts where
  sourceCobol := [sampleReference]
  sourceMetadata := some sampleReference
  parseOutput := some sampleReference
  semanticIr := some sampleReference
  generatedJava := some sampleReference
  generatedJavaArtifacts := [sampleCandidate]
  finalJavaArtifact := some sampleCandidate
  runtimeVersion := some { id := ['1'] }
  buildTestResults := [sampleReference]
  oracleComparison := some comparison
  harnessEvents := some sampleReference
  modelInvocations :=
    [{ invocationId := ['i'], modelId := ['m'], ledgerRef := sampleReference }]
  agentTrajectories := [⟨"orchestrator".toList, sampleReference⟩]
  assistDecision := some
    { outcome := assistNotRequired, reasonCode := "caller_did_not_opt_in".toList
      decidedAt := ['t']
      repairBudgetSnapshot := some sampleSnapshot
      assistBudgetSnapshot := some sampleSnapshot
      modelInvocationBudgetSnapshot := some sampleSnapshot }
  budgetSummary := some ⟨⟨1, 0, 1⟩, sampleSnapshot, sampleSnapshot⟩

/-- A create whose oracle comparison says that the outputs differ. -/
def mismatchCall : Call :=
  .create 1
    { runId := ['r'], wave := "w0.2".toList
      artifacts := sampleArtifacts
        { matched := false, oracleKind := "cobol-runtime".toList, status := "failed".toList } }

theorem mismatchCall_stored :
    ((step (fun _ => none) newPackStore mismatchCall).packs "epk-r-0001".toList).any
      (fun m => m.wave == .w02 && m.classification == .success && mismatched m.artifacts) =
        true := by
  decide +kernel

theorem mismatch_called_success :
    ¬ SuccessesEarned (run (step fun _ => none) newPackStore [mismatchCall]) := by
  intro hearned
  obtain ⟨m, hm, hstored⟩ := (Option.any_eq_true _ _).mp mismatchCall_stored
  simp only [Bool.and_eq_true, beq_iff_eq] at hstored
  obtain ⟨⟨hwave, hsuccess⟩, hmismatched⟩ := hstored
  obtain ⟨comparison, hcomparison, hmatched⟩ := (hearned _ m hm hwave hsuccess).matched
  simp [mismatched, hcomparison, hmatched] at hmismatched

end Mismatch

end C2c.Evidence.SuccessPacks
