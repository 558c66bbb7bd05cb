import C2c.Evidence.SuccessPacks

namespace C2c.Evidence.ValidateHandler

open C2c.Library.JavaText
open C2c.Library.Machine
open C2c.Evidence
open C2c.Evidence.FieldErrors
open C2c.Evidence.Artifacts
open C2c.Evidence.Validation
open C2c.Evidence.Manifest
open C2c.Evidence.Store
open C2c.Evidence.Invariants
open C2c.Evidence.SuccessPacks

/-- The handler answers what the pack records. -/
structure SameAnswer (m : EvidencePackManifest) : Prop where
  ok : (validateHandler m).ok = m.validation.ok
  missingArtifacts : (validateHandler m).missingArtifacts = m.validation.missingArtifacts
  completenessStatus : (validateHandler m).completenessStatus = m.validation.completenessStatus

section Answers

variable {parseUrl : UrlParser} {packId : Text} {m : EvidencePackManifest}

theorem sameAnswer_of_unrelaxed (h : Consistent parseUrl packId m)
    (hunrelaxed : (isBlocked m && m.wave == .w02) = false) : SameAnswer m := by
  have hrecorded : recordedValidation m (isBlocked m) = evaluateValidationForManifest m := by
    simp [recordedValidation, hunrelaxed]
  have hvalidation := h.validation
  have hcompleteness := h.completenessStatus
  rw [hrecorded] at hvalidation
  rw [hvalidation] at hcompleteness
  refine ⟨?_, ?_, ?_⟩
  · rw [hvalidation]
    rfl
  · rw [hvalidation]
    rfl
  · rw [hvalidation]
    exact hcompleteness.symm

theorem mem_missing_of_absent {name : ArtifactName} (hname : name ∈ requiredArtifacts m.wave)
    (habsent : present m.artifacts name = false) :
    name ∈ (evaluateValidationForManifest m).missingArtifacts := by
  have hwave : name ∈ (evaluateValidationForWave m.artifacts m.wave).missingArtifacts := by
    apply List.mem_append_left
    exact List.mem_filter.mpr ⟨(mem_checkedArtifacts_iff m.wave name).mpr hname, by simp [habsent]⟩
  unfold evaluateValidationForManifest
  dsimp only
  split
  · split
    · exact hwave
    · exact List.mem_append_left _ hwave
  · exact hwave

theorem not_mem_relaxed (v : ValidationResult) (a : Artifacts) {name : ArtifactName}
    (hrelaxed : isRelaxed a name = true) :
    name ∉ (relaxBlockedW02Validation v a).missingArtifacts := by
  have hfiltered : name ∉ v.missingArtifacts.filter fun name => !isRelaxed a name := by
    simp [hrelaxed]
  unfold relaxBlockedW02Validation
  dsimp only
  split <;> exact hfiltered

/-- A blocked W0.2 pack has no generated Java: the handler reports it missing,
the pack does not. -/
theorem not_sameAnswer_of_relaxed (h : Consistent parseUrl packId m)
    (hwave : m.wave = .w02) (hblocked : isBlocked m = true) : ¬ SameAnswer m := by
  intro hsame
  have habsent : present m.artifacts .generatedJava = false := by
    simp [present, (h.claimsNoJava hwave hblocked).generatedJava]
  have hmissing : .generatedJava ∈ (validateHandler m).missingArtifacts :=
    mem_missing_of_absent (by rw [hwave]; decide) habsent
  rw [hsame.missingArtifacts, h.validation] at hmissing
  have hrelaxed : isRelaxed m.artifacts .generatedJava = true := rfl
  simp only [recordedValidation, hblocked, hwave, beq_self_eq_true, Bool.and_self, if_true]
    at hmissing
  exact not_mem_relaxed _ _ hrelaxed hmissing

end Answers

/-- The handler and a stored pack agree unless the pack is a blocked W0.2 one. -/
theorem sameAnswer_iff (parseUrl : UrlParser) (calls : List Call) (packId : Text)
    (m : EvidencePackManifest)
    (hm : (run (step parseUrl) newPackStore calls).packs packId = some m) :
    SameAnswer m ↔ ¬ (m.wave = .w02 ∧ m.classification = .blocked) := by
  have hconsistent := allConsistent_run parseUrl calls packId m hm
  constructor
  · rintro hsame ⟨hwave, hblocked⟩
    exact not_sameAnswer_of_relaxed hconsistent hwave (by simp [isBlocked, hblocked]) hsame
  · intro hnot
    apply sameAnswer_of_unrelaxed hconsistent
    rw [← Bool.not_eq_true]
    intro hrelaxed
    simp only [isBlocked, Bool.and_eq_true, beq_iff_eq] at hrelaxed
    exact hnot ⟨hrelaxed.2, hrelaxed.1⟩

/-- A complete W0.2 pack with a match. -/
def matchCall : Call :=
  .create 1
    { runId := ['r'], wave := "w0.2".toList, artifacts := sampleArtifacts { matched := true } }

/-- A blocked W0.2 pack with every artifact a run before the gate can have. -/
def blockedRunCall : Call :=
  .create 1
    { runId := ['r'], wave := "w0.2".toList, blocked := true
      artifacts := normalizeBlockedW02Artifacts (sampleArtifacts { matched := true }) }

theorem stored_of_any {s : PackStore} {packId : Text} {p : EvidencePackManifest → Bool}
    (h : (s.packs packId).any p = true) : ∃ m, s.packs packId = some m ∧ p m = true :=
  (Option.any_eq_true p _).mp h

theorem sameAnswer_matchCall :
    ∃ m, (run (step fun _ => none) newPackStore [matchCall]).packs "epk-r-0001".toList = some m ∧
      SameAnswer m := by
  have hany : ((run (step fun _ => none) newPackStore [matchCall]).packs
      "epk-r-0001".toList).any (fun m => m.classification != .blocked) = true := by
    decide +kernel
  obtain ⟨m, hm, hclassification⟩ := stored_of_any hany
  refine ⟨m, hm, (sameAnswer_iff _ [matchCall] _ m hm).mpr ?_⟩
  rintro ⟨-, hblocked⟩
  simp [hblocked] at hclassification

/-- The pack records that nothing is missing, the handler answers 422. -/
theorem blockedRun_answers :
    ((run (step fun _ => none) newPackStore [blockedRunCall]).packs "epk-r-0001".toList).map
        (fun m => (m.validation.ok, (validateHandler m).ok)) = some (true, false) ∧
      ∃ m, (run (step fun _ => none) newPackStore [blockedRunCall]).packs "epk-r-0001".toList =
        some m ∧ ¬ SameAnswer m := by
  have hmap : ((run (step fun _ => none) newPackStore [blockedRunCall]).packs
      "epk-r-0001".toList).map (fun m => (m.validation.ok, (validateHandler m).ok)) =
        some (true, false) := by
    decide +kernel
  refine ⟨hmap, ?_⟩
  obtain ⟨m, hm, hanswers⟩ := Option.map_eq_some_iff.mp hmap
  refine ⟨m, hm, ?_⟩
  intro hsame
  have hok := hsame.ok
  rw [(Prod.mk.inj hanswers).1, (Prod.mk.inj hanswers).2] at hok
  contradiction

end C2c.Evidence.ValidateHandler
