import C2c.Evidence.CleanTexts
import C2c.Evidence.Invariants

namespace C2c.Evidence.SecretScreening

open C2c.Library.JavaText
open C2c.Library.Machine
open C2c.Evidence
open C2c.Evidence.FieldErrors
open C2c.Evidence.Artifacts
open C2c.Evidence.Validation
open C2c.Evidence.Manifest
open C2c.Evidence.Store
open C2c.Evidence.Invariants
open C2c.Evidence.CleanTexts

/-- A text of a manifest; `unchecked` says that no validator scans it for secrets
or confines it to texts that are none. -/
structure TextField where
  text : Text
  unchecked : Bool

def checked (t : Text) : TextField :=
  ⟨t, false⟩

def unchecked (t : Text) : TextField :=
  ⟨t, true⟩

def optionalFields {α : Type} (fields : α → List TextField) (value : Option α) :
    List TextField :=
  value.toList.flatMap fields

/-- The fields of a part that is not validated. -/
def unvalidated (fields : List TextField) : List TextField :=
  fields.map fun field => unchecked field.text

section Fields

def referenceFields (r : DataReference) : List TextField :=
  [checked r.uri, checked r.sha256, unchecked r.mimeType, unchecked r.kind]

def passFields (p : TransformationPass) : List TextField :=
  [unchecked p.name, unchecked p.policyDecision] ++ optionalFields referenceFields p.inputRef ++
    referenceFields p.outputRef

def invocationFields (m : ModelInvocationRef) : List TextField :=
  m.scannedFields.map (fun field => checked field.2) ++ referenceFields m.ledgerRef

def candidateFields (c : JavaCandidateRef) : List TextField :=
  checked c.origin :: referenceFields c.asDataReference

def attemptFields (r : RepairAttempt) : List TextField :=
  [checked r.decision, unchecked r.refusalCode] ++ optionalFields referenceFields r.decisionRef ++
    optionalFields invocationFields r.modelInvocationRef ++
    optionalFields candidateFields r.newJavaCandidateRef ++ referenceFields r.buildTestResultRef

def trajectoryFields (t : AgentTrajectoryRef) : List TextField :=
  checked t.agentRole :: referenceFields t.ledgerRef

def comparisonFields (o : OracleComparison) : List TextField :=
  [checked o.oracleKind, checked o.expectedSha256, checked o.actualSha256,
    unchecked o.classification, checked o.status, unchecked o.comparisonPolicyVersion,
    unchecked o.mismatchClassification, unchecked o.diffSummary, unchecked o.summary] ++
    optionalFields referenceFields o.expectedRef ++ optionalFields referenceFields o.actualRef ++
    optionalFields referenceFields o.buildTestResultRef ++
    o.furtherRefs.flatMap fun field => optionalFields referenceFields field.2

def versionFields (version : RuntimeVersion) : List TextField :=
  unchecked version.id :: optionalFields referenceFields version.ref

/-- An assist decision without outcome, reason and time is not validated. -/
def assistFields (a : AssistDecisionLineage) : List TextField :=
  let fields := [checked a.outcome, checked a.reasonCode, unchecked a.decidedAt,
    checked a.selectedAgentRole, checked a.rationale] ++
    a.affectedArtifactRefs.flatMap referenceFields
  if a.isZero then unvalidated fields else fields

def overlayFields (r : ManualEditOverlayRef) : List TextField :=
  checked r.schemaVersion :: referenceFields r.asDataReference

def artifactsFields (a : Artifacts) : List TextField :=
  [a.sourceCobol.flatMap referenceFields,
    optionalFields referenceFields a.sourceMetadata,
    optionalFields referenceFields a.corpusMetadata,
    optionalFields referenceFields a.parseOutput,
    optionalFields referenceFields a.semanticIr,
    a.transformationPasses.flatMap passFields,
    optionalFields referenceFields a.generatedJava,
    a.generatedJavaArtifacts.flatMap candidateFields,
    optionalFields candidateFields a.finalJavaArtifact,
    a.repairAttempts.flatMap attemptFields,
    a.agentTrajectories.flatMap trajectoryFields,
    optionalFields comparisonFields a.oracleComparison,
    optionalFields versionFields a.runtimeVersion,
    a.modelInvocations.flatMap invocationFields,
    a.buildTestResults.flatMap referenceFields,
    a.sbom.flatMap referenceFields,
    a.licenseReports.flatMap referenceFields,
    optionalFields referenceFields a.harnessEvents,
    optionalFields referenceFields a.trajectoryLedger,
    a.experienceEvents.flatMap referenceFields,
    optionalFields assistFields a.assistDecision,
    optionalFields overlayFields a.manualEditOverlay].flatten

def assumptionFields (a : OpenAssumption) : List TextField :=
  [unchecked a.id, unchecked a.description, unchecked a.owner]

def featureFields (f : UnsupportedFeature) : List TextField :=
  [unchecked f.feature, unchecked f.context] ++
    unvalidated (optionalFields referenceFields f.sourceRef)

/-- What the service itself says about a manifest. -/
def validationFields (v : ValidationResult) : List TextField :=
  (v.requiredArtifacts ++ v.missingArtifacts).map (fun name => checked name.text) ++
    v.messages.map checked

def exportFields (e : ExportRecord) : List TextField :=
  [unchecked e.format, unchecked e.uri, unchecked e.sha256]

/-- The texts the caller of a manifest has given, and its id. -/
def givenFields (m : EvidencePackManifest) : List TextField :=
  [unchecked m.packId, unchecked m.runId, unchecked m.workflowId, unchecked m.summary,
    unchecked m.createdBy] ++ artifactsFields m.artifacts ++
    m.openAssumptions.flatMap assumptionFields ++ m.unsupportedFeatures.flatMap featureFields ++
    m.exports.flatMap exportFields

/-- Every text of a manifest but its constants. -/
def manifestFields (m : EvidencePackManifest) : List TextField :=
  givenFields m ++ validationFields m.validation

end Fields

/-- The checked fields hold no secret. -/
def Guarded (fields : List TextField) : Prop :=
  ∀ field ∈ fields, field.unchecked = false → Clean field.text

section Guarded

variable {fields later : List TextField}

theorem guarded_nil : Guarded [] := by
  rintro _ ⟨⟩

theorem Guarded.append (h : Guarded fields) (hlater : Guarded later) :
    Guarded (fields ++ later) := by
  intro field hfield
  rcases List.mem_append.mp hfield with hfield | hfield
  · exact h field hfield
  · exact hlater field hfield

theorem guarded_checked {t : Text} (ht : Clean t) (h : Guarded fields) :
    Guarded (checked t :: fields) := by
  intro field hfield
  rcases List.mem_cons.mp hfield with rfl | hfield
  · exact fun _ => ht
  · exact h field hfield

theorem guarded_unchecked {t : Text} (h : Guarded fields) : Guarded (unchecked t :: fields) := by
  intro field hfield
  rcases List.mem_cons.mp hfield with rfl | hfield
  · rintro ⟨⟩
  · exact h field hfield

theorem guarded_unvalidated : Guarded (unvalidated fields) := by
  intro field hfield
  obtain ⟨_, _, rfl⟩ := List.mem_map.mp hfield
  rintro ⟨⟩

theorem guarded_flatMap {α : Type} {values : List α} {f : α → List TextField}
    (h : ∀ value ∈ values, Guarded (f value)) : Guarded (values.flatMap f) := by
  intro field hfield
  obtain ⟨value, hvalue, hfield⟩ := List.mem_flatMap.mp hfield
  exact h value hvalue field hfield

theorem guarded_flatten {parts : List (List TextField)} (h : ∀ fields ∈ parts, Guarded fields) :
    Guarded parts.flatten := by
  intro field hfield
  obtain ⟨fields, hfields, hfield⟩ := List.mem_flatten.mp hfield
  exact h fields hfields field hfield

theorem guarded_optional {α : Type} {f : α → List TextField} {validate : α → Option FieldError}
    (hvalidate : ∀ value, validate value = none → Guarded (f value)) {value : Option α}
    (h : validateOptional validate value = none) : Guarded (optionalFields f value) := by
  cases value with
  | none => exact guarded_nil
  | some value =>
      rw [optionalFields, Option.toList_some, List.flatMap_singleton]
      exact hvalidate value h

theorem guarded_each {α : Type} {f : α → List TextField}
    {validate : Text → α → Option FieldError}
    (hvalidate : ∀ path value, validate path value = none → Guarded (f value)) {path : Text}
    {values : List α} (h : validateEach validate path values = none) :
    Guarded (values.flatMap f) := by
  apply guarded_flatMap
  intro value hvalue
  obtain ⟨path', hpath'⟩ := validateEach_eq_none h value hvalue
  exact hvalidate path' value hpath'

end Guarded

section Validated

variable {parseUrl : UrlParser}

/-- What a member's check says when it passes. -/
theorem checkMember_eq_none {bad : Bool} {path : Text} {name reason : String} :
    checkMember bad path name reason = none ↔ bad = false :=
  check_eq_none

theorem clean_nil : Clean [] :=
  rfl

theorem clean_of_oneOf {values : List String} {t : Text} (h : (!isOneOf values t) = false)
    (hvalues : values.all (fun value => !containsSecretLike value.toList) = true) : Clean t :=
  clean_oneOf hvalues (by simpa using h)

theorem clean_of_given {p : Text → Bool} {t : Text} (h : (t != [] && !p t) = false)
    (hp : (!p t) = false → Clean t) : Clean t := by
  rcases Bool.and_eq_false_iff.mp h with hempty | hone
  · rw [bne_eq_false_iff_eq.mp hempty]
    exact clean_nil
  · exact hp hone

theorem clean_of_sha256 {t : Text} (h : (!matchesSha256 t) = false) : Clean t :=
  clean_sha256 (by simpa using h)

theorem guarded_reference (path : Text) (r : DataReference)
    (h : r.validate parseUrl path = none) : Guarded (referenceFields r) := by
  simp only [DataReference.validate, firstError_cons_none, checkMember_eq_none] at h
  obtain ⟨-, huri, -, -, hsha, -⟩ := h
  exact guarded_checked huri (guarded_checked (clean_of_sha256 hsha)
    (guarded_unchecked (guarded_unchecked guarded_nil)))

theorem guarded_pass (path : Text) (p : TransformationPass)
    (h : p.validate parseUrl path = none) : Guarded (passFields p) := by
  simp only [TransformationPass.validate, firstError_cons_none] at h
  obtain ⟨-, houtput, hinput, -⟩ := h
  exact ((guarded_unchecked (guarded_unchecked guarded_nil)).append
    (guarded_optional (guarded_reference _) hinput)).append (guarded_reference _ _ houtput)

theorem guarded_invocation (path : Text) (m : ModelInvocationRef)
    (h : m.validate parseUrl path = none) : Guarded (invocationFields m) := by
  have herrors := firstError_eq_none.mp h
  have hledger := herrors (m.ledgerRef.validate parseUrl (member path "ledgerRef")) (by simp)
  apply Guarded.append _ (guarded_reference _ _ hledger)
  intro field hfield _
  obtain ⟨scanned, hscanned, rfl⟩ := List.mem_map.mp hfield
  have hclean := herrors _ (List.mem_append_right _ (List.mem_map_of_mem hscanned))
  exact checkMember_eq_none.mp hclean

theorem guarded_candidate (path : Text) (c : JavaCandidateRef)
    (h : c.validate parseUrl path = none) : Guarded (candidateFields c) := by
  simp only [JavaCandidateRef.validate, firstError_cons_none, checkMember_eq_none] at h
  obtain ⟨hreference, horigin, -⟩ := h
  exact guarded_checked (clean_of_oneOf horigin (by decide +kernel))
    (guarded_reference _ _ hreference)

theorem guarded_attempt (path : Text) (r : RepairAttempt)
    (h : r.validate parseUrl path = none) : Guarded (attemptFields r) := by
  simp only [RepairAttempt.validate, firstError_cons_none, checkMember_eq_none] at h
  obtain ⟨-, hdecision, hbuild, hdecisionRef, hinvocation, hcandidate, -⟩ := h
  have hown : Guarded [checked r.decision, unchecked r.refusalCode] :=
    guarded_checked (clean_of_oneOf hdecision (by decide +kernel))
      (guarded_unchecked guarded_nil)
  exact (((hown.append (guarded_optional (guarded_reference _) hdecisionRef)).append
    (guarded_optional (guarded_invocation _) hinvocation)).append
    (guarded_optional (guarded_candidate _) hcandidate)).append (guarded_reference _ _ hbuild)

theorem guarded_trajectory (path : Text) (t : AgentTrajectoryRef)
    (h : t.validate parseUrl path = none) : Guarded (trajectoryFields t) := by
  simp only [AgentTrajectoryRef.validate, firstError_cons_none, checkMember_eq_none] at h
  obtain ⟨hrole, hledger, -⟩ := h
  exact guarded_checked (clean_of_oneOf hrole (by decide +kernel))
    (guarded_reference _ _ hledger)

theorem guarded_comparison (path : Text) (o : OracleComparison)
    (h : o.validate parseUrl path = none) : Guarded (comparisonFields o) := by
  rw [OracleComparison.validate, firstError_append_none, firstError_append_none] at h
  obtain ⟨⟨hfirst, hfurther⟩, hlast⟩ := h
  simp only [firstError_cons_none, checkMember_eq_none] at hfirst hlast
  obtain ⟨hkind, hexpected, hactual, hexpectedRef, hactualRef, hbuild, -⟩ := hfirst
  have hown : Guarded [checked o.oracleKind, checked o.expectedSha256, checked o.actualSha256,
      unchecked o.classification, checked o.status, unchecked o.comparisonPolicyVersion,
      unchecked o.mismatchClassification, unchecked o.diffSummary, unchecked o.summary] :=
    guarded_checked (clean_of_given hkind fun h => clean_of_oneOf h (by decide +kernel))
      (guarded_checked (clean_of_given hexpected clean_of_sha256)
        (guarded_checked (clean_of_given hactual clean_of_sha256)
          (guarded_unchecked
            (guarded_checked
              (clean_of_given hlast.1 fun h => clean_of_oneOf h (by decide +kernel))
              (guarded_unchecked (guarded_unchecked (guarded_unchecked (guarded_unchecked
                guarded_nil))))))))
  refine (((hown.append (guarded_optional (guarded_reference _) hexpectedRef)).append
    (guarded_optional (guarded_reference _) hactualRef)).append
    (guarded_optional (guarded_reference _) hbuild)).append (guarded_flatMap ?_)
  intro field hfield
  have hreference := firstError_eq_none.mp hfurther _ (List.mem_map_of_mem hfield)
  exact guarded_optional (guarded_reference _) hreference

theorem guarded_version (path : Text) (version : RuntimeVersion)
    (h : version.validate parseUrl path = none) : Guarded (versionFields version) := by
  simp only [RuntimeVersion.validate, firstError_cons_none] at h
  exact guarded_unchecked (guarded_optional (guarded_reference _) h.2.1)

theorem guarded_overlay (path : Text) (r : ManualEditOverlayRef)
    (h : r.validate parseUrl path = none) : Guarded (overlayFields r) := by
  simp only [ManualEditOverlayRef.validate, firstError_cons_none, checkMember_eq_none] at h
  obtain ⟨hreference, hversion, -⟩ := h
  have hclean : Clean r.schemaVersion := by
    rcases Bool.and_eq_false_iff.mp hversion with hempty | hv0
    · rw [bne_eq_false_iff_eq.mp hempty]
      exact clean_nil
    · rw [bne_eq_false_iff_eq.mp hv0]
      exact clean_of_quiet (quiet_of_decide (by decide))
  exact guarded_checked hclean (guarded_reference _ _ hreference)

theorem guarded_assist (path : Text) (a : AssistDecisionLineage)
    (h : validateOptional (AssistDecisionLineage.validate parseUrl path)
      (nonZero AssistDecisionLineage.isZero (some a)) = none) : Guarded (assistFields a) := by
  rw [assistFields]
  split
  · exact guarded_unvalidated
  · rename_i hzero
    have hgiven : nonZero AssistDecisionLineage.isZero (some a) = some a := by
      simp [nonZero, hzero]
    rw [hgiven] at h
    have h : a.validate parseUrl path = none := h
    simp only [AssistDecisionLineage.validate, firstError_cons_none, checkMember_eq_none] at h
    obtain ⟨houtcome, hreason, -, hrole, -, -, -, -, -, -, hrefs, hrationale, -⟩ := h
    have hcleanOutcome : Clean a.outcome := by
      rcases Bool.and_eq_false_iff.mp houtcome with heq | heq
      · rw [bne_eq_false_iff_eq.mp heq, Clean]
        decide +kernel
      · rw [bne_eq_false_iff_eq.mp heq, Clean]
        decide +kernel
    have hcleanRole : Clean a.selectedAgentRole := by
      rcases Bool.and_eq_false_iff.mp hrole with heq | heq
      · rw [bne_eq_false_iff_eq.mp heq]
        exact clean_nil
      · rw [bne_eq_false_iff_eq.mp heq, Clean]
        decide +kernel
    exact (guarded_checked hcleanOutcome
      (guarded_checked (clean_of_oneOf hreason (by decide +kernel))
        (guarded_unchecked (guarded_checked hcleanRole
          (guarded_checked hrationale guarded_nil))))).append
      (guarded_each guarded_reference hrefs)

theorem guarded_artifacts {a : Artifacts} (h : a.validateShape parseUrl = none) :
    Guarded (artifactsFields a) := by
  simp only [Artifacts.validateShape, firstError_cons_none] at h
  obtain ⟨hsource, hsourceMetadata, hcorpusMetadata, hparse, hsemantic, hpasses, hgenerated,
    hcandidates, hfinal, hattempts, htrajectories, horacle, hruntime, hinvocations, hbuild, hsbom,
    hlicense, hharness, hledger, hexperience, hassist, -, hoverlay, -⟩ := h
  have hreference (path : Text) : ∀ r : DataReference, r.validate parseUrl path = none →
      Guarded (referenceFields r) := guarded_reference path
  have hassist : Guarded (optionalFields assistFields a.assistDecision) := by
    cases hdecision : a.assistDecision with
    | none => exact guarded_nil
    | some decision =>
        rw [hdecision] at hassist
        rw [optionalFields, Option.toList_some, List.flatMap_singleton]
        exact guarded_assist _ decision hassist
  apply guarded_flatten
  simp only [List.forall_mem_cons]
  exact ⟨guarded_each hreference hsource, guarded_optional (hreference _) hsourceMetadata,
    guarded_optional (hreference _) hcorpusMetadata, guarded_optional (hreference _) hparse,
    guarded_optional (hreference _) hsemantic, guarded_each guarded_pass hpasses,
    guarded_optional (hreference _) hgenerated, guarded_each guarded_candidate hcandidates,
    guarded_optional (guarded_candidate _) hfinal, guarded_each guarded_attempt hattempts,
    guarded_each guarded_trajectory htrajectories,
    guarded_optional (guarded_comparison _) horacle,
    guarded_optional (guarded_version _) hruntime,
    guarded_each guarded_invocation hinvocations, guarded_each hreference hbuild,
    guarded_each hreference hsbom, guarded_each hreference hlicense,
    guarded_optional (hreference _) hharness, guarded_optional (hreference _) hledger,
    guarded_each hreference hexperience, hassist, guarded_optional (guarded_overlay _) hoverlay,
    fun _ h => nomatch h⟩

end Validated

end C2c.Evidence.SecretScreening
