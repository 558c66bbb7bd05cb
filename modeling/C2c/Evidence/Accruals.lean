import C2c.Evidence.SuccessPacks

namespace C2c.Evidence.Accruals

open C2c.Library.JavaText
open C2c.Library.Machine
open C2c.Evidence
open C2c.Evidence.FieldErrors
open C2c.Evidence.Artifacts
open C2c.Evidence.Validation
open C2c.Evidence.Manifest
open C2c.Evidence.Store
open C2c.Evidence.Invariants
open C2c.Evidence.SuccessPacks

/-- The slice-valued artifacts of one manifest begin those of another. -/
structure Grown (a a' : Artifacts) : Prop where
  sourceCobol : a.sourceCobol <+: a'.sourceCobol
  transformationPasses : a.transformationPasses <+: a'.transformationPasses
  generatedJavaArtifacts : a.generatedJavaArtifacts <+: a'.generatedJavaArtifacts
  repairAttempts : a.repairAttempts <+: a'.repairAttempts
  agentTrajectories : a.agentTrajectories <+: a'.agentTrajectories
  modelInvocations : a.modelInvocations <+: a'.modelInvocations
  buildTestResults : a.buildTestResults <+: a'.buildTestResults
  sbom : a.sbom <+: a'.sbom
  licenseReports : a.licenseReports <+: a'.licenseReports
  experienceEvents : a.experienceEvents <+: a'.experienceEvents

/-- Evidence only accrues: nothing that was there is missing later. -/
structure Accrued (m m' : EvidencePackManifest) : Prop where
  missing : ∀ name, name ∉ m.validation.missingArtifacts → name ∉ m'.validation.missingArtifacts
  slices : Grown m.artifacts m'.artifacts

theorem Grown.refl (a : Artifacts) : Grown a a :=
  ⟨List.prefix_rfl, List.prefix_rfl, List.prefix_rfl, List.prefix_rfl, List.prefix_rfl,
    List.prefix_rfl, List.prefix_rfl, List.prefix_rfl, List.prefix_rfl, List.prefix_rfl⟩

theorem grown_mergeArtifacts (dst src : Artifacts) : Grown dst (mergeArtifacts dst src) :=
  ⟨List.prefix_append _ _, List.prefix_append _ _, List.prefix_append _ _, List.prefix_append _ _,
    List.prefix_append _ _, List.prefix_append _ _, List.prefix_append _ _, List.prefix_append _ _,
    List.prefix_append _ _, List.prefix_append _ _⟩

section Validation

variable {parseUrl : UrlParser} {m : EvidencePackManifest}

/-- A valid manifest that carries manual edits has the overlay, so only the wave's
artifacts can be missing. -/
theorem missingArtifacts_of_valid (hvalid : validate parseUrl m = none) :
    (evaluateValidationForManifest m).missingArtifacts = missingArtifacts m.artifacts m.wave := by
  have hmanual : validateManualEditConsistency m.manualEditsCarriedOver m.manualDriftRegionCount
      m.artifacts.manualEditOverlay = none := firstError_eq_none.mp hvalid _ (by simp)
  have hpresence : check (m.manualEditsCarriedOver &&
      !m.artifacts.manualEditOverlay.any fun o => !o.isZero) (artifactPath "manualEditOverlay")
      "manualEditsCarriedOver=true requires artifacts.manualEditOverlay" = none :=
    firstError_eq_none.mp hmanual _ (by simp)
  rw [check_eq_none] at hpresence
  unfold evaluateValidationForManifest
  dsimp only
  split
  · rename_i hcarried
    have hpresent : present m.artifacts .manualEditOverlay = true := by
      simpa [hcarried, present] using hpresence
    rw [if_pos hpresent]
    rfl
  · rfl

/-- What a W0 manifest records as missing. -/
theorem missingArtifacts_derive (hwave : m.wave = .w0) (blocked : Bool)
    (hvalid : validate parseUrl (derive m blocked) = none) :
    (derive m blocked).validation.missingArtifacts = missingArtifacts m.artifacts .w0 := by
  have hmissing : (evaluateValidationForManifest (derive m blocked)).missingArtifacts =
      missingArtifacts m.artifacts m.wave := missingArtifacts_of_valid hvalid
  have hrecorded : (derive m blocked).validation.missingArtifacts =
      (evaluateValidationForManifest m).missingArtifacts := by
    simp [derive, recordedValidation, hwave]
  rw [hrecorded, ← hwave, ← hmissing]
  rfl

theorem missingArtifacts_of_consistent {packId : Text} (hwave : m.wave = .w0)
    (h : Consistent parseUrl packId m) :
    m.validation.missingArtifacts = missingArtifacts m.artifacts .w0 := by
  rw [h.validation]
  simp only [recordedValidation, hwave]
  rw [← hwave]
  simpa [hwave] using missingArtifacts_of_valid h.valid

end Validation

/-- The pointer-valued artifacts of a manifest that is admitted are not zero. -/
structure NonZeroRefs (a : Artifacts) : Prop where
  semanticIr : ∀ r ∈ a.semanticIr, r.isZero = false
  generatedJava : ∀ r ∈ a.generatedJava, r.isZero = false
  harnessEvents : ∀ r ∈ a.harnessEvents, r.isZero = false

theorem nonZeroRefs_of_shape {parseUrl : UrlParser} {a : Artifacts}
    (h : a.validateShape parseUrl = none) : NonZeroRefs a := by
  have hreference : ∀ name (value : Option DataReference),
      validateOptional (DataReference.validate parseUrl (artifactPath name)) value = none →
      ∀ r ∈ value, r.isZero = false := by
    intro name value hnone r hr
    rw [Option.mem_def.mp hr] at hnone
    exact DataReference.not_isZero hnone
  have hall := firstError_eq_none.mp h
  exact ⟨hreference "semanticIr" _ (hall _ (by simp)),
    hreference "generatedJava" _ (hall _ (by simp)),
    hreference "harnessEvents" _ (hall _ (by simp))⟩

/-- A replaced reference is not zero when the result is admitted, and a kept one is
there as before. -/
theorem any_orElse {src dst : Option DataReference}
    (hnonZero : ∀ r ∈ src <|> dst, r.isZero = false)
    (hpresent : (dst.any fun r => !r.isZero) = true) :
    ((src <|> dst).any fun r => !r.isZero) = true := by
  cases src with
  | none => simpa using hpresent
  | some r => simpa using hnonZero r (by simp)

theorem append_isEmpty {α : Type} {dst : List α} (src : List α)
    (h : (!dst.isEmpty) = true) : (!(dst ++ src).isEmpty) = true := by
  cases dst with
  | nil => cases h
  | cons a dst => rfl

/-- The artifacts a patch merges into a pack. -/
def merged (current : EvidencePackManifest) (patch : PatchInput) : Artifacts :=
  match patch.artifacts with
  | some artifacts => mergeArtifacts current.artifacts artifacts
  | none => current.artifacts

/-- Under W0 a patch changes nothing after the merge but the overlay. -/
theorem patched_artifacts {current : EvidencePackManifest} (hwave : current.wave = .w0)
    (patch : PatchInput) : ∃ overlay, (patched current patch).artifacts =
      { merged current patch with manualEditOverlay := overlay } := by
  unfold patched
  extract_lets merged edited counted
  have hcounted : counted.wave = .w0 := by
    have hedited := (patchManualEdits_identity merged patch.manualEditsCarriedOver).wave
    exact hedited.trans hwave
  rw [if_neg (by rw [hcounted]; rintro ⟨-, ⟨⟩⟩)]
  show ∃ overlay, (patchManualEdits merged patch.manualEditsCarriedOver).artifacts = _
  rcases patch.manualEditsCarriedOver with _ | _ | _
  · exact ⟨merged.artifacts.manualEditOverlay, rfl⟩
  · exact ⟨none, rfl⟩
  · exact ⟨merged.artifacts.manualEditOverlay, rfl⟩

theorem grown_merged (current : EvidencePackManifest) (patch : PatchInput) :
    Grown current.artifacts (merged current patch) := by
  unfold merged
  split
  · exact grown_mergeArtifacts _ _
  · exact Grown.refl _

/-- A merge whose references are valid leaves every W0 artifact that was there. -/
theorem present_merged {current : EvidencePackManifest} {patch : PatchInput}
    (hnonZero : NonZeroRefs (merged current patch)) {name : ArtifactName}
    (hname : name ∈ requiredArtifactsW0) (hpresent : present current.artifacts name = true) :
    present (merged current patch) name = true := by
  unfold merged at hnonZero ⊢
  cases hpatch : patch.artifacts with
  | none => exact hpresent
  | some artifacts =>
      rw [hpatch] at hnonZero
      simp only [requiredArtifactsW0, List.mem_cons, List.not_mem_nil, or_false] at hname
      rcases hname with rfl | rfl | rfl | rfl | rfl | rfl
      · exact append_isEmpty artifacts.sourceCobol hpresent
      · exact any_orElse hnonZero.semanticIr hpresent
      · exact any_orElse hnonZero.generatedJava hpresent
      · exact append_isEmpty artifacts.buildTestResults hpresent
      · exact any_orElse hnonZero.harnessEvents hpresent
      · exact append_isEmpty artifacts.modelInvocations hpresent

theorem present_overlay (a : Artifacts) (overlay : Option ManualEditOverlayRef)
    {name : ArtifactName} (hname : name ∈ requiredArtifactsW0) :
    present { a with manualEditOverlay := overlay } name = present a name := by
  simp only [requiredArtifactsW0, List.mem_cons, List.not_mem_nil, or_false] at hname
  rcases hname with rfl | rfl | rfl | rfl | rfl | rfl <;> rfl

theorem mem_missingArtifacts_w0 {a : Artifacts} {name : ArtifactName} :
    name ∈ missingArtifacts a .w0 ↔ name ∈ requiredArtifactsW0 ∧ present a name = false := by
  simp [missingArtifacts, checkedArtifacts]

/-- What a consistent W0 pack has, an admitted patch keeps. -/
theorem accrued_of_accepted {parseUrl : UrlParser} {packId : Text}
    {current : EvidencePackManifest} {patch : PatchInput} (hwave : current.wave = .w0)
    (hconsistent : Consistent parseUrl packId current)
    (haccepted : rejection parseUrl (derive (patched current patch) (blockedAfter current patch))
      (blockedAfter current patch) = none) :
    Accrued current (derive (patched current patch) (blockedAfter current patch)) := by
  obtain ⟨overlay, hartifacts⟩ := patched_artifacts hwave patch
  have hvalid := valid_of_accepted haccepted
  have hshape : (patched current patch).artifacts.validateShape parseUrl = none :=
    firstError_eq_none.mp hvalid _ (by simp [derive])
  rw [hartifacts] at hshape
  have hnonZero : NonZeroRefs (merged current patch) := by
    have h := nonZeroRefs_of_shape hshape
    exact ⟨h.semanticIr, h.generatedJava, h.harnessEvents⟩
  have hpatchedWave : (patched current patch).wave = .w0 :=
    (patched_identity current patch).wave.trans hwave
  constructor
  · intro name hbefore hafter
    rw [missingArtifacts_derive hpatchedWave _ hvalid, hartifacts, mem_missingArtifacts_w0]
      at hafter
    rw [missingArtifacts_of_consistent hwave hconsistent, mem_missingArtifacts_w0, not_and,
      Bool.not_eq_false] at hbefore
    have hpresent := present_merged hnonZero hafter.1 (hbefore hafter.1)
    rw [← present_overlay _ overlay hafter.1, hafter.2] at hpresent
    cases hpresent
  · have hgrown := grown_merged current patch
    show Grown current.artifacts (patched current patch).artifacts
    rw [hartifacts]
    exact ⟨hgrown.sourceCobol, hgrown.transformationPasses, hgrown.generatedJavaArtifacts,
      hgrown.repairAttempts, hgrown.agentTrajectories, hgrown.modelInvocations,
      hgrown.buildTestResults, hgrown.sbom, hgrown.licenseReports, hgrown.experienceEvents⟩

/-- In every state the store can reach, a patch it accepts for a W0 pack keeps the
evidence the pack has. -/
theorem accepted_patch_accrues (parseUrl : UrlParser) (calls : List Call) {packId : Text}
    {current m : EvidencePackManifest} {patch : PatchInput} {s' : PackStore}
    (hcurrent : (run (step parseUrl) newPackStore calls).packs packId = some current)
    (hwave : current.wave = .w0)
    (hupdate : update parseUrl (run (step parseUrl) newPackStore calls) packId patch =
      (s', .ok m)) : s'.packs packId = some m ∧ Accrued current m := by
  have hconsistent := allConsistent_run parseUrl calls packId current hcurrent
  unfold update at hupdate
  rw [hcurrent] at hupdate
  dsimp only at hupdate
  split at hupdate
  · cases hupdate
  · rename_i haccepted
    obtain ⟨rfl, hm⟩ := Prod.mk.inj hupdate
    obtain rfl := Except.ok.inj hm
    refine ⟨?_, accrued_of_accepted hwave hconsistent haccepted⟩
    rw [put_packs, if_pos rfl]

/-- A W0 pack with a source and an IR, and a patch that brings in the rest of the
source and replaces the IR. -/
theorem replaced_ir_accrues :
    ∃ (current m : EvidencePackManifest) (s' : PackStore),
      (run (step fun _ => none) newPackStore [.create 1
        { runId := ['r']
          artifacts := { sourceCobol := [sampleReference], semanticIr := some sampleReference } }]
        ).packs "epk-r-0001".toList = some current ∧
      s'.packs "epk-r-0001".toList = some m ∧ Accrued current m := by
  let calls : List Call := [.create 1
    { runId := ['r']
      artifacts := { sourceCobol := [sampleReference], semanticIr := some sampleReference } }]
  let patch : PatchInput :=
    { artifacts := some
        { sourceCobol := [sampleReference]
          semanticIr := some ⟨['f'], List.replicate 64 '1', 7, [], []⟩ } }
  have hstored : ((run (step fun _ => none) newPackStore calls).packs "epk-r-0001".toList).any
      (fun m => m.wave == .w0) = true := by
    decide +kernel
  have haccepted : (update (fun _ => none) (run (step fun _ => none) newPackStore calls)
      "epk-r-0001".toList patch).2.toOption.isSome = true := by
    decide +kernel
  obtain ⟨current, hcurrent, hwave⟩ := (Option.any_eq_true _ _).mp hstored
  obtain ⟨m, hm⟩ := Option.isSome_iff_exists.mp haccepted
  generalize hupdate : update (fun _ => none) (run (step fun _ => none) newPackStore calls)
    "epk-r-0001".toList patch = result at hm
  obtain ⟨s', reply⟩ := result
  cases reply with
  | error e => cases hm
  | ok m =>
      exact ⟨current, m, s', hcurrent,
        accepted_patch_accrues (fun _ => none) calls hcurrent (beq_iff_eq.mp hwave) hupdate⟩

end C2c.Evidence.Accruals
