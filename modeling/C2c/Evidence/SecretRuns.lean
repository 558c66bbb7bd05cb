import C2c.Evidence.SecretScreening
import C2c.Evidence.SuccessPacks

namespace C2c.Evidence.SecretRuns

open C2c.Library.JavaText
open C2c.Library.Machine
open C2c.Evidence
open C2c.Evidence.FieldErrors
open C2c.Evidence.Artifacts
open C2c.Evidence.Validation
open C2c.Evidence.Manifest
open C2c.Evidence.Store
open C2c.Evidence.Invariants
open C2c.Evidence.CleanTexts
open C2c.Evidence.SecretScreening

/-- No text of the fields is taken for a secret. -/
def AllClean (fields : List TextField) : Prop :=
  ∀ field ∈ fields, Clean field.text

/-- No text of a field no validator screens is taken for a secret. -/
def UncheckedClean (fields : List TextField) : Prop :=
  ∀ field ∈ fields, field.unchecked = true → Clean field.text

/-- No stored manifest has a text that is taken for a secret. -/
def StoreClean (s : PackStore) : Prop :=
  ∀ packId m, s.packs packId = some m → AllClean (manifestFields m)

/-- The call brings no secret in an unscreened field: the create or update is
rejected, the pack to export is missing, or these fields have none. -/
def NoUnscreenedSecret (parseUrl : UrlParser) (s : PackStore) : Call → Prop
  | .recordExport packId record => s.packs packId ≠ none → UncheckedClean (exportFields record)
  | call => ∀ m blocked, built s call = some (m, blocked) →
      rejection parseUrl (derive m blocked) blocked = none → UncheckedClean (givenFields m)

section Messages

theorem quiet_namesText (names : List ArtifactName) : Quiet (namesText names) := by
  have hopen : Quiet ['['] := quiet_of_decide (by decide)
  have hclose : Quiet [']'] := quiet_of_decide (by decide)
  have hnames : Quiet (joinWith [' '] (names.map ArtifactName.text)) := by
    apply quiet_join
    intro t ht
    obtain ⟨name, -, rfl⟩ := List.mem_map.mp ht
    exact quiet_artifactName name
  exact (hopen.append hnames).append hclose

theorem quiet_evaluated {a : Artifacts} {wave : Wave} :
    ∀ message ∈ (evaluateValidationForWave a wave).messages, Quiet message := by
  intro message hmessage
  simp only [evaluateValidationForWave] at hmessage
  split at hmessage
  · contradiction
  · obtain rfl := List.mem_singleton.mp hmessage
    have hmissing : Quiet "missing required ".toList := quiet_of_decide (by decide)
    have hwave : Quiet (waveLabel wave) := by
      cases wave <;> exact quiet_of_decide (by decide)
    have hartifacts : Quiet " artifacts: ".toList := quiet_of_decide (by decide)
    exact ((hmissing.append hwave).append hartifacts).append (quiet_namesText _)

theorem quiet_recorded (m : EvidencePackManifest) (blocked : Bool) :
    ∀ message ∈ (recordedValidation m blocked).messages, Quiet message := by
  have hmanifest : ∀ message ∈ (evaluateValidationForManifest m).messages, Quiet message := by
    intro message hmessage
    simp only [evaluateValidationForManifest] at hmessage
    split at hmessage
    · split at hmessage
      · exact quiet_evaluated message hmessage
      · rcases List.mem_append.mp hmessage with hmessage | hmessage
        · exact quiet_evaluated message hmessage
        · obtain rfl := List.mem_singleton.mp hmessage
          exact quiet_of_decide (by decide +kernel)
    · exact quiet_evaluated message hmessage
  intro message hmessage
  simp only [recordedValidation] at hmessage
  split at hmessage
  · simp only [relaxBlockedW02Validation] at hmessage
    split at hmessage
    · contradiction
    · exact hmanifest message hmessage
  · exact hmanifest message hmessage

theorem checked_clean_of_quiet {texts : List Text} (h : ∀ t ∈ texts, Quiet t) :
    ∀ field ∈ texts.map checked, Clean field.text := by
  intro field hfield
  obtain ⟨t, ht, rfl⟩ := List.mem_map.mp hfield
  exact clean_of_quiet (h t ht)

/-- The service says nothing that is taken for a secret. -/
theorem validationFields_clean (m : EvidencePackManifest) (blocked : Bool) :
    ∀ field ∈ validationFields (derive m blocked).validation, Clean field.text := by
  intro field hfield
  rcases List.mem_append.mp hfield with hfield | hfield
  · obtain ⟨name, -, rfl⟩ := List.mem_map.mp hfield
    exact clean_of_quiet (quiet_artifactName name)
  · exact checked_clean_of_quiet (quiet_recorded m blocked) field hfield

end Messages

section Accepted

variable {parseUrl : UrlParser} {m : EvidencePackManifest} {blocked : Bool}

theorem uncheckedClean_of_allClean {fields : List TextField} (h : AllClean fields) :
    UncheckedClean fields := by
  intro field hfield _
  exact h field hfield

theorem allClean_append {fields later : List TextField} :
    AllClean (fields ++ later) ↔ AllClean fields ∧ AllClean later :=
  List.forall_mem_append

theorem guarded_exports (exports : List ExportRecord) :
    Guarded (exports.flatMap exportFields) :=
  guarded_flatMap fun _ _ =>
    guarded_unchecked (guarded_unchecked (guarded_unchecked guarded_nil))

theorem guarded_given (h : m.artifacts.validateShape parseUrl = none) :
    Guarded (givenFields m) := by
  have hown : Guarded [unchecked m.packId, unchecked m.runId, unchecked m.workflowId,
      unchecked m.summary, unchecked m.createdBy] :=
    guarded_unchecked (guarded_unchecked (guarded_unchecked (guarded_unchecked
      (guarded_unchecked guarded_nil))))
  have hassumptions : Guarded (m.openAssumptions.flatMap assumptionFields) :=
    guarded_flatMap fun _ _ =>
      guarded_unchecked (guarded_unchecked (guarded_unchecked guarded_nil))
  have hfeatures : Guarded (m.unsupportedFeatures.flatMap featureFields) :=
    guarded_flatMap fun _ _ =>
      Guarded.append (guarded_unchecked (guarded_unchecked guarded_nil)) guarded_unvalidated
  exact (((hown.append (guarded_artifacts h)).append hassumptions).append hfeatures).append
    (guarded_exports m.exports)

theorem validateShape_of_accepted (h : rejection parseUrl m blocked = none) :
    m.artifacts.validateShape parseUrl = none :=
  firstError_eq_none.mp (SuccessPacks.valid_of_accepted h) _ (by simp)

/-- An accepted manifest is clean exactly if its unscreened fields are. -/
theorem allClean_iff (haccepted : rejection parseUrl (derive m blocked) blocked = none) :
    AllClean (manifestFields (derive m blocked)) ↔ UncheckedClean (givenFields m) := by
  have hshape := validateShape_of_accepted haccepted
  have hguarded : Guarded (givenFields m) := guarded_given (m := m) hshape
  have hgiven : givenFields (derive m blocked) = givenFields m := rfl
  rw [manifestFields, hgiven, allClean_append]
  constructor
  · rintro ⟨hclean, -⟩
    exact uncheckedClean_of_allClean hclean
  · intro hclean
    refine ⟨?_, validationFields_clean m blocked⟩
    intro field hfield
    cases hunchecked : field.unchecked with
    | false => exact hguarded field hfield hunchecked
    | true => exact hclean field hfield hunchecked

/-- One more export record. -/
theorem allClean_exported (hm : AllClean (manifestFields m)) (record : ExportRecord) :
    AllClean (manifestFields { m with exports := m.exports ++ [record] }) ↔
      UncheckedClean (exportFields record) := by
  have hrecord : Guarded (exportFields record) :=
    guarded_unchecked (guarded_unchecked (guarded_unchecked guarded_nil))
  simp only [manifestFields, givenFields, allClean_append, List.flatMap_append,
    List.flatMap_singleton] at hm ⊢
  constructor
  · rintro ⟨⟨-, -, hclean⟩, -⟩
    exact uncheckedClean_of_allClean hclean
  · intro hclean
    refine ⟨⟨hm.1.1, hm.1.2, ?_⟩, hm.2⟩
    intro field hfield
    cases hunchecked : field.unchecked with
    | false => exact hrecord field hfield hunchecked
    | true => exact hclean field hfield hunchecked

end Accepted

section Runs

variable {parseUrl : UrlParser} {s : PackStore}

theorem storeClean_put {packId : Text} {m : EvidencePackManifest} (hs : StoreClean s) :
    StoreClean (s.put packId m) ↔ AllClean (manifestFields m) := by
  constructor
  · intro hput
    exact hput packId m (by simp [put_packs])
  · intro hm other m' hm'
    rw [put_packs] at hm'
    split at hm'
    · obtain rfl := Option.some.inj hm'
      exact hm
    · exact hs other m' hm'

/-- The condition on a create or an update that is accepted. -/
theorem noUnscreenedSecret_iff {call : Call} {m : EvidencePackManifest} {blocked : Bool}
    (hbuilt : built s call = some (m, blocked))
    (haccepted : rejection parseUrl (derive m blocked) blocked = none) :
    NoUnscreenedSecret parseUrl s call ↔ UncheckedClean (givenFields m) := by
  have hiff : (∀ m' blocked', built s call = some (m', blocked') →
      rejection parseUrl (derive m' blocked') blocked' = none → UncheckedClean (givenFields m')) ↔
        UncheckedClean (givenFields m) := by
    constructor
    · intro h
      exact h m blocked hbuilt haccepted
    · intro h m' blocked' hbuilt' _
      rw [hbuilt] at hbuilt'
      obtain ⟨rfl, rfl⟩ := Prod.mk.inj (Option.some.inj hbuilt')
      exact h
  cases call with
  | create now input => exact hiff
  | update packId patch => exact hiff
  | recordExport packId record => contradiction

theorem storeClean_recordExport (packId : Text) (record : ExportRecord) (hs : StoreClean s) :
    StoreClean (step parseUrl s (.recordExport packId record)) ↔
      NoUnscreenedSecret parseUrl s (.recordExport packId record) := by
  simp only [step, perform, recordExport, NoUnscreenedSecret]
  cases hstored : s.packs packId with
  | none => simpa using hs
  | some m =>
      rw [storeClean_put hs, allClean_exported (hs packId m hstored)]
      simp

theorem storeClean_step (call : Call) (hs : StoreClean s) :
    StoreClean (step parseUrl s call) ↔ NoUnscreenedSecret parseUrl s call := by
  have heffect := step_effect parseUrl s call
  have hexport : ∀ packId record, StoreClean s →
      (StoreClean (step parseUrl s (.recordExport packId record)) ↔
        NoUnscreenedSecret parseUrl s (.recordExport packId record)) :=
    storeClean_recordExport
  generalize hnext : step parseUrl s call = s' at heffect
  cases heffect with
  | rejected hpacks hseq hrejected =>
      cases call with
      | recordExport packId record =>
          rw [← hnext]
          exact hexport packId record hs
      | _ =>
          constructor
          · intro _ m blocked hbuilt haccepted
            exact absurd haccepted (hrejected m blocked hbuilt)
          · intro _ packId m hm
            rw [hpacks] at hm
            exact hs packId m hm
  | created hbuilt haccepted =>
      rw [noUnscreenedSecret_iff hbuilt haccepted, ← allClean_iff haccepted]
      exact storeClean_put hs
  | updated hcurrent haccepted =>
      rw [noUnscreenedSecret_iff (built_update _ hcurrent) haccepted, ← allClean_iff haccepted]
      exact storeClean_put hs
  | exported hm =>
      rw [← hnext]
      exact hexport _ _ hs

/-- Every store along a run is free of secrets exactly if no call of the run
brings one in a field that no validator screens. -/
theorem storeClean_iff (parseUrl : UrlParser) (calls : List Call) :
    (∀ n, StoreClean (run (step parseUrl) newPackStore (calls.take n))) ↔
      Along (step parseUrl) (NoUnscreenedSecret parseUrl) newPackStore calls :=
  run_invariant_iff (fun _ call hs => storeClean_step call hs) (by rintro _ _ ⟨⟩) calls

/-- A create whose summary has a token in it. -/
def tokenCall : Call :=
  .create 1 { runId := ['r'], summary := "token sk-abcdefghijklmnop".toList }

theorem tokenCall_stored :
    ((step (fun _ => none) newPackStore tokenCall).packs "epk-r-0001".toList).any
      (fun m => containsSecretLike m.summary) = true := by
  decide +kernel

theorem token_stored : ¬ StoreClean (run (step fun _ => none) newPackStore [tokenCall]) := by
  intro hclean
  obtain ⟨m, hm, hsecret⟩ := (Option.any_eq_true _ _).mp tokenCall_stored
  have hsummary : Clean m.summary := hclean _ m hm (unchecked m.summary) (by
    simp [manifestFields, givenFields])
  rw [hsummary] at hsecret
  contradiction

end Runs

end C2c.Evidence.SecretRuns
