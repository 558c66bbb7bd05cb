import C2c.Evidence.Store

namespace C2c.Evidence.Invariants

open C2c.Library.JavaText
open C2c.Library.Machine
open C2c.Evidence
open C2c.Evidence.FieldErrors
open C2c.Evidence.Artifacts
open C2c.Evidence.Validation
open C2c.Evidence.Manifest
open C2c.Evidence.Store

def isBlocked (m : EvidencePackManifest) : Bool :=
  m.classification == .blocked

/-- No artifact of a blocked W0.2 pack claims a Java result. -/
structure ClaimsNoJava (a : Artifacts) : Prop where
  generatedJava : a.generatedJava = none
  finalJavaArtifact : a.finalJavaArtifact = none
  selected : ∀ c ∈ a.generatedJavaArtifacts, c.selected = false

/-- What holds of a manifest stored under a pack id. -/
structure Consistent (parseUrl : UrlParser) (packId : Text) (m : EvidencePackManifest) : Prop where
  packId : m.packId = packId
  valid : validate parseUrl m = none
  validation : m.validation =
    { recordedValidation m (isBlocked m) with completenessStatus := m.completenessStatus }
  status : m.status = deriveStatus m.validation
  completenessStatus : m.completenessStatus =
    deriveCompletenessStatus m.validation (isBlocked m)
  classification : m.classification = deriveClassification m.validation (isBlocked m)
  claimsNoJava : m.wave = .w02 → isBlocked m = true → ClaimsNoJava m.artifacts

/-- The fields of a pack that no call changes. -/
structure SameIdentity (m m' : EvidencePackManifest) : Prop where
  packId : m'.packId = m.packId
  runId : m'.runId = m.runId
  wave : m'.wave = m.wave
  createdAt : m'.createdAt = m.createdAt

theorem SameIdentity.refl (m : EvidencePackManifest) : SameIdentity m m :=
  ⟨rfl, rfl, rfl, rfl⟩

theorem SameIdentity.trans {m m' m'' : EvidencePackManifest} (h : SameIdentity m m')
    (h' : SameIdentity m' m'') : SameIdentity m m'' :=
  ⟨h'.packId.trans h.packId, h'.runId.trans h.runId, h'.wave.trans h.wave,
    h'.createdAt.trans h.createdAt⟩

section Step

variable {parseUrl : UrlParser} {s : PackStore}

/-- The manifest a call builds and whether it is a blocked one, if the call gets
that far. -/
def built (s : PackStore) : Call → Option (EvidencePackManifest × Bool)
  | .create now input =>
      if input.runId = [] then none
      else (readWave input.wave).map fun wave =>
        (newManifest input wave (s.seq + 1) now, input.blocked)
  | .update packId patch =>
      (s.packs packId).map fun current => (patched current patch, blockedAfter current patch)
  | .recordExport _ _ => none

/-- Everything a call can do: a rejected call leaves the packs alone (a create
may use up a number), a create and an update put an admitted manifest in place,
an export record is appended. -/
inductive Effect (parseUrl : UrlParser) (s : PackStore) : Call → PackStore → Prop
  | rejected {call : Call} {s' : PackStore} (hpacks : s'.packs = s.packs)
      (hseq : s'.seq = s.seq ∨ call.isCreate = true ∧ s'.seq = s.seq + 1)
      (hrejected : ∀ m blocked, built s call = some (m, blocked) →
        rejection parseUrl (derive m blocked) blocked ≠ none) : Effect parseUrl s call s'
  | created {now : Time} {input : CreateInput} {wave : Wave}
      (hbuilt : built s (.create now input) =
        some (newManifest input wave (s.seq + 1) now, input.blocked))
      (haccepted : rejection parseUrl
        (derive (newManifest input wave (s.seq + 1) now) input.blocked) input.blocked = none) :
      Effect parseUrl s (.create now input)
        (PackStore.put { s with seq := s.seq + 1 } (packIdOf input.runId (s.seq + 1))
          (derive (newManifest input wave (s.seq + 1) now) input.blocked))
  | updated {packId : Text} {patch : PatchInput} {current : EvidencePackManifest}
      (hcurrent : s.packs packId = some current)
      (haccepted : rejection parseUrl (derive (patched current patch) (blockedAfter current patch))
        (blockedAfter current patch) = none) :
      Effect parseUrl s (.update packId patch)
        (s.put packId (derive (patched current patch) (blockedAfter current patch)))
  | exported {packId : Text} {record : ExportRecord} {m : EvidencePackManifest}
      (hm : s.packs packId = some m) :
      Effect parseUrl s (.recordExport packId record)
        (s.put packId { m with exports := m.exports ++ [record] })

theorem built_create {now : Time} {input : CreateInput} {wave : Wave} (hrun : input.runId ≠ [])
    (hwave : readWave input.wave = some wave) :
    built s (.create now input) =
      some (newManifest input wave (s.seq + 1) now, input.blocked) := by
  simp [built, hrun, hwave]

theorem built_update {packId : Text} {current : EvidencePackManifest} (patch : PatchInput)
    (hcurrent : s.packs packId = some current) :
    built s (.update packId patch) =
      some (patched current patch, blockedAfter current patch) := by
  simp [built, hcurrent]

/-- What was built is what the check refused. -/
theorem refused {call : Call} {m : EvidencePackManifest} {blocked : Bool} {error : FieldError}
    (hbuilt : built s call = some (m, blocked))
    (herror : rejection parseUrl (derive m blocked) blocked = some error) :
    ∀ m' blocked', built s call = some (m', blocked') →
      rejection parseUrl (derive m' blocked') blocked' ≠ none := by
  intro m' blocked' hbuilt'
  rw [hbuilt] at hbuilt'
  obtain ⟨rfl, rfl⟩ := Prod.mk.inj (Option.some.inj hbuilt')
  rw [herror]
  exact Option.some_ne_none error

theorem step_effect (parseUrl : UrlParser) (s : PackStore) (call : Call) :
    Effect parseUrl s call (step parseUrl s call) := by
  cases call with
  | create now input =>
      simp only [step, perform, create]
      split
      · rename_i hrun
        exact .rejected rfl (.inl rfl) (by simp [built, hrun])
      · rename_i hrun
        split
        · rename_i hwave
          exact .rejected rfl (.inl rfl) (by simp [built, hwave])
        · rename_i hwave
          have hbuilt : built s (.create now input) = _ := built_create hrun hwave
          split
          · rename_i herror
            exact .rejected rfl (.inr ⟨rfl, rfl⟩) (refused hbuilt herror)
          · rename_i haccepted
            exact .created hbuilt haccepted
  | update packId patch =>
      simp only [step, perform, update]
      split
      · rename_i hmissing
        exact .rejected rfl (.inl rfl) (by simp [built, hmissing])
      · rename_i hcurrent
        split
        · rename_i herror
          exact .rejected rfl (.inl rfl) (refused (built_update patch hcurrent) herror)
        · rename_i haccepted
          exact .updated hcurrent haccepted
  | recordExport packId record =>
      simp only [step, perform, recordExport]
      split
      · exact .rejected rfl (.inl rfl) (by simp [built])
      · rename_i hm
        exact .exported hm

end Step

section Derived

variable (m : EvidencePackManifest) (blocked : Bool)

@[simp] theorem recordedValidation_derive (other : Bool) :
    recordedValidation (derive m blocked) other = recordedValidation m other := rfl

@[simp] theorem isBlocked_derive : isBlocked (derive m blocked) = blocked := by
  unfold isBlocked derive deriveClassification
  cases blocked with
  | true => rfl
  | false =>
      dsimp only
      split
      · contradiction
      · split <;> rfl

end Derived

theorem validateShape_optional {parseUrl : UrlParser} {a : Artifacts}
    (h : a.validateShape parseUrl = none) :
    (∀ r ∈ a.generatedJava, r.validate parseUrl (artifactPath "generatedJava") = none) ∧
      ∀ c ∈ a.finalJavaArtifact, c.validate parseUrl (artifactPath "finalJavaArtifact") = none := by
  have hall := firstError_eq_none.mp h
  have hgenerated := hall (validateOptional
    (DataReference.validate parseUrl (artifactPath "generatedJava")) a.generatedJava) (by simp)
  have hfinal := hall (validateOptional
    (JavaCandidateRef.validate parseUrl (artifactPath "finalJavaArtifact")) a.finalJavaArtifact)
    (by simp)
  refine ⟨?_, ?_⟩
  · rintro r hr
    rw [Option.mem_def.mp hr] at hgenerated
    exact hgenerated
  · rintro c hc
    rw [Option.mem_def.mp hc] at hfinal
    exact hfinal

/-- A valid reference has a uri, so it is not the zero one. -/
theorem DataReference.not_isZero {parseUrl : UrlParser} {path : Text} {r : DataReference}
    (h : r.validate parseUrl path = none) : r.isZero = false := by
  have huri := (firstError_cons_none.mp h).1
  rw [checkMember, check_eq_none] at huri
  simp [DataReference.isZero, huri]

theorem JavaCandidateRef.not_isZero {parseUrl : UrlParser} {path : Text} {c : JavaCandidateRef}
    (h : c.validate parseUrl path = none) : c.isZero = false := by
  have hreference := (firstError_cons_none.mp h).1
  have huri := (firstError_cons_none.mp hreference).1
  rw [checkMember, check_eq_none] at huri
  have huri : (c.uri == []) = false := huri
  simp [JavaCandidateRef.isZero, huri]

theorem validateEach_eq_none {α : Type} {check : Text → α → Option FieldError} {path : Text}
    {values : List α} (h : validateEach check path values = none) :
    ∀ value ∈ values, ∃ path, check path value = none := by
  intro value hvalue
  obtain ⟨i, hi, rfl⟩ := List.mem_iff_getElem.mp hvalue
  refine ⟨item path i, ?_⟩
  apply firstError_eq_none.mp h
  refine List.mem_map.mpr ⟨(values[i], i), ?_, rfl⟩
  exact List.mk_mem_zipIdx_iff_getElem?.mpr (by simp [hi])

theorem claimsNoJava_of_accepted {parseUrl : UrlParser} {m : EvidencePackManifest}
    (hwave : m.wave = .w02) (haccepted : rejection parseUrl m true = none) :
    ClaimsNoJava m.artifacts := by
  obtain ⟨hblocked, hvalid⟩ := firstError_cons_none.mp haccepted
  have hvalid := (firstError_cons_none.mp hvalid).1
  simp only [hwave, beq_self_eq_true, Bool.and_self, if_true] at hblocked
  have hshape : m.artifacts.validateShape parseUrl = none :=
    firstError_eq_none.mp hvalid _ (by simp)
  obtain ⟨hgeneratedShape, hfinalShape⟩ := validateShape_optional hshape
  obtain ⟨hgenerated, hblocked⟩ := firstError_cons_none.mp hblocked
  obtain ⟨hfinal, hblocked⟩ := firstError_cons_none.mp hblocked
  have hselected := (firstError_cons_none.mp hblocked).1
  rw [check_eq_none] at hgenerated hfinal
  refine ⟨?_, ?_, ?_⟩
  · cases hjava : m.artifacts.generatedJava with
    | none => rfl
    | some r =>
        have hzero := DataReference.not_isZero (hgeneratedShape r hjava)
        simp [hjava, hzero] at hgenerated
  · cases hjava : m.artifacts.finalJavaArtifact with
    | none => rfl
    | some c =>
        have hzero := JavaCandidateRef.not_isZero (hfinalShape c hjava)
        simp [hjava, hzero] at hfinal
  · intro c hc
    obtain ⟨path, hpath⟩ := validateEach_eq_none hselected c hc
    exact check_eq_none.mp hpath

/-- A manifest that is derived and admitted is consistent. -/
theorem consistent_of_accepted {parseUrl : UrlParser} {m : EvidencePackManifest} {blocked : Bool}
    (haccepted : rejection parseUrl (derive m blocked) blocked = none) :
    Consistent parseUrl m.packId (derive m blocked) where
  packId := rfl
  valid := (firstError_cons_none.mp (firstError_cons_none.mp haccepted).2).1
  validation := by
    rw [isBlocked_derive, recordedValidation_derive]
    rfl
  status := rfl
  completenessStatus := by
    rw [isBlocked_derive]
    rfl
  classification := by
    rw [isBlocked_derive]
    rfl
  claimsNoJava := by
    intro hwave hblocked
    rw [isBlocked_derive] at hblocked
    subst hblocked
    exact claimsNoJava_of_accepted hwave haccepted

theorem consistent_exports {parseUrl : UrlParser} {packId : Text} {m : EvidencePackManifest}
    (h : Consistent parseUrl packId m) (exports : List ExportRecord) :
    Consistent parseUrl packId { m with exports := exports } :=
  ⟨h.packId, h.valid, h.validation, h.status, h.completenessStatus, h.classification,
    h.claimsNoJava⟩

theorem patchManualEdits_identity (m : EvidencePackManifest) (flag : Option Bool) :
    SameIdentity m (patchManualEdits m flag) := by
  rcases flag with _ | _ | _
  · exact .refl m
  · exact ⟨rfl, rfl, rfl, rfl⟩
  · exact ⟨rfl, rfl, rfl, rfl⟩

theorem patched_identity (current : EvidencePackManifest) (patch : PatchInput) :
    SameIdentity current (patched current patch) := by
  unfold patched
  extract_lets merged edited counted
  have hmerged : SameIdentity current merged := ⟨rfl, rfl, rfl, rfl⟩
  have hedited : SameIdentity current edited :=
    hmerged.trans (patchManualEdits_identity merged _)
  have hcounted : SameIdentity current counted := hedited.trans ⟨rfl, rfl, rfl, rfl⟩
  split
  · exact hcounted.trans ⟨rfl, rfl, rfl, rfl⟩
  · exact hcounted

/-- Every stored manifest is consistent. -/
def AllConsistent (parseUrl : UrlParser) (s : PackStore) : Prop :=
  ∀ packId m, s.packs packId = some m → Consistent parseUrl packId m

theorem put_packs (s : PackStore) (packId other : Text) (m : EvidencePackManifest) :
    (s.put packId m).packs other = if other = packId then some m else s.packs other := by
  simp [PackStore.put, Function.update_apply]

theorem allConsistent_put {parseUrl : UrlParser} {s : PackStore} {packId : Text}
    {m : EvidencePackManifest} (hs : AllConsistent parseUrl s)
    (hm : Consistent parseUrl packId m) : AllConsistent parseUrl (s.put packId m) := by
  intro other m' hm'
  rw [put_packs] at hm'
  split at hm'
  · rename_i hother
    obtain rfl := Option.some.inj hm'
    rwa [hother]
  · exact hs other m' hm'

theorem allConsistent_step {parseUrl : UrlParser} {s : PackStore} (call : Call)
    (hs : AllConsistent parseUrl s) : AllConsistent parseUrl (step parseUrl s call) := by
  have heffect := step_effect parseUrl s call
  generalize step parseUrl s call = s' at heffect
  cases heffect with
  | rejected hpacks hseq hrejected =>
      intro packId m hm
      rw [hpacks] at hm
      exact hs packId m hm
  | created hbuilt haccepted => exact allConsistent_put hs (consistent_of_accepted haccepted)
  | updated hcurrent haccepted =>
      rename_i packId patch current
      have hconsistent := consistent_of_accepted haccepted
      rw [(patched_identity current patch).packId, (hs packId current hcurrent).packId]
        at hconsistent
      exact allConsistent_put hs hconsistent
  | exported hm => exact allConsistent_put hs (consistent_exports (hs _ _ hm) _)

theorem allConsistent_run (parseUrl : UrlParser) (calls : List Call) :
    AllConsistent parseUrl (run (step parseUrl) newPackStore calls) :=
  run_invariant (fun _ call hs => allConsistent_step call hs) (by rintro _ _ ⟨⟩) calls

end C2c.Evidence.Invariants
