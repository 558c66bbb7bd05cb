import Mathlib
import C2c.TrustCases.ReadFields

namespace C2c.TrustCases.SharedIdentities

open C2c.Library.JavaText hiding trim isTrimmed
open C2c.Library.JsonText
open C2c.Library.GoJson hiding member
open C2c.Library.PythonText
open C2c.TrustCases.Documents
open C2c.TrustCases.BffCatalog
open C2c.TrustCases.OrchestratorCatalog
open C2c.TrustCases.CanonicalTexts
open C2c.TrustCases.ReadFields

/-- A member of a member. -/
def memberOf (value : Option Json) (name : String) : Option Json :=
  value.bind fun v => member v name

/-- Both services trim the text to the same one. -/
def TrimsAlike (value : Option Json) : Prop :=
  ∀ t, value = some (.string t) → trim t = strip t

/-- The BFF's trimming leaves the text as it is. -/
def IsTrim (value : Option Json) : Prop :=
  ∀ t, value = some (.string t) → trim t = t

/-- The texts of a trust case that the services treat differently are of no
consequence. -/
structure ReadAlike (raw : Json) : Prop where
  programId : TrimsAlike (member raw "programId")
  profileDescription : TrimsAlike (memberOf (member raw "environmentProfile") "description")
  shapeProgramId : IsTrim (memberOf (member raw "supportedProgramShape") "programId")

structure CatalogReadAlike (parsed : Json) : Prop where
  catalogVersion : TrimsAlike (member parsed "catalogVersion")
  trustCases : ∀ raws, elements (member parsed "trustCases") = some raws →
    ∀ raw ∈ raws, ReadAlike raw

section Claims

variable (sha : ByteArray → Text) (bff : BffCatalog.TrustCaseCatalog)
  (orchestrator : OrchestratorCatalog.TrustCaseCatalog)

/-- The identity fields of a trust case, as a JSON value. -/
def bffIdentity (trustCase : TrustCase) : Json :=
  toAny (identityPayload trustCase bff.catalogVersion bff.catalogHash)

def bffDigest (trustCase : TrustCase) : Text :=
  (summarize sha trustCase bff.catalogVersion bff.catalogHash).configurationDigest

def orchestratorIdentity (entry : TrustCaseCatalogEntry) : Json :=
  toAny (identity entry orchestrator.catalogVersion orchestrator.catalogHash)

def orchestratorDigest (entry : TrustCaseCatalogEntry) : Text :=
  configurationDigest sha entry orchestrator.catalogVersion orchestrator.catalogHash

/-- Two catalogs of one document tell the same of its trust cases, and a digest
stands for one identity, in each and across both. -/
structure SameCatalog : Prop where
  catalogHash : bff.catalogHash = orchestrator.catalogHash
  identities : bff.trustCases.map (bffIdentity bff) =
    orchestrator.entries.map (orchestratorIdentity orchestrator)
  digests : bff.summaries.map TrustCaseSummary.configurationDigest =
    orchestrator.entries.map (orchestratorDigest sha orchestrator)
  bffApart : ∀ c ∈ bff.trustCases, ∀ d ∈ bff.trustCases,
    bffDigest sha bff c = bffDigest sha bff d → bffIdentity bff c = bffIdentity bff d
  orchestratorApart : ∀ c ∈ orchestrator.entries, ∀ d ∈ orchestrator.entries,
    orchestratorDigest sha orchestrator c = orchestratorDigest sha orchestrator d →
      orchestratorIdentity orchestrator c = orchestratorIdentity orchestrator d
  across : ∀ c ∈ bff.trustCases, ∀ d ∈ orchestrator.entries,
    bffDigest sha bff c = orchestratorDigest sha orchestrator d →
      bffIdentity bff c = orchestratorIdentity orchestrator d

end Claims

/-! One trust case in both services. -/

/-- What the two services read of one trust case. -/
structure Paired (raw : Json) (c : TrustCase) (e : TrustCaseCatalogEntry) : Prop where
  trustCaseId : c.trustCaseId = e.trustCaseId
  version : c.version = e.version
  fixtureId : c.sourceReference.fixtureId = e.sourceReferenceFixtureId
  mode : c.sourceReference.mode = e.sourceReferenceMode
  stdin : c.controlledInput.stdin = e.controlledInputStdin
  dataSetIds : c.controlledInput.dataSetIds = e.controlledInputDatasetIds
  expectedOutputFixtureId :
    c.controlledInput.expectedOutputFixtureId = e.controlledInputExpectedOutputFixtureId
  programArgs : c.programArgs = e.runtimeProgramArgs
  profileId : c.environmentProfile.profileId = e.environmentProfileId
  variableValues : c.environmentProfile.variableValues = e.environmentProfileVariables
  strategy : c.comparison.strategy = e.comparisonStrategyId
  policyVersion : c.comparison.policyVersion = e.comparisonPolicyVersion
  artifactName : c.artifactName = e.evidenceArtifactName
  programId : ∃ t, member raw "programId" = some (.string t) ∧ c.programId = trim t ∧
    e.programId = strip t
  profileDescription : ∃ t,
    memberOf (member raw "environmentProfile") "description" = some (.string t) ∧
      c.environmentProfile.description = trim t ∧ e.environmentProfileDescription = strip t
  shape : ∃ t, memberOf (member raw "supportedProgramShape") "programId" = some (.string t) ∧
    c.supportedProgramShape.programId = trim t ∧
      e.supportedProgramShape = .object [
        ("language".toList, .string c.supportedProgramShape.language),
        ("programId".toList, .string t),
        ("supportedSubset".toList, textItems c.supportedProgramShape.supportedSubset)]

theorem sourceReference_paired {raw : Json} {reference : TrustCaseSourceReference}
    {fixtureId mode : Text} (h : parseSourceReference raw = some reference)
    (hfixtureId : requiredMatching OrchestratorCatalog.isTrustCaseId (member raw "fixtureId") =
      some fixtureId)
    (hmode : requiredMatching (isOneOf OrchestratorCatalog.sourceReferenceModes)
      (member raw "mode") = some mode) :
    reference.fixtureId = fixtureId ∧ reference.mode = mode := by
  simp only [parseSourceReference, bind_eq_some_iff, guard_eq_some_iff, exists_const,
    Option.pure_def, Option.some.injEq] at h
  obtain ⟨-, fixtureId', hfixtureId', mode', hmode', rfl⟩ := h
  exact ⟨same_text graphicOnly_trustCaseId graphicOnly_trustCaseId hfixtureId' hfixtureId,
    same_text (graphicOnly_oneOf (by decide)) (graphicOnly_oneOf (by decide)) hmode' hmode⟩

theorem shape_paired {programId : Text} {raw : Json} {shape : TrustCaseSupportedProgramShape}
    (hcanonical : Canonical raw) (h : parseSupportedProgramShape programId raw = some shape) :
    ∃ t, member raw "programId" = some (.string t) ∧ shape.programId = trim t ∧
      raw = .object [
        ("language".toList, .string shape.language),
        ("programId".toList, .string t),
        ("supportedSubset".toList, textItems shape.supportedSubset)] := by
  simp only [parseSupportedProgramShape, bind_eq_some_iff, guard_eq_some_iff, exists_const,
    Option.pure_def, Option.some.injEq] at h
  obtain ⟨hkeys, hlanguage, shapeProgramId, hprogramId, rfl, items, hitems, -, subset, hsubset, -,
    rfl⟩ := h
  obtain ⟨t, ht, rfl⟩ := requireString_spec hprogramId
  refine ⟨t, ht, rfl, ?_⟩
  have hlang := isText_spec hlanguage
  have hsub := elements_spec hitems
  obtain rfl := texts_spec hsubset
  unfold assertNoExtraKeys at hkeys
  split at hkeys
  · next members =>
      have hsorted : ["language".toList, "programId".toList, "supportedSubset".toList].Pairwise
          (· < ·) := by decide
      refine congrArg Json.object (sorted_ext hcanonical.1 hsorted fun name => ?_)
      have hfind {word : String} {value : Json}
          (hvalue : member (.object members) word = some value) :
          members.find? (fun m => m.1 == word.toList) = some (word.toList, value) := by
        obtain ⟨m, hm, rfl⟩ := Option.map_eq_some_iff.mp hvalue
        have hname := List.find?_some hm
        exact hm.trans (congrArg some (Prod.ext (eq_of_beq hname) rfl))
      cases hname : oneOf ["language", "programId", "supportedSubset"] name with
      | true =>
          obtain ⟨word, hmem, hword⟩ := List.any_eq_true.mp hname
          obtain rfl := eq_of_beq hword
          simp only [List.mem_cons, List.not_mem_nil, or_false] at hmem
          rcases hmem with rfl | rfl | rfl
          · exact hfind hlang
          · exact hfind ht
          · exact hfind hsub
      | false =>
          have hnone {entries : List (Text × Json)}
              (hentries : ∀ m ∈ entries, oneOf ["language", "programId", "supportedSubset"] m.1 =
                true) : entries.find? (fun m => m.1 == name) = none := by
            rw [List.find?_eq_none]
            intro m hm heq
            have hone := hentries m hm
            rw [eq_of_beq heq, hname] at hone
            cases hone
          rw [hnone (List.all_eq_true.mp hkeys), hnone]
          intro m hm
          simp only [List.mem_cons, List.not_mem_nil, or_false] at hm
          rcases hm with rfl | rfl | rfl <;> rfl
  · cases hkeys

theorem controlledInput_paired {raw : Json} {input : TrustCaseControlledInput}
    {stdin : Option Text} {items : List Json} {dataSetIds : List Text} {fixtureId : Text}
    (h : parseControlledInput raw = some input)
    (hstdin : requiredStdin (member raw "stdin") = some stdin)
    (hitems : elements (member raw "dataSetIds") = some items)
    (hdataSetIds : texts isDatasetId items = some dataSetIds)
    (hfixtureId : requiredMatching OrchestratorCatalog.isTrustCaseId
      (member raw "expectedOutputFixtureId") = some fixtureId) :
    input.stdin = stdin ∧ input.dataSetIds = dataSetIds ∧
      input.expectedOutputFixtureId = fixtureId := by
  simp only [parseControlledInput, bind_eq_some_iff, guard_eq_some_iff, exists_const,
    Option.pure_def, Option.some.injEq] at h
  obtain ⟨-, stdin', hstdin', items', hitems', -, dataSetIds', hdataSetIds', -, fixtureId',
    hfixtureId', rfl⟩ := h
  obtain rfl := Option.some.inj (hitems.symm.trans hitems')
  exact ⟨same_stdin hstdin' hstdin, same_texts hdataSetIds' hdataSetIds,
    same_text graphicOnly_trustCaseId graphicOnly_trustCaseId hfixtureId' hfixtureId⟩

theorem environmentProfile_paired {raw : Json} {profile : TrustCaseEnvironmentProfile}
    {profileId description : Text} {entries : List (Text × Text)}
    (h : parseEnvironmentProfile raw = some profile)
    (hprofileId : requiredMatching (isOneOf OrchestratorCatalog.environmentProfileIds)
      (member raw "profileId") = some profileId)
    (hdescription : requiredString (member raw "description") = some description)
    (hentries : requiredVariables (member raw "variables") = some entries) :
    profile.profileId = profileId ∧ profile.variableValues = entries ∧
      ∃ t, member raw "description" = some (.string t) ∧ profile.description = trim t ∧
        description = strip t := by
  simp only [parseEnvironmentProfile, bind_eq_some_iff, guard_eq_some_iff, exists_const,
    Option.pure_def, Option.some.injEq] at h
  obtain ⟨-, profileId', hprofileId', description', hdescription', entries', hentries', rfl⟩ := h
  obtain ⟨t, ht, rfl⟩ := requireString_spec hdescription'
  obtain ⟨t', ht', rfl⟩ := requiredString_spec hdescription
  obtain rfl := string_injective (Option.some.inj (ht.symm.trans ht'))
  exact ⟨same_text (graphicOnly_oneOf (by decide)) (graphicOnly_oneOf (by decide)) hprofileId'
    hprofileId, same_variables hentries' hentries, t, ht, rfl, rfl⟩

theorem programArgs_paired {raw : Json} {args args' : List Text} (h : parseRuntime raw = some args)
    (h' : validateProgramArgs (member raw "programArgs") = some args') : args = args' := by
  simp only [parseRuntime, validateProgramArgs, bind_eq_some_iff, guard_eq_some_iff,
    exists_const] at h h'
  obtain ⟨-, items, hitems, -, hargs⟩ := h
  obtain ⟨items', hitems', -, hargs'⟩ := h'
  obtain rfl := Option.some.inj (hitems.symm.trans hitems')
  exact same_texts hargs hargs'

theorem text_of_isOneOf {word : String} {value : Option Json} {s : Text}
    (h : requiredMatching (isOneOf [word]) value = some s) : s = word.toList := by
  obtain ⟨-, hword⟩ := requiredMatching_spec h
  rw [isOneOf, List.any_cons, List.any_nil, Bool.or_false] at hword
  exact (eq_of_beq hword).symm

theorem comparison_eq {raw : Json} {comparison : TrustCaseComparison}
    (h : parseComparison raw = some comparison) :
    comparison = ⟨"deterministic-output".toList, "deterministic-output-v1".toList⟩ := by
  simp only [parseComparison, bind_eq_some_iff, guard_eq_some_iff, exists_const,
    Option.pure_def, Option.some.injEq] at h
  exact h.2.2.2.symm

theorem artifactName_paired {raw : Json} {name name' : Text}
    (h : parseEvidenceIdentity raw = some name)
    (h' : requiredMatching (isOneOf ["executed-trust-case.json"]) (member raw "artifactName") =
      some name') : name = name' := by
  simp only [parseEvidenceIdentity, bind_eq_some_iff, guard_eq_some_iff, exists_const] at h
  exact same_text graphicOnly_artifactName (graphicOnly_oneOf (by decide)) h.2.2 h'

theorem canonical_member {v w : Json} {name : String} (h : Canonical v)
    (hmember : member v name = some w) : Canonical w := by
  unfold member at hmember
  split at hmember
  · obtain ⟨m, hm, rfl⟩ := Option.map_eq_some_iff.mp hmember
    exact (canonicalMembers_iff _).mp h.2 m (List.mem_of_find?_eq_some hm)
  · cases hmember

theorem paired {raw : Json} {c : TrustCase} {e : TrustCaseCatalogEntry}
    (hcanonical : Canonical raw) (hc : parseTrustCase raw = some c)
    (he : fromPayload raw = some e) : Paired raw c e := by
  simp only [parseTrustCase, bind_eq_some_iff, guard_eq_some_iff, exists_const, Option.pure_def,
    Option.some.injEq, Option.bind_eq_some_iff] at hc
  obtain ⟨-, trustCaseId, htrustCaseId, version, hversion, programId, hprogramId, title, -,
    description, -, flag, -, reference, ⟨reference₀, hreference₀, hreference⟩, input,
    ⟨input₀, hinput₀, hinput⟩, args, ⟨runtime₀, hruntime₀, hargs⟩, profile,
    ⟨profile₀, hprofile₀, hprofile⟩, comparison, ⟨comparison₀, -, hcomparison⟩, shape,
    ⟨shape₀, hshape₀, hshape⟩, artifact, ⟨evidence₀, hevidence₀, hartifact⟩, rfl⟩ := hc
  simp only [fromPayload, bind_eq_some_iff, guard_eq_some_iff, exists_const, Option.pure_def,
    Option.some.injEq] at he
  obtain ⟨trustCaseId', htrustCaseId', version', hversion', programId', hprogramId', title', -,
    description', -, flag', -, reference₁, hreference₁, fixtureId', hfixtureId', mode', hmode',
    input₁, hinput₁, stdin', hstdin', items', hitems', -, dataSetIds', hdataSetIds', -, output',
    houtput', runtime₁, hruntime₁, args', hargs', profile₁, hprofile₁, profileId', hprofileId',
    profileDescription', hprofileDescription', entries', hentries', comparison₁, -, strategy',
    hstrategy', policy', hpolicy', shape₁, hshape₁, evidence₁, hevidence₁, kind', -, artifact',
    hartifact', rfl⟩ := he
  obtain rfl := Option.some.inj (hreference₀.symm.trans (requiredMapping_spec hreference₁))
  obtain rfl := Option.some.inj (hinput₀.symm.trans (requiredMapping_spec hinput₁))
  obtain rfl := Option.some.inj (hruntime₀.symm.trans (requiredMapping_spec hruntime₁))
  obtain rfl := Option.some.inj (hprofile₀.symm.trans (requiredMapping_spec hprofile₁))
  obtain rfl := Option.some.inj (hshape₀.symm.trans (requiredMapping_spec hshape₁))
  obtain rfl := Option.some.inj (hevidence₀.symm.trans (requiredMapping_spec hevidence₁))
  obtain ⟨hfixtureId, hmode⟩ := sourceReference_paired hreference hfixtureId' hmode'
  obtain ⟨hstdin, hdataSetIds, houtput⟩ :=
    controlledInput_paired hinput hstdin' hitems' hdataSetIds' houtput'
  obtain ⟨hprofileId, hentries, t, ht, hdescription, rfl⟩ :=
    environmentProfile_paired hprofile hprofileId' hprofileDescription' hentries'
  obtain ⟨p, hp, rfl⟩ := requireString_spec hprogramId
  obtain ⟨p', hp', rfl⟩ := requiredString_spec (requiredMatching_spec hprogramId').1
  obtain rfl := string_injective (Option.some.inj (hp.symm.trans hp'))
  obtain ⟨q, hq, hshapeProgramId, hraw⟩ :=
    shape_paired (canonical_member hcanonical hshape₀) hshape
  obtain rfl := comparison_eq hcomparison
  exact {
    trustCaseId := same_text graphicOnly_trustCaseId graphicOnly_trustCaseId htrustCaseId
      htrustCaseId'
    version := same_text graphicOnly_safeVersion graphicOnly_date hversion hversion'
    fixtureId := hfixtureId
    mode := hmode
    stdin := hstdin
    dataSetIds := hdataSetIds
    expectedOutputFixtureId := houtput
    programArgs := programArgs_paired hargs hargs'
    profileId := hprofileId
    variableValues := hentries
    strategy := (text_of_isOneOf hstrategy').symm
    policyVersion := (text_of_isOneOf hpolicy').symm
    artifactName := artifactName_paired hartifact hartifact'
    programId := ⟨p, hp, rfl, rfl⟩
    profileDescription := ⟨t, by rw [hprofile₀]; exact ht, hdescription, rfl⟩
    shape := ⟨q, by rw [hshape₀]; exact hq, hshapeProgramId, hraw⟩ }

/-! The identities of one trust case. -/

theorem trimsAlike_iff {value : Option Json} {t : Text} (h : value = some (.string t)) :
    TrimsAlike value ↔ trim t = strip t := by
  refine ⟨fun halike => halike t h, fun htrim s hs => ?_⟩
  obtain rfl := string_injective (Option.some.inj (h.symm.trans hs))
  exact htrim

theorem isTrim_iff {value : Option Json} {t : Text} (h : value = some (.string t)) :
    IsTrim value ↔ trim t = t := by
  refine ⟨fun hself => hself t h, fun htrim s hs => ?_⟩
  obtain rfl := string_injective (Option.some.inj (h.symm.trans hs))
  exact htrim

/-- No name of the object occurs twice. -/
def NamesApart (v : Json) : Prop :=
  ∀ members, v = .object members → (members.map Prod.fst).Nodup

theorem member_eq_of_toAny {v w x y : Json} (hv : NamesApart v) (hw : NamesApart w) (name : String)
    (h : toAny v = toAny w) (hx : member v name = some x) (hy : member w name = some y) :
    toAny x = toAny y := by
  cases v with
  | object members =>
      cases w with
      | object members' =>
          have hsame := congrArg (fun value => member value name) h
          simp only [member_toAny (hv _ rfl), member_toAny (hw _ rfl), hx, hy,
            Option.map_some, Option.some.injEq] at hsame
          exact hsame
      | _ => cases hy
  | _ => cases hx

def identityFields : List String :=
  ["trustCaseId", "version", "programId", "catalogVersion", "catalogHash",
    "sourceReferenceFixtureId", "sourceReferenceMode", "sourceReference", "controlledInput",
    "runtimeProgramArgs", "runtime", "environmentProfileId", "environmentProfile",
    "comparisonStrategy", "comparisonPolicyVersion", "supportedProgramShape",
    "evidenceArtifactName"]

theorem namesApart_of_fields {fields : List String} (h : (fields.map String.toList).Nodup)
    {members : List (Text × Json)} (hfields : members.map Prod.fst = fields.map String.toList) :
    NamesApart (.object members) := by
  rintro _ ⟨⟩
  exact hfields ▸ h

theorem identityFields_nodup : (identityFields.map String.toList).Nodup := by
  decide

theorem identity_eq_iff {raw : Json} {c : TrustCase} {e : TrustCaseCatalogEntry}
    (h : Paired raw c e) (version version' hash : Text) :
    toAny (identityPayload c version hash) = toAny (identity e version' hash) ↔
      version = version' ∧ ReadAlike raw := by
  obtain ⟨p, hp, hprogramId, hprogramId'⟩ := h.programId
  obtain ⟨t, ht, hdescription, hdescription'⟩ := h.profileDescription
  obtain ⟨q, hq, hshape, hshape'⟩ := h.shape
  constructor
  · intro hsame
    have hpayload : NamesApart (identityPayload c version hash) :=
      namesApart_of_fields identityFields_nodup rfl
    have hidentity : NamesApart (identity e version' hash) :=
      namesApart_of_fields identityFields_nodup rfl
    have hlookup (name : String) {x y : Json}
        (hx : member (identityPayload c version hash) name = some x)
        (hy : member (identity e version' hash) name = some y) : toAny x = toAny y :=
      member_eq_of_toAny hpayload hidentity name hsame hx hy
    have hprofileNames : (["profileId", "description", "variables"].map String.toList).Nodup := by
      decide
    have hshapeNames : (["language", "programId", "supportedSubset"].map String.toList).Nodup := by
      decide
    have hversion := Json.string.inj (hlookup "catalogVersion" rfl rfl)
    have hprogram := Json.string.inj (hlookup "programId" rfl rfl)
    have hprofile := Json.string.inj (member_eq_of_toAny
      (namesApart_of_fields hprofileNames rfl) (namesApart_of_fields hprofileNames rfl)
      "description" (hlookup "environmentProfile" rfl rfl) rfl rfl)
    have hshapes := hlookup "supportedProgramShape" rfl rfl
    rw [hshape'] at hshapes
    have hshapeProgram := Json.string.inj (member_eq_of_toAny
      (namesApart_of_fields hshapeNames rfl) (namesApart_of_fields hshapeNames rfl)
      "programId" hshapes rfl rfl)
    refine ⟨hversion, ?_, ?_, ?_⟩
    · rw [trimsAlike_iff hp, ← hprogramId, ← hprogramId', hprogram]
    · rw [trimsAlike_iff ht, ← hdescription, ← hdescription', hprofile]
    · rw [isTrim_iff hq, ← hshape, hshapeProgram]
  · rintro ⟨rfl, halike⟩
    have hprogram : c.programId = e.programId := by
      rw [hprogramId, hprogramId', (trimsAlike_iff hp).mp halike.programId]
    have hprofile : c.environmentProfile.description = e.environmentProfileDescription := by
      rw [hdescription, hdescription', (trimsAlike_iff ht).mp halike.profileDescription]
    have hshapeProgram : c.supportedProgramShape.programId = q :=
      hshape.trans ((isTrim_iff hq).mp halike.shapeProgramId)
    unfold identityPayload identity
    rw [h.trustCaseId, h.version, h.fixtureId, h.mode, h.stdin, h.dataSetIds,
      h.expectedOutputFixtureId, h.programArgs, h.profileId, h.variableValues, h.strategy,
      h.policyVersion, h.artifactName, hprogram, hprofile, hshape', hshapeProgram]

/-! The names of the document and of the payloads. -/

theorem isAscii_of_all {t : Text} (h : (t.all fun c => decide (c.toNat < 128)) = true) :
    IsAscii t := fun c hc => of_decide_eq_true (List.all_eq_true.mp h c hc)

theorem asciiNames_object {members : List (Text × Json)}
    (hnames : ((members.map Prod.fst).all fun name => name.all fun c => decide (c.toNat < 128)) =
      true)
    (hvalues : ∀ m ∈ members, AsciiNames m.2) : AsciiNames (.object members) :=
  (asciiNamesMembers_iff members).mpr fun m hm =>
    ⟨isAscii_of_all (List.all_eq_true.mp hnames m.1 (List.mem_map_of_mem hm)), hvalues m hm⟩

theorem asciiNames_textItems (ts : List Text) : AsciiNames (textItems ts) := by
  refine (asciiNamesItems_iff _).mpr fun item hitem => ?_
  obtain ⟨t, -, rfl⟩ := List.mem_map.mp hitem
  trivial

theorem isAscii_of_key {t : Text} (h : isProfileVariableKey t = true) : IsAscii t := by
  have hgraphic : t.all isGraphic = true := graphic_of_capitalThen (fun c hc => by
    rcases Bool.or_eq_true .. ▸ hc with hc | hc
    · exact isGraphic_of_upperOrDigit hc
    · rw [eq_of_beq hc]; decide) h
  intro c hc
  have hrange := List.all_eq_true.mp hgraphic c hc
  rw [isGraphic, Bool.and_eq_true, decide_eq_true_eq, decide_eq_true_eq] at hrange
  omega

theorem asciiNames_textEntries {entries : List (Text × Text)}
    (h : ∀ entry ∈ entries, isProfileVariableKey entry.1 = true) :
    AsciiNames (textEntries entries) := by
  refine (asciiNamesMembers_iff _).mpr fun m hm => ?_
  obtain ⟨entry, hentry, rfl⟩ := List.mem_map.mp hm
  exact ⟨isAscii_of_key (h entry hentry), trivial⟩

theorem asciiNames_textOrNull (t : Option Text) : AsciiNames (textOrNull t) := by
  cases t <;> trivial

theorem asciiNames_identityPayload {c : TrustCase}
    (h : ∀ entry ∈ c.environmentProfile.variableValues, isProfileVariableKey entry.1 = true)
    (version hash : Text) : AsciiNames (identityPayload c version hash) := by
  have hleaf (t : Text) : AsciiNames (.string t) := trivial
  refine asciiNames_object rfl ?_
  simp only [List.forall_mem_cons, hleaf, asciiNames_textItems, true_and, List.not_mem_nil,
    false_imp_iff, implies_true, and_true]
  refine ⟨asciiNames_object rfl ?_, asciiNames_object rfl ?_, asciiNames_object rfl ?_,
    asciiNames_object rfl ?_, asciiNames_object rfl ?_⟩
  · simp [hleaf]
  · simp [hleaf, asciiNames_textItems, asciiNames_textOrNull]
  · simp [asciiNames_textItems]
  · simp [hleaf, asciiNames_textEntries h]
  · simp [hleaf, asciiNames_textItems]

theorem find?_of_mem {members : List (Text × Json)} (h : Sorted members) {m : Text × Json}
    (hm : m ∈ members) : members.find? (fun other => other.1 == m.1) = some m := by
  induction members with
  | nil => cases hm
  | cons first members ih =>
      obtain ⟨hfirst, hrest⟩ := List.pairwise_cons.mp h
      rcases List.mem_cons.mp hm with rfl | hm
      · exact List.find?_cons_of_pos (by simp)
      · have hlt := hfirst m.1 (List.mem_map_of_mem hm)
        rw [List.find?_cons_of_neg (by simpa using hlt.ne), ih hrest hm]

/-- An object with the allowed fields has ASCII names if what it has under
these fields has. -/
theorem asciiNames_fields {allowed : List String} {v : Json} (hcanonical : Canonical v)
    (hkeys : assertNoExtraKeys allowed v = true)
    (hallowed : (allowed.all fun word => word.toList.all fun c => decide (c.toNat < 128)) = true)
    (hvalues : ∀ word ∈ allowed, ∀ w, member v word = some w → AsciiNames w) :
    AsciiNames v := by
  unfold assertNoExtraKeys at hkeys
  split at hkeys
  · next members =>
      refine (asciiNamesMembers_iff members).mpr fun m hm => ?_
      obtain ⟨word, hword, heq⟩ := List.any_eq_true.mp (List.all_eq_true.mp hkeys m hm)
      refine ⟨eq_of_beq heq ▸ isAscii_of_all (List.all_eq_true.mp hallowed word hword),
        hvalues word hword m.2 ?_⟩
      rw [member, eq_of_beq heq, find?_of_mem hcanonical.1 hm]
      rfl
  · cases hkeys

theorem asciiNames_of_string {value : Option Json} {s : Text} (h : requireString value = some s)
    (w : Json) (hw : value = some w) : AsciiNames w := by
  obtain ⟨t, rfl, -⟩ := requireString_spec h
  exact Option.some.inj hw ▸ trivial

theorem asciiNames_of_matching {pattern : Text → Bool} {value : Option Json} {s : Text}
    (h : requireStringMatching pattern value = some s) (w : Json) (hw : value = some w) :
    AsciiNames w :=
  asciiNames_of_string (requireStringMatching_spec h).1 w hw

theorem asciiNames_of_text {t : String} {value : Option Json} (h : isText t value = true)
    (w : Json) (hw : value = some w) : AsciiNames w := by
  rw [isText_spec h] at hw
  exact Option.some.inj hw ▸ trivial

theorem asciiNames_of_texts {accepts : Text → Bool} {value : Option Json} {items : List Json}
    {ts : List Text} (hitems : elements value = some items) (h : texts accepts items = some ts)
    (w : Json) (hw : value = some w) : AsciiNames w := by
  rw [elements_spec hitems, texts_spec h] at hw
  exact Option.some.inj hw ▸ asciiNames_textItems ts

theorem asciiNames_sourceReference {raw : Json} {reference : TrustCaseSourceReference}
    (hcanonical : Canonical raw) (h : parseSourceReference raw = some reference) :
    AsciiNames raw := by
  simp only [parseSourceReference, bind_eq_some_iff, guard_eq_some_iff, exists_const] at h
  obtain ⟨hkeys, _, hfixtureId, _, hmode, -⟩ := h
  refine asciiNames_fields hcanonical hkeys (by decide) ?_
  simp only [List.forall_mem_cons, List.not_mem_nil, false_imp_iff, implies_true, and_true]
  exact ⟨asciiNames_of_matching hfixtureId, asciiNames_of_matching hmode⟩

theorem asciiNames_controlledInput {raw : Json} {input : TrustCaseControlledInput}
    (hcanonical : Canonical raw) (h : parseControlledInput raw = some input) :
    AsciiNames raw := by
  simp only [parseControlledInput, bind_eq_some_iff, guard_eq_some_iff, exists_const] at h
  obtain ⟨hkeys, _, hstdin, _, hitems, -, _, hdataSetIds, -, _, hfixtureId, -⟩ := h
  refine asciiNames_fields hcanonical hkeys (by decide) ?_
  simp only [List.forall_mem_cons, List.not_mem_nil, false_imp_iff, implies_true, and_true]
  refine ⟨fun w hw => ?_, asciiNames_of_texts hitems hdataSetIds,
    asciiNames_of_matching hfixtureId⟩
  rw [hw] at hstdin
  cases w with
  | array items => cases hstdin
  | object members => cases hstdin
  | _ => trivial

theorem asciiNames_runtime {raw : Json} {args : List Text} (hcanonical : Canonical raw)
    (h : parseRuntime raw = some args) : AsciiNames raw := by
  simp only [parseRuntime, bind_eq_some_iff, guard_eq_some_iff, exists_const] at h
  obtain ⟨hkeys, _, hitems, -, hargs⟩ := h
  refine asciiNames_fields hcanonical hkeys (by decide) ?_
  simp only [List.forall_mem_cons, List.not_mem_nil, false_imp_iff, implies_true, and_true]
  exact asciiNames_of_texts hitems hargs

theorem asciiNames_environmentProfile {raw : Json} {profile : TrustCaseEnvironmentProfile}
    (hcanonical : Canonical raw) (h : parseEnvironmentProfile raw = some profile) :
    AsciiNames raw ∧ ∀ entry ∈ profile.variableValues, isProfileVariableKey entry.1 = true := by
  simp only [parseEnvironmentProfile, bind_eq_some_iff, guard_eq_some_iff, exists_const,
    Option.pure_def, Option.some.injEq] at h
  obtain ⟨hkeys, _, hprofileId, _, hdescription, entries, hentries, rfl⟩ := h
  obtain ⟨hvalue, hnames⟩ := parseVariables_spec hentries
  refine ⟨asciiNames_fields hcanonical hkeys (by decide) ?_, hnames⟩
  simp only [List.forall_mem_cons, List.not_mem_nil, false_imp_iff, implies_true, and_true]
  refine ⟨asciiNames_of_matching hprofileId, asciiNames_of_string hdescription, fun w hw => ?_⟩
  rw [hvalue] at hw
  exact Option.some.inj hw ▸ asciiNames_textEntries hnames

theorem asciiNames_comparison {raw : Json} {comparison : TrustCaseComparison}
    (hcanonical : Canonical raw) (h : parseComparison raw = some comparison) :
    AsciiNames raw := by
  simp only [parseComparison, bind_eq_some_iff, guard_eq_some_iff, exists_const] at h
  obtain ⟨hkeys, hstrategy, hpolicy, -⟩ := h
  refine asciiNames_fields hcanonical hkeys (by decide) ?_
  simp only [List.forall_mem_cons, List.not_mem_nil, false_imp_iff, implies_true, and_true]
  exact ⟨asciiNames_of_text hstrategy, asciiNames_of_text hpolicy⟩

theorem asciiNames_shape {programId : Text} {raw : Json} {shape : TrustCaseSupportedProgramShape}
    (hcanonical : Canonical raw) (h : parseSupportedProgramShape programId raw = some shape) :
    AsciiNames raw := by
  obtain ⟨t, -, -, rfl⟩ := shape_paired hcanonical h
  refine asciiNames_object rfl ?_
  simp [asciiNames_textItems, AsciiNames]

theorem asciiNames_evidence {raw : Json} {name : Text} (hcanonical : Canonical raw)
    (h : parseEvidenceIdentity raw = some name) : AsciiNames raw := by
  simp only [parseEvidenceIdentity, bind_eq_some_iff, guard_eq_some_iff, exists_const] at h
  obtain ⟨hkeys, hkind, hname⟩ := h
  refine asciiNames_fields hcanonical hkeys (by decide) ?_
  simp only [List.forall_mem_cons, List.not_mem_nil, false_imp_iff, implies_true, and_true]
  exact ⟨asciiNames_of_text hkind, asciiNames_of_matching hname⟩

/-- A member that is parsed has ASCII names if what is parsed of it has. -/
theorem asciiNames_of_bind {α : Type} {value : Option Json} {parse : Json → Option α} {a : α}
    (h : value.bind parse = some a)
    (hparse : ∀ raw, value = some raw → parse raw = some a → AsciiNames raw) (w : Json)
    (hw : value = some w) : AsciiNames w := by
  rw [hw] at h
  exact hparse w hw h

theorem asciiNames_trustCase {raw : Json} {c : TrustCase} (hcanonical : Canonical raw)
    (h : parseTrustCase raw = some c) :
    AsciiNames raw ∧
      ∀ entry ∈ c.environmentProfile.variableValues, isProfileVariableKey entry.1 = true := by
  simp only [parseTrustCase, bind_eq_some_iff, guard_eq_some_iff, exists_const, Option.pure_def,
    Option.some.injEq] at h
  obtain ⟨hkeys, _, htrustCaseId, _, hversion, _, hprogramId, _, htitle, _, hdescription, _,
    hflag, _, hreference, _, hinput, _, hargs, _, hprofile, _, hcomparison, _, hshape, _,
    hartifact, rfl⟩ := h
  have hchild {name : String} {w : Json} (hw : member raw name = some w) : Canonical w :=
    canonical_member hcanonical hw
  constructor
  · refine asciiNames_fields hcanonical hkeys (by decide) ?_
    simp only [trustCaseFields, List.forall_mem_cons, List.not_mem_nil, false_imp_iff,
      implies_true, and_true]
    refine ⟨asciiNames_of_matching htrustCaseId, asciiNames_of_matching hversion,
      asciiNames_of_string hprogramId, asciiNames_of_string htitle,
      asciiNames_of_string hdescription, fun w hw => ?_,
      asciiNames_of_bind hreference fun _ hw => asciiNames_sourceReference (hchild hw),
      asciiNames_of_bind hinput fun _ hw => asciiNames_controlledInput (hchild hw),
      asciiNames_of_bind hargs fun _ hw => asciiNames_runtime (hchild hw),
      asciiNames_of_bind hprofile fun _ hw h => (asciiNames_environmentProfile (hchild hw) h).1,
      asciiNames_of_bind hcomparison fun _ hw => asciiNames_comparison (hchild hw),
      asciiNames_of_bind hshape fun _ hw => asciiNames_shape (hchild hw),
      asciiNames_of_bind hartifact fun _ hw => asciiNames_evidence (hchild hw)⟩
    rw [hw] at hflag
    cases w with
    | array items => cases hflag
    | object members => cases hflag
    | _ => trivial
  · obtain ⟨profile, hmember, hparsed⟩ := Option.bind_eq_some_iff.mp hprofile
    exact (asciiNames_environmentProfile (hchild hmember) hparsed).2

end C2c.TrustCases.SharedIdentities
