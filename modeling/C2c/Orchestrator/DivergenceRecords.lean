import C2c.Library.JavaObject
import C2c.Library.Trimming
import C2c.Orchestrator.DivergenceDecisions

/-!
Accepted divergence decisions are in normal form and found again in their records.
-/

namespace C2c.Orchestrator.DivergenceRecords

open C2c.Library
open C2c.Library.JavaText
open C2c.Library.JavaObject (bind_eq_ok_iff)
open C2c.Library.PythonText
open C2c.Library.PythonJson
open C2c.Library.PythonNumbers
open C2c.Library.Trimming
open C2c.Orchestrator.DivergenceDecisions

section Texts

variable {t : Text} {value : Json} {field : String}

/-- A text that `_non_empty_text` leaves as it is. -/
structure Clean (t : Text) : Prop where
  stripped : strip t = t
  filled : t ≠ []

theorem clean_strip (h : strip t ≠ []) : Clean (strip t) where
  stripped := trimmed_trimmed isSpace t
  filled := h

theorem clean_of_nonEmptyText (h : nonEmptyText value field = .ok t) : Clean t := by
  unfold nonEmptyText at h
  dsimp only at h
  split_ifs at h with hempty
  cases h
  exact clean_strip hempty

theorem nonEmptyText_of_clean (h : Clean t) : nonEmptyText (.text t) field = .ok t := by
  have htruthy : truthy (.text t) = true := by
    simpa [truthy] using h.filled
  rw [nonEmptyText, strOrEmpty, if_pos htruthy, str, h.stripped]
  exact if_neg h.filled

theorem clean_of_strippedText (h : strippedText value = some t) : Clean t := by
  unfold strippedText at h
  split at h
  · split_ifs at h with hempty
    cases h
    exact clean_strip hempty
  · cases h

theorem strippedText_of_clean (h : Clean t) : strippedText (.text t) = some t := by
  rw [strippedText, h.stripped, if_neg h.filled]

/-- An optional text as it stands in an object. -/
def presentOr (t : Option Text) : Json :=
  (t.map Json.text).getD .null

theorem strippedText_presentOr {f : Option Text} (h : ∀ t, f = some t → Clean t) :
    strippedText (presentOr f) = f := by
  cases f with
  | none => rfl
  | some t => exact strippedText_of_clean (h t rfl)

theorem mapM_map_ok {A B ε : Type} {f : B → Except ε A} {g : A → B} {l : List A}
    (h : ∀ a ∈ l, f (g a) = .ok a) : (l.map g).mapM f = .ok l := by
  induction l with
  | nil => rfl
  | cons a l ih =>
      obtain ⟨ha, hl⟩ := List.forall_mem_cons.mp h
      rw [List.map_cons, List.mapM_cons, ha, bind_eq_ok_iff]
      exact ⟨a, rfl, bind_eq_ok_iff.mpr ⟨l, ih hl, rfl⟩⟩

theorem forall_of_mapM_ok {A B ε : Type} {f : B → Except ε A} {p : A → Prop}
    (hf : ∀ b a, f b = .ok a → p a) {l : List B} {l' : List A} (h : l.mapM f = .ok l') :
    ∀ a ∈ l', p a := by
  induction l generalizing l' with
  | nil =>
      cases h
      exact fun _ ha => absurd ha List.not_mem_nil
  | cons b l ih =>
      rw [List.mapM_cons] at h
      obtain ⟨a, ha, h⟩ := bind_eq_ok_iff.mp h
      obtain ⟨rest, hrest, h⟩ := bind_eq_ok_iff.mp h
      cases h
      exact List.forall_mem_cons.mpr ⟨hf b a ha, ih hrest⟩

end Texts

section References

variable {whole : Text → Int} {ref : ArtifactReference} {value : Json} {field : String}

/-- The optional texts of a reference, by their names. -/
def optionalOf (f : String → Option Text) : List (Text × Text) :=
  optionalKeys.filterMap fun key => (f key).map fun t => (key.toList, t)

/-- A reference as `_artifact_reference_payload` gives it. -/
structure NormalReference (ref : ArtifactReference) : Prop where
  uri : Clean ref.uri
  sha256 : Clean ref.sha256
  digest : ref.sha256.length = 64 ∧ ref.sha256.all isHexDigit = true
  optional : ∃ f : String → Option Text, (∀ key t, f key = some t → Clean t) ∧
    ref.optional = optionalOf f

theorem byteSizeOf_iff {n : Nat} :
    byteSizeOf whole value field = .ok n ↔ intOf whole (PythonJson.get value "byteSize") = .ok n := by
  unfold byteSizeOf
  cases intOf whole (PythonJson.get value "byteSize") with
  | error e => cases e <;> simp
  | ok m =>
      dsimp only
      split_ifs with hneg
      · constructor
        · exact nofun
        · intro h
          have := Except.ok.inj h
          omega
      · simp only [Except.ok.injEq]
        omega

theorem artifactReferencePayload_iff :
    artifactReferencePayload whole value field = .ok ref ↔
      isMapping value = true ∧
        nonEmptyText (PythonJson.get value "uri") (field ++ ".uri") = .ok ref.uri ∧
        nonEmptyText (PythonJson.get value "sha256") (field ++ ".sha256") = .ok ref.sha256 ∧
        (ref.sha256.length = 64 ∧ ref.sha256.all isHexDigit = true) ∧
        intOf whole (PythonJson.get value "byteSize") = .ok (ref.byteSize : Int) ∧
        ref.optional = optionalOf fun key => strippedText (PythonJson.get value key) := by
  unfold artifactReferencePayload
  by_cases hmapping : isMapping value = true
  · rw [if_pos hmapping]
    constructor
    · intro h
      obtain ⟨uri, huri, h⟩ := bind_eq_ok_iff.mp h
      obtain ⟨sha256, hsha256, h⟩ := bind_eq_ok_iff.mp h
      split_ifs at h with hdigest
      obtain ⟨byteSize, hsize, h⟩ := bind_eq_ok_iff.mp h
      cases h
      exact ⟨hmapping, huri, hsha256, hdigest, byteSizeOf_iff.mp hsize, rfl⟩
    · rintro ⟨-, huri, hsha256, hdigest, hsize, hoptional⟩
      refine bind_eq_ok_iff.mpr ⟨_, huri, bind_eq_ok_iff.mpr ⟨_, hsha256, ?_⟩⟩
      rw [if_pos hdigest]
      refine bind_eq_ok_iff.mpr ⟨_, byteSizeOf_iff.mpr hsize, ?_⟩
      change Except.ok _ = Except.ok ref
      rw [← optionalOf, ← hoptional]
  · rw [if_neg hmapping]
    constructor
    · exact nofun
    · exact fun h => absurd h.1 hmapping

theorem normal_of_payload (h : artifactReferencePayload whole value field = .ok ref) :
    NormalReference ref := by
  obtain ⟨-, huri, hsha256, hdigest, -, hoptional⟩ := artifactReferencePayload_iff.mp h
  exact ⟨clean_of_nonEmptyText huri, clean_of_nonEmptyText hsha256, hdigest, _,
    fun _ _ => clean_of_strippedText, hoptional⟩

/-- An optional text of a reference is found under its name. -/
theorem find?_optional (f : String → Option Text) {key : String} {keys : List String}
    (hkey : key ∈ keys) :
    ((keys.filterMap fun key => (f key).map fun t => (key.toList, t)).map
      fun member => (member.1, Json.text member.2)).find? (fun member => member.1 == key.toList) =
      (f key).map fun t => (key.toList, Json.text t) := by
  have hfirst : ∀ member ∈ (keys.filterMap fun key => (f key).map fun t => (key.toList, t)).map
      fun member => (member.1, Json.text member.2), (member.1 == key.toList) = true →
      (f key).map (fun t => (key.toList, Json.text t)) = some member := by
    intro member hmember hname
    simp only [List.mem_map, List.mem_filterMap, Option.map_eq_some_iff] at hmember
    obtain ⟨_, ⟨other, -, t, ht, rfl⟩, rfl⟩ := hmember
    obtain rfl : other = key := String.toList_inj.mp (beq_iff_eq.mp hname)
    rw [ht, Option.map_some]
  cases hfound : List.find? _ _ with
  | some member =>
      exact (hfirst member (List.mem_of_find?_eq_some hfound)
        (List.find?_some (p := fun member : Text × Json => member.1 == key.toList) hfound)).symm
  | none =>
      cases hf : f key with
      | none => rfl
      | some t =>
          have hnone := List.find?_eq_none.mp hfound (key.toList, Json.text t) (by
            simp only [List.mem_map, List.mem_filterMap, Option.map_eq_some_iff]
            exact ⟨(key.toList, t), ⟨key, hkey, t, hf, rfl⟩, rfl⟩)
          simp at hnone

theorem get_optional {f : String → Option Text} (hf : ref.optional = optionalOf f) {key : String}
    (hkey : key ∈ optionalKeys) : PythonJson.get ref.toJson key = presentOr (f key) := by
  have hnames : ∀ key ∈ optionalKeys, ¬ ("uri".toList == key.toList) = true ∧
      ¬ ("sha256".toList == key.toList) = true ∧ ¬ ("byteSize".toList == key.toList) = true := by
    decide
  obtain ⟨huri, hsha256, hsize⟩ := hnames key hkey
  have hskip (name : Text) (value : Json) (rest : List (Text × Json))
      (hname : ¬ (name == key.toList) = true) :
      ((name, value) :: rest).find? (fun member => member.1 == key.toList) =
        rest.find? fun member => member.1 == key.toList :=
    List.find?_cons_of_neg (p := fun member : Text × Json => member.1 == key.toList) hname
  rw [ArtifactReference.toJson, PythonJson.get, membersOf, hskip _ _ _ huri, hskip _ _ _ hsha256,
    hskip _ _ _ hsize, hf, optionalOf, find?_optional f hkey]
  cases f key <;> rfl

/-- A reference in normal form is found again in its object. -/
theorem payload_toJson (h : NormalReference ref) :
    artifactReferencePayload whole ref.toJson field = .ok ref := by
  obtain ⟨f, hclean, hf⟩ := h.optional
  refine artifactReferencePayload_iff.mpr ⟨rfl, nonEmptyText_of_clean h.uri,
    nonEmptyText_of_clean h.sha256, h.digest, intOf_natText whole _, ?_⟩
  rw [hf, optionalOf, optionalOf]
  apply List.filterMap_congr
  intro key hkey
  rw [get_optional hf hkey, strippedText_presentOr (hclean key)]

end References

section Records

variable {whole : Text → Int} {d : IntentionalDivergenceDecision} {payload : Json}

structure NormalReviewer (reviewer : Reviewer) : Prop where
  reviewerId : Clean reviewer.reviewerId
  displayName : Clean reviewer.displayName
  role : Clean reviewer.role

structure NormalRationale (rationale : Rationale) : Prop where
  summary : Clean rationale.summary
  technicalBasis : Clean rationale.technicalBasis
  businessImpact : Clean rationale.businessImpact
  followUp : ∀ t, rationale.followUp = some t → Clean t

/-- A decision as `from_mapping` gives it. -/
structure NormalDecision (d : IntentionalDivergenceDecision) : Prop where
  decisionId : Clean d.decisionId
  runId : Clean d.runId
  workflowId : Clean d.workflowId
  comparisonResultRef : NormalReference d.comparisonResultRef
  reviewer : NormalReviewer d.reviewer
  rationale : NormalRationale d.rationale
  linkedEvidenceRefs : ∀ ref ∈ d.linkedEvidenceRefs, NormalReference ref
  affectedOutputs : ∀ output ∈ d.affectedOutputs, Clean output
  invalidationTriggers : ∀ trigger ∈ d.invalidationTriggers, Clean trigger
  decidedAt : Clean d.decidedAt
  expiresAt : ∀ t, d.expiresAt = some t → Clean t
  updatedAt : ∀ t, d.updatedAt = some t → Clean t

theorem normal_of_validateReviewer {value : Json} {reviewer : Reviewer}
    (h : validateReviewer value = .ok reviewer) : NormalReviewer reviewer := by
  unfold validateReviewer at h
  split_ifs at h
  obtain ⟨reviewerId, hid, h⟩ := bind_eq_ok_iff.mp h
  obtain ⟨displayName, hname, h⟩ := bind_eq_ok_iff.mp h
  obtain ⟨role, hrole, h⟩ := bind_eq_ok_iff.mp h
  cases h
  exact ⟨clean_of_nonEmptyText hid, clean_of_nonEmptyText hname, clean_of_nonEmptyText hrole⟩

theorem validateReviewer_toJson {reviewer : Reviewer} (h : NormalReviewer reviewer) :
    validateReviewer reviewer.toJson = .ok reviewer := by
  rw [validateReviewer, if_pos (show isMapping reviewer.toJson = true from rfl)]
  exact bind_eq_ok_iff.mpr ⟨_, nonEmptyText_of_clean h.reviewerId, bind_eq_ok_iff.mpr
    ⟨_, nonEmptyText_of_clean h.displayName, bind_eq_ok_iff.mpr
      ⟨_, nonEmptyText_of_clean h.role, rfl⟩⟩⟩

theorem normal_of_validateRationale {value : Json} {rationale : Rationale}
    (h : validateRationale value = .ok rationale) : NormalRationale rationale := by
  unfold validateRationale at h
  split_ifs at h
  obtain ⟨summary, hsummary, h⟩ := bind_eq_ok_iff.mp h
  obtain ⟨technicalBasis, hbasis, h⟩ := bind_eq_ok_iff.mp h
  obtain ⟨businessImpact, himpact, h⟩ := bind_eq_ok_iff.mp h
  cases h
  exact ⟨clean_of_nonEmptyText hsummary, clean_of_nonEmptyText hbasis,
    clean_of_nonEmptyText himpact, fun _ => clean_of_strippedText⟩

theorem get_followUp (rationale : Rationale) :
    PythonJson.get rationale.toJson "followUp" = presentOr rationale.followUp := by
  rw [Rationale.toJson]
  cases rationale.followUp <;> rfl

theorem validateRationale_toJson {rationale : Rationale} (h : NormalRationale rationale) :
    validateRationale rationale.toJson = .ok rationale := by
  rw [validateRationale, if_pos (show isMapping rationale.toJson = true from rfl), get_followUp, strippedText_presentOr h.followUp]
  exact bind_eq_ok_iff.mpr ⟨_, nonEmptyText_of_clean h.summary, bind_eq_ok_iff.mpr
    ⟨_, nonEmptyText_of_clean h.technicalBasis, bind_eq_ok_iff.mpr
      ⟨_, nonEmptyText_of_clean h.businessImpact, rfl⟩⟩⟩

theorem clean_of_optionalText {field : String} {text : Option Text}
    (h : optionalText payload field = .ok text) : ∀ t, text = some t → Clean t := by
  unfold optionalText at h
  split at h
  · cases h
    exact nofun
  · cases htext : nonEmptyText (PythonJson.get payload field) field with
    | error e => rw [htext] at h; cases h
    | ok t =>
        rw [htext] at h
        cases h
        rintro _ ⟨⟩
        exact clean_of_nonEmptyText htext

theorem optionalText_of_clean {field : String} {text : Option Text}
    (hget : PythonJson.get payload field = presentOr text) (h : ∀ t, text = some t → Clean t) :
    optionalText payload field = .ok text := by
  rw [optionalText, hget]
  cases text with
  | none => rfl
  | some t =>
      change (nonEmptyText (.text t) field).map some = _
      rw [nonEmptyText_of_clean (h t rfl)]
      rfl

theorem normal_of_fromMapping (h : fromMapping whole payload = .ok d) :
    NormalDecision d ∧ postInit whole d = .ok () := by
  unfold fromMapping at h
  obtain ⟨refsRaw, -, h⟩ := bind_eq_ok_iff.mp h
  obtain ⟨outputsRaw, -, h⟩ := bind_eq_ok_iff.mp h
  obtain ⟨triggersRaw, -, h⟩ := bind_eq_ok_iff.mp h
  obtain ⟨decisionId, hdecision, h⟩ := bind_eq_ok_iff.mp h
  obtain ⟨runId, hrun, h⟩ := bind_eq_ok_iff.mp h
  obtain ⟨workflowId, hworkflow, h⟩ := bind_eq_ok_iff.mp h
  obtain ⟨ref, href, h⟩ := bind_eq_ok_iff.mp h
  obtain ⟨reviewer, hreviewer, h⟩ := bind_eq_ok_iff.mp h
  obtain ⟨rationale, hrationale, h⟩ := bind_eq_ok_iff.mp h
  obtain ⟨refs, hrefs, h⟩ := bind_eq_ok_iff.mp h
  obtain ⟨outputs, houtputs, h⟩ := bind_eq_ok_iff.mp h
  obtain ⟨triggers, htriggers, h⟩ := bind_eq_ok_iff.mp h
  obtain ⟨decidedAt, hdecided, h⟩ := bind_eq_ok_iff.mp h
  obtain ⟨expiresAt, hexpires, h⟩ := bind_eq_ok_iff.mp h
  obtain ⟨updatedAt, hupdated, h⟩ := bind_eq_ok_iff.mp h
  obtain ⟨⟨⟩, hinit, h⟩ := bind_eq_ok_iff.mp h
  cases h
  exact ⟨
    { decisionId := clean_of_nonEmptyText hdecision
      runId := clean_of_nonEmptyText hrun
      workflowId := clean_of_nonEmptyText hworkflow
      comparisonResultRef := normal_of_payload href
      reviewer := normal_of_validateReviewer hreviewer
      rationale := normal_of_validateRationale hrationale
      linkedEvidenceRefs := forall_of_mapM_ok (fun _ _ => normal_of_payload) hrefs
      affectedOutputs := forall_of_mapM_ok (fun _ _ => clean_of_nonEmptyText) houtputs
      invalidationTriggers := forall_of_mapM_ok (fun _ _ => clean_of_nonEmptyText) htriggers
      decidedAt := clean_of_nonEmptyText hdecided
      expiresAt := clean_of_optionalText hexpires
      updatedAt := clean_of_optionalText hupdated }, hinit⟩

theorem get_expiresAt (d : IntentionalDivergenceDecision) :
    PythonJson.get d.toDict "expiresAt" = presentOr d.expiresAt := by
  rw [IntentionalDivergenceDecision.toDict]
  cases d.expiresAt <;> cases d.updatedAt <;> rfl

theorem get_updatedAt (d : IntentionalDivergenceDecision) :
    PythonJson.get d.toDict "updatedAt" = presentOr d.updatedAt := by
  rw [IntentionalDivergenceDecision.toDict]
  cases d.expiresAt <;> cases d.updatedAt <;> rfl

/-- A decision in normal form is found again in its record. -/
theorem fromMapping_toDict (h : NormalDecision d) (hinit : postInit whole d = .ok ()) :
    fromMapping whole d.toDict = .ok d := by
  have hrefs : (d.linkedEvidenceRefs.map (·.toJson)).mapM
      (fun ref => artifactReferencePayload whole ref "linkedEvidenceRefs[]") =
        .ok d.linkedEvidenceRefs :=
    mapM_map_ok fun ref href => payload_toJson (h.linkedEvidenceRefs ref href)
  have houtputs : (d.affectedOutputs.map Json.text).mapM
      (fun output => nonEmptyText output "affectedOutputs[]") = .ok d.affectedOutputs :=
    mapM_map_ok fun output houtput => nonEmptyText_of_clean (h.affectedOutputs output houtput)
  have htriggers : (d.invalidationTriggers.map Json.text).mapM
      (fun trigger => nonEmptyText trigger "invalidationTriggers[]") =
        .ok d.invalidationTriggers :=
    mapM_map_ok fun trigger htrigger =>
      nonEmptyText_of_clean (h.invalidationTriggers trigger htrigger)
  unfold fromMapping
  refine bind_eq_ok_iff.mpr ⟨_, rfl, bind_eq_ok_iff.mpr ⟨_, rfl, bind_eq_ok_iff.mpr ⟨_, rfl, ?_⟩⟩⟩
  refine bind_eq_ok_iff.mpr ⟨_, nonEmptyText_of_clean h.decisionId, ?_⟩
  refine bind_eq_ok_iff.mpr ⟨_, nonEmptyText_of_clean h.runId, ?_⟩
  refine bind_eq_ok_iff.mpr ⟨_, nonEmptyText_of_clean h.workflowId, ?_⟩
  refine bind_eq_ok_iff.mpr ⟨_, payload_toJson h.comparisonResultRef, ?_⟩
  refine bind_eq_ok_iff.mpr ⟨_, validateReviewer_toJson h.reviewer, ?_⟩
  refine bind_eq_ok_iff.mpr ⟨_, validateRationale_toJson h.rationale, ?_⟩
  refine bind_eq_ok_iff.mpr ⟨_, hrefs, bind_eq_ok_iff.mpr ⟨_, houtputs, ?_⟩⟩
  refine bind_eq_ok_iff.mpr ⟨_, htriggers, ?_⟩
  refine bind_eq_ok_iff.mpr ⟨_, nonEmptyText_of_clean h.decidedAt, ?_⟩
  refine bind_eq_ok_iff.mpr ⟨_, optionalText_of_clean (get_expiresAt d) h.expiresAt, ?_⟩
  refine bind_eq_ok_iff.mpr ⟨_, optionalText_of_clean (get_updatedAt d) h.updatedAt, ?_⟩
  exact bind_eq_ok_iff.mpr ⟨(), hinit, rfl⟩

end Records

end C2c.Orchestrator.DivergenceRecords
