import C2c.Learning.Analyzer
import Mathlib.Data.List.Perm.Subperm

/-!
What the analyzer finds: candidates the store accepts, whose patterns and
fingerprints do not depend on the order of its maps and grow with the input.
-/

namespace C2c.Learning.Findings

open C2c.Library.JavaText
open C2c.Library.Sha256
open C2c.Library.GoText
open C2c.Library.GoTime
open C2c.Library.JsonText
open C2c.Library.GoJson
open C2c.Library.GoCollections
open C2c.Harness.Events (allowedDataClasses allowedRedactionProfiles dataClassOther
  profileControlledByHarness isHexDigit firstFailing firstFailing_eq_none)
open C2c.Learning.Records
open C2c.Learning.Analyzer

section Accepted

/-- A hash that a reference may have. -/
structure IsHash (hash : Text) : Prop where
  length : byteLength hash = 64
  hex : hash.all isHexDigit = true

/-- What an accepted event hands on to its candidates. -/
structure Sourced (e : EventEnvelopeV0) : Prop where
  actor : trimSpace e.actor ≠ []
  capability : trimSpace e.capability ≠ []
  dataClass : e.dataClass ∈ allowedDataClasses
  redactionProfile : e.redactionProfile ∈ allowedRedactionProfiles
  inputHash : IsHash e.inputRef.sha256
  outputHash : IsHash e.outputRef.sha256

theorem isHash_of_valid {parses : Text → Bool} {r : EventReference}
    (h : r.validate parses = none) : IsHash r.sha256 := by
  unfold EventReference.validate at h
  rw [firstFailing_eq_none] at h
  simp only [List.forall_mem_cons, decide_eq_true_eq] at h
  obtain ⟨_, _, _, hlength, hhex, _⟩ := h
  exact ⟨hlength, hhex⟩

theorem sourced_of_valid {parses : Text → Bool} {e : EventEnvelopeV0}
    (h : e.validate parses = none) : Sourced e := by
  unfold EventEnvelopeV0.validate at h
  simp only [Option.orElse_eq_or, Option.or_eq_none_iff] at h
  obtain ⟨hhead, hinput, houtput, _⟩ := h
  rw [firstFailing_eq_none] at hhead
  simp only [List.forall_mem_cons, decide_eq_true_eq] at hhead
  obtain ⟨_, _, _, _, _, _, _, hactor, hcapability, hclass, hprofile, _⟩ := hhead
  exact ⟨hactor, hcapability, hclass, hprofile, isHash_of_valid hinput, isHash_of_valid houtput⟩

/-- What an accepted step of a ledger hands on to its candidates. -/
structure StepSourced (step : AgentTrajectoryEntry) : Prop where
  actor : trimSpace step.actor ≠ []
  capability : trimSpace step.capability ≠ []

theorem stepSourced_of_validateSteps {steps : List AgentTrajectoryEntry} {seen : List Int64}
    {index : Nat} (h : AgentTrajectoryLedgerV0.validateSteps seen index steps = none) :
    ∀ step ∈ steps, StepSourced step := by
  induction steps generalizing seen index with
  | nil => exact nofun
  | cons step steps ih =>
      simp only [AgentTrajectoryLedgerV0.validateSteps, Option.orElse_eq_or,
        Option.or_eq_none_iff] at h
      obtain ⟨hstep, hrest⟩ := h
      rw [firstFailing_eq_none] at hstep
      simp only [List.forall_mem_cons, decide_eq_true_eq] at hstep
      obtain ⟨_, _, _, hactor, hcapability, _⟩ := hstep
      exact List.forall_mem_cons.mpr ⟨⟨hactor, hcapability⟩, ih hrest⟩

theorem stepSourced_of_valid {l : AgentTrajectoryLedgerV0} (h : l.validate = none) :
    ∀ step ∈ l.steps.getD [], StepSourced step := by
  unfold AgentTrajectoryLedgerV0.validate at h
  simp only [Option.orElse_eq_or, Option.or_eq_none_iff] at h
  exact stepSourced_of_validateSteps h.2

/-- The thresholds of a policy that passes its checks. -/
structure Bounded (policy : LearningPolicy) : Prop where
  observationOnly : policy.observationOnly = true
  minConfidence : inUnit policy.detection.minConfidence = true
  repeatAction : 2 ≤ policy.detection.minOccurrencesRepeatAction
  repeatedFail : 2 ≤ policy.detection.minOccurrencesRepeatedFail

theorem bounded_of_valid {policy : LearningPolicy} (h : policy.validate = none) :
    Bounded policy := by
  unfold LearningPolicy.validate firstError at h
  simp only [Option.map_eq_none_iff, List.find?_eq_none, List.forall_mem_cons,
    Bool.not_eq_true', Bool.not_eq_false, decide_eq_true_eq] at h
  obtain ⟨_, _, _, _, honly, _, hrepeat, hfail, hconfidence, _⟩ := h
  exact ⟨honly, hconfidence, hrepeat, hfail⟩

theorem bounded_default : Bounded defaultLearningPolicy where
  observationOnly := rfl
  minConfidence := by decide +kernel
  repeatAction := by decide
  repeatedFail := by decide

/-- Whatever the policy file holds, the service works with a checked policy. -/
theorem bounded_load (read : Option LearningPolicy) :
    Bounded (loadLearningPolicyWithDefault read) := by
  cases read with
  | none => exact bounded_default
  | some policy =>
      by_cases h : policy.validate = none
      · rw [loadLearningPolicyWithDefault, if_pos h]
        exact bounded_of_valid h
      · rw [loadLearningPolicyWithDefault, if_neg h]
        exact bounded_default

theorem inUnit_confidence {a : PatternAnalyzer} (h : Bounded a.policy) (value : Numeral) :
    inUnit (a.confidence value) = true := by
  unfold PatternAnalyzer.confidence clamp
  split
  · exact h.minConfidence
  next hmin =>
  split
  · decide +kernel
  next hmax =>
  have hone : (numeral "1.0" (by decide)).value = 1 := by decide +kernel
  have hpos := h.minConfidence
  simp only [inUnit, Bool.and_eq_true, decide_eq_true_eq] at hpos ⊢
  rw [hone] at hmax
  exact ⟨Rat.le_trans hpos.1 (Rat.not_lt.mp hmin), Rat.not_lt.mp hmax⟩

end Accepted

section Storable

variable (a : PatternAnalyzer) (runId : Text)

/-- The patterns of candidates. -/
def patterns : List Text :=
  [patternRepeatAction, patternUnchangedOutput, patternRepeatedFailure, patternCompileFailure,
    patternTestFailure, patternRetry, patternAbort, patternBudgetOverrun, patternAcceptedPattern]

/-- A candidate that its store accepts once it has an id. -/
structure Storable (c : ExperienceEventV0) : Prop where
  schemaVersion : c.schemaVersion = experienceSchemaVersion
  eventType : c.eventType ∈ [eventTypeObservation, patternAcceptedPattern]
  service : c.service = serviceName
  ofRun : c.runId = runId
  actor : trimSpace c.actor ≠ []
  capability : trimSpace c.capability ≠ []
  dataClass : c.dataClass ∈ allowedDataClasses
  redactionProfile : c.redactionProfile ∈ allowedRedactionProfiles
  policyDecision : c.policyDecision = policyDecisionAllow
  status : c.status = statusObserved
  stateTransition : c.stateTransition = analysisDetected
  occurrences : 0 < c.occurrences
  confidence : inUnit c.confidence = true
  inputHash : c.inputHash = [] ∨ IsHash c.inputHash
  outputHash : c.outputHash = [] ∨ IsHash c.outputHash
  pattern : c.pattern ∈ patterns
  createdAt : c.createdAt = a.now.toTime
  observedAt : c.observedAt = a.now.toTime

theorem hashChecks_pass {hash : Text} (h : hash = [] ∨ IsHash hash) (path : String) :
    ∀ check ∈ ExperienceEventV0.hashChecks hash path, check.1 = true := by
  rcases h with rfl | h
  · simp [ExperienceEventV0.hashChecks, trimSpace]
  · simp [ExperienceEventV0.hashChecks, h.length, h.hex]

theorem validate_of_storable {c : ExperienceEventV0} (h : Storable a runId c)
    (hrun : trimSpace runId ≠ []) {eventId : Text} (hid : trimSpace eventId ≠ []) :
    ExperienceEventV0.validate { c with eventId } = none := by
  have hversion : trimSpace experienceSchemaVersion ≠ [] := by decide
  have htype : trimSpace c.eventType ≠ [] := by
    have hall : ∀ t ∈ [eventTypeObservation, patternAcceptedPattern], trimSpace t ≠ [] := by decide
    exact hall _ h.eventType
  have hservice : trimSpace serviceName ≠ [] := by decide
  have hdecision : trimSpace policyDecisionAllow ≠ [] := by decide
  have hstatus : trimSpace statusObserved ≠ [] := by decide
  have htransition : trimSpace analysisDetected ≠ [] := by decide
  have hconfidence : (decide (0 ≤ c.confidence.value) && decide (c.confidence.value ≤ 1)) = true :=
    h.confidence
  unfold ExperienceEventV0.validate
  rw [firstFailing_eq_none]
  simp only [List.forall_mem_append, List.forall_mem_cons, decide_eq_true_eq]
  refine ⟨⟨⟨?_, hashChecks_pass h.inputHash _⟩, hashChecks_pass h.outputHash _⟩, ?_⟩
  · simp [h.schemaVersion, hversion, hid, htype, h.service, hservice, h.ofRun, hrun, h.actor,
      h.capability, h.dataClass, h.redactionProfile, h.policyDecision, hdecision, h.status,
      hstatus, h.stateTransition, htransition, h.occurrences, hconfidence]
  · simp [h.createdAt, h.observedAt, a.now.nonzero]

/-- A stored candidate can be spelled. -/
theorem json_of_storable {c : ExperienceEventV0} (h : Storable a runId c) (eventId : Text) :
    ∃ v, ExperienceEventV0.json { c with eventId } = some v := by
  have htime : timeField a.now.toTime = some (.string a.now.format) := by
    rw [timeField, Time.marshal, if_pos (by rw [a.now.utc]; decide)]
    rfl
  simp [ExperienceEventV0.json, h.createdAt, h.observedAt, htime]

/-- Every event of a bucket has its key. -/
def KeyedBy (key : PatternKey) (items : List EventEnvelopeV0) : Prop :=
  ∀ e ∈ items, patternKey e = key

variable {a} (hpolicy : Bounded a.policy)

include hpolicy

theorem storable_bucketCandidate {key : PatternKey} {first : EventEnvelopeV0}
    (hfirst : Sourced first) (hkey : patternKey first = key) {counted : List EventEnvelopeV0}
    (hpos : 0 < counted.length) (hlength : counted.length < 2 ^ 63) {pattern : Text}
    (hpattern : pattern ∈ patterns) (fingerprint : Text) (confidence : Numeral) (reason : String)
    (more : List (Text × Json)) : Storable a runId
      (bucketCandidate a runId key first counted pattern fingerprint confidence reason more) where
  schemaVersion := rfl
  eventType := List.mem_cons_self
  service := rfl
  ofRun := rfl
  actor := hkey ▸ hfirst.actor
  capability := hkey ▸ hfirst.capability
  dataClass := by
    show (if first.dataClass = [] then dataClassOther else first.dataClass) ∈ _
    split
    · decide
    · exact hfirst.dataClass
  redactionProfile := hfirst.redactionProfile
  policyDecision := rfl
  status := rfl
  stateTransition := rfl
  occurrences := by
    show 0 < Int64.ofNat counted.length
    rw [Int64.lt_iff_toInt_lt, Int64.toInt_ofNat_of_lt hlength]
    simpa using hpos
  confidence := inUnit_confidence hpolicy confidence
  inputHash := .inr (hkey ▸ hfirst.inputHash)
  outputHash := .inr (hkey ▸ hfirst.outputHash)
  pattern := by
    show (if pattern = [] then patternAcceptedPattern else pattern) ∈ patterns
    split
    · decide
    · exact hpattern
  createdAt := rfl
  observedAt := rfl

theorem storable_analyzeBucket {key : PatternKey} {items : List EventEnvelopeV0}
    (hsourced : ∀ e ∈ items, Sourced e) (hkey : KeyedBy key items)
    (hlength : items.length < 2 ^ 63) :
    ∀ c ∈ analyzeBucket a runId key items, Storable a runId c := by
  cases items with
  | nil => exact nofun
  | cons first rest =>
      have hfirst := hsourced first List.mem_cons_self
      have hkeyFirst := hkey first List.mem_cons_self
      have hpos : 0 < (first :: rest).length := Nat.succ_pos _
      have hle : ((first :: rest).filter isFailed).length ≤ (first :: rest).length :=
        List.length_filter_le _ _
      intro c hc
      simp only [analyzeBucket, List.mem_append, List.mem_ite_nil_right, List.mem_singleton] at hc
      rcases hc with ((((⟨_, rfl⟩ | ⟨_, rfl⟩) | ⟨hfailed, rfl⟩) | ⟨⟨_, _, hfailed⟩, rfl⟩) |
        ⟨⟨_, _, hfailed⟩, rfl⟩) | ⟨_, rfl⟩
      · exact storable_bucketCandidate runId hpolicy hfirst hkeyFirst hpos hlength (by decide) ..
      · exact storable_bucketCandidate runId hpolicy hfirst hkeyFirst hpos hlength (by decide) ..
      · have hmin := hpolicy.repeatedFail
        exact storable_bucketCandidate runId hpolicy hfirst hkeyFirst (by omega) (by omega)
          (by decide) ..
      · exact storable_bucketCandidate runId hpolicy hfirst hkeyFirst
          (List.length_pos_iff.mpr hfailed) (by omega) (by decide) ..
      · exact storable_bucketCandidate runId hpolicy hfirst hkeyFirst
          (List.length_pos_iff.mpr hfailed) (by omega) (by decide) ..
      · exact storable_bucketCandidate runId hpolicy hfirst hkeyFirst hpos hlength (by decide) ..

theorem storable_retryCandidate {failed recovered : EventEnvelopeV0} (hfailed : Sourced failed) :
    Storable a runId (retryCandidate a runId (retrySequenceKey failed) failed recovered) where
  schemaVersion := rfl
  eventType := List.mem_cons_self
  service := rfl
  ofRun := rfl
  actor := hfailed.actor
  capability := hfailed.capability
  dataClass := by
    show (if failed.dataClass = [] then dataClassOther else failed.dataClass) ∈ _
    split
    · decide
    · exact hfailed.dataClass
  redactionProfile := hfailed.redactionProfile
  policyDecision := rfl
  status := rfl
  stateTransition := rfl
  occurrences := by
    show (0 : Int64) < 2
    decide
  confidence := inUnit_confidence hpolicy _
  inputHash := .inr hfailed.inputHash
  outputHash := .inr hfailed.outputHash
  pattern := by
    show patternRetry ∈ patterns
    decide
  createdAt := rfl
  observedAt := rfl

theorem storable_stepCandidate (ledger : AgentTrajectoryLedgerV0) {step : AgentTrajectoryEntry}
    (hstep : StepSourced step) {pattern : Text} (hpattern : pattern ∈ patterns) (tag : Text)
    (confidence : Numeral) (reason : String) :
    Storable a runId (stepCandidate a runId ledger step pattern tag confidence reason) where
  schemaVersion := rfl
  eventType := List.mem_cons_self
  service := rfl
  ofRun := rfl
  actor := hstep.actor
  capability := hstep.capability
  dataClass := by
    have hclass : stepDataClass step.dataClass ∈ allowedDataClasses := by
      unfold stepDataClass
      split
      · next h => exact h
      · decide
    show (if stepDataClass step.dataClass = [] then dataClassOther
      else stepDataClass step.dataClass) ∈ _
    split
    · decide
    · exact hclass
  redactionProfile := by
    show profileControlledByHarness ∈ allowedRedactionProfiles
    decide
  policyDecision := rfl
  status := rfl
  stateTransition := rfl
  occurrences := by
    show (0 : Int64) < 1
    decide
  confidence := inUnit_confidence hpolicy confidence
  inputHash := .inl rfl
  outputHash := .inl rfl
  pattern := by
    show (if pattern = [] then patternAcceptedPattern else pattern) ∈ patterns
    split
    · decide
    · exact hpattern
  createdAt := rfl
  observedAt := rfl

theorem storable_acceptedCandidate {e : EventEnvelopeV0} (he : Sourced e) :
    Storable a runId (acceptedCandidate a runId e) where
  schemaVersion := rfl
  eventType := List.mem_cons_of_mem _ List.mem_cons_self
  service := rfl
  ofRun := rfl
  actor := he.actor
  capability := he.capability
  dataClass := he.dataClass
  redactionProfile := he.redactionProfile
  policyDecision := rfl
  status := rfl
  stateTransition := rfl
  occurrences := by
    show (0 : Int64) < 1
    decide
  confidence := inUnit_confidence hpolicy _
  inputHash := .inr he.inputHash
  outputHash := .inr he.outputHash
  pattern := by
    show patternAcceptedPattern ∈ patterns
    decide
  createdAt := rfl
  observedAt := rfl

end Storable

section Drafts

theorem failedAndRecovered_eq_some {items : List EventEnvelopeV0} {x y : EventEnvelopeV0}
    (h : failedAndRecovered items = some (x, y)) :
    [x, y].Sublist items ∧ isFailed x = true ∧ isCompleted y = true := by
  unfold failedAndRecovered at h
  split at h
  · cases h
  next failed rest hdrop =>
  obtain ⟨recovered, hfind, hpair⟩ := Option.map_eq_some_iff.mp h
  cases hpair
  have hsub : (x :: rest).Sublist items := hdrop ▸ List.dropWhile_sublist _
  have hfailed : isFailed x = true := by
    have hne : items.dropWhile (fun e => !isFailed e) ≠ [] := by
      rw [hdrop]
      exact List.cons_ne_nil _ _
    simpa [hdrop] using List.head_dropWhile_not _ hne
  exact ⟨(List.cons_sublist_cons.mpr (List.singleton_sublist.mpr
    (List.mem_of_find?_eq_some hfind))).trans hsub, hfailed, List.find?_some hfind⟩

/-- A sequence has a failure and a recovery if and only if some completion comes
after some failure. -/
theorem failedAndRecovered_isSome_iff {items : List EventEnvelopeV0} :
    (failedAndRecovered items).isSome ↔
      ∃ x y, [x, y].Sublist items ∧ isFailed x = true ∧ isCompleted y = true := by
  constructor
  · intro h
    obtain ⟨⟨x, y⟩, hpair⟩ := Option.isSome_iff_exists.mp h
    exact ⟨x, y, failedAndRecovered_eq_some hpair⟩
  · rintro ⟨x, y, hsub, hx, hy⟩
    unfold failedAndRecovered
    induction items with
    | nil => cases hsub
    | cons e items ih =>
        by_cases he : isFailed e = true
        · rw [List.dropWhile_cons_of_neg (by simp [he])]
          have hmem : y ∈ items := by
            cases hsub with
            | cons _ hsub => exact hsub.subset (by simp)
            | cons_cons _ hsub => exact hsub.subset (by simp)
          simp only [Option.isSome_map, List.find?_isSome]
          exact ⟨y, hmem, hy⟩
        · rw [List.dropWhile_cons_of_pos (by simp [he])]
          apply ih
          cases hsub with
          | cons _ hsub => exact hsub
          | cons_cons _ _ => exact absurd hx he

variable {a : PatternAnalyzer} (runId : Text) (hpolicy : Bounded a.policy) (orders : Orders)

include hpolicy

/-- Every candidate over accepted events and ledgers is one that its store
accepts. -/
theorem storable_drafts {events : List EventEnvelopeV0} {ledgers : List AgentTrajectoryLedgerV0}
    (hevents : ∀ e ∈ events, Sourced e) (hlength : events.length < 2 ^ 63)
    (hledgers : ∀ l ∈ ledgers, ∀ step ∈ l.steps.getD [], StepSourced step) :
    ∀ c ∈ drafts a runId orders events ledgers, Storable a runId c := by
  intro c hc
  simp only [drafts, List.mem_append] at hc
  rcases hc with ((hc | hc) | hc) | hc
  · obtain ⟨bucket, hbucket, hc⟩ := List.mem_flatMap.mp hc
    obtain ⟨e, he, rfl⟩ := mem_groups.mp ((orders.buckets.mem_visit).mp hbucket)
    have hsub : ((events.filter isKeyed).filter fun b => patternKey b = patternKey e).Sublist
        events := List.filter_sublist.trans List.filter_sublist
    refine storable_analyzeBucket runId hpolicy (fun b hb => hevents b (hsub.subset hb)) ?_ ?_ c hc
    · exact fun b hb => of_decide_eq_true (List.mem_filter.mp hb).2
    · exact hsub.length_le.trans_lt hlength
  · obtain ⟨group, hgroup, hpair⟩ := List.mem_filterMap.mp hc
    obtain ⟨e, he, rfl⟩ := mem_groups.mp ((orders.retries.mem_visit).mp hgroup)
    obtain ⟨⟨x, y⟩, hfound, rfl⟩ := Option.map_eq_some_iff.mp hpair
    have hx := (failedAndRecovered_eq_some hfound).1.subset List.mem_cons_self
    obtain ⟨hx, hkey⟩ := List.mem_filter.mp hx
    rw [← of_decide_eq_true hkey]
    exact storable_retryCandidate runId hpolicy (hevents x (List.mem_of_mem_filter hx))
  · obtain ⟨ledger, hledger, hc⟩ := List.mem_flatMap.mp hc
    obtain ⟨step, hstep, hc⟩ := List.mem_flatMap.mp hc
    have hsourced := hledgers ledger hledger step hstep
    simp only [analyzeStep, List.mem_append, List.mem_ite_nil_right, List.mem_singleton] at hc
    rcases hc with ⟨_, rfl⟩ | ⟨_, rfl⟩
    · exact storable_stepCandidate runId hpolicy ledger hsourced (by decide) ..
    · exact storable_stepCandidate runId hpolicy ledger hsourced (by decide) ..
  · obtain ⟨e, he, rfl⟩ := List.mem_map.mp hc
    exact storable_acceptedCandidate runId hpolicy (hevents e (List.mem_of_mem_filter he))

end Drafts

section Growth

/-- The pattern and the fingerprint of a candidate. -/
def finding (c : ExperienceEventV0) : Text × Text :=
  (c.pattern, c.patternFingerprint)

theorem one_output {key : PatternKey} {items : List EventEnvelopeV0} (h : KeyedBy key items)
    (hne : items ≠ []) : (items.map fun e => e.outputRef.sha256).dedup.length = 1 := by
  have hsame : items.map (fun e => e.outputRef.sha256) =
      List.replicate items.length key.outputHash := by
    apply List.eq_replicate_iff.mpr
    refine ⟨List.length_map .., ?_⟩
    intro hash hhash
    obtain ⟨e, he, rfl⟩ := List.mem_map.mp hhash
    rw [← h e he]
    rfl
  rw [hsame, List.replicate_dedup (List.length_pos_iff.mpr hne).ne']
  rfl

/-- Events of one key have one status: none of a bucket recovers. -/
theorem not_recovered {key : PatternKey} {items : List EventEnvelopeV0} (h : KeyedBy key items) :
    ¬ (items.dropWhile fun e => !isFailed e).any isCompleted = true := by
  intro hany
  obtain ⟨y, hy, hcompleted⟩ := List.any_eq_true.mp hany
  have hne : items.dropWhile (fun e => !isFailed e) ≠ [] := List.ne_nil_of_mem hy
  have hsub : (items.dropWhile fun e => !isFailed e).Sublist items := List.dropWhile_sublist _
  have hstatus : ∀ e ∈ items, harnessStatusForAnalysis e.status = key.status := by
    intro e he
    rw [← h e he]
    rfl
  have hfailed : isFailed ((items.dropWhile fun e => !isFailed e).head hne) = true := by
    simpa using List.head_dropWhile_not _ hne
  have hfirst : key.status = "failed".toList := by
    rw [← hstatus _ (hsub.subset (List.head_mem hne))]
    exact of_decide_eq_true hfailed
  have hlast : key.status = "completed".toList := by
    rw [← hstatus y (hsub.subset hy)]
    exact of_decide_eq_true hcompleted
  rw [hfirst] at hlast
  revert hlast
  decide

variable (a : PatternAnalyzer) (runId : Text)

/-- A bucket that grows keeps its findings. -/
theorem findings_bucket {key : PatternKey} {items items' : List EventEnvelopeV0}
    (hsub : items.Subperm items') (hkey : KeyedBy key items) (hkey' : KeyedBy key items') :
    (analyzeBucket a runId key items).map finding ⊆
      (analyzeBucket a runId key items').map finding := by
  cases items with
  | nil => exact List.nil_subset _
  | cons first rest =>
  cases items' with
  | nil => exact absurd (hsub.subset List.mem_cons_self) List.not_mem_nil
  | cons first' rest' =>
  intro s hs
  obtain ⟨c, hc, rfl⟩ := List.mem_map.mp hs
  have hlength : (first :: rest).length ≤ (first' :: rest').length := hsub.length_le
  have hfailedSub := hsub.filter isFailed
  have hfailed : ((first :: rest).filter isFailed).length ≤
      ((first' :: rest').filter isFailed).length := hfailedSub.length_le
  have hnonempty (h : (first :: rest).filter isFailed ≠ []) :
      (first' :: rest').filter isFailed ≠ [] := by
    rw [← List.length_pos_iff] at h ⊢
    omega
  have hone := one_output hkey' (List.cons_ne_nil first' rest')
  simp only [analyzeBucket, List.mem_append, List.mem_ite_nil_right, List.mem_singleton] at hc
  simp only [analyzeBucket, List.mem_map, List.mem_append, List.mem_ite_nil_right,
    List.mem_singleton]
  rcases hc with ((((⟨hmin, rfl⟩ | ⟨⟨hmin, _⟩, rfl⟩) | ⟨hmin, rfl⟩) | ⟨⟨hwith, hout, hne⟩, rfl⟩) |
    ⟨⟨hwith, hout, hne⟩, rfl⟩) | ⟨hrecovered, _⟩
  · exact ⟨_, .inl (.inl (.inl (.inl (.inl ⟨by omega, rfl⟩)))), rfl⟩
  · exact ⟨_, .inl (.inl (.inl (.inl (.inr ⟨⟨by omega, hone⟩, rfl⟩)))), rfl⟩
  · exact ⟨_, .inl (.inl (.inl (.inr ⟨by omega, rfl⟩))), rfl⟩
  · exact ⟨_, .inl (.inl (.inr ⟨⟨hwith, hout, hnonempty hne⟩, rfl⟩)), rfl⟩
  · exact ⟨_, .inl (.inr ⟨⟨hwith, hout, hnonempty hne⟩, rfl⟩), rfl⟩
  · exact absurd hrecovered (not_recovered hkey)

/-- More events, in which a failure and a completion stay in their order. -/
structure Grows (events events' : List EventEnvelopeV0) : Prop where
  subperm : events.Subperm events'
  sublist : ∀ x y, isFailed x = true → isCompleted y = true → [x, y].Sublist events →
    [x, y].Sublist events'

theorem Grows.refl (events : List EventEnvelopeV0) : Grows events events :=
  ⟨.refl _, fun _ _ _ _ h => h⟩

theorem findings_retries {events events' : List EventEnvelopeV0} (h : Grows events events')
    (order order' : Iteration) :
    (analyzeRetrySequences a runId order events).map finding ⊆
      (analyzeRetrySequences a runId order' events').map finding := by
  intro s hs
  obtain ⟨c, hc, rfl⟩ := List.mem_map.mp hs
  obtain ⟨group, hgroup, hpair⟩ := List.mem_filterMap.mp hc
  obtain ⟨e, he, rfl⟩ := mem_groups.mp (order.mem_visit.mp hgroup)
  obtain ⟨⟨x, y⟩, hfound, rfl⟩ := Option.map_eq_some_iff.mp hpair
  obtain ⟨hsub, hx, hy⟩ := failedAndRecovered_eq_some hfound
  have hmem : ∀ b ∈ [x, y], isKeyed b = true ∧ retrySequenceKey b = retrySequenceKey e := by
    intro b hb
    obtain ⟨hb, hkey⟩ := List.mem_filter.mp (hsub.subset hb)
    exact ⟨(List.mem_filter.mp hb).2, of_decide_eq_true hkey⟩
  have hsub' : [x, y].Sublist ((events'.filter isKeyed).filter
      fun b => retrySequenceKey b = retrySequenceKey e) := by
    have hall := h.sublist x y hx hy (hsub.trans (List.filter_sublist.trans List.filter_sublist))
    have hkept := (hall.filter isKeyed).filter fun b => retrySequenceKey b = retrySequenceKey e
    have hpair : [x, y].filter isKeyed = [x, y] :=
      List.filter_eq_self.mpr fun b hb => (hmem b hb).1
    rw [hpair, List.filter_eq_self.mpr fun b hb => decide_eq_true (hmem b hb).2] at hkept
    exact hkept
  obtain ⟨⟨x', y'⟩, hfound'⟩ := Option.isSome_iff_exists.mp
    (failedAndRecovered_isSome_iff.mpr ⟨x, y, hsub', hx, hy⟩)
  have he' : e ∈ events'.filter isKeyed :=
    ((h.subperm.filter isKeyed).subset he)
  refine List.mem_map.mpr ⟨retryCandidate a runId (retrySequenceKey e) x' y', ?_, rfl⟩
  refine List.mem_filterMap.mpr ⟨_, order'.mem_visit.mpr (mem_groups.mpr ⟨e, he', rfl⟩), ?_⟩
  dsimp only
  rw [hfound']
  rfl

/-- What is found in events and ledgers is found in more of them, whatever the
orders of the maps. -/
theorem findings_drafts {events events' : List EventEnvelopeV0} (h : Grows events events')
    {ledgers ledgers' : List AgentTrajectoryLedgerV0} (hledgers : ledgers ⊆ ledgers')
    (orders orders' : Orders) :
    (drafts a runId orders events ledgers).map finding ⊆
      (drafts a runId orders' events' ledgers').map finding := by
  intro s hs
  obtain ⟨c, hc, rfl⟩ := List.mem_map.mp hs
  simp only [drafts, List.map_append, List.mem_append] at hc ⊢
  rcases hc with ((hc | hc) | hc) | hc
  · obtain ⟨bucket, hbucket, hc⟩ := List.mem_flatMap.mp hc
    obtain ⟨e, he, rfl⟩ := mem_groups.mp (orders.buckets.mem_visit.mp hbucket)
    have hkeyed := h.subperm.filter isKeyed
    have hsub := hkeyed.filter fun b => patternKey b = patternKey e
    have hkey (l : List EventEnvelopeV0) :
        KeyedBy (patternKey e) (l.filter fun b => patternKey b = patternKey e) :=
      fun b hb => of_decide_eq_true (List.mem_filter.mp hb).2
    obtain ⟨c', hc', heq⟩ := List.mem_map.mp
      (findings_bucket a runId hsub (hkey _) (hkey _) (List.mem_map_of_mem hc))
    refine .inl (.inl (.inl (heq ▸ List.mem_map_of_mem ?_)))
    exact List.mem_flatMap.mpr
      ⟨_, orders'.buckets.mem_visit.mpr (mem_groups.mpr ⟨e, hkeyed.subset he, rfl⟩), hc'⟩
  · exact .inl (.inl (.inr (findings_retries a runId h orders.retries orders'.retries
      (List.mem_map_of_mem hc))))
  · obtain ⟨ledger, hledger, hc⟩ := List.mem_flatMap.mp hc
    exact .inl (.inr (List.mem_map_of_mem (List.mem_flatMap.mpr ⟨ledger, hledgers hledger, hc⟩)))
  · obtain ⟨e, he, rfl⟩ := List.mem_map.mp hc
    exact .inr (List.mem_map_of_mem (List.mem_map_of_mem ((h.subperm.filter _).subset he)))

end Growth

end C2c.Learning.Findings
