import C2c.Learning.Findings
import C2c.Library.Machine

/-!
The calls of `RunLearningSummary` between the ingestions of a service, and what
they leave in the experience event store.
-/

namespace C2c.Learning.Summaries

open C2c.Library.JavaText
open C2c.Library.GoText
open C2c.Library.GoTime
open C2c.Library.JsonLines
open C2c.Library.GoCollections
open C2c.Library.Machine
open C2c.Harness.Events (SchemaValidationError)
open C2c.Learning.Records
open C2c.Learning.Analyzer
open C2c.Learning.Findings

section Service

structure ExperienceLearningService where
  harnessEvents : Log EventEnvelopeV0 := newLog
  ledgers : Log AgentTrajectoryLedgerV0 := newLog
  experienceEvents : Log ExperienceEventV0 := newLog
  now : StartTime
  seq : UInt64 := 0

structure RunLearningSummary where
  runId : Text
  sourceEventCount : Nat
  sourceLedgerCount : Nat
  candidateCount : Nat
  experienceEventIds : List Text

inductive SummaryError
  | runIdRequired
  | store (e : AppendError SchemaValidationError)

/-- `ByRun`. -/
def byRun (runId : Text) (events : List ExperienceEventV0) : List ExperienceEventV0 :=
  events.filter fun e => e.runId == runId

/-- The loop over the candidates, of which those of unknown keys are appended. -/
def appendNew (known : List Text) (log : Log ExperienceEventV0) :
    List ExperienceEventV0 → Log ExperienceEventV0 × Option (AppendError SchemaValidationError)
  | [] => (log, none)
  | candidate :: candidates =>
      if candidateKey candidate ∈ known then appendNew known log candidates
      else
        match append experienceEventStore log candidate with
        | (log, .ok _) => appendNew (candidateKey candidate :: known) log candidates
        | (log, .error e) => (log, some e)

variable (parses : Text → Bool) (policy : LearningPolicy) (sorting : SliceSort stepsBefore)

/-- What the analysis of a run finds, and the counter after it. -/
def analysis (s : ExperienceLearningService) (runId : Text) (orders : Orders) :
    Option (List ExperienceEventV0 × UInt64) :=
  analyzeRun ⟨policy, s.now⟩ runId orders sorting s.seq s.harnessEvents.records s.ledgers.records

/-- `RunLearningSummary`. -/
def runLearningSummary (s : ExperienceLearningService) (runId : Text) (orders : Orders) :
    ExperienceLearningService × Except SummaryError RunLearningSummary :=
  match analysis policy sorting s runId orders with
  | none => (s, .error .runIdRequired)
  | some (candidates, seq) =>
      let known := (byRun runId s.experienceEvents.records).map candidateKey
      let stored := appendNew known s.experienceEvents candidates
      let next := { s with experienceEvents := stored.1, seq }
      match stored.2 with
      | some e => (next, .error (.store e))
      | none =>
          let events := byRun runId stored.1.records
          (next, .ok {
            runId
            sourceEventCount := (s.harnessEvents.records.filter fun e => e.runId == runId).length
            sourceLedgerCount := (s.ledgers.records.filter fun l => l.runId == runId).length
            candidateCount := events.length
            experienceEventIds := events.map ExperienceEventV0.eventId })

inductive Operation
  | ingestHarnessEvent (event : EventEnvelopeV0)
  | ingestTrajectoryLedger (ledger : AgentTrajectoryLedgerV0)
  | summarize (runId : Text) (orders : Orders)

def step (s : ExperienceLearningService) : Operation → ExperienceLearningService
  | .ingestHarnessEvent event =>
      { s with harnessEvents := (append (harnessEventStore parses) s.harnessEvents event).1 }
  | .ingestTrajectoryLedger ledger =>
      { s with ledgers := (append trajectoryLedgerStore s.ledgers ledger).1 }
  | .summarize runId orders => (runLearningSummary policy sorting s runId orders).1

/-- Whether an operation ingests. -/
def Operation.ingests : Operation → Bool
  | .summarize _ _ => false
  | _ => true

end Service

section Keys

theorem colon_notMem_patterns : ∀ p ∈ patterns, ':' ∉ p ∧ p ≠ [] := by
  decide

/-- The key of a candidate tells its pattern and its fingerprint. -/
theorem finding_eq_of_key {c c' : ExperienceEventV0} (hc : c.pattern ∈ patterns)
    (hc' : c'.pattern ∈ patterns) (h : candidateKey c = candidateKey c') :
    finding c = finding c' := by
  obtain ⟨hcolon, hne⟩ := colon_notMem_patterns _ hc
  obtain ⟨hcolon', hne'⟩ := colon_notMem_patterns _ hc'
  unfold candidateKey at h
  rw [if_neg hne, if_neg hne'] at h
  have htake (p f : Text) (hp : ':' ∉ p) : (p ++ ':' :: f).takeWhile (· != ':') = p := by
    rw [List.takeWhile_append_of_pos]
    · simp
    · intro x hx
      have hne : x ≠ ':' := fun heq => hp (heq ▸ hx)
      simpa using hne
  have hpattern : c.pattern = c'.pattern := by
    rw [← htake c.pattern c.patternFingerprint hcolon, h, htake _ _ hcolon']
  rw [hpattern] at h
  exact Prod.ext hpattern (List.cons.inj (List.append_cancel_left h)).2

theorem key_eq_of_finding {c c' : ExperienceEventV0} (h : finding c = finding c') :
    candidateKey c = candidateKey c' := by
  obtain ⟨hpattern, hfingerprint⟩ := Prod.ext_iff.mp h
  have hpattern : c.pattern = c'.pattern := hpattern
  have hfingerprint : c.patternFingerprint = c'.patternFingerprint := hfingerprint
  unfold candidateKey
  rw [hpattern, hfingerprint]

theorem finding_mem_iff {c : ExperienceEventV0} {l : List ExperienceEventV0}
    (hc : c.pattern ∈ patterns) (hl : ∀ c' ∈ l, c'.pattern ∈ patterns) :
    finding c ∈ l.map finding ↔ candidateKey c ∈ l.map candidateKey := by
  simp only [List.mem_map]
  constructor
  · rintro ⟨c', hc', heq⟩
    exact ⟨c', hc', key_eq_of_finding heq⟩
  · rintro ⟨c', hc', heq⟩
    exact ⟨c', hc', finding_eq_of_key (hl c' hc') hc heq⟩

theorem nodup_findings {l : List ExperienceEventV0} (h : (l.map candidateKey).Nodup) :
    (l.map finding).Nodup := by
  rw [List.Nodup, List.pairwise_map] at h ⊢
  exact h.imp fun hne heq => hne (key_eq_of_finding heq)

end Keys

section Ids

theorem trimSpace_eventIdOf (now : StartTime) (seq : UInt64) :
    trimSpace (eventIdOf now seq) ≠ [] :=
  trimSpace_cons_ne_nil (by decide) _

theorem mem_withIds {now : StartTime} {seq : UInt64} {l : List ExperienceEventV0}
    {c : ExperienceEventV0} (h : c ∈ withIds now seq l) :
    ∃ d ∈ l, ∃ n, c = { d with eventId := eventIdOf now n } := by
  induction l generalizing seq with
  | nil => cases h
  | cons d l ih =>
      rcases List.mem_cons.mp h with rfl | h
      · exact ⟨d, List.mem_cons_self, _, rfl⟩
      · obtain ⟨d', hd', n, rfl⟩ := ih h
        exact ⟨d', List.mem_cons_of_mem _ hd', n, rfl⟩

theorem findings_withIds (now : StartTime) (seq : UInt64) (l : List ExperienceEventV0) :
    (withIds now seq l).map finding = l.map finding := by
  induction l generalizing seq with
  | nil => rfl
  | cons d l ih => exact congrArg (finding d :: ·) (ih _)

end Ids

section Calls

variable (policy : LearningPolicy) (sorting : SliceSort stepsBefore)
  (s : ExperienceLearningService) (runId : Text) (orders : Orders)

def runEvents : List EventEnvelopeV0 :=
  sorting.sort (s.harnessEvents.records.filter fun e => e.runId == runId)

def runLedgers : List AgentTrajectoryLedgerV0 :=
  s.ledgers.records.filter fun l => l.runId == runId

/-- The candidates of a call in the order in which they are built. -/
def built : List ExperienceEventV0 :=
  drafts ⟨policy, s.now⟩ runId orders (runEvents sorting s runId) (runLedgers s runId)

/-- The candidates of a call with their ids, one for each key. -/
def candidatesOf : List ExperienceEventV0 :=
  dedupeCandidates orders (withIds s.now s.seq (built policy sorting s runId orders))

/-- What every operation keeps. -/
structure Sound (s : ExperienceLearningService) : Prop where
  events : ∀ e ∈ s.harnessEvents.records, Sourced e
  ledgers : ∀ l ∈ s.ledgers.records, ∀ step ∈ l.steps.getD [], StepSourced step
  stored : ∀ e ∈ s.experienceEvents.records, e.pattern ∈ patterns
  distinct : ∀ r, ((byRun r s.experienceEvents.records).map candidateKey).Nodup

/-- There is room for every count of events: a slice has fewer than 2^63. -/
def Countable (s : ExperienceLearningService) : Prop :=
  s.harnessEvents.records.length < 2 ^ 63

variable {policy s runId}

theorem storable_built (h : Sound s) (hroom : Countable s) (hpolicy : Bounded policy) :
    ∀ c ∈ built policy sorting s runId orders, Storable ⟨policy, s.now⟩ runId c := by
  apply storable_drafts runId hpolicy orders
  · intro e he
    exact h.events e (List.mem_of_mem_filter (sorting.mem_sort.mp he))
  · rw [runEvents, (sorting.perm _).length_eq]
    exact (List.length_filter_le _ _).trans_lt hroom
  · exact fun l hl => h.ledgers l (List.mem_of_mem_filter hl)

theorem analysis_eq (hrun : trimSpace runId ≠ []) (hpolicy : Bounded policy) :
    analysis policy sorting s runId orders =
      some (candidatesOf policy sorting s runId orders,
        s.seq + UInt64.ofNat (built policy sorting s runId orders).length) := by
  unfold analysis analyzeRun
  simp only [if_neg hrun, applyPolicyGating, hpolicy.observationOnly, if_true]
  rfl

theorem withIds_of_candidate {c : ExperienceEventV0}
    (h : c ∈ candidatesOf policy sorting s runId orders) :
    c ∈ withIds s.now s.seq (built policy sorting s runId orders) := by
  obtain ⟨more, hmore, hsub, _⟩ := takeAllNew_eq_append candidateKey []
    (withIds s.now s.seq (built policy sorting s runId orders))
  have hmem := orders.candidates.mem_visit.mp h
  rw [hmore, List.nil_append] at hmem
  exact hsub.subset hmem

/-- Every candidate of a call is one that the store takes. -/
theorem accepted_candidates (h : Sound s) (hroom : Countable s) (hpolicy : Bounded policy)
    (hrun : trimSpace runId ≠ []) : ∀ c ∈ candidatesOf policy sorting s runId orders,
      c.validate = none ∧ (∃ v, c.json = some v) ∧ c.runId = runId ∧ c.pattern ∈ patterns := by
  intro c hc
  obtain ⟨d, hd, n, rfl⟩ := mem_withIds (withIds_of_candidate sorting orders hc)
  have hstorable := storable_built sorting orders h hroom hpolicy d hd
  exact ⟨validate_of_storable _ _ hstorable hrun (trimSpace_eventIdOf s.now n),
    json_of_storable _ _ hstorable _, hstorable.ofRun, hstorable.pattern⟩

/-- The candidates of a call have the patterns and fingerprints that are found. -/
theorem mem_findings_candidates (h : Sound s) (hroom : Countable s) (hpolicy : Bounded policy)
    {f : Text × Text} : f ∈ (candidatesOf policy sorting s runId orders).map finding ↔
      f ∈ (built policy sorting s runId orders).map finding := by
  rw [← findings_withIds s.now s.seq (built policy sorting s runId orders)]
  have hpattern : ∀ c ∈ withIds s.now s.seq (built policy sorting s runId orders),
      c.pattern ∈ patterns := by
    intro c hc
    obtain ⟨d, hd, n, rfl⟩ := mem_withIds hc
    exact (storable_built sorting orders h hroom hpolicy d hd).pattern
  constructor
  · intro hf
    obtain ⟨c, hc, rfl⟩ := List.mem_map.mp hf
    exact List.mem_map_of_mem (withIds_of_candidate sorting orders hc)
  · intro hf
    obtain ⟨c, hc, rfl⟩ := List.mem_map.mp hf
    rw [finding_mem_iff (hpattern c hc) fun c' hc' =>
      hpattern c' (withIds_of_candidate sorting orders hc')]
    have hkey : candidateKey c ∈ (takeAllNew candidateKey []
        (withIds s.now s.seq (built policy sorting s runId orders))).map candidateKey :=
      (mem_keys_takeAllNew candidateKey).mpr (.inr (List.mem_map_of_mem hc))
    exact ((orders.candidates.perm _).map candidateKey).mem_iff.mpr hkey

end Calls

section Stored

/-- Candidates that the store takes are appended, the first of each unknown key. -/
theorem appendNew_spec {candidates : List ExperienceEventV0}
    (hcandidates : ∀ c ∈ candidates, c.validate = none ∧ ∃ v, c.json = some v)
    {known : List Text} {taken : List ExperienceEventV0}
    (hknown : ∀ k, k ∈ known ↔ k ∈ taken.map candidateKey) (log : Log ExperienceEventV0) :
    (appendNew known log candidates).2 = none ∧
      ∃ more, (appendNew known log candidates).1.records = log.records ++ more ∧
        takeAllNew candidateKey taken candidates = taken ++ more := by
  induction candidates generalizing known taken log with
  | nil => exact ⟨rfl, [], (List.append_nil _).symm, (List.append_nil _).symm⟩
  | cons c candidates ih =>
      obtain ⟨⟨hvalid, hjson⟩, hrest⟩ := List.forall_mem_cons.mp hcandidates
      by_cases hc : candidateKey c ∈ known
      · rw [appendNew, if_pos hc, takeAllNew_cons, takeNew, if_pos ((hknown _).mp hc)]
        exact ih hrest hknown log
      · have hprepare : experienceEventStore.prepare (log.seq + 1) c = .ok c := by
          unfold experienceEventStore Format.checked
          simp only [hvalid]
        obtain ⟨next, happend, hnext⟩ := append_ok hprepare hjson
        have hknown' : ∀ k, k ∈ candidateKey c :: known ↔
            k ∈ (taken ++ [c]).map candidateKey := by
          intro k
          rw [List.mem_cons, List.map_append, List.mem_append, List.map_singleton,
            List.mem_singleton, hknown, or_comm]
        obtain ⟨hok, more, hmore, htaken⟩ := ih hrest hknown' next
        rw [appendNew, if_neg hc, happend, takeAllNew_cons, takeNew,
          if_neg fun h => hc ((hknown _).mpr h)]
        refine ⟨hok, c :: more, ?_, ?_⟩
        · show (appendNew _ next candidates).1.records = _
          rw [hmore, hnext, List.append_assoc, List.singleton_append]
        · rw [htaken, List.append_assoc, List.singleton_append]

variable (parses : Text → Bool) {policy : LearningPolicy} (sorting : SliceSort stepsBefore)
  {s : ExperienceLearningService} {runId : Text} (orders : Orders)

/-- What a call does: it answers, and the store has for the run the first
candidate of each new key. -/
theorem summarize_spec (h : Sound s) (hroom : Countable s) (hpolicy : Bounded policy)
    (hrun : trimSpace runId ≠ []) :
    (∃ summary, (runLearningSummary policy sorting s runId orders).2 = .ok summary) ∧
      ∃ more,
        (step parses policy sorting s (.summarize runId orders)).experienceEvents.records =
          s.experienceEvents.records ++ more ∧
        takeAllNew candidateKey (byRun runId s.experienceEvents.records)
          (candidatesOf policy sorting s runId orders) =
            byRun runId s.experienceEvents.records ++ more ∧
        ∀ e ∈ more, e ∈ candidatesOf policy sorting s runId orders ∧ e.runId = runId ∧
          e.pattern ∈ patterns ∧
          candidateKey e ∉ (byRun runId s.experienceEvents.records).map candidateKey := by
  have haccepted := accepted_candidates sorting orders h hroom hpolicy hrun
  obtain ⟨hok, more, hmore, htaken⟩ := appendNew_spec
    (fun c hc => ⟨(haccepted c hc).1, (haccepted c hc).2.1⟩) (fun _ => Iff.rfl)
    s.experienceEvents
  obtain ⟨more', htaken', hsub, hnew⟩ := takeAllNew_eq_append candidateKey
    (byRun runId s.experienceEvents.records) (candidatesOf policy sorting s runId orders)
  have hsame : more = more' := List.append_cancel_left (htaken.symm.trans htaken')
  subst hsame
  have hnew : ∀ e ∈ more, e ∈ candidatesOf policy sorting s runId orders ∧ e.runId = runId ∧
      e.pattern ∈ patterns ∧
      candidateKey e ∉ (byRun runId s.experienceEvents.records).map candidateKey := by
    intro e he
    obtain ⟨_, _, hid, hpattern⟩ := haccepted e (hsub.subset he)
    exact ⟨hsub.subset he, hid, hpattern, hnew e he⟩
  simp only [step, runLearningSummary, analysis_eq sorting orders hrun hpolicy, hok]
  exact ⟨⟨_, rfl⟩, more, hmore, htaken, hnew⟩

theorem summarize_of_blank (hrun : trimSpace runId = []) :
    step parses policy sorting s (.summarize runId orders) = s := by
  simp only [step, runLearningSummary, analysis, analyzeRun, hrun, if_true]

theorem input_summarize :
    (step parses policy sorting s (.summarize runId orders)).harnessEvents = s.harnessEvents ∧
      (step parses policy sorting s (.summarize runId orders)).ledgers = s.ledgers ∧
      (step parses policy sorting s (.summarize runId orders)).now = s.now := by
  unfold step runLearningSummary
  dsimp only
  split
  · exact ⟨rfl, rfl, rfl⟩
  · split <;> exact ⟨rfl, rfl, rfl⟩

theorem byRun_append (runId : Text) (l l' : List ExperienceEventV0) :
    byRun runId (l ++ l') = byRun runId l ++ byRun runId l' :=
  List.filter_append ..

theorem byRun_of_runId {l : List ExperienceEventV0} (h : ∀ e ∈ l, e.runId = runId) (r : Text) :
    byRun r l = if r = runId then l else [] := by
  unfold byRun
  split
  · next heq =>
      apply List.filter_eq_self.mpr
      intro e he
      simpa [h e he] using heq.symm
  · next hne =>
      apply List.filter_eq_nil_iff.mpr
      intro e he
      simpa [h e he] using Ne.symm hne

theorem sound_step (h : Sound s) (hpolicy : Bounded policy) (operation : Operation)
    (hroom : Countable (step parses policy sorting s operation)) :
    Sound (step parses policy sorting s operation) := by
  cases operation with
  | ingestHarnessEvent event =>
      refine ⟨fun e he => ?_, h.ledgers, h.stored, h.distinct⟩
      rcases mem_append_checked he with he | hvalid
      · exact h.events e he
      · exact sourced_of_valid hvalid
  | ingestTrajectoryLedger ledger =>
      refine ⟨h.events, fun l hl => ?_, h.stored, h.distinct⟩
      rcases mem_append_checked hl with hl | hvalid
      · exact h.ledgers l hl
      · exact stepSourced_of_valid hvalid
  | summarize runId orders =>
      by_cases hrun : trimSpace runId = []
      · rw [summarize_of_blank parses sorting orders hrun]
        exact h
      have hinput := @input_summarize parses policy sorting s runId orders
      have hroom : Countable s := by
        unfold Countable at hroom ⊢
        rwa [hinput.1] at hroom
      obtain ⟨_, more, hrecords, htaken, hmore⟩ :=
        summarize_spec parses sorting orders h hroom hpolicy hrun
      refine ⟨?_, ?_, ?_, ?_⟩
      · rw [hinput.1]
        exact h.events
      · rw [hinput.2.1]
        exact h.ledgers
      · rw [hrecords]
        intro e he
        rcases List.mem_append.mp he with he | he
        · exact h.stored e he
        · exact (hmore e he).2.2.1
      · intro r
        rw [hrecords, byRun_append, byRun_of_runId fun e he => (hmore e he).2.1]
        split
        · next heq =>
            rw [heq, ← htaken]
            exact nodup_keys_takeAllNew candidateKey (h.distinct runId) _
        · rw [List.append_nil]
          exact h.distinct r

end Stored

section Growth

variable (parses : Text → Bool) (policy : LearningPolicy) (sorting : SliceSort stepsBefore)

/-- A later state of a process has all input of an earlier one. -/
structure Later (s s' : ExperienceLearningService) : Prop where
  events : s.harnessEvents.records <+: s'.harnessEvents.records
  ledgers : s.ledgers.records <+: s'.ledgers.records
  now : s'.now = s.now

theorem Later.refl (s : ExperienceLearningService) : Later s s :=
  ⟨List.prefix_refl _, List.prefix_refl _, rfl⟩

theorem Later.trans {s s' s'' : ExperienceLearningService} (h : Later s s') (h' : Later s' s'') :
    Later s s'' :=
  ⟨h.events.trans h'.events, h.ledgers.trans h'.ledgers, h'.now.trans h.now⟩

theorem later_step (s : ExperienceLearningService) (operation : Operation) :
    Later s (step parses policy sorting s operation) := by
  cases operation with
  | ingestHarnessEvent event => exact ⟨prefix_append _ _, List.prefix_refl _, rfl⟩
  | ingestTrajectoryLedger ledger => exact ⟨List.prefix_refl _, prefix_append _ _, rfl⟩
  | summarize runId orders =>
      obtain ⟨hevents, hledgers, hnow⟩ := @input_summarize parses policy sorting s runId orders
      exact ⟨hevents ▸ List.prefix_refl _, hledgers ▸ List.prefix_refl _, hnow⟩

theorem later_run (s : ExperienceLearningService) (operations : List Operation) :
    Later s (run (step parses policy sorting) s operations) := by
  induction operations generalizing s with
  | nil => exact .refl s
  | cons operation operations ih => exact (later_step parses policy sorting s operation).trans (ih _)

theorem Later.countable {s s' : ExperienceLearningService} (h : Later s s') (hroom : Countable s') :
    Countable s :=
  h.events.length_le.trans_lt hroom

/-- No failure and completion among events have both the time and the step in
common. -/
def Untied (events : List EventEnvelopeV0) : Prop :=
  ∀ x ∈ events, ∀ y ∈ events, isFailed x = true → isCompleted y = true →
    stepsBefore x y = true ∨ stepsBefore y x = true

theorem ne_of_failed_completed {x y : EventEnvelopeV0} (hx : isFailed x = true)
    (hy : isCompleted y = true) : x ≠ y := by
  rintro rfl
  have hfailed := of_decide_eq_true hx
  have hcompleted := of_decide_eq_true hy
  rw [hfailed] at hcompleted
  revert hcompleted
  decide

/-- Events that are added leave the untied ones in their order. -/
theorem grows_sort {events events' : List EventEnvelopeV0} (h : events.Sublist events')
    (huntied : Untied events') : Grows (sorting.sort events) (sorting.sort events') where
  subperm := ((sorting.perm events).subperm.trans h.subperm).trans (sorting.perm events').symm.subperm
  sublist := by
    intro x y hx hy hsub
    have hmem : ∀ e ∈ [x, y], e ∈ events :=
      fun e he => sorting.mem_sort.mp (hsub.subset he)
    have hx' := h.subset (hmem x (by simp))
    have hy' := h.subset (hmem y (by simp))
    have hiff (l : List EventEnvelopeV0) :=
      @SliceSort.sublist_sort_iff _ _ sorting l x y (ne_of_failed_completed hx hy)
        (huntied x hx' y hy' hx hy)
    exact (hiff events').mpr ⟨hx', hy', ((hiff events).mp hsub).2.2⟩

/-- What a call would find, it finds after further ingestion. -/
theorem findings_built {s s' : ExperienceLearningService} (h : Later s s') {runId : Text}
    (huntied : Untied (s'.harnessEvents.records.filter fun e => e.runId == runId))
    (orders orders' : Orders) :
    (built policy sorting s runId orders).map finding ⊆
      (built policy sorting s' runId orders').map finding := by
  have hgrows := grows_sort sorting (h.events.sublist.filter fun e => e.runId == runId) huntied
  have hsub := (h.ledgers.sublist.filter fun l => l.runId == runId).subset
  unfold built
  rw [h.now]
  exact findings_drafts _ runId hgrows hsub orders orders'

/-- What a call finds does not depend on the order of the maps. -/
theorem findings_orders {s s' : ExperienceLearningService}
    (hevents : s'.harnessEvents = s.harnessEvents) (hledgers : s'.ledgers = s.ledgers)
    (hnow : s'.now = s.now) (runId : Text) (orders orders' : Orders) :
    (built policy sorting s runId orders).map finding ⊆
      (built policy sorting s' runId orders').map finding := by
  unfold built runEvents runLedgers
  rw [hevents, hledgers, hnow]
  exact findings_drafts _ runId (.refl _) (fun _ hl => hl) orders orders'

end Growth

section Runs

variable (parses : Text → Bool) {policy : LearningPolicy} (sorting : SliceSort stepsBefore)

theorem sound_start (now : StartTime) : Sound { now } where
  events := nofun
  ledgers := nofun
  stored := nofun
  distinct := fun _ => List.nodup_nil

theorem sound_run (hpolicy : Bounded policy) {s : ExperienceLearningService} (h : Sound s)
    {operations : List Operation}
    (hroom : Countable (run (step parses policy sorting) s operations)) :
    Sound (run (step parses policy sorting) s operations) := by
  induction operations generalizing s with
  | nil => exact h
  | cons operation operations ih =>
      have hlater := later_run parses policy sorting (step parses policy sorting s operation)
        operations
      exact ih (sound_step parses sorting h hpolicy operation (hlater.countable hroom)) hroom

/-- An event of the store is a candidate of a call, before which the store had
none with its pattern and fingerprint for the run. -/
def FirstFound (policy : LearningPolicy) (start : ExperienceLearningService)
    (operations : List Operation) (e : ExperienceEventV0) : Prop :=
  ∃ before orders after, operations = before ++ .summarize e.runId orders :: after ∧
    e ∈ candidatesOf policy sorting (run (step parses policy sorting) start before) e.runId orders ∧
    ∀ e' ∈ byRun e.runId (run (step parses policy sorting) start before).experienceEvents.records,
      finding e' ≠ finding e

/-- Every event of the store comes from the first call that found it. -/
theorem first_found (hpolicy : Bounded policy) (now : StartTime) (operations : List Operation)
    (hroom : Countable (run (step parses policy sorting) { now } operations)) :
    ∀ e ∈ (run (step parses policy sorting) { now } operations).experienceEvents.records,
      FirstFound parses sorting policy { now } operations e := by
  induction operations using List.reverseRecOn with
  | nil => exact nofun
  | append_singleton operations operation ih =>
      rw [run_append, run_cons, run_nil] at hroom ⊢
      have hlater := later_step parses policy sorting
        (run (step parses policy sorting) { now } operations) operation
      have hroom' := hlater.countable hroom
      have hold (e : ExperienceEventV0) (he : e ∈
          (run (step parses policy sorting) { now } operations).experienceEvents.records) :
          FirstFound parses sorting policy { now } (operations ++ [operation]) e := by
        obtain ⟨before, orders, after, rfl, hfound⟩ := ih hroom' e he
        exact ⟨before, orders, after ++ [operation], by simp, hfound⟩
      cases operation with
      | ingestHarnessEvent event => exact hold
      | ingestTrajectoryLedger ledger => exact hold
      | summarize runId orders =>
          by_cases hrun : trimSpace runId = []
          · rw [summarize_of_blank parses sorting orders hrun]
            exact hold
          have hsound := sound_run parses sorting hpolicy (sound_start now) hroom'
          obtain ⟨_, more, hrecords, _, hmore⟩ :=
            summarize_spec parses sorting orders hsound hroom' hpolicy hrun
          rw [hrecords]
          intro e he
          rcases List.mem_append.mp he with he | he
          · exact hold e he
          · obtain ⟨hcandidate, rfl, _, hnew⟩ := hmore e he
            refine ⟨operations, orders, [], rfl, hcandidate, ?_⟩
            intro e' he' heq
            exact hnew (key_eq_of_finding heq ▸ List.mem_map_of_mem he')

theorem byRun_summarize (hpolicy : Bounded policy) {s : ExperienceLearningService} (h : Sound s)
    (hroom : Countable s) {runId : Text} (hrun : trimSpace runId ≠ []) (orders : Orders) :
    byRun runId (step parses policy sorting s (.summarize runId orders)).experienceEvents.records =
      takeAllNew candidateKey (byRun runId s.experienceEvents.records)
        (candidatesOf policy sorting s runId orders) := by
  obtain ⟨_, more, hrecords, htaken, hmore⟩ :=
    summarize_spec parses sorting orders h hroom hpolicy hrun
  rw [hrecords, byRun_append, byRun_of_runId fun e he => (hmore e he).2.1, if_pos rfl, htaken]

/-- A call stores the keys of all its candidates. -/
theorem keys_stored (hpolicy : Bounded policy) {s : ExperienceLearningService} (h : Sound s)
    (hroom : Countable s) {runId : Text} (hrun : trimSpace runId ≠ []) (orders : Orders)
    {c : ExperienceEventV0} (hc : c.pattern ∈ patterns)
    (hfound : finding c ∈ (built policy sorting s runId orders).map finding) :
    candidateKey c ∈ (byRun runId (step parses policy sorting s
      (.summarize runId orders)).experienceEvents.records).map candidateKey := by
  rw [byRun_summarize parses sorting hpolicy h hroom hrun, mem_keys_takeAllNew]
  rw [← mem_findings_candidates sorting orders h hroom hpolicy, finding_mem_iff hc fun c' hc' =>
    (accepted_candidates sorting orders h hroom hpolicy hrun c' hc').2.2.2] at hfound
  exact .inr hfound

/-- After a call the store has for its run the findings of the call, if it had no
others before. -/
theorem mem_findings_stored (hpolicy : Bounded policy) {s : ExperienceLearningService} (h : Sound s)
    (hroom : Countable s) {runId : Text} (hrun : trimSpace runId ≠ []) (orders : Orders)
    (hsound : Sound (step parses policy sorting s (.summarize runId orders)))
    (hfound : ∀ e ∈ byRun runId s.experienceEvents.records,
      finding e ∈ (built policy sorting s runId orders).map finding) {f : Text × Text} :
    f ∈ (byRun runId (step parses policy sorting s
        (.summarize runId orders)).experienceEvents.records).map finding ↔
      f ∈ (built policy sorting s runId orders).map finding := by
  constructor
  · intro hf
    obtain ⟨e, he, rfl⟩ := List.mem_map.mp hf
    obtain ⟨more, hmore, hsub, _⟩ := takeAllNew_eq_append candidateKey
      (byRun runId s.experienceEvents.records) (candidatesOf policy sorting s runId orders)
    rw [byRun_summarize parses sorting hpolicy h hroom hrun, hmore] at he
    rcases List.mem_append.mp he with he | he
    · exact hfound e he
    · exact (mem_findings_candidates sorting orders h hroom hpolicy).mp
        (List.mem_map_of_mem (hsub.subset he))
  · intro hf
    obtain ⟨c, hc, rfl⟩ := List.mem_map.mp hf
    have hpattern := (storable_built sorting orders h hroom hpolicy c hc).pattern
    have hpatterns : ∀ e ∈ byRun runId (step parses policy sorting s
        (.summarize runId orders)).experienceEvents.records, e.pattern ∈ patterns :=
      fun e he => hsound.stored e (List.mem_of_mem_filter he)
    rw [finding_mem_iff hpattern hpatterns]
    exact keys_stored parses sorting hpolicy h hroom hrun orders hpattern hf

/-- Two processes with one input. -/
structure SameInput (s t : ExperienceLearningService) : Prop where
  events : t.harnessEvents = s.harnessEvents
  ledgers : t.ledgers = s.ledgers
  now : t.now = s.now

/-- Without the calls a run leads to the same input, and nothing is stored. -/
theorem sameInput_run (policy : LearningPolicy) {s t : ExperienceLearningService}
    (h : SameInput s t) (operations : List Operation) :
    SameInput (run (step parses policy sorting) s operations)
        (run (step parses policy sorting) t (operations.filter Operation.ingests)) ∧
      (run (step parses policy sorting) t
        (operations.filter Operation.ingests)).experienceEvents = t.experienceEvents := by
  induction operations generalizing s t with
  | nil => exact ⟨h, rfl⟩
  | cons operation operations ih =>
      cases operation with
      | ingestHarnessEvent event =>
          have hnext : SameInput (step parses policy sorting s (.ingestHarnessEvent event))
              (step parses policy sorting t (.ingestHarnessEvent event)) :=
            ⟨by simp only [step, h.events], h.ledgers, h.now⟩
          exact ih hnext
      | ingestTrajectoryLedger ledger =>
          have hnext : SameInput (step parses policy sorting s (.ingestTrajectoryLedger ledger))
              (step parses policy sorting t (.ingestTrajectoryLedger ledger)) :=
            ⟨h.events, by simp only [step, h.ledgers], h.now⟩
          exact ih hnext
      | summarize runId orders =>
          obtain ⟨hevents, hledgers, hnow⟩ := @input_summarize parses policy sorting s runId orders
          have hnext : SameInput (step parses policy sorting s (.summarize runId orders)) t :=
            ⟨h.events.trans hevents.symm, h.ledgers.trans hledgers.symm, h.now.trans hnow.symm⟩
          exact ih hnext

/-- Whatever calls come between the ingestions: a last call for a run is
answered, no candidate being refused; each event the store then has for the run
is as the first call that found it built it, one for each pattern and
fingerprint; where no failure and completion are tied, these are the patterns
and fingerprints of a last call without any call before; and a further call
stores nothing. -/
theorem calls_store_what_is_found (read : Option LearningPolicy) (now : StartTime)
    (operations : List Operation) {runId : Text} (hrun : trimSpace runId ≠ []) (orders : Orders) :
    let policy := loadLearningPolicyWithDefault read
    let step := step parses policy sorting
    let before := run step { now } operations
    let after := step before (.summarize runId orders)
    before.harnessEvents.records.length < 2 ^ 63 →
    (∃ summary, (runLearningSummary policy sorting before runId orders).2 = .ok summary) ∧
    ((byRun runId after.experienceEvents.records).map finding).Nodup ∧
    (∀ e ∈ byRun runId after.experienceEvents.records,
      FirstFound parses sorting policy { now } (operations ++ [.summarize runId orders]) e) ∧
    (Untied (before.harnessEvents.records.filter fun e => e.runId == runId) → ∀ orders',
      ((byRun runId after.experienceEvents.records).map finding).Perm
        ((byRun runId (step (run step { now } (operations.filter Operation.ingests))
          (.summarize runId orders')).experienceEvents.records).map finding)) ∧
    ∀ orders', (step after (.summarize runId orders')).experienceEvents.records =
      after.experienceEvents.records := by
  intro policy step before after hroom
  have hpolicy : Bounded policy := bounded_load read
  have hsound : Sound before := sound_run parses sorting hpolicy (sound_start now) hroom
  have hlater := later_step parses policy sorting before (.summarize runId orders)
  obtain ⟨hevents, hledgers, hnow⟩ := @input_summarize parses policy sorting before runId orders
  have hroomAfter : Countable after := by
    unfold Countable
    rw [show after.harnessEvents = before.harnessEvents from hevents]
    exact hroom
  have hsoundAfter : Sound after := sound_step parses sorting hsound hpolicy _ hroomAfter
  have hrunAfter : after = run step { now } (operations ++ [.summarize runId orders]) := by
    rw [run_append]
    rfl
  have hfirst : ∀ e ∈ byRun runId after.experienceEvents.records,
      FirstFound parses sorting policy { now } (operations ++ [.summarize runId orders]) e := by
    intro e he
    have hmem := List.mem_of_mem_filter he
    rw [hrunAfter] at hmem hroomAfter
    exact first_found parses sorting hpolicy now _ hroomAfter e hmem
  have hspec := summarize_spec parses sorting orders hsound hroom hpolicy hrun
  refine ⟨hspec.1, nodup_findings (hsoundAfter.distinct runId), hfirst, ?_, ?_⟩
  · intro huntied orders'
    have hfound : ∀ e ∈ byRun runId before.experienceEvents.records,
        finding e ∈ (built policy sorting before runId orders).map finding := by
      intro e he
      obtain ⟨hmem, hid⟩ := List.mem_filter.mp he
      obtain ⟨first, firstOrders, rest, hsplit, hcandidate, _⟩ :=
        first_found parses sorting hpolicy now operations hroom e hmem
      have hlater : Later (run step { now } first) before := by
        show Later _ (run step { now } operations)
        rw [hsplit, run_append]
        exact later_run parses policy sorting _ _
      have hsound := sound_run parses sorting hpolicy (sound_start now) (hlater.countable hroom)
      rw [eq_of_beq hid] at hcandidate
      exact findings_built policy sorting hlater huntied firstOrders orders
        ((mem_findings_candidates sorting firstOrders hsound (hlater.countable hroom) hpolicy).mp
          (List.mem_map_of_mem hcandidate))
    obtain ⟨hinput, hempty⟩ := sameInput_run parses sorting policy
      (⟨rfl, rfl, rfl⟩ : SameInput { now } { now }) operations
    have hroomOnly : Countable (run step { now } (operations.filter Operation.ingests)) := by
      unfold Countable
      rw [hinput.events]
      exact hroom
    have hsoundOnly := sound_run parses sorting hpolicy (sound_start now) hroomOnly
    obtain ⟨heventsOnly, _, _⟩ := @input_summarize parses policy sorting
      (run step { now } (operations.filter Operation.ingests)) runId orders'
    have hsoundAfterOnly := sound_step parses sorting hsoundOnly hpolicy
      (.summarize runId orders') (by unfold Countable; rw [heventsOnly]; exact hroomOnly)
    apply (List.perm_ext_iff_of_nodup (nodup_findings (hsoundAfter.distinct runId))
      (nodup_findings (hsoundAfterOnly.distinct runId))).mpr
    intro f
    rw [mem_findings_stored parses sorting hpolicy hsound hroom hrun orders hsoundAfter hfound,
      mem_findings_stored parses sorting hpolicy hsoundOnly hroomOnly hrun orders' hsoundAfterOnly
        (by rw [hempty]; exact nofun)]
    constructor
    · intro hf
      exact findings_orders policy sorting hinput.events hinput.ledgers hinput.now runId _ _ hf
    · intro hf
      exact findings_orders policy sorting hinput.events.symm hinput.ledgers.symm hinput.now.symm
        runId _ _ hf
  · intro orders'
    obtain ⟨_, more, hrecords, htaken, _⟩ :=
      summarize_spec parses sorting orders' hsoundAfter hroomAfter hpolicy hrun
    have hknown : ∀ c ∈ candidatesOf policy sorting after runId orders',
        candidateKey c ∈ (byRun runId after.experienceEvents.records).map candidateKey := by
      intro c hc
      have hpattern :=
        (accepted_candidates sorting orders' hsoundAfter hroomAfter hpolicy hrun c hc).2.2.2
      have hfound := (mem_findings_candidates sorting orders' hsoundAfter hroomAfter hpolicy).mp
        (List.mem_map_of_mem hc)
      exact keys_stored parses sorting hpolicy hsound hroom hrun orders hpattern
        (findings_orders policy sorting hevents.symm hledgers.symm hnow.symm runId _ _ hfound)
    rw [takeAllNew_of_known candidateKey hknown] at htaken
    rw [hrecords, List.self_eq_append_right.mp htaken, List.append_nil]

end Runs

section Sample

theorem stepsBefore_eq_false {a b : EventEnvelopeV0} :
    stepsBefore a b = false ↔ b.createdAt.seconds < a.createdAt.seconds ∨
      b.createdAt.seconds = a.createdAt.seconds ∧
        (b.createdAt.nanosecond < a.createdAt.nanosecond ∨
          b.createdAt.nanosecond = a.createdAt.nanosecond ∧ b.stepId.toInt ≤ a.stepId.toInt) := by
  unfold stepsBefore Time.before
  split
  · next h =>
      simp only [decide_eq_false_iff_not, Int64.lt_iff_toInt_lt]
      omega
  · next h =>
      simp only [Bool.or_eq_false_iff, Bool.and_eq_false_iff, decide_eq_false_iff_not,
        beq_eq_false_iff_ne]
      omega

/-- The sort of few events. -/
def insertion : SliceSort stepsBefore :=
  .insertion
    (by
      intro a b
      simp only [stepsBefore_eq_false]
      omega)
    (by
      intro a b c
      simp only [stepsBefore_eq_false]
      omega)

def start : StartTime where
  year := 2026
  month := 5
  day := 4
  hour := 9
  minute := 0
  second := 0
  nanosecond := 0
  offset := 0
  inRange := by decide
  utc := rfl
  nonzero := by decide

def listed : Orders :=
  ⟨.listed, .listed, .listed⟩

def sampleRef : EventReference where
  uri := "urn:sample".toList
  sha256 := List.replicate 64 'a'

/-- An action with the same input and output at every step. -/
def action (stepId : Int64) : EventEnvelopeV0 where
  schemaVersion := experienceSchemaVersion
  eventId := "event".toList
  eventType := "agent.step".toList
  service := "harness".toList
  runId := "run-1".toList
  stepId := stepId
  actor := "agent".toList
  capability := "edit".toList
  dataClass := "other".toList
  redactionProfile := "none".toList
  policyDecision := "allow".toList
  status := "completed".toList
  stateTransition := "running->done".toList
  inputRef := sampleRef
  outputRef := sampleRef
  createdAt := start.toTime

def sampleStep : ExperienceLearningService → Operation → ExperienceLearningService :=
  step (fun _ => true) defaultLearningPolicy insertion

/-- Two actions with a call between them, and a last call. -/
theorem actions_store_what_is_found :
    let before := run sampleStep { now := start } [.ingestHarnessEvent (action 1),
      .summarize "run-1".toList listed, .ingestHarnessEvent (action 2)]
    let only := run sampleStep { now := start } [.ingestHarnessEvent (action 1),
      .ingestHarnessEvent (action 2)]
    (∃ summary, (runLearningSummary defaultLearningPolicy insertion before "run-1".toList
      listed).2 = .ok summary) ∧
    ((byRun "run-1".toList (sampleStep before
        (.summarize "run-1".toList listed)).experienceEvents.records).map finding).Perm
      ((byRun "run-1".toList (sampleStep only
        (.summarize "run-1".toList listed)).experienceEvents.records).map finding) := by
  have hrun : trimSpace "run-1".toList ≠ [] := by decide
  obtain ⟨hanswer, _, _, hperm, _⟩ := calls_store_what_is_found (fun _ => true) insertion none
    start [.ingestHarnessEvent (action 1), .summarize "run-1".toList listed,
      .ingestHarnessEvent (action 2)] hrun listed (by decide +kernel)
  exact ⟨hanswer, hperm (by unfold Untied; decide +kernel) listed⟩

/-- The patterns stored for a run, with their counts and last steps. -/
def storedCounts (operations : List Operation) : List (Text × Int64 × Int64) :=
  (byRun "run-1".toList (run sampleStep { now := start } operations).experienceEvents.records).map
    fun e => (e.pattern, e.occurrences, e.lastStepId)

/-- A call after the second of three equal actions keeps the third out of what
the last call stores. -/
theorem early_call_freezes_counts :
    storedCounts [.ingestHarnessEvent (action 1), .ingestHarnessEvent (action 2),
      .summarize "run-1".toList listed, .ingestHarnessEvent (action 3),
      .summarize "run-1".toList listed] =
        [(patternRepeatAction, 2, 2), (patternUnchangedOutput, 2, 2)] ∧
    storedCounts [.ingestHarnessEvent (action 1), .ingestHarnessEvent (action 2),
      .ingestHarnessEvent (action 3), .summarize "run-1".toList listed] =
        [(patternRepeatAction, 3, 3), (patternUnchangedOutput, 3, 3)] := by
  decide +kernel

end Sample

end C2c.Learning.Summaries
