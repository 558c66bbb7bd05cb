import C2c.Learning.Summaries

/-!
The ids of the experience events that the processes of a service store, one
process after the other.
-/

namespace C2c.Learning.EventIds

open C2c.Library.JavaText
open C2c.Library.GoTime
open C2c.Library.JsonLines
open C2c.Library.GoCollections
open C2c.Library.Machine
open C2c.Harness.Events (SchemaValidationError)
open C2c.Learning.Records
open C2c.Learning.Analyzer
open C2c.Learning.Summaries

section Processes

/-- The service over its files, and whether a process has started on them. -/
structure Deployment where
  service : ExperienceLearningService
  running : Bool := true

inductive Operation
  | serve (operation : Summaries.Operation)
  | restart (now : StartTime)

/-- The log a process starts with, if it reads the file. -/
def reopen {Record Error : Type} (format : Format Record Record Error) (log : Log Record) :
    Option (Log Record) :=
  match restoreFromDisk format log.file with
  | .ok records => some { log with records }
  | .error _ => none

variable (parses : Text → Bool) (policy : LearningPolicy) (sorting : SliceSort stepsBefore)

/-- A new process, unless one of its stores cannot be opened. -/
def restart (d : Deployment) (now : StartTime) : Deployment :=
  match reopen (harnessEventStore parses) d.service.harnessEvents,
    reopen trajectoryLedgerStore d.service.ledgers,
    reopen experienceEventStore d.service.experienceEvents with
  | some harnessEvents, some ledgers, some experienceEvents =>
      { service := { harnessEvents, ledgers, experienceEvents, now }, running := true }
  | _, _, _ => { d with running := false }

def perform (d : Deployment) : Operation → Deployment
  | .serve operation =>
      if d.running then { d with service := step parses policy sorting d.service operation } else d
  | .restart now => restart parses d now

/-- What the ids of a process begin with. -/
def idPrefix (now : StartTime) : Text :=
  "xel-".toList ++ now.dateText ++ ['-']

/-- A process starts on a day of which no stored event has an id, and draws
fewer ids than its counter has values. -/
def FreshDay (d : Deployment) : Operation → Prop
  | .restart now => ∀ e ∈ d.service.experienceEvents.records, ¬ idPrefix now <+: e.eventId
  | .serve (.summarize runId orders) =>
      d.service.seq.toNat + (built policy sorting d.service runId orders).length < 2 ^ 64
  | .serve _ => True

end Processes

section Ids

theorem natText_injective {m n : Nat} (h : natText m = natText n) : m = n := by
  calc m = digitsValue (natText m) := (digitsValue_natText m).symm
    _ = digitsValue (natText n) := by rw [h]
    _ = n := digitsValue_natText n

theorem eventIdOf_eq (now : StartTime) (seq : UInt64) :
    eventIdOf now seq = idPrefix now ++ natText seq.toNat := by
  simp [eventIdOf, idPrefix]

/-- The ids an analysis draws: the numbers after the counter, each once. -/
theorem ids_withIds (now : StartTime) {seq : UInt64} {l : List ExperienceEventV0}
    (h : seq.toNat + l.length < 2 ^ 64) :
    (∀ c ∈ withIds now seq l, ∃ n, seq.toNat < n ∧ n ≤ seq.toNat + l.length ∧
      c.eventId = idPrefix now ++ natText n) ∧
    ((withIds now seq l).map ExperienceEventV0.eventId).Nodup := by
  induction l generalizing seq with
  | nil => exact ⟨nofun, List.nodup_nil⟩
  | cons c l ih =>
      rw [List.length_cons] at h
      have hnext : (seq + 1).toNat = seq.toNat + 1 := by
        rw [UInt64.toNat_add]
        exact Nat.mod_eq_of_lt (by simp; omega)
      obtain ⟨hids, hnodup⟩ := ih (show (seq + 1).toNat + l.length < 2 ^ 64 by omega)
      rw [hnext] at hids
      constructor
      · intro d hd
        rcases List.mem_cons.mp hd with rfl | hd
        · refine ⟨seq.toNat + 1, by omega, by rw [List.length_cons]; omega, ?_⟩
          rw [← hnext]
          exact eventIdOf_eq now (seq + 1)
        · obtain ⟨n, hlow, hhigh, hid⟩ := hids d hd
          exact ⟨n, by omega, by rw [List.length_cons]; omega, hid⟩
      · rw [withIds, List.map_cons]
        refine List.nodup_cons.mpr ⟨?_, hnodup⟩
        intro hmem
        obtain ⟨d, hd, hid⟩ := List.mem_map.mp hmem
        obtain ⟨n, hlow, _, hn⟩ := hids d hd
        have hsame : idPrefix now ++ natText n = idPrefix now ++ natText (seq + 1).toNat := by
          rw [← hn, hid, ← eventIdOf_eq]
        have := natText_injective (List.append_cancel_left hsame)
        omega

end Ids

section Invariant

/-- Every stored event has an id of its own, which this process drew or which is
of another day. -/
structure Numbered (d : Deployment) : Prop where
  written : Written experienceEventStore d.service.experienceEvents
  drawn : ∀ e ∈ d.service.experienceEvents.records,
    (∃ n ≤ d.service.seq.toNat, e.eventId = idPrefix d.service.now ++ natText n) ∨
      ¬ idPrefix d.service.now <+: e.eventId
  distinct : (d.service.experienceEvents.records.map ExperienceEventV0.eventId).Nodup

theorem written_appendNew {known : List Text} {log : Log ExperienceEventV0}
    (h : Written experienceEventStore log) (candidates : List ExperienceEventV0) :
    Written experienceEventStore (appendNew known log candidates).1 := by
  induction candidates generalizing known log with
  | nil => exact h
  | cons c candidates ih =>
      rw [appendNew]
      split
      · exact ih h
      · have hnext := written_append h c
        split
        · next next record happend =>
            rw [happend] at hnext
            exact ih hnext
        · next next e happend =>
            rw [happend] at hnext
            exact hnext

/-- Whether or not the store takes them, only candidates are appended. -/
theorem records_appendNew (known : List Text) (log : Log ExperienceEventV0)
    (candidates : List ExperienceEventV0) :
    ∃ more, (appendNew known log candidates).1.records = log.records ++ more ∧
      more.Sublist candidates := by
  induction candidates generalizing known log with
  | nil => exact ⟨[], (List.append_nil _).symm, .slnil⟩
  | cons c candidates ih =>
      rw [appendNew]
      split
      · obtain ⟨more, hmore, hsub⟩ := ih known log
        exact ⟨more, hmore, hsub.cons c⟩
      · have hrecords := @records_append _ _ _ experienceEventStore log c
        split
        · next next record happend =>
            have hrecord : record = c := by
              unfold append experienceEventStore Format.checked at happend
              grind
            rw [happend] at hrecords
            obtain ⟨more, hmore, hsub⟩ := ih (candidateKey c :: known) next
            refine ⟨c :: more, ?_, hsub.cons_cons c⟩
            rw [hmore, hrecords, hrecord, List.append_assoc, List.singleton_append]
        · next next e happend =>
            rw [happend] at hrecords
            exact ⟨[], hrecords, List.nil_sublist _⟩

variable (parses : Text → Bool) {policy : LearningPolicy} (sorting : SliceSort stepsBefore)

theorem eventIds_gating (policy : LearningPolicy) (candidates : List ExperienceEventV0) :
    (applyPolicyGating policy candidates).map ExperienceEventV0.eventId =
      candidates.map ExperienceEventV0.eventId := by
  unfold applyPolicyGating
  split
  · rfl
  · rw [List.map_map]
    rfl

/-- The ids of the candidates of a call: numbers it draws, each once. -/
theorem ids_analysis {s : ExperienceLearningService} {runId : Text} {orders : Orders}
    (hdraws : s.seq.toNat + (built policy sorting s runId orders).length < 2 ^ 64)
    {candidates : List ExperienceEventV0} {seq : UInt64}
    (h : analysis policy sorting s runId orders = some (candidates, seq)) :
    seq.toNat = s.seq.toNat + (built policy sorting s runId orders).length ∧
      (∀ c ∈ candidates, ∃ n, s.seq.toNat < n ∧ n ≤ seq.toNat ∧
        c.eventId = idPrefix s.now ++ natText n) ∧
      (candidates.map ExperienceEventV0.eventId).Nodup := by
  obtain ⟨hids, hnodup⟩ := ids_withIds s.now hdraws
  unfold analysis analyzeRun at h
  split at h
  · cases h
  obtain ⟨rfl, rfl⟩ := Prod.mk.inj (Option.some.inj h)
  have hseq : (s.seq + UInt64.ofNat (built policy sorting s runId orders).length).toNat =
      s.seq.toNat + (built policy sorting s runId orders).length := by
    have hlength : (built policy sorting s runId orders).length < UInt64.size := by
      show _ < 2 ^ 64
      omega
    rw [UInt64.toNat_add, UInt64.toNat_ofNat_of_lt' hlength]
    exact Nat.mod_eq_of_lt hdraws
  obtain ⟨more, hmore, hsub, _⟩ := takeAllNew_eq_append candidateKey []
    (withIds s.now s.seq (built policy sorting s runId orders))
  have hperm : (dedupeCandidates orders
      (withIds s.now s.seq (built policy sorting s runId orders))).Perm more := by
    rw [dedupeCandidates, hmore]
    exact orders.candidates.perm more
  refine ⟨hseq, ?_, ?_⟩
  · intro c hc
    have hid := List.mem_map_of_mem (f := ExperienceEventV0.eventId) hc
    rw [eventIds_gating] at hid
    obtain ⟨c', hc', heq⟩ := List.mem_map.mp hid
    obtain ⟨n, hlow, hhigh, hn⟩ := hids c' (hsub.subset (hperm.mem_iff.mp hc'))
    refine ⟨n, hlow, ?_, heq ▸ hn⟩
    show n ≤ (s.seq + UInt64.ofNat (built policy sorting s runId orders).length).toNat
    rw [hseq]
    exact hhigh
  · rw [eventIds_gating]
    exact (hperm.map _).nodup_iff.mpr (hnodup.sublist (hsub.map _))

theorem numbered_start (now : StartTime) : Numbered { service := { now } } where
  written := ⟨[], rfl, .nil⟩
  drawn := nofun
  distinct := List.nodup_nil

theorem numbered_summarize {d : Deployment} (h : Numbered d) (runId : Text) (orders : Orders)
    (hdraws : d.service.seq.toNat + (built policy sorting d.service runId orders).length < 2 ^ 64) :
    Numbered { d with service := (runLearningSummary policy sorting d.service runId orders).1 } := by
  unfold runLearningSummary
  split
  · exact h
  next candidates seq hanalysis =>
  obtain ⟨hseq, hids, hnodup⟩ := ids_analysis sorting hdraws hanalysis
  let known := (byRun runId d.service.experienceEvents.records).map candidateKey
  let log := (appendNew known d.service.experienceEvents candidates).1
  have hkept : Numbered
      { d with service := { d.service with experienceEvents := log, seq := seq } } := by
    obtain ⟨more, hmore, hsub⟩ := records_appendNew known d.service.experienceEvents candidates
    have hmore : log.records = d.service.experienceEvents.records ++ more := hmore
    refine ⟨written_appendNew h.written candidates, ?_, ?_⟩
    · intro e he
      rcases List.mem_append.mp (hmore ▸ he) with he | he
      · refine (h.drawn e he).imp_left ?_
        rintro ⟨n, hn, hid⟩
        exact ⟨n, show n ≤ seq.toNat by omega, hid⟩
      · obtain ⟨n, _, hhigh, hid⟩ := hids e (hsub.subset he)
        exact .inl ⟨n, hhigh, hid⟩
    · rw [hmore, List.map_append]
      refine h.distinct.append (hnodup.sublist (hsub.map _)) ?_
      intro id hold hnew
      obtain ⟨e, he, rfl⟩ := List.mem_map.mp hold
      obtain ⟨c, hc, hid⟩ := List.mem_map.mp hnew
      obtain ⟨m, hlow, _, hm⟩ := hids c (hsub.subset hc)
      rcases h.drawn e he with ⟨n, hn, hdrawn⟩ | hother
      · have := natText_injective (List.append_cancel_left (hm.symm.trans (hid.trans hdrawn)))
        omega
      · exact hother ⟨natText m, by rw [← hm, hid]⟩
  dsimp only
  split <;> exact hkept

theorem numbered_restart {d : Deployment} (h : Numbered d) {now : StartTime}
    (hfresh : ∀ e ∈ d.service.experienceEvents.records, ¬ idPrefix now <+: e.eventId) :
    Numbered (restart parses d now) := by
  unfold restart
  split
  · next harnessEvents ledgers experienceEvents _ _ hreopen =>
      have hlaw : Lawful experienceEventStore := fun _ _ hv => ExperienceEventV0.ofJson_json hv
      have hsame : experienceEvents = d.service.experienceEvents := by
        unfold reopen at hreopen
        split at hreopen
        · next records hrestored =>
            cases hreopen
            rw [restored_eq hlaw h.written hrestored]
        · cases hreopen
      subst hsame
      exact ⟨h.written, fun e he => .inr (hfresh e he), h.distinct⟩
  · exact ⟨h.written, h.drawn, h.distinct⟩

theorem numbered_perform {d : Deployment} (h : Numbered d) {operation : Operation}
    (hfresh : FreshDay policy sorting d operation) :
    Numbered (perform parses policy sorting d operation) := by
  cases operation with
  | restart now => exact numbered_restart parses h hfresh
  | serve operation =>
      show Numbered (if d.running then _ else d)
      split
      · cases operation with
        | ingestHarnessEvent event => exact ⟨h.written, h.drawn, h.distinct⟩
        | ingestTrajectoryLedger ledger => exact ⟨h.written, h.drawn, h.distinct⟩
        | summarize runId orders => exact numbered_summarize sorting h runId orders hfresh
      · exact h

/-- Where every process starts on a day without stored events, each stored event
has an id of its own, whichever analyses and restarts there are. -/
theorem fresh_days_have_distinct_ids (now : StartTime) (operations : List Operation)
    (hfresh : Along (perform parses policy sorting) (FreshDay policy sorting)
      { service := { now } } operations) :
    let records := (run (perform parses policy sorting) { service := { now } }
      operations).service.experienceEvents.records
    (records.map ExperienceEventV0.eventId).Nodup ∧
      ∀ runId, ∀ id ∈ (byRun runId records).map ExperienceEventV0.eventId,
        ∃ e ∈ records, e.eventId = id ∧ ∀ e' ∈ records, e'.eventId = id → e' = e := by
  intro records
  have hstep (d : Deployment) (operation : Operation) (h : Numbered d)
      (hfresh : FreshDay policy sorting d operation) :
      Numbered (perform parses policy sorting d operation) :=
    numbered_perform parses sorting h hfresh
  have hdistinct : (records.map ExperienceEventV0.eventId).Nodup :=
    (run_invariant_along hstep (numbered_start now) hfresh).distinct
  refine ⟨hdistinct, ?_⟩
  intro runId id hid
  obtain ⟨e, he, rfl⟩ := List.mem_map.mp hid
  have hmem := List.mem_of_mem_filter he
  exact ⟨e, hmem, rfl, fun e' he' heq => List.inj_on_of_nodup_map hdistinct he' hmem heq⟩

end Invariant

section Sample

/-- An accepted artifact of a run. -/
def accepted (runId : String) : EventEnvelopeV0 :=
  { action 1 with runId := runId.toList, status := "accepted".toList }

/-- An analysis, a restart and the analysis of another run. -/
def restarted (now : StartTime) : List Operation :=
  [.serve (.ingestHarnessEvent (accepted "run-1")), .serve (.summarize "run-1".toList listed),
    .restart now, .serve (.ingestHarnessEvent (accepted "run-2")),
    .serve (.summarize "run-2".toList listed)]

def idsAfter (operations : List Operation) : List Text :=
  (run (perform (fun _ => true) defaultLearningPolicy insertion)
    { service := { now := start } } operations).service.experienceEvents.records.map
      ExperienceEventV0.eventId

/-- A restart on the same day gives the first id again. -/
theorem same_day_repeats_id :
    idsAfter (restarted start) = ["xel-20260504-1".toList, "xel-20260504-1".toList] := by
  decide +kernel

def nextDay : StartTime :=
  { start with
    day := 5
    inRange := by decide
    nonzero := by decide }

/-- A restart on the next day goes on with new ids. -/
theorem next_day_keeps_ids_distinct :
    (idsAfter (restarted nextDay)).Nodup := by
  refine (fresh_days_have_distinct_ids (fun _ => true) insertion start (restarted nextDay) ?_).1
  refine ⟨trivial, ?_, ?_, trivial, ?_, trivial⟩
  · show _ < _
    decide +kernel
  · show ∀ e ∈ _, ¬ _ <+: _
    decide +kernel
  · show _ < _
    decide +kernel

end Sample

end C2c.Learning.EventIds
