import C2c.Studio.EditorTelemetry
import Mathlib.Data.List.Nodup

/-!
What the telemetry queue sends, whatever order emissions, timers and requests come
in.
-/

namespace C2c.Studio.TelemetryRuns

open C2c.Library.Machine
open C2c.Studio.EditorTelemetry

section Property

variable {Event : Type}

/-- A batch is being sent, was sent, or has failed twice. -/
def Served (s : Telemetry Event) (batch : Batch Event) : Prop :=
  (∃ attempts fetching, s.flushInFlight = .sending batch attempts fetching) ∨
    (batch, true) ∈ s.attempts ∨ [(batch, false), (batch, false)] <:+: s.attempts

/-- What the queue keeps of its promises. -/
structure Sound (s : Telemetry Event) : Prop where
  bounded : ∀ batch ∈ s.fetched, batch.length ≤ maxBatchSize
  own : ∀ batch ∈ s.fetched, batch ∈ s.taken
  disjoint : s.taken.Pairwise List.Disjoint
  ordered : s.taken.flatten.Sublist s.emitted
  accounted : ∀ event ∈ s.emitted, event ∉ s.queue →
    event ∈ s.overflowed ∨ ∃ batch ∈ s.taken, event ∈ batch ∧ Served s batch
  awake : s.flushInFlight = .none → s.queue ≠ [] → s.timer = true

/-- A flush is done with while no more events wait than fit into a batch. -/
def Prompt {Input : Type} (s : Telemetry Event) : Action Input → Prop
  | .finallyRuns => s.flushInFlight = .settled → s.queue.length ≤ maxBatchSize
  | _ => True

end Property

section Recorded

variable {Event : Type}

/-- Every event is in one place, in the order of the emissions. -/
structure Filed (s : Telemetry Event) : Prop where
  numbered : s.emitted.map Queued.number = List.range s.emitted.length
  ordered : (s.taken.flatten ++ s.queue).Sublist s.emitted
  own : ∀ batch ∈ s.fetched, batch ∈ s.taken
  accounted : ∀ event ∈ s.emitted,
    event ∈ s.queue ∨ event ∈ s.overflowed ∨ ∃ batch ∈ s.taken, event ∈ batch

/-- What holds of the records, whatever happens. -/
structure Recorded (s : Telemetry Event) : Prop extends Filed s where
  served : ∀ batch ∈ s.taken, Served s batch
  flying : ∀ batch attempts fetching, s.flushInFlight = .sending batch attempts fetching →
    batch ∈ s.taken ∧ (attempts = 0 ∨ [(batch, false)] <:+ s.attempts)

variable {s : Telemetry Event}

theorem recorded_start : Recorded ({} : Telemetry Event) where
  numbered := rfl
  ordered := List.Sublist.slnil
  own := nofun
  served := nofun
  flying := nofun
  accounted := nofun

/-- The timer and the base URL are not recorded. -/
theorem Recorded.timer (h : Recorded s) (timer baseUrl : Bool) :
    Recorded { s with timer, baseUrl } :=
  ⟨⟨h.numbered, h.ordered, h.own, h.accounted⟩, h.served, h.flying⟩

theorem recorded_push (h : Recorded s) (envelope : Event) : Recorded (push s envelope) where
  numbered := by
    simp only [push, List.map_append, List.map_cons, List.map_nil, h.numbered, List.length_append,
      List.length_cons, List.length_nil, List.range_succ]
  ordered := by
    have hpushed := h.ordered.append
      (List.Sublist.refl [(⟨s.emitted.length, envelope⟩ : Queued Event)])
    rw [List.append_assoc] at hpushed
    exact ((List.Sublist.refl s.taken.flatten).append (List.drop_sublist _ _)).trans hpushed
  own := h.own
  served := h.served
  flying := h.flying
  accounted := by
    intro event hevent
    let queued : Queued Event := ⟨s.emitted.length, envelope⟩
    let surplus := (s.queue ++ [queued]).length - maxQueueSize
    have hqueued : event ∈ s.queue ++ [queued] ∨ event ∈ s.overflowed ∨
        ∃ batch ∈ s.taken, event ∈ batch := by
      rcases List.mem_append.mp hevent with hold | hnew
      · rcases h.accounted event hold with hqueue | hgone
        · exact .inl (List.mem_append_left _ hqueue)
        · exact .inr hgone
      · exact .inl (List.mem_append_right _ hnew)
    rcases hqueued with hqueue | hoverflow | htaken
    · rw [← List.take_append_drop surplus (s.queue ++ [queued])] at hqueue
      rcases List.mem_append.mp hqueue with hsurplus | hkept
      · exact .inr (.inl (List.mem_append_right _ hsurplus))
      · exact .inl hkept
    · exact .inr (.inl (List.mem_append_left _ hoverflow))
    · exact .inr (.inr htaken)

/-- A batch that is not being sent stays served when another request is made. -/
theorem Served.next {s' : Telemetry Event} {batch : Batch Event} (h : Served s batch)
    (hflight : ∀ attempts fetching, s.flushInFlight ≠ .sending batch attempts fetching)
    (hattempts : s.attempts <+: s'.attempts) : Served s' batch := by
  rcases h with ⟨attempts, fetching, hsending⟩ | hsent | hfailed
  · exact absurd hsending (hflight attempts fetching)
  · exact .inr (.inl (hattempts.subset hsent))
  · exact .inr (.inr (hfailed.trans hattempts.isInfix))

theorem recorded_sendBatch {batch : Batch Event} {attempts : Nat} (h : Filed s)
    (hbatch : batch ∈ s.taken)
    (hothers : ∀ other ∈ s.taken, other ≠ batch → Served (sendBatch s batch attempts) other)
    (hattempts : attempts = 0 ∨ [(batch, false)] <:+ s.attempts) :
    Recorded (sendBatch s batch attempts) where
  numbered := h.numbered
  ordered := h.ordered
  own := by
    intro other hother
    simp only [sendBatch] at hother
    split at hother
    · rcases List.mem_append.mp hother with hold | hnew
      · exact h.own other hold
      · exact List.mem_singleton.mp hnew ▸ hbatch
    · exact h.own other hother
  served := by
    intro other hother
    by_cases heq : other = batch
    · exact .inl ⟨attempts, s.baseUrl, heq ▸ rfl⟩
    · exact hothers other hother heq
  flying := by
    rintro other attempts' fetching ⟨⟩
    exact ⟨hbatch, hattempts⟩
  accounted := h.accounted

theorem recorded_flush (h : Recorded s) : Recorded (flush s) := by
  unfold flush
  split
  · rename_i hnone
    have hgrounded : ∀ (batch : Batch Event) attempts fetching,
        s.flushInFlight ≠ .sending batch attempts fetching := by simp [hnone]
    dsimp only [cancelFlushTimer]
    split
    · exact ⟨⟨h.numbered, h.ordered, h.own, h.accounted⟩, fun batch hbatch =>
        (h.served batch hbatch).next (hgrounded batch) (List.prefix_refl _), nofun⟩
    · refine recorded_sendBatch ⟨h.numbered, ?_, ?_, ?_⟩ ?_ ?_ (.inl rfl)
      · simpa using h.ordered
      · exact fun batch hbatch => List.mem_append_left _ (h.own batch hbatch)
      · intro event hevent
        rcases h.accounted event hevent with hqueue | hoverflow | ⟨batch, hbatch, hmem⟩
        · exact .inr (.inr ⟨s.queue, List.mem_append_right _ (List.mem_singleton_self _), hqueue⟩)
        · exact .inr (.inl hoverflow)
        · exact .inr (.inr ⟨batch, List.mem_append_left _ hbatch, hmem⟩)
      · exact List.mem_append_right _ (List.mem_singleton_self _)
      · intro other hother hne
        rcases List.mem_append.mp hother with hold | hnew
        · exact (h.served other hold).next (hgrounded other) (List.prefix_refl _)
        · exact absurd (List.mem_singleton.mp hnew) hne
  · exact h

theorem recorded_requestEnds (h : Recorded s) (ok : Bool) : Recorded (requestEnds s ok) := by
  unfold requestEnds
  split
  · rename_i batch attempts fetching hflight
    obtain ⟨hbatch, hfailures⟩ := h.flying batch attempts fetching hflight
    have hothers {s' : Telemetry Event} {result : Bool}
        (hattempts : s'.attempts = s.attempts ++ [(batch, result)]) :
        ∀ other ∈ s.taken, other ≠ batch → Served s' other := by
      intro other hother hne
      rcases h.served other hother with ⟨_, _, hsending⟩ | hsent | hfailed
      · rw [hflight] at hsending
        cases hsending
        exact absurd rfl hne
      · exact .inr (.inl (hattempts ▸ List.mem_append_left _ hsent))
      · exact .inr (.inr (hattempts ▸ hfailed.trans (List.prefix_append _ _).isInfix))
    dsimp only
    split_ifs with hresult hretry
    · refine ⟨⟨h.numbered, h.ordered, h.own, h.accounted⟩, fun other hother => ?_, nofun⟩
      by_cases heq : other = batch
      · refine .inr (.inl (List.mem_append_right _ ?_))
        rw [heq, hresult]
        exact List.mem_singleton_self _
      · exact hothers rfl other hother heq
    · refine recorded_sendBatch ⟨h.numbered, h.ordered, h.own, h.accounted⟩ hbatch
        (hothers rfl) (.inr ?_)
      rw [Bool.not_eq_true] at hresult
      rw [hresult]
      exact List.suffix_append _ _
    · refine ⟨⟨h.numbered, h.ordered, h.own, h.accounted⟩, fun other hother => ?_, nofun⟩
      by_cases heq : other = batch
      · rcases hfailures with hfirst | ⟨earlier, hearlier⟩
        · exact absurd (hfirst ▸ Nat.le_refl 1) hretry
        · refine .inr (.inr ⟨earlier, [], ?_⟩)
          rw [Bool.not_eq_true] at hresult
          rw [heq, hresult, ← hearlier]
          simp
      · exact hothers rfl other hother heq
  · exact h

theorem recorded_afterFlight (h : Recorded s) (hsettled : s.flushInFlight = .settled) :
    Recorded (afterFlight s) := by
  have hidle : Recorded { s with flushInFlight := .none } := by
    refine ⟨⟨h.numbered, h.ordered, h.own, h.accounted⟩, fun batch hbatch => ?_, nofun⟩
    exact (h.served batch hbatch).next (by simp [hsettled]) (List.prefix_refl _)
  unfold afterFlight
  dsimp only
  split_ifs
  · exact recorded_flush hidle
  · exact hidle.timer true s.baseUrl
  · exact hidle

variable {Input : Type} (c : Contract Input Event)

/-- Everything that happens keeps the records. -/
theorem recorded_step (h : Recorded s) (action : Action Input) : Recorded (step c s action) := by
  cases action with
  | emit input occurredAt sessionId =>
      rw [step, emit]
      split
      · have hpushed := recorded_push h (c.toEnvelope input occurredAt sessionId)
        dsimp only
        split
        · exact recorded_flush hpushed
        · exact hpushed.timer true _
      · exact h
  | timerFires =>
      rw [step]
      split
      · exact recorded_flush (h.timer false s.baseUrl)
      · exact h
  | requestEnds ok => exact recorded_requestEnds h ok
  | finallyRuns =>
      rw [step]
      split
      · rename_i hsettled
        exact recorded_afterFlight h hsettled
      · exact h
  | baseUrlResolves ok => exact h.timer s.timer ok

end Recorded

section Awake

variable {Input Event : Type} {s : Telemetry Event}

/-- Events that wait are going to be flushed. -/
def Awake (s : Telemetry Event) : Prop :=
  s.flushInFlight = .none → s.queue ≠ [] → s.timer = true

theorem awake_flush (s : Telemetry Event) : Awake (flush s) := by
  unfold Awake flush
  split
  · dsimp only
    split_ifs
    · exact nofun
    · exact nofun
  · rename_i hother
    exact fun hnone => absurd hnone hother

theorem awake_step (c : Contract Input Event) (h : Awake s) (action : Action Input) :
    Awake (step c s action) := by
  cases action with
  | emit input occurredAt sessionId =>
      rw [step, emit]
      split
      · dsimp only
        split
        · exact awake_flush _
        · exact fun _ _ => rfl
      · exact h
  | timerFires =>
      rw [step]
      split
      · exact awake_flush _
      · exact h
  | requestEnds ok =>
      rw [step, requestEnds]
      split
      · dsimp only
        split_ifs
        · exact nofun
        · exact nofun
        · exact nofun
      · exact h
  | finallyRuns =>
      rw [step]
      split
      · unfold afterFlight
        dsimp only
        split_ifs with hfull hsome
        · exact awake_flush _
        · exact fun _ _ => rfl
        · intro _ hne
          exact absurd (List.length_pos_iff.mpr hne) hsome
      · exact h
  | baseUrlResolves ok => exact h

end Awake

section Bounded

variable {Input Event : Type} {s : Telemetry Event}

/-- No batch is too large, and nothing waits that should have been sent. -/
structure Small (s : Telemetry Event) : Prop where
  taken : ∀ batch ∈ s.taken, batch.length ≤ maxBatchSize
  idle : s.flushInFlight = .none → s.queue.length < maxBatchSize

theorem small_flush (htaken : ∀ batch ∈ s.taken, batch.length ≤ maxBatchSize)
    (hqueue : s.flushInFlight = .none → s.queue.length ≤ maxBatchSize) : Small (flush s) := by
  unfold flush
  split
  · rename_i hnone
    dsimp only [cancelFlushTimer]
    split
    · exact ⟨htaken, nofun⟩
    · refine ⟨fun batch hbatch => ?_, nofun⟩
      rcases List.mem_append.mp hbatch with hold | hnew
      · exact htaken batch hold
      · exact List.mem_singleton.mp hnew ▸ hqueue hnone
  · rename_i hother
    exact ⟨htaken, fun hnone => absurd hnone hother⟩

theorem push_length (s : Telemetry Event) (envelope : Event) :
    (push s envelope).queue.length ≤ s.queue.length + 1 := by
  simp only [push, List.length_drop, List.length_append, List.length_singleton]
  exact Nat.sub_le _ _

theorem small_step (c : Contract Input Event) (h : Small s) {action : Action Input}
    (hprompt : Prompt s action) : Small (step c s action) := by
  cases action with
  | emit input occurredAt sessionId =>
      rw [step, emit]
      split
      · dsimp only
        split
        · refine small_flush h.taken fun hnone => ?_
          exact Nat.le_trans (push_length s _) (h.idle hnone)
        · rename_i hnot
          exact ⟨h.taken, fun _ => Nat.lt_of_not_le hnot⟩
      · exact h
  | timerFires =>
      rw [step]
      split
      · exact small_flush h.taken fun hnone => Nat.le_of_lt (h.idle hnone)
      · exact h
  | requestEnds ok =>
      rw [step, requestEnds]
      split
      · dsimp only
        split_ifs
        · exact ⟨h.taken, nofun⟩
        · exact ⟨h.taken, nofun⟩
        · exact ⟨h.taken, nofun⟩
      · exact h
  | finallyRuns =>
      rw [step]
      split
      · rename_i hsettled
        unfold afterFlight
        dsimp only
        split_ifs with hfull hsome
        · exact small_flush h.taken fun _ => hprompt hsettled
        · exact ⟨h.taken, fun _ => Nat.lt_of_not_le hfull⟩
        · exact ⟨h.taken, fun _ => Nat.lt_of_not_le hfull⟩
      · exact h
  | baseUrlResolves ok => exact ⟨h.taken, h.idle⟩

end Bounded

section Runs

variable {Input Event : Type} {s : Telemetry Event}

theorem sound_of_recorded (hrecorded : Recorded s) (hawake : Awake s) (hsmall : Small s) :
    Sound s := by
  have hnodup : s.emitted.Nodup := by
    apply List.Nodup.of_map Queued.number
    rw [hrecorded.numbered]
    exact List.nodup_range
  have hordered : s.taken.flatten.Sublist s.emitted :=
    (List.sublist_append_left _ _).trans hrecorded.ordered
  constructor
  · exact fun batch hbatch => hsmall.taken batch (hrecorded.own batch hbatch)
  · exact hrecorded.own
  · exact (List.nodup_flatten.mp (hnodup.sublist hordered)).2
  · exact hordered
  · intro event hevent hqueue
    rcases hrecorded.accounted event hevent with hwaits | hoverflow | ⟨batch, hbatch, hmem⟩
    · exact absurd hwaits hqueue
    · exact .inl hoverflow
    · exact .inr ⟨batch, hbatch, hmem, hrecorded.served batch hbatch⟩
  · exact hawake

theorem recorded_run (c : Contract Input Event) (actions : List (Action Input)) :
    Recorded (run (step c) {} actions) ∧ Awake (run (step c) {} actions) := by
  have hstep (s : Telemetry Event) (action : Action Input) (h : Recorded s ∧ Awake s) :
      Recorded (step c s action) ∧ Awake (step c s action) :=
    ⟨recorded_step c h.1 action, awake_step c h.2 action⟩
  exact run_invariant hstep ⟨recorded_start, fun _ h => absurd rfl h⟩ actions

/-- In every state of a run whose flushes all end in time, the batches are bounded,
disjoint and in order, and no event is lost silently. -/
theorem prompt_run_sound (c : Contract Input Event) (before later : List (Action Input))
    (hprompt : Along (step c) Prompt {} (before ++ later)) : Sound (run (step c) {} before) := by
  obtain ⟨hrecorded, hawake⟩ := recorded_run c before
  have hstart : Small ({} : Telemetry Event) := ⟨nofun, fun _ => Nat.succ_pos 19⟩
  have hstep (s : Telemetry Event) (action : Action Input) (h : Small s) (hs : Prompt s action) :
      Small (step c s action) := small_step c h hs
  have hsmall : Small (run (step c) {} before) :=
    run_invariant_along hstep hstart ((along_append (step c)).mp hprompt).1
  exact sound_of_recorded hrecorded hawake hsmall

/-- Events that are numbers. -/
def numbers : Contract Nat Nat where
  isInput _ := true
  toEnvelope n _ _ := n

def emissions (count : Nat) : List (Action Nat) :=
  (List.range count).map fun n => .emit n "t" "s"

theorem two_batches_sound :
    Sound (run (step numbers) {} (emissions 20 ++ [.requestEnds true, .finallyRuns])) := by
  refine prompt_run_sound numbers _ [] ?_
  rw [List.append_nil, along_append]
  refine ⟨along_of_forall _ ?_ _, trivial, fun _ => by decide +kernel, trivial⟩
  intro s action haction
  obtain ⟨n, -, rfl⟩ := List.mem_map.mp haction
  exact trivial

/-- Events that come while a request is awaited all go into the next batch. -/
theorem long_flight_overfills : ¬ ∀ actions : List (Action Nat),
    Sound (run (step numbers) {} actions) := by
  intro hall
  have hsound := (hall (emissions 20 ++ emissions 21 ++ [.requestEnds true, .finallyRuns])).bounded
  have hlarge : (run (step numbers) {} (emissions 20 ++ emissions 21 ++
      [.requestEnds true, .finallyRuns])).fetched.any (fun batch => 20 < batch.length) = true := by
    decide +kernel
  obtain ⟨batch, hbatch, hlength⟩ := List.any_eq_true.mp hlarge
  exact absurd (hsound batch hbatch) (Nat.not_le.mpr (of_decide_eq_true hlength))

end Runs

end C2c.Studio.TelemetryRuns
