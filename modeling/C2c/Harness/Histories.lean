import Mathlib.Data.List.Chain
import Mathlib.Data.List.Perm.Basic
import C2c.Harness.Service

/-!
What the log of the harness shows of the history of a run.
-/

namespace C2c.Harness.Histories

open C2c.Library.JavaText
open C2c.Library.GoText
open C2c.Library.Sha256
open C2c.Library.Machine
open C2c.Harness.Events
open C2c.Harness.Service

section Shown

/-- The place of the transition an event of run `r` belongs to. -/
def placeFor (r : Text) (event : EventEnvelopeV0) (place : Option Nat) : Option Nat :=
  if event.runId = r then place else none

def logPlaces (s : HarnessService) (r : Text) : List Nat :=
  s.log.filterMap fun entry => placeFor r entry.event entry.place

def pendingPlaces (s : HarnessService) (r : Text) : List Nat :=
  s.pending.filterMap fun p => placeFor r p.event p.place

/-- The events of a run, in the order of the log. -/
def runEvents (s : HarnessService) (r : Text) : List EventEnvelopeV0 :=
  (s.log.map Entry.event).filter fun event => event.runId = r

/-- The event is the one of a transition. -/
structure ShownAs (transition : Transition) (event : EventEnvelopeV0) : Prop where
  states : event.stateTransition = transition.text
  eventType : event.eventType = transition.eventType
  status : event.status = transition.next.text

/-- Each transition starts where the one before it ended. -/
def Chained (history : List Transition) : Prop :=
  history.IsChain fun earlier later => later.previous = some earlier.next

/-- The log shows the history of a run: its state events are those of the first
transitions, in their order, and none of its events follows one that ends it. -/
structure ShowsHistory (s : HarnessService) (r : Text) : Prop where
  inOrder : logPlaces s r = List.range (logPlaces s r).length
  shown : ∀ entry ∈ s.log, entry.event.runId = r → ∀ k, entry.place = some k →
    ∃ transition, (s.history r)[k]? = some transition ∧ ShownAs transition entry.event
  chained : Chained (s.history r)
  closed : (runEvents s r).Pairwise fun earlier _ => endsRun earlier = false

/-- The handler's turn to emit: no other handler of the run holds an earlier
transition, and the log has no event that ends the run. -/
structure InTurn (s : HarnessService) (p : Pending) : Prop where
  earliest : ∀ k ∈ p.place, ∀ l ∈ pendingPlaces s p.event.runId, k ≤ l
  opened : ∀ event ∈ runEvents s p.event.runId, endsRun event = false

/-- A handler that emits does so in its turn. -/
def EmitsInTurn (s : HarnessService) : Action → Prop
  | .proceed thread now => ∀ p, s.pending[thread]? = some p → p.numbered →
      (completed p.event now).validate = none → InTurn s p
  | _ => True

end Shown

section Kept

/-- The handler of a transition: it holds the event of that transition. -/
def HoldsStateEvent (p : Pending) (transition : Transition) : Prop :=
  ∃ principal requestUri documents stepId,
    p.event = { stateEvent principal p.event.runId requestUri documents transition with
      stepId := stepId } ∧
    requestUri ≠ [] ∧ p.event.runId ≠ [] ∧ 0 ≤ stepId ∧ (p.numbered → 0 < stepId)

/-- What every step keeps: the history of a run is a chain that ends in its
status, and each transition has its event in the log or held by a handler. -/
structure Kept (s : HarnessService) : Prop where
  numbered : ∀ r, s.history r ≠ [] → ∃ n, n ≤ s.store.seq ∧ r = runIdOf n
  status : ∀ r, s.store.runs r = (s.history r).getLast?.map Transition.next
  chained : ∀ r, Chained (s.history r)
  placed : ∀ r, (logPlaces s r ++ pendingPlaces s r).Perm (List.range (s.history r).length)
  held : ∀ p ∈ s.pending, ∀ k ∈ p.place, ∃ transition,
    (s.history p.event.runId)[k]? = some transition ∧ HoldsStateEvent p transition
  logged : ∀ entry ∈ s.log, ∀ k ∈ entry.place, ∃ transition,
    (s.history entry.event.runId)[k]? = some transition ∧ ShownAs transition entry.event

theorem runIdOf_injective {m n : Nat} (h : runIdOf m = runIdOf n) : m = n := by
  have htext : natText m = natText n := List.append_cancel_left h
  calc m = digitsValue (natText m) := (digitsValue_natText m).symm
    _ = digitsValue (natText n) := by rw [htext]
    _ = n := digitsValue_natText n

theorem history_next_eq_nil {s : HarnessService} (h : Kept s) :
    s.history (runIdOf (s.store.seq + 1)) = [] := by
  by_contra hne
  obtain ⟨n, hn, hid⟩ := h.numbered _ hne
  have := runIdOf_injective hid
  omega

theorem completed_runId (event : EventEnvelopeV0) (now : Nat) :
    (completed event now).runId = event.runId := rfl

theorem completed_refs (event : EventEnvelopeV0) (now : Nat) : ∃ e,
    (completed event now).inputRef = enrichRef e event.inputRef "/input" ∧
      (completed event now).outputRef = enrichRef e event.outputRef "/output" :=
  ⟨_, rfl, rfl⟩

/-- What a handler has of the state event it holds is left as it is. -/
theorem shownAs_completed {p : Pending} {transition : Transition}
    (h : HoldsStateEvent p transition) (now : Nat) :
    ShownAs transition (completed p.event now) := by
  obtain ⟨principal, requestUri, documents, stepId, hevent, -⟩ := h
  rw [hevent]
  exact ⟨rfl, rfl, rfl⟩

/-- The event of a transition is always valid, so it is never left out. -/
theorem validate_completed {p : Pending} {transition : Transition}
    (h : HoldsStateEvent p transition) (hnumbered : p.numbered) (now : Nat) :
    (completed p.event now).validate = none := by
  obtain ⟨principal, requestUri, documents, stepId, hevent, huri, hrun, -, hpositive⟩ := h
  have hstep : 0 < stepId := hpositive hnumbered
  generalize p.event.runId = r at hevent hrun
  rw [hevent]
  have hstate : "urn:harness/run/".toList ++ r ++ "/state".toList ≠ [] := by simp
  obtain ⟨e, hinput, houtput⟩ := completed_refs { stateEvent principal r requestUri documents
    transition with stepId := stepId } now
  refine validate_eq_none ?_ (hinput ▸ validate_enrichRef e huri documents.request "/input")
    (houtput ▸ validate_enrichRef e hstate documents.state "/output") ?_
  · have hstatus : transition.next.text ≠ [] := by cases transition.next <;> decide
    have htype : transition.eventType ≠ [] := by
      unfold Transition.eventType
      split <;> decide
    have htext : transition.text ≠ [] := by
      unfold Transition.text
      split
      · decide
      · simp
    simp only [EventEnvelopeV0.headChecks, completed, enrichEventRefs, stateEvent,
      List.forall_mem_cons, List.not_mem_nil, if_true, ne_eq, decide_eq_true_eq, decide_not,
      Bool.not_eq_true', decide_eq_false_iff_not]
    exact ⟨by decide, trivial, by simp, htype, by decide, hrun, hstep, principal.named.1, by decide,
      by decide, by decide, by decide, hstatus, htext, by simp, nofun⟩
  · simp only [EventEnvelopeV0.tailChecks, List.mem_cons, List.not_mem_nil, or_false]
    rintro check (rfl | rfl) <;> rfl

theorem kept_init : Kept {} where
  numbered := fun r h => absurd rfl h
  status := fun r => rfl
  chained := fun r => .nil
  placed := fun r => .refl []
  held := nofun
  logged := nofun

/-- The store performs a transition, whose event a handler then holds. -/
theorem kept_transition {s : HarnessService} (h : Kept s) {store : RunStore} {r : Text}
    {transition : Transition} {event : EventEnvelopeV0} (hseq : s.store.seq ≤ store.seq)
    (hid : ∃ n, n ≤ store.seq ∧ r = runIdOf n)
    (hruns : store.runs = Function.update s.store.runs r (some transition.next))
    (hprevious : transition.previous = (s.history r).getLast?.map Transition.next)
    (hrun : event.runId = r)
    (hholds : HoldsStateEvent { event := event, place := some (s.history r).length } transition) :
    Kept (s.transition store r transition event) := by
  have hhistory : (s.transition store r transition event).history =
      Function.update s.history r (s.history r ++ [transition]) := rfl
  have hgrows (r' : Text) (k : Nat) (t : Transition) (hk : (s.history r')[k]? = some t) :
      ((s.transition store r transition event).history r')[k]? = some t := by
    rw [hhistory, Function.update_apply]
    split
    · rename_i heq
      subst heq
      rw [List.getElem?_append_left (List.getElem?_eq_some_iff.mp hk).1]
      exact hk
    · exact hk
  refine ⟨?_, ?_, ?_, ?_, ?_, ?_⟩
  · intro r' hne
    rw [hhistory, Function.update_apply] at hne
    split at hne
    · rename_i heq
      exact heq ▸ hid
    · obtain ⟨n, hn, hr'⟩ := h.numbered r' hne
      exact ⟨n, hn.trans hseq, hr'⟩
  · intro r'
    show store.runs r' = _
    rw [hhistory, hruns, Function.update_apply, Function.update_apply]
    split
    · simp
    · exact h.status r'
  · intro r'
    rw [hhistory, Function.update_apply]
    split
    · refine List.isChain_append.mpr ⟨h.chained r, .singleton transition, ?_⟩
      rintro last hlast head hhead
      cases hhead
      rw [hprevious, Option.mem_def.mp hlast]
      rfl
    · exact h.chained r'
  · intro r'
    have hpending : pendingPlaces (s.transition store r transition event) r' =
        pendingPlaces s r' ++ (if r = r' then [(s.history r).length] else []) := by
      show List.filterMap _ (s.pending ++ [_]) = _
      rw [List.filterMap_append]
      congr 1
      by_cases heq : r = r'
      · simp [placeFor, hrun, heq]
      · simp [placeFor, hrun, heq]
    show (logPlaces s r' ++ _).Perm _
    rw [hpending, hhistory, Function.update_apply, ← List.append_assoc]
    by_cases heq : r = r'
    · subst heq
      rw [if_pos rfl, if_pos rfl, List.length_append, List.length_singleton, List.range_succ]
      exact (h.placed r).append_right _
    · rw [if_neg heq, if_neg (Ne.symm heq), List.append_nil]
      exact h.placed r'
  · intro p hp k hk
    rcases List.mem_append.mp hp with hold | hnew
    · obtain ⟨t, ht, hp⟩ := h.held p hold k hk
      exact ⟨t, hgrows _ k t ht, hp⟩
    · rw [List.mem_singleton] at hnew
      subst hnew
      refine ⟨transition, ?_, hholds⟩
      have hk : (s.history r).length = k := by simpa using hk
      rw [hhistory, show event.runId = r from hrun, Function.update_self, ← hk,
        List.getElem?_append_right (Nat.le_refl _), Nat.sub_self]
      rfl
  · intro entry hentry k hk
    obtain ⟨t, ht, hshown⟩ := h.logged entry hentry k hk
    exact ⟨t, hgrows _ k t ht, hshown⟩

theorem kept_postRun {s : HarnessService} (h : Kept s) (principal : Principal)
    (workflowId : Text) (documents : Documents) :
    Kept (postRun s principal workflowId documents) := by
  unfold postRun
  split
  · exact h
  · have hnil := history_next_eq_nil h
    refine kept_transition h (Nat.le_succ _) ⟨_, Nat.le_refl _, rfl⟩ rfl ?_ rfl ?_
    · rw [hnil]
      rfl
    · exact ⟨principal, _, documents, 0, rfl, by decide, by simp [stateEvent, runIdOf], Int.le_refl 0,
        nofun⟩

theorem update_eq_ok {store store' : RunStore} {runId status : Text} {previous next : RunStatus}
    (h : store.update runId status = .ok (store', previous, next)) :
    store.runs runId = some previous ∧ previous.isTerminal = false ∧
      store' = { store with runs := Function.update store.runs runId (some next) } := by
  unfold RunStore.update at h
  split at h
  · cases h
  · split at h
    · cases h
    · rename_i current hcurrent
      split at h
      · cases h
      · rename_i next' hnext
        cases h
        refine ⟨hcurrent, ?_, rfl⟩
        unfold validateRunTransition at hnext
        split at hnext
        · cases hnext
        · rename_i hterminal
          simpa using hterminal

theorem kept_patchRun {s : HarnessService} (h : Kept s) (principal : Principal)
    (runId status : Text) (documents : Documents) :
    Kept (patchRun s principal runId status documents) := by
  unfold patchRun
  split
  · exact h
  · rename_i store previous next hupdate
    obtain ⟨hcurrent, -, rfl⟩ := update_eq_ok hupdate
    have hstatus := hcurrent.symm.trans (h.status runId)
    have hne : s.history runId ≠ [] := by
      intro hnil
      rw [hnil] at hstatus
      cases hstatus
    obtain ⟨n, hn, hid⟩ := h.numbered runId hne
    refine kept_transition h (Nat.le_refl _) ⟨n, hn, hid⟩ rfl hstatus rfl ?_
    exact ⟨principal, _, documents, 0, rfl, by simp, by simp [stateEvent, hid, runIdOf],
      Int.le_refl 0, nofun⟩

theorem kept_postEvent {s : HarnessService} (h : Kept s) (principal : Principal)
    (capabilities : Text → Option RegisteredCapability) (event : EventEnvelopeV0) (now : Nat) :
    Kept (postEvent s principal capabilities event now) := by
  unfold postEvent
  split
  · exact h
  · split
    · exact h
    · split
      · exact h
      · split
        · exact h
        · refine ⟨h.numbered, h.status, h.chained, fun r => ?_, fun p hp k hk => ?_, h.logged⟩
          · have hpending : pendingPlaces { s with
                pending := s.pending ++ [{ event := withDefaults principal event now }] } r =
                pendingPlaces s r := by
              show List.filterMap _ (s.pending ++ [_]) = _
              rw [List.filterMap_append]
              simp [placeFor, pendingPlaces]
            show (logPlaces s r ++ _).Perm _
            rw [hpending]
            exact h.placed r
          · rcases List.mem_append.mp hp with hold | hnew
            · exact h.held p hold k hk
            · rw [List.mem_singleton] at hnew
              subst hnew
              cases hk

theorem filterMap_set_eq {A B : Type*} (f : A → Option B) {l : List A} {i : Nat} {old new : A}
    (hold : l[i]? = some old) (hnew : f new = f old) : (l.set i new).filterMap f = l.filterMap f := by
  induction l generalizing i with
  | nil => rfl
  | cons head l ih =>
      cases i with
      | zero =>
          cases hold
          rw [List.set_cons_zero, List.filterMap_cons, List.filterMap_cons, hnew]
      | succ i =>
          rw [List.set_cons_succ, List.filterMap_cons, List.filterMap_cons, ih hold]

theorem kept_set {s : HarnessService} (h : Kept s) {steps : Text → Nat} {thread : Nat}
    {p p' : Pending} (hp : s.pending[thread]? = some p) (hrun : p'.event.runId = p.event.runId)
    (hplace : p'.place = p.place)
    (hholds : ∀ transition, HoldsStateEvent p transition → HoldsStateEvent p' transition) :
    Kept { s with steps := steps, pending := s.pending.set thread p' } := by
  refine ⟨h.numbered, h.status, h.chained, fun r => ?_, fun q hq k hk => ?_, h.logged⟩
  · have hpending : pendingPlaces { s with
        steps := steps, pending := s.pending.set thread p' } r = pendingPlaces s r := by
      refine filterMap_set_eq _ hp ?_
      rw [placeFor, placeFor, hrun, hplace]
    show (logPlaces s r ++ _).Perm _
    rw [hpending]
    exact h.placed r
  · rcases List.mem_or_eq_of_mem_set hq with hold | rfl
    · exact h.held q hold k hk
    · obtain ⟨t, ht, hp⟩ := h.held p (List.mem_of_getElem? hp) k (hplace ▸ hk)
      exact ⟨t, hrun ▸ ht, hholds t hp⟩

theorem kept_numberStep {s : HarnessService} (h : Kept s) {thread : Nat} {p : Pending}
    (hp : s.pending[thread]? = some p) : Kept (numberStep s thread p) := by
  unfold numberStep
  split
  · refine kept_set h hp rfl rfl ?_
    rintro transition ⟨principal, uri, documents, stepId, hevent, huri, hrun, -, -⟩
    exact ⟨principal, uri, documents, s.steps p.event.runId + 1,
      congrArg (fun event => { event with stepId := s.steps p.event.runId + 1 }) hevent, huri, hrun,
      by omega, fun _ => by omega⟩
  · rename_i hstep
    refine kept_set h hp rfl rfl ?_
    rintro transition ⟨principal, uri, documents, stepId, hevent, huri, hrun, hnonneg, -⟩
    have hid : p.event.stepId = stepId := congrArg EventEnvelopeV0.stepId hevent
    exact ⟨principal, uri, documents, stepId, hevent, huri, hrun, hnonneg, fun _ => by omega⟩

theorem pendingPlaces_emitStep {s : HarnessService} {thread : Nat} {p : Pending}
    (hp : s.pending[thread]? = some p) (now : Nat) (r : Text) :
    (pendingPlaces s r).Perm
      ((placeFor r p.event p.place).toList ++ pendingPlaces (emitStep s thread p now) r) := by
  obtain ⟨hlt, hget⟩ := List.getElem?_eq_some_iff.mp hp
  have hperm : s.pending.Perm (p :: s.pending.eraseIdx thread) :=
    hget ▸ (List.getElem_cons_eraseIdx_perm hlt).symm
  have hplaces := hperm.filterMap fun p => placeFor r p.event p.place
  rw [List.filterMap_cons] at hplaces
  cases hplace : placeFor r p.event p.place with
  | none =>
      rw [hplace] at hplaces
      exact hplaces
  | some k =>
      rw [hplace] at hplaces
      exact hplaces

theorem log_emitStep_valid {s : HarnessService} {thread : Nat} {p : Pending} {now : Nat}
    (hvalid : (completed p.event now).validate = none) :
    (emitStep s thread p now).log = s.log ++ [⟨completed p.event now, p.place⟩] :=
  if_pos hvalid

theorem log_emitStep_invalid {s : HarnessService} {thread : Nat} {p : Pending} {now : Nat}
    (hvalid : (completed p.event now).validate ≠ none) : (emitStep s thread p now).log = s.log :=
  if_neg hvalid

theorem logPlaces_emitStep {s : HarnessService} {thread : Nat} {p : Pending} {now : Nat}
    (hvalid : (completed p.event now).validate = none) (r : Text) :
    logPlaces (emitStep s thread p now) r =
      logPlaces s r ++ (placeFor r p.event p.place).toList := by
  unfold logPlaces
  rw [log_emitStep_valid hvalid, List.filterMap_append]
  rfl

/-- A handler whose event is left out holds no transition. -/
theorem place_eq_none_of_invalid {s : HarnessService} (h : Kept s) {thread : Nat} {p : Pending}
    (hp : s.pending[thread]? = some p) (hnumbered : p.numbered) {now : Nat}
    (hvalid : (completed p.event now).validate ≠ none) : p.place = none := by
  rw [Option.eq_none_iff_forall_not_mem]
  intro k hk
  obtain ⟨t, -, hholds⟩ := h.held p (List.mem_of_getElem? hp) k hk
  exact hvalid (validate_completed hholds hnumbered now)

theorem kept_emitStep {s : HarnessService} (h : Kept s) {thread : Nat} {p : Pending}
    (hp : s.pending[thread]? = some p) (hnumbered : p.numbered) (now : Nat) :
    Kept (emitStep s thread p now) := by
  refine ⟨h.numbered, h.status, h.chained, fun r => ?_, fun q hq => ?_, ?_⟩
  · refine .trans ?_ (h.placed r)
    by_cases hvalid : (completed p.event now).validate = none
    · rw [logPlaces_emitStep hvalid, List.append_assoc]
      exact (pendingPlaces_emitStep hp now r).symm.append_left _
    · have hplace : placeFor r p.event p.place = none := by
        rw [place_eq_none_of_invalid h hp hnumbered hvalid, placeFor, ite_self]
      have hpending := pendingPlaces_emitStep hp now r
      rw [hplace] at hpending
      unfold logPlaces
      rw [log_emitStep_invalid hvalid]
      exact hpending.symm.append_left _
  · exact h.held q (List.mem_of_mem_eraseIdx hq)
  · by_cases hvalid : (completed p.event now).validate = none
    · rw [log_emitStep_valid hvalid]
      intro entry hentry k hk
      rcases List.mem_append.mp hentry with hold | hnew
      · exact h.logged entry hold k hk
      · rw [List.mem_singleton] at hnew
        subst hnew
        obtain ⟨t, ht, hholds⟩ := h.held p (List.mem_of_getElem? hp) k hk
        exact ⟨t, ht, shownAs_completed hholds now⟩
    · rw [log_emitStep_invalid hvalid]
      exact h.logged

theorem kept_step {s : HarnessService} (h : Kept s) (action : Action) : Kept (step s action) := by
  cases action with
  | postRun principal workflowId documents => exact kept_postRun h principal workflowId documents
  | patchRun principal runId status documents =>
      exact kept_patchRun h principal runId status documents
  | postEvent principal capabilities event now =>
      exact kept_postEvent h principal capabilities event now
  | proceed thread now =>
      show Kept (proceed s thread now)
      unfold proceed
      split
      · exact h
      · rename_i p hp
        split
        · rename_i hnumbered
          exact kept_emitStep h hp hnumbered now
        · exact kept_numberStep h hp

end Kept

section InTurn

theorem showsHistory_iff {s : HarnessService} (h : Kept s) {r : Text} :
    ShowsHistory s r ↔ logPlaces s r = List.range (logPlaces s r).length ∧
      (runEvents s r).Pairwise fun earlier _ => endsRun earlier = false := by
  constructor
  · intro hshows
    exact ⟨hshows.inOrder, hshows.closed⟩
  · rintro ⟨hinOrder, hclosed⟩
    refine ⟨hinOrder, fun entry hentry hrun k hk => ?_, h.chained r, hclosed⟩
    subst hrun
    exact h.logged entry hentry k hk

theorem shows_of_log_eq {s s' : HarnessService} (h : Kept s') (hlog : s'.log = s.log) {r : Text}
    (hshows : ShowsHistory s r) : ShowsHistory s' r := by
  have hplaces : logPlaces s' r = logPlaces s r := by rw [logPlaces, hlog, logPlaces]
  have hevents : runEvents s' r = runEvents s r := by rw [runEvents, hlog, runEvents]
  rw [showsHistory_iff h, hplaces, hevents]
  exact ⟨hshows.inOrder, hshows.closed⟩

/-- The next place of the log is the least that is still held. -/
theorem eq_next_iff {m n k : Nat} {held : List Nat}
    (h : (List.range m ++ held).Perm (List.range n)) (hk : k ∈ held) :
    k = m ↔ ∀ l ∈ held, k ≤ l := by
  have hlater (l : Nat) (hl : l ∈ held) : m ≤ l ∧ l < n := by
    have hnodup : (List.range m ++ held).Nodup := h.nodup_iff.mpr List.nodup_range
    have hdisjoint := (List.nodup_append.mp hnodup).2.2
    have hmem := h.mem_iff.mp (List.mem_append_right _ hl)
    refine ⟨Nat.le_of_not_lt fun hlt => ?_, List.mem_range.mp hmem⟩
    exact hdisjoint l (List.mem_range.mpr hlt) l hl rfl
  constructor
  · rintro rfl l hl
    exact (hlater l hl).1
  · intro hleast
    have hmk := hlater k hk
    have hmem : m ∈ List.range m ++ held := h.mem_iff.mpr (List.mem_range.mpr (by omega))
    rcases List.mem_append.mp hmem with hlt | hheld
    · exact absurd (List.mem_range.mp hlt) (Nat.lt_irrefl m)
    · exact Nat.le_antisymm (hleast m hheld) hmk.1

theorem range_concat_iff {m k : Nat} :
    List.range m ++ [k] = List.range (List.range m ++ [k]).length ↔ k = m := by
  rw [List.length_append, List.length_range, List.length_singleton, List.range_succ,
    List.append_cancel_left_eq, List.singleton_inj]

/-- An emission leaves the log showing the history of the run exactly if it is
the handler's turn. -/
theorem shows_emitStep_iff {s : HarnessService} (h : Kept s) (hshows : ∀ r, ShowsHistory s r)
    {thread : Nat} {p : Pending} (hp : s.pending[thread]? = some p) (hnumbered : p.numbered)
    {now : Nat} (hvalid : (completed p.event now).validate = none) :
    (∀ r, ShowsHistory (emitStep s thread p now) r) ↔ InTurn s p := by
  have hkept := kept_emitStep h hp hnumbered now
  have hevents (r : Text) : runEvents (emitStep s thread p now) r =
      runEvents s r ++ if p.event.runId = r then [completed p.event now] else [] := by
    unfold runEvents
    rw [log_emitStep_valid hvalid, List.map_append, List.filter_append]
    congr 1
    by_cases hr : p.event.runId = r
    · simp [completed_runId, hr]
    · simp [completed_runId, hr]
  have hplaces := @logPlaces_emitStep s thread p now hvalid
  have hclosed : (runEvents (emitStep s thread p now) p.event.runId).Pairwise
      (fun earlier _ => endsRun earlier = false) ↔
        ∀ event ∈ runEvents s p.event.runId, endsRun event = false := by
    rw [hevents, if_pos rfl, List.pairwise_append]
    simp [(hshows p.event.runId).closed]
  have hinOrder : logPlaces (emitStep s thread p now) p.event.runId =
      List.range (logPlaces (emitStep s thread p now) p.event.runId).length ↔
        ∀ k ∈ p.place, ∀ l ∈ pendingPlaces s p.event.runId, k ≤ l := by
    rw [hplaces, placeFor, if_pos rfl]
    cases hplace : p.place with
    | none => simpa using (hshows p.event.runId).inOrder
    | some k =>
        have hmem : k ∈ pendingPlaces s p.event.runId :=
          List.mem_filterMap.mpr ⟨p, List.mem_of_getElem? hp, by rw [placeFor, if_pos rfl, hplace]⟩
        have hperm := h.placed p.event.runId
        rw [(hshows p.event.runId).inOrder] at hperm
        rw [Option.toList_some, (hshows p.event.runId).inOrder, range_concat_iff,
          eq_next_iff hperm hmem]
        simp
  constructor
  · intro hall
    have hnext := (showsHistory_iff hkept).mp (hall p.event.runId)
    exact ⟨hinOrder.mp hnext.1, hclosed.mp hnext.2⟩
  · rintro ⟨hearliest, hopened⟩ r
    rw [showsHistory_iff hkept]
    by_cases hr : p.event.runId = r
    · subst hr
      exact ⟨hinOrder.mpr hearliest, hclosed.mpr hopened⟩
    · have hplace : placeFor r p.event p.place = none := if_neg hr
      rw [hplaces, hplace, hevents, if_neg hr, Option.toList_none, List.append_nil,
        List.append_nil]
      exact ⟨(hshows r).inOrder, (hshows r).closed⟩

end InTurn

section Runs

theorem shows_step_iff {s : HarnessService} (h : Kept s) (hshows : ∀ r, ShowsHistory s r)
    (action : Action) :
    (∀ r, ShowsHistory (step s action) r) ↔ EmitsInTurn s action := by
  have hkept := kept_step h action
  have hquiet (hlog : (step s action).log = s.log) (r : Text) : ShowsHistory (step s action) r :=
    shows_of_log_eq hkept hlog (hshows r)
  cases action with
  | postRun principal workflowId documents =>
      refine iff_of_true (hquiet ?_) trivial
      show (postRun s principal workflowId documents).log = s.log
      unfold postRun
      split <;> rfl
  | patchRun principal runId status documents =>
      refine iff_of_true (hquiet ?_) trivial
      show (patchRun s principal runId status documents).log = s.log
      unfold patchRun
      split <;> rfl
  | postEvent principal capabilities event now =>
      refine iff_of_true (hquiet ?_) trivial
      show (postEvent s principal capabilities event now).log = s.log
      unfold postEvent
      split
      · rfl
      · split
        · rfl
        · split
          · rfl
          · split <;> rfl
  | proceed thread now =>
      cases hp : s.pending[thread]? with
      | none =>
          refine iff_of_true (hquiet ?_) fun p hp' => by cases hp.symm.trans hp'
          show (proceed s thread now).log = s.log
          rw [proceed, hp]
      | some p =>
          have hcondition : EmitsInTurn s (.proceed thread now) ↔
              (p.numbered → (completed p.event now).validate = none → InTurn s p) := by
            constructor
            · exact fun h => h p hp
            · rintro h p' hp'
              cases hp.symm.trans hp'
              exact h
          rw [hcondition]
          by_cases hnumbered : p.numbered
          · have hstep : step s (.proceed thread now) = emitStep s thread p now := by
              show proceed s thread now = _
              rw [proceed, hp]
              exact if_pos hnumbered
            rw [hstep] at hquiet ⊢
            by_cases hvalid : (completed p.event now).validate = none
            · rw [shows_emitStep_iff h hshows hp hnumbered hvalid]
              exact ⟨fun h _ _ => h, fun h => h hnumbered hvalid⟩
            · refine iff_of_true (hquiet ?_) fun _ h => absurd h hvalid
              exact log_emitStep_invalid hvalid
          · refine iff_of_true (hquiet ?_) fun h => absurd h hnumbered
            show (proceed s thread now).log = s.log
            rw [proceed, hp]
            show (if p.numbered then _ else numberStep s thread p).log = s.log
            rw [if_neg hnumbered, numberStep]
            split <;> rfl

section Sample

/-- An orchestrator, a run it creates, completes, and an event of the run whose
check of the run comes before the completion and whose emission comes after. -/
def orchestrator : Principal :=
  requirePrincipal "orchestrator".toList "orchestrator".toList

def noDocuments : Documents :=
  ⟨[], [], []⟩

def stepEvent : EventEnvelopeV0 where
  eventType := "step.completed".toList
  runId := runIdOf 1
  capability := "build".toList
  dataClass := dataClassOther
  redactionProfile := "none".toList
  policyDecision := "allowed".toList
  status := "ok".toList
  stateTransition := "running->done".toList

def overtaken : List Action :=
  [.postRun orchestrator "workflow".toList noDocuments, .proceed 0 1, .proceed 0 1,
    .postEvent orchestrator (fun _ => none) stepEvent 2,
    .patchRun orchestrator (runIdOf 1) "completed".toList noDocuments,
    .proceed 1 3, .proceed 1 3, .proceed 0 4, .proceed 0 4]

end Sample

end Runs

end C2c.Harness.Histories
