import C2c.Bff.SessionStore
import C2c.Library.Machine

/-!
The calls of the session store beside a record of all sessions ever created.
-/

namespace C2c.Bff.SessionRuns

open C2c.Library.RegExp
open C2c.Library.PythonDict
open C2c.Library.Machine
open C2c.Studio.PreRedaction (isTrimmed)
open C2c.Bff.SessionStore

inductive Operation
  | create (identity : SessionIdentity) (sessionId secret : CodeUnits)
  | get (sessionId : CodeUnits)
  | getTrustCasePreference (sessionId programId : CodeUnits)
  | setTrustCasePreference (sessionId programId trustCaseId : CodeUnits)
  | delete (sessionId : CodeUnits)

structure Call where
  now : Int
  operation : Operation

/-- What a caller sees of the sessions, their preferences apart. -/
inductive Answer
  | created (result : Except SessionIdentifierError IssuedRecord)
  | found (record : Option IssuedRecord)
  | preference (value : Preference)
  | written (result : Except SessionIdentifierError (Option IssuedRecord))
  | deleted

/-- The operations of `createSessionStore`. -/
def answer (options : SessionStoreOptions) (sessions : Sessions) (call : Call) :
    Answer × Sessions :=
  match call.operation with
  | .create identity sessionId secret =>
      let (result, sessions) := create options sessions call.now identity sessionId secret
      (.created (result.map SessionRecord.toIssuedRecord), sessions)
  | .get sessionId =>
      let (record, sessions) := get options sessions call.now sessionId
      (.found (record.map SessionRecord.toIssuedRecord), sessions)
  | .getTrustCasePreference sessionId programId =>
      let (value, sessions) :=
        getTrustCasePreference options sessions call.now sessionId programId
      (.preference value, sessions)
  | .setTrustCasePreference sessionId programId trustCaseId =>
      let (result, sessions) :=
        setTrustCasePreference options sessions call.now sessionId programId trustCaseId
      (.written (result.map (Option.map SessionRecord.toIssuedRecord)), sessions)
  | .delete sessionId => (.deleted, (delete sessions sessionId).2)

section Reference

/-- A session that was created, and what has become of it; the latest of its
accesses stands first, its creation last. -/
structure Tracked where
  issued : IssuedRecord
  accesses : List Int
  deleted : Bool := false
  evicted : Bool := false
  chosen : CodeUnits → Option CodeUnits := fun _ => none

/-- All sessions in the order of their creation. -/
abbrev History := List Tracked

variable (options : SessionStoreOptions) (now : Int)

/-- No idle window has passed between two of the times. -/
def InEveryWindow (times : List Int) : Prop :=
  options.idleTimeoutMs ≤ 0 ∨
    times.IsChain fun later earlier => later - earlier ≤ options.idleTimeoutMs

instance (times : List Int) : Decidable (InEveryWindow options times) :=
  inferInstanceAs (Decidable (_ ∨ _))

def Tracked.Live (t : Tracked) : Prop :=
  t.deleted = false ∧ t.evicted = false ∧ InEveryWindow options (now :: t.accesses)

instance (t : Tracked) : Decidable (t.Live options now) :=
  inferInstanceAs (Decidable (_ ∧ _ ∧ _))

def liveSession (history : History) (sessionId : CodeUnits) : Option Tracked :=
  (history.find? fun t => t.issued.sessionId = sessionId).filter fun t => t.Live options now

def change (sessionId : CodeUnits) (f : Tracked → Tracked) (history : History) : History :=
  history.map fun t => if t.issued.sessionId = sessionId then f t else t

def Tracked.access (t : Tracked) : Tracked :=
  { t with accesses := now :: t.accesses }

def Tracked.choose (programId trustCaseId : CodeUnits) (t : Tracked) : Tracked :=
  { t with chosen := fun p => if p = programId then some trustCaseId else t.chosen p }

def Tracked.delete (t : Tracked) : Tracked :=
  { t with deleted := true }

def Tracked.evict (t : Tracked) : Tracked :=
  { t with evicted := true }

/-- The first live sessions are evicted. -/
def evictOldest : Nat → History → History
  | 0, history => history
  | _ + 1, [] => []
  | k + 1, t :: history =>
      if t.Live options now then t.evict :: evictOldest k history
      else t :: evictOldest (k + 1) history

/-- The number of sessions that have to make way for one more. -/
def excess (live : Nat) : Nat :=
  (live + 1 - options.maxSessions).toNat

def preferenceOf : Option CodeUnits → Preference
  | none => .null
  | some trustCaseId => .chosen trustCaseId

/-- What the operations are to answer. -/
def expected (history : History) (call : Call) : Answer × History :=
  let accessed sessionId := change sessionId (Tracked.access call.now) history
  let live := liveSession options call.now history
  match call.operation with
  | .create identity sessionId secret =>
      match validateSessionIdentity identity with
      | .error e => (.created (.error e), history)
      | .ok additions =>
          let issued : IssuedRecord :=
            { sessionId := sessionId
              tenantId := identity.tenantId
              userId := identity.userId
              draftKeyWrappingSecret := secret
              studioRedactionPatternAdditions := additions
              createdAt := call.now }
          let count := history.countP fun t => t.Live options call.now
          (.created (.ok issued),
            evictOldest options call.now (excess options count) history ++
              [{ issued := issued, accesses := [call.now] }])
  | .get sessionId => (.found ((live sessionId).map Tracked.issued), accessed sessionId)
  | .getTrustCasePreference sessionId programId =>
      (.preference (preferenceOf ((live sessionId).bind fun t =>
        if programId = [] then none else t.chosen programId)), accessed sessionId)
  | .setTrustCasePreference sessionId programId trustCaseId =>
      match live sessionId with
      | none => (.written (.ok none), accessed sessionId)
      | some t =>
          if programId = [] ∨ trustCaseId = [] then (.written (.ok none), accessed sessionId)
          else if ¬ isTrustCaseId trustCaseId then
            (.written (.error ⟨"trustCaseId must match the trust-case identifier pattern"⟩),
              accessed sessionId)
          else
            (.written (.ok (some t.issued)),
              change sessionId (Tracked.choose programId trustCaseId) (accessed sessionId))
  | .delete sessionId => (.deleted, change sessionId Tracked.delete history)

end Reference

/-- The store and the record of all sessions under the same calls. -/
structure State where
  clock : Int
  sessions : Sessions := []
  history : History := []
  answers : List Answer := []
  expected : List Answer := []

def step (options : SessionStoreOptions) (s : State) (call : Call) : State :=
  let (answered, sessions) := answer options s.sessions call
  let (toAnswer, history) := expected options s.history call
  { clock := call.now
    sessions := sessions
    history := history
    answers := s.answers ++ [answered]
    expected := s.expected ++ [toAnswer] }

def start (now : Int) : State :=
  { clock := now }

/-- The clock does not go back, and a new session's id was not given before. -/
def Admissible (s : State) (call : Call) : Prop :=
  s.clock ≤ call.now ∧
    match call.operation with
    | .create _ sessionId _ =>
        sessionId ≠ [] ∧ sessionId ∉ s.history.map fun t => t.issued.sessionId
    | _ => True

/-- All was answered as it should be, the store is not over its cap, and each
record found is as it was issued. -/
structure Faithful (options : SessionStoreOptions) (s : State) : Prop where
  answered : s.answers = s.expected
  capped : (s.sessions.length : Int) ≤ options.maxSessions
  unchanged : ∀ record, Answer.found (some record) ∈ s.answers →
    Answer.created (.ok record) ∈ s.answers

/-- A session is held only under a cap that admits it, and a name that plain
objects inherit is read of a live session only when it was set, `__proto__`
not even then. -/
def OwnReads (options : SessionStoreOptions) (s : State) (call : Call) : Prop :=
  match call.operation with
  | .create identity _ _ =>
      (validateSessionIdentity identity).toBool = true → 1 ≤ options.maxSessions
  | .getTrustCasePreference sessionId programId =>
      ∀ t ∈ liveSession options call.now s.history sessionId,
        programId ∈ inheritedNames → programId ≠ protoName ∧ t.chosen programId ≠ none
  | _ => True

section Mirroring

variable {options : SessionStoreOptions} {now : Int}

theorem inEveryWindow_cons {last : Int} {earlier : List Int} :
    InEveryWindow options (now :: last :: earlier) ↔
      (options.idleTimeoutMs ≤ 0 ∨ now - last ≤ options.idleTimeoutMs) ∧
        InEveryWindow options (last :: earlier) := by
  unfold InEveryWindow
  rw [List.isChain_cons_cons, ← or_and_left]

theorem InEveryWindow.earlier {later : Int} {times : List Int} (hle : now ≤ later)
    (h : InEveryWindow options (later :: times)) : InEveryWindow options (now :: times) := by
  cases times with
  | nil => exact Or.inr (.singleton now)
  | cons last earlier =>
      rw [inEveryWindow_cons] at h ⊢
      refine ⟨h.1.imp_right fun hgap => ?_, h.2⟩
      omega

theorem InEveryWindow.again {times : List Int} (h : InEveryWindow options (now :: now :: times)) :
    InEveryWindow options (now :: times) :=
  (inEveryWindow_cons.mp h).2

theorem isIdle_eq_false {entry : StoredRecord} :
    isIdle options now entry = false ↔
      options.idleTimeoutMs ≤ 0 ∨ now - entry.lastAccessMs ≤ options.idleTimeoutMs := by
  unfold isIdle
  rw [Bool.and_eq_false_iff, decide_eq_false_iff_not, decide_eq_false_iff_not, not_lt, not_lt]

/-- An entry of the map is what the session has become. -/
structure Holds (options : SessionStoreOptions) (entry : CodeUnits × StoredRecord)
    (t : Tracked) : Prop where
  key : entry.1 = t.issued.sessionId
  issued : entry.2.record.toIssuedRecord = t.issued
  accessed : ∃ earlier, t.accesses = entry.2.lastAccessMs :: earlier
  undeleted : t.deleted = false
  unevicted : t.evicted = false
  inEveryWindow : InEveryWindow options t.accesses
  preferences : ∀ programId, entry.2.record.trustCasePreferences.lookup programId =
    if programId = protoName then none else t.chosen programId

theorem Holds.live_iff {entry : CodeUnits × StoredRecord} {t : Tracked}
    (h : Holds options entry t) : t.Live options now ↔ isIdle options now entry.2 = false := by
  obtain ⟨earlier, haccesses⟩ := h.accessed
  have hwindows := h.inEveryWindow
  unfold Tracked.Live
  rw [haccesses] at hwindows ⊢
  rw [inEveryWindow_cons, isIdle_eq_false]
  simp [h.undeleted, h.unevicted, hwindows]

/-- The map holds the sessions in the order of their creation; the others are
not live, and will not be again. -/
inductive Mirrors (options : SessionStoreOptions) (now : Int) : Sessions → History → Prop
  | nil : Mirrors options now [] []
  | kept {entry t sessions history} : Holds options entry t →
      Mirrors options now sessions history →
        Mirrors options now (entry :: sessions) (t :: history)
  | gone {t sessions history} : ¬ t.Live options now → Mirrors options now sessions history →
      Mirrors options now sessions (t :: history)

theorem Mirrors.later {later : Int} (hle : now ≤ later) {sessions : Sessions} {history : History}
    (h : Mirrors options now sessions history) : Mirrors options later sessions history := by
  induction h with
  | nil => exact .nil
  | kept hholds _ ih => exact .kept hholds ih
  | gone hlive _ ih =>
      exact .gone (fun hlater => hlive ⟨hlater.1, hlater.2.1, hlater.2.2.earlier hle⟩) ih

theorem Mirrors.append {sessions : Sessions} {history : History}
    (h : Mirrors options now sessions history) {entry : CodeUnits × StoredRecord} {t : Tracked}
    (hholds : Holds options entry t) :
    Mirrors options now (sessions ++ [entry]) (history ++ [t]) := by
  induction h with
  | nil => exact .kept hholds .nil
  | kept hfirst _ ih => exact .kept hfirst ih
  | gone hlive _ ih => exact .gone hlive ih

theorem Mirrors.keys {sessions : Sessions} {history : History}
    (h : Mirrors options now sessions history) :
    (sessions.map Prod.fst).Sublist (history.map fun t => t.issued.sessionId) := by
  induction h with
  | nil => exact List.Sublist.slnil
  | kept hholds _ ih =>
      rw [List.map_cons, List.map_cons, hholds.key]
      exact ih.cons_cons _
  | gone _ _ ih => exact ih.cons _

/-- Behind the sweep the map holds the live sessions and no others. -/
theorem Mirrors.sweepIdle {sessions : Sessions} {history : History}
    (h : Mirrors options now sessions history) :
    Mirrors options now (sweepIdle options sessions now) history ∧
      (SessionStore.sweepIdle options sessions now).length =
        history.countP fun t => t.Live options now := by
  induction h with
  | nil => exact ⟨.nil, rfl⟩
  | @kept entry t sessions history hholds _ ih =>
      unfold SessionStore.sweepIdle at ih ⊢
      cases hidle : isIdle options now entry.2 with
      | false =>
          have hlive : t.Live options now := hholds.live_iff.mpr hidle
          refine ⟨?_, ?_⟩
          · rw [List.filter_cons_of_pos (by simp [hidle])]
            exact .kept hholds ih.1
          · rw [List.filter_cons_of_pos (by simp [hidle]),
              List.countP_cons_of_pos (by simpa using hlive), List.length_cons, ih.2]
      | true =>
          have hlive : ¬ t.Live options now := by
            rw [hholds.live_iff, hidle]
            exact Bool.noConfusion
          refine ⟨?_, ?_⟩
          · rw [List.filter_cons_of_neg (by simp [hidle])]
            exact .gone hlive ih.1
          · rw [List.filter_cons_of_neg (by simp [hidle]),
              List.countP_cons_of_neg (by simpa using hlive), ih.2]
  | gone hlive _ ih =>
      refine ⟨.gone hlive ih.1, ?_⟩
      rw [List.countP_cons_of_neg (by simpa using hlive), ih.2]

theorem evictUntilUnderCap_eq (sessions : Sessions) :
    evictUntilUnderCap options.maxSessions sessions =
      sessions.drop (excess options sessions.length) :=
  makeRoom_eq_drop options.maxSessions sessions

theorem Mirrors.countP_le {sessions : Sessions} {history : History}
    (h : Mirrors options now sessions history) :
    (history.countP fun t => t.Live options now) ≤ sessions.length := by
  induction h with
  | nil => exact Nat.le_refl 0
  | kept _ _ ih =>
      rw [List.countP_cons, List.length_cons]
      split <;> omega
  | gone hgone _ ih => rwa [List.countP_cons_of_neg (by simpa using hgone)]

/-- Where only live sessions are held, the oldest make way. -/
theorem Mirrors.evictOldest {sessions : Sessions} {history : History}
    (h : Mirrors options now sessions history)
    (hlive : sessions.length = history.countP fun t => t.Live options now) (k : Nat) :
    Mirrors options now (sessions.drop k) (evictOldest options now k history) := by
  induction h generalizing k with
  | nil =>
      rw [List.drop_nil]
      cases k <;> exact .nil
  | @kept entry t sessions history hholds hrest ih =>
      have hle := hrest.countP_le
      have htlive : t.Live options now := by
        by_contra hnot
        rw [List.countP_cons_of_neg (by simpa using hnot), List.length_cons] at hlive
        omega
      rw [List.countP_cons_of_pos (by simpa using htlive), List.length_cons] at hlive
      cases k with
      | zero =>
          rw [SessionRuns.evictOldest]
          exact .kept hholds hrest
      | succ k =>
          rw [SessionRuns.evictOldest, if_pos htlive]
          refine .gone ?_ (ih (Nat.succ.inj hlive) k)
          rintro ⟨-, hevicted, -⟩
          exact Bool.noConfusion hevicted
  | gone hgone hrest ih =>
      rw [List.countP_cons_of_neg (by simpa using hgone)] at hlive
      cases k with
      | zero =>
          rw [SessionRuns.evictOldest]
          exact .gone hgone hrest
      | succ k =>
          rw [SessionRuns.evictOldest, if_neg hgone]
          exact .gone hgone (ih hlive (k + 1))

theorem Mirrors.changed {sessions : Sessions} {history : History}
    (h : Mirrors options now sessions history)
    {f : CodeUnits × StoredRecord → Option (CodeUnits × StoredRecord)} {g : Tracked → Tracked}
    (hkept : ∀ entry ∈ sessions, ∀ t ∈ history, Holds options entry t →
      match f entry with
      | some entry' => Holds options entry' (g t)
      | none => ¬ (g t).Live options now)
    (hgone : ∀ t, ¬ t.Live options now → ¬ (g t).Live options now) :
    Mirrors options now (sessions.filterMap f) (history.map g) := by
  induction h with
  | nil => exact .nil
  | @kept entry t sessions history hholds hrest ih =>
      have hfirst := hkept entry List.mem_cons_self t List.mem_cons_self hholds
      have hlater := ih fun entry hentry t ht =>
        hkept entry (List.mem_cons_of_mem _ hentry) t (List.mem_cons_of_mem _ ht)
      cases hf : f entry with
      | none =>
          rw [hf] at hfirst
          rw [List.filterMap_cons_none hf]
          exact .gone hfirst hlater
      | some entry' =>
          rw [hf] at hfirst
          rw [List.filterMap_cons_some hf]
          exact .kept hfirst hlater
  | @gone t sessions history hnot hrest ih =>
      refine .gone (hgone t hnot) (ih fun entry hentry t ht => ?_)
      exact hkept entry hentry t (List.mem_cons_of_mem _ ht)

theorem Mirrors.exists_holds {sessions : Sessions} {history : History}
    (h : Mirrors options now sessions history) {entry : CodeUnits × StoredRecord}
    (hentry : entry ∈ sessions) : ∃ t ∈ history, Holds options entry t := by
  induction h with
  | nil => exact absurd hentry List.not_mem_nil
  | @kept first t _ _ hholds _ ih =>
      rcases List.mem_cons.mp hentry with rfl | hentry
      · exact ⟨t, List.mem_cons_self, hholds⟩
      · obtain ⟨t, ht, hholds⟩ := ih hentry
        exact ⟨t, List.mem_cons_of_mem _ ht, hholds⟩
  | gone _ _ ih =>
      obtain ⟨t, ht, hholds⟩ := ih hentry
      exact ⟨t, List.mem_cons_of_mem _ ht, hholds⟩

theorem Mirrors.held_of_live {sessions : Sessions} {history : History}
    (h : Mirrors options now sessions history) {t : Tracked} (ht : t ∈ history)
    (hlive : t.Live options now) : ∃ entry ∈ sessions, Holds options entry t := by
  induction h with
  | nil => exact absurd ht List.not_mem_nil
  | @kept entry first _ _ hholds _ ih =>
      rcases List.mem_cons.mp ht with rfl | ht
      · exact ⟨entry, List.mem_cons_self, hholds⟩
      · obtain ⟨entry, hentry, hholds⟩ := ih ht
        exact ⟨entry, List.mem_cons_of_mem _ hentry, hholds⟩
  | gone hnot _ ih =>
      rcases List.mem_cons.mp ht with rfl | ht
      · exact absurd hlive hnot
      · exact ih ht

theorem Mirrors.modify {sessions : Sessions} {history : History}
    (h : Mirrors options now sessions history) {sessionId : CodeUnits}
    {f : StoredRecord → StoredRecord} {g : Tracked → Tracked}
    (hkept : ∀ entry ∈ sessions, ∀ t, entry.1 = sessionId → Holds options entry t →
      Holds options (entry.1, f entry.2) (g t))
    (hgone : ∀ t, ¬ t.Live options now → ¬ (g t).Live options now) :
    Mirrors options now (modify sessions sessionId f) (change sessionId g history) := by
  unfold SessionStore.modify change
  rw [← List.filterMap_eq_map']
  refine h.changed (fun entry hentry t _ hholds => ?_) fun t hnot => ?_
  · show Holds options _ _
    rw [← hholds.key]
    split_ifs with hkey
    · exact hkept entry hentry t hkey hholds
    · exact hholds
  · split_ifs with hkey
    · exact hgone t hnot
    · exact hnot

theorem Mirrors.without {sessions : Sessions} {history : History}
    (h : Mirrors options now sessions history) {sessionId : CodeUnits} {g : Tracked → Tracked}
    (hkept : ∀ entry ∈ sessions, ∀ t, entry.1 = sessionId → Holds options entry t →
      ¬ (g t).Live options now)
    (hgone : ∀ t, ¬ t.Live options now → ¬ (g t).Live options now) :
    Mirrors options now (without sessions sessionId) (change sessionId g history) := by
  unfold SessionStore.without change
  rw [← List.filterMap_eq_filter]
  refine h.changed (fun entry hentry t _ hholds => ?_) fun t hnot => ?_
  · by_cases hkey : entry.1 = sessionId
    · have hnone : Option.guard (fun entry : CodeUnits × StoredRecord =>
          decide (entry.1 ≠ sessionId)) entry = none := by simp [Option.guard, hkey]
      rw [hnone, if_pos (hholds.key ▸ hkey)]
      exact hkept entry hentry t hkey hholds
    · have hsome : Option.guard (fun entry : CodeUnits × StoredRecord =>
          decide (entry.1 ≠ sessionId)) entry = some entry := by simp [Option.guard, hkey]
      rw [hsome, if_neg (hholds.key ▸ hkey)]
      exact hholds
  · split_ifs with hkey
    · exact hgone t hnot
    · exact hnot

/-- A change to a session that is not held leaves the map as it is. -/
theorem Mirrors.unheld {sessions : Sessions} {history : History}
    (h : Mirrors options now sessions history) {sessionId : CodeUnits} {g : Tracked → Tracked}
    (hunheld : ∀ entry ∈ sessions, entry.1 ≠ sessionId)
    (hgone : ∀ t, ¬ t.Live options now → ¬ (g t).Live options now) :
    Mirrors options now sessions (change sessionId g history) := by
  have hmodify := h.modify (f := id) (g := g)
    (fun entry hentry _ hkey _ => absurd hkey (hunheld entry hentry)) hgone
  unfold SessionStore.modify at hmodify
  simpa using hmodify

theorem not_live_access {t : Tracked} (h : ¬ t.Live options now) :
    ¬ (t.access now).Live options now :=
  fun hlive => h ⟨hlive.1, hlive.2.1, hlive.2.2.again⟩

theorem not_live_delete (t : Tracked) : ¬ t.delete.Live options now :=
  fun hlive => Bool.noConfusion hlive.1

theorem not_live_choose {t : Tracked} {programId trustCaseId : CodeUnits}
    (h : ¬ t.Live options now) : ¬ (t.choose programId trustCaseId).Live options now :=
  h

theorem Holds.access {entry : CodeUnits × StoredRecord} {t : Tracked}
    (h : Holds options entry t) (hidle : isIdle options now entry.2 = false) :
    Holds options (entry.1, { entry.2 with lastAccessMs := now }) (t.access now) where
  key := h.key
  issued := h.issued
  accessed := ⟨t.accesses, rfl⟩
  undeleted := h.undeleted
  unevicted := h.unevicted
  inEveryWindow := (h.live_iff.mpr hidle).2.2
  preferences := h.preferences

theorem Holds.not_live_access {entry : CodeUnits × StoredRecord} {t : Tracked}
    (h : Holds options entry t) (hidle : isIdle options now entry.2 = true) :
    ¬ (t.access now).Live options now := by
  apply SessionRuns.not_live_access
  rw [h.live_iff, hidle]
  exact Bool.noConfusion

theorem lookup_writePreference (preferences : List (CodeUnits × CodeUnits))
    (programId trustCaseId other : CodeUnits) :
    (writePreference preferences programId trustCaseId).lookup other =
      if other = programId ∧ programId ≠ protoName then some trustCaseId
      else preferences.lookup other := by
  unfold writePreference
  by_cases hproto : programId = protoName
  · rw [if_pos hproto, if_neg fun h => h.2 hproto]
  · rw [if_neg hproto, lookup_assign]
    simp [hproto]

theorem Holds.choose {entry : CodeUnits × StoredRecord} {t : Tracked}
    (h : Holds options entry t) (programId trustCaseId : CodeUnits) :
    Holds options
      (entry.1, { entry.2 with record := entry.2.record.prefer programId trustCaseId })
      (t.choose programId trustCaseId) where
  key := h.key
  issued := h.issued
  accessed := h.accessed
  undeleted := h.undeleted
  unevicted := h.unevicted
  inEveryWindow := h.inEveryWindow
  preferences other := by
    show (writePreference _ _ _).lookup other = _
    rw [lookup_writePreference, h.preferences]
    unfold Tracked.choose
    by_cases hother : other = programId
    · subst hother
      by_cases hproto : other = protoName <;> simp [hproto]
    · simp [hother]

end Mirroring

section Lookups

variable {options : SessionStoreOptions} {now : Int}

/-- The ids of the history tell its sessions apart. -/
structure Distinct (history : History) : Prop where
  nodup : (history.map fun t => t.issued.sessionId).Nodup
  nonempty : ∀ t ∈ history, t.issued.sessionId ≠ []

theorem Distinct.eq_of_sessionId {history : History} (h : Distinct history) {t u : Tracked}
    (ht : t ∈ history) (hu : u ∈ history) (heq : t.issued.sessionId = u.issued.sessionId) :
    t = u :=
  List.inj_on_of_nodup_map h.nodup ht hu heq

theorem Distinct.find? {history : History} (h : Distinct history) {t : Tracked}
    (ht : t ∈ history) :
    (history.find? fun u => u.issued.sessionId = t.issued.sessionId) = some t := by
  cases hfind : history.find? fun u => u.issued.sessionId = t.issued.sessionId with
  | none => exact absurd (decide_eq_true rfl) (List.find?_eq_none.mp hfind t ht)
  | some u =>
      have hu : u.issued.sessionId = t.issued.sessionId := by
        simpa using List.find?_some hfind
      exact congrArg some (h.eq_of_sessionId (List.mem_of_find?_eq_some hfind) ht hu)

theorem liveSession_of_mem {history : History} (h : Distinct history) {t : Tracked}
    (ht : t ∈ history) : liveSession options now history t.issued.sessionId =
      if t.Live options now then some t else none := by
  rw [liveSession, h.find? ht]
  simp [Option.filter]

theorem mem_of_liveSession {history : History} {sessionId : CodeUnits} {t : Tracked}
    (h : liveSession options now history sessionId = some t) :
    t ∈ history ∧ t.issued.sessionId = sessionId ∧ t.Live options now := by
  rw [liveSession, Option.filter_eq_some_iff] at h
  exact ⟨List.mem_of_find?_eq_some h.1, by simpa using List.find?_some h.1, by simpa using h.2⟩

end Lookups

section Operations

variable {options : SessionStoreOptions} {now : Int} {sessions : Sessions} {history : History}

theorem Mirrors.eq_of_lookup (h : Mirrors options now sessions history)
    (hdistinct : Distinct history) {sessionId : CodeUnits} {found : StoredRecord}
    (hlookup : sessions.lookup sessionId = some found) :
    ∀ entry ∈ sessions, entry.1 = sessionId → entry.2 = found := by
  intro entry hentry hkey
  have hnodup : (sessions.map Prod.fst).Nodup := hdistinct.nodup.sublist h.keys
  have hown := lookup_of_mem hnodup hentry
  rw [hkey, hlookup] at hown
  exact (Option.some.inj hown).symm

/-- A record is found exactly of a live session, and is the record of it. -/
theorem get_found (h : Mirrors options now sessions history) (hdistinct : Distinct history)
    (sessionId : CodeUnits) :
    (get options sessions now sessionId).1 = none ∧
        liveSession options now history sessionId = none ∨
      ∃ entry t, (get options sessions now sessionId).1 = some entry.record ∧
        liveSession options now history sessionId = some t ∧
        Holds options (sessionId, entry) t := by
  have hnodup : (sessions.map Prod.fst).Nodup := hdistinct.nodup.sublist h.keys
  have hnone (hno : ∀ t ∈ history, t.issued.sessionId = sessionId → ¬ t.Live options now) :
      liveSession options now history sessionId = none := by
    rw [Option.eq_none_iff_forall_not_mem]
    intro t ht
    obtain ⟨hmem, hid, hlive⟩ := mem_of_liveSession ht
    exact hno t hmem hid hlive
  unfold SessionStore.get
  split_ifs with hempty
  · refine Or.inl ⟨rfl, hnone fun t ht hid => ?_⟩
    exact absurd (hid.trans (List.length_eq_zero_iff.mp hempty)) (hdistinct.nonempty t ht)
  · cases hlookup : sessions.lookup sessionId with
    | none =>
        refine Or.inl ⟨rfl, hnone fun t ht hid hlive => ?_⟩
        obtain ⟨entry, hentry, hholds⟩ := h.held_of_live ht hlive
        have hfound := lookup_of_mem hnodup hentry
        rw [hholds.key, hid, hlookup] at hfound
        cases hfound
    | some entry =>
        obtain ⟨t, ht, hholds⟩ := h.exists_holds (mem_of_lookup hlookup)
        have hid : sessionId = t.issued.sessionId := hholds.key
        have hanswer := @liveSession_of_mem options now _ hdistinct _ ht
        rw [← hid] at hanswer
        rw [hanswer]
        dsimp only
        cases hidle : isIdle options now entry with
        | true =>
            have hnot : ¬ t.Live options now := by
              rw [hholds.live_iff, hidle]
              exact Bool.noConfusion
            rw [if_neg hnot]
            exact Or.inl ⟨rfl, rfl⟩
        | false =>
            rw [if_pos (hholds.live_iff.mpr hidle)]
            exact Or.inr ⟨entry, t, rfl, rfl, hholds⟩

theorem get_mirrors (h : Mirrors options now sessions history) (hdistinct : Distinct history)
    (sessionId : CodeUnits) :
    Mirrors options now (get options sessions now sessionId).2
      (change sessionId (Tracked.access now) history) := by
  have hnodup : (sessions.map Prod.fst).Nodup := hdistinct.nodup.sublist h.keys
  unfold SessionStore.get
  split_ifs with hempty
  · refine h.unheld (fun entry hentry hkey => ?_) fun t => not_live_access
    obtain ⟨t, ht, hholds⟩ := h.exists_holds hentry
    exact hdistinct.nonempty t ht
      (hholds.key.symm.trans (hkey.trans (List.length_eq_zero_iff.mp hempty)))
  · cases hlookup : sessions.lookup sessionId with
    | none =>
        refine h.unheld (fun entry hentry hkey => ?_) fun t => not_live_access
        have hfound := lookup_of_mem hnodup hentry
        rw [hkey, hlookup] at hfound
        cases hfound
    | some found =>
        have hfound := h.eq_of_lookup hdistinct hlookup
        dsimp only
        cases hidle : isIdle options now found with
        | true =>
            refine h.without (fun entry hentry t hkey hholds => ?_) fun t => not_live_access
            exact hholds.not_live_access (by rw [hfound entry hentry hkey, hidle])
        | false =>
            show Mirrors options now
              (modify sessions sessionId fun entry => { entry with lastAccessMs := now }) _
            refine h.modify (fun entry hentry t hkey hholds => ?_) fun t => not_live_access
            exact hholds.access (by rw [hfound entry hentry hkey, hidle])

theorem length_get_le (sessionId : CodeUnits) :
    (get options sessions now sessionId).2.length ≤ sessions.length := by
  unfold SessionStore.get
  split_ifs
  · exact Nat.le_refl _
  · split
    · exact Nat.le_refl _
    · split_ifs
      · exact List.length_filter_le _ _
      · exact Nat.le_of_eq (List.length_map _)

theorem change_ids (sessionId : CodeUnits) {g : Tracked → Tracked}
    (hg : ∀ t, (g t).issued = t.issued) :
    (change sessionId g history).map Tracked.issued = history.map Tracked.issued := by
  unfold change
  rw [List.map_map]
  refine List.map_congr_left fun t _ => ?_
  show Tracked.issued (if _ then _ else _) = _
  split_ifs
  · exact hg t
  · rfl

theorem evictOldest_issued (k : Nat) :
    (evictOldest options now k history).map Tracked.issued = history.map Tracked.issued := by
  induction history generalizing k with
  | nil => cases k <;> rfl
  | cons t history ih =>
      cases k with
      | zero => rw [evictOldest]
      | succ k =>
          rw [evictOldest]
          split_ifs
          · exact congrArg (t.issued :: ·) (ih k)
          · exact congrArg (t.issued :: ·) (ih (k + 1))

theorem distinct_iff {history : History} : Distinct history ↔
    ((history.map Tracked.issued).map IssuedRecord.sessionId).Nodup ∧
      ∀ issued ∈ history.map Tracked.issued, issued.sessionId ≠ [] := by
  constructor
  · rintro ⟨hnodup, hnonempty⟩
    refine ⟨by rwa [List.map_map], fun issued hissued => ?_⟩
    obtain ⟨t, ht, rfl⟩ := List.mem_map.mp hissued
    exact hnonempty t ht
  · rintro ⟨hnodup, hnonempty⟩
    rw [List.map_map] at hnodup
    exact ⟨hnodup, fun t ht => hnonempty _ (List.mem_map_of_mem ht)⟩

theorem create_mirrors (h : Mirrors options now sessions history) {identity : SessionIdentity}
    {additions : List RedactionPatternAddition}
    (hvalid : validateSessionIdentity identity = .ok additions) {sessionId secret : CodeUnits}
    (hfresh : sessionId ∉ history.map fun t => t.issued.sessionId) :
    Mirrors options now (create options sessions now identity sessionId secret).2
        (expected options history ⟨now, .create identity sessionId secret⟩).2 ∧
      (create options sessions now identity sessionId secret).2.length =
        (history.countP fun t => t.Live options now) -
          excess options (history.countP fun t => t.Live options now) + 1 := by
  obtain ⟨hswept, hcount⟩ := h.sweepIdle
  have hevicted := hswept.evictOldest hcount (excess options (sweepIdle options sessions now).length)
  rw [← evictUntilUnderCap_eq, hcount] at hevicted
  have hunheld : sessionId ∉ (evictUntilUnderCap options.maxSessions
      (sweepIdle options sessions now)).map Prod.fst := by
    intro hmem
    have hissued := congrArg (List.map IssuedRecord.sessionId)
      (@evictOldest_issued options now history
        (excess options (history.countP fun t => t.Live options now)))
    rw [List.map_map, List.map_map] at hissued
    have hids := hevicted.keys.subset hmem
    exact hfresh (hissued ▸ hids)
  unfold SessionStore.create expected
  simp only [hvalid]
  rw [assign_of_notMem _ hunheld]
  refine ⟨hevicted.append ?_, ?_⟩
  · exact
      { key := rfl
        issued := rfl
        accessed := ⟨[], rfl⟩
        undeleted := rfl
        unevicted := rfl
        inEveryWindow := Or.inr (.singleton now)
        preferences := fun programId => (ite_self none).symm }
  · rw [List.length_append, List.length_singleton, evictUntilUnderCap_eq, List.length_drop, hcount]

theorem delete_mirrors (h : Mirrors options now sessions history) (hdistinct : Distinct history)
    (sessionId : CodeUnits) :
    Mirrors options now (delete sessions sessionId).2
      (change sessionId Tracked.delete history) := by
  unfold SessionStore.delete
  split_ifs with hempty
  · refine h.unheld (fun entry hentry hkey => ?_) fun t _ => not_live_delete t
    obtain ⟨t, ht, hholds⟩ := h.exists_holds hentry
    exact hdistinct.nonempty t ht
      (hholds.key.symm.trans (hkey.trans (List.length_eq_zero_iff.mp hempty)))
  · exact h.without (fun _ _ t _ _ => not_live_delete t) fun t _ => not_live_delete t

theorem setTrustCasePreference_spec (h : Mirrors options now sessions history)
    (hdistinct : Distinct history) (sessionId programId trustCaseId : CodeUnits) :
    let call : Call := ⟨now, .setTrustCasePreference sessionId programId trustCaseId⟩
    (answer options sessions call).1 = (expected options history call).1 ∧
      Mirrors options now (answer options sessions call).2 (expected options history call).2 := by
  have hmirrors := get_mirrors h hdistinct sessionId
  have hfound := get_found h hdistinct sessionId
  unfold answer expected SessionStore.setTrustCasePreference
  dsimp only
  rcases hfound with ⟨hget, hlive⟩ | ⟨entry, t, hget, hlive, hholds⟩
  · rw [hget, hlive]
    exact ⟨rfl, hmirrors⟩
  · rw [hget, hlive]
    simp only [List.length_eq_zero_iff]
    split_ifs
    · exact ⟨rfl, hmirrors⟩
    · have hwritten : Mirrors options now
          (modify (get options sessions now sessionId).2 sessionId fun entry =>
            { entry with record := entry.record.prefer programId trustCaseId })
          (change sessionId (Tracked.choose programId trustCaseId)
            (change sessionId (Tracked.access now) history)) := by
        refine hmirrors.modify (fun entry _ t _ hheld => ?_) fun t => not_live_choose
        exact hheld.choose programId trustCaseId
      exact ⟨congrArg (fun issued => Answer.written (.ok (some issued))) hholds.issued, hwritten⟩
    · exact ⟨rfl, hmirrors⟩

theorem readPreference_iff {preferences : List (CodeUnits × CodeUnits)} {programId : CodeUnits}
    {chosen : Option CodeUnits}
    (h : preferences.lookup programId = if programId = protoName then none else chosen) :
    readPreference preferences programId = preferenceOf chosen ↔
      (programId ∈ inheritedNames → programId ≠ protoName ∧ chosen ≠ none) := by
  unfold readPreference
  rw [h]
  by_cases hproto : programId = protoName
  · have hinherited : programId ∈ inheritedNames := hproto ▸ (by decide)
    rw [if_pos hproto]
    dsimp only
    rw [if_pos hinherited]
    refine iff_of_false (fun heq => ?_) fun hown => (hown hinherited).1 hproto
    cases chosen <;> exact Preference.noConfusion heq
  · rw [if_neg hproto]
    cases chosen with
    | none =>
        by_cases hinherited : programId ∈ inheritedNames <;> simp [preferenceOf, hinherited]
    | some trustCaseId => simp [preferenceOf, hproto]

/-- Where a preference is read as it was set. -/
theorem getTrustCasePreference_iff (h : Mirrors options now sessions history)
    (hdistinct : Distinct history) (sessionId programId : CodeUnits) :
    let call : Call := ⟨now, .getTrustCasePreference sessionId programId⟩
    (answer options sessions call).1 = (expected options history call).1 ↔
      ∀ t ∈ liveSession options now history sessionId,
        programId ∈ inheritedNames → programId ≠ protoName ∧ t.chosen programId ≠ none := by
  have hfound := get_found h hdistinct sessionId
  unfold answer expected SessionStore.getTrustCasePreference
  dsimp only
  rcases hfound with ⟨hget, hlive⟩ | ⟨entry, t, hget, hlive, hholds⟩
  · rw [hget, hlive]
    exact iff_of_true rfl fun t ht => absurd ht (Option.not_mem_none t)
  · rw [hget, hlive]
    simp only [List.length_eq_zero_iff, Option.bind_some, Option.mem_some_iff, forall_eq']
    by_cases hempty : programId = []
    · subst hempty
      exact iff_of_true rfl fun h => absurd h (by decide)
    · rw [if_neg hempty, if_neg hempty, Answer.preference.injEq]
      exact readPreference_iff (hholds.preferences programId)

end Operations

section Steps

variable {options : SessionStoreOptions} {s : State} {call : Call}

/-- The map is of the sessions there were, and what was to be found was issued
so. -/
structure Kept (options : SessionStoreOptions) (s : State) : Prop where
  mirrors : Mirrors options s.clock s.sessions s.history
  distinct : Distinct s.history
  recorded : ∀ t ∈ s.history, Answer.created (.ok t.issued) ∈ s.expected
  unchanged : ∀ record, Answer.found (some record) ∈ s.expected →
    Answer.created (.ok record) ∈ s.expected

theorem kept_start (now : Int) : Kept options (start now) where
  mirrors := .nil
  distinct := ⟨List.nodup_nil, fun _ ht => absurd ht List.not_mem_nil⟩
  recorded _ ht := absurd ht List.not_mem_nil
  unchanged _ hmem := absurd hmem List.not_mem_nil

/-- A call issues a record or none, and changes none of those issued before. -/
theorem expected_issued (options : SessionStoreOptions) (history : History) (call : Call) :
    (expected options history call).2.map Tracked.issued = history.map Tracked.issued ∨
      ∃ issued, (expected options history call).1 = .created (.ok issued) ∧
        (expected options history call).2.map Tracked.issued =
          history.map Tracked.issued ++ [issued] ∧
        ∃ identity secret, call.operation = .create identity issued.sessionId secret := by
  unfold expected
  split
  · rename_i identity sessionId secret hoperation
    dsimp only
    split
    · exact Or.inl rfl
    · rename_i additions hvalid
      refine Or.inr ⟨_, rfl, ?_, identity, secret, hoperation⟩
      rw [List.map_append, evictOldest_issued]
      rfl
  · exact Or.inl (change_ids _ fun _ => rfl)
  · exact Or.inl (change_ids _ fun _ => rfl)
  · refine Or.inl ?_
    dsimp only
    split
    · exact change_ids _ fun _ => rfl
    · split_ifs
      · exact change_ids _ fun _ => rfl
      · refine (change_ids (g := Tracked.choose _ _) _ fun _ => rfl).trans ?_
        exact change_ids _ fun _ => rfl
      · exact change_ids _ fun _ => rfl
  · exact Or.inl (change_ids _ fun _ => rfl)

theorem mirrors_step (h : Kept options s) (hadmissible : Admissible s call) :
    Mirrors options call.now (answer options s.sessions call).2
      (expected options s.history call).2 := by
  have hnow := h.mirrors.later hadmissible.1
  obtain ⟨now, operation⟩ := call
  cases operation with
  | create identity sessionId secret =>
      cases hvalid : validateSessionIdentity identity with
      | error e =>
          unfold answer expected SessionStore.create
          simpa only [hvalid] using hnow
      | ok additions => exact (create_mirrors hnow hvalid hadmissible.2.2).1
  | get sessionId => exact get_mirrors hnow h.distinct sessionId
  | getTrustCasePreference sessionId programId =>
      have hmirrors := get_mirrors hnow h.distinct sessionId
      unfold answer SessionStore.getTrustCasePreference
      dsimp only
      split
      · exact hmirrors
      · split_ifs <;> exact hmirrors
  | setTrustCasePreference sessionId programId trustCaseId =>
      exact (setTrustCasePreference_spec hnow h.distinct sessionId programId trustCaseId).2
  | delete sessionId => exact delete_mirrors hnow h.distinct sessionId

/-- What is found at a call was issued before it. -/
theorem mem_of_expected_found {history : History} {record : IssuedRecord}
    (h : (expected options history call).1 = .found (some record)) :
    ∃ t ∈ history, t.issued = record := by
  unfold expected at h
  split at h
  · dsimp only at h
    split at h <;> cases h
  · obtain ⟨t, ht, hissued⟩ := Option.map_eq_some_iff.mp (Answer.found.inj h)
    exact ⟨t, (mem_of_liveSession ht).1, hissued⟩
  · cases h
  · dsimp only at h
    split at h
    · cases h
    · split_ifs at h
  · cases h

theorem kept_step (h : Kept options s) (hadmissible : Admissible s call) :
    Kept options (step options s call) := by
  have hbefore (t : Tracked) (ht : t ∈ s.history) :
      Answer.created (.ok t.issued) ∈ (step options s call).expected :=
    List.mem_append_left _ (h.recorded t ht)
  have hunchanged (record : IssuedRecord)
      (hmem : Answer.found (some record) ∈ (step options s call).expected) :
      Answer.created (.ok record) ∈ (step options s call).expected := by
    rcases List.mem_append.mp hmem with hmem | hmem
    · exact List.mem_append_left _ (h.unchanged record hmem)
    · obtain ⟨t, ht, rfl⟩ := mem_of_expected_found (List.mem_singleton.mp hmem).symm
      exact hbefore t ht
  refine ⟨mirrors_step h hadmissible, ?_, ?_, hunchanged⟩
  · obtain ⟨hnodup, hnonempty⟩ := distinct_iff.mp h.distinct
    refine distinct_iff.mpr ?_
    show (((expected options s.history call).2.map Tracked.issued).map _).Nodup ∧
      ∀ issued ∈ (expected options s.history call).2.map Tracked.issued, _
    rcases expected_issued options s.history call with hsame | ⟨issued, -, hnew, hcreate⟩
    · rw [hsame]
      exact ⟨hnodup, hnonempty⟩
    · obtain ⟨identity, secret, hoperation⟩ := hcreate
      have hfresh := hadmissible.2
      rw [hoperation] at hfresh
      rw [hnew, List.map_append]
      refine ⟨hnodup.append (List.nodup_singleton _) ?_, fun other hother => ?_⟩
      · rw [List.map_map, List.map_singleton, List.disjoint_singleton]
        exact hfresh.2
      · rcases List.mem_append.mp hother with hother | hother
        · exact hnonempty other hother
        · exact List.mem_singleton.mp hother ▸ hfresh.1
  · intro t ht
    have hissued : t.issued ∈ (expected options s.history call).2.map Tracked.issued :=
      List.mem_map_of_mem ht
    rcases expected_issued options s.history call with hsame | ⟨issued, hcreated, hnew, -⟩
    · rw [hsame] at hissued
      obtain ⟨u, hu, heq⟩ := List.mem_map.mp hissued
      exact heq ▸ hbefore u hu
    · rw [hnew] at hissued
      rcases List.mem_append.mp hissued with hold | hlast
      · obtain ⟨u, hu, heq⟩ := List.mem_map.mp hold
        exact heq ▸ hbefore u hu
      · rw [List.mem_singleton.mp hlast, ← hcreated]
        exact List.mem_append_right _ (List.mem_singleton_self _)

theorem answer_eq_iff (h : Kept options s) (hadmissible : Admissible s call) :
    (answer options s.sessions call).1 = (expected options s.history call).1 ↔
      match call.operation with
      | .getTrustCasePreference sessionId programId =>
          ∀ t ∈ liveSession options call.now s.history sessionId,
            programId ∈ inheritedNames → programId ≠ protoName ∧ t.chosen programId ≠ none
      | _ => True := by
  have hnow := h.mirrors.later hadmissible.1
  obtain ⟨now, operation⟩ := call
  cases operation with
  | create identity sessionId secret =>
      refine iff_of_true ?_ trivial
      unfold answer expected SessionStore.create
      cases hvalid : validateSessionIdentity identity <;> simp only [hvalid] <;> rfl
  | get sessionId =>
      refine iff_of_true ?_ trivial
      have hfound := get_found hnow h.distinct sessionId
      unfold answer expected
      dsimp only at hfound ⊢
      rcases hfound with ⟨hget, hlive⟩ | ⟨entry, t, hget, hlive, hholds⟩
      · rw [hget, hlive]
        rfl
      · rw [hget, hlive]
        exact congrArg (fun issued => Answer.found (some issued)) hholds.issued
  | getTrustCasePreference sessionId programId =>
      exact getTrustCasePreference_iff hnow h.distinct sessionId programId
  | setTrustCasePreference sessionId programId trustCaseId =>
      exact iff_of_true
        (setTrustCasePreference_spec hnow h.distinct sessionId programId trustCaseId).1 trivial
  | delete sessionId => exact iff_of_true rfl trivial

theorem capped_iff (h : Kept options s) (hadmissible : Admissible s call)
    (hcapped : (s.sessions.length : Int) ≤ options.maxSessions) :
    ((answer options s.sessions call).2.length : Int) ≤ options.maxSessions ↔
      match call.operation with
      | .create identity _ _ =>
          (validateSessionIdentity identity).toBool = true → 1 ≤ options.maxSessions
      | _ => True := by
  have hnow := h.mirrors.later hadmissible.1
  have hno_more {n : Nat} (hle : n ≤ s.sessions.length) : (n : Int) ≤ options.maxSessions :=
    (Int.ofNat_le.mpr hle).trans hcapped
  obtain ⟨now, operation⟩ := call
  cases operation with
  | create identity sessionId secret =>
      cases hvalid : validateSessionIdentity identity with
      | error e =>
          refine iff_of_true ?_ fun htrue => absurd htrue (by simp [hvalid, Except.toBool])
          unfold answer SessionStore.create
          simpa only [hvalid] using hcapped
      | ok additions =>
          have hlength := (@create_mirrors _ _ _ _ hnow _ _ hvalid _ secret hadmissible.2.2).2
          have hcreated : (answer options s.sessions ⟨now, .create identity sessionId secret⟩).2 =
              (create options s.sessions now identity sessionId secret).2 := rfl
          rw [hcreated, hlength]
          simp only [hvalid, Except.toBool, forall_const]
          unfold excess
          omega
  | get sessionId => exact iff_of_true (hno_more (length_get_le sessionId)) trivial
  | getTrustCasePreference sessionId programId =>
      refine iff_of_true (hno_more ?_) trivial
      have hlength := @length_get_le options now s.sessions sessionId
      unfold answer SessionStore.getTrustCasePreference
      dsimp only
      split
      · exact hlength
      · split_ifs <;> exact hlength
  | setTrustCasePreference sessionId programId trustCaseId =>
      refine iff_of_true (hno_more ?_) trivial
      have hlength := @length_get_le options now s.sessions sessionId
      unfold answer SessionStore.setTrustCasePreference
      dsimp only
      split
      · exact hlength
      · split_ifs
        · exact hlength
        · exact (Nat.le_of_eq (List.length_map _)).trans hlength
        · exact hlength
  | delete sessionId =>
      refine iff_of_true (hno_more ?_) trivial
      unfold answer SessionStore.delete
      dsimp only
      split_ifs
      · exact Nat.le_refl _
      · exact List.length_filter_le _ _

theorem faithful_step_iff (h : Kept options s) (hfaithful : Faithful options s)
    (hadmissible : Admissible s call) :
    Faithful options (step options s call) ↔ OwnReads options s call := by
  have hanswer := answer_eq_iff h hadmissible
  have hcap := capped_iff h hadmissible hfaithful.capped
  have hboth : Faithful options (step options s call) ↔
      (answer options s.sessions call).1 = (expected options s.history call).1 ∧
        ((answer options s.sessions call).2.length : Int) ≤ options.maxSessions := by
    constructor
    · intro hnext
      have hanswered : s.answers ++ [(answer options s.sessions call).1] =
          s.expected ++ [(expected options s.history call).1] := hnext.answered
      rw [hfaithful.answered] at hanswered
      exact ⟨List.singleton_inj.mp (List.append_cancel_left hanswered), hnext.capped⟩
    · rintro ⟨heq, hcapped⟩
      have hanswered : (step options s call).answers = (step options s call).expected := by
        show s.answers ++ [(answer options s.sessions call).1] =
          s.expected ++ [(expected options s.history call).1]
        rw [hfaithful.answered, heq]
      refine ⟨hanswered, hcapped, ?_⟩
      rw [hanswered]
      exact (kept_step h hadmissible).unchanged
  rw [hboth, hanswer, hcap]
  unfold OwnReads
  cases call.operation <;> simp

end Steps

/-- All along a run of the store, it answers as the record of all sessions tells
and holds no more than its cap, exactly if every call reads its own names. -/
theorem sessions_faithful_iff (options : SessionStoreOptions) (now : Int) (calls : List Call)
    (hadmissible : Along (step options) Admissible (start now) calls) :
    (∀ n, Faithful options (run (step options) (start now) (calls.take n))) ↔
      0 ≤ options.maxSessions ∧ Along (step options) (OwnReads options) (start now) calls := by
  let Holds (s : State) : Prop := Kept options s ∧ Faithful options s
  have hstep (s : State) (call : Call) (h : Holds s) (hcall : Admissible s call) :
      Holds (step options s call) ↔ OwnReads options s call :=
    (and_iff_right (kept_step h.1 hcall)).trans (faithful_step_iff h.1 h.2 hcall)
  have hstart : Faithful options (start now) ↔ 0 ≤ options.maxSessions :=
    ⟨fun h => h.capped, fun h => ⟨rfl, h, fun _ hmem => absurd hmem List.not_mem_nil⟩⟩
  constructor
  · intro hall
    have hfirst : Faithful options (start now) := hall 0
    refine ⟨hstart.mp hfirst, ?_⟩
    rw [← run_invariant_iff_along hstep ⟨kept_start now, hfirst⟩ hadmissible]
    intro n
    have hkept : Kept options (run (step options) (start now) (calls.take n)) := by
      have hprefix : Along (step options) Admissible (start now) (calls.take n) := by
        rw [← List.take_append_drop n calls, along_append] at hadmissible
        exact hadmissible.1
      exact run_invariant_along (fun s call h hcall => kept_step h hcall) (kept_start now) hprefix
    exact ⟨hkept, hall n⟩
  · rintro ⟨hmax, halong⟩ n
    have hfirst : Holds (start now) := ⟨kept_start now, hstart.mpr hmax⟩
    exact ((run_invariant_iff_along hstep hfirst hadmissible).mpr halong n).2

section Sample

def sampleIdentity : SessionIdentity where
  tenantId := unitsOf "t"
  userId := unitsOf "u"
  studioRedactionPatternAdditions := none

def sampleId : CodeUnits :=
  unitsOf "s"

def sampleCreate : Call :=
  ⟨0, .create sampleIdentity sampleId (unitsOf "k")⟩

def samplePreference (programId : String) : Call :=
  ⟨1, .getTrustCasePreference sampleId (unitsOf programId)⟩

theorem sample_sessions_faithful :
    (∀ n, Faithful defaultOptions
      (run (step defaultOptions) (start 0) ([sampleCreate, samplePreference "P"].take n))) ↔
      0 ≤ defaultOptions.maxSessions ∧ Along (step defaultOptions) (OwnReads defaultOptions)
        (start 0) [sampleCreate, samplePreference "P"] :=
  sessions_faithful_iff defaultOptions 0 [sampleCreate, samplePreference "P"]
    ⟨⟨by decide, by decide, by decide⟩, ⟨by decide, trivial⟩, trivial⟩

/-- A preference that was never set is answered with a function. -/
theorem not_faithful_constructor :
    ¬ ∀ options now calls, Along (step options) Admissible (start now) calls →
      0 ≤ options.maxSessions → Faithful options (run (step options) (start now) calls) := by
  intro h
  have hfaithful := h defaultOptions 0 [sampleCreate, samplePreference "constructor"]
    ⟨⟨by decide, by decide, by decide⟩, ⟨by decide, trivial⟩, trivial⟩ (by decide)
  have hanswers := congrArg List.getLast? hfaithful.answered
  have hpreference : Preference.inherited (unitsOf "constructor") = Preference.null :=
    Answer.preference.inj (Option.some.inj hanswers)
  exact Preference.noConfusion hpreference

end Sample

end C2c.Bff.SessionRuns
