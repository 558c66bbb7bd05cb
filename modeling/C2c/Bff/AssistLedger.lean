import Mathlib.Data.List.Nodup
import C2c.Bff.BudgetRuns
import C2c.Bff.EditorExplain
import C2c.Library.JsText

/-!
When the references of the ledger entries tell the entries apart.
-/

namespace C2c.Bff.AssistLedger

open C2c.Library.JavaText hiding splitLines
open C2c.Library.JsText
open C2c.Library.Machine
open C2c.Bff.AssistBudget (Budgets BudgetScope Limits Call)
open C2c.Bff.EditorExplain

/-- A number that the sequence has given out. -/
structure Issued where
  tenantId : Text
  sessionId : Text
  seq : Nat
deriving DecidableEq

def Issued.editorAssistRef (issued : Issued) : Text :=
  buildEditorAssistRef issued.tenantId issued.sessionId issued.seq

def Issued.localLedgerRef (issued : Issued) : Text :=
  buildLocalLedgerRef issued.tenantId issued.sessionId issued.seq

def Issued.key (issued : Issued) : Text :=
  counterKey issued.tenantId issued.sessionId

/-- The budget store, the counters of the sequence and the sink of the ledger,
with the numbers given out so far. -/
structure Route where
  budgets : Budgets
  counters : Counters := fun _ => 0
  answered : List Nat := []
  issued : List Issued := []
  ledger : List EditorAssistLedgerEntry := []

/-- A step of the budget store, or the rest of a request behind the answer of
the gateway; `written` tells whether the sink takes the entry. -/
inductive Action
  | budget (action : AssistBudget.Action)
  | answer (call : Nat) (scope : BudgetScope) (request : EditorExplainRequest)
      (mapped : GatewayMapping) (startedAt endedAt : Nat) (written : Bool)

/-- The unit of the budget that a call has been granted. -/
def granted (budgets : Budgets) (call : Nat) (scope : BudgetScope) :
    Option AssistBudget.BudgetSnapshot :=
  budgets.calls[call]?.bind fun c =>
    match c.phase with
    | .returned (.ok snapshot) => if c.scope = scope then some snapshot else none
    | _ => none

/-- `handleEditorExplain` from the answer of the gateway on, once for each
request whose budget was granted. -/
def answer (s : Route) (call : Nat) (scope : BudgetScope) (request : EditorExplainRequest)
    (mapped : GatewayMapping) (startedAt endedAt : Nat) (written : Bool) : Route :=
  match granted s.budgets call scope with
  | none => s
  | some snapshot =>
      if call ∈ s.answered then s
      else
        let taken := next s.counters scope.tenantId request.sessionId
        let entry := entryOf
          { tenantId := scope.tenantId
            userId := scope.userId
            request := request
            seq := taken.1
            budgetSnapshot := snapshot
            startedAt := startedAt
            endedAt := endedAt } mapped
        { s with
          counters := taken.2
          answered := s.answered ++ [call]
          issued := s.issued ++ [⟨scope.tenantId, request.sessionId, taken.1⟩]
          ledger := if written then s.ledger ++ [entry] else s.ledger }

def step (limits : Limits) (s : Route) : Action → Route
  | .budget action => { s with budgets := AssistBudget.step limits s.budgets action }
  | .answer call scope request mapped startedAt endedAt written =>
      answer s call scope request mapped startedAt endedAt written

def start (today : Nat) : Route :=
  { budgets := { today := today } }

/-- The identifiers of a request have passed their checks. -/
def Identified : Action → Prop
  | .budget _ => True
  | .answer _ scope request _ _ _ _ =>
      isSafeId scope.tenantId = true ∧ isSafeId request.sessionId = true

/-- No reference stands for two requests, and no entry's id for another scope. -/
structure Attributable (s : Route) : Prop where
  assistRefs : (s.issued.map Issued.editorAssistRef).Nodup
  localRefs : (s.issued.map Issued.localLedgerRef).Nodup
  entryIds : (s.ledger.map EditorAssistLedgerEntry.ledgerEntryId).Nodup
  scopes : ∀ entry ∈ s.ledger, ∀ issued ∈ s.issued,
    entry.ledgerEntryId = issued.editorAssistRef →
      entry.tenantId = issued.tenantId ∧ entry.sessionId = issued.sessionId

/-- Requests whose joined identifiers are the same are of one scope. -/
def JoinsApart (issued : List Issued) : Prop :=
  ∀ one ∈ issued, ∀ other ∈ issued,
    one.tenantId ++ '-' :: one.sessionId = other.tenantId ++ '-' :: other.sessionId →
      one.tenantId = other.tenantId

instance (issued : List Issued) : Decidable (JoinsApart issued) :=
  inferInstanceAs (Decidable (∀ one ∈ issued, ∀ other ∈ issued, _ → _))

section References

variable {tenant session tenant' session' : Text} {n n' : Nat}

theorem not_mem_of_isSafeId {value : Text} (h : isSafeId value = true) {c : Char}
    (hc : (c.isAlphanum || c == '.' || c == '_' || c == '-') = false) : c ∉ value := by
  intro hmem
  have hall := List.all_eq_true.mp (Bool.and_eq_true_iff.mp h).2 c hmem
  rw [hc] at hall
  cases hall

/-- The number is read from the end of a reference, behind the joined identifiers. -/
theorem editorAssistRef_eq_iff :
    buildEditorAssistRef tenant session n = buildEditorAssistRef tenant' session' n' ↔
      tenant ++ '-' :: session = tenant' ++ '-' :: session' ∧ n = n' := by
  unfold buildEditorAssistRef
  rw [List.append_cancel_left_eq]
  constructor
  · intro h
    have hjoined : (tenant ++ '-' :: session) ++ '-' :: natText n =
        (tenant' ++ '-' :: session') ++ '-' :: natText n' := by
      simpa using h
    obtain ⟨hjoin, hnumber⟩ := append_cons_last_inj (not_mem_natText rfl n)
      (not_mem_natText rfl n') hjoined
    exact ⟨hjoin, natText_injective hnumber⟩
  · rintro ⟨h, rfl⟩
    have happend := congrArg (· ++ '-' :: natText n) h
    simpa using happend

theorem localLedgerRef_inj (htenant : '/' ∉ tenant) (htenant' : '/' ∉ tenant')
    (hsession : '/' ∉ session) (hsession' : '/' ∉ session')
    (h : buildLocalLedgerRef tenant session n = buildLocalLedgerRef tenant' session' n') :
    tenant = tenant' ∧ session = session' ∧ n = n' := by
  unfold buildLocalLedgerRef at h
  rw [List.append_cancel_left_eq] at h
  obtain ⟨rfl, hrest⟩ := append_cons_inj htenant htenant' h
  obtain ⟨rfl, hnumber⟩ := append_cons_inj hsession hsession' hrest
  exact ⟨rfl, rfl, natText_injective hnumber⟩

theorem counterKey_inj (htenant : '\x00' ∉ tenant) (htenant' : '\x00' ∉ tenant')
    (h : counterKey tenant session = counterKey tenant' session') :
    tenant = tenant' ∧ session = session' :=
  append_cons_inj htenant htenant' h

end References

section Runs

/-- The numbers of a scope begin with 1 and come once each. -/
structure Numbered (s : Route) : Prop where
  safe : ∀ i ∈ s.issued, isSafeId i.tenantId = true ∧ isSafeId i.sessionId = true
  counted : ∀ i ∈ s.issued, 1 ≤ i.seq ∧ i.seq ≤ s.counters i.key
  apart : s.issued.Pairwise fun i j => i.key = j.key → i.seq ≠ j.seq
  first : ∀ key, 1 ≤ s.counters key → ∃ i ∈ s.issued, i.key = key ∧ i.seq = 1
  entries : (s.ledger.map fun entry =>
      (entry.tenantId, entry.sessionId, entry.ledgerEntryId)).Sublist
    (s.issued.map fun i => (i.tenantId, i.sessionId, i.editorAssistRef))

theorem numbered_start (today : Nat) : Numbered (start today) where
  safe := nofun
  counted := nofun
  apart := List.Pairwise.nil
  first := fun _ h => absurd (show 1 ≤ 0 from h) (by decide)
  entries := List.Sublist.refl _

theorem entryOf_scope (context : EntryContext) (mapped : GatewayMapping) :
    (entryOf context mapped).tenantId = context.tenantId ∧
      (entryOf context mapped).sessionId = context.request.sessionId ∧
      (entryOf context mapped).ledgerEntryId =
        buildEditorAssistRef context.tenantId context.request.sessionId context.seq := by
  cases mapped <;> exact ⟨rfl, rfl, rfl⟩

theorem numbered_answer {s : Route} (h : Numbered s) {call : Nat} {scope : BudgetScope}
    {request : EditorExplainRequest} (mapped : GatewayMapping) (startedAt endedAt : Nat)
    (written : Bool) (htenant : isSafeId scope.tenantId = true)
    (hsession : isSafeId request.sessionId = true) :
    Numbered (answer s call scope request mapped startedAt endedAt written) := by
  unfold answer
  cases granted s.budgets call scope with
  | none => exact h
  | some snapshot =>
      dsimp only
      split
      · exact h
      let key := counterKey scope.tenantId request.sessionId
      have hself : Function.update s.counters key (s.counters key + 1) key = s.counters key + 1 :=
        Function.update_self ..
      have hgrown (other : Text) :
          s.counters other ≤ Function.update s.counters key (s.counters key + 1) other := by
        by_cases heq : other = key
        · rw [heq, hself]
          exact Nat.le_succ _
        · rw [Function.update_of_ne heq]
      constructor
      · intro i hi
        rcases List.mem_append.mp hi with hi | hi
        · exact h.safe i hi
        · obtain rfl := List.mem_singleton.mp hi
          exact ⟨htenant, hsession⟩
      · intro i hi
        rcases List.mem_append.mp hi with hi | hi
        · exact ⟨(h.counted i hi).1, Nat.le_trans (h.counted i hi).2 (hgrown i.key)⟩
        · obtain rfl := List.mem_singleton.mp hi
          exact ⟨Nat.succ_pos _, hself.ge⟩
      · refine List.pairwise_append.mpr ⟨h.apart, List.pairwise_singleton _ _, ?_⟩
        intro i hi j hj hsame
        obtain rfl := List.mem_singleton.mp hj
        -- the new number is above all those of its scope
        have hle := (h.counted i hi).2
        rw [hsame] at hle
        exact Nat.ne_of_lt (Nat.lt_succ_of_le hle)
      · intro other hother
        by_cases hfirst : 1 ≤ s.counters other
        · obtain ⟨i, hi, hkey, hone⟩ := h.first other hfirst
          exact ⟨i, List.mem_append_left _ hi, hkey, hone⟩
        · have heq : other = key := by
            by_contra hne
            dsimp only [next] at hother
            rw [Function.update_of_ne hne] at hother
            exact hfirst hother
          refine ⟨_, List.mem_append_right _ List.mem_cons_self, heq.symm, ?_⟩
          rw [heq] at hfirst
          show s.counters key + 1 = 1
          omega
      · have hscope (context : EntryContext) := entryOf_scope context mapped
        rw [List.map_append]
        cases written with
        | true =>
            rw [if_pos rfl, List.map_append]
            apply h.entries.append
            show List.Sublist [(_, _, _)] _
            rw [(hscope _).1, (hscope _).2.1, (hscope _).2.2]
            exact List.Sublist.refl _
        | false =>
            rw [if_neg (by decide)]
            exact h.entries.trans (List.sublist_append_left _ _)

theorem numbered_run {limits : Limits} {today : Nat} {actions : List Action}
    (hsafe : ∀ action ∈ actions, Identified action) :
    Numbered (run (step limits) (start today) actions) := by
  have hstep (s : Route) (action : Action) (h : Numbered s) (hidentified : Identified action) :
      Numbered (step limits s action) := by
    cases action with
    | budget action => exact ⟨h.safe, h.counted, h.apart, h.first, h.entries⟩
    | answer call scope request mapped startedAt endedAt written =>
        exact numbered_answer h mapped startedAt endedAt written hidentified.1 hidentified.2
  exact run_invariant_along hstep (numbered_start today)
    (along_of_forall _ (fun _ action haction => hsafe action haction) _)

theorem scope_of_key {s : Route} (h : Numbered s) {i j : Issued} (hi : i ∈ s.issued)
    (hj : j ∈ s.issued) (hkey : i.key = j.key) :
    i.tenantId = j.tenantId ∧ i.sessionId = j.sessionId :=
  counterKey_inj (not_mem_of_isSafeId (h.safe i hi).1 rfl)
    (not_mem_of_isSafeId (h.safe j hj).1 rfl) hkey

/-- Two references that are the same are of two scopes that are joined the same. -/
theorem assistRefs_nodup_iff {s : Route} (h : Numbered s) :
    (s.issued.map Issued.editorAssistRef).Nodup ↔ JoinsApart s.issued := by
  constructor
  · intro hnodup i hi j hj hjoin
    -- the first requests of both scopes have the number 1
    obtain ⟨i', hi', hkeyi, hone⟩ := h.first i.key
      (Nat.le_trans (h.counted i hi).1 (h.counted i hi).2)
    obtain ⟨j', hj', hkeyj, hone'⟩ := h.first j.key
      (Nat.le_trans (h.counted j hj).1 (h.counted j hj).2)
    obtain ⟨htenanti, hsessioni⟩ := scope_of_key h hi' hi hkeyi
    obtain ⟨htenantj, hsessionj⟩ := scope_of_key h hj' hj hkeyj
    have hsame : i'.editorAssistRef = j'.editorAssistRef := by
      apply editorAssistRef_eq_iff.mpr
      rw [htenanti, hsessioni, htenantj, hsessionj, hone, hone']
      exact ⟨hjoin, rfl⟩
    rw [← htenanti, ← htenantj, List.inj_on_of_nodup_map hnodup hi' hj' hsame]
  · intro happart
    refine List.pairwise_map.mpr (h.apart.imp_of_mem ?_)
    intro i j hi hj hdiffer hsame
    obtain ⟨hjoin, hseq⟩ := editorAssistRef_eq_iff.mp hsame
    have htenant := happart i hi j hj hjoin
    rw [htenant, List.append_cancel_left_eq] at hjoin
    apply hdiffer _ hseq
    rw [Issued.key, Issued.key, htenant, (List.cons.inj hjoin).2]

theorem localRefs_nodup {s : Route} (h : Numbered s) :
    (s.issued.map Issued.localLedgerRef).Nodup := by
  refine List.pairwise_map.mpr (h.apart.imp_of_mem ?_)
  intro i j hi hj hdiffer hsame
  obtain ⟨htenant, hsession, hseq⟩ := localLedgerRef_inj
    (not_mem_of_isSafeId (h.safe i hi).1 rfl) (not_mem_of_isSafeId (h.safe j hj).1 rfl)
    (not_mem_of_isSafeId (h.safe i hi).2 rfl) (not_mem_of_isSafeId (h.safe j hj).2 rfl) hsame
  apply hdiffer _ hseq
  rw [Issued.key, Issued.key, htenant, hsession]

/-- The references tell the requests of a run apart just where no two scopes of
the requests have joined identifiers that are the same. -/
theorem attributable_iff (limits : Limits) (today : Nat) (actions : List Action)
    (hsafe : ∀ action ∈ actions, Identified action) :
    Attributable (run (step limits) (start today) actions) ↔
      JoinsApart (run (step limits) (start today) actions).issued := by
  have h : Numbered (run (step limits) (start today) actions) := numbered_run hsafe
  refine ⟨fun hattributable => (assistRefs_nodup_iff h).mp hattributable.assistRefs, ?_⟩
  intro happart
  have hrefs := (assistRefs_nodup_iff h).mpr happart
  refine ⟨hrefs, localRefs_nodup h, ?_, ?_⟩
  · have hids := h.entries.map fun entry => entry.2.2
    rw [List.map_map, List.map_map] at hids
    exact hrefs.sublist hids
  · intro entry hentry i hi hid
    have hmem := h.entries.subset (List.mem_map_of_mem hentry)
    obtain ⟨j, hj, heq⟩ := List.mem_map.mp hmem
    obtain ⟨htenant, hrest⟩ := Prod.mk.inj heq
    obtain ⟨hsession, href⟩ := Prod.mk.inj hrest
    obtain rfl := List.inj_on_of_nodup_map hrefs hj hi (href.trans hid)
    exact ⟨htenant.symm, hsession.symm⟩

section Sample

def sampleRequest (sessionId : String) : EditorExplainRequest where
  sessionId := sessionId.toList
  runId := none
  region := ⟨"A.java".toList, .java, 1, 1⟩
  byteHash := []
  studioRedactionMetadata := ⟨"v1.1.0".toList, []⟩

/-- A request that is granted its unit and answered by the gateway. -/
def sampleCall (call : Nat) (tenantId sessionId : String) : List Action :=
  let scope : BudgetScope := ⟨tenantId.toList, "u".toList, "c".toList⟩
  (AssistBudget.Action.consume scope :: List.replicate 4 (.proceed call)).map .budget ++
    [.answer call scope (sampleRequest sessionId) (.ok none none []) 0 1 true]

theorem identified_sampleCall (call : Nat) {tenantId sessionId : String}
    (htenant : isSafeId tenantId.toList = true) (hsession : isSafeId sessionId.toList = true) :
    ∀ action ∈ sampleCall call tenantId sessionId, Identified action := by
  intro action haction
  rcases List.mem_append.mp haction with hbudget | hanswer
  · obtain ⟨_, -, rfl⟩ := List.mem_map.mp hbudget
    exact trivial
  · obtain rfl := List.mem_singleton.mp hanswer
    exact ⟨htenant, hsession⟩

theorem apart_calls_attributable :
    Attributable (run (step ⟨10, 10⟩) (start 0)
      (sampleCall 0 "acme" "s" ++ sampleCall 1 "globex" "s")) := by
  refine (attributable_iff ⟨10, 10⟩ 0 _ ?_).mpr (by decide +kernel)
  refine List.forall_mem_append.mpr ⟨?_, ?_⟩
  · exact identified_sampleCall 0 (by decide) (by decide)
  · exact identified_sampleCall 1 (by decide) (by decide)

/-- The session `b-c` of the tenant `a` and the session `c` of the tenant `a-b`. -/
theorem joined_calls_share_refs :
    ¬ ∀ (limits : Limits) (today : Nat) (actions : List Action),
      (∀ action ∈ actions, Identified action) →
        Attributable (run (step limits) (start today) actions) := by
  intro hall
  have hids := (hall ⟨10, 10⟩ 0 (sampleCall 0 "a" "b-c" ++ sampleCall 1 "a-b" "c")
    (List.forall_mem_append.mpr ⟨identified_sampleCall 0 (by decide) (by decide),
      identified_sampleCall 1 (by decide) (by decide)⟩)).entryIds
  exact absurd hids (by decide +kernel)

end Sample

end Runs

end C2c.Bff.AssistLedger
