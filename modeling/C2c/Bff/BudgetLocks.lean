import Mathlib.Data.Prod.Lex
import C2c.Bff.AssistBudget

/-!
The two locks of a consume: none of them is held for ever.
-/

namespace C2c.Bff.BudgetLocks

open C2c.Library.JavaText
open C2c.Library.Machine
open C2c.Bff.AssistBudget

section Promises

/-- Whether a call can go on. -/
def Phase.ready (resolved : Nat → Bool) : Phase → Bool
  | .awaitsSession previous _ => previous.all resolved
  | .awaitsTenant _ previous _ => previous.all resolved
  | .leavesTenant .. | .leavesSession .. => true
  | .returned _ => false

def Phase.isReturned : Phase → Bool
  | .returned _ => true
  | _ => false

/-- The steps a call has left. -/
def Phase.left : Phase → Nat
  | .awaitsSession .. => 4
  | .awaitsTenant .. => 3
  | .leavesTenant .. => 2
  | .leavesSession .. => 1
  | .returned _ => 0

/-- The promise of its session a call has to resolve. -/
def Phase.sessionPromise : Phase → Option Nat
  | .awaitsSession _ p | .awaitsTenant p _ _ | .leavesTenant p _ _ | .leavesSession p _ => some p
  | .returned _ => none

/-- The promise of its tenant a call has to resolve. -/
def Phase.tenantPromise : Phase → Option Nat
  | .awaitsTenant _ _ p | .leavesTenant _ p _ => some p
  | .awaitsSession .. | .leavesSession .. | .returned _ => none

/-- A promise that is resolved, or that a call has to resolve. -/
structure Kept (promiseOf : Phase → Option Nat) (s : Budgets) (p : Nat) : Prop where
  made : p < s.promises
  held : s.resolved p = true ∨ ∃ c ∈ s.calls, promiseOf c.phase = some p

/-- What a call awaits was made before its own promise, and is kept. -/
def Awaits (s : Budgets) : Phase → Prop
  | .awaitsSession previous p => ∀ q ∈ previous, q < p ∧ Kept Phase.sessionPromise s q
  | .awaitsTenant _ previous p => ∀ q ∈ previous, q < p ∧ Kept Phase.tenantPromise s q
  | _ => True

/-- Every promise that is or will be awaited is kept. -/
structure Locked (s : Budgets) : Prop where
  session : ∀ key, ∀ q ∈ (s.sessions key).tail, Kept Phase.sessionPromise s q
  tenant : ∀ tenantId, ∀ tenant ∈ s.tenants tenantId, ∀ q ∈ tenant.tail,
    Kept Phase.tenantPromise s q
  awaits : ∀ c ∈ s.calls, Awaits s c.phase

/-- The promises that were kept still are. -/
structure Keeps (s s' : Budgets) : Prop where
  session : ∀ p, Kept Phase.sessionPromise s p → Kept Phase.sessionPromise s' p
  tenant : ∀ p, Kept Phase.tenantPromise s p → Kept Phase.tenantPromise s' p

end Promises

section Steps

/-- A call goes on to a phase in which it has resolved or still holds what it
had to resolve. -/
theorem kept_set {promiseOf : Phase → Option Nat} {s : Budgets} (s' : Budgets) {i : Nat}
    {c : Call} (c' : Call) (hc : s.calls[i]? = some c) (hcalls : s'.calls = s.calls.set i c')
    (hmade : s.promises ≤ s'.promises)
    (hresolved : ∀ q, s.resolved q = true → s'.resolved q = true)
    (hheld : ∀ q, promiseOf c.phase = some q →
      s'.resolved q = true ∨ promiseOf c'.phase = some q) {p : Nat} (h : Kept promiseOf s p) :
    Kept promiseOf s' p := by
  refine ⟨Nat.lt_of_lt_of_le h.made hmade, ?_⟩
  have hlt : i < s.calls.length := (List.getElem?_eq_some_iff.mp hc).1
  rcases h.held with hdone | ⟨d, hd, hp⟩
  · exact .inl (hresolved p hdone)
  · obtain ⟨j, hj⟩ := List.mem_iff_getElem?.mp hd
    by_cases hij : i = j
    · subst hij
      cases hc.symm.trans hj
      rcases hheld p hp with hdone | hp'
      · exact .inl hdone
      · exact .inr ⟨c', hcalls ▸ List.mem_set hlt c', hp'⟩
    · refine .inr ⟨d, hcalls ▸ List.mem_of_getElem? (i := j) ?_, hp⟩
      rw [List.getElem?_set_ne hij]
      exact hj

theorem keeps_set {s : Budgets} (s' : Budgets) {i : Nat} {c : Call} (c' : Call)
    (hc : s.calls[i]? = some c) (hcalls : s'.calls = s.calls.set i c')
    (hmade : s.promises ≤ s'.promises)
    (hresolved : ∀ q, s.resolved q = true → s'.resolved q = true)
    (hsession : ∀ q, Phase.sessionPromise c.phase = some q →
      s'.resolved q = true ∨ Phase.sessionPromise c'.phase = some q)
    (htenant : ∀ q, Phase.tenantPromise c.phase = some q →
      s'.resolved q = true ∨ Phase.tenantPromise c'.phase = some q) : Keeps s s' :=
  ⟨fun _ h => kept_set s' c' hc hcalls hmade hresolved hsession h,
    fun _ h => kept_set s' c' hc hcalls hmade hresolved htenant h⟩

theorem awaits_keeps {s s' : Budgets} (h : Keeps s s') {phase : Phase} (hawaits : Awaits s phase) :
    Awaits s' phase := by
  cases phase with
  | awaitsSession previous p =>
      exact fun q hq => ⟨(hawaits q hq).1, h.session q (hawaits q hq).2⟩
  | awaitsTenant session previous p =>
      exact fun q hq => ⟨(hawaits q hq).1, h.tenant q (hawaits q hq).2⟩
  | leavesTenant session promise result => trivial
  | leavesSession session result => trivial
  | returned result => trivial

theorem kept_getOrInitTenant {s : Budgets} (h : Locked s) (tenantId : Text) :
    ∀ q ∈ (getOrInitTenant s tenantId).tail, Kept Phase.tenantPromise s q := by
  intro q hq
  unfold getOrInitTenant at hq
  cases htenant : s.tenants tenantId with
  | none =>
      rw [htenant] at hq
      cases hq
  | some tenant =>
      rw [htenant] at hq
      exact h.tenant tenantId tenant htenant q hq

theorem locked_consume {s : Budgets} (h : Locked s) (scope : BudgetScope) :
    Locked (consume s scope) := by
  have hkeeps : Keeps s (consume s scope) := by
    constructor
    all_goals
      intro p hp
      refine ⟨Nat.lt_succ_of_lt hp.made, ?_⟩
      rcases hp.held with hdone | ⟨c, hc, hp⟩
      · exact .inl hdone
      · exact .inr ⟨c, List.mem_append_left _ hc, hp⟩
  refine ⟨?_, ?_, ?_⟩
  · intro key q hq
    have hsessions : (consume s scope).sessions key = if key = scopeKey scope then
        { s.sessions (scopeKey scope) with tail := some s.promises } else s.sessions key :=
      Function.update_apply ..
    rw [hsessions] at hq
    split at hq
    · cases hq
      exact ⟨Nat.lt_succ_self _, .inr ⟨_, List.mem_append_right _ (List.mem_singleton_self _), rfl⟩⟩
    · exact hkeeps.session q (h.session key q hq)
  · intro tenantId tenant htenant q hq
    have htenants : (consume s scope).tenants tenantId = if tenantId = scope.tenantId then
        some (getOrInitTenant s scope.tenantId) else s.tenants tenantId :=
      Function.update_apply ..
    rw [htenants] at htenant
    split at htenant
    · cases htenant
      exact hkeeps.tenant q (kept_getOrInitTenant h scope.tenantId q hq)
    · exact hkeeps.tenant q (h.tenant tenantId tenant htenant q hq)
  · intro c hc
    rcases List.mem_append.mp hc with hold | hnew
    · exact awaits_keeps hkeeps (h.awaits c hold)
    · rw [List.mem_singleton] at hnew
      subst hnew
      intro q hq
      have hkept := h.session (scopeKey scope) q hq
      exact ⟨hkept.made, hkeeps.session q hkept⟩

/-- The same for a call that goes on, with what its step leaves to show. -/
theorem locked_set {s s' : Budgets} (h : Locked s) {i : Nat} {c' : Call}
    (hcalls : s'.calls = s.calls.set i c') (hkeeps : Keeps s s')
    (hsessions : ∀ key, (s'.sessions key).tail = (s.sessions key).tail)
    (htenants : ∀ tenantId, ∀ tenant ∈ s'.tenants tenantId, ∀ q ∈ tenant.tail,
      Kept Phase.tenantPromise s' q)
    (hawaits : Awaits s' c'.phase) : Locked s' := by
  refine ⟨fun key q hq => ?_, htenants, fun d hd => ?_⟩
  · exact hkeeps.session q (h.session key q (hsessions key ▸ hq))
  · rcases List.mem_or_eq_of_mem_set (hcalls ▸ hd) with hold | rfl
    · exact awaits_keeps hkeeps (h.awaits d hold)
    · exact hawaits

theorem locked_enterSession {s : Budgets} (h : Locked s) {i : Nat} {c : Call}
    {previous : Option Nat} {session : Nat} (hc : s.calls[i]? = some c)
    (hphase : c.phase = .awaitsSession previous session) :
    Locked (enterSession s i c session (getOrInitTenant s c.scope.tenantId)) := by
  generalize htenant : getOrInitTenant s c.scope.tenantId = tenant
  have hlt : i < s.calls.length := (List.getElem?_eq_some_iff.mp hc).1
  have hkeeps : Keeps s (enterSession s i c session tenant) := by
    refine keeps_set (enterSession s i c session tenant) _ hc rfl (Nat.le_succ _)
      (fun q hq => hq) (fun q hq => .inr ?_) (fun q hq => .inr ?_)
    · rw [hphase] at hq
      exact hq
    · rw [hphase] at hq
      cases hq
  refine locked_set h rfl hkeeps (fun key => rfl) ?_ ?_
  · intro tenantId entry hentry q hq
    have hentries : (enterSession s i c session tenant).tenants tenantId =
        if tenantId = c.scope.tenantId then some { tenant with tail := some s.promises }
        else s.tenants tenantId := Function.update_apply ..
    rw [hentries] at hentry
    split at hentry
    · cases hentry
      cases hq
      exact ⟨Nat.lt_succ_self _, .inr ⟨_, List.mem_set hlt _, rfl⟩⟩
    · exact hkeeps.tenant q (h.tenant tenantId entry hentry q hq)
  · intro q hq
    have hkept := kept_getOrInitTenant h c.scope.tenantId q (htenant ▸ hq)
    exact ⟨hkept.made, hkeeps.tenant q hkept⟩

/-- The counters may change under the locks, the promises stay. -/
theorem charge_tail (limits : Limits) (entry : SessionEntry) (tenant : TenantEntry) :
    (charge limits entry tenant).1.tail = entry.tail ∧
      (charge limits entry tenant).2.1.tail = tenant.tail := by
  unfold charge
  split
  · exact ⟨rfl, rfl⟩
  · split
    · exact ⟨rfl, rfl⟩
    · exact ⟨rfl, rfl⟩

theorem refreshTenantForToday_tail (entry : TenantEntry) (today : Nat) :
    (refreshTenantForToday entry today).tail = entry.tail := by
  unfold refreshTenantForToday
  split
  · rfl
  · rfl

theorem locked_enterTenant {limits : Limits} {s : Budgets} (h : Locked s) {i : Nat} {c : Call}
    {previous : Option Nat} {session promise : Nat} (hc : s.calls[i]? = some c)
    (hphase : c.phase = .awaitsTenant session previous promise) :
    Locked (enterTenant limits s i c session promise (getOrInitTenant s c.scope.tenantId)) := by
  generalize htenant : getOrInitTenant s c.scope.tenantId = tenant
  have hkeeps : Keeps s (enterTenant limits s i c session promise tenant) := by
    refine keeps_set (enterTenant limits s i c session promise tenant) _ hc rfl (Nat.le_refl _)
      (fun q hq => hq) (fun q hq => .inr ?_) (fun q hq => .inr ?_)
    all_goals
      rw [hphase] at hq
      exact hq
  refine locked_set h rfl hkeeps ?_ ?_ trivial
  · intro key
    show (Function.update s.sessions _ _ key).tail = _
    rw [Function.update_apply]
    split
    · rename_i heq
      subst heq
      exact (charge_tail limits _ _).1
    · rfl
  · intro tenantId entry hentry q hq
    have hentries : (enterTenant limits s i c session promise tenant).tenants tenantId =
        if tenantId = c.scope.tenantId then
          some (charge limits (s.sessions (scopeKey c.scope))
            (refreshTenantForToday tenant s.today)).2.1
        else s.tenants tenantId := Function.update_apply ..
    rw [hentries] at hentry
    split at hentry
    · cases hentry
      rw [(charge_tail limits _ _).2, refreshTenantForToday_tail] at hq
      exact hkeeps.tenant q (kept_getOrInitTenant h c.scope.tenantId q (htenant ▸ hq))
    · exact hkeeps.tenant q (h.tenant tenantId entry hentry q hq)

theorem locked_leave {s : Budgets} (h : Locked s) {i : Nat} {c : Call} {promise : Nat}
    {phase : Phase} (hc : s.calls[i]? = some c) (hawaits : Awaits (leave s i c promise phase) phase)
    (hsession : ∀ q, Phase.sessionPromise c.phase = some q →
      q = promise ∨ Phase.sessionPromise phase = some q)
    (htenant : ∀ q, Phase.tenantPromise c.phase = some q →
      q = promise ∨ Phase.tenantPromise phase = some q) :
    Locked (leave s i c promise phase) := by
  have hresolved (q : Nat) (hq : s.resolved q = true) :
      (leave s i c promise phase).resolved q = true := by
    show Function.update s.resolved promise true q = true
    rw [Function.update_apply]
    split
    · rfl
    · exact hq
  have hdone : (leave s i c promise phase).resolved promise = true := Function.update_self ..
  have hkeeps : Keeps s (leave s i c promise phase) := by
    refine keeps_set (leave s i c promise phase) _ hc rfl (Nat.le_refl _) hresolved
      (fun q hq => ?_) (fun q hq => ?_)
    · rcases hsession q hq with rfl | hq'
      · exact .inl hdone
      · exact .inr hq'
    · rcases htenant q hq with rfl | hq'
      · exact .inl hdone
      · exact .inr hq'
  refine locked_set h rfl hkeeps (fun key => rfl) ?_ hawaits
  exact fun tenantId entry hentry q hq => hkeeps.tenant q (h.tenant tenantId entry hentry q hq)

theorem locked_proceed {limits : Limits} {s : Budgets} (h : Locked s) (i : Nat) :
    Locked (proceed limits s i) := by
  unfold proceed
  split
  · exact h
  · rename_i c hc
    dsimp only
    split
    · rename_i previous session hphase
      split
      · exact locked_enterSession h hc hphase
      · exact h
    · rename_i session previous promise hphase
      split
      · exact locked_enterTenant h hc hphase
      · exact h
    · rename_i session promise result hphase
      refine locked_leave h hc trivial (fun q hq => ?_) (fun q hq => ?_)
      · rw [hphase] at hq
        exact .inr hq
      · rw [hphase] at hq
        cases hq
        exact .inl rfl
    · rename_i session result hphase
      refine locked_leave h hc trivial (fun q hq => ?_) (fun q hq => ?_)
      · rw [hphase] at hq
        cases hq
        exact .inl rfl
      · rw [hphase] at hq
        cases hq
    · exact h

theorem locked_refund {s : Budgets} (h : Locked s) (i : Nat) : Locked (refund s i) := by
  unfold refund
  split
  · exact h
  · rename_i c hc
    split
    · have hkeeps : Keeps s { refundScope s c.scope with
          calls := s.calls.set i { c with refunded := true } } :=
        keeps_set { refundScope s c.scope with calls := s.calls.set i { c with refunded := true } } _
          hc rfl (Nat.le_refl _) (fun q hq => hq) (fun q hq => .inr hq) (fun q hq => .inr hq)
      refine locked_set h rfl hkeeps ?_ ?_ ?_
      · intro key
        show ((refundScope s c.scope).sessions key).tail = _
        rw [refundScope_sessions]
        split
        · rfl
        · rfl
      · intro tenantId tenant htenant q hq
        have htenants := (refundScope_tenants s c.scope tenantId).symm.trans htenant
        split at htenants
        · obtain ⟨old, hold, rfl⟩ := Option.map_eq_some_iff.mp htenants
          exact hkeeps.tenant q (h.tenant tenantId old hold q hq)
        · exact hkeeps.tenant q (h.tenant tenantId tenant htenants q hq)
      · exact awaits_keeps hkeeps (h.awaits c (List.mem_of_getElem? hc))
    · exact h

theorem locked_step {limits : Limits} {s : Budgets} (h : Locked s) (action : Action) :
    Locked (step limits s action) := by
  cases action with
  | consume scope => exact locked_consume h scope
  | proceed i => exact locked_proceed h i
  | refund i => exact locked_refund h i
  | tick days =>
      have hkeeps : Keeps s { s with today := s.today + days } :=
        ⟨fun p hp => ⟨hp.made, hp.held⟩, fun p hp => ⟨hp.made, hp.held⟩⟩
      exact ⟨fun key q hq => hkeeps.session q (h.session key q hq),
        fun tenantId tenant htenant q hq => hkeeps.tenant q (h.tenant tenantId tenant htenant q hq),
        fun c hc => awaits_keeps hkeeps (h.awaits c hc)⟩

end Steps

section Progress

/-- The step of a call that can go on. -/
def Ready (s : Budgets) : Action → Prop
  | .proceed i => ∃ c, s.calls[i]? = some c ∧ Phase.ready s.resolved c.phase = true
  | _ => False

/-- Calls that await a session wait for calls that come before them there, or
have got on to their tenant. -/
def rank : Phase → ℕ ×ₗ ℕ
  | .awaitsSession _ p => toLex (1, p)
  | .awaitsTenant _ _ p => toLex (0, p)
  | .leavesTenant .. | .leavesSession .. | .returned _ => toLex (0, 0)

theorem rank_lt_of_sessionPromise {previous : Option Nat} {p q : Nat} {phase : Phase}
    (hlt : q < p) (hphase : Phase.sessionPromise phase = some q) :
    Phase.isReturned phase = false ∧ rank phase < rank (.awaitsSession previous p) := by
  cases phase with
  | awaitsSession previous' p' =>
      cases hphase
      exact ⟨rfl, Prod.Lex.right 1 hlt⟩
  | awaitsTenant session previous' p' => exact ⟨rfl, Prod.Lex.left _ _ Nat.zero_lt_one⟩
  | leavesTenant session promise result => exact ⟨rfl, Prod.Lex.left _ _ Nat.zero_lt_one⟩
  | leavesSession session result => exact ⟨rfl, Prod.Lex.left _ _ Nat.zero_lt_one⟩
  | returned result => cases hphase

theorem rank_lt_of_tenantPromise {session : Nat} {previous : Option Nat} {p q : Nat}
    {phase : Phase} (hlt : q < p) (hphase : Phase.tenantPromise phase = some q) :
    Phase.isReturned phase = false ∧ rank phase < rank (.awaitsTenant session previous p) := by
  cases phase with
  | awaitsSession previous' p' => cases hphase
  | awaitsTenant session' previous' p' =>
      cases hphase
      exact ⟨rfl, Prod.Lex.right 0 hlt⟩
  | leavesTenant session' promise result =>
      exact ⟨rfl, Prod.Lex.right 0 (Nat.lt_of_le_of_lt (Nat.zero_le q) hlt)⟩
  | leavesSession session' result => cases hphase
  | returned result => cases hphase

/-- A call that cannot go on waits for one of lower rank. -/
theorem ready_or_waits {s : Budgets} {phase : Phase} (h : Awaits s phase)
    (hpending : Phase.isReturned phase = false) : Phase.ready s.resolved phase = true ∨
      ∃ d, (d ∈ s.calls ∧ Phase.isReturned d.phase = false) ∧ rank d.phase < rank phase := by
  cases phase with
  | awaitsSession previous p =>
      cases previous with
      | none => exact .inl rfl
      | some q =>
          obtain ⟨hlt, hkept⟩ := h q rfl
          rcases hkept.held with hdone | ⟨d, hd, hphase⟩
          · exact .inl hdone
          · obtain ⟨hpending, hrank⟩ := rank_lt_of_sessionPromise hlt hphase
            exact .inr ⟨d, ⟨hd, hpending⟩, hrank⟩
  | awaitsTenant session previous p =>
      cases previous with
      | none => exact .inl rfl
      | some q =>
          obtain ⟨hlt, hkept⟩ := h q rfl
          rcases hkept.held with hdone | ⟨d, hd, hphase⟩
          · exact .inl hdone
          · obtain ⟨hpending, hrank⟩ := rank_lt_of_tenantPromise hlt hphase
            exact .inr ⟨d, ⟨hd, hpending⟩, hrank⟩
  | leavesTenant session promise result => exact .inl rfl
  | leavesSession session result => exact .inl rfl
  | returned result => cases hpending

/-- While a consume has not returned, some consume can go on. -/
theorem exists_ready_call {s : Budgets} (h : Locked s) {c : Call} (hc : c ∈ s.calls)
    (hpending : Phase.isReturned c.phase = false) : ∃ i, Ready s (.proceed i) := by
  have hwaits (c : Call) (hc : c ∈ s.calls ∧ Phase.isReturned c.phase = false) :=
    ready_or_waits (h.awaits c hc.1) hc.2
  obtain ⟨d, ⟨hd, -⟩, hready⟩ := exists_ready (fun c : Call => rank c.phase) hwaits ⟨hc, hpending⟩
  obtain ⟨i, hi⟩ := List.mem_iff_getElem?.mp hd
  exact ⟨i, d, hi, hready⟩

/-- The steps all calls have left. -/
def work (s : Budgets) : Nat :=
  (s.calls.map fun c => Phase.left c.phase).sum

theorem sum_map_set {A : Type*} (f : A → Nat) {l : List A} {i : Nat} {old : A} (new : A)
    (hold : l[i]? = some old) : ((l.set i new).map f).sum + f old = (l.map f).sum + f new := by
  induction l generalizing i with
  | nil => cases hold
  | cons head l ih =>
      cases i with
      | zero =>
          cases hold
          simp only [List.set_cons_zero, List.map_cons, List.sum_cons]
          omega
      | succ i =>
          have ih := ih hold
          simp only [List.set_cons_succ, List.map_cons, List.sum_cons]
          omega

theorem work_proceed_lt (limits : Limits) (s : Budgets) (action : Action) (h : Ready s action) :
    work (step limits s action) < work s := by
  cases action with
  | consume scope => exact h.elim
  | refund i => exact h.elim
  | tick days => exact h.elim
  | proceed i =>
      obtain ⟨c, hc, hready⟩ := h
      have hwork {s' : Budgets} {c' : Call} (hcalls : s'.calls = s.calls.set i c')
          (hleft : Phase.left c'.phase < Phase.left c.phase) : work s' < work s := by
        have hsum := sum_map_set (fun c : Call => Phase.left c.phase) c' hc
        rw [← hcalls] at hsum
        unfold work
        omega
      show work (proceed limits s i) < work s
      unfold proceed
      rw [hc]
      dsimp only
      generalize hphase : c.phase = phase at hready
      cases phase with
      | awaitsSession previous p =>
          dsimp only
          rw [if_pos (show previous.all s.resolved = true from hready)]
          exact hwork rfl (hphase ▸ Nat.lt_succ_self 3)
      | awaitsTenant session previous p =>
          dsimp only
          rw [if_pos (show previous.all s.resolved = true from hready)]
          exact hwork rfl (hphase ▸ Nat.lt_succ_self 2)
      | leavesTenant session promise result => exact hwork rfl (hphase ▸ Nat.lt_succ_self 1)
      | leavesSession session result => exact hwork rfl (hphase ▸ Nat.lt_succ_self 0)
      | returned result => cases hready

/-- However the event loop lets the calls go on, it soon comes to an end, and
then every consume has returned. -/
structure Returns (limits : Limits) (s : Budgets) : Prop where
  bounded : ∀ actions, Along (step limits) Ready s actions → actions.length ≤ work s
  settled : ∀ actions, Along (step limits) Ready s actions →
    (∀ action, ¬ Ready (run (step limits) s actions) action) →
    ∀ c ∈ (run (step limits) s actions).calls, Phase.isReturned c.phase = true

theorem returns_of_locked {limits : Limits} {s : Budgets} (h : Locked s) : Returns limits s := by
  have hkeeps (s : Budgets) (action : Action) (h : Locked s) : Locked (step limits s action) :=
    locked_step h action
  constructor
  · intro actions halong
    exact along_length_le work (work_proceed_lt limits) halong
  · intro actions _ hdrained c hc
    by_contra hpending
    have hlocked := run_invariant hkeeps h actions
    obtain ⟨i, hready⟩ := exists_ready_call hlocked hc (by simpa using hpending)
    exact hdrained _ hready

end Progress

end C2c.Bff.BudgetLocks
