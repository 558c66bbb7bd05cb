import C2c.Bff.BudgetLocks

/-!
What the counters of the budget store say about the units that are in use.
-/

namespace C2c.Bff.BudgetRuns

open C2c.Library.JavaText
open C2c.Library.Machine
open C2c.Bff.AssistBudget
open C2c.Bff.BudgetLocks

section Property

/-- The units of a session that were granted and not given back. -/
def netUse (s : Budgets) (key : Text) : Nat :=
  s.calls.countP fun c => scopeKey c.scope == key && c.day.isSome && !c.refunded

/-- The units of a tenant that were granted on a day and not given back. -/
def netOfDay (s : Budgets) (tenantId : Text) (day : Nat) : Nat :=
  s.calls.countP fun c => c.scope.tenantId == tenantId && c.day == some day && !c.refunded

/-- The store keeps its promises: the net use of a session is its counter and
within its limit, that of a tenant's day is its counter and within the cap, no
two consumes see the same unit between refunds, and all of them return. -/
structure Sound (limits : Limits) (s : Budgets) : Prop where
  session : ∀ key, netUse s key = (s.sessions key).used ∧ netUse s key ≤ limits.defaultLimit
  capped : ∀ tenantId day, netOfDay s tenantId day ≤ limits.tenantDailyCap
  counted : ∀ tenantId, ∀ tenant ∈ s.tenants tenantId,
    netOfDay s tenantId tenant.dateUtc = tenant.used
  distinct : ∀ key, (s.seen key).Nodup
  returns : Returns limits s

/-- A refund comes while the counter of the tenant is for the day the unit was
charged on, or is zero. -/
def RefundsInTime (s : Budgets) : Action → Prop
  | .refund i => ∀ c, s.calls[i]? = some c → c.refundable = true →
      ∀ tenant ∈ s.tenants c.scope.tenantId, c.day = some tenant.dateUtc ∨ tenant.used = 0
  | _ => True

end Property

section Kept

def Phase.result : Phase → Option BudgetConsumeResult
  | .awaitsSession .. | .awaitsTenant .. => none
  | .leavesTenant _ _ result | .leavesSession _ result | .returned result => some result

def granted : Option BudgetConsumeResult → Bool
  | some (.ok _) => true
  | _ => false

/-- A call has a day once it is granted, and is refunded after that. -/
structure Charged (c : Call) : Prop where
  day : c.day.isSome = granted (Phase.result c.phase)
  refunded : c.refunded = true → Phase.isReturned c.phase = true

/-- What every step keeps, refunds in time or not. -/
structure Kept (limits : Limits) (s : Budgets) : Prop where
  session : ∀ key, netUse s key = (s.sessions key).used ∧
    (s.sessions key).used ≤ limits.defaultLimit
  seen : ∀ key, (s.seen key).Nodup ∧ ∀ n ∈ s.seen key, n ≤ (s.sessions key).used
  tenant : ∀ c ∈ s.calls, ∃ tenant ∈ s.tenants c.scope.tenantId, ∀ d ∈ c.day, d ≤ tenant.dateUtc
  today : ∀ tenantId, ∀ tenant ∈ s.tenants tenantId, tenant.dateUtc ≤ s.today
  charged : ∀ c ∈ s.calls, Charged c
  locked : Locked s

/-- The counters of the tenants, which a late refund breaks. -/
structure Counted (limits : Limits) (s : Budgets) : Prop where
  capped : ∀ tenantId day, netOfDay s tenantId day ≤ limits.tenantDailyCap
  counted : ∀ tenantId, ∀ tenant ∈ s.tenants tenantId,
    netOfDay s tenantId tenant.dateUtc = tenant.used

theorem kept_sound_iff {limits : Limits} {s : Budgets} (h : Kept limits s) :
    Sound limits s ↔ Counted limits s := by
  constructor
  · exact fun hsound => ⟨hsound.capped, hsound.counted⟩
  · rintro ⟨hcapped, hcounted⟩
    refine ⟨fun key => ?_, hcapped, hcounted, fun key => (h.seen key).1, returns_of_locked h.locked⟩
    obtain ⟨hnet, hused⟩ := h.session key
    exact ⟨hnet, hnet ▸ hused⟩

theorem countP_set_add {A : Type*} (p : A → Bool) {l : List A} {i : Nat} {old : A} (new : A)
    (hold : l[i]? = some old) : (l.set i new).countP p + (if p old then 1 else 0) =
      l.countP p + (if p new then 1 else 0) := by
  induction l generalizing i with
  | nil => cases hold
  | cons head l ih =>
      cases i with
      | zero =>
          cases hold
          simp only [List.set_cons_zero, List.countP_cons]
          omega
      | succ i =>
          have ih := ih hold
          simp only [List.set_cons_succ, List.countP_cons]
          omega

/-- The units in use do not change when a call goes on as it was. -/
theorem netUse_set_of_eq {s s' : Budgets} {i : Nat} {c c' : Call} (hc : s.calls[i]? = some c)
    (hcalls : s'.calls = s.calls.set i c') (hscope : c'.scope = c.scope) (hday : c'.day = c.day)
    (hrefunded : c'.refunded = c.refunded) (key : Text) : netUse s' key = netUse s key := by
  have hset := countP_set_add
    (fun c : Call => scopeKey c.scope == key && c.day.isSome && !c.refunded) c' hc
  rw [hscope, hday, hrefunded] at hset
  unfold netUse
  rw [hcalls]
  omega

theorem netOfDay_set_of_eq {s s' : Budgets} {i : Nat} {c c' : Call} (hc : s.calls[i]? = some c)
    (hcalls : s'.calls = s.calls.set i c') (hscope : c'.scope = c.scope) (hday : c'.day = c.day)
    (hrefunded : c'.refunded = c.refunded) (tenantId : Text) (day : Nat) :
    netOfDay s' tenantId day = netOfDay s tenantId day := by
  have hset := countP_set_add
    (fun c : Call => c.scope.tenantId == tenantId && c.day == some day && !c.refunded)
    c' hc
  rw [hscope, hday, hrefunded] at hset
  unfold netOfDay
  rw [hcalls]
  omega

/-- What the counter of a tenant shows. -/
def counter (tenant : TenantEntry) : Nat × Nat :=
  (tenant.dateUtc, tenant.used)

theorem exists_of_counter_eq {s s' : Budgets} {tenantId : Text}
    (h : (s'.tenants tenantId).map counter = (s.tenants tenantId).map counter)
    {tenant : TenantEntry} (htenant : tenant ∈ s'.tenants tenantId) :
    ∃ old ∈ s.tenants tenantId, old.dateUtc = tenant.dateUtc ∧ old.used = tenant.used := by
  rw [Option.mem_def.mp htenant] at h
  obtain ⟨old, hold, hcounter⟩ := Option.map_eq_some_iff.mp h.symm
  exact ⟨old, hold, congrArg Prod.fst hcounter, congrArg Prod.snd hcounter⟩

/-- A call goes on and leaves the counters alone. -/
theorem kept_of_counter_eq {limits : Limits} {s s' : Budgets} (h : Kept limits s) {i : Nat}
    {c c' : Call} (hc : s.calls[i]? = some c) (hcalls : s'.calls = s.calls.set i c')
    (hscope : c'.scope = c.scope) (hday : c'.day = c.day) (hrefunded : c'.refunded = c.refunded)
    (hcharged : Charged c') (hsessions : ∀ key, (s'.sessions key).used = (s.sessions key).used)
    (hseen : s'.seen = s.seen) (htoday : s'.today = s.today)
    (htenants : ∀ tenantId, (s'.tenants tenantId).map counter = (s.tenants tenantId).map counter)
    (hlocked : Locked s') : Kept limits s' ∧ (Counted limits s → Counted limits s') := by
  have hnet := netOfDay_set_of_eq hc hcalls hscope hday hrefunded
  have hmem : c ∈ s.calls := List.mem_of_getElem? hc
  have htenant (d : Call) (hd : d ∈ s.calls) :
      ∃ tenant ∈ s'.tenants d.scope.tenantId, ∀ day ∈ d.day, day ≤ tenant.dateUtc := by
    obtain ⟨old, hold, hdays⟩ := h.tenant d hd
    obtain ⟨tenant, htenant, hdate, -⟩ :=
      exists_of_counter_eq (htenants d.scope.tenantId).symm hold
    exact ⟨tenant, htenant, fun day hday => hdate ▸ hdays day hday⟩
  refine ⟨⟨?_, ?_, ?_, ?_, ?_, hlocked⟩, ?_⟩
  · intro key
    rw [netUse_set_of_eq hc hcalls hscope hday hrefunded, hsessions]
    exact h.session key
  · intro key
    rw [hseen, hsessions]
    exact h.seen key
  · intro d hd
    rcases List.mem_or_eq_of_mem_set (hcalls ▸ hd) with hold | rfl
    · exact htenant d hold
    · rw [hscope, hday]
      exact htenant c hmem
  · intro tenantId tenant htenant
    obtain ⟨old, hold, hdate, -⟩ := exists_of_counter_eq (htenants tenantId) htenant
    rw [htoday, ← hdate]
    exact h.today tenantId old hold
  · intro d hd
    rcases List.mem_or_eq_of_mem_set (hcalls ▸ hd) with hold | rfl
    · exact h.charged d hold
    · exact hcharged
  · rintro ⟨hcapped, hcounted⟩
    refine ⟨fun tenantId day => hnet tenantId day ▸ hcapped tenantId day, ?_⟩
    intro tenantId tenant htenant
    obtain ⟨old, hold, hdate, hused⟩ := exists_of_counter_eq (htenants tenantId) htenant
    rw [hnet, ← hdate, ← hused]
    exact hcounted tenantId old hold

theorem getOrInitTenant_eq {limits : Limits} {s : Budgets} (h : Kept limits s) {c : Call}
    (hc : c ∈ s.calls) : s.tenants c.scope.tenantId =
      some (getOrInitTenant s c.scope.tenantId) := by
  obtain ⟨tenant, htenant, -⟩ := h.tenant c hc
  rw [getOrInitTenant, Option.mem_def.mp htenant]
  rfl

theorem kept_enterSession {limits : Limits} {s : Budgets} (h : Kept limits s) {i : Nat} {c : Call}
    {previous : Option Nat} {session : Nat} (hc : s.calls[i]? = some c)
    (hphase : c.phase = .awaitsSession previous session) :
    Kept limits (enterSession s i c session (getOrInitTenant s c.scope.tenantId)) ∧
      (Counted limits s →
        Counted limits (enterSession s i c session (getOrInitTenant s c.scope.tenantId))) := by
  have hmem : c ∈ s.calls := List.mem_of_getElem? hc
  have hcharged := h.charged c hmem
  refine kept_of_counter_eq h hc rfl rfl rfl rfl ?_ (fun key => rfl) rfl rfl ?_
    (locked_enterSession h.locked hc hphase)
  · refine ⟨?_, fun hrefunded => ?_⟩
    · rw [hcharged.day, hphase]
      rfl
    · have hreturned := hcharged.refunded hrefunded
      rw [hphase] at hreturned
      cases hreturned
  · intro tenantId
    show (Function.update s.tenants _ _ tenantId).map counter = _
    rw [Function.update_apply]
    split
    · rename_i heq
      rw [heq, getOrInitTenant_eq h hmem]
      rfl
    · rfl

theorem kept_leave {limits : Limits} {s : Budgets} (h : Kept limits s) {i : Nat} {c : Call}
    {promise : Nat} {phase : Phase} (hc : s.calls[i]? = some c)
    (hresult : Phase.result phase = Phase.result c.phase)
    (hreturned : Phase.isReturned c.phase = false) (hlocked : Locked (leave s i c promise phase)) :
    Kept limits (leave s i c promise phase) ∧
      (Counted limits s → Counted limits (leave s i c promise phase)) := by
  have hcharged := h.charged c (List.mem_of_getElem? hc)
  refine kept_of_counter_eq h hc rfl rfl rfl rfl ?_ (fun key => rfl) rfl rfl (fun tenantId => rfl)
    hlocked
  refine ⟨?_, fun hrefunded => ?_⟩
  · rw [hcharged.day, hresult]
  · cases hreturned.symm.trans (hcharged.refunded hrefunded)

theorem kept_consume {limits : Limits} {s : Budgets} (h : Kept limits s) (scope : BudgetScope) :
    Kept limits (consume s scope) ∧ (Counted limits s → Counted limits (consume s scope)) := by
  have hsessions (key : Text) : ((consume s scope).sessions key).used = (s.sessions key).used := by
    show (Function.update s.sessions _ _ key).used = _
    rw [Function.update_apply]
    split
    · rename_i heq
      rw [heq]
    · rfl
  have htenants (tenantId : Text) : (consume s scope).tenants tenantId =
      if tenantId = scope.tenantId then some (getOrInitTenant s scope.tenantId)
      else s.tenants tenantId := Function.update_apply ..
  have hsome {tenantId : Text} {tenant : TenantEntry} (htenant : tenant ∈ s.tenants tenantId) :
      tenant ∈ (consume s scope).tenants tenantId := by
    rw [htenants]
    split
    · rename_i heq
      rw [← heq, getOrInitTenant, Option.mem_def.mp htenant]
      rfl
    · exact htenant
  have hnew {tenantId : Text} {tenant : TenantEntry}
      (htenant : tenant ∈ (consume s scope).tenants tenantId) : tenant ∈ s.tenants tenantId ∨
        s.tenants tenantId = none ∧ tenant = { dateUtc := s.today } := by
    rw [htenants] at htenant
    split at htenant
    · rename_i heq
      cases htenant
      rw [← heq, getOrInitTenant]
      cases s.tenants tenantId with
      | none => exact .inr ⟨rfl, rfl⟩
      | some tenant => exact .inl rfl
    · exact .inl htenant
  have hnet (tenantId : Text) (day : Nat) :
      netOfDay (consume s scope) tenantId day = netOfDay s tenantId day := by
    show (s.calls ++ [_]).countP _ = _
    rw [List.countP_append]
    simp [netOfDay]
  refine ⟨⟨?_, ?_, ?_, ?_, ?_, locked_consume h.locked scope⟩, ?_⟩
  · intro key
    have hnet : netUse (consume s scope) key = netUse s key := by
      show (s.calls ++ [_]).countP _ = _
      rw [List.countP_append]
      simp [netUse]
    rw [hnet, hsessions]
    exact h.session key
  · intro key
    rw [hsessions]
    exact h.seen key
  · intro c hc
    rcases List.mem_append.mp hc with hold | hlast
    · obtain ⟨tenant, htenant, hdays⟩ := h.tenant c hold
      exact ⟨tenant, hsome htenant, hdays⟩
    · rw [List.mem_singleton] at hlast
      subst hlast
      exact ⟨_, (htenants scope.tenantId).trans (if_pos rfl), nofun⟩
  · intro tenantId tenant htenant
    rcases hnew htenant with hold | ⟨-, rfl⟩
    · exact h.today tenantId tenant hold
    · exact Nat.le_refl _
  · intro c hc
    rcases List.mem_append.mp hc with hold | hlast
    · exact h.charged c hold
    · rw [List.mem_singleton] at hlast
      subst hlast
      exact ⟨rfl, nofun⟩
  · rintro ⟨hcapped, hcounted⟩
    refine ⟨fun tenantId day => hnet tenantId day ▸ hcapped tenantId day, ?_⟩
    intro tenantId tenant htenant
    rw [hnet]
    rcases hnew htenant with hold | ⟨hnone, rfl⟩
    · exact hcounted tenantId tenant hold
    · -- a tenant without an entry has no calls
      refine List.countP_eq_zero.mpr fun c hc => ?_
      obtain ⟨old, hold, -⟩ := h.tenant c hc
      have hne : c.scope.tenantId ≠ tenantId := by
        rintro rfl
        cases hnone.symm.trans hold
      simp [hne]

def units : BudgetConsumeResult → Nat
  | .ok _ => 1
  | .budgetExhausted _ => 0

/-- What a charge does to the two counters and shows of them. -/
structure ChargeSpec (limits : Limits) (entry entry' : SessionEntry) (tenant tenant' : TenantEntry)
    (result : BudgetConsumeResult) : Prop where
  sessionUsed : entry'.used = entry.used + units result
  tenantUsed : tenant'.used = tenant.used + units result
  dateUtc : tenant'.dateUtc = tenant.dateUtc
  limited : entry.used ≤ limits.defaultLimit → entry'.used ≤ limits.defaultLimit
  capped : tenant.used ≤ limits.tenantDailyCap → tenant'.used ≤ limits.tenantDailyCap
  shows : ∀ snapshot, result = .ok snapshot → snapshot.used = entry.used + 1

theorem charge_spec (limits : Limits) (entry : SessionEntry) (tenant : TenantEntry) :
    ChargeSpec limits entry (charge limits entry tenant).1 tenant (charge limits entry tenant).2.1
      (charge limits entry tenant).2.2 := by
  unfold charge
  split
  · exact ⟨rfl, rfl, rfl, fun h => h, fun h => h, nofun⟩
  · rename_i hcap
    split
    · exact ⟨rfl, rfl, rfl, fun h => h, fun h => h, nofun⟩
    · rename_i hlimit
      refine ⟨rfl, rfl, rfl, fun _ => Nat.lt_of_not_le hlimit, fun _ => Nat.lt_of_not_le hcap, ?_⟩
      rintro snapshot ⟨⟩
      rfl

theorem refreshTenantForToday_dateUtc (entry : TenantEntry) (today : Nat) :
    (refreshTenantForToday entry today).dateUtc = today := by
  unfold refreshTenantForToday
  split
  · rfl
  · rename_i hsame
    exact not_not.mp hsame

/-- Rollover: no unit is charged on a day before the counter is for it. -/
theorem refreshTenantForToday_used {limits : Limits} {s : Budgets} (h : Kept limits s)
    (hcounted : Counted limits s) {c : Call} (hc : c ∈ s.calls) :
    netOfDay s c.scope.tenantId s.today =
      (refreshTenantForToday (getOrInitTenant s c.scope.tenantId) s.today).used := by
  have htenant := getOrInitTenant_eq h hc
  generalize getOrInitTenant s c.scope.tenantId = tenant at htenant
  have hdate := h.today c.scope.tenantId tenant htenant
  unfold refreshTenantForToday
  split
  · rename_i hother
    refine List.countP_eq_zero.mpr fun d hd => ?_
    obtain ⟨old, hold, hdays⟩ := h.tenant d hd
    have hne : d.scope.tenantId = c.scope.tenantId → d.day ≠ some s.today := by
      intro hscope hday
      rw [hscope] at hold
      cases htenant.symm.trans hold
      have := hdays s.today hday
      omega
    by_cases hscope : d.scope.tenantId = c.scope.tenantId
    · simp [hne hscope]
    · simp [hscope]
  · rename_i hsame
    rw [← not_not.mp hsame]
    exact hcounted.counted c.scope.tenantId tenant htenant

/-- A call has both locks: its unit, if it is granted one, is counted twice. -/
theorem kept_of_charge {limits : Limits} {s s' : Budgets} (h : Kept limits s) {i : Nat}
    {c c' : Call} {entry' : SessionEntry} {tenant tenant' : TenantEntry}
    {result : BudgetConsumeResult} (hc : s.calls[i]? = some c)
    (hspec : ChargeSpec limits (s.sessions (scopeKey c.scope)) entry' tenant tenant' result)
    (hdate : tenant.dateUtc = s.today)
    (hused : Counted limits s → netOfDay s c.scope.tenantId s.today = tenant.used)
    (hday : c.day = none) (hcalls : s'.calls = s.calls.set i c') (hscope : c'.scope = c.scope)
    (hday' : c'.day = chargedDay s.today result)
    (hrefunded : c'.refunded = false) (hcharged : Charged c')
    (hsessions : s'.sessions = Function.update s.sessions (scopeKey c.scope) entry')
    (htenants : s'.tenants = Function.update s.tenants c.scope.tenantId (some tenant'))
    (hseen : s'.seen = noteSeen s.seen (scopeKey c.scope) result)
    (htoday : s'.today = s.today) (hlocked : Locked s') :
    Kept limits s' ∧ (Counted limits s → Counted limits s') := by
  have hnetUse (key : Text) : netUse s' key =
      netUse s key + if key = scopeKey c.scope then units result else 0 := by
    have hset := countP_set_add
      (fun c : Call => scopeKey c.scope == key && c.day.isSome && !c.refunded) c' hc
    rw [hscope, hday, hday', hrefunded] at hset
    unfold netUse
    rw [hcalls]
    cases result with
    | ok snapshot =>
        by_cases hkey : key = scopeKey c.scope
        · simpa [units, chargedDay, hkey] using hset
        · simpa [units, chargedDay, hkey, Ne.symm hkey] using hset
    | budgetExhausted snapshot => simpa [units, chargedDay] using hset
  have hnetOfDay (tenantId : Text) (day : Nat) : netOfDay s' tenantId day =
      netOfDay s tenantId day +
        if tenantId = c.scope.tenantId ∧ day = s.today then units result else 0 := by
    have hset := countP_set_add
      (fun c : Call => c.scope.tenantId == tenantId && c.day == some day && !c.refunded)
      c' hc
    rw [hscope, hday, hday', hrefunded] at hset
    unfold netOfDay
    rw [hcalls]
    cases result with
    | ok snapshot =>
        by_cases hsame : tenantId = c.scope.tenantId ∧ day = s.today
        · simpa [units, chargedDay, hsame] using hset
        · have hother : ¬ (c.scope.tenantId = tenantId ∧ s.today = day) :=
            fun h => hsame ⟨h.1.symm, h.2.symm⟩
          simpa [units, chargedDay, hsame, hother] using hset
    | budgetExhausted snapshot => simpa [units, chargedDay] using hset
  have hsession (key : Text) : s'.sessions key =
      if key = scopeKey c.scope then entry' else s.sessions key := by
    rw [hsessions, Function.update_apply]
  have htenant (tenantId : Text) : s'.tenants tenantId =
      if tenantId = c.scope.tenantId then some tenant' else s.tenants tenantId := by
    rw [htenants, Function.update_apply]
  have hdate' : tenant'.dateUtc = s.today := hspec.dateUtc.trans hdate
  refine ⟨⟨?_, ?_, ?_, ?_, ?_, hlocked⟩, ?_⟩
  · intro key
    obtain ⟨hnet, hlimit⟩ := h.session key
    rw [hnetUse, hsession]
    split
    · rename_i heq
      subst heq
      exact ⟨by rw [hnet, hspec.sessionUsed], hspec.limited hlimit⟩
    · exact ⟨hnet, hlimit⟩
  · intro key
    obtain ⟨hnodup, hbelow⟩ := h.seen key
    rw [hsession, hseen]
    cases result with
    | ok snapshot =>
        have hshows : snapshot.used = (s.sessions (scopeKey c.scope)).used + 1 :=
          hspec.shows snapshot rfl
        have hsum : entry'.used = snapshot.used := hspec.sessionUsed.trans hshows.symm
        rw [noteSeen, Function.update_apply]
        split
        · rename_i heq
          subst heq
          have hlater (n : Nat) (hn : n ∈ s.seen (scopeKey c.scope)) : n < snapshot.used :=
            hshows ▸ Nat.lt_succ_of_le (hbelow n hn)
          refine ⟨List.nodup_cons.mpr ⟨fun hmem => ?_, hnodup⟩, fun n hn => ?_⟩
          · exact Nat.lt_irrefl _ (hlater _ hmem)
          · rcases List.mem_cons.mp hn with rfl | hn
            · exact hsum.ge
            · exact hsum ▸ (hlater n hn).le
        · exact ⟨hnodup, hbelow⟩
    | budgetExhausted snapshot =>
        refine ⟨hnodup, fun n hn => ?_⟩
        split
        · rename_i heq
          subst heq
          exact hspec.sessionUsed ▸ hbelow n hn
        · exact hbelow n hn
  · intro d hd
    have htenant' (d : Call) (hd : d ∈ s.calls) :
        ∃ tenant ∈ s'.tenants d.scope.tenantId, ∀ day ∈ d.day, day ≤ tenant.dateUtc := by
      obtain ⟨old, hold, hdays⟩ := h.tenant d hd
      rw [htenant]
      split
      · exact ⟨tenant', rfl, fun day hday => hdate' ▸ (hdays day hday).trans (h.today _ old hold)⟩
      · exact ⟨old, hold, hdays⟩
    rcases List.mem_or_eq_of_mem_set (hcalls ▸ hd) with hold | rfl
    · exact htenant' d hold
    · refine ⟨tenant', by rw [htenant, hscope, if_pos rfl]; rfl, fun day hday => ?_⟩
      rw [hday'] at hday
      cases result with
      | ok snapshot =>
          cases hday
          exact hdate'.ge
      | budgetExhausted snapshot => cases hday
  · intro tenantId entry hentry
    rw [htenant] at hentry
    rw [htoday]
    split at hentry
    · cases hentry
      exact hdate'.le
    · exact h.today tenantId entry hentry
  · intro d hd
    rcases List.mem_or_eq_of_mem_set (hcalls ▸ hd) with hold | rfl
    · exact h.charged d hold
    · exact hcharged
  · intro hcounted
    have hused := hused hcounted
    have hcap := hspec.capped (hused ▸ hcounted.capped c.scope.tenantId s.today)
    rw [hspec.tenantUsed] at hcap
    constructor
    · intro tenantId day
      rw [hnetOfDay]
      split
      · rename_i heq
        rw [heq.1, heq.2, hused]
        exact hcap
      · exact hcounted.capped tenantId day
    · intro tenantId entry hentry
      rw [htenant] at hentry
      rw [hnetOfDay]
      split at hentry
      · rename_i heq
        cases hentry
        rw [heq, hdate', if_pos ⟨rfl, rfl⟩, hused, hspec.tenantUsed]
      · rename_i hne
        rw [if_neg fun heq => hne heq.1]
        exact hcounted.counted tenantId entry hentry

theorem kept_enterTenant {limits : Limits} {s : Budgets} (h : Kept limits s) {i : Nat} {c : Call}
    {previous : Option Nat} {session promise : Nat} (hc : s.calls[i]? = some c)
    (hphase : c.phase = .awaitsTenant session previous promise) :
    Kept limits (enterTenant limits s i c session promise (getOrInitTenant s c.scope.tenantId)) ∧
      (Counted limits s → Counted limits
        (enterTenant limits s i c session promise (getOrInitTenant s c.scope.tenantId))) := by
  have hmem : c ∈ s.calls := List.mem_of_getElem? hc
  have hcharged := h.charged c hmem
  have hday : c.day = none := by
    have hnone := hcharged.day
    rw [hphase] at hnone
    exact Option.not_isSome_iff_eq_none.mp (by rw [hnone]; exact Bool.false_ne_true)
  have hrefunded : c.refunded = false := by
    by_contra hne
    have hreturned := hcharged.refunded (by simpa using hne)
    rw [hphase] at hreturned
    cases hreturned
  have hspec := charge_spec limits (s.sessions (scopeKey c.scope))
    (refreshTenantForToday (getOrInitTenant s c.scope.tenantId) s.today)
  have hlocked := @locked_enterTenant limits _ h.locked _ _ _ _ _ hc hphase
  unfold enterTenant at hlocked ⊢
  dsimp only at hlocked ⊢
  generalize charge limits (s.sessions (scopeKey c.scope))
    (refreshTenantForToday (getOrInitTenant s c.scope.tenantId) s.today) = charged at *
  obtain ⟨entry, tenant, result⟩ := charged
  refine kept_of_charge h hc hspec (refreshTenantForToday_dateUtc _ _)
    (fun hcounted => refreshTenantForToday_used h hcounted hmem) hday rfl rfl rfl hrefunded ?_ rfl
    rfl rfl rfl hlocked
  · refine ⟨?_, fun h => absurd h (by simp [hrefunded])⟩
    cases result with
    | ok snapshot => rfl
    | budgetExhausted snapshot => rfl

end Kept

section Refunds

variable {limits : Limits} {s : Budgets} {i : Nat} {c : Call}

/-- The state after the unit of a call is given back. -/
def refunded (s : Budgets) (i : Nat) (c : Call) : Budgets :=
  { refundScope s c.scope with calls := s.calls.set i { c with refunded := true } }

theorem refund_eq (hc : s.calls[i]? = some c) (hrefundable : c.refundable = true) :
    refund s i = refunded s i c := by
  rw [refund, hc]
  exact if_pos hrefundable

theorem exists_day_of_refundable (h : Kept limits s) (hc : s.calls[i]? = some c)
    (hrefundable : c.refundable = true) :
    c.refunded = false ∧ Phase.isReturned c.phase = true ∧ ∃ d, c.day = some d := by
  have hcharged := h.charged c (List.mem_of_getElem? hc)
  unfold Call.refundable at hrefundable
  rw [Bool.and_eq_true, Bool.not_eq_true'] at hrefundable
  obtain ⟨hrefunded, hphase⟩ := hrefundable
  split at hphase
  · rename_i snapshot hreturned
    refine ⟨hrefunded, hreturned ▸ rfl, Option.isSome_iff_exists.mp ?_⟩
    rw [hcharged.day, hreturned]
    rfl
  · cases hphase

theorem netUse_refunded (hc : s.calls[i]? = some c) (hrefunded : c.refunded = false) {d : Nat}
    (hday : c.day = some d) (key : Text) :
    netUse (refunded s i c) key + (if key = scopeKey c.scope then 1 else 0) = netUse s key := by
  have hset := countP_set_add
    (fun c : Call => scopeKey c.scope == key && c.day.isSome && !c.refunded)
    { c with refunded := true } hc
  unfold netUse
  rw [show (refunded s i c).calls = s.calls.set i { c with refunded := true } from rfl]
  by_cases hkey : key = scopeKey c.scope
  · simpa [hday, hrefunded, hkey] using hset
  · simpa [hday, hrefunded, hkey, Ne.symm hkey] using hset

theorem netOfDay_refunded (hc : s.calls[i]? = some c) (hrefunded : c.refunded = false) {d : Nat}
    (hday : c.day = some d) (tenantId : Text) (day : Nat) :
    netOfDay (refunded s i c) tenantId day +
      (if tenantId = c.scope.tenantId ∧ day = d then 1 else 0) = netOfDay s tenantId day := by
  have hset := countP_set_add
    (fun c : Call => c.scope.tenantId == tenantId && c.day == some day && !c.refunded)
    { c with refunded := true } hc
  unfold netOfDay
  rw [show (refunded s i c).calls = s.calls.set i { c with refunded := true } from rfl]
  by_cases hsame : tenantId = c.scope.tenantId ∧ day = d
  · simpa [hday, hrefunded, hsame] using hset
  · have hother : ¬ (c.scope.tenantId = tenantId ∧ d = day) := fun h => hsame ⟨h.1.symm, h.2.symm⟩
    simpa [hday, hrefunded, hsame, hother] using hset

theorem kept_refunded (h : Kept limits s) (hc : s.calls[i]? = some c)
    (hrefundable : c.refundable = true) : Kept limits (refunded s i c) := by
  obtain ⟨hrefunded, hreturned, d, hday⟩ := exists_day_of_refundable h hc hrefundable
  have hcharged := h.charged c (List.mem_of_getElem? hc)
  have hsessions := refundScope_sessions s c.scope
  have htenants := refundScope_tenants s c.scope
  have htenant (e : Call) (he : e ∈ s.calls) :
      ∃ tenant ∈ (refundScope s c.scope).tenants e.scope.tenantId,
        ∀ day ∈ e.day, day ≤ tenant.dateUtc := by
    obtain ⟨old, hold, hdays⟩ := h.tenant e he
    rw [htenants, Option.mem_def.mp hold]
    split
    · exact ⟨_, rfl, hdays⟩
    · exact ⟨old, rfl, hdays⟩
  refine ⟨?_, ?_, ?_, ?_, ?_, ?_⟩
  · intro key
    obtain ⟨hnet, hlimit⟩ := h.session key
    have hnet' := netUse_refunded hc hrefunded hday key
    show netUse (refunded s i c) key = ((refundScope s c.scope).sessions key).used ∧
      ((refundScope s c.scope).sessions key).used ≤ limits.defaultLimit
    rw [hsessions]
    split at hnet'
    · rename_i hkey
      rw [if_pos hkey]
      dsimp only
      omega
    · rename_i hkey
      rw [if_neg hkey]
      omega
  · intro key
    show (Function.update s.seen _ _ key).Nodup ∧
      ∀ n ∈ Function.update s.seen _ _ key, n ≤ ((refundScope s c.scope).sessions key).used
    rw [Function.update_apply, hsessions]
    split
    · exact ⟨.nil, nofun⟩
    · exact h.seen key
  · intro e he
    rcases List.mem_or_eq_of_mem_set he with hold | rfl
    · exact htenant e hold
    · exact htenant c (List.mem_of_getElem? hc)
  · intro tenantId tenant hmem
    have hmem := (htenants tenantId).symm.trans hmem
    split at hmem
    · obtain ⟨old, hold, rfl⟩ := Option.map_eq_some_iff.mp hmem
      exact h.today tenantId old hold
    · exact h.today tenantId tenant hmem
  · intro e he
    rcases List.mem_or_eq_of_mem_set he with hold | rfl
    · exact h.charged e hold
    · exact ⟨hcharged.day, fun _ => hreturned⟩
  · rw [← refund_eq hc hrefundable]
    exact locked_refund h.locked i

/-- A refund keeps the tenants' counters right exactly if it is in time. -/
theorem counted_refunded_iff (h : Kept limits s) (hcounted : Counted limits s)
    (hc : s.calls[i]? = some c) (hrefundable : c.refundable = true) :
    Counted limits (refunded s i c) ↔
      ∀ tenant ∈ s.tenants c.scope.tenantId, c.day = some tenant.dateUtc ∨ tenant.used = 0 := by
  obtain ⟨hrefunded, -, d, hday⟩ := exists_day_of_refundable h hc hrefundable
  have hnet := netOfDay_refunded hc hrefunded hday
  have htenants := refundScope_tenants s c.scope
  rw [hday]
  constructor
  · rintro ⟨-, hcounted'⟩ tenant htenant
    have hbefore := hcounted.counted c.scope.tenantId tenant htenant
    have hafter := hcounted' c.scope.tenantId { tenant with used := tenant.used - 1 } (by
      show (refundScope s c.scope).tenants c.scope.tenantId = _
      rw [htenants, if_pos rfl, Option.mem_def.mp htenant]
      rfl)
    have hnet := hnet c.scope.tenantId tenant.dateUtc
    dsimp only at hafter
    by_cases hdate : tenant.dateUtc = d
    · exact .inl (congrArg some hdate.symm)
    · rw [if_neg fun h => hdate h.2] at hnet
      exact .inr (by omega)
  · intro htime
    constructor
    · intro tenantId day
      have hcap := hcounted.capped tenantId day
      have hnet := hnet tenantId day
      omega
    · intro tenantId tenant htenant
      have htenant := (htenants tenantId).symm.trans htenant
      have hnet := hnet tenantId tenant.dateUtc
      split at htenant
      · rename_i heq
        subst heq
        obtain ⟨old, hold, rfl⟩ := Option.map_eq_some_iff.mp htenant
        have hbefore := hcounted.counted c.scope.tenantId old hold
        rcases htime old hold with hdate | hzero
        · cases hdate
          rw [if_pos ⟨rfl, rfl⟩] at hnet
          dsimp only at hnet ⊢
          omega
        · dsimp only at hnet ⊢
          omega
      · rename_i hne
        rw [if_neg fun h => hne h.1] at hnet
        exact hnet.trans (hcounted.counted tenantId tenant htenant)

end Refunds

section Runs

theorem kept_init (limits : Limits) (today : Nat) : Kept limits { today := today } where
  session := fun _ => ⟨rfl, Nat.zero_le _⟩
  seen := fun _ => ⟨.nil, nofun⟩
  tenant := nofun
  today := nofun
  charged := nofun
  locked := ⟨nofun, nofun, nofun⟩

theorem kept_proceed {limits : Limits} {s : Budgets} (h : Kept limits s) (i : Nat) :
    Kept limits (proceed limits s i) ∧ (Counted limits s → Counted limits (proceed limits s i)) := by
  have hlocked := @locked_proceed limits _ h.locked i
  unfold proceed at hlocked ⊢
  split
  · exact ⟨h, id⟩
  · rename_i c hc
    rw [hc] at hlocked
    dsimp only at hlocked ⊢
    generalize hphase : c.phase = phase at hlocked ⊢
    cases phase with
    | awaitsSession previous session =>
        dsimp only
        split
        · exact kept_enterSession h hc hphase
        · exact ⟨h, id⟩
    | awaitsTenant session previous promise =>
        dsimp only
        split
        · exact kept_enterTenant h hc hphase
        · exact ⟨h, id⟩
    | leavesTenant session promise result =>
        exact kept_leave h hc (hphase ▸ rfl) (hphase ▸ rfl) hlocked
    | leavesSession session result =>
        exact kept_leave h hc (hphase ▸ rfl) (hphase ▸ rfl) hlocked
    | returned result => exact ⟨h, id⟩

theorem kept_refund {limits : Limits} {s : Budgets} (h : Kept limits s) (i : Nat) :
    Kept limits (refund s i) := by
  cases hc : s.calls[i]? with
  | none =>
      rw [refund, hc]
      exact h
  | some c =>
      by_cases hrefundable : c.refundable = true
      · rw [refund_eq hc hrefundable]
        exact kept_refunded h hc hrefundable
      · rw [refund, hc]
        dsimp only
        rw [if_neg hrefundable]
        exact h

theorem kept_step {limits : Limits} {s : Budgets} (h : Kept limits s) (action : Action) :
    Kept limits (step limits s action) := by
  cases action with
  | consume scope => exact (kept_consume h scope).1
  | proceed i => exact (kept_proceed h i).1
  | refund i => exact kept_refund h i
  | tick days =>
      exact { h with
        today := fun tenantId tenant htenant =>
          (h.today tenantId tenant htenant).trans (Nat.le_add_right _ _)
        locked := locked_step h.locked (.tick days) }

theorem counted_step_iff {limits : Limits} {s : Budgets} (h : Kept limits s)
    (hcounted : Counted limits s) (action : Action) :
    Counted limits (step limits s action) ↔ RefundsInTime s action := by
  cases action with
  | consume scope => exact iff_of_true ((kept_consume h scope).2 hcounted) trivial
  | proceed i => exact iff_of_true ((kept_proceed h i).2 hcounted) trivial
  | tick days => exact iff_of_true ⟨hcounted.capped, hcounted.counted⟩ trivial
  | refund i =>
      show Counted limits (refund s i) ↔ _
      cases hc : s.calls[i]? with
      | none =>
          rw [refund, hc]
          exact iff_of_true hcounted fun c hc' => by cases hc.symm.trans hc'
      | some c =>
          by_cases hrefundable : c.refundable = true
          · rw [refund_eq hc hrefundable, counted_refunded_iff h hcounted hc hrefundable]
            constructor
            · rintro htime d hd -
              cases hc.symm.trans hd
              exact htime
            · exact fun htime => htime c hc hrefundable
          · rw [refund, hc]
            dsimp only
            rw [if_neg hrefundable]
            refine iff_of_true hcounted fun d hd hrefundable' => ?_
            cases hc.symm.trans hd
            exact absurd hrefundable' hrefundable

/-- All along a run of consumes and refunds, over any days, the store keeps its
promises exactly if every refund comes in time. -/
theorem budgets_sound_iff (limits : Limits) (today : Nat) (actions : List Action) :
    (∀ n, Sound limits (run (step limits) { today := today } (actions.take n))) ↔
      Along (step limits) RefundsInTime { today := today } actions := by
  let Holds (s : Budgets) : Prop := Kept limits s ∧ Counted limits s
  have hinit : Holds { today := today } :=
    ⟨kept_init limits today, fun _ _ => Nat.zero_le _, nofun⟩
  have hstep (s : Budgets) (action : Action) (h : Holds s) :
      Holds (step limits s action) ↔ RefundsInTime s action :=
    (and_iff_right (kept_step h.1 action)).trans (counted_step_iff h.1 h.2 action)
  have hkept (n : Nat) : Kept limits (run (step limits) { today := today } (actions.take n)) := by
    have hkeeps (s : Budgets) (action : Action) (h : Kept limits s) := kept_step h action
    exact run_invariant hkeeps (kept_init limits today) (actions.take n)
  rw [← run_invariant_iff hstep hinit actions]
  exact forall_congr' fun n => (kept_sound_iff (hkept n)).trans (and_iff_right (hkept n)).symm

section Sample

def firstScope : BudgetScope :=
  ⟨"t".toList, "u".toList, "s".toList⟩

/-- The steps of a consume that nothing holds up. -/
def consumed (scope : BudgetScope) (call : Nat) : List Action :=
  [.consume scope, .proceed call, .proceed call, .proceed call, .proceed call]

/-- A unit of the first day is given back on the second, which then grants more
than its cap. -/
def lateRefund : List Action :=
  consumed firstScope 0 ++ [.tick 1] ++ consumed firstScope 1 ++ [.refund 0] ++
    consumed firstScope 2

theorem late_refund_exceeds_cap :
    ¬ ∀ (limits : Limits) (today : Nat) (actions : List Action),
      Sound limits (run (step limits) { today := today } actions) := by
  intro hall
  have hcapped := (hall ⟨10, 1⟩ 0 lateRefund).capped "t".toList 1
  revert hcapped
  decide

end Sample

end Runs

end C2c.Bff.BudgetRuns
