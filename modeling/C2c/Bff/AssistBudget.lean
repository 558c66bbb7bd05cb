import Mathlib.Data.Rat.Floor
import Mathlib.Logic.Function.Basic
import C2c.Library.JavaText
import C2c.Library.Machine

/-!
The budget store of the editor assistant: two counters, each behind a chain of
promises. The steps are those of the event loop.
-/

namespace C2c.Bff.AssistBudget

open C2c.Library.JavaText
open C2c.Library.Machine

section Limits

def unlimitedAiBudget : Nat := 2147483647

def editorAssistBudgetMin : Nat := 1

def editorAssistBudgetMax : Nat := unlimitedAiBudget

def defaultEditorAssistBudget : Nat := unlimitedAiBudget

def editorAssistDefaultTenantDailyCap : Nat := unlimitedAiBudget

/-- `clampEditorAssistBudget`; a number that is not finite is none. -/
def clampEditorAssistBudget : Option Rat → Nat
  | none => editorAssistBudgetMin
  | some value =>
      if value < editorAssistBudgetMin then editorAssistBudgetMin
      else if (editorAssistBudgetMax : Rat) < value then editorAssistBudgetMax
      else ⌊value⌋.toNat

/-- The limits of a store. -/
structure Limits where
  defaultLimit : Nat
  tenantDailyCap : Nat

/-- The limits `createEditorAssistBudgetStore` has from its options. -/
def createLimits (defaultLimit : Option (Option Rat)) (tenantDailyCap : Option Nat) : Limits where
  defaultLimit := clampEditorAssistBudget (defaultLimit.getD (some defaultEditorAssistBudget))
  tenantDailyCap := tenantDailyCap.getD editorAssistDefaultTenantDailyCap

end Limits

section Entries

structure BudgetScope where
  tenantId : Text
  userId : Text
  sessionId : Text
deriving DecidableEq

/-- `scopeKey`. -/
def scopeKey (scope : BudgetScope) : Text :=
  scope.tenantId ++ '\x00' :: scope.userId ++ '\x00' :: scope.sessionId

structure BudgetSnapshot where
  limit : Nat
  used : Nat
  remaining : Nat
deriving DecidableEq

inductive BudgetConsumeResult
  | ok (snapshot : BudgetSnapshot)
  | budgetExhausted (snapshot : BudgetSnapshot)
deriving DecidableEq

/-- A `SessionEntry`; the promises are numbered, none is `Promise.resolve()`. -/
structure SessionEntry where
  used : Nat := 0
  tail : Option Nat := none

/-- A `TenantEntry`; a date is the number of its UTC day. -/
structure TenantEntry where
  dateUtc : Nat
  used : Nat := 0
  tail : Option Nat := none

/-- `refreshTenantForToday`. -/
def refreshTenantForToday (entry : TenantEntry) (today : Nat) : TenantEntry :=
  if entry.dateUtc ≠ today then { entry with dateUtc := today, used := 0 } else entry

/-- `snapshotForSession`. -/
def snapshotForSession (limits : Limits) (used : Nat) : BudgetSnapshot where
  limit := limits.defaultLimit
  used := used
  remaining := limits.defaultLimit - used

/-- What `consume` does with both locks, the tenant refreshed. -/
def charge (limits : Limits) (entry : SessionEntry) (tenant : TenantEntry) :
    SessionEntry × TenantEntry × BudgetConsumeResult :=
  if limits.tenantDailyCap ≤ tenant.used then
    (entry, tenant, .budgetExhausted (snapshotForSession limits entry.used))
  else if limits.defaultLimit ≤ entry.used then
    (entry, tenant, .budgetExhausted (snapshotForSession limits entry.used))
  else
    ({ entry with used := entry.used + 1 }, { tenant with used := tenant.used + 1 },
      .ok (snapshotForSession limits (entry.used + 1)))

end Entries

section Calls

/-- Where a `consume` is: the promise it awaits, and those it has to resolve. -/
inductive Phase
  | awaitsSession (previous : Option Nat) (session : Nat)
  | awaitsTenant (session : Nat) (previous : Option Nat) (tenant : Nat)
  | leavesTenant (session tenant : Nat) (result : BudgetConsumeResult)
  | leavesSession (session : Nat) (result : BudgetConsumeResult)
  | returned (result : BudgetConsumeResult)

/-- A `consume` call, with the day its unit was charged on and whether it was
given back. -/
structure Call where
  scope : BudgetScope
  phase : Phase
  day : Option Nat := none
  refunded : Bool := false

/-- The store; a session that is not in its map has the entry it would be made
with, `seen` has what the consumes of a session have seen it use since its last
refund. -/
structure Budgets where
  today : Nat
  sessions : Text → SessionEntry := fun _ => {}
  tenants : Text → Option TenantEntry := fun _ => none
  promises : Nat := 0
  resolved : Nat → Bool := fun _ => false
  calls : List Call := []
  seen : Text → List Nat := fun _ => []

inductive Action
  | consume (scope : BudgetScope)
  | proceed (call : Nat)
  | refund (call : Nat)
  | tick (days : Nat)

/-- `getOrInitTenant`; entries stay in the map, so later it is the same entry. -/
def getOrInitTenant (s : Budgets) (tenantId : Text) : TenantEntry :=
  (s.tenants tenantId).getD { dateUtc := s.today }

/-- `consume` up to its first await. -/
def consume (s : Budgets) (scope : BudgetScope) : Budgets :=
  let entry := s.sessions (scopeKey scope)
  { s with
    sessions := Function.update s.sessions (scopeKey scope) { entry with tail := some s.promises }
    tenants := Function.update s.tenants scope.tenantId
      (some (getOrInitTenant s scope.tenantId))
    promises := s.promises + 1
    calls := s.calls ++ [{ scope := scope, phase := .awaitsSession entry.tail s.promises }] }

/-- The call has the lock of its session and asks for the one of its tenant. -/
def enterSession (s : Budgets) (i : Nat) (c : Call) (session : Nat) (tenant : TenantEntry) :
    Budgets :=
  { s with
    tenants := Function.update s.tenants c.scope.tenantId
      (some { tenant with tail := some s.promises })
    promises := s.promises + 1
    calls := s.calls.set i { c with phase := .awaitsTenant session tenant.tail s.promises } }

/-- The day of a unit, if one is granted. -/
def chargedDay (today : Nat) : BudgetConsumeResult → Option Nat
  | .ok _ => some today
  | .budgetExhausted _ => none

def noteSeen (seen : Text → List Nat) (key : Text) : BudgetConsumeResult → Text → List Nat
  | .ok snapshot => Function.update seen key (snapshot.used :: seen key)
  | .budgetExhausted _ => seen

/-- The call has both locks. -/
def enterTenant (limits : Limits) (s : Budgets) (i : Nat) (c : Call) (session promise : Nat)
    (tenant : TenantEntry) : Budgets :=
  let key := scopeKey c.scope
  let (entry, tenant, result) :=
    charge limits (s.sessions key) (refreshTenantForToday tenant s.today)
  { s with
    sessions := Function.update s.sessions key entry
    tenants := Function.update s.tenants c.scope.tenantId (some tenant)
    calls := s.calls.set i { c with
      phase := .leavesTenant session promise result
      day := chargedDay s.today result }
    seen := noteSeen s.seen key result }

/-- A call resolves a promise others may await. -/
def leave (s : Budgets) (i : Nat) (c : Call) (promise : Nat) (phase : Phase) : Budgets :=
  { s with
    resolved := Function.update s.resolved promise true
    calls := s.calls.set i { c with phase := phase } }

/-- A call goes on, if what it awaits is resolved. -/
def proceed (limits : Limits) (s : Budgets) (i : Nat) : Budgets :=
  match s.calls[i]? with
  | none => s
  | some c =>
      let tenant := getOrInitTenant s c.scope.tenantId
      match c.phase with
      | .awaitsSession previous session =>
          if previous.all s.resolved then enterSession s i c session tenant else s
      | .awaitsTenant session previous promise =>
          if previous.all s.resolved then enterTenant limits s i c session promise tenant else s
      | .leavesTenant session promise result =>
          leave s i c promise (.leavesSession session result)
      | .leavesSession session result => leave s i c session (.returned result)
      | .returned _ => s

/-- `refund`. -/
def refundScope (s : Budgets) (scope : BudgetScope) : Budgets :=
  let key := scopeKey scope
  let entry := s.sessions key
  { s with
    sessions := if 0 < entry.used then
        Function.update s.sessions key { entry with used := entry.used - 1 }
      else s.sessions
    tenants := match s.tenants scope.tenantId with
      | none => s.tenants
      | some tenant =>
          if 0 < tenant.used then
            Function.update s.tenants scope.tenantId (some { tenant with used := tenant.used - 1 })
          else s.tenants
    seen := Function.update s.seen key [] }

/-- Whether a call may be refunded: it has returned, with a unit it has not
given back. -/
def Call.refundable (c : Call) : Bool :=
  !c.refunded && match c.phase with
    | .returned (.ok _) => true
    | _ => false

/-- A caller gives the unit of its consume back. -/
def refund (s : Budgets) (i : Nat) : Budgets :=
  match s.calls[i]? with
  | none => s
  | some c =>
      if c.refundable then
        { refundScope s c.scope with calls := s.calls.set i { c with refunded := true } }
      else s

def step (limits : Limits) (s : Budgets) : Action → Budgets
  | .consume scope => consume s scope
  | .proceed i => proceed limits s i
  | .refund i => refund s i
  | .tick days => { s with today := s.today + days }

theorem refundScope_sessions (s : Budgets) (scope : BudgetScope) (key : Text) :
    (refundScope s scope).sessions key = if key = scopeKey scope then
      { s.sessions key with used := (s.sessions key).used - 1 } else s.sessions key := by
  show (if _ then Function.update s.sessions (scopeKey scope) _ else s.sessions) key = _
  by_cases hkey : key = scopeKey scope
  · subst hkey
    rw [if_pos rfl]
    split
    · exact Function.update_self ..
    · rename_i hused
      rw [Nat.eq_zero_of_not_pos hused]
      exact congrArg (SessionEntry.mk · _) (Nat.eq_zero_of_not_pos hused)
  · rw [if_neg hkey]
    split
    · exact Function.update_of_ne hkey ..
    · rfl

theorem refundScope_tenants (s : Budgets) (scope : BudgetScope) (tenantId : Text) :
    (refundScope s scope).tenants tenantId = if tenantId = scope.tenantId then
      (s.tenants tenantId).map fun tenant => { tenant with used := tenant.used - 1 }
    else s.tenants tenantId := by
  have hrefund : (refundScope s scope).tenants = match s.tenants scope.tenantId with
    | none => s.tenants
    | some tenant => if 0 < tenant.used then Function.update s.tenants scope.tenantId
        (some { tenant with used := tenant.used - 1 }) else s.tenants := rfl
  rw [hrefund]
  by_cases hid : tenantId = scope.tenantId
  · subst hid
    rw [if_pos rfl]
    cases htenant : s.tenants scope.tenantId with
    | none => exact htenant
    | some tenant =>
        dsimp only
        split
        · exact Function.update_self ..
        · rename_i hused
          have hzero : tenant.used - 1 = tenant.used := by omega
          rw [htenant, Option.map_some, hzero]
  · rw [if_neg hid]
    cases s.tenants scope.tenantId with
    | none => rfl
    | some tenant =>
        dsimp only
        split
        · exact Function.update_of_ne hid ..
        · rfl

end Calls

end C2c.Bff.AssistBudget
