import C2c.Library.PythonDict
import C2c.Studio.PreRedaction

/-!
The store of the sessions. Strings are lists of code units, times are numbers of
milliseconds.
-/

namespace C2c.Bff.SessionStore

open C2c.Library.RegExp
open C2c.Library.PythonDict
open C2c.Studio.PreRedaction (isTrimmed trim)

structure SessionIdentifierError where
  message : String
deriving DecidableEq

structure RedactionPatternAddition where
  id : CodeUnits
  literal : CodeUnits
deriving DecidableEq

structure SessionIdentity where
  tenantId : CodeUnits
  userId : CodeUnits
  studioRedactionPatternAdditions : Option (List RedactionPatternAddition)

/-- What of a record is given out at its creation. -/
structure IssuedRecord where
  sessionId : CodeUnits
  tenantId : CodeUnits
  userId : CodeUnits
  draftKeyWrappingSecret : CodeUnits
  studioRedactionPatternAdditions : List RedactionPatternAddition
  createdAt : Int
deriving DecidableEq

/-- The preferences are the own properties of a plain object. -/
structure SessionRecord extends IssuedRecord where
  trustCasePreferences : List (CodeUnits × CodeUnits)

structure SessionStoreOptions where
  idleTimeoutMs : Int
  maxSessions : Int

/-- `DEFAULT_IDLE_TIMEOUT_MS` and `DEFAULT_MAX_SESSIONS`. -/
def defaultOptions : SessionStoreOptions where
  idleTimeoutMs := 8 * 60 * 60 * 1000
  maxSessions := 10000

section Validation

def isIdCharacter (c : UInt16) : Bool :=
  isUpper c || isLower c || isDigit c || oneOf "._-" c

/-- `SAFE_ID_PATTERN`. -/
def isSafeId (value : CodeUnits) : Bool :=
  decide (1 ≤ value.length ∧ value.length ≤ 128) && value.all isIdCharacter

/-- `REDACTION_ADDITION_ID_PATTERN`. -/
def isRedactionAdditionId (id : CodeUnits) : Bool :=
  decide (1 ≤ id.length ∧ id.length ≤ 96) && id.all fun c => isIdCharacter c || oneOf ":" c

def maxRedactionAdditions : Nat := 25

def maxRedactionLiteralChars : Nat := 256

def validateOpaqueIdentifier (field : String) (value : CodeUnits) :
    Except SessionIdentifierError Unit :=
  if value.length = 0 then .error ⟨field ++ " must be a non-empty opaque identifier"⟩
  else if value.contains 64 then
    .error ⟨field ++ " must be an opaque pseudonymous identifier; '@' is forbidden" ++
      " (looks like an email)"⟩
  else if value.any isTrimmed then .error ⟨field ++ " must not contain whitespace"⟩
  else if ¬ isSafeId value then .error ⟨field ++ " must match [A-Za-z0-9._-]\x7b1,128\x7d"⟩
  else .ok ()

/-- The check of an entry that has an id and a literal and nothing else. -/
def validateRedactionAddition (addition : RedactionPatternAddition) :
    Except SessionIdentifierError RedactionPatternAddition :=
  if ¬ isRedactionAdditionId addition.id then
    .error ⟨"studioRedactionPatternAdditions id must match [A-Za-z0-9._:-]\x7b1,96\x7d"⟩
  else if (trim addition.literal).length = 0 ∨
      addition.literal.length > maxRedactionLiteralChars then
    .error ⟨"studioRedactionPatternAdditions literal must be 1-256 characters"⟩
  else .ok addition

def validateRedactionAdditions (additions : List RedactionPatternAddition) :
    Except SessionIdentifierError (List RedactionPatternAddition) :=
  if additions.length > maxRedactionAdditions then
    .error ⟨"studioRedactionPatternAdditions must be an array of at most 25 entries"⟩
  else additions.mapM validateRedactionAddition

def validateSessionIdentity (identity : SessionIdentity) :
    Except SessionIdentifierError (List RedactionPatternAddition) := do
  validateOpaqueIdentifier "tenantId" identity.tenantId
  validateOpaqueIdentifier "userId" identity.userId
  validateRedactionAdditions (identity.studioRedactionPatternAdditions.getD [])

/-- `TRUST_CASE_ID_PATTERN`. -/
def isTrustCaseId : CodeUnits → Bool
  | [] => false
  | c :: rest =>
      isUpper c && decide (1 ≤ rest.length ∧ rest.length ≤ 63) &&
        rest.all fun c => isUpper c || isDigit c || oneOf "-" c

end Validation

section Preferences

/-- `__proto__`. -/
def protoName : CodeUnits :=
  unitsOf "__proto__"

/-- The names a plain object has from `Object.prototype`. -/
def inheritedNames : List CodeUnits :=
  ["constructor", "__defineGetter__", "__defineSetter__", "hasOwnProperty", "__lookupGetter__",
    "__lookupSetter__", "isPrototypeOf", "propertyIsEnumerable", "toString", "valueOf",
    "__proto__", "toLocaleString"].map unitsOf

/-- The value of a property, with `null` for `undefined`. -/
inductive Preference
  | null
  | chosen (trustCaseId : CodeUnits)
  /-- A function of `Object.prototype`, or that object itself. -/
  | inherited (name : CodeUnits)
deriving DecidableEq

/-- `preferences[programId] ?? null`. -/
def readPreference (preferences : List (CodeUnits × CodeUnits)) (programId : CodeUnits) :
    Preference :=
  match preferences.lookup programId with
  | some trustCaseId => .chosen trustCaseId
  | none => if programId ∈ inheritedNames then .inherited programId else .null

/-- `preferences[programId] = trustCaseId`; the setter of `__proto__` ignores a
string. -/
def writePreference (preferences : List (CodeUnits × CodeUnits))
    (programId trustCaseId : CodeUnits) : List (CodeUnits × CodeUnits) :=
  if programId = protoName then preferences else assign programId trustCaseId preferences

def SessionRecord.prefer (record : SessionRecord) (programId trustCaseId : CodeUnits) :
    SessionRecord :=
  { record with
    trustCasePreferences := writePreference record.trustCasePreferences programId trustCaseId }

end Preferences

section Store

structure StoredRecord where
  record : SessionRecord
  lastAccessMs : Int
  createdAtMs : Int

/-- The map of the sessions, in the order of their insertion. -/
abbrev Sessions := List (CodeUnits × StoredRecord)

variable (options : SessionStoreOptions) (sessions : Sessions) (currentMs : Int)

def isIdle (entry : StoredRecord) : Bool :=
  decide (options.idleTimeoutMs > 0) &&
    decide (currentMs - entry.lastAccessMs > options.idleTimeoutMs)

def sweepIdle : Sessions :=
  sessions.filter fun entry => !isIdle options currentMs entry.2

def evictUntilUnderCap (maxSessions : Int) (sessions : Sessions) : Sessions :=
  makeRoom maxSessions sessions

def create (identity : SessionIdentity) (sessionId secret : CodeUnits) :
    Except SessionIdentifierError SessionRecord × Sessions :=
  match validateSessionIdentity identity with
  | .error e => (.error e, sessions)
  | .ok additions =>
      let record : SessionRecord :=
        { sessionId := sessionId
          tenantId := identity.tenantId
          userId := identity.userId
          draftKeyWrappingSecret := secret
          studioRedactionPatternAdditions := additions
          trustCasePreferences := []
          createdAt := currentMs }
      let kept := evictUntilUnderCap options.maxSessions (sweepIdle options sessions currentMs)
      (.ok record, assign sessionId ⟨record, currentMs, currentMs⟩ kept)

/-- `sessions.delete`. -/
def without (sessionId : CodeUnits) : Sessions :=
  sessions.filter fun entry => entry.1 ≠ sessionId

/-- What is written to an entry that is held in the map. -/
def modify (sessionId : CodeUnits) (change : StoredRecord → StoredRecord) : Sessions :=
  sessions.map fun entry => if entry.1 = sessionId then (entry.1, change entry.2) else entry

def get (sessionId : CodeUnits) : Option SessionRecord × Sessions :=
  if sessionId.length = 0 then (none, sessions)
  else
    match sessions.lookup sessionId with
    | none => (none, sessions)
    | some entry =>
        if isIdle options currentMs entry then (none, without sessions sessionId)
        else
          (some entry.record,
            modify sessions sessionId fun entry => { entry with lastAccessMs := currentMs })

def getTrustCasePreference (sessionId programId : CodeUnits) : Preference × Sessions :=
  let found := get options sessions currentMs sessionId
  match found.1 with
  | none => (.null, found.2)
  | some record =>
      if programId.length = 0 then (.null, found.2)
      else (readPreference record.trustCasePreferences programId, found.2)

def setTrustCasePreference (sessionId programId trustCaseId : CodeUnits) :
    Except SessionIdentifierError (Option SessionRecord) × Sessions :=
  let found := get options sessions currentMs sessionId
  match found.1 with
  | none => (.ok none, found.2)
  | some record =>
      if programId.length = 0 ∨ trustCaseId.length = 0 then (.ok none, found.2)
      else if ¬ isTrustCaseId trustCaseId then
        (.error ⟨"trustCaseId must match the trust-case identifier pattern"⟩, found.2)
      else
        -- the record found is the one in the map
        (.ok (some (record.prefer programId trustCaseId)),
          modify found.2 sessionId fun entry =>
            { entry with record := entry.record.prefer programId trustCaseId })

def delete (sessionId : CodeUnits) : Bool × Sessions :=
  if sessionId.length = 0 then (false, sessions)
  else (sessions.any fun entry => entry.1 = sessionId, without sessions sessionId)

end Store

end C2c.Bff.SessionStore
