import Mathlib.Algebra.Group.Nat.Defs
import Mathlib.Logic.Function.Basic
import C2c.Library.Machine

/-!
The encrypted drafts of the editor in the store that all tabs of a browser
share.
-/

namespace C2c.Studio.DraftStore

open C2c.Library.Machine

section Selectors

/-- A string whose encoding has a length of 32 bits, as all strings of a browser
have. -/
abbrev BrowserString :=
  { s : String // s.toByteArray.data.toList.length < 2 ^ 32 }

/-- `TextEncoder.encode`. -/
def encodeText (s : BrowserString) : List UInt8 :=
  s.val.toByteArray.data.toList

/-- `setUint32`, big-endian. -/
def uint32Bytes (n : Nat) : List UInt8 :=
  [3, 2, 1, 0].map fun position => UInt8.ofNat (n / 256 ^ position)

/-- `encodeLengthPrefixedFields`, of the domain and the fields. -/
def encodeLengthPrefixedFields (fields : List BrowserString) : List UInt8 :=
  fields.flatMap fun field => uint32Bytes (encodeText field).length ++ encodeText field

structure SessionBootstrap where
  tenantId : BrowserString
  userId : BrowserString
  draftKeyWrappingSecret : List UInt8
deriving DecidableEq

structure DraftScope where
  tenantId : BrowserString
  userId : BrowserString
deriving DecidableEq

inductive DraftKey
  | cobol (programId sourceName : BrowserString)
  | java (programId sourceName javaFilePath : BrowserString)
deriving DecidableEq

inductive DraftKind
  | cobol
  | java
deriving DecidableEq

namespace DraftKey

def kind : DraftKey → DraftKind
  | cobol .. => .cobol
  | java .. => .java

def programId : DraftKey → BrowserString
  | cobol programId _ | java programId _ _ => programId

def sourceName : DraftKey → BrowserString
  | cobol _ sourceName | java _ sourceName _ => sourceName

end DraftKey

def browserString (s : String) (h : s.toByteArray.data.toList.length < 2 ^ 32) : BrowserString :=
  ⟨s, h⟩

/-- `draftKeySelectorFields`. -/
def draftKeySelectorFields (bootstrap : SessionBootstrap) (key : DraftKey) : List BrowserString :=
  [bootstrap.tenantId, bootstrap.userId,
    match key with
    | .cobol .. => browserString "cobol" (by decide)
    | .java .. => browserString "java" (by decide),
    key.programId, key.sourceName,
    match key with
    | .cobol .. => browserString "." (by decide)
    | .java _ _ javaFilePath => javaFilePath]

end Selectors

section Records

structure DraftPayload where
  kind : DraftKind
  content : String
  bufferHash : String
  programId : Option BrowserString := none
  sourceName : Option BrowserString := none
  javaFilePath : Option BrowserString := none
  savedAt : String
deriving DecidableEq

def recordSchemaVersion : String :=
  "v3"

def recordSchemaVersionByte : Nat :=
  3

/-- The cryptography of the browser, behaving ideally: the HMAC tells keys and
messages apart, and what is sealed opens again under the same key, initial
vector and additional data. A payload stands for its JSON text. -/
structure Crypto where
  Selector : Type
  decEqSelector : DecidableEq Selector
  Cipher : Type
  Key : Type
  Iv : Type
  hmac : List UInt8 → List UInt8 → Selector
  hmac_injective : ∀ key message key' message',
    hmac key message = hmac key' message' → key = key' ∧ message = message'
  deriveAesKey : SessionBootstrap → Key
  encrypt : Key → Iv → Nat × Selector × Selector → DraftPayload → Cipher
  decrypt : Key → Iv → Nat × Selector × Selector → Cipher → Option DraftPayload
  decrypt_encrypt : ∀ key iv aad payload, decrypt key iv aad (encrypt key iv aad payload) = some payload

instance (c : Crypto) : DecidableEq c.Selector :=
  c.decEqSelector

variable (c : Crypto)

def hmacSelector (bootstrap : SessionBootstrap) (domain : BrowserString)
    (fields : List BrowserString) : c.Selector :=
  c.hmac bootstrap.draftKeyWrappingSecret (encodeLengthPrefixedFields (domain :: fields))

def deriveRecordSelector (bootstrap : SessionBootstrap) (key : DraftKey) : c.Selector :=
  hmacSelector c bootstrap (browserString "c2c-studio-draft-record-v1" (by decide))
    (draftKeySelectorFields bootstrap key)

def deriveScopeSelector (bootstrap : SessionBootstrap) : c.Selector :=
  hmacSelector c bootstrap (browserString "c2c-studio-draft-scope-v1" (by decide))
    [bootstrap.tenantId, bootstrap.userId]

/-- `deriveAad`: the parts that are bound to a ciphertext. -/
def deriveAad (recordKey scopeSelector : c.Selector) : Nat × c.Selector × c.Selector :=
  (recordSchemaVersionByte, recordKey, scopeSelector)

/-- A `DraftRecord` but for its expiry. -/
structure Draft where
  key : c.Selector
  scopeSelector : c.Selector
  ciphertext : c.Cipher
  iv : c.Iv
  recordSchemaVersion : String
  savedAtMs : Int

structure DraftRecord extends Draft c where
  ttlExpiresAtMs : Int

/-- The payload `saveDraft` encrypts. -/
def encryptedPayload (key : DraftKey) (payload : DraftPayload) : DraftPayload :=
  { payload with
    programId := some key.programId
    sourceName := some key.sourceName
    javaFilePath := match key with
      | .cobol .. => payload.javaFilePath
      | .java _ _ javaFilePath => some javaFilePath }

/-- The record `saveDraft` puts. -/
def draftRecord (ttlMs : Int) (bootstrap : SessionBootstrap) (key : DraftKey)
    (payload : DraftPayload) (iv : c.Iv) (now : Int) : DraftRecord c :=
  let recordKey := deriveRecordSelector c bootstrap key
  let scopeSelector := deriveScopeSelector c bootstrap
  { key := recordKey
    scopeSelector := scopeSelector
    ciphertext := c.encrypt (c.deriveAesKey bootstrap) iv (deriveAad c recordKey scopeSelector)
      (encryptedPayload key payload)
    iv := iv
    recordSchemaVersion := recordSchemaVersion
    savedAtMs := now
    ttlExpiresAtMs := now + ttlMs }

/-- `decryptPayload`. -/
def decryptPayload (bootstrap : SessionBootstrap) (record : DraftRecord c) : Option DraftPayload :=
  c.decrypt (c.deriveAesKey bootstrap) record.iv (deriveAad c record.key record.scopeSelector)
    record.ciphertext

end Records

section Operations

variable (c : Crypto)

/-- An operation between two of its transactions. -/
inductive Pending
  | saving (record : DraftRecord c)
  | loaded (bootstrap : SessionBootstrap) (record : DraftRecord c)
  | touching (record : DraftRecord c)
  | deleting (key : c.Selector)

/-- The store; `written` has, for each selector, the draft of the last save that
was committed, unless it was cleared or had expired since. -/
structure Drafts where
  store : c.Selector → Option (DraftRecord c) := fun _ => none
  pending : List (Pending c) := []
  written : c.Selector → Option (Draft c) := fun _ => none

/-- The transactions of the operations, and the way from one to the next. -/
inductive Action
  | saveDraft (bootstrap : SessionBootstrap) (scope : DraftScope) (key : DraftKey)
      (payload : DraftPayload) (iv : c.Iv) (now : Int)
  | loadDraft (bootstrap : SessionBootstrap) (scope : DraftScope) (key : DraftKey)
  | proceed (thread : Nat) (now : Int)
  | abandon (thread : Nat)
  | purgeExpired (bootstrap : SessionBootstrap) (scope : DraftScope) (now : Int)
  | clearAll (bootstrap : SessionBootstrap) (scope : DraftScope)

variable {c}

/-- The check of `bootstrapFor`. -/
def matchesScope (bootstrap : SessionBootstrap) (scope : DraftScope) : Bool :=
  bootstrap.tenantId == scope.tenantId && bootstrap.userId == scope.userId

/-- `saveDraft` up to its put. -/
def saveDraft (ttlMs : Int) (s : Drafts c) (bootstrap : SessionBootstrap) (scope : DraftScope)
    (key : DraftKey) (payload : DraftPayload) (iv : c.Iv) (now : Int) : Drafts c :=
  if payload.kind ≠ key.kind then s
  else if !matchesScope bootstrap scope then s
  else { s with
    pending := s.pending ++ [.saving (draftRecord c ttlMs bootstrap key payload iv now)] }

/-- `loadDraft` up to its get, which another session may have left nothing to
find for. -/
def loadDraft (s : Drafts c) (bootstrap : SessionBootstrap) (scope : DraftScope)
    (key : DraftKey) : Drafts c :=
  if !matchesScope bootstrap scope then s
  else
    match s.store (deriveRecordSelector c bootstrap key) with
    | none => s
    | some record => { s with pending := s.pending ++ [.loaded bootstrap record] }

def ttlTouchWindowMs : Int :=
  24 * 60 * 60 * 1000

/-- What `loadDraft` does with the record it got: a transaction that is still to
come, or none. -/
def afterGet (ttlMs : Int) (bootstrap : SessionBootstrap) (record : DraftRecord c) (now : Int) :
    Option (Pending c) :=
  if record.recordSchemaVersion ≠ recordSchemaVersion ∨
      record.scopeSelector ≠ deriveScopeSelector c bootstrap then some (.deleting record.key)
  else if decryptPayload c bootstrap record = none then some (.deleting record.key)
  else
    let msUntilExpiry := record.ttlExpiresAtMs - now
    if now < record.ttlExpiresAtMs ∧ 2 * msUntilExpiry ≤ ttlMs ∧ msUntilExpiry ≤ ttlTouchWindowMs then
      some (.touching { record with ttlExpiresAtMs := now + ttlMs })
    else none

def put (store : c.Selector → Option (DraftRecord c)) (record : DraftRecord c) :
    c.Selector → Option (DraftRecord c) :=
  Function.update store record.key (some record)

/-- The next step of an operation. -/
def proceedWith (ttlMs : Int) (s : Drafts c) (thread : Nat) (now : Int) : Pending c → Drafts c
  | .saving record =>
      { s with
        store := put s.store record
        pending := s.pending.eraseIdx thread
        written := Function.update s.written record.key (some record.toDraft) }
  | .loaded bootstrap record =>
      match afterGet ttlMs bootstrap record now with
      | some next => { s with pending := s.pending.set thread next }
      | none => { s with pending := s.pending.eraseIdx thread }
  | .touching record =>
      { s with store := put s.store record, pending := s.pending.eraseIdx thread }
  | .deleting key =>
      { s with
        store := Function.update s.store key none
        pending := s.pending.eraseIdx thread }

def proceed (ttlMs : Int) (s : Drafts c) (thread : Nat) (now : Int) : Drafts c :=
  match s.pending[thread]? with
  | none => s
  | some p => proceedWith ttlMs s thread now p

/-- The records of a scope that are dropped, by their expiry or all of them. -/
def drop (s : Drafts c) (dropped : DraftRecord c → Bool) : Drafts c :=
  { s with
    store := fun key => (s.store key).filter fun record => !dropped record
    written := fun key => if (s.store key).any dropped then none else s.written key }

/-- `purgeExpired`. -/
def purgeExpired (s : Drafts c) (bootstrap : SessionBootstrap) (scope : DraftScope) (now : Int) :
    Drafts c :=
  if !matchesScope bootstrap scope then s
  else drop s fun record =>
    record.scopeSelector == deriveScopeSelector c bootstrap && record.ttlExpiresAtMs ≤ now

/-- `clearAll`; also of the drafts that should be there. -/
def clearAll (s : Drafts c) (bootstrap : SessionBootstrap) (scope : DraftScope) : Drafts c :=
  if !matchesScope bootstrap scope then s
  else
    { drop s fun record => record.scopeSelector == deriveScopeSelector c bootstrap with
      written := fun key => (s.written key).filter fun draft =>
        draft.scopeSelector != deriveScopeSelector c bootstrap }

def step (ttlMs : Int) (s : Drafts c) : Action c → Drafts c
  | .saveDraft bootstrap scope key payload iv now => saveDraft ttlMs s bootstrap scope key payload iv now
  | .loadDraft bootstrap scope key => loadDraft s bootstrap scope key
  | .proceed thread now => proceed ttlMs s thread now
  | .abandon thread => { s with pending := s.pending.eraseIdx thread }
  | .purgeExpired bootstrap scope now => purgeExpired s bootstrap scope now
  | .clearAll bootstrap scope => clearAll s bootstrap scope

end Operations

end C2c.Studio.DraftStore
