import C2c.Studio.DraftStore

/-!
What the store has of the drafts that were saved, whatever two tabs do.
-/

namespace C2c.Studio.DraftRuns

open C2c.Library.Machine
open C2c.Studio.DraftStore

section Encoding

theorem uint32Bytes_injective {m n : Nat} (hm : m < 2 ^ 32) (hn : n < 2 ^ 32)
    (h : uint32Bytes m = uint32Bytes n) : m = n := by
  have hbyte (position : Nat) (heq : UInt8.ofNat (m / 256 ^ position) =
      UInt8.ofNat (n / 256 ^ position)) :
      m / 256 ^ position % 256 = n / 256 ^ position % 256 := by
    have hnat := congrArg UInt8.toNat heq
    rwa [UInt8.toNat_ofNat', UInt8.toNat_ofNat'] at hnat
  simp only [uint32Bytes, List.map_cons, List.map_nil, List.cons.injEq, and_true] at h
  have h3 := hbyte 3 h.1
  have h2 := hbyte 2 h.2.1
  have h1 := hbyte 1 h.2.2.1
  have h0 := hbyte 0 h.2.2.2
  omega

theorem encodeText_injective {s t : BrowserString} (h : encodeText s = encodeText t) : s = t := by
  apply Subtype.ext
  apply String.toByteArray_inj.mp
  exact ByteArray.ext (Array.toList_inj.mp h)

/-- A length-prefixed field can be told from what follows it. -/
theorem field_append_inj {s t : BrowserString} {rest rest' : List UInt8}
    (h : uint32Bytes (encodeText s).length ++ encodeText s ++ rest =
      uint32Bytes (encodeText t).length ++ encodeText t ++ rest') : s = t ∧ rest = rest' := by
  rw [List.append_assoc, List.append_assoc] at h
  obtain ⟨hlength, htail⟩ := List.append_inj h (by simp [uint32Bytes])
  have hlength := uint32Bytes_injective s.property t.property hlength
  obtain ⟨htext, hrest⟩ := List.append_inj htail hlength
  exact ⟨encodeText_injective htext, hrest⟩

theorem encodeLengthPrefixedFields_injective {fields fields' : List BrowserString}
    (h : encodeLengthPrefixedFields fields = encodeLengthPrefixedFields fields')
    (hlength : fields.length = fields'.length) : fields = fields' := by
  induction fields generalizing fields' with
  | nil => exact (List.length_eq_zero_iff.mp hlength.symm).symm
  | cons s fields ih =>
      cases fields' with
      | nil => cases hlength
      | cons t fields' =>
          obtain ⟨rfl, hrest⟩ := field_append_inj h
          rw [ih hrest (Nat.succ.inj hlength)]

variable {c : Crypto}

/-- The selector of a record is that of one session only. -/
theorem deriveRecordSelector_bootstrap {bootstrap bootstrap' : SessionBootstrap}
    {key key' : DraftKey}
    (h : deriveRecordSelector c bootstrap key = deriveRecordSelector c bootstrap' key') :
    bootstrap = bootstrap' := by
  obtain ⟨hsecret, hmessage⟩ := c.hmac_injective _ _ _ _ h
  have hfields := encodeLengthPrefixedFields_injective hmessage rfl
  simp only [draftKeySelectorFields, List.cons.injEq, true_and] at hfields
  obtain ⟨tenantId, userId, secret⟩ := bootstrap
  obtain ⟨tenantId', userId', secret'⟩ := bootstrap'
  cases hfields.1
  cases hfields.2.1
  cases hsecret
  rfl

end Encoding

section Property

variable {c : Crypto}

/-- The stored draft of every selector is the one last saved for it, unless it was
cleared or had expired since. -/
def Faithful (s : Drafts c) : Prop :=
  ∀ key, (s.store key).map DraftRecord.toDraft = s.written key

/-- A load that puts its record back does so while the store still has the draft
it got. -/
def TouchesInTime (s : Drafts c) : Action c → Prop
  | .proceed thread _ => ∀ record, s.pending[thread]? = some (.touching record) →
      (s.store record.key).map DraftRecord.toDraft = some record.toDraft
  | _ => True

/-- A draft that `saveDraft` has made. -/
def Saved (draft : Draft c) : Prop :=
  ∃ bootstrap key payload iv now,
    draft = (draftRecord c 0 bootstrap key payload iv now).toDraft

def PendingKept : Pending c → Prop
  | .saving record | .touching record => Saved record.toDraft
  | .loaded bootstrap record => Saved record.toDraft ∧
      ∃ key, record.key = deriveRecordSelector c bootstrap key
  | .deleting _ => False

/-- Every record was saved, stands under its selector, and a load has got one of
its own session. -/
structure Kept (s : Drafts c) : Prop where
  stored : ∀ key, ∀ record ∈ s.store key, record.key = key ∧ Saved record.toDraft
  pending : ∀ p ∈ s.pending, PendingKept p

/-- So a load never deletes what it got, and puts back the same draft. -/
theorem afterGet_cases {ttlMs now : Int} {bootstrap : SessionBootstrap} {record : DraftRecord c}
    (h : PendingKept (.loaded bootstrap record)) : afterGet ttlMs bootstrap record now = none ∨
      ∃ touched, afterGet ttlMs bootstrap record now = some (.touching touched) ∧
        touched.toDraft = record.toDraft := by
  obtain ⟨⟨bootstrap', key', payload, iv, saved, hdraft⟩, key, hkey⟩ := h
  obtain ⟨draft, expiry⟩ := record
  cases hdraft
  obtain rfl := deriveRecordSelector_bootstrap hkey
  have hdecrypt : decryptPayload c bootstrap'
      ⟨(draftRecord c 0 bootstrap' key' payload iv saved).toDraft, expiry⟩ ≠ none := by
    have hopens := c.decrypt_encrypt (c.deriveAesKey bootstrap') iv
      (deriveAad c (deriveRecordSelector c bootstrap' key') (deriveScopeSelector c bootstrap'))
      (encryptedPayload key' payload)
    exact fun hnone => nomatch hopens.symm.trans hnone
  unfold afterGet
  split
  · rename_i hother
    rcases hother with hversion | hscope
    · exact absurd rfl hversion
    · exact absurd rfl hscope
  · split
    · rename_i hnone
      exact absurd hnone hdecrypt
    · dsimp only
      split
      · exact .inr ⟨_, rfl, rfl⟩
      · exact .inl rfl

end Property

section Steps

variable {c : Crypto}

theorem kept_init : Kept (c := c) {} :=
  ⟨nofun, nofun⟩

theorem kept_put {store : c.Selector → Option (DraftRecord c)} {record : DraftRecord c}
    (h : ∀ key, ∀ record ∈ store key, record.key = key ∧ Saved record.toDraft)
    (hrecord : Saved record.toDraft) (key : c.Selector) :
    ∀ stored ∈ put store record key, stored.key = key ∧ Saved stored.toDraft := by
  intro stored hstored
  rw [put, Function.update_apply] at hstored
  split at hstored
  · rename_i hkey
    cases hstored
    exact ⟨hkey.symm, hrecord⟩
  · exact h key stored hstored

theorem kept_proceed {ttlMs : Int} {s : Drafts c} (h : Kept s) (thread : Nat) (now : Int) :
    Kept (proceed ttlMs s thread now) := by
  unfold proceed
  split
  · exact h
  · rename_i p hp
    have hpending := h.pending p (List.mem_of_getElem? hp)
    have herase (q : Pending c) (hq : q ∈ s.pending.eraseIdx thread) :=
      h.pending q (List.mem_of_mem_eraseIdx hq)
    cases p with
    | saving record => exact ⟨kept_put h.stored hpending, herase⟩
    | touching record => exact ⟨kept_put h.stored hpending, herase⟩
    | deleting key => exact hpending.elim
    | loaded bootstrap record =>
        rw [proceedWith]
        rcases @afterGet_cases c ttlMs now bootstrap record hpending with
          heq | ⟨touched, heq, hdraft⟩
        · rw [heq]
          exact ⟨h.stored, herase⟩
        · rw [heq]
          refine ⟨h.stored, fun q hq => ?_⟩
          rcases List.mem_or_eq_of_mem_set hq with hold | rfl
          · exact h.pending q hold
          · show Saved touched.toDraft
            exact hdraft ▸ hpending.1

theorem kept_drop {s : Drafts c} (h : Kept s) (dropped : DraftRecord c → Bool)
    (written : c.Selector → Option (Draft c)) :
    Kept { drop s dropped with written := written } := by
  refine ⟨fun key record hrecord => ?_, h.pending⟩
  exact h.stored key record (Option.mem_filter_iff.mp hrecord).1

theorem kept_step {ttlMs : Int} {s : Drafts c} (h : Kept s) (action : Action c) :
    Kept (step ttlMs s action) := by
  have happend {p : Pending c} (hp : PendingKept p) : Kept { s with pending := s.pending ++ [p] } := by
    refine ⟨h.stored, fun q hq => ?_⟩
    rcases List.mem_append.mp hq with hold | hnew
    · exact h.pending q hold
    · exact (List.mem_singleton.mp hnew) ▸ hp
  cases action with
  | saveDraft bootstrap scope key payload iv now =>
      show Kept (saveDraft ttlMs s bootstrap scope key payload iv now)
      unfold saveDraft
      split
      · exact h
      · split
        · exact h
        · exact happend ⟨bootstrap, key, payload, iv, now, rfl⟩
  | loadDraft bootstrap scope key =>
      show Kept (loadDraft s bootstrap scope key)
      unfold loadDraft
      split
      · exact h
      · split
        · exact h
        · rename_i record hrecord
          obtain ⟨hkey, hsaved⟩ := h.stored _ record hrecord
          exact happend ⟨hsaved, key, hkey⟩
  | proceed thread now => exact kept_proceed h thread now
  | abandon thread =>
      exact ⟨h.stored, fun q hq => h.pending q (List.mem_of_mem_eraseIdx hq)⟩
  | purgeExpired bootstrap scope now =>
      show Kept (purgeExpired s bootstrap scope now)
      unfold purgeExpired
      split
      · exact h
      · exact kept_drop h _ _
  | clearAll bootstrap scope =>
      show Kept (clearAll s bootstrap scope)
      unfold clearAll
      split
      · exact h
      · exact kept_drop h _ _

theorem faithful_drop {s : Drafts c} (h : Faithful s) (dropped : DraftRecord c → Bool) :
    Faithful (drop s dropped) := by
  intro key
  have hkey := h key
  show ((s.store key).filter _).map _ = if (s.store key).any dropped then none else s.written key
  rw [← hkey]
  cases s.store key with
  | none => rfl
  | some record =>
      rw [Option.filter_some, Option.any_some]
      cases dropped record with
      | true => rfl
      | false => rfl

theorem faithful_purgeExpired {s : Drafts c} (h : Faithful s) (bootstrap : SessionBootstrap)
    (scope : DraftScope) (now : Int) : Faithful (purgeExpired s bootstrap scope now) := by
  unfold purgeExpired
  split
  · exact h
  · exact faithful_drop h _

theorem faithful_clearAll {s : Drafts c} (h : Faithful s) (bootstrap : SessionBootstrap)
    (scope : DraftScope) : Faithful (clearAll s bootstrap scope) := by
  unfold clearAll
  split
  · exact h
  · intro key
    have hkey := h key
    show ((s.store key).filter _).map _ = (s.written key).filter _
    rw [← hkey]
    cases s.store key with
    | none => rfl
    | some record =>
        rw [Option.map_some, Option.filter_some, Option.filter_some]
        by_cases hscope : record.scopeSelector = deriveScopeSelector c bootstrap
        · simp [hscope]
        · simp [hscope]

/-- Only a load that puts its record back can part the store from the drafts that
were saved. -/
theorem faithful_proceed_iff {ttlMs : Int} {s : Drafts c} (hkept : Kept s) (h : Faithful s)
    (thread : Nat) (now : Int) :
    Faithful (proceed ttlMs s thread now) ↔ TouchesInTime s (.proceed thread now) := by
  unfold proceed
  cases hp : s.pending[thread]? with
  | none => exact iff_of_true h fun record hrecord => by cases hp.symm.trans hrecord
  | some p =>
      have hother (hp' : ∀ record, p ≠ .touching record) : TouchesInTime s (.proceed thread now) :=
        fun record hrecord => absurd (Option.some.inj (hp.symm.trans hrecord)) (hp' record)
      cases p with
      | saving record =>
          refine iff_of_true (fun key => ?_) (hother nofun)
          show (Function.update s.store record.key _ key).map _ =
            Function.update s.written record.key _ key
          rw [Function.update_apply, Function.update_apply]
          split
          · rfl
          · exact h key
      | loaded bootstrap record =>
          refine iff_of_true ?_ (hother nofun)
          show Faithful (proceedWith ttlMs s thread now (.loaded bootstrap record))
          rw [proceedWith]
          split
          · exact h
          · exact h
      | deleting key => exact (hkept.pending _ (List.mem_of_getElem? hp)).elim
      | touching record =>
          have hstore (key : c.Selector) : put s.store record key =
              if key = record.key then some record else s.store key := Function.update_apply ..
          constructor
          · intro hafter record' hrecord
            cases hp.symm.trans hrecord
            have hkey : (put s.store record record.key).map DraftRecord.toDraft =
                s.written record.key := hafter record.key
            rw [h record.key, ← hkey, hstore, if_pos rfl]
            rfl
          · intro htime key
            show (put s.store record key).map _ = s.written key
            rw [hstore]
            split
            · rename_i hkey
              subst hkey
              rw [← h record.key, htime record hp]
              rfl
            · exact h key

theorem faithful_step_iff {ttlMs : Int} {s : Drafts c} (hkept : Kept s) (h : Faithful s)
    (action : Action c) : Faithful (step ttlMs s action) ↔ TouchesInTime s action := by
  cases action with
  | saveDraft bootstrap scope key payload iv now =>
      refine iff_of_true ?_ trivial
      show Faithful (saveDraft ttlMs s bootstrap scope key payload iv now)
      unfold saveDraft
      split
      · exact h
      · split
        · exact h
        · exact h
  | loadDraft bootstrap scope key =>
      refine iff_of_true ?_ trivial
      show Faithful (loadDraft s bootstrap scope key)
      unfold loadDraft
      split
      · exact h
      · split
        · exact h
        · exact h
  | proceed thread now => exact faithful_proceed_iff hkept h thread now
  | abandon thread => exact iff_of_true h trivial
  | purgeExpired bootstrap scope now =>
      exact iff_of_true (faithful_purgeExpired h bootstrap scope now) trivial
  | clearAll bootstrap scope => exact iff_of_true (faithful_clearAll h bootstrap scope) trivial

/-- All along a run of the operations of any tabs, the store has the drafts last
saved, and no others, exactly if every load that puts its record back finds the
draft it got. -/
theorem drafts_faithful_iff (c : Crypto) (ttlMs : Int) (actions : List (Action c)) :
    (∀ n, Faithful (run (step ttlMs) {} (actions.take n))) ↔
      Along (step ttlMs) TouchesInTime {} actions := by
  let Holds (s : Drafts c) : Prop := Kept s ∧ Faithful s
  have hinit : Holds {} := ⟨kept_init, fun _ => rfl⟩
  have hstep (s : Drafts c) (action : Action c) (h : Holds s) :
      Holds (step ttlMs s action) ↔ TouchesInTime s action :=
    (and_iff_right (kept_step h.1 action)).trans (faithful_step_iff h.1 h.2 action)
  have hkept (n : Nat) : Kept (run (step ttlMs) {} (actions.take n)) := by
    have hkeeps (s : Drafts c) (action : Action c) (h : Kept s) : Kept (step ttlMs s action) :=
      kept_step h action
    exact run_invariant hkeeps kept_init (actions.take n)
  rw [← run_invariant_iff hstep hinit actions]
  exact forall_congr' fun n => (and_iff_right (hkept n)).symm

section Sample

abbrev Selectors : Type :=
  List UInt8 × List UInt8

structure SealedText where
  key : SessionBootstrap
  iv : Nat
  aad : Nat × Selectors × Selectors
  payload : DraftPayload

def openSealed (key : SessionBootstrap) (iv : Nat) (aad : Nat × Selectors × Selectors)
    (sealedText : SealedText) : Option DraftPayload :=
  if key = sealedText.key ∧ iv = sealedText.iv ∧ aad = sealedText.aad then some sealedText.payload
  else none

/-- Cryptography that keeps all it is given. -/
def transparent : Crypto where
  Selector := Selectors
  decEqSelector := inferInstance
  Cipher := SealedText
  Key := SessionBootstrap
  Iv := Nat
  hmac := Prod.mk
  hmac_injective := fun _ _ _ _ h => ⟨congrArg Prod.fst h, congrArg Prod.snd h⟩
  deriveAesKey := id
  encrypt := SealedText.mk
  decrypt := openSealed
  decrypt_encrypt := fun _ _ _ _ => if_pos ⟨rfl, rfl, rfl⟩

def tenant : BrowserString :=
  browserString "t" (by decide)

def user : BrowserString :=
  browserString "u" (by decide)

def session : SessionBootstrap :=
  ⟨tenant, user, [1]⟩

def draftKey : DraftKey :=
  .cobol (browserString "P" (by decide)) (browserString "s" (by decide))

def payloadOf (content : String) : DraftPayload where
  kind := .cobol
  content := content
  bufferHash := ""
  savedAt := ""

def ivOf (n : Nat) : transparent.Iv :=
  n

/-- One tab opens a draft that nears its expiry; before it puts the record back,
the other tab saves a newer draft. -/
def lateTouch : List (Action transparent) :=
  [.saveDraft session ⟨tenant, user⟩ draftKey (payloadOf "old") (ivOf 0) 0, .proceed 0 0,
    .loadDraft session ⟨tenant, user⟩ draftKey, .proceed 0 6,
    .saveDraft session ⟨tenant, user⟩ draftKey (payloadOf "new") (ivOf 1) 7, .proceed 1 7, .proceed 0 8]

theorem late_touch_overwrites_draft :
    ¬ ∀ (c : Crypto) (ttlMs : Int) (actions : List (Action c)),
      Faithful (run (step ttlMs) {} actions) := by
  intro hall
  have hkey := hall transparent 10 lateTouch (deriveRecordSelector transparent session draftKey)
  have hsaved := congrArg (Option.map Draft.savedAtMs) hkey
  revert hsaved
  decide +kernel

end Sample

end Steps

end C2c.Studio.DraftRuns
