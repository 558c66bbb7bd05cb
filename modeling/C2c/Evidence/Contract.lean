import C2c.Evidence.Invariants

namespace C2c.Evidence.Contract

open C2c.Library.JavaText
open C2c.Library.Machine
open C2c.Evidence
open C2c.Evidence.FieldErrors
open C2c.Evidence.Artifacts
open C2c.Evidence.Validation
open C2c.Evidence.Manifest
open C2c.Evidence.Store
open C2c.Evidence.Invariants

theorem all_digits_sequenceText (id : UInt64) :
    ∀ c ∈ sequenceText id, isDigitAscii c = true := by
  intro c hc
  rcases List.mem_append.mp hc with hc | hc
  · rw [List.eq_of_mem_replicate hc]
    decide
  · exact isDigitAscii_of_mem_natText hc

theorem digitsValue_sequenceText (id : UInt64) : digitsValue (sequenceText id) = id.toNat := by
  rw [digitsValue_eq_ofDigitChars, sequenceText, Nat.ofDigitChars_append,
    Nat.ofDigitChars_replicate_zero, Nat.mul_zero, ← digitsValue_eq_ofDigitChars, digitsValue_natText]

/-- The digits behind the last hyphen of a pack id. -/
def packNumber (packId : Text) : Nat :=
  digitsValue (packId.reverse.takeWhile isDigitAscii).reverse

theorem packNumber_packIdOf (runId : Text) (id : UInt64) :
    packNumber (packIdOf runId id) = id.toNat := by
  have hreverse : (packIdOf runId id).reverse =
      (sequenceText id).reverse ++ '-' :: ("epk-".toList ++ runId).reverse := by
    simp [packIdOf]
  have hdigits : ∀ c ∈ (sequenceText id).reverse, isDigitAscii c = true := by
    intro c hc
    exact all_digits_sequenceText id c (List.mem_reverse.mp hc)
  rw [packNumber, hreverse, List.takeWhile_append_of_pos hdigits]
  simp [show isDigitAscii '-' = false by decide, digitsValue_sequenceText]

/-- The number of creates among the calls. -/
def creates (calls : List Call) : Nat :=
  calls.countP Call.isCreate

section Numbers

variable {parseUrl : UrlParser} {s : PackStore}

theorem step_seq (parseUrl : UrlParser) (s : PackStore) (call : Call) :
    (step parseUrl s call).seq = s.seq ∨
      call.isCreate = true ∧ (step parseUrl s call).seq = s.seq + 1 := by
  have heffect := step_effect parseUrl s call
  generalize step parseUrl s call = s' at heffect
  cases heffect with
  | rejected hpacks hseq hrejected => exact hseq
  | created hbuilt haccepted => exact .inr ⟨rfl, rfl⟩
  | updated hcurrent haccepted => exact .inl rfl
  | exported hm => exact .inl rfl

theorem toNat_add_one_le (n : UInt64) : (n + 1).toNat ≤ n.toNat + 1 := by
  rw [UInt64.toNat_add]
  exact Nat.mod_le _ _

theorem toNat_add_one {n : UInt64} (h : n.toNat + 1 < 2 ^ 64) : (n + 1).toNat = n.toNat + 1 := by
  rw [UInt64.toNat_add]
  exact Nat.mod_eq_of_lt h

theorem seq_le_creates (parseUrl : UrlParser) (calls : List Call) :
    (run (step parseUrl) newPackStore calls).seq.toNat ≤ creates calls := by
  have hstep : ∀ s call, (step parseUrl s call).seq.toNat ≤
      s.seq.toNat + if call.isCreate then 1 else 0 := by
    intro s call
    rcases step_seq parseUrl s call with hseq | ⟨hcreate, hseq⟩
    · rw [hseq]
      exact Nat.le_add_right _ _
    · rw [hseq, hcreate]
      exact toNat_add_one_le s.seq
  simpa [newPackStore, creates] using
    run_bounded (fun s => s.seq.toNat) Call.isCreate hstep newPackStore calls

/-- The numbers of the stored packs have been given out. -/
def Numbered (s : PackStore) : Prop :=
  ∀ packId m, s.packs packId = some m → packNumber packId ≤ s.seq.toNat

/-- A call that does not wrap the sequence number keeps the numbers given out
and every pack's identity. -/
theorem numbered_step (call : Call) (hs : Numbered s)
    (hwrap : call.isCreate = true → s.seq.toNat + 1 < 2 ^ 64) :
    Numbered (step parseUrl s call) := by
  have heffect := step_effect parseUrl s call
  generalize step parseUrl s call = s' at heffect
  cases heffect with
  | rejected hpacks hseq hrejected =>
      intro packId m hm
      rw [hpacks] at hm
      have hle := hs packId m hm
      rcases hseq with hseq | ⟨hcreate, hseq⟩
      · rwa [hseq]
      · rw [hseq, toNat_add_one (hwrap hcreate)]
        omega
  | created hbuilt haccepted =>
      intro packId m hm
      change packNumber packId ≤ (s.seq + 1).toNat
      rw [put_packs] at hm
      split at hm
      · rename_i hnew
        rw [hnew, packNumber_packIdOf]
      · have hle := hs packId m hm
        rw [toNat_add_one (hwrap rfl)]
        omega
  | updated hcurrent haccepted =>
      intro packId m hm
      rw [put_packs] at hm
      split at hm
      · rename_i hupdated
        rw [hupdated]
        exact hs _ _ hcurrent
      · exact hs packId m hm
  | exported hexported =>
      intro packId m hm
      rw [put_packs] at hm
      split at hm
      · rename_i hrecorded
        rw [hrecorded]
        exact hs _ _ hexported
      · exact hs packId m hm

theorem kept_step {packId : Text} {m : EvidencePackManifest} (call : Call)
    (hs : Numbered s) (hwrap : call.isCreate = true → s.seq.toNat + 1 < 2 ^ 64)
    (hm : s.packs packId = some m) :
    ∃ m', (step parseUrl s call).packs packId = some m' ∧ SameIdentity m m' := by
  have heffect := step_effect parseUrl s call
  generalize step parseUrl s call = s' at heffect
  cases heffect with
  | rejected hpacks hseq hrejected => exact ⟨m, by rw [hpacks, hm], .refl m⟩
  | created hbuilt haccepted =>
      refine ⟨m, ?_, .refl m⟩
      rw [put_packs, if_neg, hm]
      -- a number given out is below the next one
      rintro rfl
      have hle := hs _ m hm
      rw [packNumber_packIdOf, toNat_add_one (hwrap rfl)] at hle
      omega
  | updated hcurrent haccepted =>
      rename_i updatedId patch current
      rw [put_packs]
      split
      · rename_i hupdated
        rw [hupdated, hcurrent] at hm
        obtain rfl := Option.some.inj hm
        exact ⟨_, rfl, (patched_identity current patch).trans ⟨rfl, rfl, rfl, rfl⟩⟩
      · exact ⟨m, hm, .refl m⟩
  | exported hexported =>
      rw [put_packs]
      split
      · rename_i hrecorded
        rw [hrecorded, hexported] at hm
        obtain rfl := Option.some.inj hm
        exact ⟨_, rfl, ⟨rfl, rfl, rfl, rfl⟩⟩
      · exact ⟨m, hm, .refl m⟩

/-- A run with fewer creates than there are sequence numbers. -/
def Unwrapped (calls : List Call) : Prop :=
  creates calls < 2 ^ 64

theorem Unwrapped.of_append {calls later : List Call} (h : Unwrapped (calls ++ later)) :
    Unwrapped calls := by
  unfold Unwrapped creates at h ⊢
  rw [List.countP_append] at h
  omega

theorem seq_of_unwrapped (parseUrl : UrlParser) {calls : List Call} {call : Call}
    (h : Unwrapped (calls ++ [call])) (hcreate : call.isCreate = true) :
    (run (step parseUrl) newPackStore calls).seq.toNat + 1 < 2 ^ 64 := by
  have hle := seq_le_creates parseUrl calls
  unfold Unwrapped creates at h
  rw [List.countP_append, List.countP_singleton, if_pos hcreate] at h
  unfold creates at hle
  omega

theorem numbered_run (parseUrl : UrlParser) {calls : List Call} (h : Unwrapped calls) :
    Numbered (run (step parseUrl) newPackStore calls) := by
  induction calls using List.reverseRecOn with
  | nil => rintro _ _ ⟨⟩
  | append_singleton calls call ih =>
      rw [run_append]
      exact numbered_step call (ih h.of_append) (seq_of_unwrapped parseUrl h)

/-- A stored pack stays, with its identity, through any later calls. -/
theorem kept_run (parseUrl : UrlParser) {calls later : List Call} {packId : Text}
    {m : EvidencePackManifest} (h : Unwrapped (calls ++ later))
    (hm : (run (step parseUrl) newPackStore calls).packs packId = some m) :
    ∃ m', (run (step parseUrl) newPackStore (calls ++ later)).packs packId = some m' ∧
      SameIdentity m m' := by
  induction later using List.reverseRecOn with
  | nil => exact ⟨m, by rwa [List.append_nil], .refl m⟩
  | append_singleton later call ih =>
      rw [← List.append_assoc] at h
      obtain ⟨m', hm', hsame⟩ := ih h.of_append
      obtain ⟨m'', hm'', hsame'⟩ :=
        kept_step call (numbered_run parseUrl h.of_append) (seq_of_unwrapped parseUrl h) hm'
      refine ⟨m'', ?_, hsame.trans hsame'⟩
      rw [← List.append_assoc, run_append]
      exact hm''

theorem create_ok {now : Time} {input : CreateInput} {m : EvidencePackManifest}
    (h : (create parseUrl s now input).2 = .ok m) :
    m.packId = packIdOf input.runId (s.seq + 1) ∧
      (step parseUrl s (.create now input)).packs m.packId = some m := by
  simp only [step, perform]
  unfold create at h ⊢
  split at h
  · contradiction
  · split at h
    · contradiction
    · dsimp only at h ⊢
      split at h
      · contradiction
      · obtain rfl := Except.ok.inj h
        refine ⟨rfl, ?_⟩
        simp [*, put_packs]

/-- Two creates of a run never yield the same id. -/
theorem packId_ne (parseUrl : UrlParser) {calls later : List Call} {now now' : Time}
    {input input' : CreateInput} {m m' : EvidencePackManifest}
    (h : Unwrapped (calls ++ .create now input :: later ++ [.create now' input']))
    (hm : (create parseUrl (run (step parseUrl) newPackStore calls) now input).2 = .ok m)
    (hm' : (create parseUrl (run (step parseUrl) newPackStore (calls ++ .create now input :: later))
      now' input').2 = .ok m') :
    m'.packId ≠ m.packId := by
  intro hsame
  have hstored := (create_ok hm).2
  have hfirst : (run (step parseUrl) newPackStore (calls ++ [.create now input])).packs m.packId =
      some m := by
    rw [run_append]
    exact hstored
  have happend : calls ++ .create now input :: later = calls ++ [.create now input] ++ later := by
    simp
  have hbefore := h.of_append
  rw [happend] at hbefore
  obtain ⟨m'', hm'', -⟩ := kept_run parseUrl hbefore hfirst
  have hle := numbered_run parseUrl hbefore _ _ hm''
  rw [← hsame, (create_ok hm').1, packNumber_packIdOf,
    toNat_add_one (seq_of_unwrapped parseUrl h rfl), happend] at hle
  omega

end Numbers

theorem perform_error {parseUrl : UrlParser} {s : PackStore} {call : Call} {error : StoreError}
    (h : (perform parseUrl s call).2 = .error error) :
    (step parseUrl s call).packs = s.packs ∧
      (call.isCreate = false → step parseUrl s call = s) := by
  cases call with
  | create now input =>
      refine ⟨?_, by rintro ⟨⟩⟩
      simp only [step, perform, create] at h ⊢
      split
      · rfl
      · split
        · rfl
        · split
          · rfl
          · simp_all
  | update packId patch =>
      simp only [step, perform, update] at h ⊢
      split at h
      · simp_all
      · split at h
        · simp_all
        · contradiction
  | recordExport packId record =>
      simp only [step, perform, recordExport] at h ⊢
      split at h
      · simp_all
      · contradiction

/-- What the store promises after any calls. -/
structure StoreContract (parseUrl : UrlParser) (calls : List Call) : Prop where
  consistent : AllConsistent parseUrl (run (step parseUrl) newPackStore calls)
  rejected : ∀ call error,
    (perform parseUrl (run (step parseUrl) newPackStore calls) call).2 = .error error →
      (run (step parseUrl) newPackStore (calls ++ [call])).packs =
        (run (step parseUrl) newPackStore calls).packs ∧
      (call.isCreate = false → run (step parseUrl) newPackStore (calls ++ [call]) =
        run (step parseUrl) newPackStore calls)
  kept : ∀ later packId m, Unwrapped (calls ++ later) →
    (run (step parseUrl) newPackStore calls).packs packId = some m →
      ∃ m', (run (step parseUrl) newPackStore (calls ++ later)).packs packId = some m' ∧
        SameIdentity m m'
  distinct : ∀ now input m later now' input' m',
    Unwrapped (calls ++ .create now input :: later ++ [.create now' input']) →
    (create parseUrl (run (step parseUrl) newPackStore calls) now input).2 = .ok m →
    (create parseUrl (run (step parseUrl) newPackStore (calls ++ .create now input :: later))
      now' input').2 = .ok m' → m'.packId ≠ m.packId

theorem storeContract (parseUrl : UrlParser) (calls : List Call) :
    StoreContract parseUrl calls where
  consistent := allConsistent_run parseUrl calls
  rejected call error herror := by
    rw [run_append]
    exact perform_error herror
  kept later packId m := kept_run parseUrl
  distinct now input m later now' input' m' := packId_ne parseUrl

section Limits

/-- A pack without artifacts that is classified as blocked. -/
def blockedCall : Call :=
  .create 1 { runId := ['r'], blocked := true }

def plainCall : Call :=
  .create 1 { runId := ['r'] }

/-- A create that only fails in the last check: the edits have no overlay. -/
def failingCall : Call :=
  .create 1 { runId := ['r'], manualEditsCarriedOver := true }

theorem perform_failing (parseUrl : UrlParser) (s : PackStore) :
    step parseUrl s failingCall = { s with seq := s.seq + 1 } := by
  have haccepted : ∀ m : EvidencePackManifest, m.manualEditsCarriedOver = true →
      m.manualDriftRegionCount = 0 → rejection parseUrl m false ≠ none := by
    intro m hcarried hcount h
    have hvalid := (firstError_cons_none.mp (firstError_cons_none.mp h).2).1
    have hedits : validateManualEditConsistency m.manualEditsCarriedOver m.manualDriftRegionCount
        m.artifacts.manualEditOverlay = none :=
      firstError_eq_none.mp hvalid _ (by simp)
    have hcheck := firstError_eq_none.mp hedits _ (List.mem_cons_of_mem _ List.mem_cons_self)
    rw [check_eq_none, hcarried, hcount] at hcheck
    contradiction
  simp only [step, failingCall, perform, create]
  rw [if_neg (by decide)]
  dsimp only [readWave]
  split
  · contradiction
  · split
    · rfl
    · rename_i hnone
      exact absurd hnone (haccepted _ rfl rfl)

theorem run_failing (parseUrl : UrlParser) (s : PackStore) (n : Nat) :
    run (step parseUrl) s (List.replicate n failingCall) =
      { s with seq := s.seq + UInt64.ofNat n } := by
  induction n generalizing s with
  | zero => simp
  | succ n ih =>
      rw [List.replicate_succ, run_cons, ih, perform_failing, UInt64.ofNat_add]
      congr 1
      simp only [UInt64.add_assoc]
      congr 1
      exact UInt64.add_comm _ _

/-- What no store can promise: a blocked pack records its own completeness
status, a rejected create uses up a number, and the numbers wrap. -/
theorem contract_limits :
    ((step (fun _ => none) newPackStore blockedCall).packs "epk-r-0001".toList).any
        (fun m => m.validation != recordedValidation m (isBlocked m)) = true ∧
      ((perform (fun _ => none) newPackStore failingCall).2.isOk = false ∧
        step (fun _ => none) newPackStore failingCall ≠ newPackStore) ∧
      (perform (fun _ => none) newPackStore plainCall).2.toOption.map (fun m => m.packId) =
        some "epk-r-0001".toList ∧
      (perform (fun _ => none) (run (step fun _ => none) newPackStore
          (plainCall :: List.replicate (2 ^ 64 - 1) failingCall)) plainCall).2.toOption.map
        (fun m => m.packId) = some "epk-r-0001".toList := by
  refine ⟨by decide +kernel, ⟨by decide +kernel, ?_⟩, by decide +kernel, ?_⟩
  · intro h
    have hseq := congrArg PackStore.seq h
    rw [perform_failing] at hseq
    exact absurd hseq (by decide)
  · rw [run_cons, run_failing]
    decide +kernel

end Limits

end C2c.Evidence.Contract
