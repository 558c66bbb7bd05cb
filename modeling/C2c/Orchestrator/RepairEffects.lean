import C2c.Orchestrator.ManualRepair
import C2c.Orchestrator.ProposalAgreement

namespace C2c.Orchestrator.RepairEffects

open C2c.Library.JavaText
open C2c.Library.PythonText
open C2c.Library.Sha256
open C2c.Library.Raising
open C2c.Orchestrator.RunContract
open C2c.Orchestrator.JavaProject
open C2c.Orchestrator.ManualRepair
open C2c.Orchestrator.ProposalAgreement

section Loading

/-- What the files of a manifest are when all of them are stored. -/
theorem collectFiles_eq_ok (stored : FileMap) (files : List (Text × Text))
    {entry : Text × Text → ManifestFile} (hentry : ∀ file, (entry file).path = file.1)
    (hstored : ∀ path content : Text, (path, content) ∈ files → stored[path]? = some content) :
    ∃ collected, collectFiles stored (files.map entry) = .ok collected ∧
      ∀ path content : Text, collected[path]? = some content ↔ (path, content) ∈ files := by
  induction files with
  | nil => exact ⟨∅, rfl, by simp⟩
  | cons file files ih =>
      obtain ⟨collected, hcollected, hlookup⟩ :=
        ih fun path content hmem => hstored path content (List.mem_cons_of_mem _ hmem)
      have hfile : stored[file.1]? = some file.2 := hstored _ _ List.mem_cons_self
      refine ⟨collected.insert file.1 file.2, ?_, ?_⟩
      · simp only [List.map_cons, collectFiles, hentry, hfile, hcollected]
        rfl
      · intro path content
        rw [Std.ExtTreeMap.getElem?_insert, List.mem_cons]
        by_cases hpath : path = file.1
        · subst hpath
          simp only [Std.compare_self, if_true, Option.some.injEq]
          constructor
          · rintro rfl
            exact .inl rfl
          · rintro (heq | hmem)
            · rw [← heq]
            · exact Option.some.inj (hfile.symm.trans (hstored _ _ (List.mem_cons_of_mem _ hmem)))
        · have hne : compare file.1 path ≠ .eq := by
            simpa using Ne.symm hpath
          rw [if_neg hne, hlookup]
          constructor
          · exact .inr
          · rintro (heq | hmem)
            · exact absurd (congrArg Prod.fst heq) hpath
            · exact hmem

/-- A project that is stored whole loads as it was. -/
theorem load_of_stored {slot : ProjectSlot} {files : FileMap} {entryClass entryFilePath : Text}
    (hmanifest : slot.manifest = some (manifestOf files entryClass entryFilePath))
    (hstored : ∀ path content : Text, files[path]? = some content →
      slot.files[path]? = some content) :
    loadManualCompileProject slot = .ok (manifestOf files entryClass entryFilePath, files) := by
  obtain ⟨collected, hcollected, hlookup⟩ :=
    collectFiles_eq_ok slot.files files.toList
      (show ∀ file : Text × Text,
        (ManifestFile.mk file.1 (sha256Hex file.2) (byteLength file.2)).path = file.1 from
          fun _ => rfl)
      fun path content hmem =>
        hstored path content (Std.ExtTreeMap.mem_toList_iff_getElem?_eq_some.mp hmem)
  have hsame : collected = files := by
    refine Std.ExtTreeMap.ext_getElem? fun path => Option.ext fun content => ?_
    rw [hlookup, Std.ExtTreeMap.mem_toList_iff_getElem?_eq_some]
  rw [hsame] at hcollected
  unfold loadManualCompileProject
  rw [hmanifest]
  simp only [manifestOf, hcollected]
  rfl

end Loading

section Writes

variable {env : Env} {s : RunStore}

/-- The store one tick later. -/
def ticked (s : RunStore) : RunStore :=
  { s with ticks := s.ticks + 1 }

theorem after_write {change : RunStore → RunStore} {post : PUnit → RunStore → Prop}
    {raised : RepairError → RunStore → Prop}
    (hnone : env.fault s.ticks = .none → post ⟨⟩ (change (ticked s)))
    (hbefore : env.fault s.ticks = .before → raised .store (ticked s))
    (hafter : env.fault s.ticks = .after → raised .store (change (ticked s))) :
    After (write env change) post raised s := by
  unfold write
  rw [after_bind, after_get]
  cases hfault : env.fault s.ticks with
  | none => exact hnone hfault
  | before => exact hbefore hfault
  | after => exact hafter hfault

/-- A store write failed between two states. -/
def Disturbed (env : Env) (s s' : RunStore) : Prop :=
  ∃ tick, s.ticks ≤ tick ∧ tick < s'.ticks ∧ env.fault tick ≠ .none

/-- A diagnosis or an apply of the files raises with the bytes of the proposal's
record in place. -/
def HalfRecorded (env : Env) (s : RunStore) (files : FileMap) : Prop :=
  env.fault (s.ticks + files.size + 3) = .after

theorem Disturbed.since {s' s'' : RunStore} (h : Disturbed env s' s'')
    (hticks : s.ticks ≤ s'.ticks) : Disturbed env s s'' := by
  obtain ⟨tick, hle, hlt, hfault⟩ := h
  exact ⟨tick, Nat.le_trans hticks hle, hlt, hfault⟩

theorem disturbed_now {s' : RunStore} (hticks : s'.ticks = s.ticks + 1)
    (hfault : env.fault s.ticks ≠ .none) : Disturbed env s s' :=
  ⟨s.ticks, Nat.le_refl _, by omega, hfault⟩

/-- The store with another project in one slot and a later tick. -/
def replaced (s : RunStore) (name : SlotName) (slot : ProjectSlot) (ticks : Nat) : RunStore :=
  { s.setSlot name slot with ticks := ticks }

theorem slot_replaced (name : SlotName) (slot : ProjectSlot) (ticks : Nat) :
    (replaced s name slot ticks).slot name = slot := by
  cases name <;> rfl

theorem replaced_replaced (name : SlotName) (slot slot' : ProjectSlot) (ticks ticks' : Nat) :
    replaced (replaced s name slot ticks) name slot' ticks' = replaced s name slot' ticks' := by
  cases name <;> rfl

theorem putFile_ticked (name : SlotName) (path content : Text) :
    putFile name path content (ticked s) =
      replaced s name { s.slot name with files := (s.slot name).files.insert path content }
        (s.ticks + 1) := by
  cases name <;> rfl

theorem putManifest_ticked (name : SlotName) (manifest : ProjectManifest) :
    putManifest name manifest (ticked s) =
      replaced s name { s.slot name with manifest := some manifest } (s.ticks + 1) := by
  cases name <;> rfl

theorem ticked_eq_replaced (name : SlotName) :
    ticked s = replaced s name (s.slot name) (s.ticks + 1) := by
  cases name <;> rfl

/-- Writing files touches one slot only, and its manifest not. -/
theorem after_writeFiles (name : SlotName) {files : List (Text × Text)}
    (hdistinct : (files.map Prod.fst).Nodup) :
    After (writeFiles env name files)
      (fun _ s' => ∃ slot, s' = replaced s name slot (s.ticks + files.length) ∧
        (∀ path content : Text, (path, content) ∈ files → slot.files[path]? = some content) ∧
          ∀ path ∉ files.map Prod.fst, slot.files[path]? = (s.slot name).files[path]?)
      (fun _ s' => ∃ slot ticks, s' = replaced s name slot ticks ∧ s.ticks ≤ ticks ∧
        Disturbed env s s') s := by
  induction files generalizing s with
  | nil => exact ⟨s.slot name, by cases name <;> rfl, by simp, by simp⟩
  | cons file files ih =>
      rw [List.map_cons, List.nodup_cons] at hdistinct
      unfold writeFiles
      rw [after_bind]
      refine after_write ?_ ?_ ?_
      · intro _
        rw [putFile_ticked]
        refine (ih hdistinct.2).mono ?_ ?_
        · rintro _ s' ⟨slot, rfl, hfiles, hrest⟩
          rw [slot_replaced] at hrest
          refine ⟨slot, ?_, ?_, ?_⟩
          · rw [replaced_replaced, List.length_cons, Nat.add_comm files.length, ← Nat.add_assoc]
            rfl
          · intro path content hmem
            rcases List.mem_cons.mp hmem with heq | hmem
            · obtain ⟨rfl, rfl⟩ : path = file.1 ∧ content = file.2 := Prod.mk.inj heq
              rw [hrest _ hdistinct.1]
              exact Std.ExtTreeMap.getElem?_insert_self
            · exact hfiles path content hmem
          · intro path hpath
            rw [List.map_cons, List.mem_cons, not_or] at hpath
            have hne : compare file.1 path ≠ .eq := by
              simpa using Ne.symm hpath.1
            rw [hrest path hpath.2, Std.ExtTreeMap.getElem?_insert, if_neg hne]
        · rintro _ s' ⟨slot, ticks, rfl, hticks, tick, hle, hlt, hfault⟩
          exact ⟨slot, ticks, replaced_replaced _ _ _ _ _, Nat.le_of_succ_le hticks, tick,
            Nat.le_of_succ_le hle, hlt, hfault⟩
      · intro hfault
        exact ⟨_, _, ticked_eq_replaced name, Nat.le_succ _, disturbed_now rfl (by simp [hfault])⟩
      · intro hfault
        exact ⟨_, _, putFile_ticked _ _ _, Nat.le_succ _,
          disturbed_now (by rw [putFile_ticked]; rfl) (by simp [hfault])⟩

/-- A project that is persisted loads as it was. -/
theorem after_persistProject (name : SlotName) (files : FileMap) (entryClass entryFilePath : Text) :
    After (persistProject env name files entryClass entryFilePath)
      (fun ref s' => ∃ slot, s' = replaced s name slot (s.ticks + files.size + 1) ∧
        loadManualCompileProject slot = .ok (manifestOf files entryClass entryFilePath, files) ∧
          ref = referenceOf name.manifestPath (manifestOf files entryClass entryFilePath).json)
      (fun _ s' => ∃ slot ticks, s' = replaced s name slot ticks ∧ s.ticks ≤ ticks ∧
        Disturbed env s s') s := by
  have hdistinct : (files.toList.map Prod.fst).Nodup := by
    rw [Std.ExtTreeMap.map_fst_toList_eq_keys]
    exact Std.ExtTreeMap.nodup_keys
  unfold persistProject
  rw [after_bind]
  refine (after_writeFiles name hdistinct).mono ?_ fun _ _ h => h
  rintro _ s' ⟨slot, rfl, hfiles, _⟩
  rw [Std.ExtTreeMap.length_toList, after_bind]
  refine after_write ?_ ?_ ?_
  · intro _
    rw [putManifest_ticked, slot_replaced, replaced_replaced]
    refine ⟨_, rfl, ?_, rfl⟩
    exact load_of_stored rfl fun path content hcontent =>
      hfiles path content (Std.ExtTreeMap.mem_toList_iff_getElem?_eq_some.mpr hcontent)
  · intro hfault
    rw [ticked_eq_replaced name, replaced_replaced]
    exact ⟨_, s.ticks + files.size + 1, rfl, by omega,
      (disturbed_now rfl (by simp [hfault])).since (Nat.le_add_right _ _)⟩
  · intro hfault
    rw [putManifest_ticked, replaced_replaced]
    exact ⟨_, s.ticks + files.size + 1, rfl, by omega,
      (disturbed_now rfl (by simp [hfault])).since (Nat.le_add_right _ _)⟩

/-- The diff to the generated project is read by no operation. -/
theorem after_persistBaselineDiff (baselineFiles currentFiles : FileMap) :
    After (persistManualCompileBaselineDiff env baselineFiles currentFiles)
      (fun _ s' => ∃ ticks, s' = { s with ticks := ticks } ∧ s.ticks ≤ ticks)
      (fun _ s' => ∃ ticks, s' = { s with ticks := ticks } ∧ s.ticks ≤ ticks ∧
        Disturbed env s s') s := by
  unfold persistManualCompileBaselineDiff
  split
  · exact ⟨s.ticks, rfl, Nat.le_refl _⟩
  · refine after_write ?_ ?_ ?_
    · intro _
      exact ⟨s.ticks + 1, rfl, Nat.le_succ _⟩
    · intro hfault
      exact ⟨s.ticks + 1, rfl, Nat.le_succ _, disturbed_now rfl (by simp [hfault])⟩
    · intro hfault
      exact ⟨s.ticks + 1, rfl, Nat.le_succ _, disturbed_now rfl (by simp [hfault])⟩

end Writes

section Operations

variable {env : Env} {s : RunStore}

/-- The run's build failed, so that a repair may be previewed. -/
def failing (s : RunStore) : Prop :=
  (s.buildTestResult.bind BuildResult.failure).isSome

/-- The store after a preview. -/
def afterPreview (s : RunStore) (slot : ProjectSlot) (preview : Option Preview)
    (javaFiles : FileMap) (ticks : Nat) : RunStore :=
  { s with
    snapshot := slot
    preview := preview
    ticks := ticks
    history := { s.history with previewed := javaFiles } }

/-- A preview replaces the snapshot, and nothing else but its own record. -/
theorem after_preview (javaFiles : FileMap) (entryClass entryFilePath : Text)
    (regions : List ManualRegion) :
    After (manualCompileRepairPreview env javaFiles entryClass entryFilePath regions)
      (fun preview s' => ∃ slot ticks, s' = afterPreview s slot (some preview) javaFiles ticks ∧
        s.ticks ≤ ticks ∧ failing s ∧
          ∃ manifest, loadManualCompileProject slot = .ok (manifest, javaFiles))
      (fun _ s' => s' = s ∨ ∃ slot preview files ticks,
        s' = afterPreview s slot preview files ticks ∧ s.ticks ≤ ticks ∧
          (Disturbed env s s' ∨ ¬ failing s ∧ preview = s.preview)) s := by
  unfold manualCompileRepairPreview
  rw [after_bind, after_require]
  refine ⟨fun _ => ?_, fun _ => .inl rfl⟩
  rw [after_bind, after_require]
  refine ⟨fun _ => ?_, fun _ => .inl rfl⟩
  rw [after_bind, after_get, after_bind, after_require]
  refine ⟨fun _ => ?_, fun _ => .inl rfl⟩
  rw [after_bind, after_returning]
  refine ⟨fun _ _ => ?_, fun _ _ => .inl rfl⟩
  rw [after_bind]
  refine (after_persistProject .snapshot javaFiles entryClass entryFilePath).mono ?_ ?_
  · rintro ref s' ⟨slot, rfl, hload, _⟩
    generalize hcount : s.ticks + javaFiles.size + 1 = ticks
    have hticks : s.ticks ≤ ticks := by omega
    rw [after_bind]
    refine (after_persistBaselineDiff _ _).mono ?_ ?_
    · rintro _ s'' ⟨ticks', rfl, hticks'⟩
      have hlater : s.ticks ≤ ticks' := Nat.le_trans hticks hticks'
      split
      · rename_i hresult
        have hfailing : ¬ failing s := by simp [failing, hresult]
        exact .inr ⟨slot, s.preview, _, ticks', rfl, hlater, .inr ⟨hfailing, rfl⟩⟩
      · rename_i result hresult
        split
        · rename_i hfailure
          have hfailing : ¬ failing s := by simp [failing, hresult, hfailure]
          exact .inr ⟨slot, s.preview, _, ticks', rfl, hlater, .inr ⟨hfailing, rfl⟩⟩
        · rename_i failureCode hfailure
          have hfailing : failing s := by simp [failing, hresult, hfailure]
          rw [after_bind]
          refine after_write ?_ ?_ ?_
          · intro _
            exact ⟨slot, ticks' + 1, rfl, Nat.le_succ_of_le hlater, hfailing, _, hload⟩
          · intro hfault
            exact .inr ⟨slot, s.preview, _, ticks' + 1, rfl, Nat.le_succ_of_le hlater,
              .inl ((disturbed_now rfl (by simp [hfault])).since hlater)⟩
          · intro hfault
            exact .inr ⟨slot, _, javaFiles, ticks' + 1, rfl, Nat.le_succ_of_le hlater,
              .inl ((disturbed_now rfl (by simp [hfault])).since hlater)⟩
    · rintro _ s'' ⟨ticks', rfl, hticks', hdisturbed⟩
      exact .inr ⟨slot, s.preview, _, ticks', rfl, Nat.le_trans hticks hticks',
        .inl (hdisturbed.since hticks)⟩
  · rintro _ s' ⟨slot, ticks, rfl, hticks, hdisturbed⟩
    exact .inr ⟨slot, s.preview, s.history.previewed, ticks, rfl, hticks, .inl hdisturbed⟩

theorem after_invokeRepairAgent (request : RepairRequest) :
    After (invokeRepairAgent env request)
      (fun result s' => s' = ticked s ∧ env.agent s.ticks request = .ok result)
      (fun _ s' => s' = ticked s) s := by
  unfold invokeRepairAgent
  rw [after_bind, after_get, after_bind, after_set]
  cases hagent : env.agent s.ticks request with
  | ok result => exact ⟨rfl, rfl⟩
  | error message => exact rfl

theorem snapshot_of_diagnoseContext {previewId : Text} {context : DiagnoseContext}
    (h : diagnoseContext s previewId = .ok context) :
    ∃ manifest, loadManualCompileProject s.snapshot = .ok (manifest, context.snapshotFiles) := by
  unfold diagnoseContext at h
  split at h
  · contradiction
  · split at h
    · contradiction
    · split at h
      · contradiction
      · cases hload : loadManualCompileProject s.snapshot with
        | error e =>
            rw [hload] at h
            contradiction
        | ok project =>
            simp only [hload, bind, Except.bind] at h
            split at h
            · obtain rfl := Except.ok.inj h
              exact ⟨project.1, rfl⟩
            · split at h
              · contradiction
              · obtain rfl := Except.ok.inj h
                exact ⟨project.1, rfl⟩

/-- What a diagnosis asks the agent. -/
def diagnoseRequest (context : DiagnoseContext) : RepairRequest where
  previousJavaCandidateRef := context.preview.currentHeadRef
  previousJavaFiles := context.promptFiles
  buildTestResultRef := context.preview.buildTestResultRef
  failureCategory := context.buildResult.failure.getD .javaCompileFailed
  manualRegions := context.preview.manualRegions

/-- The changes a diagnosis proposes of a snapshot, by the agent's answer. -/
structure Proposes (env : Env) (s : RunStore) (previewId : Text) (base made : FileMap)
    (files : List ProposalFile) : Prop where
  answer : ∃ context result, diagnoseContext s previewId = .ok context ∧
    env.agent s.ticks (diagnoseRequest context) = .ok result ∧
      base = context.snapshotFiles ∧ made = candidateFilesOf base result ∧
        diagnoseProposalFiles env base result = .ok files
  changes : files ≠ []

/-- The store with the record of a new proposal. -/
def proposed (s : RunStore) (slot : ProjectSlot) (proposalId : Text) (proposal : Proposal)
    (base made : FileMap) (ticks : Nat) : RunStore :=
  { s with
    candidate := slot
    proposals := Function.update s.proposals proposalId (some proposal)
    ticks := ticks
    history := { s.history with
      diagnosed := Function.update s.history.diagnosed proposalId (base, made) } }

/-- The record of a proposal nobody has reviewed, and the candidate stored with it. -/
structure Unreviewed (slot : ProjectSlot) (made : FileMap) (proposal : Proposal)
    (files : List ProposalFile) : Prop where
  candidate : ∃ manifest, loadManualCompileProject slot = .ok (manifest, made)
  files_eq : proposal.files = files
  patch : proposal.patchSha256 = canonicalPatchSha files
  application : proposal.applicationState = .reviewPending
  approval : proposal.approvalState = .pending

/-- A diagnosis replaces the candidate project, and records what it proposes. -/
theorem after_diagnose (previewId : Text) :
    After (manualCompileRepairDiagnose env previewId)
      (fun _ s' => ∃ slot ticks, s.ticks ≤ ticks ∧
        (s' = replaced s .candidate slot ticks ∨ ∃ base made files proposal,
          Proposes env s previewId base made files ∧ Unreviewed slot made proposal files ∧
            s' = proposed s slot (proposalIdOf env.runId (canonicalPatchSha files)) proposal
              base made ticks))
      (fun _ s' => ∃ slot ticks, s.ticks ≤ ticks ∧
        (s' = replaced s .candidate slot ticks ∨ ∃ base made files proposal,
          Proposes env s previewId base made files ∧ Unreviewed slot made proposal files ∧
            s' = proposed s slot (proposalIdOf env.runId (canonicalPatchSha files)) proposal
              base made ticks ∧ HalfRecorded env s made)) s := by
  have hunchanged : s = replaced s .candidate s.candidate s.ticks := rfl
  unfold manualCompileRepairDiagnose
  rw [after_bind, after_get, after_bind, after_returning]
  refine ⟨?_, fun _ _ => ⟨_, _, Nat.le_refl _, .inl hunchanged⟩⟩
  intro context hcontext
  rw [after_bind]
  refine (after_invokeRepairAgent (diagnoseRequest context)).mono ?_ ?_
  · rintro result s' ⟨rfl, hagent⟩
    rw [after_bind]
    refine (after_persistProject .candidate _ _ _).mono ?_ ?_
    · rintro candidateRef s' ⟨slot, rfl, hload, _⟩
      generalize hcount : (ticked s).ticks +
        (candidateFilesOf context.snapshotFiles result).size + 1 = ticks
      have hlater : s.ticks ≤ ticks := by
        rw [← hcount, show (ticked s).ticks = s.ticks + 1 from rfl]
        omega
      rw [after_bind, after_returning]
      refine ⟨?_, fun _ _ => ⟨slot, ticks, hlater, .inl rfl⟩⟩
      intro files hfiles
      rw [after_bind]
      refine after_write ?_ ?_ ?_
      · intro _
        dsimp only
        split
        · exact ⟨slot, ticks + 1, Nat.le_succ_of_le hlater, .inl rfl⟩
        · rename_i hchanges
          have hproposes : Proposes env s previewId context.snapshotFiles
              (candidateFilesOf context.snapshotFiles result) files :=
            ⟨⟨context, result, hcontext, hagent, rfl, rfl, hfiles⟩, hchanges⟩
          rw [after_bind]
          refine after_write ?_ ?_ ?_
          · intro _
            exact ⟨slot, ticks + 2, Nat.le_add_right_of_le hlater,
              .inr ⟨_, _, files, _, hproposes, ⟨⟨_, hload⟩, rfl, rfl, rfl, rfl⟩, rfl⟩⟩
          · intro _
            exact ⟨slot, ticks + 2, Nat.le_add_right_of_le hlater, .inl rfl⟩
          · intro hfault
            refine ⟨slot, ticks + 2, Nat.le_add_right_of_le hlater,
              .inr ⟨_, _, files, _, hproposes, ⟨⟨_, hload⟩, rfl, rfl, rfl, rfl⟩, rfl, ?_⟩⟩
            rw [HalfRecorded, ← hfault]
            congr 1
            change _ = ticks + 1
            rw [← hcount, show (ticked s).ticks = s.ticks + 1 from rfl]
            omega
      · intro _
        exact ⟨slot, ticks + 1, Nat.le_succ_of_le hlater, .inl rfl⟩
      · intro _
        exact ⟨slot, ticks + 1, Nat.le_succ_of_le hlater, .inl rfl⟩
    · rintro _ s' ⟨slot, ticks, rfl, hticks, _⟩
      exact ⟨slot, ticks, Nat.le_of_succ_le hticks, .inl rfl⟩
  · rintro _ s' rfl
    exact ⟨s.candidate, s.ticks + 1, Nat.le_succ _, .inl rfl⟩

/-- The build step gave no result between two states. -/
def Unbuilt (env : Env) (s s' : RunStore) : Prop :=
  ∃ tick input message, s.ticks ≤ tick ∧ tick < s'.ticks ∧ env.build tick input = .error message

theorem after_sandboxBuild (input : BuildInput) :
    After (runManualCompileSandboxBuild env input)
      (fun result s' => s' = ticked s ∧ env.build s.ticks input = .ok result)
      (fun _ s' => s' = ticked s ∧ Unbuilt env s s') s := by
  unfold runManualCompileSandboxBuild
  rw [after_bind, after_get, after_bind, after_set]
  cases hbuild : env.build s.ticks input with
  | ok result => exact ⟨rfl, rfl⟩
  | error message => exact ⟨rfl, s.ticks, input, message, Nat.le_refl _, Nat.lt_succ_self _, hbuild⟩

/-- The store with another project and result in the sandbox. -/
def sandboxed (s : RunStore) (slot : ProjectSlot) (result : Option BuildResult) (ticks : Nat) :
    RunStore :=
  { s with
    sandbox := slot
    sandboxBuildTestResult := result
    ticks := ticks }

/-- The store with the record of an apply. -/
def applied (s : RunStore) (proposalId : Text) (proposal : Proposal) (materialised : Materialised) :
    RunStore :=
  { s with
    proposals := Function.update s.proposals proposalId (some proposal)
    history := { s.history with
      applied := Function.update s.history.applied proposalId (some materialised) } }

/-- The manifest of the files an apply puts into the sandbox. -/
def sandboxManifest (context : ApplyContext) : ProjectManifest :=
  manifestOf context.candidateFiles context.entryClass context.entryFilePath

/-- The record of a proposal after an apply. -/
structure SandboxApplied (context : ApplyContext) (buildTest : BuildResult) (proposal : Proposal) :
    Prop where
  files : proposal.files = context.proposal.files
  patch : proposal.patchSha256 = context.proposal.patchSha256
  application : proposal.applicationState = .sandboxApplied
  approval : proposal.approvalState = .pending
  candidateRef : proposal.sandboxCandidateRef =
    some (referenceOf SlotName.sandbox.manifestPath (sandboxManifest context).json)
  resultRef : proposal.sandboxBuildTestResultRef = some (buildTest.reference sandboxResultPath)

/-- What an apply that passes its checks leaves behind when its build ran. -/
structure Materialises (env : Env) (s : RunStore) (context : ApplyContext) (slot : ProjectSlot)
    (buildTest : BuildResult) (proposal : Proposal) : Prop where
  slot_eq : loadManualCompileProject slot = .ok (sandboxManifest context, context.candidateFiles)
  built : ∃ tick, env.build tick (sandboxBuildInput s.buildTestResult context) = .ok buildTest
  record : SandboxApplied context buildTest proposal

/-- What the checks of an apply find. -/
structure Checks (s : RunStore) (previewId proposalId patchSha256 : Text)
    (context : ApplyContext) : Prop where
  preview : ∃ preview, s.preview = some preview ∧ preview.previewId = previewId
  proposal : s.proposals proposalId = some context.proposal
  approval : context.proposal.approvalState = .pending
  application : context.proposal.applicationState = .reviewPending ∨
    context.proposal.applicationState = .sandboxApplied
  patch : strip patchSha256 = context.proposal.patchSha256
  snapshot : ∃ manifest, loadManualCompileProject s.snapshot = .ok (manifest, context.snapshotFiles)
  candidate : ∃ manifest,
    loadManualCompileProject s.candidate = .ok (manifest, context.candidateFiles)
  agreed : validateManualCompileApplyCandidate context.proposal.files context.snapshotFiles
    context.candidateFiles = .ok ⟨⟩

theorem validateProposal_eq_ok {proposal : Proposal} {patchSha256 : Text}
    (h : validateManualCompileApplyProposal proposal patchSha256 = .ok ⟨⟩) :
    proposal.approvalState = .pending ∧ (proposal.applicationState = .reviewPending ∨
      proposal.applicationState = .sandboxApplied) ∧ strip patchSha256 = proposal.patchSha256 := by
  unfold validateManualCompileApplyProposal at h
  split at h
  · contradiction
  · rename_i hstates
    split at h
    · contradiction
    · split at h
      · contradiction
      · split at h
        · contradiction
        · rename_i hpatch
          rw [ne_eq, not_or, not_not, not_not] at hstates
          exact ⟨hstates.1, hstates.2, not_not.mp hpatch⟩

theorem applyContext_eq_ok {previewId proposalId patchSha256 : Text} {context : ApplyContext}
    (h : applyContext s previewId proposalId patchSha256 = .ok context) :
    Checks s previewId proposalId patchSha256 context := by
  unfold applyContext at h
  split at h
  · contradiction
  · rename_i preview hpreview
    split at h
    · contradiction
    · rename_i hid
      split at h
      · contradiction
      · rename_i proposal hproposal
        cases hvalid : validateManualCompileApplyProposal proposal patchSha256 with
        | error e =>
            rw [hvalid] at h
            contradiction
        | ok _ =>
            rw [hvalid] at h
            cases hsnapshot : loadManualCompileProject s.snapshot with
            | error e =>
                rw [hsnapshot] at h
                contradiction
            | ok snapshot =>
                rw [hsnapshot] at h
                cases hcandidate : loadManualCompileProject s.candidate with
                | error e =>
                    rw [hcandidate] at h
                    contradiction
                | ok candidate =>
                    rw [hcandidate] at h
                    cases hagreed : validateManualCompileApplyCandidate proposal.files snapshot.2
                        candidate.2 with
                    | error e =>
                        simp only [bind, Except.bind, hagreed] at h
                        contradiction
                    | ok _ =>
                        simp only [bind, Except.bind, hagreed] at h
                        obtain rfl := Except.ok.inj h
                        obtain ⟨happroval, happlication, hpatch⟩ := validateProposal_eq_ok hvalid
                        exact ⟨⟨preview, hpreview, not_not.mp hid⟩, hproposal, happroval,
                          happlication, hpatch, ⟨_, hsnapshot⟩, ⟨_, hcandidate⟩, hagreed⟩

/-- An apply changes nothing before its checks have passed, then the sandbox, and
then the record of the proposal. -/
theorem after_apply (previewId proposalId patchSha256 : Text) :
    After (manualCompileRepairApply env previewId proposalId patchSha256)
      (fun reply s' => ∃ context slot ticks,
        applyContext s previewId proposalId patchSha256 = .ok context ∧ s.ticks ≤ ticks ∧
          Materialises env s context slot reply.buildTest reply.proposal ∧
            reply.candidateProject =
              ⟨context.entryClass, context.entryFilePath, context.candidateFiles⟩ ∧
              s' = applied (sandboxed s slot (some reply.buildTest) ticks) proposalId reply.proposal
                ⟨context.snapshotFiles, context.candidateFiles, reply.buildTest⟩)
      (fun _ s' => s' = s ∨ ∃ context slot result ticks,
        applyContext s previewId proposalId patchSha256 = .ok context ∧ s.ticks ≤ ticks ∧
          (s' = sandboxed s slot result ticks ∧ (Disturbed env s s' ∨ Unbuilt env s s') ∨
            ∃ buildTest proposal, Materialises env s context slot buildTest proposal ∧
              s' = applied (sandboxed s slot (some buildTest) ticks) proposalId proposal
                ⟨context.snapshotFiles, context.candidateFiles, buildTest⟩ ∧
                HalfRecorded env s context.candidateFiles)) s := by
  unfold manualCompileRepairApply
  rw [after_bind, after_get, after_bind, after_returning]
  refine ⟨?_, fun _ _ => .inl rfl⟩
  intro context hcontext
  rw [after_bind]
  refine (after_persistProject .sandbox _ _ _).mono ?_ ?_
  · rintro sandboxRef s' ⟨slot, rfl, hload, href⟩
    generalize hcount : s.ticks + context.candidateFiles.size + 1 = ticks
    have hticks : s.ticks ≤ ticks := by omega
    rw [after_bind]
    refine (after_sandboxBuild _).mono ?_ ?_
    · rintro buildTest s' ⟨rfl, hbuild⟩
      rw [after_bind]
      refine after_write ?_ ?_ ?_
      · intro _
        rw [after_bind]
        refine after_write ?_ ?_ ?_
        · intro _
          exact ⟨context, slot, ticks + 3, hcontext, Nat.le_add_right_of_le hticks,
            ⟨hload, ⟨_, hbuild⟩, ⟨rfl, rfl, rfl, rfl, congrArg some href, rfl⟩⟩, rfl, rfl⟩
        · intro hfault
          exact .inr ⟨context, slot, some buildTest, ticks + 3, hcontext,
            Nat.le_add_right_of_le hticks, .inl ⟨rfl, .inl ⟨ticks + 2,
              Nat.le_add_right_of_le hticks, Nat.lt_succ_self _, by
                rw [show env.fault (ticks + 2) = _ from hfault]
                simp⟩⟩⟩
        · intro hfault
          refine .inr ⟨context, slot, some buildTest, ticks + 3, hcontext,
            Nat.le_add_right_of_le hticks, .inr ⟨buildTest, _, ?_, rfl, ?_⟩⟩
          · exact ⟨hload, ⟨_, hbuild⟩, ⟨rfl, rfl, rfl, rfl, congrArg some href, rfl⟩⟩
          · rw [HalfRecorded, ← hfault, ← hcount]
            rfl
      · intro hfault
        exact .inr ⟨context, slot, s.sandboxBuildTestResult, ticks + 2, hcontext,
          Nat.le_add_right_of_le hticks, .inl ⟨rfl, .inl ⟨ticks + 1,
            Nat.le_add_right_of_le hticks, Nat.lt_succ_self _, by
              rw [show env.fault (ticks + 1) = _ from hfault]
              simp⟩⟩⟩
      · intro hfault
        exact .inr ⟨context, slot, some buildTest, ticks + 2, hcontext,
          Nat.le_add_right_of_le hticks, .inl ⟨rfl, .inl ⟨ticks + 1,
            Nat.le_add_right_of_le hticks, Nat.lt_succ_self _, by
              rw [show env.fault (ticks + 1) = _ from hfault]
              simp⟩⟩⟩
    · rintro _ s' ⟨rfl, tick, input, message, hle, hlt, hbuild⟩
      exact .inr ⟨context, slot, s.sandboxBuildTestResult, ticks + 1, hcontext,
        Nat.le_add_right_of_le hticks, .inl ⟨rfl, .inr ⟨tick, input, message,
          Nat.le_trans hticks hle, hlt, hbuild⟩⟩⟩
  · rintro _ s' ⟨slot, ticks, rfl, hticks, hdisturbed⟩
    exact .inr ⟨context, slot, s.sandboxBuildTestResult, ticks, hcontext, hticks,
      .inl ⟨rfl, .inl hdisturbed⟩⟩

/-- The two writes of a decision either both land, or the call raises before the
first has. -/
def Settles (env : Env) (s : RunStore) : Prop :=
  env.fault s.ticks ≠ .after ∧ (env.fault s.ticks = .none → env.fault (s.ticks + 1) = .none)

/-- The store with the record of a decision. -/
def decided (s : RunStore) (proposalId : Text) (proposal : Proposal)
    (approvals : Text → Option ApprovalRecord) (ticks : Nat) : RunStore :=
  { s with
    proposals := Function.update s.proposals proposalId (some proposal)
    approvals := approvals
    ticks := ticks }

theorem after_decision {A : Type} (proposalId : Text) (proposal : Proposal)
    (record : ApprovalRecord) (reply : A) :
    After (do
        write env fun s => { s with
          proposals := Function.update s.proposals proposalId (some proposal) }
        write env fun s => { s with
          approvals := Function.update s.approvals proposalId (some record) }
        pure reply)
      (fun reply' s' => reply' = reply ∧ s' = decided s proposalId proposal
        (Function.update s.approvals proposalId (some record)) (s.ticks + 2))
      (fun _ s' => s' = ticked s ∨ ¬ Settles env s ∧
        ∃ approvals ticks, s' = decided s proposalId proposal approvals ticks) s := by
  rw [after_bind]
  refine after_write ?_ ?_ ?_
  · intro hfirst
    rw [after_bind]
    refine after_write ?_ ?_ ?_
    · intro _
      exact ⟨rfl, rfl⟩
    · intro hfault
      refine .inr ⟨?_, s.approvals, s.ticks + 2, rfl⟩
      intro hsettles
      exact absurd (hfault.symm.trans (hsettles.2 hfirst)) (by simp)
    · intro hfault
      refine .inr ⟨?_, _, s.ticks + 2, rfl⟩
      intro hsettles
      exact absurd (hfault.symm.trans (hsettles.2 hfirst)) (by simp)
  · intro _
    exact .inl rfl
  · intro hfault
    exact .inr ⟨fun hsettles => hsettles.1 hfault, s.approvals, s.ticks + 1, rfl⟩

/-- A proposal approved, and the record of it. -/
def Approves (persisted proposal : Proposal) (record : ApprovalRecord) : Prop :=
  ∃ approval, approval.approvedPatchSha256 = persisted.patchSha256 ∧
    proposal = { persisted with
      applicationState := .applied
      approvalState := .approved
      developerApproval := some approval } ∧
    record = .approved approval.approvedBy approval.approvedAt approval.approvedPatchSha256
      persisted.sandboxCandidateRef persisted.sandboxBuildTestResultRef

/-- A proposal rejected, and the record of it. -/
def Rejects (persisted proposal : Proposal) (record : ApprovalRecord) : Prop :=
  proposal = { persisted with
    applicationState := .rejected
    approvalState := .rejected } ∧
  ∃ rejectedBy rejectedAt, record = .rejected rejectedBy rejectedAt persisted.patchSha256

theorem acceptProposal_eq_ok {proposalId patchSha256 : Text} {persisted : Proposal}
    (h : acceptProposal s proposalId patchSha256 = .ok persisted) :
    s.proposals proposalId = some persisted ∧ persisted.applicationState = .sandboxApplied ∧
      persisted.approvalState = .pending ∧ strip patchSha256 = persisted.patchSha256 := by
  unfold acceptProposal at h
  split at h
  · contradiction
  · rename_i proposal hproposal
    split at h
    · contradiction
    · rename_i hstates
      split at h
      · contradiction
      · rename_i hpatch
        obtain rfl := Except.ok.inj h
        simp only [ne_eq, not_or, not_not] at hstates hpatch
        exact ⟨hproposal, hstates.1, hstates.2, hpatch⟩

theorem rejectProposal_eq_ok {proposalId : Text} {persisted : Proposal}
    (h : rejectProposal s proposalId = .ok persisted) :
    s.proposals proposalId = some persisted ∧ persisted.applicationState = .reviewPending ∧
      persisted.approvalState = .pending := by
  unfold rejectProposal at h
  split at h
  · contradiction
  · rename_i proposal hproposal
    split at h
    · contradiction
    · rename_i hstates
      obtain rfl := Except.ok.inj h
      simp only [ne_eq, not_or, not_not] at hstates
      exact ⟨hproposal, hstates.1, hstates.2⟩

/-- An accept releases what is in the sandbox. -/
theorem after_accept (requester proposalId patchSha256 : Text) :
    After (manualCompileRepairAccept env requester proposalId patchSha256)
      (fun reply s' => ∃ persisted manifest files record,
        acceptProposal s proposalId patchSha256 = .ok persisted ∧
          Approves persisted reply.proposal record ∧
            loadManualCompileProject s.sandbox = .ok (manifest, files) ∧
              s.sandboxBuildTestResult = some reply.buildTest ∧
                reply.candidateProject = ⟨manifest.entryClass, manifest.entryFilePath, files⟩ ∧
                  s' = decided s proposalId reply.proposal
                    (Function.update s.approvals proposalId (some record)) (s.ticks + 2))
      (fun _ s' => (∃ ticks, s' = { s with ticks := ticks } ∧ s.ticks ≤ ticks) ∨
        ¬ Settles env s ∧ ∃ persisted proposal approvals ticks,
          acceptProposal s proposalId patchSha256 = .ok persisted ∧
            (∃ record, Approves persisted proposal record) ∧
              s' = decided s proposalId proposal approvals ticks) s := by
  have hunchanged : ∃ ticks, s = { s with ticks := ticks } ∧ s.ticks ≤ ticks :=
    ⟨s.ticks, rfl, Nat.le_refl _⟩
  unfold manualCompileRepairAccept
  rw [after_bind, after_get, after_bind, after_returning]
  refine ⟨?_, fun _ _ => .inl hunchanged⟩
  intro persisted hpersisted
  obtain ⟨_, _, _, hpatch⟩ := acceptProposal_eq_ok hpersisted
  rw [after_bind, after_returning]
  refine ⟨?_, fun _ _ => .inl hunchanged⟩
  rintro ⟨manifest, files⟩ hload
  dsimp only
  split
  · exact .inl hunchanged
  · rename_i buildTest hbuildTest
    refine (after_decision proposalId _ _ _).mono ?_ ?_
    · rintro reply s' ⟨rfl, rfl⟩
      refine ⟨persisted, manifest, files, _, hpersisted, ?_, hload, hbuildTest, rfl, rfl⟩
      exact ⟨_, hpatch, rfl, rfl⟩
    · rintro _ s' (rfl | ⟨hsettles, approvals, ticks, rfl⟩)
      · exact .inl ⟨s.ticks + 1, rfl, Nat.le_succ _⟩
      · refine .inr ⟨hsettles, persisted, _, approvals, ticks, hpersisted, ?_, rfl⟩
        exact ⟨_, _, hpatch, rfl, rfl⟩

/-- A reject changes only the record of the proposal, and of the decision. -/
theorem after_reject (requester proposalId : Text) :
    After (manualCompileRepairReject env requester proposalId)
      (fun proposal s' => ∃ persisted record, rejectProposal s proposalId = .ok persisted ∧
        Rejects persisted proposal record ∧
          s' = decided s proposalId proposal
            (Function.update s.approvals proposalId (some record)) (s.ticks + 2))
      (fun _ s' => (∃ ticks, s' = { s with ticks := ticks } ∧ s.ticks ≤ ticks) ∨
        ¬ Settles env s ∧ ∃ persisted proposal approvals ticks,
          rejectProposal s proposalId = .ok persisted ∧
            (∃ record, Rejects persisted proposal record) ∧ s' = decided s proposalId proposal approvals ticks) s := by
  unfold manualCompileRepairReject
  rw [after_bind, after_get, after_bind, after_returning]
  refine ⟨?_, fun _ _ => .inl ⟨s.ticks, rfl, Nat.le_refl _⟩⟩
  intro persisted hpersisted
  refine (after_decision proposalId _ _ _).mono ?_ ?_
  · rintro proposal s' ⟨rfl, rfl⟩
    exact ⟨persisted, _, hpersisted, ⟨rfl, _, _, rfl⟩, rfl⟩
  · rintro _ s' (rfl | ⟨hsettles, approvals, ticks, rfl⟩)
    · exact .inl ⟨s.ticks + 1, rfl, Nat.le_succ _⟩
    · refine .inr ⟨hsettles, persisted, _, approvals, ticks, hpersisted, ?_, rfl⟩
      exact ⟨_, rfl, actorOf env requester, env.now s.ticks, rfl⟩

end Operations

end C2c.Orchestrator.RepairEffects
