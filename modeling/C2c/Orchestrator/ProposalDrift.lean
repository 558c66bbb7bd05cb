import C2c.Orchestrator.ProposalStates

namespace C2c.Orchestrator.ProposalDrift

open C2c.Library.JavaText
open C2c.Library.Machine
open C2c.Library.Raising
open C2c.Orchestrator.JavaProject
open C2c.Orchestrator.ManualRepair
open C2c.Orchestrator.ProposalAgreement
open C2c.Orchestrator.RepairEffects
open C2c.Orchestrator.ProposalStates

/-- The record of a proposal says what changed where it was made. -/
def Describes (env : Env) (made : FileMap × FileMap) (proposal : Proposal) : Prop :=
  proposal.files = proposalFiles env.unifiedFileDiff made.1 made.2 ∧
    proposal.patchSha256 = canonicalPatchSha proposal.files

def Recorded (env : Env) (s : RunStore) : Prop :=
  ∀ proposalId proposal, s.proposals proposalId = some proposal →
    Describes env (s.history.diagnosed proposalId) proposal

section Records

variable {env : Env} {s s' : RunStore}

theorem recorded_same (h : Recorded env s) (hproposals : s'.proposals = s.proposals)
    (hdiagnosed : s'.history.diagnosed = s.history.diagnosed) : Recorded env s' := by
  unfold Recorded
  rw [hproposals, hdiagnosed]
  exact h

theorem recorded_update {proposalId : Text} {proposal : Proposal} (h : Recorded env s)
    (hproposals : s'.proposals = Function.update s.proposals proposalId (some proposal))
    (hdiagnosed : ∀ other, other ≠ proposalId →
      s'.history.diagnosed other = s.history.diagnosed other)
    (hproposal : Describes env (s'.history.diagnosed proposalId) proposal) : Recorded env s' := by
  intro other given hgiven
  rw [hproposals] at hgiven
  by_cases hid : other = proposalId
  · rw [hid, Function.update_self] at hgiven
    obtain rfl := Option.some.inj hgiven
    rw [hid]
    exact hproposal
  · rw [Function.update_of_ne hid] at hgiven
    rw [hdiagnosed other hid]
    exact h other given hgiven

/-- A record whose files and patch are those of another. -/
theorem Describes.of_same {made : FileMap × FileMap} {proposal proposal' : Proposal}
    (h : Describes env made proposal) (hfiles : proposal'.files = proposal.files)
    (hpatch : proposal'.patchSha256 = proposal.patchSha256) : Describes env made proposal' := by
  unfold Describes
  rw [hfiles, hpatch]
  exact h

theorem recorded_decided {proposalId : Text} {persisted proposal : Proposal}
    {approvals : Text → Option ApprovalRecord} {ticks : Nat} (h : Recorded env s)
    (hproposal : s.proposals proposalId = some persisted)
    (hfiles : proposal.files = persisted.files)
    (hpatch : proposal.patchSha256 = persisted.patchSha256) :
    Recorded env (decided s proposalId proposal approvals ticks) :=
  recorded_update h rfl (fun _ _ => rfl) ((h proposalId persisted hproposal).of_same hfiles hpatch)

/-- What a diagnosis proposes is the difference it was made of. -/
theorem files_of_proposes {previewId : Text} {base made : FileMap} {files : List ProposalFile}
    (h : Proposes env s previewId base made files) :
    files = proposalFiles env.unifiedFileDiff base made := by
  obtain ⟨⟨context, result, _, _, _, hmade, hfiles⟩, hchanges⟩ := h
  unfold diagnoseProposalFiles at hfiles
  split at hfiles
  · exact absurd (Except.ok.inj hfiles).symm hchanges
  · rw [hmade]
    exact (buildProposalFiles_eq_ok hfiles).1

theorem recorded_proposed {previewId : Text} {base made : FileMap} {files : List ProposalFile}
    {proposal : Proposal} {slot : ProjectSlot} {ticks : Nat} (h : Recorded env s)
    (hproposes : Proposes env s previewId base made files) (hrecord : Unreviewed slot made proposal files) :
    Recorded env (proposed s slot (proposalIdOf env.runId (canonicalPatchSha files)) proposal base
      made ticks) := by
  refine recorded_update h rfl ?_ ?_
  · intro other hne
    exact Function.update_of_ne hne _ _
  · change Describes env (Function.update s.history.diagnosed _ (base, made) _) proposal
    rw [Function.update_self]
    refine ⟨hrecord.files_eq.trans (files_of_proposes hproposes), ?_⟩
    rw [hrecord.files_eq, hrecord.patch]

theorem recorded_applied {previewId proposalId patchSha256 : Text} {context : ApplyContext}
    {slot : ProjectSlot} {buildTest : BuildResult} {proposal : Proposal} {ticks : Nat}
    {materialised : Materialised} (h : Recorded env s)
    (hchecks : Checks s previewId proposalId patchSha256 context)
    (hmaterialises : Materialises env s context slot buildTest proposal) :
    Recorded env (applied (sandboxed s slot (some buildTest) ticks) proposalId proposal
      materialised) :=
  recorded_update h rfl (fun _ _ => rfl)
    ((h proposalId _ hchecks.proposal).of_same hmaterialises.record.files hmaterialises.record.patch)

theorem recorded_step (h : Recorded env s) (call : Call) : Recorded env (step env s call) := by
  refine After.result (p := fun _ s' => Recorded env s') ?_
  cases call with
  | preview javaFiles entryClass entryFilePath regions =>
      unfold perform
      rw [after_map]
      refine (after_preview javaFiles entryClass entryFilePath regions).mono ?_ ?_
      · rintro _ s' ⟨slot, ticks, rfl, _⟩
        exact recorded_same h rfl rfl
      · rintro _ s' (rfl | ⟨slot, preview, files, ticks, rfl, _⟩)
        · exact h
        · exact recorded_same h rfl rfl
  | diagnose previewId =>
      unfold perform
      rw [after_map]
      refine (after_diagnose previewId).mono ?_ ?_
      · rintro _ s' ⟨slot, ticks, _, rfl | ⟨base, made, files, proposal, hproposes, hrecord, rfl⟩⟩
        · exact recorded_same h rfl rfl
        · exact recorded_proposed h hproposes hrecord
      · rintro _ s' ⟨slot, ticks, _, rfl | ⟨base, made, files, proposal, hproposes, hrecord, rfl, _⟩⟩
        · exact recorded_same h rfl rfl
        · exact recorded_proposed h hproposes hrecord
  | apply previewId proposalId patchSha256 =>
      unfold perform
      rw [after_map]
      refine (after_apply previewId proposalId patchSha256).mono ?_ ?_
      · rintro reply s' ⟨context, slot, ticks, hcontext, _, hmaterialises, _, rfl⟩
        exact recorded_applied h (applyContext_eq_ok hcontext) hmaterialises
      · rintro e s' (rfl | ⟨context, slot, result, ticks, hcontext, _,
          ⟨rfl, _⟩ | ⟨buildTest, proposal, hmaterialises, rfl, _⟩⟩)
        · exact h
        · exact recorded_same h rfl rfl
        · exact recorded_applied h (applyContext_eq_ok hcontext) hmaterialises
  | accept requester proposalId patchSha256 =>
      unfold perform
      rw [after_map]
      refine (after_accept requester proposalId patchSha256).mono ?_ ?_
      · rintro reply s' ⟨persisted, _, _, record, haccept, ⟨_, _, hreply, _⟩, _, _, _, rfl⟩
        refine recorded_decided h (acceptProposal_eq_ok haccept).1 ?_ ?_
        · rw [hreply]
        · rw [hreply]
      · rintro e s' (⟨ticks, rfl, _⟩ | ⟨_, persisted, _, _, _, haccept, ⟨_, _, _, rfl, _⟩, rfl⟩)
        · exact recorded_same h rfl rfl
        · exact recorded_decided h (acceptProposal_eq_ok haccept).1 rfl rfl
  | reject requester proposalId =>
      unfold perform
      rw [after_map]
      refine (after_reject requester proposalId).mono ?_ ?_
      · rintro proposal s' ⟨persisted, record, hreject, ⟨rfl, _⟩, rfl⟩
        exact recorded_decided h (rejectProposal_eq_ok hreject).1 rfl rfl
      · rintro e s' (⟨ticks, rfl, _⟩ | ⟨_, persisted, _, _, _, hreject, ⟨_, rfl, _⟩, rfl⟩)
        · exact recorded_same h rfl rfl
        · exact recorded_decided h (rejectProposal_eq_ok hreject).1 rfl rfl

end Records

/-- A preview in force was made of the files in the snapshot. -/
def Previewed (s : RunStore) : Prop :=
  s.preview.isSome → failing s ∧
    ∃ manifest, loadManualCompileProject s.snapshot = .ok (manifest, s.history.previewed)

/-- What the hashes of a proposal leave open is settled in a store. -/
def Settled (s : RunStore) (previewId proposalId patchSha256 : Text) : Prop :=
  ∀ context, applyContext s previewId proposalId patchSha256 = .ok context →
    Current context.proposal.files (s.history.diagnosed proposalId).1
      (s.history.diagnosed proposalId).2 context.snapshotFiles context.candidateFiles

/-- A call in which no preview fails half way, and in which the hashes of an applied
proposal leave nothing open. -/
def Guarded (env : Env) (s : RunStore) : Call → Prop
  | .preview javaFiles entryClass entryFilePath regions =>
      ¬ Disturbed env s (step env s (.preview javaFiles entryClass entryFilePath regions))
  | .apply previewId proposalId patchSha256 => Settled s previewId proposalId patchSha256
  | _ => True

/-- What an apply may only succeed for: the snapshot has what the proposal was made
of at every path it touches, and the candidate is that snapshot with its changes. -/
structure Undrifted (s : RunStore) (previewId proposalId : Text) (files : List ProposalFile)
    (candidate : FileMap) : Prop where
  preview : ∃ preview, s.preview = some preview ∧ preview.previewId = previewId
  proposal : ∃ proposal, s.proposals proposalId = some proposal ∧ proposal.files = files
  before : ∀ entry ∈ files,
    s.history.previewed[entry.path]? = (s.history.diagnosed proposalId).1[entry.path]?
  after : ∀ entry ∈ files,
    candidate[entry.path]? = (s.history.diagnosed proposalId).2[entry.path]?
  untouched : ∀ path ∉ files.map ProposalFile.path, candidate[path]? = s.history.previewed[path]?
  root : ∀ entry ∈ files, isAllowedRepairJavaPath entry.path = true ∧
    startsWith (normalizedPath entry.path) allowedRepairJavaRoot = true

/-- An apply succeeds only for a proposal that has not drifted from the preview. -/
def AppliesUndrifted (env : Env) (s : RunStore) (previewId proposalId patchSha256 : Text) : Prop :=
  ∀ reply s', manualCompileRepairApply env previewId proposalId patchSha256 s = .ok reply s' →
    Undrifted s previewId proposalId reply.proposal.files reply.candidateProject.files

section Applies

variable {env : Env} {s : RunStore}

theorem previewed_same {s' : RunStore} (h : Previewed s) (hpreview : s'.preview = s.preview)
    (hsnapshot : s'.snapshot = s.snapshot) (hbuild : s'.buildTestResult = s.buildTestResult)
    (hpreviewed : s'.history.previewed = s.history.previewed) : Previewed s' := by
  unfold Previewed failing
  rw [hpreview, hsnapshot, hbuild, hpreviewed]
  exact h

theorem previewed_step (h : Previewed s) {call : Call} (hcall : Guarded env s call) :
    Previewed (step env s call) := by
  cases call with
  | preview javaFiles entryClass entryFilePath regions =>
      suffices hall : ¬ Disturbed env s (step env s (.preview javaFiles entryClass entryFilePath
          regions)) → Previewed (step env s (.preview javaFiles entryClass entryFilePath regions))
        from hall hcall
      refine After.result (p := fun _ s' => ¬ Disturbed env s s' → Previewed s') ?_
      unfold perform
      rw [after_map]
      refine (after_preview javaFiles entryClass entryFilePath regions).mono ?_ ?_
      · rintro _ s' ⟨slot, ticks, rfl, _, hfailing, hload⟩ _ _
        exact ⟨hfailing, hload⟩
      · rintro e s' (rfl | ⟨slot, preview, files, ticks, rfl, _, hwhy⟩) hundisturbed
        · exact h
        · rcases hwhy with hdisturbed | ⟨hfailing, rfl⟩
          · exact absurd hdisturbed hundisturbed
          · intro hpreview
            exact absurd (h hpreview).1 hfailing
  | diagnose previewId =>
      refine After.result (p := fun _ s' => Previewed s') ?_
      unfold perform
      rw [after_map]
      refine (after_diagnose previewId).mono ?_ ?_
      · rintro _ s' ⟨slot, ticks, _, rfl | ⟨_, _, _, _, _, _, rfl⟩⟩
        · exact previewed_same h rfl rfl rfl rfl
        · exact previewed_same h rfl rfl rfl rfl
      · rintro _ s' ⟨slot, ticks, _, rfl | ⟨_, _, _, _, _, _, rfl, _⟩⟩
        · exact previewed_same h rfl rfl rfl rfl
        · exact previewed_same h rfl rfl rfl rfl
  | apply previewId proposalId patchSha256 =>
      refine After.result (p := fun _ s' => Previewed s') ?_
      unfold perform
      rw [after_map]
      refine (after_apply previewId proposalId patchSha256).mono ?_ ?_
      · rintro reply s' ⟨_, _, _, _, _, _, _, rfl⟩
        exact previewed_same h rfl rfl rfl rfl
      · rintro e s' (rfl | ⟨_, _, _, _, _, _, ⟨rfl, _⟩ | ⟨_, _, _, rfl, _⟩⟩)
        · exact h
        · exact previewed_same h rfl rfl rfl rfl
        · exact previewed_same h rfl rfl rfl rfl
  | accept requester proposalId patchSha256 =>
      refine After.result (p := fun _ s' => Previewed s') ?_
      unfold perform
      rw [after_map]
      refine (after_accept requester proposalId patchSha256).mono ?_ ?_
      · rintro reply s' ⟨_, _, _, _, _, _, _, _, _, rfl⟩
        exact previewed_same h rfl rfl rfl rfl
      · rintro e s' (⟨ticks, rfl, _⟩ | ⟨_, _, _, _, _, _, _, rfl⟩)
        · exact previewed_same h rfl rfl rfl rfl
        · exact previewed_same h rfl rfl rfl rfl
  | reject requester proposalId =>
      refine After.result (p := fun _ s' => Previewed s') ?_
      unfold perform
      rw [after_map]
      refine (after_reject requester proposalId).mono ?_ ?_
      · rintro reply s' ⟨_, _, _, _, rfl⟩
        exact previewed_same h rfl rfl rfl rfl
      · rintro e s' (⟨ticks, rfl, _⟩ | ⟨_, _, _, _, _, _, _, rfl⟩)
        · exact previewed_same h rfl rfl rfl rfl
        · exact previewed_same h rfl rfl rfl rfl

/-- What the checks of an apply establish of the files. -/
theorem agreed_of_checks {previewId proposalId patchSha256 : Text} {context : ApplyContext}
    (hrecorded : Recorded env s) (hchecks : Checks s previewId proposalId patchSha256 context) :
    (∀ entry ∈ context.proposal.files,
      Checked context.snapshotFiles context.candidateFiles entry) ∧
      ∀ path ∉ context.proposal.files.map ProposalFile.path,
        context.candidateFiles[path]? = context.snapshotFiles[path]? := by
  refine validate_eq_ok ?_ hchecks.agreed
  intro entry hentry
  rw [(hrecorded proposalId _ hchecks.proposal).1, mem_proposalFiles] at hentry
  exact hentry.not_delete

theorem undrifted_of_checks {previewId proposalId patchSha256 : Text} {context : ApplyContext}
    (hrecorded : Recorded env s) (hpreviewed : Previewed s)
    (hcontext : applyContext s previewId proposalId patchSha256 = .ok context)
    (hcall : Guarded env s (.apply previewId proposalId patchSha256)) :
    Undrifted s previewId proposalId context.proposal.files context.candidateFiles := by
  have hchecks := applyContext_eq_ok hcontext
  obtain ⟨hchecked, huntouched⟩ := agreed_of_checks hrecorded hchecks
  obtain ⟨preview, hpreview, _⟩ := hchecks.preview
  obtain ⟨_, manifest, hload⟩ := hpreviewed (by rw [hpreview]; rfl)
  obtain ⟨_, hsnapshot⟩ := hchecks.snapshot
  have hsame : context.snapshotFiles = s.history.previewed :=
    (Prod.mk.inj (Except.ok.inj (hsnapshot.symm.trans hload))).2
  have hcurrent := hcall context hcontext
  have hfiles := (hrecorded proposalId _ hchecks.proposal).1
  have hagree : ∀ entry ∈ context.proposal.files,
      context.snapshotFiles[entry.path]? = (s.history.diagnosed proposalId).1[entry.path]? ∧
        context.candidateFiles[entry.path]? =
          (s.history.diagnosed proposalId).2[entry.path]? := by
    intro entry hentry
    have hrecords := hentry
    rw [hfiles, mem_proposalFiles] at hrecords
    exact same_change hentry hrecords hcurrent (hchecked entry hentry)
  refine ⟨hchecks.preview, ⟨_, hchecks.proposal, rfl⟩, ?_, ?_, ?_, ?_⟩
  · intro entry hentry
    rw [← hsame]
    exact (hagree entry hentry).1
  · intro entry hentry
    exact (hagree entry hentry).2
  · intro path hpath
    rw [← hsame]
    exact huntouched path hpath
  · intro entry hentry
    exact ⟨(hchecked entry hentry).allowed, root_of_allowed (hchecked entry hentry).allowed⟩

end Applies

section Drifted

theorem settled_proposed {env : Env} {s : RunStore} {diagnosedId newId : Text} {slot : ProjectSlot}
    {base made : FileMap} {files : List ProposalFile} {proposal : Proposal} {ticks : Nat}
    (hnone : ∀ proposalId, s.proposals proposalId = none)
    (hproposes : Proposes env s diagnosedId base made files)
    (hrecord : Unreviewed slot made proposal files) (previewId proposalId patchSha256 : Text) :
    Settled (proposed s slot newId proposal base made ticks) previewId proposalId patchSha256 := by
  intro context hcontext
  have hchecks := applyContext_eq_ok hcontext
  have hproposal : Function.update s.proposals newId (some proposal) proposalId =
      some context.proposal := hchecks.proposal
  change Current _ (Function.update s.history.diagnosed newId (base, made) proposalId).1
    (Function.update s.history.diagnosed newId (base, made) proposalId).2 _ _
  by_cases hid : proposalId = newId
  · rw [hid, Function.update_self] at hproposal ⊢
    obtain ⟨⟨read, result, hread, _, hbase, _, _⟩, _⟩ := id hproposes
    obtain ⟨_, hload⟩ := snapshot_of_diagnoseContext hread
    obtain ⟨_, hsnapshot⟩ := hchecks.snapshot
    obtain ⟨_, hstored⟩ := hrecord.candidate
    obtain ⟨_, hcandidate⟩ := hchecks.candidate
    have hsame : context.snapshotFiles = base :=
      (Prod.mk.inj (Except.ok.inj (hsnapshot.symm.trans hload))).2.trans hbase.symm
    have hmade : context.candidateFiles = made :=
      (Prod.mk.inj (Except.ok.inj (hcandidate.symm.trans hstored))).2
    rw [← Option.some.inj hproposal, hrecord.files_eq, files_of_proposes hproposes, hsame, hmade]
    exact current_self
  · rw [Function.update_of_ne hid, hnone] at hproposal
    contradiction

/-- The first proposal of a run is current as long as nothing else happens. -/
theorem settled_diagnosed {env : Env} {s : RunStore} (diagnosedId : Text)
    (hnone : ∀ proposalId, s.proposals proposalId = none)
    (previewId proposalId patchSha256 : Text) :
    Settled (step env s (.diagnose diagnosedId)) previewId proposalId patchSha256 := by
  refine After.result (p := fun _ s' => Settled s' previewId proposalId patchSha256) ?_
  have hreplaced : ∀ {slot ticks},
      Settled (replaced s .candidate slot ticks) previewId proposalId patchSha256 := by
    intro slot ticks context hcontext
    have hproposal := (applyContext_eq_ok hcontext).proposal
    exact absurd ((hnone proposalId).symm.trans hproposal) (by simp)
  unfold perform
  rw [after_map]
  refine (after_diagnose diagnosedId).mono ?_ ?_
  · rintro _ s' ⟨slot, ticks, _, rfl | ⟨base, made, files, proposal, hproposes, hrecord, rfl⟩⟩
    · exact hreplaced
    · exact settled_proposed hnone hproposes hrecord _ _ _
  · rintro _ s' ⟨slot, ticks, _, rfl | ⟨base, made, files, proposal, hproposes, hrecord, rfl, _⟩⟩
    · exact hreplaced
    · exact settled_proposed hnone hproposes hrecord _ _ _

def samplePatchSha256 : Text :=
  "34f0a1ba9f906ff6b255f79e7a9dfb98f2b6279397a7f8367ed8eceaa4e72051".toList

/-- The run after a proposal has been made. -/
def reviewedStore : RunStore :=
  run (step sampleEnv) sampleStore [samplePreview, .diagnose samplePreviewId]

theorem sampleEnv_undisturbed (s s' : RunStore) : ¬ Disturbed sampleEnv s s' := by
  rintro ⟨_, _, _, hfault⟩
  exact hfault rfl

def addedPath : Text :=
  "src/main/java/B.java".toList

/-- The agent adds a file. -/
def addingEnv : Env :=
  { sampleEnv with
    agent := fun _ _ => .ok ⟨some ⟨(∅ : FileMap).insert addedPath ['b'], ['e']⟩, ['y']⟩ }

/-- The developer adds a file of that name before the proposal is applied. -/
def editedStore : RunStore :=
  run (step addingEnv) sampleStore
    [samplePreview, .diagnose samplePreviewId,
      .preview ((sampleFiles ['a']).insert addedPath ['c']) ['A'] samplePath []]

def editedPreviewId : Text :=
  "55dc8b1e4ad8c3ef".toList

def addedPatchSha256 : Text :=
  "2b12454a18a5384551d091f2072b0c0a6c942458c77a0252bac2a812de8cb6c2".toList

def addedProposalId : Text :=
  "r-2b12454a18a5".toList

/-- The apply of the proposal that adds the file. -/
def addedApply : Option RepairReply :=
  resultOf (manualCompileRepairApply addingEnv editedPreviewId addedProposalId addedPatchSha256)
    editedStore

theorem addedApply_files :
    (addedApply.map fun reply =>
        (reply.proposal.files.map ProposalFile.path, reply.candidateProject.files[addedPath]?)) =
      some ([addedPath], some ['b']) ∧
      editedStore.history.previewed[addedPath]? = some ['c'] ∧
        (editedStore.history.diagnosed addedProposalId).1[addedPath]? = none := by
  decide +kernel

end Drifted

end C2c.Orchestrator.ProposalDrift
