import C2c.Orchestrator.ProposalDrift

namespace C2c.Orchestrator.SandboxReleases

open C2c.Library.JavaText
open C2c.Library.PythonText
open C2c.Library.Machine
open C2c.Library.Raising
open C2c.Orchestrator.JavaProject
open C2c.Orchestrator.ManualRepair
open C2c.Orchestrator.ProposalAgreement
open C2c.Orchestrator.RepairEffects
open C2c.Orchestrator.ProposalStates
open C2c.Orchestrator.ProposalDrift

/-- The reference of the manifest of files put into the sandbox. -/
def sandboxRefOf (files : FileMap) (entryClass entryFilePath : Text) : RunContract.Reference :=
  referenceOf SlotName.sandbox.manifestPath (manifestOf files entryClass entryFilePath).json

/-- The sandbox holds what a proposal's record refers to. -/
structure InForce (env : Env) (s : RunStore) (proposal : Proposal) (materialised : Materialised)
    (entryClass entryFilePath : Text) : Prop where
  files : loadManualCompileProject s.sandbox =
    .ok (manifestOf materialised.files entryClass entryFilePath, materialised.files)
  result : s.sandboxBuildTestResult = some materialised.buildTest
  candidateRef : proposal.sandboxCandidateRef =
    some (sandboxRefOf materialised.files entryClass entryFilePath)
  resultRef : proposal.sandboxBuildTestResultRef =
    some (materialised.buildTest.reference sandboxResultPath)
  built : ∃ tick input, env.build tick input = .ok materialised.buildTest ∧
    input.files = materialised.files
  difference : proposal.files =
    proposalFiles env.unifiedFileDiff materialised.snapshot materialised.files

/-- A proposal waits in the sandbox for its approval. -/
def InSandbox (s : RunStore) (proposalId : Text) : Prop :=
  ∃ proposal, s.proposals proposalId = some proposal ∧
    proposal.applicationState = .sandboxApplied

/-- Every proposal that waits in the sandbox is the one the sandbox holds. -/
def Held (env : Env) (s : RunStore) : Prop :=
  ∀ proposalId proposal, s.proposals proposalId = some proposal →
    proposal.applicationState = .sandboxApplied →
      ∃ materialised entryClass entryFilePath,
        s.history.applied proposalId = some materialised ∧
          InForce env s proposal materialised entryClass entryFilePath

/-- What holds of every store that separate calls reach. -/
structure Sound (env : Env) (s : RunStore) : Prop where
  recorded : Recorded env s
  held : Held env s

/-- An apply takes the sandbox only when no other proposal waits in it, finishes when
its own does, and leaves nothing open that hashes do not tell. -/
def Separate (env : Env) (s : RunStore) : Call → Prop
  | .apply previewId proposalId patchSha256 => ∀ context,
      applyContext s previewId proposalId patchSha256 = .ok context →
        (∀ other, other ≠ proposalId → ¬ InSandbox s other) ∧
          (InSandbox s proposalId →
            let s' := step env s (.apply previewId proposalId patchSha256)
            ¬ Disturbed env s s' ∧ ¬ Unbuilt env s s') ∧
            Settled s previewId proposalId patchSha256
  | _ => True

/-- What an accept releases: the files of the last apply of the proposal, the result
of building them, under the hash of the changes that made them. -/
structure Releases (env : Env) (s : RunStore) (proposalId patchSha256 : Text)
    (reply : RepairReply) (materialised : Materialised) : Prop where
  last : s.history.applied proposalId = some materialised
  files : reply.candidateProject.files = materialised.files
  candidateRef : reply.proposal.sandboxCandidateRef =
    some (sandboxRefOf materialised.files reply.candidateProject.entryClass
      reply.candidateProject.entryFilePath)
  result : reply.buildTest = materialised.buildTest
  resultRef : reply.proposal.sandboxBuildTestResultRef =
    some (materialised.buildTest.reference sandboxResultPath)
  built : ∃ tick input, env.build tick input = .ok reply.buildTest ∧
    input.files = reply.candidateProject.files
  patch : strip patchSha256 = canonicalPatchSha
    (proposalFiles env.unifiedFileDiff materialised.snapshot reply.candidateProject.files)
  reviewed : strip patchSha256 = canonicalPatchSha
    (proposalFiles env.unifiedFileDiff (s.history.diagnosed proposalId).1
      (s.history.diagnosed proposalId).2)

/-- An accept releases what the last apply of its proposal put into the sandbox. -/
def AcceptReleases (env : Env) (s : RunStore) (requester proposalId patchSha256 : Text) : Prop :=
  ∀ reply s', manualCompileRepairAccept env requester proposalId patchSha256 s = .ok reply s' →
    ∃ materialised, Releases env s proposalId patchSha256 reply materialised

section Steps

variable {env : Env} {s s' : RunStore}

theorem held_same (h : Held env s) (hproposals : s'.proposals = s.proposals)
    (happlied : s'.history.applied = s.history.applied) (hsandbox : s'.sandbox = s.sandbox)
    (hresult : s'.sandboxBuildTestResult = s.sandboxBuildTestResult) : Held env s' := by
  intro proposalId proposal hproposal hstate
  rw [hproposals] at hproposal
  obtain ⟨materialised, entryClass, entryFilePath, hlast, hforce⟩ :=
    h proposalId proposal hproposal hstate
  rw [happlied]
  refine ⟨materialised, entryClass, entryFilePath, hlast, ?_⟩
  exact { hforce with
    files := hsandbox ▸ hforce.files
    result := hresult ▸ hforce.result }

/-- The record of a proposal that does not wait in the sandbox. -/
theorem held_update {proposalId : Text} {proposal : Proposal} (h : Held env s)
    (hproposals : s'.proposals = Function.update s.proposals proposalId (some proposal))
    (happlied : s'.history.applied = s.history.applied) (hsandbox : s'.sandbox = s.sandbox)
    (hresult : s'.sandboxBuildTestResult = s.sandboxBuildTestResult)
    (hstate : proposal.applicationState ≠ .sandboxApplied) : Held env s' := by
  have hrest : Held env { s' with proposals := s.proposals } :=
    held_same h rfl happlied hsandbox hresult
  intro other given hgiven hwaiting
  rw [hproposals] at hgiven
  by_cases hid : other = proposalId
  · rw [hid, Function.update_self] at hgiven
    obtain rfl := Option.some.inj hgiven
    exact absurd hwaiting hstate
  · rw [Function.update_of_ne hid] at hgiven
    obtain ⟨materialised, entryClass, entryFilePath, hlast, hforce⟩ :=
      hrest other given hgiven hwaiting
    exact ⟨materialised, entryClass, entryFilePath, hlast, { hforce with }⟩

theorem difference_of_checks {previewId proposalId patchSha256 : Text} {context : ApplyContext}
    (hrecorded : Recorded env s)
    (hcontext : applyContext s previewId proposalId patchSha256 = .ok context)
    (hsettled : Settled s previewId proposalId patchSha256) :
    context.proposal.files =
      proposalFiles env.unifiedFileDiff context.snapshotFiles context.candidateFiles := by
  have hchecks := applyContext_eq_ok hcontext
  have hcurrent := hsettled context hcontext
  obtain ⟨hchecked, huntouched⟩ := agreed_of_checks hrecorded hchecks
  have hfiles := (hrecorded proposalId _ hchecks.proposal).1
  rw [hfiles] at hcurrent hchecked huntouched
  exact hfiles.trans (proposalFiles_of_checked hcurrent hchecked huntouched).symm

/-- An apply that reaches its record holds the sandbox alone. -/
theorem held_applied {previewId proposalId patchSha256 : Text} {context : ApplyContext}
    {slot : ProjectSlot} {buildTest : BuildResult} {proposal : Proposal} {ticks : Nat}
    (hrecorded : Recorded env s)
    (hcontext : applyContext s previewId proposalId patchSha256 = .ok context)
    (hcall : Separate env s (.apply previewId proposalId patchSha256))
    (hmaterialises : Materialises env s context slot buildTest proposal) :
    Held env (applied (sandboxed s slot (some buildTest) ticks) proposalId proposal
      ⟨context.snapshotFiles, context.candidateFiles, buildTest⟩) := by
  obtain ⟨halone, _, hsettled⟩ := hcall context hcontext
  have hrecord := hmaterialises.record
  intro other given hgiven hwaiting
  change Function.update s.proposals proposalId (some proposal) other = some given at hgiven
  change ∃ _ _ _, Function.update s.history.applied proposalId _ other = some _ ∧ _
  by_cases hid : other = proposalId
  · rw [hid, Function.update_self] at hgiven
    obtain rfl := Option.some.inj hgiven
    rw [hid, Function.update_self]
    obtain ⟨tick, hbuilt⟩ := hmaterialises.built
    refine ⟨_, context.entryClass, context.entryFilePath, rfl, ?_⟩
    exact
      { files := hmaterialises.slot_eq
        result := rfl
        candidateRef := hrecord.candidateRef
        resultRef := hrecord.resultRef
        built := ⟨tick, _, hbuilt, rfl⟩
        difference := hrecord.files.trans
          (difference_of_checks hrecorded hcontext hsettled) }
  · rw [Function.update_of_ne hid] at hgiven
    exact absurd ⟨given, hgiven, hwaiting⟩ (halone other hid)

/-- No proposal waits in a sandbox that an apply leaves unfinished. -/
theorem held_unfinished {previewId proposalId patchSha256 : Text} {context : ApplyContext}
    {slot : ProjectSlot} {result : Option BuildResult} {ticks : Nat}
    (hcontext : applyContext s previewId proposalId patchSha256 = .ok context)
    (hcall : Separate env s (.apply previewId proposalId patchSha256))
    (hstep : step env s (.apply previewId proposalId patchSha256) = sandboxed s slot result ticks)
    (hfailed : Disturbed env s (sandboxed s slot result ticks) ∨
      Unbuilt env s (sandboxed s slot result ticks)) : Held env (sandboxed s slot result ticks) := by
  obtain ⟨halone, hfinishes, _⟩ := hcall context hcontext
  rw [hstep] at hfinishes
  intro other given hgiven hwaiting
  have hother : InSandbox s other := ⟨given, hgiven, hwaiting⟩
  by_cases hid : other = proposalId
  · rw [hid] at hother
    obtain ⟨hundisturbed, hbuilt⟩ := hfinishes hother
    rcases hfailed with hdisturbed | hunbuilt
    · exact absurd hdisturbed hundisturbed
    · exact absurd hunbuilt hbuilt
  · exact absurd hother (halone other hid)

theorem held_apply {previewId proposalId patchSha256 : Text} (hrecorded : Recorded env s)
    (h : Held env s) (hcall : Separate env s (.apply previewId proposalId patchSha256)) :
    Held env (step env s (.apply previewId proposalId patchSha256)) := by
  generalize hcallDef : Call.apply previewId proposalId patchSha256 = call
  suffices hall : step env s call = step env s call → Held env (step env s call) from hall rfl
  refine After.result (p := fun _ s' => step env s call = s' → Held env s') ?_
  subst hcallDef
  unfold perform
  rw [after_map]
  refine (after_apply previewId proposalId patchSha256).mono ?_ ?_
  · rintro reply s' ⟨context, slot, ticks, hcontext, _, hmaterialises, _, rfl⟩ _
    exact held_applied hrecorded hcontext hcall hmaterialises
  · rintro e s' (rfl | ⟨context, slot, result, ticks, hcontext, _,
      ⟨rfl, hfailed⟩ | ⟨buildTest, proposal, hmaterialises, rfl, _⟩⟩) hstep
    · exact h
    · exact held_unfinished hcontext hcall hstep hfailed
    · exact held_applied hrecorded hcontext hcall hmaterialises

theorem held_step (hrecorded : Recorded env s) (h : Held env s) {call : Call}
    (hcall : Separate env s call) : Held env (step env s call) := by
  cases call with
  | preview javaFiles entryClass entryFilePath regions =>
      refine After.result (p := fun _ s' => Held env s') ?_
      unfold perform
      rw [after_map]
      refine (after_preview javaFiles entryClass entryFilePath regions).mono ?_ ?_
      · rintro _ s' ⟨slot, ticks, rfl, _⟩
        exact held_same h rfl rfl rfl rfl
      · rintro _ s' (rfl | ⟨slot, preview, files, ticks, rfl, _⟩)
        · exact h
        · exact held_same h rfl rfl rfl rfl
  | diagnose previewId =>
      refine After.result (p := fun _ s' => Held env s') ?_
      unfold perform
      rw [after_map]
      have hnot : ∀ {slot made proposal files}, Unreviewed slot made proposal files →
          proposal.applicationState ≠ .sandboxApplied := by
        intro slot made proposal files hrecord
        rw [hrecord.application]
        decide
      refine (after_diagnose previewId).mono ?_ ?_
      · rintro _ s' ⟨slot, ticks, _, rfl | ⟨_, _, _, _, _, hrecord, rfl⟩⟩
        · exact held_same h rfl rfl rfl rfl
        · exact held_update h rfl rfl rfl rfl (hnot hrecord)
      · rintro _ s' ⟨slot, ticks, _, rfl | ⟨_, _, _, _, _, hrecord, rfl, _⟩⟩
        · exact held_same h rfl rfl rfl rfl
        · exact held_update h rfl rfl rfl rfl (hnot hrecord)
  | apply previewId proposalId patchSha256 => exact held_apply hrecorded h hcall
  | accept requester proposalId patchSha256 =>
      refine After.result (p := fun _ s' => Held env s') ?_
      unfold perform
      rw [after_map]
      have hnot : ∀ {persisted proposal : Proposal} {record : ApprovalRecord},
          Approves persisted proposal record → proposal.applicationState ≠ .sandboxApplied := by
        rintro persisted proposal record ⟨_, _, rfl, _⟩
        simp
      refine (after_accept requester proposalId patchSha256).mono ?_ ?_
      · rintro reply s' ⟨_, _, _, _, _, happroves, _, _, _, rfl⟩
        exact held_update h rfl rfl rfl rfl (hnot happroves)
      · rintro e s' (⟨ticks, rfl, _⟩ | ⟨_, _, _, _, _, _, ⟨_, happroves⟩, rfl⟩)
        · exact held_same h rfl rfl rfl rfl
        · exact held_update h rfl rfl rfl rfl (hnot happroves)
  | reject requester proposalId =>
      refine After.result (p := fun _ s' => Held env s') ?_
      unfold perform
      rw [after_map]
      have hnot : ∀ {persisted proposal : Proposal} {record : ApprovalRecord},
          Rejects persisted proposal record → proposal.applicationState ≠ .sandboxApplied := by
        rintro persisted proposal record ⟨rfl, _⟩
        simp
      refine (after_reject requester proposalId).mono ?_ ?_
      · rintro proposal s' ⟨_, _, _, hrejects, rfl⟩
        exact held_update h rfl rfl rfl rfl (hnot hrejects)
      · rintro e s' (⟨ticks, rfl, _⟩ | ⟨_, _, _, _, _, _, ⟨_, hrejects⟩, rfl⟩)
        · exact held_same h rfl rfl rfl rfl
        · exact held_update h rfl rfl rfl rfl (hnot hrejects)

/-- What an accept releases of a sandbox that holds its proposal. -/
theorem releases_of_held {requester proposalId patchSha256 : Text} {reply : RepairReply}
    (hrecorded : Recorded env s) (h : Held env s)
    (hreturns : manualCompileRepairAccept env requester proposalId patchSha256 s = .ok reply s') :
    ∃ materialised, Releases env s proposalId patchSha256 reply materialised := by
  have haccept : After (manualCompileRepairAccept env requester proposalId patchSha256) _ _ s :=
    after_accept requester proposalId patchSha256
  rw [After, hreturns] at haccept
  obtain ⟨persisted, manifest, files, record, hpersisted, ⟨approval, _, hreply, _⟩, hload, hresult,
    hproject, _⟩ := haccept
  obtain ⟨hproposal, hstate, _, hpatch⟩ := acceptProposal_eq_ok hpersisted
  obtain ⟨materialised, entryClass, entryFilePath, hlast, hforce⟩ := h _ _ hproposal hstate
  obtain ⟨hdescribes, hhash⟩ := hrecorded _ _ hproposal
  obtain ⟨rfl, rfl⟩ := Prod.mk.inj (Except.ok.inj (hload.symm.trans hforce.files))
  have hbuild : reply.buildTest = materialised.buildTest :=
    Option.some.inj (hresult.symm.trans hforce.result)
  refine ⟨materialised, ?_⟩
  exact
    { last := hlast
      files := by rw [hproject]
      candidateRef := by
        rw [hreply, hproject]
        exact hforce.candidateRef
      result := hbuild
      resultRef := by
        rw [hreply]
        exact hforce.resultRef
      built := by
        rw [hbuild, hproject]
        exact hforce.built
      patch := by rw [hpatch, hhash, hforce.difference, hproject]
      reviewed := by rw [hpatch, hhash, hdescribes] }

end Steps

section Released

/-- A proposal that has just been made does not wait in the sandbox. -/
theorem not_inSandbox_diagnosed {env : Env} {s : RunStore} (previewId : Text)
    (hnone : ∀ proposalId, s.proposals proposalId = none) (proposalId : Text) :
    ¬ InSandbox (step env s (.diagnose previewId)) proposalId := by
  refine After.result (p := fun _ s' => ¬ InSandbox s' proposalId) ?_
  have hproposed : ∀ {slot newId proposal files base made ticks}, Unreviewed slot made proposal files →
      ¬ InSandbox (proposed s slot newId proposal base made ticks) proposalId := by
    rintro slot newId proposal files base made ticks hrecord ⟨given, hgiven, hwaiting⟩
    change Function.update s.proposals newId (some proposal) proposalId = some given at hgiven
    by_cases hid : proposalId = newId
    · rw [hid, Function.update_self] at hgiven
      obtain rfl := Option.some.inj hgiven
      exact absurd (hrecord.application.symm.trans hwaiting) (by decide)
    · rw [Function.update_of_ne hid, hnone] at hgiven
      contradiction
  have hreplaced : ∀ {slot ticks}, ¬ InSandbox (replaced s .candidate slot ticks) proposalId := by
    rintro slot ticks ⟨given, hgiven, _⟩
    exact absurd ((hnone proposalId).symm.trans hgiven) (by simp)
  unfold perform
  rw [after_map]
  refine (after_diagnose previewId).mono ?_ ?_
  · rintro _ s' ⟨slot, ticks, _, rfl | ⟨_, _, _, _, _, hrecord, rfl⟩⟩
    · exact hreplaced
    · exact hproposed hrecord
  · rintro _ s' ⟨slot, ticks, _, rfl | ⟨_, _, _, _, _, hrecord, rfl, _⟩⟩
    · exact hreplaced
    · exact hproposed hrecord

/-- The run after its one proposal has been applied. -/
def appliedStore : RunStore :=
  run (step sampleEnv) sampleStore
    [samplePreview, .diagnose samplePreviewId,
      .apply samplePreviewId sampleProposalId samplePatchSha256]

/-- The agent answers differently when it is asked again. -/
def changingEnv : Env :=
  { sampleEnv with
    agent := fun tick _ =>
      .ok ⟨some ⟨sampleFiles (if tick ≤ 3 then ['b'] else ['c']), ['e']⟩, ['y']⟩ }

def otherPatchSha256 : Text :=
  "872e2f26032a0e81965424cae6a49856629e99172228ad995783a79231065303".toList

def otherProposalId : Text :=
  "r-872e2f26032a".toList

/-- The run after two proposals have been applied, one after the other. -/
def sharedStore : RunStore :=
  run (step changingEnv) sampleStore
    [samplePreview, .diagnose samplePreviewId,
      .apply samplePreviewId sampleProposalId samplePatchSha256, .diagnose samplePreviewId,
      .apply samplePreviewId otherProposalId otherPatchSha256]

/-- The accept of the first of them. -/
def sharedAccept : Option RepairReply :=
  resultOf (manualCompileRepairAccept changingEnv [] sampleProposalId samplePatchSha256) sharedStore

theorem sharedAccept_files :
    (sharedAccept.map fun reply => reply.candidateProject.files[samplePath]?) = some (some ['c']) ∧
      ((sharedStore.history.applied sampleProposalId).map fun materialised =>
        materialised.files[samplePath]?) = some (some ['b']) := by
  decide +kernel

end Released

end C2c.Orchestrator.SandboxReleases
