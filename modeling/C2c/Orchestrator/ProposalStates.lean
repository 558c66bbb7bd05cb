import C2c.Library.Machine
import C2c.Orchestrator.RepairEffects

namespace C2c.Orchestrator.ProposalStates

open C2c.Library.JavaText
open C2c.Library.Machine
open C2c.Library.Raising
open C2c.Orchestrator.JavaProject
open C2c.Orchestrator.ManualRepair
open C2c.Orchestrator.ProposalAgreement
open C2c.Orchestrator.RepairEffects

inductive Call
  | preview (javaFiles : FileMap) (entryClass entryFilePath : Text) (regions : List ManualRegion)
  | diagnose (previewId : Text)
  | apply (previewId proposalId patchSha256 : Text)
  | accept (requester proposalId patchSha256 : Text)
  | reject (requester proposalId : Text)

section Calls

variable (env : Env)

def perform : Call → Op PUnit
  | .preview javaFiles entryClass entryFilePath regions =>
      (fun _ => ⟨⟩) <$>
        manualCompileRepairPreview env javaFiles entryClass entryFilePath regions
  | .diagnose previewId => (fun _ => ⟨⟩) <$> manualCompileRepairDiagnose env previewId
  | .apply previewId proposalId patchSha256 =>
      (fun _ => ⟨⟩) <$> manualCompileRepairApply env previewId proposalId patchSha256
  | .accept requester proposalId patchSha256 =>
      (fun _ => ⟨⟩) <$> manualCompileRepairAccept env requester proposalId patchSha256
  | .reject requester proposalId =>
      (fun _ => ⟨⟩) <$> manualCompileRepairReject env requester proposalId

/-- The artifacts of the run after a call that returns or raises. -/
def step (s : RunStore) (call : Call) : RunStore :=
  stateAfter (perform env call) s

/-- What a call raises. -/
def raises (s : RunStore) (call : Call) : Option RepairError :=
  errorOf (perform env call) s

end Calls

/-- A run whose build has been tested and that nobody has repaired by hand. -/
structure Fresh (s : RunStore) : Prop where
  preview : s.preview = none
  proposals : ∀ proposalId, s.proposals proposalId = none
  approvals : ∀ proposalId, s.approvals proposalId = none

/-- What the states of a proposal become by one call. -/
inductive Move : Option (ApplicationState × ApprovalState) →
    Option (ApplicationState × ApprovalState) → Prop
  | unchanged (states : Option (ApplicationState × ApprovalState)) : Move states states
  | created : Move none (some (.reviewPending, .pending))
  | applied : Move (some (.reviewPending, .pending)) (some (.sandboxApplied, .pending))
  | accepted : Move (some (.sandboxApplied, .pending)) (some (.applied, .approved))
  | rejected : Move (some (.reviewPending, .pending)) (some (.rejected, .rejected))

def states (proposal : Proposal) : ApplicationState × ApprovalState :=
  (proposal.applicationState, proposal.approvalState)

/-- The states of a proposal of the run. -/
def statesOf (s : RunStore) (proposalId : Text) : Option (ApplicationState × ApprovalState) :=
  (s.proposals proposalId).map states

def Final (proposal : Proposal) : Prop :=
  proposal.applicationState = .applied ∨ proposal.applicationState = .rejected

/-- An approval record that says what the proposal's says. -/
def Confirms (proposal : Proposal) : ApprovalRecord → Prop
  | .approved approvedBy approvedAt patchSha256 candidateRef resultRef =>
      states proposal = (.applied, .approved) ∧
        proposal.developerApproval = some ⟨approvedBy, approvedAt, patchSha256⟩ ∧
          patchSha256 = proposal.patchSha256 ∧ candidateRef = proposal.sandboxCandidateRef ∧
            resultRef = proposal.sandboxBuildTestResultRef
  | .rejected _ _ patchSha256 =>
      states proposal = (.rejected, .rejected) ∧ patchSha256 = proposal.patchSha256

/-- The approval record of a proposal is there exactly when the proposal is final,
and agrees with it. -/
def Agrees : Option Proposal → Option ApprovalRecord → Prop
  | none, record => record = none
  | some proposal, none => ¬ Final proposal
  | some proposal, some record => Confirms proposal record

def AllAgree (s : RunStore) : Prop :=
  ∀ proposalId, Agrees (s.proposals proposalId) (s.approvals proposalId)

/-- What the lifecycle of proposals allows of one call. -/
structure Lawful (s : RunStore) (error : Option RepairError) (s' : RunStore) : Prop where
  moves : ∀ proposalId, Move (statesOf s proposalId) (statesOf s' proposalId)
  final : ∀ proposalId proposal, s.proposals proposalId = some proposal → Final proposal →
    s'.proposals proposalId = some proposal
  agree : AllAgree s'
  raising : error ≠ none → s'.proposals = s.proposals

/-- A call that writes over no decision, and whose record of a proposal is written
as a whole or not at all. -/
def Steady (env : Env) (s : RunStore) : Call → Prop
  | .preview _ _ _ _ => True
  | .diagnose previewId => ∀ base made files, Proposes env s previewId base made files →
      Move (statesOf s (proposalIdOf env.runId (canonicalPatchSha files)))
        (some (.reviewPending, .pending)) ∧ ¬ HalfRecorded env s made
  | .apply previewId proposalId patchSha256 => ∀ context,
      applyContext s previewId proposalId patchSha256 = .ok context →
        ¬ HalfRecorded env s context.candidateFiles
  | .accept _ proposalId patchSha256 => ∀ proposal,
      acceptProposal s proposalId patchSha256 = .ok proposal → Settles env s
  | .reject _ proposalId => ∀ proposal,
      rejectProposal s proposalId = .ok proposal → Settles env s

section Steps

variable {env : Env} {s s' : RunStore}

theorem lawful_same {error : Option RepairError} (hagree : AllAgree s)
    (hproposals : s'.proposals = s.proposals) (happrovals : s'.approvals = s.approvals) :
    Lawful s error s' := by
  refine ⟨?_, ?_, ?_, fun _ => hproposals⟩
  · intro proposalId
    unfold statesOf
    rw [hproposals]
    exact .unchanged _
  · intro proposalId proposal hproposal _
    rw [hproposals]
    exact hproposal
  · intro proposalId
    rw [hproposals, happrovals]
    exact hagree proposalId

/-- A call that writes the record of one proposal. -/
theorem lawful_update {proposalId : Text} {proposal : Proposal} (hagree : AllAgree s)
    (hproposals : s'.proposals = Function.update s.proposals proposalId (some proposal))
    (happrovals : ∀ other, other ≠ proposalId → s'.approvals other = s.approvals other)
    (hmove : Move (statesOf s proposalId) (some (states proposal)))
    (hopen : ∀ before, s.proposals proposalId = some before → ¬ Final before)
    (hrecord : Agrees (some proposal) (s'.approvals proposalId)) : Lawful s none s' := by
  have hsame : s'.proposals proposalId = some proposal := by
    rw [hproposals, Function.update_self]
  have hother : ∀ other, other ≠ proposalId → s'.proposals other = s.proposals other := by
    intro other hne
    rw [hproposals, Function.update_of_ne hne]
  refine ⟨?_, ?_, ?_, fun hraises => absurd rfl hraises⟩
  · intro other
    by_cases hid : other = proposalId
    · rw [hid, show statesOf s' proposalId = some (states proposal) by rw [statesOf, hsame]; rfl]
      exact hmove
    · unfold statesOf
      rw [hother other hid]
      exact .unchanged _
  · intro other before hbefore hfinal
    by_cases hid : other = proposalId
    · rw [hid] at hbefore
      exact absurd hfinal (hopen before hbefore)
    · rw [hother other hid, hbefore]
  · intro other
    by_cases hid : other = proposalId
    · rw [hid, hsame]
      exact hrecord
    · rw [hother other hid, happrovals other hid]
      exact hagree other

theorem not_final_of_pending {proposal : Proposal}
    (h : proposal.applicationState = .reviewPending ∨ proposal.applicationState = .sandboxApplied) :
    ¬ Final proposal := by
  rintro (happlied | hrejected)
  · rcases h with h | h
    · exact absurd (h.symm.trans happlied) (by decide)
    · exact absurd (h.symm.trans happlied) (by decide)
  · rcases h with h | h
    · exact absurd (h.symm.trans hrejected) (by decide)
    · exact absurd (h.symm.trans hrejected) (by decide)

/-- A proposal nobody has decided on has no approval record. -/
theorem no_approval (hagree : AllAgree s) {proposalId : Text}
    (hopen : ∀ proposal, s.proposals proposalId = some proposal → ¬ Final proposal) :
    s.approvals proposalId = none := by
  have hrecord := hagree proposalId
  cases hproposal : s.proposals proposalId with
  | none =>
      rw [hproposal] at hrecord
      exact hrecord
  | some proposal =>
      cases happroval : s.approvals proposalId with
      | none => rfl
      | some record =>
          rw [hproposal, happroval] at hrecord
          refine absurd ?_ (hopen proposal hproposal)
          cases record with
          | approved _ _ _ _ _ => exact .inl (Prod.mk.inj hrecord.1).1
          | rejected _ _ _ => exact .inr (Prod.mk.inj hrecord.1).1

theorem open_of_reviewPending {proposalId : Text}
    (h : Move (statesOf s proposalId) (some (.reviewPending, .pending))) {proposal : Proposal}
    (hproposal : s.proposals proposalId = some proposal) : ¬ Final proposal := by
  have hstates : statesOf s proposalId = some (states proposal) := by
    rw [statesOf, hproposal]
    rfl
  rw [hstates] at h
  refine not_final_of_pending (.inl ?_)
  generalize hgiven : states proposal = given at h
  cases h with
  | unchanged => exact (Prod.mk.inj hgiven).1

theorem lawful_proposed {previewId : Text} {base made : FileMap} {files : List ProposalFile}
    {proposal : Proposal} {slot : ProjectSlot} {ticks : Nat} (hagree : AllAgree s)
    (hcall : Steady env s (.diagnose previewId)) (hproposes : Proposes env s previewId base made files)
    (hrecord : Unreviewed slot made proposal files) :
    Lawful s none (proposed s slot (proposalIdOf env.runId (canonicalPatchSha files)) proposal base
      made ticks) := by
  obtain ⟨hmove, _⟩ := hcall base made files hproposes
  have hstates : states proposal = (.reviewPending, .pending) :=
    Prod.ext hrecord.application hrecord.approval
  refine lawful_update hagree rfl (fun _ _ => rfl) (hstates ▸ hmove)
    (fun _ h => open_of_reviewPending hmove h) ?_
  rw [show (proposed s slot _ proposal base made ticks).approvals = s.approvals from rfl,
    no_approval hagree fun _ h => open_of_reviewPending hmove h]
  exact not_final_of_pending (.inl hrecord.application)

theorem lawful_applied {previewId proposalId patchSha256 : Text} {context : ApplyContext}
    {slot : ProjectSlot} {buildTest : BuildResult} {proposal : Proposal} {ticks : Nat}
    {materialised : Materialised} (hagree : AllAgree s)
    (hchecks : Checks s previewId proposalId patchSha256 context)
    (hmaterialises : Materialises env s context slot buildTest proposal) :
    Lawful s none (applied (sandboxed s slot (some buildTest) ticks) proposalId proposal
      materialised) := by
  have hrecord := hmaterialises.record
  have hopen : ∀ before, s.proposals proposalId = some before → ¬ Final before := by
    intro before hbefore
    obtain rfl := Option.some.inj (hbefore.symm.trans hchecks.proposal)
    exact not_final_of_pending hchecks.application
  have hafter : states proposal = (.sandboxApplied, .pending) :=
    Prod.ext hrecord.application hrecord.approval
  have hbefore : statesOf s proposalId = some (states context.proposal) := by
    rw [statesOf, hchecks.proposal]
    rfl
  refine lawful_update hagree rfl (fun _ _ => rfl) ?_ hopen ?_
  · rw [hbefore, hafter]
    rcases hchecks.application with happlication | happlication
    · rw [show states context.proposal = (.reviewPending, .pending) from
        Prod.ext happlication hchecks.approval]
      exact .applied
    · rw [show states context.proposal = (.sandboxApplied, .pending) from
        Prod.ext happlication hchecks.approval]
      exact .unchanged _
  · rw [show (applied (sandboxed s slot (some buildTest) ticks) proposalId proposal
      materialised).approvals = s.approvals from rfl, no_approval hagree hopen]
    exact not_final_of_pending (.inr hrecord.application)

theorem lawful_decided {proposalId : Text} {persisted proposal : Proposal}
    {record : ApprovalRecord} {ticks : Nat} (hagree : AllAgree s)
    (hproposal : s.proposals proposalId = some persisted) (hopen : ¬ Final persisted)
    (hmove : Move (some (states persisted)) (some (states proposal)))
    (hconfirms : Confirms proposal record) :
    Lawful s none (decided s proposalId proposal
      (Function.update s.approvals proposalId (some record)) ticks) := by
  refine lawful_update hagree rfl ?_ ?_ ?_ ?_
  · intro other hne
    exact Function.update_of_ne hne _ _
  · rw [statesOf, hproposal]
    exact hmove
  · intro before hbefore
    obtain rfl := Option.some.inj (hbefore.symm.trans hproposal)
    exact hopen
  · rw [show (decided s proposalId proposal (Function.update s.approvals proposalId (some record))
      ticks).approvals proposalId = some record from Function.update_self _ _ _]
    exact hconfirms

/-- One call is lawful, if it is steady. -/
theorem lawful_step (hagree : AllAgree s) {call : Call} (hcall : Steady env s call) :
    Lawful s (raises env s call) (step env s call) := by
  refine After.result (p := fun error s' => Lawful s error s') ?_
  cases call with
  | preview javaFiles entryClass entryFilePath regions =>
      unfold perform
      rw [after_map]
      refine (after_preview javaFiles entryClass entryFilePath regions).mono ?_ ?_
      · rintro _ s' ⟨slot, ticks, rfl, _⟩
        exact lawful_same hagree rfl rfl
      · rintro e s' (rfl | ⟨slot, preview, files, ticks, rfl, _⟩)
        · exact lawful_same hagree rfl rfl
        · exact lawful_same hagree rfl rfl
  | diagnose previewId =>
      unfold perform
      rw [after_map]
      refine (after_diagnose previewId).mono ?_ ?_
      · rintro _ s' ⟨slot, ticks, _, rfl | ⟨base, made, files, proposal, hproposes, hrecord, rfl⟩⟩
        · exact lawful_same hagree rfl rfl
        · exact lawful_proposed hagree hcall hproposes hrecord
      · rintro e s' ⟨slot, ticks, _, rfl | ⟨base, made, files, proposal, hproposes, _, rfl, hhalf⟩⟩
        · exact lawful_same hagree rfl rfl
        · exact absurd hhalf (hcall base made files hproposes).2
  | apply previewId proposalId patchSha256 =>
      unfold perform
      rw [after_map]
      refine (after_apply previewId proposalId patchSha256).mono ?_ ?_
      · rintro reply s' ⟨context, slot, ticks, hcontext, _, hmaterialises, _, rfl⟩
        exact lawful_applied hagree (applyContext_eq_ok hcontext) hmaterialises
      · rintro e s' (rfl | ⟨context, slot, result, ticks, hcontext, _,
          ⟨rfl, _⟩ | ⟨buildTest, proposal, _, _, hhalf⟩⟩)
        · exact lawful_same hagree rfl rfl
        · exact lawful_same hagree rfl rfl
        · exact absurd hhalf (hcall context hcontext)
  | accept requester proposalId patchSha256 =>
      unfold perform
      rw [after_map]
      refine (after_accept requester proposalId patchSha256).mono ?_ ?_
      · rintro reply s' ⟨persisted, _, _, record, haccept, happroves, _, _, _, rfl⟩
        obtain ⟨hproposal, happlication, happroval, _⟩ := acceptProposal_eq_ok haccept
        obtain ⟨approval, hpatch, hreply, rfl⟩ := happroves
        refine lawful_decided hagree hproposal (not_final_of_pending (.inr happlication)) ?_ ?_
        · rw [hreply, show states persisted = (.sandboxApplied, .pending) from
            Prod.ext happlication happroval]
          exact .accepted
        · rw [hreply]
          exact ⟨rfl, rfl, hpatch, rfl, rfl⟩
      · rintro e s' (⟨ticks, rfl, _⟩ | ⟨hsettles, persisted, _, _, _, haccept, _⟩)
        · exact lawful_same hagree rfl rfl
        · exact absurd (hcall persisted haccept) hsettles
  | reject requester proposalId =>
      unfold perform
      rw [after_map]
      refine (after_reject requester proposalId).mono ?_ ?_
      · rintro proposal s' ⟨persisted, record, hreject, ⟨rfl, _, _, rfl⟩, rfl⟩
        obtain ⟨hproposal, happlication, happroval⟩ := rejectProposal_eq_ok hreject
        refine lawful_decided hagree hproposal (not_final_of_pending (.inl happlication)) ?_ ?_
        · rw [show states persisted = (.reviewPending, .pending) from
            Prod.ext happlication happroval]
          exact .rejected
        · exact ⟨rfl, rfl⟩
      · rintro e s' (⟨ticks, rfl, _⟩ | ⟨hsettles, persisted, _, _, _, hreject, _⟩)
        · exact lawful_same hagree rfl rfl
        · exact absurd (hcall persisted hreject) hsettles

end Steps

section Undone

/-- What `difflib` gives for files of at most one line. -/
def oneLineDiff (path before after : Text) : Text :=
  let range (content : Text) : Text := if content = [] then "0,0".toList else ['1']
  let line (sign : Char) (content : Text) : Text :=
    if content = [] then [] else '\n' :: sign :: content
  "--- a/".toList ++ path ++ "\n+++ b/".toList ++ path ++ "\n@@ -".toList ++ range before ++
    " +".toList ++ range after ++ " @@".toList ++ line '-' before ++ line '+' after

def samplePath : Text :=
  "src/main/java/A.java".toList

def sampleFiles (content : Text) : FileMap :=
  (∅ : FileMap).insert samplePath content

def sampleBuild : BuildResult where
  json := "\x7b\x7d".toList
  failure := some .javaCompileFailed

/-- A run with one file, whose build has failed. -/
def sampleStore : RunStore where
  baselineFiles := sampleFiles ['a']
  baselineRef := none
  buildTestResult := some sampleBuild

/-- Nothing fails, and the agent always answers with the same file. -/
def sampleEnv : Env where
  runId := ['r']
  serviceName := ['s']
  fault := fun _ => .none
  agent := fun _ _ => .ok ⟨some ⟨sampleFiles ['b'], ['e']⟩, ['y']⟩
  build := fun _ _ => .ok sampleBuild
  now := fun _ => ['t']
  unifiedFileDiff := oneLineDiff

def samplePreview : Call :=
  .preview (sampleFiles ['a']) ['A'] samplePath []

def samplePreviewId : Text :=
  "1d0a30fc9d28e891".toList

def sampleProposalId : Text :=
  "r-34f0a1ba9f90".toList

theorem sampleStore_fresh : Fresh sampleStore :=
  ⟨rfl, fun _ => rfl, fun _ => rfl⟩

/-- The run after a proposal has been rejected. -/
def rejectedStore : RunStore :=
  run (step sampleEnv) sampleStore
    [samplePreview, .diagnose samplePreviewId, .reject [] sampleProposalId]

theorem states_rejectedStore :
    (statesOf rejectedStore sampleProposalId,
      statesOf (step sampleEnv rejectedStore (.diagnose samplePreviewId)) sampleProposalId) =
    (some (.rejected, .rejected), some (.reviewPending, .pending)) := by
  decide +kernel

end Undone

end C2c.Orchestrator.ProposalStates
