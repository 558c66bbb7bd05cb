import C2c.Orchestrator.RunAgents

/-!
What a build/test payload says of its run, and the failure the orchestrator reads
in it.
-/

namespace C2c.Orchestrator.BuildOutcomes

open C2c.Library.JavaText
open C2c.Library.PythonText
open C2c.Library.PythonJson
open C2c.Orchestrator.RunContract
open C2c.Orchestrator.StepReplies
open C2c.Orchestrator.RunAgents

/-- Whether both programs ran and their outputs differ, or something else is the
case. -/
inductive Report
  | differ
  | otherwise
deriving DecidableEq

/-- The statuses of a program that did not end well. -/
def runStatuses : List Text :=
  ["run-failed".toList, "oracle-cobol-run-failed".toList, "oracle-unavailable".toList,
    "oracle-invalid".toList]

/-- The statuses of a run that compared nothing. -/
def uncomparedStatuses : List Text :=
  ["compile-failed".toList, "missing-golden-master".toList, "skipped".toList,
    "oracle-cobol-compile-failed".toList]

def unreproduced : Text :=
  "golden-master-reproduction-failed".toList

/-- The statuses of the runner, but for the divergence. -/
def otherStatuses : List Text :=
  buildTestSuccessStatuses ++ unreproduced :: (runStatuses ++ uncomparedStatuses)

def statusReport (status : Text) : Option Report :=
  if status = "output-divergence".toList then some .differ
  else if status ∈ otherStatuses then some .otherwise
  else none

def mismatchReasons : List Text :=
  ["oracle_mismatch".toList, "oracle-mismatch".toList, "equivalence_mismatch".toList,
    "behaviour_mismatch".toList]

def sourceReferenceReasons : List Text :=
  ["source_reference_failed".toList, "source-reference-failed".toList]

/-- The reasons of a generated program that did not compile or run. -/
def programReasons : List Text :=
  ["compile_failed".toList, "compile-failed".toList, "compile_error".toList,
    "java_compile_failed".toList, "runtime_failed".toList, "runtime-failed".toList,
    "runtime_error".toList, "java_runtime_failed".toList]

def reasonReport (reason : Text) : Option Report :=
  if reason ∈ mismatchReasons then some .differ
  else if reason ∈ sourceReferenceReasons ++ programReasons then some .otherwise
  else none

def FlagsMismatch (payload : Json) : Prop :=
  truthy (get payload "oracleMismatch") = true ∨
    isText (get payload "oracleResult") "mismatch" = true

instance (payload : Json) : Decidable (FlagsMismatch payload) :=
  inferInstanceAs (Decidable (_ ∨ _))

/-- The comparison failed, and did not match. -/
def ComparisonFailed (payload : Json) : Prop :=
  normalised (memberOf payload "comparisonResult" "status") = "failed".toList ∧
    (memberOf payload "comparison" "matched" matches .bool false) = true

instance (payload : Json) : Decidable (ComparisonFailed payload) :=
  inferInstanceAs (Decidable (_ ∧ _))

/-- The classes of a comparison whose programs did not both run. -/
def unrunClasses : List Text :=
  ["runtime_failure".toList, "unsupported_input".toList]

def mismatchClass (payload : Json) : Text :=
  normalised (memberOf payload "comparisonResult" "mismatchClassification")

def comparisonReport (payload : Json) : Option Report :=
  if ComparisonFailed payload then
    if mismatchClass payload ∈ unrunClasses then some .otherwise else some .differ
  else none

/-- The payload records that both programs ran and their outputs differ: by its
status, else by its reason, else by its flags, else by its comparison. -/
def RecordsMismatch (payload : Json) : Prop :=
  ((((statusReport (normalised (get payload "status"))).or
      (reasonReport (normalised (failureReason payload)))).or
    (if FlagsMismatch payload then some .differ else none)).or
    (comparisonReport payload)) = some .differ

/-- The status says that the golden master could not be reproduced. -/
def IsUnreproduced (payload : Json) : Prop :=
  normalised (get payload "status") = unreproduced

/-- The reason decides, and says that the source/reference execution failed. -/
def BlamesSourceReference (payload : Json) : Prop :=
  statusReport (normalised (get payload "status")) = none ∧
    normalised (failureReason payload) ∈ sourceReferenceReasons

/-- The comparison decides, and is one of programs that did not both run. -/
def ComparesUnrun (payload : Json) : Prop :=
  statusReport (normalised (get payload "status")) = none ∧
    reasonReport (normalised (failureReason payload)) = none ∧
    ¬ FlagsMismatch payload ∧ ComparisonFailed payload ∧ mismatchClass payload ∈ unrunClasses

/-- The ways of a status: a success, a divergence, a golden master not reproduced,
a failure of a program, or one the runner does not write. -/
inductive StatusReading (status : Text) : Prop
  | success : status ∈ buildTestSuccessStatuses → statusReport status = some .otherwise →
      StatusReading status
  | divergence : status ∉ buildTestSuccessStatuses → statusFailure status = some .oracleMismatch →
      statusReport status = some .differ →
      status ≠ unreproduced → StatusReading status
  | unreproduced : status ∉ buildTestSuccessStatuses →
      statusFailure status = some .oracleMismatch → statusReport status = some .otherwise →
      status = unreproduced → StatusReading status
  | program {code : FailureCode} : status ∉ buildTestSuccessStatuses →
      statusFailure status = some code → code ∈ validFailureCategories → code ≠ .oracleMismatch →
      statusReport status = some .otherwise →
      status ≠ unreproduced → StatusReading status
  | unknown : status ∉ buildTestSuccessStatuses → statusFailure status = none →
      statusReport status = none →
      status ≠ unreproduced → StatusReading status

theorem statusReading (status : Text) : StatusReading status := by
  by_cases hdivergence : status = "output-divergence".toList
  · subst hdivergence
    exact .divergence (by decide) (by decide) (by decide) (by decide)
  by_cases hother : status ∈ otherStatuses
  · have hreport : statusReport status = some .otherwise := by
      rw [statusReport, if_neg hdivergence, if_pos hother]
    rw [otherStatuses, List.mem_append, List.mem_cons, List.mem_append] at hother
    rcases hother with hsuccess | rfl | hrun | huncompared
    · exact .success hsuccess hreport
    · exact .unreproduced (by decide) (by decide) hreport rfl
    · have hall : ∀ s ∈ runStatuses, s ∉ buildTestSuccessStatuses ∧
          statusFailure s = some .javaRuntimeFailed ∧ s ≠ unreproduced := by
        decide
      obtain ⟨hsuccess, hfailure, hne⟩ := hall status hrun
      exact .program hsuccess hfailure (by decide) nofun hreport hne
    · have hall : ∀ s ∈ uncomparedStatuses, s ∉ buildTestSuccessStatuses ∧
          statusFailure s = some .javaCompileFailed ∧ s ≠ unreproduced := by
        decide
      obtain ⟨hsuccess, hfailure, hne⟩ := hall status huncompared
      exact .program hsuccess hfailure (by decide) nofun hreport hne
  · have hreport : statusReport status = none := by
      rw [statusReport, if_neg hdivergence, if_neg hother]
    rw [otherStatuses, List.mem_append, List.mem_cons, List.mem_append, not_or, not_or,
      not_or] at hother
    obtain ⟨hsuccess, hne, hrun, huncompared⟩ := hother
    have hfailure : statusFailure status = none := by
      have hmismatch : ¬ status ∈
          ["output-divergence".toList, "golden-master-reproduction-failed".toList] := by
        simpa using ⟨hdivergence, hne⟩
      unfold statusFailure
      rw [if_neg hmismatch]
      exact (if_neg hrun).trans (if_neg huncompared)
    exact .unknown hsuccess hfailure hreport hne

/-- The ways of a reason. -/
inductive ReasonReading (reason : Text) : Prop
  | mismatch {entry : Text × FailureCode} :
      buildTestFailureReasons.find? (fun entry => entry.1 == reason) = some entry →
      entry.2 = .oracleMismatch → reasonReport reason = some .differ →
      reason ∉ sourceReferenceReasons → ReasonReading reason
  | sourceReference {entry : Text × FailureCode} :
      buildTestFailureReasons.find? (fun entry => entry.1 == reason) = some entry →
      entry.2 = .sourceReferenceFailed → reasonReport reason = some .otherwise →
      reason ∈ sourceReferenceReasons → ReasonReading reason
  | program {entry : Text × FailureCode} :
      buildTestFailureReasons.find? (fun entry => entry.1 == reason) = some entry →
      entry.2 ∈ validFailureCategories → entry.2 ≠ .oracleMismatch →
      reasonReport reason = some .otherwise → reason ∉ sourceReferenceReasons →
      ReasonReading reason
  | unknown : buildTestFailureReasons.find? (fun entry => entry.1 == reason) = none →
      reasonReport reason = none → reason ∉ sourceReferenceReasons → ReasonReading reason

theorem reasonReading (reason : Text) : ReasonReading reason := by
  by_cases hmismatch : reason ∈ mismatchReasons
  · have hall : ∀ s ∈ mismatchReasons,
        buildTestFailureReasons.find? (fun entry => entry.1 == s) = some (s, .oracleMismatch) ∧
          reasonReport s = some .differ ∧ s ∉ sourceReferenceReasons := by
      decide
    obtain ⟨hfind, hreport, hnot⟩ := hall reason hmismatch
    exact .mismatch hfind rfl hreport hnot
  by_cases hsource : reason ∈ sourceReferenceReasons
  · have hall : ∀ s ∈ sourceReferenceReasons,
        buildTestFailureReasons.find? (fun entry => entry.1 == s) =
            some (s, .sourceReferenceFailed) ∧
          reasonReport s = some .otherwise := by
      decide
    obtain ⟨hfind, hreport⟩ := hall reason hsource
    exact .sourceReference hfind rfl hreport hsource
  by_cases hprogram : reason ∈ programReasons
  · have hall : ∀ s ∈ programReasons, ∃ code ∈ [FailureCode.javaCompileFailed, .javaRuntimeFailed],
        buildTestFailureReasons.find? (fun entry => entry.1 == s) = some (s, code) := by
      decide
    obtain ⟨code, hcode, hfind⟩ := hall reason hprogram
    have hreport : reasonReport reason = some .otherwise := by
      rw [reasonReport, if_neg hmismatch, if_pos (List.mem_append_right _ hprogram)]
    have hvalid : code ∈ validFailureCategories ∧ code ≠ .oracleMismatch := by
      rw [List.mem_cons, List.mem_singleton] at hcode
      rcases hcode with rfl | rfl <;> decide
    exact .program hfind hvalid.1 hvalid.2 hreport hsource
  · have hrest : ¬ reason ∈ sourceReferenceReasons ++ programReasons := by
      rw [List.mem_append, not_or]
      exact ⟨hsource, hprogram⟩
    have hreport : reasonReport reason = none := by
      rw [reasonReport, if_neg hmismatch, if_neg hrest]
    have hkeys : ∀ entry ∈ buildTestFailureReasons,
        entry.1 ∈ mismatchReasons ++ (sourceReferenceReasons ++ programReasons) := by
      decide
    refine .unknown ?_ hreport hsource
    rw [List.find?_eq_none]
    intro entry hentry heq
    obtain rfl := beq_iff_eq.mp heq
    exact (List.mem_append.mp (hkeys entry hentry)).elim hmismatch hrest

theorem resultFailure_valid (payload : Json) : resultFailure payload ∈ validFailureCategories := by
  unfold resultFailure
  split_ifs <;> decide

theorem resultFailure_mismatch_iff (payload : Json) :
    resultFailure payload = .oracleMismatch ↔ FlagsMismatch payload ∨ ComparisonFailed payload := by
  by_cases hflags : FlagsMismatch payload
  · exact iff_of_true (if_pos hflags) (.inl hflags)
  by_cases hfailed : ComparisonFailed payload
  · exact iff_of_true ((if_neg hflags).trans (if_pos hfailed)) (.inr hfailed)
  · have hrest : resultFailure payload =
        if isText (get payload "runtime") "failed" ∨
            isText (get payload "runtimeStatus") "failed" then .javaRuntimeFailed
        else if normalised (memberOf payload "executionResult" "status") = "failed".toList then
          .javaRuntimeFailed
        else .javaCompileFailed :=
      (if_neg hflags).trans (if_neg hfailed)
    refine iff_of_false ?_ (not_or.mpr ⟨hflags, hfailed⟩)
    rw [hrest]
    split_ifs <;> simp

section Outcome

variable {payload : Json}

theorem outcome_of_success (h : normalised (get payload "status") ∈ buildTestSuccessStatuses) :
    buildTestOutcome payload = none := by
  rw [buildTestOutcome, if_pos h]

theorem outcome_of_status {code : FailureCode}
    (h : normalised (get payload "status") ∉ buildTestSuccessStatuses)
    (hcode : statusFailure (normalised (get payload "status")) = some code) :
    buildTestOutcome payload = some code := by
  rw [buildTestOutcome, if_neg h, buildTestFailure, hcode]

theorem outcome_of_reason {entry : Text × FailureCode}
    (h : normalised (get payload "status") ∉ buildTestSuccessStatuses)
    (hstatus : statusFailure (normalised (get payload "status")) = none)
    (hentry : buildTestFailureReasons.find?
      (fun entry => entry.1 == normalised (failureReason payload)) = some entry) :
    buildTestOutcome payload = some entry.2 := by
  rw [buildTestOutcome, if_neg h, buildTestFailure, hstatus]
  dsimp only
  rw [hentry]

theorem outcome_of_result
    (h : normalised (get payload "status") ∉ buildTestSuccessStatuses)
    (hstatus : statusFailure (normalised (get payload "status")) = none)
    (hreason : buildTestFailureReasons.find?
      (fun entry => entry.1 == normalised (failureReason payload)) = none) :
    buildTestOutcome payload = some (resultFailure payload) := by
  rw [buildTestOutcome, if_neg h, buildTestFailure, hstatus]
  dsimp only
  rw [hreason]

end Outcome

/-- The code the orchestrator finds is one the repair agent takes, and is the
mismatch exactly when the payload records one. -/
structure ReadsRightly (payload : Json) : Prop where
  accepted : ∀ code, buildTestOutcome payload = some code → code ∈ validFailureCategories
  mismatch : buildTestOutcome payload = some .oracleMismatch ↔ RecordsMismatch payload

theorem readsRightly_of_outcome {payload : Json} {code : FailureCode}
    (houtcome : buildTestOutcome payload = some code) (hvalid : code ∈ validFailureCategories)
    (hrecords : code = .oracleMismatch ↔ RecordsMismatch payload) : ReadsRightly payload where
  accepted _ h := Option.some.inj (houtcome.symm.trans h) ▸ hvalid
  mismatch := by rw [houtcome, Option.some_inj, hrecords]

section Undecided

variable {payload : Json}

/-- Payloads whose status is none of the runner's. -/
structure Undecided (payload : Json) : Prop where
  notSuccess : normalised (get payload "status") ∉ buildTestSuccessStatuses
  noFailure : statusFailure (normalised (get payload "status")) = none
  noReport : statusReport (normalised (get payload "status")) = none
  reproduced : ¬ IsUnreproduced payload

theorem Undecided.records_of_reason (h : Undecided payload) {report : Report}
    (hreason : reasonReport (normalised (failureReason payload)) = some report) :
    RecordsMismatch payload ↔ report = .differ := by
  rw [RecordsMismatch, h.noReport, hreason]
  exact Option.some_inj

theorem Undecided.compared_of_reason {report : Report}
    (hreason : reasonReport (normalised (failureReason payload)) = some report) :
    ¬ ComparesUnrun payload := by
  rintro ⟨-, hnone, -⟩
  rw [hreason] at hnone
  cases hnone

theorem Undecided.readsRightly_of_result (h : Undecided payload)
    (hfind : buildTestFailureReasons.find?
      (fun entry => entry.1 == normalised (failureReason payload)) = none)
    (hreason : reasonReport (normalised (failureReason payload)) = none) :
    ReadsRightly payload ↔ ¬ ComparesUnrun payload := by
  have houtcome := outcome_of_result h.notSuccess h.noFailure hfind
  have hrecords : RecordsMismatch payload ↔ FlagsMismatch payload ∨
      ComparisonFailed payload ∧ mismatchClass payload ∉ unrunClasses := by
    rw [RecordsMismatch, h.noReport, hreason, comparisonReport]
    by_cases hflags : FlagsMismatch payload
    · simp [hflags]
    by_cases hfailed : ComparisonFailed payload
    · by_cases hunrun : mismatchClass payload ∈ unrunClasses
      · simp [hflags, hfailed, hunrun]
      · simp [hflags, hfailed, hunrun]
    · simp [hflags, hfailed]
  constructor
  · rintro hreads ⟨-, -, hflags, hfailed, hunrun⟩
    have hmismatch := (resultFailure_mismatch_iff payload).mpr (.inr hfailed)
    rcases hrecords.mp (hreads.mismatch.mp (houtcome.trans (congrArg some hmismatch))) with h | h
    · exact hflags h
    · exact h.2 hunrun
  · intro hcompared
    refine readsRightly_of_outcome houtcome (resultFailure_valid payload) ?_
    rw [resultFailure_mismatch_iff, hrecords]
    by_cases hflags : FlagsMismatch payload
    · exact iff_of_true (.inl hflags) (.inl hflags)
    · exact ⟨Or.imp_right fun hfailed =>
        ⟨hfailed, fun hunrun => hcompared ⟨h.noReport, hreason, hflags, hfailed, hunrun⟩⟩,
        Or.imp_right And.left⟩

theorem Undecided.reads_iff (h : Undecided payload) :
    ReadsRightly payload ↔ ¬ BlamesSourceReference payload ∧ ¬ ComparesUnrun payload := by
  have hblame : BlamesSourceReference payload ↔
      normalised (failureReason payload) ∈ sourceReferenceReasons :=
    and_iff_right h.noReport
  rw [hblame]
  cases reasonReading (normalised (failureReason payload)) with
  | mismatch hfind hcode hreason hnot =>
      have houtcome := outcome_of_reason h.notSuccess h.noFailure hfind
      rw [hcode] at houtcome
      exact iff_of_true (readsRightly_of_outcome houtcome (by decide)
        (iff_of_true rfl ((h.records_of_reason hreason).mpr rfl)))
        ⟨hnot, Undecided.compared_of_reason hreason⟩
  | sourceReference hfind hcode hreason hblamed =>
      have houtcome := outcome_of_reason h.notSuccess h.noFailure hfind
      rw [hcode] at houtcome
      refine iff_of_false (fun hreads => ?_) fun hnot => hnot.1 hblamed
      have hvalid := hreads.accepted _ houtcome
      revert hvalid
      decide
  | program hfind hvalid hcode hreason hnot =>
      have houtcome := outcome_of_reason h.notSuccess h.noFailure hfind
      refine iff_of_true (readsRightly_of_outcome houtcome hvalid (iff_of_false hcode ?_))
        ⟨hnot, Undecided.compared_of_reason hreason⟩
      rw [h.records_of_reason hreason]
      exact nofun
  | unknown hfind hreason hnot =>
      rw [h.readsRightly_of_result hfind hreason]
      exact (and_iff_right hnot).symm

end Undecided

/-- A payload of a failed run that blames the source/reference execution. -/
def blamingPayload : Json :=
  .object [("status".toList, .text "failed".toList),
    ("reason".toList, .text "source_reference_failed".toList)]

end C2c.Orchestrator.BuildOutcomes
