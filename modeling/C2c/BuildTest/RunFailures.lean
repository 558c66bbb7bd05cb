import C2c.BuildTest.Verification

namespace C2c.BuildTest.RunFailures

open C2c.Library.JavaText
open C2c.Library.JavaObject
open C2c.BuildTest.Comparison
open C2c.BuildTest.Outcomes
open C2c.BuildTest.Request
open C2c.BuildTest.Verification

/-- The generated project was written and `javac` accepted it. -/
def compiled (tools : Tools) (setup : Setup) : Bool :=
  !setup.generatedProject.isEmpty && (generatedJavaSafetyDiagnostics setup.files).isEmpty &&
    (match tools.materialise setup.files with
      | .written => true
      | _ => false) &&
    (tools.compile setup.files).ok

/-- The run of the generated program, when there is one. -/
def startedRun (tools : Tools) (setup : Setup) : Option RunResult :=
  if compiled tools setup && !setup.skipExecution then
    some (tools.run setup.entryClass setup.timeoutMs)
  else none

/-- The comparison section of a response holds a comparison of a run's two
output streams and exit code, and it found no difference. -/
def ComparedEqual (run : RunResult) (response : Response) : Prop :=
  ∃ source target, response.comparison = .compared (compare source target) ∧
    SameBehaviour source target ∧ target.stdout = run.stdout ∧ target.stderr = run.stderr ∧
      target.exitCode = some run.exitCode

/-- What a caller may conclude from the status and the classification of a
response. -/
structure Sound (tools : Tools) (setup : Setup) (response : Response) : Prop where
  okOnlyAfterSuccess : response.status = some .ok →
    compiled tools setup = true ∧ ∀ run ∈ startedRun tools setup, run.ok = true
  failureReported : ∀ run ∈ startedRun tools setup, run.ran = true → run.ok = false →
    response.status = some .runFailed
  matchCompared : response.classification = some .match →
    ∃ run ∈ startedRun tools setup, ComparedEqual run response

/-- The golden-master branch has a classification of its own whatever the run
did: nothing to compare with, or a true fixture that was not reproduced. -/
def ReclassifiesAnyRun (tools : Tools) (setup : Setup) (golden : Option Resolved) : Prop :=
  setup.compareOutput = false ∨ golden = none ∨
    ∃ fixture ∈ golden, fixture.isTrueFixture = true ∧
      (tools.reproduce fixture setup.timeoutMs).ok = false

/-- The program ran and failed, and the golden-master branch classifies the
response anew. -/
def OverwritesRunFailure (tools : Tools) (setup : Setup) : Prop :=
  setup.oracleEnabled = false ∧
    (∃ run ∈ startedRun tools setup, run.ran = true ∧ run.ok = false) ∧
      ∃ golden, tools.resolve setup.programId setup.goldenMaster = .ok golden ∧
        ReclassifiesAnyRun tools setup golden

section Finish

variable (response : Response) (comparison : ComparisonSection) (diagnostics : List Diagnostic)

theorem attachComparisonResult_keeps :
    (attachComparisonResult response).classified = response.classified ∧
      (attachComparisonResult response).comparison = response.comparison := by
  unfold attachComparisonResult
  split
  · split
    · exact ⟨rfl, rfl⟩
    · split
      · exact ⟨rfl, rfl⟩
      · exact ⟨rfl, rfl⟩
  · exact ⟨rfl, rfl⟩

@[simp] theorem finishResponse_classified :
    (finishResponse response comparison diagnostics).classified = response.classified :=
  (attachComparisonResult_keeps _).1

@[simp] theorem finishResponse_comparison :
    (finishResponse response comparison diagnostics).comparison = comparison :=
  (attachComparisonResult_keeps _).2

@[simp] theorem finishUnbuilt_classified (result : Classification) (summary : Text) :
    (finishUnbuilt response result diagnostics summary comparison).classified = some result := by
  simp [finishUnbuilt, applyClassification]

theorem finishWithoutRun_classified {tools : Tools} {setup : Setup} {response finished : Response}
    {diagnostics : List Diagnostic} {oracleReason note reason : Text}
    (h : finishWithoutRun tools setup response diagnostics oracleReason note reason =
      .ok finished) :
    finished.classified = response.classified := by
  unfold finishWithoutRun at h
  split at h
  · obtain rfl := Except.ok.inj h
    simp [putSkippedOracle]
  · split at h
    · cases h
    · obtain rfl := Except.ok.inj h
      simp

end Finish

theorem compareOutputs_matched {sourceStdout sourceStderr javaStdout javaStderr label : Text}
    {sourceExitCode javaExitCode : Option Int}
    (h : (compareOutputs sourceStdout sourceStderr sourceExitCode javaStdout javaStderr
      javaExitCode label).matched = true) :
    ∃ source target, compareOutputs sourceStdout sourceStderr sourceExitCode javaStdout javaStderr
        javaExitCode label = compare source target ∧ SameBehaviour source target ∧
      target.stdout = javaStdout ∧ target.stderr = javaStderr ∧
        target.exitCode = javaExitCode :=
  ⟨_, _, rfl, (compare_matched_iff _ _).mp h, rfl, rfl, rfl⟩

/-- A match in this response goes back to a comparison of the run. -/
def MatchesOnlyCompared (run : RunResult) (response : Response) : Prop :=
  response.classification = some .match → ComparedEqual run response

theorem compareWithOracle_matches (response : Response) (diagnostics : List Diagnostic)
    (run : RunResult) (expected : Text) (exitCode : Option Int) (label summary : Text) :
    MatchesOnlyCompared run
      (compareWithOracle response diagnostics run expected exitCode label summary) := by
  intro hmatch
  unfold compareWithOracle at hmatch ⊢
  simp only [Response.classification, finishResponse_classified, applyClassification,
    Option.map_some, Option.some.injEq] at hmatch
  split at hmatch
  · rename_i hmatched
    obtain ⟨source, target, heq, hsame, hstdout, hstderr, hexit⟩ :=
      compareOutputs_matched hmatched
    refine ⟨source, target, ?_, hsame, hstdout, hstderr, hexit⟩
    simp only [finishResponse_comparison, applyClassification, putComparison, heq]
  · simp [divergence] at hmatch

theorem oracleFailure_classification {oracle : OracleRun} {diagnostic : Diagnostic}
    {result : Classification} {comparison : ComparisonSection}
    (h : oracleFailure oracle = some (diagnostic, result, comparison)) :
    result.classification ≠ .match := by
  unfold oracleFailure at h
  split at h
  · cases h; simp [oracleInvalid]
  · split at h
    · cases h; simp [oracleUnavailable]
    · split at h
      · cases h; simp [oracleCompileError]
      · split at h
        · cases h; simp [oracleRunError]
        · cases h

theorem finaliseOracle_skipped (tools : Tools) (setup : Setup) (response : Response)
    (diagnostics : List Diagnostic) :
    (finaliseOracle tools setup response diagnostics none).classified =
      some (skipped "skipExecution=true".toList) := by
  simp [finaliseOracle, putSkippedOracle, applyClassification]

theorem finaliseOracle_failed (tools : Tools) (setup : Setup) (response : Response)
    (diagnostics : List Diagnostic) {run : RunResult} (hrun : run.ok = false) :
    (finaliseOracle tools setup response diagnostics (some run)).classified =
      response.classified := by
  simp [finaliseOracle, hrun, putSkippedOracle]

theorem finaliseOracle_matches (tools : Tools) (setup : Setup) (response : Response)
    (diagnostics : List Diagnostic) {run : RunResult} (hrun : run.ok = true) :
    MatchesOnlyCompared run (finaliseOracle tools setup response diagnostics (some run)) := by
  unfold finaliseOracle
  simp only [hrun, Bool.not_true, Bool.false_eq_true, if_false]
  split
  · intro hmatch
    simp [Response.classification, putSkippedOracle, applyClassification] at hmatch
  · split
    · exact compareWithOracle_matches _ _ _ _ _ _ _
    · split
      · rename_i hfailure
        intro hmatch
        simp only [Response.classification, finishResponse_classified, applyClassification,
          Option.map_some, Option.some.injEq] at hmatch
        exact absurd hmatch (oracleFailure_classification hfailure)
      · exact compareWithOracle_matches _ _ _ _ _ _ _

theorem classifyAgainstGoldenMaster_failed (setup : Setup) (response : Response)
    (diagnostics : List Diagnostic) {run : RunResult} (hrun : run.ok = false)
    (golden : Option Resolved) :
    (classifyAgainstGoldenMaster setup response diagnostics (some run) golden).classified =
      if setup.compareOutput = false then
        some ⟨.ok, .skipped, "compareOutput=false; not comparing against Golden Master.".toList⟩
      else if golden = none then some (missingGoldenMaster setup.programId)
      else response.classified := by
  unfold classifyAgainstGoldenMaster
  cases hcompare : setup.compareOutput with
  | false => simp [applyClassification]
  | true =>
      cases golden with
      | none => simp [applyClassification]
      | some golden => simp [hrun, putComparison]

theorem classifyAgainstGoldenMaster_matches (setup : Setup) (response : Response)
    (diagnostics : List Diagnostic) {run : RunResult} (hrun : run.ok = true)
    (golden : Option Resolved) :
    MatchesOnlyCompared run
      (classifyAgainstGoldenMaster setup response diagnostics (some run) golden) := by
  unfold classifyAgainstGoldenMaster
  intro hmatch
  cases hcompare : setup.compareOutput with
  | false => simp [hcompare, Response.classification, applyClassification] at hmatch
  | true =>
      cases golden with
      | none =>
          simp [hcompare, Response.classification, applyClassification, missingGoldenMaster]
            at hmatch
      | some golden =>
          simp only [hcompare, hrun, Bool.not_true, Bool.false_eq_true, if_false, if_true,
            Response.classification, finishResponse_classified, applyClassification,
            Option.map_some, Option.some.injEq, RunResult.ran_of_ok hrun] at hmatch ⊢
          split at hmatch
          · rename_i hmatched
            obtain ⟨source, target, heq, hsame, hstdout, hstderr, hexit⟩ :=
              compareOutputs_matched hmatched
            refine ⟨source, target, ?_, hsame, hstdout, hstderr, hexit⟩
            simp only [finishResponse_comparison, putComparison, heq]
          · simp only [divergence] at hmatch
            split at hmatch <;> cases hmatch

theorem finaliseGoldenMaster_skipped {tools : Tools} {setup : Setup} {response finished : Response}
    {diagnostics : List Diagnostic} (hskip : setup.skipExecution = true)
    (h : finaliseGoldenMaster tools setup response diagnostics none = .ok finished) :
    finished.classified = some (skipped "skipExecution=true".toList) := by
  unfold finaliseGoldenMaster at h
  split at h
  · cases h
  · obtain rfl := Except.ok.inj h
    simp [classifyAgainstGoldenMaster, applyClassification]
  · simp only [reproductionOf, hskip, Bool.not_true, Bool.false_and, Bool.false_eq_true,
      if_false] at h
    obtain rfl := Except.ok.inj h
    simp [classifyAgainstGoldenMaster, applyClassification]

theorem trueGoldenMasterClassification_status (reproduction : Reproduction) :
    (trueGoldenMasterClassification reproduction).status = .goldenMasterReproductionFailed := by
  unfold trueGoldenMasterClassification
  split <;> rfl

theorem trueGoldenMasterClassification_ne_match (reproduction : Reproduction) :
    (trueGoldenMasterClassification reproduction).classification ≠ .match := by
  unfold trueGoldenMasterClassification
  split <;> simp [trueGoldenMasterMismatch, trueGoldenMasterReproductionError]

theorem finaliseGoldenMaster_matches {tools : Tools} {setup : Setup} {response finished : Response}
    {diagnostics : List Diagnostic} {run : RunResult} (hrun : run.ok = true)
    (h : finaliseGoldenMaster tools setup response diagnostics (some run) = .ok finished) :
    MatchesOnlyCompared run finished := by
  unfold finaliseGoldenMaster at h
  split at h
  · cases h
  · obtain rfl := Except.ok.inj h
    exact classifyAgainstGoldenMaster_matches _ _ _ hrun _
  · dsimp only at h
    split at h
    · rename_i reproduction _
      split at h
      · obtain rfl := Except.ok.inj h
        intro hmatch
        simp only [Response.classification, finishResponse_classified, applyClassification,
          Option.map_some, Option.some.injEq] at hmatch
        exact absurd hmatch (trueGoldenMasterClassification_ne_match reproduction)
      · obtain rfl := Except.ok.inj h
        exact classifyAgainstGoldenMaster_matches _ _ _ hrun _
    · obtain rfl := Except.ok.inj h
      exact classifyAgainstGoldenMaster_matches _ _ _ hrun _

/-- The golden-master branch keeps the classification of a failed run exactly
when it does not classify any run anew. -/
theorem finaliseGoldenMaster_failed {tools : Tools} {setup : Setup} {response finished : Response}
    {diagnostics : List Diagnostic} {run : RunResult} (hrun : run.ok = false)
    (hskip : setup.skipExecution = false)
    (hstatus : response.classified = some (runFailure run.errorClass))
    (h : finaliseGoldenMaster tools setup response diagnostics (some run) = .ok finished) :
    ∃ golden, tools.resolve setup.programId setup.goldenMaster = .ok golden ∧
      (ReclassifiesAnyRun tools setup golden ∧ finished.status ≠ some .runFailed ∨
        ¬ ReclassifiesAnyRun tools setup golden ∧
          finished.classified = some (runFailure run.errorClass)) := by
  unfold finaliseGoldenMaster at h
  split at h
  · cases h
  · rename_i hresolve
    obtain rfl := Except.ok.inj h
    refine ⟨none, hresolve, Or.inl ⟨Or.inr (Or.inl rfl), ?_⟩⟩
    rw [Response.status, classifyAgainstGoldenMaster_failed _ _ _ hrun]
    split <;> simp [missingGoldenMaster]
  · rename_i golden hresolve
    refine ⟨some golden, hresolve, ?_⟩
    dsimp only at h
    split at h
    · rename_i reproduction hreproduction
      have hfixture : setup.compareOutput = true ∧ golden.isTrueFixture = true ∧
          tools.reproduce golden setup.timeoutMs = reproduction := by
        unfold reproductionOf at hreproduction
        split at hreproduction
        · rename_i hasked
          simp only [Bool.and_eq_true] at hasked
          exact ⟨hasked.1.2, hasked.2, Option.some.inj hreproduction⟩
        · cases hreproduction
      obtain ⟨hcompare, htrue, rfl⟩ := hfixture
      split at h
      · rename_i hfailed
        obtain rfl := Except.ok.inj h
        refine Or.inl ⟨Or.inr (Or.inr ⟨golden, rfl, htrue, by simpa using hfailed⟩), ?_⟩
        simp [Response.status, applyClassification, trueGoldenMasterClassification_status]
      · rename_i hreproduced
        obtain rfl := Except.ok.inj h
        refine Or.inr ⟨?_, ?_⟩
        · simpa [ReclassifiesAnyRun, hcompare, htrue] using hreproduced
        · rw [classifyAgainstGoldenMaster_failed _ _ _ hrun]
          simpa [hcompare] using hstatus
    · rename_i hreproduction
      obtain rfl := Except.ok.inj h
      have hclassified := classifyAgainstGoldenMaster_failed setup
        { response with goldenMaster := .resolved golden (reproductionOf tools setup golden) }
        diagnostics hrun (some golden)
      cases hcompare : setup.compareOutput with
      | false =>
          refine Or.inl ⟨Or.inl hcompare, ?_⟩
          rw [Response.status, hclassified]
          simp [hcompare]
      | true =>
          have hfixture : golden.isTrueFixture = false := by
            simpa [reproductionOf, hskip, hcompare] using hreproduction
          refine Or.inr ⟨by simp [ReclassifiesAnyRun, hcompare, hfixture], ?_⟩
          rw [hclassified]
          simpa [hcompare] using hstatus

theorem verify_not_compiled {u : UnicodeData} {tools : Tools} {setup : Setup} {response : Response}
    (hcompiled : compiled tools setup = false) (h : verify u tools setup = .ok response) :
    ∃ result, response.classified = some result ∧ result.status ≠ .ok ∧
      result.classification ≠ .match := by
  unfold verify at h
  dsimp only at h
  split at h
  · obtain rfl := Except.ok.inj h
    exact ⟨_, finishUnbuilt_classified .., by simp, by simp⟩
  · rename_i hproject
    split at h
    · obtain rfl := Except.ok.inj h
      exact ⟨_, finishUnbuilt_classified .., by simp [compileFailure], by simp [compileFailure]⟩
    · rename_i hsafe
      split at h
      · obtain rfl := Except.ok.inj h
        exact ⟨_, finishUnbuilt_classified .., by simp [compileFailure], by simp [compileFailure]⟩
      · obtain rfl := Except.ok.inj h
        exact ⟨_, finishUnbuilt_classified .., by simp [compileFailure], by simp [compileFailure]⟩
      · rename_i hwritten
        have hsafe' : generatedJavaSafetyDiagnostics setup.files = [] := by simpa using hsafe
        have hcompile : (tools.compile setup.files).ok = false := by
          simpa [compiled, hproject, hwritten, hsafe'] using hcompiled
        unfold runCompiled at h
        simp only [hcompile, Bool.not_false, if_true] at h
        refine ⟨compileFailure, ?_, by simp [compileFailure], by simp [compileFailure]⟩
        rw [finishWithoutRun_classified h]
        rfl

theorem verify_compiled {u : UnicodeData} {tools : Tools} {setup : Setup}
    (hcompiled : compiled tools setup = true) :
    verify u tools setup = runCompiled u tools setup (newEnvelope setup)
      (tools.compile setup.files) := by
  simp only [compiled, Bool.and_eq_true, Bool.not_eq_true'] at hcompiled
  obtain ⟨⟨⟨hproject, hsafe⟩, hwritten⟩, -⟩ := hcompiled
  unfold verify
  simp only [hproject, hsafe, Bool.not_true, Bool.false_eq_true, if_false]
  split at hwritten
  · rename_i hmaterialise
    rw [hmaterialise]
  · cases hwritten

theorem verify_runs {u : UnicodeData} {tools : Tools} {setup : Setup} {response : Response}
    (hcompiled : compiled tools setup = true) (hskip : setup.skipExecution = false)
    (h : verify u tools setup = .ok response) :
    ∃ run ∈ startedRun tools setup,
      (run.ran = false ∧ response.classified = some (runFailure run.errorClass)) ∨
      (run.ran = true ∧ ∃ unfinished diagnostics,
        (run.ok = false → unfinished.classified = some (runFailure run.errorClass)) ∧
        (if setup.oracleEnabled then
            .ok (finaliseOracle tools setup unfinished diagnostics (some run))
          else finaliseGoldenMaster tools setup unfinished diagnostics (some run)) =
          .ok response) := by
  rw [verify_compiled hcompiled] at h
  have hcompile : (tools.compile setup.files).ok = true := by
    simp only [compiled, Bool.and_eq_true] at hcompiled
    exact hcompiled.2
  unfold runCompiled at h
  simp only [hcompile, hskip, Bool.not_true, Bool.false_eq_true, if_false] at h
  refine ⟨tools.run setup.entryClass setup.timeoutMs, by simp [startedRun, hcompiled, hskip], ?_⟩
  split at h
  · rename_i hran
    exact Or.inl ⟨by simpa using hran, finishWithoutRun_classified h⟩
  · rename_i hran
    refine Or.inr ⟨by simpa using hran, ?_⟩
    split at h
    · exact ⟨_, _, fun _ => rfl, h⟩
    · rename_i hok
      exact ⟨_, _, fun hfailed => absurd hfailed (by simpa using hok), h⟩

theorem verify_skipped {u : UnicodeData} {tools : Tools} {setup : Setup} {response : Response}
    (hcompiled : compiled tools setup = true) (hskip : setup.skipExecution = true)
    (h : verify u tools setup = .ok response) :
    response.classified = some (skipped "skipExecution=true".toList) := by
  rw [verify_compiled hcompiled] at h
  have hcompile : (tools.compile setup.files).ok = true := by
    simp only [compiled, Bool.and_eq_true] at hcompiled
    exact hcompiled.2
  unfold runCompiled at h
  simp only [hcompile, hskip, Bool.not_true, Bool.false_eq_true, if_false, if_true] at h
  split at h
  · obtain rfl := Except.ok.inj h
    exact finaliseOracle_skipped ..
  · exact finaliseGoldenMaster_skipped hskip h

/-- A run that did not end well is reported soundly exactly when it is
reported as failed. -/
theorem sound_iff_of_failed {tools : Tools} {setup : Setup} {response : Response}
    {run : RunResult} (hrun : run ∈ startedRun tools setup) (hran : run.ran = true)
    (hfailed : run.ok = false)
    (hmatch : response.status = some .runFailed → response.classification ≠ some .match) :
    Sound tools setup response ↔ response.status = some .runFailed := by
  constructor
  · intro hsound
    exact hsound.failureReported run hrun hran hfailed
  · intro hstatus
    exact
      { okOnlyAfterSuccess := fun hok => by rw [hstatus] at hok; cases hok
        failureReported := fun _ _ _ _ => hstatus
        matchCompared := fun hclass => absurd hclass (hmatch hstatus) }

theorem not_overwrites_of_no_run {tools : Tools} {setup : Setup}
    (h : startedRun tools setup = none) : ¬ OverwritesRunFailure tools setup := by
  rintro ⟨-, ⟨run, hrun, -⟩, -⟩
  rw [h] at hrun
  cases hrun

theorem sound_of_no_run {tools : Tools} {setup : Setup} {response : Response}
    (hnone : startedRun tools setup = none) {result : Classification}
    (hclassified : response.classified = some result) (hstatus : result.status ≠ .ok)
    (hclass : result.classification ≠ .match) : Sound tools setup response where
  okOnlyAfterSuccess hok := by
    rw [Response.status, hclassified] at hok
    exact absurd (Option.some.inj hok) hstatus
  failureReported run hrun := by
    rw [hnone] at hrun
    cases hrun
  matchCompared hmatch := by
    rw [Response.classification, hclassified] at hmatch
    exact absurd (Option.some.inj hmatch) hclass

theorem sound_of_succeeded {tools : Tools} {setup : Setup} {response : Response} {run : RunResult}
    (hcompiled : compiled tools setup = true) (hrun : run ∈ startedRun tools setup)
    (hok : run.ok = true) (hmatches : MatchesOnlyCompared run response) :
    Sound tools setup response where
  okOnlyAfterSuccess _ := by
    refine ⟨hcompiled, fun other hother => ?_⟩
    rwa [Option.mem_unique hother hrun]
  failureReported other hother _ hfailed := by
    rw [Option.mem_unique hother hrun, hok] at hfailed
    cases hfailed
  matchCompared hmatch := ⟨run, hrun, hmatches hmatch⟩

theorem runFailed_of_classified {response : Response} {errorClass : Option Text}
    (h : response.classified = some (runFailure errorClass)) :
    response.status = some .runFailed ∧ response.classification ≠ some .match := by
  simp [Response.status, Response.classification, h, runFailure]

/-- A run that never started is classified as failed, whatever is asked. -/
theorem sound_of_not_started {tools : Tools} {setup : Setup} {response : Response}
    {run : RunResult} (hrun : run ∈ startedRun tools setup) (hran : run.ran = false)
    (hclassified : response.classified = some (runFailure run.errorClass)) :
    Sound tools setup response where
  okOnlyAfterSuccess hok := by
    rw [(runFailed_of_classified hclassified).1] at hok
    cases hok
  failureReported other hother hran' := by
    rw [Option.mem_unique hother hrun, hran] at hran'
    cases hran'
  matchCompared hmatch := absurd hmatch (runFailed_of_classified hclassified).2

theorem sound_iff_not_overwrites {u : UnicodeData} {tools : Tools} {setup : Setup}
    {response : Response} (h : verify u tools setup = .ok response) :
    Sound tools setup response ↔ ¬ OverwritesRunFailure tools setup := by
  cases hcompiled : compiled tools setup with
  | false =>
      have hnone : startedRun tools setup = none := by simp [startedRun, hcompiled]
      obtain ⟨result, hclassified, hstatus, hclass⟩ := verify_not_compiled hcompiled h
      exact iff_of_true (sound_of_no_run hnone hclassified hstatus hclass)
        (not_overwrites_of_no_run hnone)
  | true =>
      cases hskip : setup.skipExecution with
      | true =>
          have hnone : startedRun tools setup = none := by simp [startedRun, hskip]
          exact iff_of_true
            (sound_of_no_run hnone (verify_skipped hcompiled hskip h) (by simp [skipped])
              (by simp [skipped]))
            (not_overwrites_of_no_run hnone)
      | false =>
          obtain ⟨run, hrun, ⟨hran, hclassified⟩ | ⟨hran, unfinished, diagnostics, hfailure, h⟩⟩ :=
            verify_runs hcompiled hskip h
          · refine iff_of_true (sound_of_not_started hrun hran hclassified) ?_
            rintro ⟨-, ⟨other, hother, hran', -⟩, -⟩
            rw [Option.mem_unique hother hrun, hran] at hran'
            cases hran'
          · cases hok : run.ok with
            | true =>
                have hmatches : MatchesOnlyCompared run response := by
                  split at h
                  · obtain rfl := Except.ok.inj h
                    exact finaliseOracle_matches _ _ _ _ hok
                  · exact finaliseGoldenMaster_matches hok h
                refine iff_of_true (sound_of_succeeded hcompiled hrun hok hmatches) ?_
                rintro ⟨-, ⟨other, hother, -, hfailed⟩, -⟩
                rw [Option.mem_unique hother hrun, hok] at hfailed
                cases hfailed
            | false =>
                have hfailed := hfailure hok
                split at h
                · rename_i horacle
                  obtain rfl := Except.ok.inj h
                  have hclassified :=
                    (finaliseOracle_failed tools setup unfinished diagnostics hok).trans hfailed
                  obtain ⟨hstatus, hclass⟩ := runFailed_of_classified hclassified
                  refine iff_of_true
                    ((sound_iff_of_failed hrun hran hok fun _ => hclass).mpr hstatus) ?_
                  rintro ⟨horacle', -⟩
                  rw [horacle'] at horacle
                  cases horacle
                · rename_i horacle
                  obtain ⟨golden, hresolve, ⟨hreclassifies, hstatus⟩ | ⟨hkeeps, hclassified⟩⟩ :=
                    finaliseGoldenMaster_failed hok hskip hfailed h
                  · refine iff_of_false (fun hsound => hstatus
                      (hsound.failureReported run hrun hran hok)) ?_
                    exact not_not_intro ⟨by simpa using horacle, ⟨run, hrun, hran, hok⟩, golden,
                      hresolve, hreclassifies⟩
                  · obtain ⟨hstatus, hclass⟩ := runFailed_of_classified hclassified
                    refine iff_of_true
                      ((sound_iff_of_failed hrun hran hok fun _ => hclass).mpr hstatus) ?_
                    rintro ⟨-, -, golden', hresolve', hreclassifies⟩
                    rw [hresolve] at hresolve'
                    cases hresolve'
                    exact hkeeps hreclassifies

theorem finaliseGoldenMaster_total {tools : Tools} {setup : Setup} {golden : Option Resolved}
    (hresolve : tools.resolve setup.programId setup.goldenMaster = .ok golden)
    (response : Response) (diagnostics : List Diagnostic) (run : Option RunResult) :
    ∃ finished, finaliseGoldenMaster tools setup response diagnostics run = .ok finished := by
  unfold finaliseGoldenMaster
  rw [hresolve]
  cases golden with
  | none => exact ⟨_, rfl⟩
  | some golden =>
      dsimp only
      split
      · split
        · exact ⟨_, rfl⟩
        · exact ⟨_, rfl⟩
      · exact ⟨_, rfl⟩

theorem overwrites_returns {u : UnicodeData} {tools : Tools} {setup : Setup}
    (hoverwrites : OverwritesRunFailure tools setup) :
    ∃ response, verify u tools setup = .ok response := by
  obtain ⟨horacle, ⟨run, hrun, hran, hok⟩, golden, hresolve, -⟩ := hoverwrites
  unfold startedRun at hrun
  split at hrun
  · rename_i hstarted
    simp only [Bool.and_eq_true, Bool.not_eq_true'] at hstarted
    obtain rfl := Option.mem_some_iff.mp hrun
    have hcompile : (tools.compile setup.files).ok = true := by
      simp only [compiled, Bool.and_eq_true] at hstarted
      exact hstarted.1.2
    rw [verify_compiled hstarted.1]
    unfold runCompiled
    simp only [hcompile, hstarted.2, hran, hok, horacle, Bool.not_true, Bool.not_false,
      Bool.false_eq_true, if_false, if_true]
    exact finaliseGoldenMaster_total hresolve _ _ _
  · cases hrun

theorem runVerification_eq_verify {u : UnicodeData} (tools : Tools) {request : Option ObjectMap}
    {setup : Setup} (hsetup : readRequest u request = .ok setup) :
    runVerification u tools request = verify u tools setup := by
  unfold runVerification
  rw [hsetup]
  rfl

/-- Every response to a request is sound exactly when the golden-master branch
does not overwrite the status of a failed run. -/
theorem runVerification_sound_iff (u : UnicodeData) (tools : Tools) (request : Option ObjectMap) :
    (∀ setup response, readRequest u request = .ok setup →
        runVerification u tools request = .ok response → Sound tools setup response) ↔
      ∀ setup, readRequest u request = .ok setup → ¬ OverwritesRunFailure tools setup := by
  constructor
  · intro hsound setup hsetup hoverwrites
    obtain ⟨response, hresponse⟩ := overwrites_returns (u := u) hoverwrites
    have hrun : runVerification u tools request = .ok response :=
      (runVerification_eq_verify tools hsetup).trans hresponse
    exact (sound_iff_not_overwrites hresponse).mp (hsound setup response hsetup hrun) hoverwrites
  · intro hkeeps setup response hsetup hresponse
    have hverify : verify u tools setup = .ok response :=
      (runVerification_eq_verify tools hsetup).symm.trans hresponse
    exact (sound_iff_not_overwrites hverify).mpr (hkeeps setup hsetup)

/-- A compiler that accepts everything, a program that exits with one, and no
golden master. -/
def failingTools : Tools where
  materialise _ := .written
  compile _ := ⟨true, [], 1⟩
  launch _ _ := .processFailure 1 (by decide) [] [] "process-exit-1".toList []
  resolve _ _ := .ok none
  reproduce _ _ := .unavailable
  executeSource _ _ _ _ := .unavailable

/-- A request for a verification without a comparison. -/
def uncomparedRequest : ObjectMap :=
  [("programId".toList, .str "P".toList),
    ("generatedProject".toList, .map [("entryClass".toList, .str "Main".toList),
      ("files".toList, .map [("Main.java".toList, .str "class Main {}".toList)])]),
    ("options".toList, .map [("compareOutput".toList, .bool false)])]

/-- A program that exits with one is reported with status `ok`. -/
theorem failed_run_reported_ok :
    ¬ ∀ setup response, readRequest .ascii (some uncomparedRequest) = .ok setup →
      runVerification .ascii failingTools (some uncomparedRequest) = .ok response →
        Sound failingTools setup response := by
  intro hsound
  obtain ⟨setup, hsetup⟩ : ∃ setup, readRequest .ascii (some uncomparedRequest) = .ok setup :=
    ⟨_, rfl⟩
  obtain ⟨response, hresponse⟩ :
      ∃ response, runVerification .ascii failingTools (some uncomparedRequest) = .ok response :=
    ⟨_, rfl⟩
  have hstatus : (runVerification .ascii failingTools (some uncomparedRequest)).map
      Response.status = .ok (some .ok) := by
    rfl
  have hstarted : (readRequest .ascii (some uncomparedRequest)).map (fun setup =>
      (startedRun failingTools setup).map RunResult.ok) = .ok (some false) := by
    rfl
  rw [hresponse] at hstatus
  rw [hsetup] at hstarted
  have hok := (hsound setup response hsetup hresponse).okOnlyAfterSuccess
    (Except.ok.inj hstatus)
  obtain ⟨run, hrun, hfailed⟩ := Option.map_eq_some_iff.mp (Except.ok.inj hstarted)
  rw [hok.2 run hrun] at hfailed
  cases hfailed

end C2c.BuildTest.RunFailures
