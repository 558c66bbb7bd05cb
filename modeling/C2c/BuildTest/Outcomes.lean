import C2c.BuildTest.Comparison
import C2c.Library.JavaObject

namespace C2c.BuildTest.Outcomes

open C2c.Library.JavaText
open C2c.Library.JavaObject
open C2c.BuildTest.Comparison

inductive Severity
  | error
  | warning
  | info
deriving DecidableEq

/-- A diagnostic of the response, before `DiagnosticBounds` cuts its texts. -/
structure Diagnostic where
  severity : Severity
  code : Text
  filePath : Text
  line : Nat
  column : Nat
  message : Text
deriving DecidableEq

/-- The `STATUS_` constants of `ResultClassifier`. -/
inductive Status
  | ok
  | compileFailed
  | runFailed
  | outputDivergence
  | goldenMasterReproductionFailed
  | missingGoldenMaster
  | skipped
  | oracleUnavailable
  | oracleCompileFailed
  | oracleRunFailed
  | oracleInvalid
deriving DecidableEq

/-- The `CLASS_` constants of `ResultClassifier`. -/
inductive Classifier
  | match
  | divergenceKnown
  | divergenceUnknown
  | trueGoldenMasterReproductionError
  | trueGoldenMasterMismatch
  | compileError
  | runError
  | skipped
  | missingGoldenMaster
  | oracleUnavailable
  | oracleCompileError
  | oracleRunError
  | oracleInvalid
deriving DecidableEq

/-- The map `ResultClassifier.classification` builds. -/
structure Classification where
  status : Status
  classification : Classifier
  summary : Text
deriving DecidableEq

def compileFailure : Classification :=
  ⟨.compileFailed, .compileError,
    "Generated Java did not compile; see build.diagnostics for javac errors.".toList⟩

def runFailure (errorClass : Option Text) : Classification :=
  ⟨.runFailed, .runError,
    "Generated program failed to run: ".toList ++ errorClass.getD "unknown".toList⟩

def skipped (reason : Text) : Classification :=
  ⟨.skipped, .skipped, "Execution skipped: ".toList ++ reason⟩

def missingGoldenMaster (programId : Text) : Classification :=
  ⟨.missingGoldenMaster, .missingGoldenMaster,
    "No Golden Master fixture available for programId=".toList ++ programId⟩

def match_ : Classification :=
  ⟨.ok, .match, "Generated stdout matched Golden Master.".toList⟩

def divergence (knownCoverageGap : Bool) (summary : Text) : Classification :=
  ⟨.outputDivergence, if knownCoverageGap then .divergenceKnown else .divergenceUnknown, summary⟩

def trueGoldenMasterReproductionError (summary : Text) : Classification :=
  ⟨.goldenMasterReproductionFailed, .trueGoldenMasterReproductionError, summary⟩

def trueGoldenMasterMismatch (summary : Text) : Classification :=
  ⟨.goldenMasterReproductionFailed, .trueGoldenMasterMismatch, summary⟩

/-- The summary of the four oracle classifications: a missing or blank one
gives way to the fallback. -/
def summaryOr (fallback : Text) (summary : Option Text) : Text :=
  match summary with
  | some text => if isBlank text then fallback else text
  | none => fallback

def oracleUnavailable (summary : Option Text) : Classification :=
  ⟨.oracleUnavailable, .oracleUnavailable, summaryOr
    "GnuCOBOL toolchain (cobc/cobcrun) is unavailable; cannot prove equivalence.".toList summary⟩

def oracleCompileError (summary : Option Text) : Classification :=
  ⟨.oracleCompileFailed, .oracleCompileError, summaryOr
    "cobc failed to compile the UI-provided COBOL source.".toList summary⟩

def oracleRunError (summary : Option Text) : Classification :=
  ⟨.oracleRunFailed, .oracleRunError, summaryOr
    "cobcrun failed to execute the UI-provided COBOL module.".toList summary⟩

def oracleInvalid (summary : Option Text) : Classification :=
  ⟨.oracleInvalid, .oracleInvalid, summaryOr "Oracle request is invalid.".toList summary⟩

/-- How `GeneratedProjectMaterializer.materialise` ends. -/
inductive Materialised
  | written
  | unsafe_ (message : Text)
  | ioError (message : Text)

/-- `JavaInMemoryCompiler.CompileResult`. -/
structure CompileResult where
  ok : Bool
  diagnostics : List Diagnostic
  sourceCount : Nat

/-- `GeneratedProgramRunner.RunResult`, one constructor a factory method.  A
process that ends with zero is a `success`. -/
inductive RunResult
  | success (stdout stderr : Text)
  | timeout (timeoutMs : Int) (stdout stderr : Text)
  | processFailure (exitCode : Int) (nonzero : exitCode ≠ 0)
      (stdout stderr errorClass errorMessage : Text)
  | runError (errorClass errorMessage : Text)
  | skipped (errorClass message : Text)

namespace RunResult

def ran : RunResult → Bool
  | .runError .. | .skipped .. => false
  | _ => true

def ok : RunResult → Bool
  | .success .. => true
  | _ => false

def exitCode : RunResult → Int
  | .success .. => 0
  | .timeout .. => 124
  | .processFailure code .. => code
  | .runError .. | .skipped .. => -1

def stdout : RunResult → Text
  | .success stdout _ => stdout
  | .timeout _ stdout _ => stdout
  | .processFailure _ _ stdout _ _ _ => stdout
  | .runError .. | .skipped .. => []

def stderr : RunResult → Text
  | .success _ stderr => stderr
  | .timeout _ _ stderr => stderr
  | .processFailure _ _ _ stderr _ _ => stderr
  | .runError .. | .skipped .. => []

def errorClass : RunResult → Option Text
  | .success .. => none
  | .timeout .. => some "timeout".toList
  | .processFailure _ _ _ _ errorClass _ => some errorClass
  | .runError errorClass _ => some errorClass
  | .skipped errorClass _ => some errorClass

def errorMessage : RunResult → Option Text
  | .success .. => none
  | .timeout ms _ _ => some ("Generated program exceeded ".toList ++ intText ms ++
      "ms wall-clock budget".toList)
  | .processFailure _ _ _ _ _ errorMessage => some errorMessage
  | .runError _ errorMessage => some errorMessage
  | .skipped _ message => some message

theorem ran_of_ok {run : RunResult} (h : run.ok = true) : run.ran = true := by
  cases run <;> simp_all [ok, ran]

theorem exitCode_eq_zero_iff (run : RunResult) : run.exitCode = 0 ↔ run.ok = true := by
  cases run with
  | success stdout stderr => simp [exitCode, ok]
  | timeout ms stdout stderr => simp [exitCode, ok]
  | processFailure code nonzero => simp [exitCode, ok, nonzero]
  | runError errorClass errorMessage => simp [exitCode, ok]
  | skipped errorClass message => simp [exitCode, ok]

end RunResult

/-- `GoldenMaster.Resolved`. -/
structure Resolved where
  programId : Text
  expected : Text
  classification : Text
  source : Text
  cobolSource : Text
  knownDivergenceAtW0 : Bool

def Resolved.isTrueFixture (golden : Resolved) : Bool :=
  golden.classification == "true".toList

/-- `CobolRuntimeExecutor.Reproduction`, one constructor a factory method. -/
inductive Reproduction
  | notAttempted (reason : Text)
  | unavailable
  | failedBeforeCompile (reason : Text)
  | compileFailed (compileExitCode : Int) (stderr : Text)
  | ran (exitCode : Int) (stdout stderr reason : Text) (matched : Bool)

namespace Reproduction

def available : Reproduction → Bool
  | .notAttempted _ | .unavailable => false
  | _ => true

def compileOk : Reproduction → Bool
  | .ran .. => true
  | _ => false

def hasRun : Reproduction → Bool
  | .ran .. => true
  | _ => false

def exitCode : Reproduction → Int
  | .ran exitCode .. => exitCode
  | _ => -1

def matched : Reproduction → Bool
  | .ran _ _ _ _ matched => matched
  | _ => false

def ok (reproduction : Reproduction) : Bool :=
  reproduction.exitCode == 0 && reproduction.matched

def reason : Reproduction → Text
  | .notAttempted reason => reason
  | .unavailable => "cobc and cobcrun must be available for true Golden Master reproduction".toList
  | .failedBeforeCompile reason => reason
  | .compileFailed .. => "cobc failed".toList
  | .ran exitCode _ _ reason _ => if exitCode = 0 then [] else reason

end Reproduction

/-- `CobolRuntimeExecutor.OracleRun`, one constructor a factory method. -/
inductive OracleRun
  | invalidInput (reason : Text)
  | unavailable
  | compileFailed (compileExitCode : Int) (stderr : Text)
  | ran (exitCode : Int) (stdout stderr reason : Text)
  | ioError

namespace OracleRun

def attempted : OracleRun → Bool
  | .invalidInput _ => false
  | _ => true

def available : OracleRun → Bool
  | .invalidInput _ | .unavailable => false
  | _ => true

def compileOk : OracleRun → Bool
  | .ran .. => true
  | _ => false

def runOk : OracleRun → Bool
  | .ran exitCode .. => exitCode == 0
  | _ => false

def compileExitCode : OracleRun → Int
  | .compileFailed compileExitCode _ => compileExitCode
  | .ran .. => 0
  | _ => -1

def exitCode : OracleRun → Int
  | .ran exitCode .. => exitCode
  | _ => -1

def stdout : OracleRun → Text
  | .ran _ stdout .. => stdout
  | _ => []

def reason : OracleRun → Text
  | .invalidInput reason => reason
  | .unavailable => "GnuCOBOL cobc/cobcrun are not available on this host".toList
  | .compileFailed .. => "cobc failed to compile the oracle source".toList
  | .ran exitCode _ _ reason =>
      if exitCode = 0 then []
      else if isBlank reason then "cobcrun exited with code ".toList ++ intText exitCode
      else reason
  | .ioError => "I/O error while preparing or running the oracle".toList

end OracleRun

/-- The tools `runVerification` calls: the work directory, `javac`, the forked
JVM, the golden-master lookup and the COBOL toolchain. -/
structure Tools where
  materialise : List (Text × Text) → Materialised
  compile : List (Text × Text) → CompileResult
  launch : Text → Int → RunResult
  resolve : Text → ObjectMap → Except JavaException (Option Resolved)
  reproduce : Resolved → Int → Reproduction
  executeSource : Text → Option Text → Option Text → Int → OracleRun

/-- `GeneratedProgramRunner.run`. -/
def Tools.run (tools : Tools) (entryClass : Option Text) (timeoutMs : Int) : RunResult :=
  match entryClass with
  | some name =>
      if isBlank name then missingEntryClass else tools.launch name timeoutMs
  | none => missingEntryClass
where
  missingEntryClass : RunResult :=
    .skipped "missing-entry-class".toList
      "entryClass is required to execute the generated program".toList

end C2c.BuildTest.Outcomes
