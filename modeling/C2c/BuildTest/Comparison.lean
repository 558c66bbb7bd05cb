import C2c.Library.JavaText

namespace C2c.BuildTest.Comparison

open C2c.Library.JavaText

/-- `replace("\r\n", "\n")`. -/
def replaceCrLf : Text → Text
  | [] => []
  | '\r' :: '\n' :: t => '\n' :: replaceCrLf t
  | c :: t => c :: replaceCrLf t

def normalizeLineEndingsOnly (value : Text) : Text :=
  (replaceCrLf value).map fun c => if c = '\r' then '\n' else c

def stripTrailingHorizontalWhitespace (value : Text) : Text :=
  value.rdropWhile fun c => c == ' ' || c == '\t'

def strippedLines (value : Text) : List Text :=
  ((normalizeLineEndingsOnly value).splitOn '\n').map stripTrailingHorizontalWhitespace

/-- `DeterministicComparisonPolicy.normalize`. -/
def normalize (value : Text) : Text :=
  joinWith ['\n'] ((strippedLines value).rdropWhile List.isEmpty)

def stripTrailingWhitespaceOnly (value : Text) : Text :=
  joinWith ['\n'] (strippedLines value)

def policyVersion : Text :=
  "deterministic-output-v1".toList

/-- The `status` of an execution section. -/
inductive ExecutionStatus
  | passed
  | failed
  | timedOut
  | skipped
deriving DecidableEq

/-- `ParityComparison.ExecutionFact`. -/
structure ExecutionFact where
  status : ExecutionStatus
  exitCode : Option Int
  stdout : Text
  stderr : Text
  surfaceLabel : Text
deriving DecidableEq

inductive ComparisonStatus
  | passed
  | failed
  | blocked
deriving DecidableEq

inductive Mismatch
  | none
  | runtimeFailure
  | exitCode
  | stderr
  | lineEndings
  | formatting
  | content
  | unsupportedInput
deriving DecidableEq

def Mismatch.text : Mismatch → Text
  | .none => "none".toList
  | .runtimeFailure => "runtime_failure".toList
  | .exitCode => "exit_code".toList
  | .stderr => "stderr".toList
  | .lineEndings => "line_endings".toList
  | .formatting => "formatting".toList
  | .content => "content".toList
  | .unsupportedInput => "unsupported_input".toList

/-- A parity comparison result: the two surfaces it was asked about and what
it found. -/
structure ParityResult where
  status : ComparisonStatus
  mismatch : Mismatch
  diffSummary : Text
  source : Option ExecutionFact
  target : Option ExecutionFact
deriving DecidableEq

def ParityResult.matched (result : ParityResult) : Bool :=
  result.status == .passed

/-- A source without an exit code stands for one that ended with zero. -/
def sameExitCode : Option Int → Option Int → Bool
  | none, right => right == some 0
  | some _, none => false
  | some left, some right => left == right

def classifyStdoutMismatch (sourceStdout targetStdout : Text) : Mismatch :=
  if normalizeLineEndingsOnly sourceStdout = normalizeLineEndingsOnly targetStdout then
    .lineEndings
  else if stripTrailingWhitespaceOnly sourceStdout = stripTrailingWhitespaceOnly targetStdout then
    .formatting
  else .content

def firstDivergenceIndex : Text → Text → Nat
  | c :: left, d :: right => if c = d then firstDivergenceIndex left right + 1 else 0
  | _, _ => 0

def buildStdoutDiffSummary (source target : Text) (mismatch : Mismatch) : Text :=
  "Normalized stdout mismatch (".toList ++ mismatch.text ++ ") at character ".toList ++
    natText (firstDivergenceIndex source target) ++ "; sourceLength=".toList ++
    natText source.length ++ " targetLength=".toList ++ natText target.length ++ ['.']

/-- What `compare` finds: the first of status, exit code, stderr and stdout
that differs. -/
def judge (source target : ExecutionFact) : ComparisonStatus × Mismatch :=
  if source.status ≠ .passed ∨ target.status ≠ .passed then (.failed, .runtimeFailure)
  else if ¬ sameExitCode source.exitCode target.exitCode then (.failed, .exitCode)
  else if normalize source.stderr ≠ normalize target.stderr then (.failed, .stderr)
  else if normalize source.stdout ≠ normalize target.stdout then
    (.failed, classifyStdoutMismatch source.stdout target.stdout)
  else (.passed, .none)

/-- The `diffSummary` that goes with a finding. -/
def diffSummary (source target : ExecutionFact) : Mismatch → Text
  | .none => "Reference/source and generated Java outputs matched under ".toList ++
      policyVersion ++ ['.']
  | .runtimeFailure => ("Comparison could not prove parity because at least one execution " ++
      "surface did not finish successfully.").toList
  | .exitCode => ("Exit codes differ between the reference/source and generated Java " ++
      "executions.").toList
  | .stderr => ("Normalized stderr differs between the reference/source and generated Java " ++
      "executions.").toList
  | mismatch => buildStdoutDiffSummary (normalize source.stdout) (normalize target.stdout) mismatch

/-- `ParityComparison.compare`. -/
def compare (source target : ExecutionFact) : ParityResult where
  status := (judge source target).1
  mismatch := (judge source target).2
  diffSummary := diffSummary source target (judge source target).2
  source := some source
  target := some target

/-- `ParityComparison.runtimeFailure`, without a source surface. -/
def runtimeFailure (target : ExecutionFact) (reason : Text) : ParityResult where
  status := .failed
  mismatch := .runtimeFailure
  diffSummary := reason
  source := none
  target := some target

/-- `ParityComparison.unsupported`, without a source surface. -/
def unsupported (target : ExecutionFact) (reason : Text) : ParityResult where
  status := .blocked
  mismatch := .unsupportedInput
  diffSummary := reason
  source := none
  target := some target

theorem replaceCrLf_append_cons (x t : Text) :
    ∃ before, replaceCrLf (x ++ '\n' :: t) = before ++ '\n' :: replaceCrLf t := by
  induction x using replaceCrLf.induct with
  | case1 =>
      refine ⟨[], ?_⟩
      rw [List.nil_append, replaceCrLf, List.nil_append]
      rintro _ ⟨⟩
  | case2 x ih =>
      obtain ⟨before, hbefore⟩ := ih
      exact ⟨'\n' :: before, by simp [replaceCrLf, hbefore]⟩
  | case3 c x hpair ih =>
      obtain ⟨before, hbefore⟩ := ih
      by_cases hend : c = '\r' ∧ x = []
      · obtain ⟨rfl, rfl⟩ := hend
        exact ⟨[], by simp [replaceCrLf]⟩
      · refine ⟨c :: before, ?_⟩
        rw [List.cons_append, replaceCrLf, hbefore, List.cons_append]
        rintro rest rfl hrest
        cases x with
        | nil => exact hend ⟨rfl, rfl⟩
        | cons d x =>
            obtain ⟨rfl, -⟩ := List.cons.inj hrest
            exact hpair x rfl rfl

/-- Behind a line feed the lines are those of the rest. -/
theorem strippedLines_append_cons (x t : Text) :
    ∃ before, strippedLines (x ++ '\n' :: t) = before ++ strippedLines t := by
  obtain ⟨before, hbefore⟩ := replaceCrLf_append_cons x t
  unfold strippedLines normalizeLineEndingsOnly
  rw [hbefore, List.map_append, List.map_cons, if_neg (by decide), List.splitOn_append_cons_self,
    List.map_append]
  exact ⟨_, rfl⟩

theorem suffix_joinWith (separator line : Text) (before : List Text) :
    line <:+ joinWith separator (before ++ [line]) := by
  induction before with
  | nil => simp [joinWith]
  | cons first before ih =>
      rw [joinWith, List.cons_append, List.intercalate_cons_of_ne_nil (by simp)]
      exact ih.trans (List.suffix_append _ _)

/-- A text normalizes to one that ends with its last line that is not blank. -/
theorem suffix_normalize (x : Text) {t line : Text}
    (h : (strippedLines t).rdropWhile List.isEmpty = [line]) :
    line <:+ normalize (x ++ '\n' :: t) := by
  obtain ⟨before, hbefore⟩ := strippedLines_append_cons x t
  have hlast : (before ++ strippedLines t).rdropWhile List.isEmpty = before ++ [line] := by
    unfold List.rdropWhile at h ⊢
    have hkept : ((strippedLines t).reverse.dropWhile List.isEmpty) = [line] := by
      rw [← List.reverse_reverse (List.dropWhile _ _), h, List.reverse_singleton]
    rw [List.reverse_append, List.dropWhile_append, hkept]
    simp
  rw [normalize, hbefore, hlast]
  exact suffix_joinWith _ _ _

/-- The two surfaces ended well, with the same exit code and, up to the
policy, the same output on both streams. -/
structure SameBehaviour (source target : ExecutionFact) : Prop where
  sourcePassed : source.status = .passed
  targetPassed : target.status = .passed
  exitCode : sameExitCode source.exitCode target.exitCode = true
  stderr : normalize source.stderr = normalize target.stderr
  stdout : normalize source.stdout = normalize target.stdout

theorem sameExitCode_iff (left right : Option Int) :
    sameExitCode left right = true ↔ right = some (left.getD 0) := by
  cases left with
  | none => simp [sameExitCode]
  | some left =>
      cases right with
      | none => simp [sameExitCode]
      | some right => simpa [sameExitCode] using eq_comm

theorem compare_matched_iff (source target : ExecutionFact) :
    (compare source target).matched = true ↔ SameBehaviour source target := by
  simp only [ParityResult.matched, compare, beq_iff_eq]
  unfold judge
  constructor
  · intro h
    split at h
    · cases h
    · split at h
      · cases h
      · split at h
        · cases h
        · split at h
          · cases h
          · rename_i hpassed hexit hstderr hstdout
            push Not at hpassed hexit hstderr hstdout
            exact ⟨hpassed.1, hpassed.2, hexit, hstderr, hstdout⟩
  · rintro ⟨hsource, htarget, hexit, hstderr, hstdout⟩
    simp [hsource, htarget, hexit, hstderr, hstdout]

end C2c.BuildTest.Comparison
