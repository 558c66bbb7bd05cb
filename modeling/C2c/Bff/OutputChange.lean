import C2c.Bff.RunViews
import C2c.Library.EditGraph

/-!
The explanation of an output change between two runs: the lines that differ, and
the recorded inputs that differ.
-/

namespace C2c.Bff.OutputChange

open C2c.Library.JavaText
open C2c.Library.JsonText
open C2c.Library.EditGraph
open C2c.Bff.RunViews (Record property asRecord asString asNumber)

section Artifacts

structure OutputRef where
  sha256 : Text
  byteSize : Option Rat := none
  kind : Option Text := none
  path : Option Text := none
  name : Option Text := none
  mimeType : Option Text := none
  createdBy : Option Text := none
  createdAt : Option Text := none
deriving DecidableEq

/-- What `||` makes of an empty text. -/
def textOrNull (value : Text) : Option Text :=
  if value = [] then none else some value

structure OutputChangeRunArtifacts where
  runId : Text
  programId : Text
  status : Text
  executionMode : Option Text
  trustCaseId : Option Text
  trustCaseConfigurationDigest : Option Text
  trustCaseEnvironmentProfileId : Option Text
  trustCaseComparisonPolicyVersion : Option Text
  sourceReferenceFixtureId : Option Text
  sourceReferenceMode : Option Text
  trustSummary : Option Record
  generatedArtifactRef : Option OutputRef
  sourceHash : Option Text
  actualOutput : Option Text
  comparisonDiffRef : Option OutputRef
  evidenceStatus : Option Text
  manualEditsCarriedOver : Bool
  manualDriftRegionCount : Int

def artifactAt (value : Option Json) : Option OutputRef :=
  match asRecord value with
  | none => none
  | some record =>
      let sha256 := asString (property record "sha256")
      let text (name : String) := textOrNull (asString (property record name))
      if sha256 = [] then none
      else some {
        sha256
        byteSize := asNumber (property record "byteSize")
        kind := text "kind"
        path := text "path"
        name := text "name"
        mimeType := text "mimeType"
        createdBy := text "createdBy"
        createdAt := text "createdAt" }

/-- A reference in a section of the trust summary. -/
def sectionRef (summary : Option Record) (name field : String) : Option OutputRef := do
  let record ← summary
  let sectionRecord ← asRecord (property record name)
  artifactAt (property sectionRecord field)

def trustCaseId (summary : Option Record) : Option Text := do
  let record ← summary
  let trustCase ← asRecord (property record "trustCase")
  textOrNull (asString (property trustCase "trustCaseId"))

def normalizedRef (summary : Option Record) (key : String) : Option OutputRef :=
  sectionRef summary key "normalizedOutputRef"

def comparisonDiffRef (summary : Option Record) : Option OutputRef :=
  sectionRef summary "comparisonResult" "diffRef"

def repairDecisionRef (summary : Option Record) : Option OutputRef :=
  sectionRef summary "repair" "repairDecisionRef"

def comparisonPolicyRef (summary : Option Record) : Option OutputRef :=
  sectionRef summary "comparisonResult" "comparisonPolicyRef"

end Artifacts

section Delta

inductive LineKind
  | context
  | added
  | removed
deriving DecidableEq

structure OutputDeltaLine where
  kind : LineKind
  content : Text
deriving DecidableEq

structure OutputChangeDeltaSummary where
  changed : Bool
  addedLineCount : Nat
  removedLineCount : Nat
  excerpt : List OutputDeltaLine
  currentNormalizedOutputRef : Option OutputRef
  previousNormalizedOutputRef : Option OutputRef
  currentComparisonDiffRef : Option OutputRef
  previousComparisonDiffRef : Option OutputRef

/-- `replace(/\r\n/g, "\n")`. -/
def replaceLineEnds : Text → Text
  | '\r' :: '\n' :: t => '\n' :: replaceLineEnds t
  | c :: t => c :: replaceLineEnds t
  | [] => []

def sourceLines (value : Option Text) : List Text :=
  match value with
  | none | some [] => []
  | some value => (replaceLineEnds value).splitOn '\n'

/-- The number of lines from the start on that are the same: `start`. -/
def commonPrefixLength : List Text → List Text → Nat
  | p :: previous, c :: current => if p = c then commonPrefixLength previous current + 1 else 0
  | _, _ => 0

/-- The number of lines before the end that are the same, none of which are among
the first `start` lines. -/
def commonSuffixLength (previous current : List Text) (start : Nat) : Nat :=
  commonPrefixLength (previous.drop start).reverse (current.drop start).reverse

/-- `slice(start, end + 1)`, where `suffix` lines come after `end`. -/
def between (lines : List Text) (start suffix : Nat) : List Text :=
  (lines.take (lines.length - suffix)).drop start

def buildExcerpt (previousValue currentValue : Option Text) : List OutputDeltaLine :=
  let previousLines := sourceLines previousValue
  let currentLines := sourceLines currentValue
  let start := commonPrefixLength previousLines currentLines
  let suffix := commonSuffixLength previousLines currentLines start
  let before := if 0 < start then
      [⟨.context, (previousLines[start - 1]?).getD []⟩]
    else []
  let removed := ((between previousLines start suffix).take 4).map (OutputDeltaLine.mk .removed)
  let added := ((between currentLines start suffix).take 4).map (OutputDeltaLine.mk .added)
  let after := if 0 < suffix then
      [⟨.context, (previousLines[previousLines.length - suffix]?).getD []⟩]
    else []
  before ++ removed ++ added ++ after

/-- The lines that the loop of `buildOutputDelta` counts as removed and as added,
index by index; where one output has no line left, every line of the other counts. -/
def lineCounts : List Text → List Text → Nat × Nat
  | [], current => (0, current.length)
  | p :: previous, [] => ((p :: previous).length, 0)
  | p :: previous, c :: current =>
      if p = c then lineCounts previous current
      else ((lineCounts previous current).1 + 1, (lineCounts previous current).2 + 1)

def buildOutputDelta (currentRun previousRun : OutputChangeRunArtifacts) :
    OutputChangeDeltaSummary :=
  let counts := lineCounts (sourceLines previousRun.actualOutput)
    (sourceLines currentRun.actualOutput)
  { changed := currentRun.actualOutput.getD [] ≠ previousRun.actualOutput.getD []
    addedLineCount := counts.2
    removedLineCount := counts.1
    excerpt := buildExcerpt previousRun.actualOutput currentRun.actualOutput
    currentNormalizedOutputRef := normalizedRef currentRun.trustSummary "javaResult"
    previousNormalizedOutputRef := normalizedRef previousRun.trustSummary "javaResult"
    currentComparisonDiffRef :=
      currentRun.comparisonDiffRef.or (comparisonDiffRef currentRun.trustSummary)
    previousComparisonDiffRef :=
      previousRun.comparisonDiffRef.or (comparisonDiffRef previousRun.trustSummary) }

end Delta

section Explanation

inductive OutputChangeCategory
  | cobolEdit
  | generatedJavaRefresh
  | manualJavaEdit
  | repairPatch
  | trustCaseChange
  | runtimeConfigurationChange
  | normalizationRuleChange
  | causeNotDeterminable
deriving DecidableEq

/-- The name of a category with blanks for `_`. -/
def OutputChangeCategory.words : OutputChangeCategory → Text
  | .cobolEdit => "cobol edit".toList
  | .generatedJavaRefresh => "generated java refresh".toList
  | .manualJavaEdit => "manual java edit".toList
  | .repairPatch => "repair patch".toList
  | .trustCaseChange => "trust case change".toList
  | .runtimeConfigurationChange => "runtime configuration change".toList
  | .normalizationRuleChange => "normalization rule change".toList
  | .causeNotDeterminable => "cause not determinable".toList

inductive OutputChangeUnavailableReason
  | previousRunMissing
  | sameRunNotAllowed
  | runNotCompleted
  | nonParityRun
  | missingTrustSummary
  | missingNormalizedOutput
  | missingObservedOutput
  | evidenceIncomplete
deriving DecidableEq

structure OutputChangeEvidenceLink where
  label : String
  currentRef : Option OutputRef := none
  previousRef : Option OutputRef := none

structure OutputChangeCategoryEntry where
  category : OutputChangeCategory
  changed : Bool
  title : String
  detail : String
  evidenceLinks : List OutputChangeEvidenceLink

inductive Determination
  | singleChange
  | multipleChanges
  | notDeterminable
deriving DecidableEq

structure OutputChangeExplanationResult where
  unavailableReason : Option OutputChangeUnavailableReason
  currentRunId : Text
  previousRunId : Text
  programId : Text
  currentTrustCaseId : Option Text
  previousTrustCaseId : Option Text
  determination : Determination
  primaryCategory : Option OutputChangeCategory
  summary : Text
  categories : List OutputChangeCategoryEntry
  outputDelta : Option OutputChangeDeltaSummary
  evidenceLinks : List OutputChangeEvidenceLink

def unavailableSummary : OutputChangeUnavailableReason → String
  | .previousRunMissing =>
      "A previous parity run is required before output changes can be explained."
  | .sameRunNotAllowed => "Select a different baseline run before requesting an explanation."
  | .runNotCompleted => "Both runs must be completed before output changes can be explained."
  | .nonParityRun =>
      "Only completed parity runs can be compared for output-change analysis."
  | .missingTrustSummary =>
      "Deterministic trust evidence is incomplete for one of the selected runs."
  | .missingNormalizedOutput =>
      "Normalized output evidence is missing for one of the selected runs."
  | .missingObservedOutput => "Observed output is unavailable for one of the selected runs."
  | .evidenceIncomplete => "Evidence is incomplete for one of the selected runs."

def buildUnavailableOutputChangeExplanation (currentRun : OutputChangeRunArtifacts)
    (previousRunId : Text) (reason : OutputChangeUnavailableReason)
    (currentTrustCaseId previousTrustCaseId : Option Text) : OutputChangeExplanationResult where
  unavailableReason := some reason
  currentRunId := currentRun.runId
  previousRunId := previousRunId
  programId := currentRun.programId
  currentTrustCaseId := currentTrustCaseId
  previousTrustCaseId := previousTrustCaseId
  determination := .notDeterminable
  primaryCategory := none
  summary := (unavailableSummary reason).toList
  categories := []
  outputDelta := none
  evidenceLinks := []

variable (currentRun previousRun : OutputChangeRunArtifacts)

/-- The first guard of `buildOutputChangeExplanation` that the runs fail. -/
def unavailableReason : Option OutputChangeUnavailableReason :=
  if previousRun.runId = [] then some .previousRunMissing
  else if currentRun.runId = previousRun.runId then some .sameRunNotAllowed
  else if currentRun.status ≠ "completed".toList ∨ previousRun.status ≠ "completed".toList then
    some .runNotCompleted
  else if currentRun.executionMode ≠ some "parity".toList ∨
      previousRun.executionMode ≠ some "parity".toList then
    some .nonParityRun
  else if currentRun.trustSummary = none ∨ previousRun.trustSummary = none then
    some .missingTrustSummary
  else if currentRun.actualOutput = none ∨ previousRun.actualOutput = none then
    some .missingObservedOutput
  else if normalizedRef currentRun.trustSummary "javaResult" = none ∨
      normalizedRef previousRun.trustSummary "javaResult" = none then
    some .missingNormalizedOutput
  else if currentRun.evidenceStatus = some "incomplete".toList ∨
      previousRun.evidenceStatus = some "incomplete".toList then
    some .evidenceIncomplete
  else none

/-- Whether a recorded text differs; an empty one counts as none. -/
def textDiffers (field : OutputChangeRunArtifacts → Option Text) : Bool :=
  (field currentRun).bind textOrNull ≠ (field previousRun).bind textOrNull

def cobolChanged : Bool :=
  textDiffers currentRun previousRun (·.sourceHash)

def trustCaseChanged : Bool :=
  textDiffers currentRun previousRun (·.trustCaseId) ||
    textDiffers currentRun previousRun (·.trustCaseConfigurationDigest)

def runtimeConfigChanged : Bool :=
  !trustCaseChanged currentRun previousRun &&
    (textDiffers currentRun previousRun (·.trustCaseEnvironmentProfileId) ||
      textDiffers currentRun previousRun (·.sourceReferenceFixtureId) ||
      textDiffers currentRun previousRun (·.sourceReferenceMode))

def normalizationChanged : Bool :=
  textDiffers currentRun previousRun (·.trustCaseComparisonPolicyVersion)

def manualJavaChanged : Bool :=
  currentRun.manualEditsCarriedOver ≠ previousRun.manualEditsCarriedOver ||
    currentRun.manualDriftRegionCount ≠ previousRun.manualDriftRegionCount

/-- `ref?.sha256 ?? ""`. -/
def shaOf (ref : Option OutputRef) : Text :=
  ref.elim [] OutputRef.sha256

def repairChanged : Bool :=
  shaOf (repairDecisionRef currentRun.trustSummary) ≠
    shaOf (repairDecisionRef previousRun.trustSummary)

def generatedRefreshChanged : Bool :=
  shaOf currentRun.generatedArtifactRef ≠ shaOf previousRun.generatedArtifactRef &&
    !cobolChanged currentRun previousRun && !manualJavaChanged currentRun previousRun &&
    !repairChanged currentRun previousRun && !trustCaseChanged currentRun previousRun &&
    !runtimeConfigChanged currentRun previousRun && !normalizationChanged currentRun previousRun

def categoryEntry (category : OutputChangeCategory) (changed : Bool)
    (title changedDetail unchangedDetail : String) (evidenceLinks : List OutputChangeEvidenceLink) :
    OutputChangeCategoryEntry where
  category := category
  changed := changed
  title := title
  detail := if changed then changedDetail else unchangedDetail
  evidenceLinks := evidenceLinks

/-- The entries of the categories that a cause can have. -/
def categoryEntries : List OutputChangeCategoryEntry :=
  [categoryEntry .cobolEdit (cobolChanged currentRun previousRun) "COBOL source changed"
      "The generated-run source hash differs between the selected runs."
      "The generated-run source hash is unchanged across the selected runs."
      [{ label := "Current normalized COBOL output"
         currentRef := normalizedRef currentRun.trustSummary "cobolResult" },
        { label := "Previous normalized COBOL output"
          previousRef := normalizedRef previousRun.trustSummary "cobolResult" }],
    categoryEntry .trustCaseChange (trustCaseChanged currentRun previousRun) "Trust case changed"
      "The trust-case identity or configuration digest differs between the selected runs."
      "The same trust-case identity and configuration digest were used in both runs."
      [⟨"Comparison policy reference", comparisonPolicyRef currentRun.trustSummary,
        comparisonPolicyRef previousRun.trustSummary⟩],
    categoryEntry .runtimeConfigurationChange (runtimeConfigChanged currentRun previousRun)
      "Runtime configuration changed"
      "A controlled runtime or source-reference setting changed between the selected runs."
      "The controlled runtime and source-reference settings are unchanged." [],
    categoryEntry .normalizationRuleChange (normalizationChanged currentRun previousRun)
      "Normalization rule changed"
      "The comparison policy version differs between the selected runs."
      "The comparison policy version is unchanged across the selected runs."
      [⟨"Comparison policy reference", comparisonPolicyRef currentRun.trustSummary,
        comparisonPolicyRef previousRun.trustSummary⟩],
    categoryEntry .manualJavaEdit (manualJavaChanged currentRun previousRun)
      "Manual Java edit changed"
      "Manual-edit provenance changed between the selected runs."
      "Manual-edit provenance is unchanged across the selected runs." [],
    categoryEntry .repairPatch (repairChanged currentRun previousRun) "Repair patch changed"
      "Repair-decision lineage differs between the selected runs."
      "Repair-decision lineage is unchanged across the selected runs."
      [⟨"Repair decision reference", repairDecisionRef currentRun.trustSummary,
        repairDecisionRef previousRun.trustSummary⟩],
    categoryEntry .generatedJavaRefresh (generatedRefreshChanged currentRun previousRun)
      "Generated Java candidate changed"
      "The final generated Java artifact changed without a stronger evidence-backed cause."
      "The final generated Java artifact did not change independently of stronger categories."
      [⟨"Generated Java artifact", currentRun.generatedArtifactRef,
        previousRun.generatedArtifactRef⟩]]

/-- `changedCategories`. -/
def changedCategories : List OutputChangeCategory :=
  ((categoryEntries currentRun previousRun).filter (·.changed)).map (·.category)

def determinationOf : List OutputChangeCategory → Determination
  | [] => .notDeterminable
  | [_] => .singleChange
  | _ => .multipleChanges

def summaryOf (changed : Bool) : List OutputChangeCategory → Text
  | [category] =>
      "The output change is most directly explained by ".toList ++ category.words ++ ['.']
  | [] =>
      if changed then
        ("The selected runs show an output difference, but the available evidence does not " ++
          "support one deterministic cause.").toList
      else "No output change was detected between the selected runs.".toList
  | _ =>
      ("Multiple evidence-backed changes occurred between the selected runs, so the output " ++
        "change cannot be reduced to one deterministic cause.").toList

def buildOutputChangeExplanation : OutputChangeExplanationResult :=
  match unavailableReason currentRun previousRun with
  | some reason =>
      buildUnavailableOutputChangeExplanation currentRun
        (if reason = .previousRunMissing then [] else previousRun.runId) reason
        (trustCaseId currentRun.trustSummary)
        (if reason = .previousRunMissing then none else trustCaseId previousRun.trustSummary)
  | none =>
      let outputDelta := buildOutputDelta currentRun previousRun
      let changedCategories := changedCategories currentRun previousRun
      let determination := determinationOf changedCategories
      let evidenceLinks : List OutputChangeEvidenceLink :=
        [⟨"Normalized Java output", normalizedRef currentRun.trustSummary "javaResult",
            normalizedRef previousRun.trustSummary "javaResult"⟩,
          ⟨"Parity diff artifact", outputDelta.currentComparisonDiffRef,
            outputDelta.previousComparisonDiffRef⟩,
          ⟨"Generated Java artifact", currentRun.generatedArtifactRef,
            previousRun.generatedArtifactRef⟩]
      { unavailableReason := none
        currentRunId := currentRun.runId
        previousRunId := previousRun.runId
        programId := currentRun.programId
        currentTrustCaseId := trustCaseId currentRun.trustSummary
        previousTrustCaseId := trustCaseId previousRun.trustSummary
        determination
        primaryCategory := if changedCategories.length = 1 then changedCategories.head? else none
        summary := summaryOf outputDelta.changed changedCategories
        categories := categoryEntries currentRun previousRun ++
          if determination = .notDeterminable then
            [⟨.causeNotDeterminable, true, "Cause not determinable",
              "No single evidence-backed change category fully explains the output delta.",
              evidenceLinks⟩]
          else []
        outputDelta := some outputDelta
        evidenceLinks }

end Explanation

section Statement

/-- The lines of a kind that an excerpt shows. -/
def shown (kind : LineKind) (excerpt : List OutputDeltaLine) : List Text :=
  (excerpt.filter fun line => line.kind = kind).map OutputDeltaLine.content

/-- The script that keeps the lines two outputs begin and end with, and does
`middle` in between. -/
def scriptAround (previous current : List Text) (middle : List (Edit Text)) :
    List (Edit Text) :=
  let start := commonPrefixLength previous current
  let suffix := commonSuffixLength previous current start
  (previous.take start).map Edit.keep ++ middle ++
    (previous.drop (previous.length - suffix)).map Edit.keep

/-- The counts of a delta are those of a script from the previous to the current
lines that keeps the common prefix and suffix, and that removes and adds the
lines the excerpt shows. -/
def Scripted (previous current : List Text) (delta : OutputChangeDeltaSummary) : Prop :=
  ∃ middle, let script := scriptAround previous current middle
    oldLines script = previous ∧ newLines script = current ∧
    script.countP Edit.isRemove = delta.removedLineCount ∧
    script.countP Edit.isAdd = delta.addedLineCount ∧
    (middle.filter fun edit => !edit.isAdd).take (shown .removed delta.excerpt).length =
      (shown .removed delta.excerpt).map Edit.remove ∧
    (middle.filter fun edit => !edit.isRemove).take (shown .added delta.excerpt).length =
      (shown .added delta.excerpt).map Edit.add

structure Coherent (currentRun previousRun : OutputChangeRunArtifacts) : Prop where
  unchanged : (buildOutputDelta currentRun previousRun).changed = false ↔
    (buildOutputDelta currentRun previousRun).removedLineCount = 0 ∧
    (buildOutputDelta currentRun previousRun).addedLineCount = 0 ∧
    shown .removed (buildOutputDelta currentRun previousRun).excerpt = [] ∧
    shown .added (buildOutputDelta currentRun previousRun).excerpt = []
  scripted : Scripted (sourceLines previousRun.actualOutput) (sourceLines currentRun.actualOutput)
    (buildOutputDelta currentRun previousRun)
  caused : (buildOutputChangeExplanation currentRun previousRun).determination ≠
      .notDeterminable → (buildOutputDelta currentRun previousRun).changed = true

/-- The number of lines that agree index by index. -/
def agreeing (previous current : List Text) : Nat :=
  (previous.zip current).countP fun lines => lines.1 = lines.2

/-- The lines that agree index by index are those of the common prefix and suffix
and as many others as are common to what comes between, behind the four lines
that an excerpt shows of it. -/
def Aligned (previous current : List Text) : Prop :=
  let start := commonPrefixLength previous current
  let suffix := commonSuffixLength previous current start
  start + suffix ≤ agreeing previous current ∧
    agreeing previous current ≤ start + suffix +
      lcsLength ((between previous start suffix).drop 4) ((between current start suffix).drop 4)

/-- The inputs recorded of two runs are the same. -/
structure SameInputs (currentRun previousRun : OutputChangeRunArtifacts) : Prop where
  cobol : cobolChanged currentRun previousRun = false
  trustCase : trustCaseChanged currentRun previousRun = false
  environment : textDiffers currentRun previousRun (·.trustCaseEnvironmentProfileId) = false
  fixture : textDiffers currentRun previousRun (·.sourceReferenceFixtureId) = false
  reference : textDiffers currentRun previousRun (·.sourceReferenceMode) = false
  normalization : normalizationChanged currentRun previousRun = false
  manualJava : manualJavaChanged currentRun previousRun = false
  repair : repairChanged currentRun previousRun = false
  generated : shaOf currentRun.generatedArtifactRef = shaOf previousRun.generatedArtifactRef

/-- When a delta and its explanation are coherent. -/
structure Plain (currentRun previousRun : OutputChangeRunArtifacts) : Prop where
  lineEnds : sourceLines currentRun.actualOutput = sourceLines previousRun.actualOutput →
    currentRun.actualOutput.getD [] = previousRun.actualOutput.getD []
  aligned : Aligned (sourceLines previousRun.actualOutput) (sourceLines currentRun.actualOutput)
  inputs : unavailableReason currentRun previousRun = none →
    currentRun.actualOutput.getD [] = previousRun.actualOutput.getD [] →
    SameInputs currentRun previousRun

end Statement

section Lines

variable {previous current : List Text}

theorem commonPrefixLength_le :
    commonPrefixLength previous current ≤ previous.length ∧
      commonPrefixLength previous current ≤ current.length := by
  fun_induction commonPrefixLength previous current with
  | case1 p previous current ih => exact ⟨Nat.succ_le_succ ih.1, Nat.succ_le_succ ih.2⟩
  | case2 => exact ⟨Nat.zero_le _, Nat.zero_le _⟩
  | case3 => exact ⟨Nat.zero_le _, Nat.zero_le _⟩

theorem take_commonPrefixLength :
    previous.take (commonPrefixLength previous current) =
      current.take (commonPrefixLength previous current) := by
  fun_induction commonPrefixLength previous current with
  | case1 p previous current ih => rw [List.take_succ_cons, List.take_succ_cons, ih]
  | case2 => rfl
  | case3 => rfl

theorem commonPrefixLength_self (lines : List Text) :
    commonPrefixLength lines lines = lines.length := by
  induction lines with
  | nil => rfl
  | cons line lines ih => rw [commonPrefixLength, if_pos rfl, ih, List.length_cons]

theorem suffix_le (start : Nat) :
    commonSuffixLength previous current start ≤ previous.length - start ∧
      commonSuffixLength previous current start ≤ current.length - start := by
  have h := @commonPrefixLength_le (previous.drop start).reverse (current.drop start).reverse
  simpa [commonSuffixLength] using h

theorem drop_eq_reverse_take {lines : List Text} {start n : Nat} (h : n ≤ lines.length - start) :
    lines.drop (lines.length - n) = ((lines.drop start).reverse.take n).reverse := by
  have hstart : lines.length - n = start + (lines.length - start - n) ∨ lines.length ≤ start := by
    omega
  rw [List.take_reverse, List.reverse_reverse, List.drop_drop, List.length_drop]
  rcases hstart with hstart | hstart
  · rw [← hstart]
  · obtain rfl : n = 0 := by omega
    rw [Nat.sub_zero, Nat.sub_zero, List.drop_length, List.drop_eq_nil_of_le (by omega)]

/-- Both outputs end with the same lines. -/
theorem drop_suffix (start : Nat) :
    previous.drop (previous.length - commonSuffixLength previous current start) =
      current.drop (current.length - commonSuffixLength previous current start) := by
  obtain ⟨hprevious, hcurrent⟩ := @suffix_le previous current start
  rw [drop_eq_reverse_take hprevious, drop_eq_reverse_take hcurrent]
  exact congrArg List.reverse take_commonPrefixLength

theorem split_between {lines : List Text} {start suffix : Nat}
    (h : start + suffix ≤ lines.length) :
    lines.take start ++ between lines start suffix ++ lines.drop (lines.length - suffix) =
      lines := by
  have hstart : start ≤ lines.length - suffix := by omega
  have htake : (lines.take (lines.length - suffix)).take start = lines.take start := by
    rw [List.take_take, Nat.min_eq_left hstart]
  rw [between, ← htake, List.take_append_drop, List.take_append_drop]

theorem length_between {lines : List Text} {start suffix : Nat}
    (h : start + suffix ≤ lines.length) :
    (between lines start suffix).length + start + suffix = lines.length := by
  rw [between, List.length_drop, List.length_take]
  omega

theorem lineCounts_agreeing (previous current : List Text) :
    (lineCounts previous current).1 + agreeing previous current = previous.length ∧
      (lineCounts previous current).2 + agreeing previous current = current.length := by
  fun_induction lineCounts previous current with
  | case1 current => exact ⟨rfl, rfl⟩
  | case2 p previous => exact ⟨rfl, rfl⟩
  | case3 previous p current ih =>
      simp only [agreeing, List.zip_cons_cons, List.countP_cons, List.length_cons, decide_true,
        if_true] at ih ⊢
      omega
  | case4 p previous c current hne ih =>
      simp only [agreeing, List.zip_cons_cons, List.countP_cons, List.length_cons, hne,
        decide_false, Bool.false_eq_true, if_false] at ih ⊢
      omega

theorem eq_of_lineCounts (hremoved : (lineCounts previous current).1 = 0)
    (hadded : (lineCounts previous current).2 = 0) : previous = current := by
  fun_induction lineCounts previous current with
  | case1 current => exact (List.eq_nil_of_length_eq_zero hadded).symm
  | case2 p previous => cases hremoved
  | case3 previous p current ih => rw [ih hremoved hadded]
  | case4 p previous c current hne ih => cases hremoved

theorem lineCounts_self (lines : List Text) : lineCounts lines lines = (0, 0) := by
  induction lines with
  | nil => rfl
  | cons line lines ih => rw [lineCounts, if_pos rfl, ih]

end Lines

section Excerpts

variable {previousValue currentValue : Option Text}

/-- What an excerpt shows as removed and as added. -/
theorem shown_excerpt (previousValue currentValue : Option Text) :
    let previous := sourceLines previousValue
    let current := sourceLines currentValue
    let start := commonPrefixLength previous current
    let suffix := commonSuffixLength previous current start
    shown .removed (buildExcerpt previousValue currentValue) =
        (between previous start suffix).take 4 ∧
      shown .added (buildExcerpt previousValue currentValue) =
        (between current start suffix).take 4 := by
  intro previous current start suffix
  have hcontext (kind : LineKind) (hkind : kind ≠ .context) (condition : Prop)
      [Decidable condition] (content : Text) :
      (if condition then [(⟨.context, content⟩ : OutputDeltaLine)] else []).filter
        (fun line => line.kind = kind) = [] := by
    split
    · simpa using hkind.symm
    · rfl
  have hsame (kind : LineKind) (lines : List Text) :
      (lines.map (OutputDeltaLine.mk kind)).filter (fun line => line.kind = kind) =
        lines.map (OutputDeltaLine.mk kind) := by
    simp [List.filter_eq_self]
  have hother (kind kind' : LineKind) (hne : kind' ≠ kind) (lines : List Text) :
      (lines.map (OutputDeltaLine.mk kind')).filter (fun line => line.kind = kind) = [] := by
    simp [List.filter_eq_nil_iff, hne]
  have hcontent (kind : LineKind) (lines : List Text) :
      (lines.map (OutputDeltaLine.mk kind)).map OutputDeltaLine.content = lines := by
    simp [List.map_map, Function.comp_def]
  constructor
  · unfold shown buildExcerpt
    simp only [List.filter_append, hcontext .removed (by decide), hsame,
      hother .removed .added (by decide), List.nil_append, List.append_nil, hcontent]
    rfl
  · unfold shown buildExcerpt
    simp only [List.filter_append, hcontext .added (by decide), hsame,
      hother .added .removed (by decide), List.nil_append, List.append_nil, hcontent]
    rfl

end Excerpts

section Scripts

variable {previous current : List Text}

/-- Both outputs are the common prefix, what comes between, and the common suffix. -/
theorem split_lines (previous current : List Text) :
    let start := commonPrefixLength previous current
    let suffix := commonSuffixLength previous current start
    previous.take start ++ between previous start suffix ++
        previous.drop (previous.length - suffix) = previous ∧
      previous.take start ++ between current start suffix ++
        previous.drop (previous.length - suffix) = current ∧
      (between previous start suffix).length + start + suffix = previous.length ∧
      (between current start suffix).length + start + suffix = current.length := by
  intro start suffix
  obtain ⟨hfront, hfront'⟩ := @commonPrefixLength_le previous current
  obtain ⟨hsuffix, hsuffix'⟩ := @suffix_le previous current start
  have hprevious : start + suffix ≤ previous.length := by omega
  have hcurrent : start + suffix ≤ current.length := by omega
  refine ⟨split_between hprevious, ?_, length_between hprevious, length_between hcurrent⟩
  rw [take_commonPrefixLength, drop_suffix]
  exact split_between hcurrent

/-- A script around the common prefix and suffix is one for what comes between. -/
theorem scriptAround_iff (middle : List (Edit Text)) :
    let start := commonPrefixLength previous current
    let suffix := commonSuffixLength previous current start
    oldLines (scriptAround previous current middle) = previous ∧
        newLines (scriptAround previous current middle) = current ↔
      oldLines middle = between previous start suffix ∧
        newLines middle = between current start suffix := by
  intro start suffix
  obtain ⟨hprevious, hcurrent, _, _⟩ := split_lines previous current
  unfold scriptAround
  simp only [oldLines_append, newLines_append, oldLines_keep, newLines_keep]
  constructor
  · rintro ⟨hold, hnew⟩
    have hold := hold.trans hprevious.symm
    have hnew := hnew.trans hcurrent.symm
    exact ⟨List.append_cancel_left (List.append_cancel_right hold),
      List.append_cancel_left (List.append_cancel_right hnew)⟩
  · rintro ⟨hold, hnew⟩
    rw [hold, hnew]
    exact ⟨hprevious, hcurrent⟩

theorem countP_scriptAround (middle : List (Edit Text)) :
    (scriptAround previous current middle).countP Edit.isRemove = middle.countP Edit.isRemove ∧
      (scriptAround previous current middle).countP Edit.isAdd = middle.countP Edit.isAdd := by
  have hkeep (l : List Text) : (l.map Edit.keep).countP Edit.isRemove = 0 ∧
      (l.map Edit.keep).countP Edit.isAdd = 0 := by
    simp [List.countP_map, Function.comp_def, Edit.isRemove, Edit.isAdd]
  unfold scriptAround
  simp only [List.countP_append, hkeep, Nat.zero_add, Nat.add_zero, and_self]

/-- Some script agrees with counts and excerpt if and only if the lines that agree
index by index could be the ones it keeps. -/
theorem scripted_iff (currentRun previousRun : OutputChangeRunArtifacts) :
    Scripted (sourceLines previousRun.actualOutput) (sourceLines currentRun.actualOutput)
        (buildOutputDelta currentRun previousRun) ↔
      Aligned (sourceLines previousRun.actualOutput) (sourceLines currentRun.actualOutput) := by
  obtain ⟨hremoved, hadded⟩ := shown_excerpt previousRun.actualOutput currentRun.actualOutput
  unfold Scripted Aligned
  simp only [buildOutputDelta, hremoved, hadded, countP_scriptAround]
  generalize sourceLines previousRun.actualOutput = previous
  generalize sourceLines currentRun.actualOutput = current
  obtain ⟨hcountRemoved, hcountAdded⟩ := lineCounts_agreeing previous current
  obtain ⟨_, _, hprevious, hcurrent⟩ := split_lines previous current
  have hiff (middle : List (Edit Text)) := @scriptAround_iff previous current middle
  have hdrop (lines : List Text) : lines.drop (lines.take 4).length = lines.drop 4 := by
    rw [List.length_take]
    rcases Nat.le_total 4 lines.length with h | h
    · rw [Nat.min_eq_left h]
    · rw [Nat.min_eq_right h, List.drop_length, List.drop_eq_nil_of_le h]
  dsimp only at hiff hprevious hcurrent
  generalize commonPrefixLength previous current = start at *
  generalize commonSuffixLength previous current start = suffix at *
  simp only [← and_assoc, hiff]
  simp only [and_assoc]
  constructor
  · rintro ⟨middle, hold, hnew, hremove, hadd, hshownOld, hshownNew⟩
    have hlength := length_oldLines middle
    have hcommon : IsCommon (keptOf middle) ((between previous start suffix).drop 4)
        ((between current start suffix).drop 4) := by
      refine ⟨?_, ?_⟩
      · have hsublist := keptOf_sublist_drop_old hshownOld
        rwa [hold, hdrop] at hsublist
      · have hsublist := keptOf_sublist_drop_new hshownNew
        rwa [hnew, hdrop] at hsublist
    have hle := hcommon.length_le
    rw [length_keptOf] at hle
    rw [hold] at hlength
    omega
  · rintro ⟨hlow, hhigh⟩
    obtain ⟨s, hs, hlength⟩ := exists_common ((between previous start suffix).drop 4)
      ((between current start suffix).drop 4)
    obtain ⟨kept, hkept⟩ : ∃ kept, agreeing previous current = start + suffix + kept :=
      ⟨_, (Nat.add_sub_cancel' hlow).symm⟩
    have hsome : IsCommon (s.take kept) ((between previous start suffix).drop 4)
        ((between current start suffix).drop 4) :=
      ⟨(List.take_sublist _ _).trans hs.1, (List.take_sublist _ _).trans hs.2⟩
    obtain ⟨rest, hold, hnew, hkeep⟩ := exists_script hsome
    have holdLength := length_oldLines rest
    have hnewLength := length_newLines rest
    rw [hold, List.length_drop] at holdLength
    rw [hnew, List.length_drop] at hnewLength
    rw [hkeep, List.length_take, Nat.min_eq_left (by omega)] at holdLength hnewLength
    refine ⟨((between previous start suffix).take 4).map Edit.remove ++
      ((between current start suffix).take 4).map Edit.add ++ rest, ?_, ?_, ?_, ?_, ?_, ?_⟩
    · rw [oldLines_append, oldLines_append, oldLines_remove, oldLines_add, hold, List.append_nil,
        List.take_append_drop]
    · rw [newLines_append, newLines_append, newLines_remove, newLines_add, hnew, List.nil_append,
        List.take_append_drop]
    · rw [(countP_replace _ _ _).1, List.length_take]
      omega
    · rw [(countP_replace _ _ _).2, List.length_take]
      omega
    · exact (take_replace _ _ _).1
    · exact (take_replace _ _ _).2

/-- No line is counted and none is shown exactly where the outputs have the same
lines. -/
theorem no_line_iff (currentRun previousRun : OutputChangeRunArtifacts) :
    ((buildOutputDelta currentRun previousRun).removedLineCount = 0 ∧
        (buildOutputDelta currentRun previousRun).addedLineCount = 0 ∧
        shown .removed (buildOutputDelta currentRun previousRun).excerpt = [] ∧
        shown .added (buildOutputDelta currentRun previousRun).excerpt = []) ↔
      sourceLines currentRun.actualOutput = sourceLines previousRun.actualOutput := by
  obtain ⟨hremoved, hadded⟩ := shown_excerpt previousRun.actualOutput currentRun.actualOutput
  simp only [buildOutputDelta, hremoved, hadded]
  constructor
  · rintro ⟨hremovedCount, haddedCount, _⟩
    exact (eq_of_lineCounts hremovedCount haddedCount).symm
  · intro h
    have hnone (lines : List Text) (suffix : Nat) :
        (between lines lines.length suffix).take 4 = [] := by
      rw [between, List.drop_eq_nil_of_le (List.length_take_le' _ _), List.take_nil]
    rw [h, lineCounts_self, commonPrefixLength_self]
    exact ⟨rfl, rfl, hnone _ _, hnone _ _⟩

end Scripts

section Causes

variable {currentRun previousRun : OutputChangeRunArtifacts}

/-- No category is changed exactly where the recorded inputs are the same. -/
theorem changedCategories_eq_nil :
    changedCategories currentRun previousRun = [] ↔ SameInputs currentRun previousRun := by
  unfold changedCategories categoryEntries
  rw [List.map_eq_nil_iff, List.filter_eq_nil_iff]
  simp only [List.forall_mem_cons, categoryEntry, Bool.not_eq_true]
  constructor
  · rintro ⟨hcobol, htrust, hruntime, hnormalization, hmanual, hrepair, hgenerated, _⟩
    unfold generatedRefreshChanged at hgenerated
    rw [hcobol, htrust, hruntime, hnormalization, hmanual, hrepair] at hgenerated
    unfold runtimeConfigChanged at hruntime
    rw [htrust] at hruntime
    simp only [Bool.not_false, Bool.true_and, Bool.and_true, Bool.or_eq_false_iff,
      decide_eq_false_iff_not, not_not] at hruntime hgenerated
    exact ⟨hcobol, htrust, hruntime.1.1, hruntime.1.2, hruntime.2, hnormalization, hmanual,
      hrepair, hgenerated⟩
  · rintro ⟨hcobol, htrust, henvironment, hfixture, hreference, hnormalization, hmanual, hrepair,
      hgenerated⟩
    have hruntime : runtimeConfigChanged currentRun previousRun = false := by
      unfold runtimeConfigChanged
      rw [henvironment, hfixture, hreference, Bool.or_false, Bool.or_false, Bool.and_false]
    have hrefresh : generatedRefreshChanged currentRun previousRun = false := by
      unfold generatedRefreshChanged
      simp [hgenerated]
    exact ⟨hcobol, htrust, hruntime, hnormalization, hmanual, hrepair, hrefresh, nofun⟩

theorem determination_iff :
    (buildOutputChangeExplanation currentRun previousRun).determination = .notDeterminable ↔
      (unavailableReason currentRun previousRun = none → SameInputs currentRun previousRun) := by
  unfold buildOutputChangeExplanation
  cases unavailableReason currentRun previousRun with
  | some reason => exact iff_of_true rfl nofun
  | none =>
      have hempty (categories : List OutputChangeCategory) :
          determinationOf categories = .notDeterminable ↔ categories = [] := by
        rcases categories with _ | ⟨category, _ | ⟨_, _⟩⟩ <;> simp [determinationOf]
      simp only [hempty, changedCategories_eq_nil, forall_const]

end Causes

section Main

/-- A delta and its explanation are coherent if and only if the outputs have the
same lines only when they are the same, the lines that agree index by index could
be the ones an edit script around the common prefix and suffix keeps, and where
the outputs are the same an explanation that is available finds the recorded
inputs the same. -/
theorem coherent_iff (currentRun previousRun : OutputChangeRunArtifacts) :
    Coherent currentRun previousRun ↔ Plain currentRun previousRun := by
  have hchanged : (buildOutputDelta currentRun previousRun).changed = false ↔
      currentRun.actualOutput.getD [] = previousRun.actualOutput.getD [] := by
    simp [buildOutputDelta]
  have hlines : currentRun.actualOutput.getD [] = previousRun.actualOutput.getD [] →
      sourceLines currentRun.actualOutput = sourceLines previousRun.actualOutput := by
    have hgetD (value : Option Text) : sourceLines value = sourceLines (some (value.getD [])) := by
      cases value <;> rfl
    intro h
    rw [hgetD, h, ← hgetD]
  constructor
  · rintro ⟨hunchanged, hscripted, hcaused⟩
    refine ⟨fun h => ?_, (scripted_iff currentRun previousRun).mp hscripted, fun havailable h => ?_⟩
    · exact hchanged.mp (hunchanged.mpr ((no_line_iff currentRun previousRun).mpr h))
    · by_contra hinputs
      have hdetermined : (buildOutputChangeExplanation currentRun previousRun).determination ≠
          .notDeterminable := by
        rw [ne_eq, determination_iff]
        exact fun hsame => hinputs (hsame havailable)
      have hfalse := hchanged.mpr h
      rw [hcaused hdetermined] at hfalse
      cases hfalse
  · rintro ⟨hlineEnds, haligned, hinputs⟩
    refine ⟨?_, (scripted_iff currentRun previousRun).mpr haligned, fun hdetermined => ?_⟩
    · rw [hchanged, no_line_iff]
      exact ⟨hlines, hlineEnds⟩
    · rw [ne_eq, determination_iff, Classical.not_imp] at hdetermined
      by_contra hunchanged
      rw [Bool.not_eq_true] at hunchanged
      exact hdetermined.2 (hinputs hdetermined.1 (hchanged.mp hunchanged))

/-- A completed parity run with an output. -/
def parityRun (runId output sourceHash : String) : OutputChangeRunArtifacts where
  runId := runId.toList
  programId := "BRNCH01".toList
  status := "completed".toList
  executionMode := some "parity".toList
  trustCaseId := some "HELLO01-DEFAULT".toList
  trustCaseConfigurationDigest := none
  trustCaseEnvironmentProfileId := none
  trustCaseComparisonPolicyVersion := none
  sourceReferenceFixtureId := none
  sourceReferenceMode := none
  trustSummary := some [("javaResult".toList, .object [("normalizedOutputRef".toList,
    .object [("sha256".toList, .string (List.replicate 64 'b'))])])]
  generatedArtifactRef := none
  sourceHash := some sourceHash.toList
  actualOutput := some output.toList
  comparisonDiffRef := none
  evidenceStatus := some "complete".toList
  manualEditsCarriedOver := false
  manualDriftRegionCount := 0

/-- One line that is inserted makes three others count as removed and added, other
line ends are a change without a changed line, and another source is the cause of
an output change where there is none. -/
theorem delta_not_coherent :
    let previous := parityRun "run-1" "A\nB\n" "v1"
    (lineCounts (sourceLines previous.actualOutput)
        (sourceLines (parityRun "run-2" "X\nA\nB\n" "v1").actualOutput) = (3, 4) ∧
      ¬ Coherent (parityRun "run-2" "X\nA\nB\n" "v1") previous) ∧
    ¬ Coherent (parityRun "run-2" "A\r\nB\r\n" "v1") previous ∧
    ((buildOutputChangeExplanation (parityRun "run-2" "A\nB\n" "v2") previous).determination =
        .singleChange ∧
      ¬ Coherent (parityRun "run-2" "A\nB\n" "v2") previous) := by
  intro previous
  have hcause : (buildOutputChangeExplanation (parityRun "run-2" "A\nB\n" "v2")
      previous).determination = .singleChange := by
    decide +kernel
  refine ⟨⟨by decide +kernel, fun h => ?_⟩, fun h => ?_, hcause, fun h => ?_⟩
  · have haligned := ((scripted_iff _ _).mp h.scripted).1
    revert haligned
    decide +kernel
  · have hchanged := h.unchanged.mpr ((no_line_iff _ _).mpr (by decide +kernel))
    revert hchanged
    decide +kernel
  · have hchanged := h.caused (by rw [hcause]; decide)
    revert hchanged
    decide +kernel

end Main

end C2c.Bff.OutputChange
