import C2c.Library.JavaObject
import C2c.Orchestrator.ParityExport

namespace C2c.Orchestrator.ExportedParity

open C2c.Library.JavaText
open C2c.Library.JavaObject (bind_eq_ok_iff)
open C2c.Library.PythonText
open C2c.Library.PythonJson
open C2c.Orchestrator.StepReplies
open C2c.Orchestrator.ParityExport

/-- The comparisons a build/test result records. -/
def comparisons (build : Json) : List Json :=
  [get build "comparison", get build "comparisonResult"].filter isMapping

/-- Whether a comparison is recorded as matched. -/
def saysMatched (comparison : Json) : Bool :=
  isTrue (get comparison "matched") ||
    (textOf (get comparison "status")).any fun status => decide (lower status ∈ matchedStatuses)

/-- Whether a comparison is recorded as not matched. -/
def saysUnmatched (comparison : Json) : Bool :=
  match get comparison "matched" with
  | .bool matched => !matched
  | _ => false

/-- The result records a comparison that was made and matched. -/
structure ExecutedMatch (build : Json) : Prop where
  matched : ∃ comparison ∈ comparisons build, saysMatched comparison = true
  unanimous : ∀ comparison ∈ comparisons build, saysUnmatched comparison = false

/-- The evidence status the trust summary states. -/
def statedEvidence (contract : Json) : Option Text :=
  textOf (get (get (trustSummary contract) "evidence") "status")

def completeEvidence : List (Option Text) :=
  [some "current".toList, some "stale".toList]

/-- What an exported run has to have recorded. -/
structure Eligible (run : StoredRun) : Prop where
  executed : ExecutedMatch (buildTestResult run)
  evidence : statedEvidence (contractPayload run) ∈ completeEvidence
  divergence : divergence (contractPayload run) ≠ "intentional".toList
  trustState : trustState (contractPayload run) ∉ failedTrustStates

/-- An export is made of an eligible run only. -/
def SoundExport (run : StoredRun) (request : ExportRequest) : Prop :=
  ∀ scaffold, exportParityRegressionTest run request = .ok scaffold → Eligible run

/-- A text of a build/test result that stands for a success by itself. -/
def successMarker (build : Json) : Prop :=
  textOf (get build "classification") = some "match".toList ∨
    ∃ status, textOf (get build "status") = some status ∧ lower status = "ok".toList

/-- The texts the markers are read from are there. -/
structure Readable (build : Json) : Prop where
  status : textOf (get build "classification") ≠ some "match".toList →
    textOf (get build "status") ≠ none
  comparisons : ∀ comparison ∈ comparisons build, textOf (get comparison "status") ≠ none

/-- The program, its expected output and a place for the export are stored, and
nothing goes wrong while it is written. -/
structure Storable (run : StoredRun) (request : ExportRequest) : Prop where
  project : ∃ manifest files entryClass entryFilePath,
    loadProjectFromManifest run "generated-project-manifest.json".toList
      "generated-project".toList
      "export blocked: generated project manifest is unavailable".toList = .ok (manifest, files) ∧
    textOf (get manifest "entryClass") = some entryClass ∧
    textOf (get manifest "entryFilePath") = some entryFilePath ∧
    ∃ root, reserveParityExportRoot run
      ((textOf (get run.summary "programId")).getD (splitEntryClass entryClass).2)
      request.exportName = .ok root
  output : ∃ output, loadExportExpectedOutput run (contractPayload run) (buildTestResult run) =
    .ok output
  writes : run.writeError = none

/-- The runs an export is made of: one of the success markers is enough, and an
evidence status that is not stated counts as complete. -/
structure Exportable (run : StoredRun) (request : ExportRequest) : Prop where
  hasRun : run.hasRun = true
  buildTestResult : isMapping (buildTestResult run) = true
  evidenceManifest : isMapping (run.readJson "evidence-pack-manifest.json".toList) = true
  evidence : statedEvidence (contractPayload run) ≠ some "incomplete".toList
  divergence : divergence (contractPayload run) ≠ "intentional".toList
  trustState : trustState (contractPayload run) ∉ failedTrustStates
  readable : Readable (ParityExport.buildTestResult run)
  marker : successMarker (ParityExport.buildTestResult run) ∨
    ∃ comparison ∈ comparisons (ParityExport.buildTestResult run), saysMatched comparison = true
  storable : Storable run request

/-- What an exportable run may lack: a comparison that matched, agreement of its
comparisons, or a statement that its evidence is complete. -/
inductive Unbacked (run : StoredRun) : Prop
  | noComparison (h : ∀ comparison ∈ comparisons (buildTestResult run),
      saysMatched comparison = false)
  | contradicted (h : ∃ comparison ∈ comparisons (buildTestResult run),
      saysUnmatched comparison = true)
  | unstated (h : statedEvidence (contractPayload run) ∉ completeEvidence)

section Markers

variable {build : Json}

theorem lowerText_eq_ok {value : Json} {text : Text} :
    lowerText value = .ok text ↔ ∃ given, textOf value = some given ∧ lower given = text := by
  unfold lowerText
  cases textOf value with
  | none => simp
  | some given => simp

theorem textOf_ne_empty (value : Json) : textOf value ≠ some [] := by
  unfold textOf
  split
  · exact nofun
  · split
    · exact nofun
    · rename_i hnonempty
      exact fun h => hnonempty (Option.some.inj h)

theorem statusMatch_eq_ok {matched : Bool} : statusMatch build = .ok matched ↔
    (textOf (get build "classification") ≠ some "match".toList →
      textOf (get build "status") ≠ none) ∧ (matched = true ↔ successMarker build) := by
  unfold statusMatch successMarker
  by_cases hmatch : textOf (get build "classification") = some "match".toList
  · rw [if_pos hmatch]
    simp [hmatch, pure, Except.pure, eq_comm]
  · rw [if_neg hmatch, bind_eq_ok_iff]
    cases hstatus : textOf (get build "status") with
    | none =>
        refine iff_of_false ?_ fun h => h.1 hmatch rfl
        rintro ⟨_, htext, -⟩
        obtain ⟨given, hgiven, -⟩ := lowerText_eq_ok.mp htext
        rw [hstatus] at hgiven
        contradiction
    | some status =>
        have hlower := lowerText_eq_ok.mpr ⟨status, hstatus, rfl⟩
        have hmarker : (textOf (get build "classification") = some "match".toList ∨
            ∃ given, some status = some given ∧ lower given = "ok".toList) ↔
              lower status = "ok".toList := by
          simp only [hmatch, false_or, Option.some.injEq, exists_eq_left']
        rw [hmarker, hlower]
        constructor
        · rintro ⟨_, ⟨⟩, ⟨⟩⟩
          exact ⟨fun _ => nofun, decide_eq_true_iff⟩
        · rintro ⟨-, h⟩
          refine ⟨_, rfl, congrArg Except.ok (Bool.eq_iff_iff.mpr ?_)⟩
          rw [h, decide_eq_true_iff]

theorem comparisonMatch_eq_ok {comparison : Json} {before matched : Bool} :
    comparisonMatch comparison before = .ok matched ↔
      (isMapping comparison = true → textOf (get comparison "status") ≠ none) ∧
        matched = (before || (isMapping comparison && saysMatched comparison)) := by
  unfold comparisonMatch saysMatched
  cases hmapping : isMapping comparison with
  | false => simp [pure, Except.pure, eq_comm]
  | true =>
      rw [if_pos rfl, bind_eq_ok_iff]
      cases hstatus : textOf (get comparison "status") with
      | none =>
          refine iff_of_false ?_ fun h => h.1 rfl rfl
          rintro ⟨_, htext, -⟩
          obtain ⟨given, hgiven, -⟩ := lowerText_eq_ok.mp htext
          rw [hstatus] at hgiven
          contradiction
      | some status =>
          have hlower := lowerText_eq_ok.mpr ⟨status, hstatus, rfl⟩
          rw [hlower, Option.any_some, Bool.true_and, ← Bool.or_assoc]
          constructor
          · rintro ⟨_, ⟨⟩, ⟨⟩⟩
            exact ⟨fun _ => nofun, rfl⟩
          · rintro ⟨-, rfl⟩
            exact ⟨_, rfl, rfl⟩

theorem mem_comparisons {comparison : Json} : comparison ∈ comparisons build ↔
    (comparison = get build "comparison" ∨ comparison = get build "comparisonResult") ∧
      isMapping comparison = true := by
  unfold comparisons
  rw [List.mem_filter, List.mem_cons, List.mem_singleton]

/-- The result passes with any one marker. -/
theorem buildMatch_iff : buildMatch build = .ok true ↔ Readable build ∧
    (successMarker build ∨ ∃ comparison ∈ comparisons build, saysMatched comparison = true) := by
  have hcomparisons (p : Json → Prop) : (∀ comparison ∈ comparisons build, p comparison) ↔
      (isMapping (get build "comparison") = true → p (get build "comparison")) ∧
        (isMapping (get build "comparisonResult") = true → p (get build "comparisonResult")) := by
    simp only [mem_comparisons, and_imp, or_imp, forall_and, forall_eq]
  have hmarker : (∃ comparison ∈ comparisons build, saysMatched comparison = true) ↔
      (isMapping (get build "comparison") && saysMatched (get build "comparison")) = true ∨
        (isMapping (get build "comparisonResult") &&
          saysMatched (get build "comparisonResult")) = true := by
    simp only [mem_comparisons, and_assoc, or_and_right, exists_or, exists_eq_left,
      Bool.and_eq_true]
  unfold buildMatch
  rw [bind_eq_ok_iff, hmarker]
  simp only [bind_eq_ok_iff, statusMatch_eq_ok, comparisonMatch_eq_ok]
  constructor
  · rintro ⟨first, ⟨hstatus, hfirst⟩, second, ⟨hcomparison, rfl⟩, hresult, htrue⟩
    refine ⟨⟨hstatus, (hcomparisons _).mpr ⟨hcomparison, hresult⟩⟩, ?_⟩
    rw [eq_comm, Bool.or_eq_true, Bool.or_eq_true, hfirst, or_assoc] at htrue
    exact htrue
  · rintro ⟨hreadable, hmarked⟩
    obtain ⟨hcomparison, hresult⟩ := (hcomparisons _).mp hreadable.comparisons
    have hdecides : ∃ first : Bool, first = true ↔ successMarker build := by
      by_cases h : successMarker build
      · exact ⟨true, iff_of_true rfl h⟩
      · exact ⟨false, iff_of_false Bool.false_ne_true h⟩
    obtain ⟨first, hfirst⟩ := hdecides
    refine ⟨first, ⟨hreadable.status, hfirst⟩, _, ⟨hcomparison, rfl⟩, hresult, ?_⟩
    rw [eq_comm, Bool.or_eq_true, Bool.or_eq_true, hfirst, or_assoc]
    exact hmarked

end Markers

section Exports

variable {run : StoredRun} {request : ExportRequest}

theorem evidenceStatus_blocked_iff (contract : Json) :
    evidenceStatus contract ∈ [some "incomplete".toList, some []] ↔
      statedEvidence contract = some "incomplete".toList := by
  rw [List.mem_cons, List.mem_singleton]
  unfold evidenceStatus statedEvidence
  dsimp only
  split
  · exact or_iff_left (textOf_ne_empty _)
  · rename_i hmapping
    have hnone : textOf (get (get (trustSummary contract) "evidence") "status") = none := by
      cases hevidence : get (trustSummary contract) "evidence" with
      | object members => exact absurd (by rw [hevidence]; rfl) hmapping
      | _ => rfl
    rw [hnone]
    decide

theorem checkEligibility_iff {contract build : Json} : checkEligibility contract build = .ok ⟨⟩ ↔
    statedEvidence contract ≠ some "incomplete".toList ∧
      divergence contract ≠ "intentional".toList ∧ trustState contract ∉ failedTrustStates ∧
      buildMatch build = .ok true := by
  unfold checkEligibility
  by_cases hevidence : evidenceStatus contract ∈ [some "incomplete".toList, some []]
  · rw [if_pos hevidence]
    exact iff_of_false nofun fun h => h.1 ((evidenceStatus_blocked_iff contract).mp hevidence)
  rw [if_neg hevidence]
  have hstated := mt (evidenceStatus_blocked_iff contract).mpr hevidence
  by_cases hdivergence : divergence contract = "intentional".toList
  · rw [if_pos hdivergence]
    exact iff_of_false nofun fun h => h.2.1 hdivergence
  rw [if_neg hdivergence]
  by_cases htrust : trustState contract ∈ failedTrustStates
  · rw [if_pos htrust]
    exact iff_of_false nofun fun h => h.2.2.1 htrust
  rw [if_neg htrust, bind_eq_ok_iff]
  constructor
  · rintro ⟨matched, hmatched, hends⟩
    cases matched with
    | true => exact ⟨hstated, hdivergence, htrust, hmatched⟩
    | false => contradiction
  · rintro ⟨-, -, -, hmatched⟩
    exact ⟨true, hmatched, rfl⟩

theorem createExport_iff :
    (∃ scaffold, createExport run request = .ok scaffold) ↔ Storable run request := by
  constructor
  · rintro ⟨scaffold, hscaffold⟩
    unfold createExport at hscaffold
    obtain ⟨⟨manifest, files⟩, hproject, hcreated⟩ := bind_eq_ok_iff.mp hscaffold
    dsimp only at hcreated
    split at hcreated
    · rename_i entryClass entryFilePath hclass hpath
      obtain ⟨output, houtput, hcreated⟩ := bind_eq_ok_iff.mp hcreated
      obtain ⟨root, hroot, hcreated⟩ := bind_eq_ok_iff.mp hcreated
      split at hcreated
      · contradiction
      · rename_i hwrites
        exact ⟨⟨manifest, files, entryClass, entryFilePath, hproject, hclass, hpath, root, hroot⟩,
          ⟨output, houtput⟩, hwrites⟩
    · contradiction
  · rintro ⟨⟨manifest, files, entryClass, entryFilePath, hproject, hclass, hpath, root, hroot⟩,
      ⟨output, houtput⟩, hwrites⟩
    unfold createExport
    rw [hproject]
    dsimp only [bind, Except.bind]
    rw [hclass, hpath, houtput]
    dsimp only
    rw [hroot, hwrites]
    exact ⟨_, rfl⟩

/-- The runs an export is made of. -/
theorem export_iff : (∃ scaffold, exportParityRegressionTest run request = .ok scaffold) ↔
    Exportable run request := by
  unfold exportParityRegressionTest
  by_cases hrun : run.hasRun = true
  swap
  · rw [if_pos hrun]
    exact iff_of_false (fun ⟨_, h⟩ => nomatch h) fun h => hrun h.hasRun
  rw [if_neg (not_not.mpr hrun)]
  by_cases hbuild : isMapping (buildTestResult run) = true
  swap
  · rw [if_pos hbuild]
    exact iff_of_false (fun ⟨_, h⟩ => nomatch h) fun h => hbuild h.buildTestResult
  rw [if_neg (not_not.mpr hbuild)]
  by_cases hmanifest : isMapping (run.readJson "evidence-pack-manifest.json".toList) = true
  swap
  · rw [if_pos hmanifest]
    exact iff_of_false (fun ⟨_, h⟩ => nomatch h) fun h => hmanifest h.evidenceManifest
  rw [if_neg (not_not.mpr hmanifest)]
  constructor
  · rintro ⟨scaffold, hscaffold⟩
    obtain ⟨⟨⟩, hchecked, hcreated⟩ := bind_eq_ok_iff.mp hscaffold
    obtain ⟨hevidence, hdivergence, htrust, hmatched⟩ := checkEligibility_iff.mp hchecked
    obtain ⟨hreadable, hmarker⟩ := buildMatch_iff.mp hmatched
    exact ⟨hrun, hbuild, hmanifest, hevidence, hdivergence, htrust, hreadable, hmarker,
      createExport_iff.mp ⟨scaffold, hcreated⟩⟩
  · intro h
    obtain ⟨scaffold, hcreated⟩ := createExport_iff.mpr h.storable
    have hchecked := checkEligibility_iff.mpr ⟨h.evidence, h.divergence, h.trustState,
      buildMatch_iff.mpr ⟨h.readable, h.marker⟩⟩
    exact ⟨scaffold, bind_eq_ok_iff.mpr ⟨⟨⟩, hchecked, hcreated⟩⟩

theorem eligible_iff (h : Exportable run request) : Eligible run ↔ ¬ Unbacked run := by
  constructor
  · rintro ⟨⟨⟨comparison, hmem, hmatched⟩, hunanimous⟩, hevidence, -, -⟩
    rintro (hnone | ⟨other, hother, hunmatched⟩ | hunstated)
    · exact absurd hmatched (by rw [hnone comparison hmem]; exact Bool.false_ne_true)
    · exact absurd hunmatched (by rw [hunanimous other hother]; exact Bool.false_ne_true)
    · exact hunstated hevidence
  · intro hbacked
    refine ⟨⟨?_, ?_⟩, ?_, h.divergence, h.trustState⟩
    · by_contra hnone
      exact hbacked (.noComparison fun comparison hmem =>
        Bool.eq_false_iff.mpr fun hmatched => hnone ⟨comparison, hmem, hmatched⟩)
    · exact fun comparison hmem => Bool.eq_false_iff.mpr fun hunmatched =>
        hbacked (.contradicted ⟨comparison, hmem, hunmatched⟩)
    · by_contra hunstated
      exact hbacked (.unstated hunstated)

end Exports

section Samples

/-- A run of the given build/test result, with a project, an expected output
and an evidence manifest, and a contract without a trust summary. -/
def storedRun (build : Json) : StoredRun where
  hasRun := true
  summary := .null
  readJson path :=
    if path = "build-test-result.json".toList then build
    else if path = "generated-project-manifest.json".toList then
      .object [("files".toList, .array []), ("entryClass".toList, .text "CASE01".toList),
        ("entryFilePath".toList, .text "src/CASE01.java".toList)]
    else .object []
  readBytes _ := none

/-- A result that says it is ok although its comparison did not match. -/
def contradictoryResult : Json :=
  .object [("status".toList, .text "ok".toList), ("expectedOutput".toList, .text "OUT".toList),
    ("comparison".toList, .object [("matched".toList, .bool false),
      ("status".toList, .text "failed".toList)])]

/-- The trust state an export is written with. -/
def exportedTrustState (run : StoredRun) (request : ExportRequest) : Option Text :=
  match exportParityRegressionTest run request with
  | .ok scaffold => some scaffold.provenance.trustState
  | .error _ => none

end Samples

end C2c.Orchestrator.ExportedParity
