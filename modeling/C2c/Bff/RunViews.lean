import C2c.Library.JsonText

/-!
What the BFF makes of the build and test result and of the evidence manifest
that the orchestrator answers for a run.
-/

namespace C2c.Bff.RunViews

open C2c.Library.JavaText
open C2c.Library.JsonText

section Values

/-- An object that `JSON.parse` gives; of members of one name the last counts. -/
abbrev Record := List (Text × Json)

/-- `record[name]`, where `none` is `undefined`. -/
def property (record : Record) (name : String) : Option Json :=
  (record.reverse.find? fun m => m.1 == name.toList).map Prod.snd

/-- `data?.[name]`. -/
def propertyOf (data : Option Record) (name : String) : Option Json :=
  data.bind fun record => property record name

def asRecord : Option Json → Option Record
  | some (.object members) => some members
  | _ => none

def asString : Option Json → Text
  | some (.string value) => value
  | _ => []

/-- `typeof value === "boolean"`. -/
def asBoolean : Option Json → Option Bool
  | some (.bool value) => some value
  | _ => none

/-- A finite number, as the binary64 number that is read. -/
def asNumber : Option Json → Option Rat
  | some (.number n) => n.double
  | _ => none

def arrayOf : Option Json → List Json
  | some (.array items) => items
  | _ => []

end Values

section BuildTest

inductive BuildTestStatus
  | ok
  | compileFailed
  | runFailed
  | outputDivergence
  | goldenMasterReproductionFailed
  | missingGoldenMaster
  | skipped
deriving DecidableEq

def BuildTestStatus.text : BuildTestStatus → Text
  | .ok => "ok".toList
  | .compileFailed => "compile-failed".toList
  | .runFailed => "run-failed".toList
  | .outputDivergence => "output-divergence".toList
  | .goldenMasterReproductionFailed => "golden-master-reproduction-failed".toList
  | .missingGoldenMaster => "missing-golden-master".toList
  | .skipped => "skipped".toList

def allowedStatus : List BuildTestStatus :=
  [.ok, .compileFailed, .runFailed, .outputDivergence, .goldenMasterReproductionFailed,
    .missingGoldenMaster, .skipped]

inductive Classification
  | matched
  | divergenceKnownW0CoverageGap
  | divergenceUnknown
  | trueGoldenMasterReproductionError
  | trueGoldenMasterMismatch
  | compileError
  | runError
  | skippedNoExecution
deriving DecidableEq

def Classification.text : Classification → Text
  | .matched => "match".toList
  | .divergenceKnownW0CoverageGap => "divergence-known-w0-coverage-gap".toList
  | .divergenceUnknown => "divergence-unknown".toList
  | .trueGoldenMasterReproductionError => "true-golden-master-reproduction-error".toList
  | .trueGoldenMasterMismatch => "true-golden-master-mismatch".toList
  | .compileError => "compile-error".toList
  | .runError => "run-error".toList
  | .skippedNoExecution => "skipped-no-execution".toList

def allowedClassification : List Classification :=
  [.matched, .divergenceKnownW0CoverageGap, .divergenceUnknown,
    .trueGoldenMasterReproductionError, .trueGoldenMasterMismatch, .compileError, .runError,
    .skippedNoExecution]

def classifyBuildTestStatus (missing : List Text) (runStatus : Option Text)
    (data : Option Record) : BuildTestStatus × Classification :=
  if missing ≠ [] then
    if runStatus = some "failed".toList then (.runFailed, .runError)
    else (.skipped, .skippedNoExecution)
  else
    let upstreamStatus := asString (propertyOf data "status")
    let upstreamClassification := asString (propertyOf data "classification")
    ((allowedStatus.find? fun s => s.text = upstreamStatus).getD .ok,
      (allowedClassification.find? fun c => c.text = upstreamClassification).getD .matched)

inductive StageStatus
  | ok
  | failed
  | skipped
  | notRun
  | unknown
deriving DecidableEq

def successWords : List Text :=
  ["ok".toList, "success".toList, "passed".toList]

def failureWords : List Text :=
  ["failed".toList, "failure".toList, "error".toList]

variable (toLowerCase : Text → Text)

def deriveCompileStatus (data : Option Record) (status : BuildTestStatus) : StageStatus :=
  let fallback : StageStatus :=
    if status = .compileFailed then .failed
    else if status = .skipped then .skipped
    else .unknown
  match asRecord (propertyOf data "build") with
  | none => fallback
  | some build =>
      match asBoolean (property build "compileOk") with
      | some compileOk => if compileOk then .ok else .failed
      | none =>
          let buildStatus := toLowerCase (asString (property build "status"))
          if buildStatus ∈ successWords then .ok
          else if buildStatus ∈ failureWords then .failed
          else if buildStatus = "skipped".toList then .skipped
          else fallback

def deriveExecutionStatus (data : Option Record) (status : BuildTestStatus) : StageStatus :=
  let fallback : StageStatus :=
    if status = .runFailed then .failed
    else if status = .skipped then .skipped
    else if status = .compileFailed then .notRun
    else .unknown
  match asRecord (propertyOf data "execution") with
  | none => fallback
  | some execution =>
      if asBoolean (property execution "ran") = some false then
        if status = .skipped then .skipped else .notRun
      else
        match asBoolean (property execution "ok") with
        | some ok => if ok then .ok else .failed
        | none =>
            let executionStatus := toLowerCase (asString (property execution "status"))
            if executionStatus ∈ successWords then .ok
            else if executionStatus ∈ failureWords then .failed
            else if executionStatus = "skipped".toList then .skipped
            else if executionStatus = "not-run".toList then .notRun
            else
              match asNumber (property execution "exitCode") with
              | some exitCode => if exitCode = 0 then .ok else .failed
              | none => fallback

end BuildTest

section Evidence

inductive ValidationStatus
  | valid
  | invalid
  | incomplete
  | unknown
deriving DecidableEq

def deriveValidationStatus (data : Option Record) : ValidationStatus :=
  match data with
  | none => .unknown
  | some record =>
      match asRecord (property record "validation") with
      | some validation =>
          let validationStatus := asString (property validation "status")
          if validationStatus = "valid".toList then .valid
          else if validationStatus = "invalid".toList then .invalid
          else if validationStatus = "incomplete".toList then .incomplete
          else if arrayOf (property validation "missingArtifacts") ≠ [] then .incomplete
          else .valid
      | none =>
          let manifestStatus := asString (property record "status")
          if manifestStatus = "complete".toList then .valid
          else if manifestStatus = "invalid".toList then .invalid
          else if manifestStatus = "incomplete".toList then .incomplete
          else .unknown

end Evidence

section Statement

variable (toLowerCase : Text → Text)

/-- A payload whose validation, or which itself, is said to be valid or complete:
the evidence service says it by `ok` and `completenessStatus`. -/
def StatesValid (data : Option Record) : Prop :=
  asString (propertyOf data "status") = "complete".toList ∨
    ∃ validation, asRecord (propertyOf data "validation") = some validation ∧
      (asString (property validation "status") ∈ ["valid".toList, "complete".toList] ∨
        asBoolean (property validation "ok") = some true ∨
        asString (property validation "completenessStatus") = "complete".toList)

/-- No view is more favourable than the payload. -/
structure Sound (missing : List Text) (runStatus : Option Text) (data : Option Record) :
    Prop where
  ok : (classifyBuildTestStatus missing runStatus data).1 = .ok →
    asString (propertyOf data "status") = "ok".toList
  matched : (classifyBuildTestStatus missing runStatus data).2 = .matched →
    asString (propertyOf data "classification") = "match".toList
  consistent : (classifyBuildTestStatus missing runStatus data).2 = .matched →
    (classifyBuildTestStatus missing runStatus data).1 = .ok
  compiled : (classifyBuildTestStatus missing runStatus data).1 = .ok →
    deriveCompileStatus toLowerCase data
      (classifyBuildTestStatus missing runStatus data).1 ≠ .failed
  executed : (classifyBuildTestStatus missing runStatus data).1 = .ok →
    deriveExecutionStatus toLowerCase data
      (classifyBuildTestStatus missing runStatus data).1 ≠ .failed
  valid : deriveValidationStatus data = .valid → StatesValid data

/-- The build of a payload is said to have failed. -/
def BuildFailed (data : Option Record) : Prop :=
  ∃ build, asRecord (propertyOf data "build") = some build ∧
    (asBoolean (property build "compileOk") = some false ∨
      asBoolean (property build "compileOk") = none ∧
        toLowerCase (asString (property build "status")) ∈ failureWords)

/-- The execution of a payload is said to have failed. -/
def ExecutionFailed (data : Option Record) : Prop :=
  ∃ execution, asRecord (propertyOf data "execution") = some execution ∧
    asBoolean (property execution "ran") ≠ some false ∧
    (asBoolean (property execution "ok") = some false ∨
      asBoolean (property execution "ok") = none ∧
        (toLowerCase (asString (property execution "status")) ∈ failureWords ∨
          toLowerCase (asString (property execution "status")) ∉
              successWords ++ ["skipped".toList, "not-run".toList] ∧
            ∃ exitCode, asNumber (property execution "exitCode") = some exitCode ∧
              exitCode ≠ 0))

/-- Status and classification of a payload are known ones, agree with each other,
and a success comes with no failed stage. -/
structure Agrees (data : Option Record) : Prop where
  status : asString (propertyOf data "status") ∈ allowedStatus.map BuildTestStatus.text
  classification : asString (propertyOf data "classification") ∈
    allowedClassification.map Classification.text
  matched : asString (propertyOf data "classification") = "match".toList →
    asString (propertyOf data "status") = "ok".toList
  stages : asString (propertyOf data "status") = "ok".toList →
    ¬ BuildFailed toLowerCase data ∧ ¬ ExecutionFailed toLowerCase data

/-- A validation has a known status or missing artifacts, or is said to be valid. -/
def ValidationTold (data : Option Record) : Prop :=
  ∀ validation, asRecord (propertyOf data "validation") = some validation →
    asString (property validation "status") ∈
        ["valid".toList, "invalid".toList, "incomplete".toList] ∨
      arrayOf (property validation "missingArtifacts") ≠ [] ∨ StatesValid data

end Statement

section Derivations

variable {toLowerCase : Text → Text} {data : Option Record}

theorem text_injective : ∀ s s' : BuildTestStatus, s.text = s'.text → s = s' := by
  intro s s'
  cases s <;> cases s' <;> decide

theorem classificationText_injective :
    ∀ c c' : Classification, c.text = c'.text → c = c' := by
  intro c c'
  cases c <;> cases c' <;> decide

/-- What a text is taken for that may be none of a table. -/
theorem getD_find?_text {A : Type} {text : A → Text}
    (hinjective : ∀ a a', text a = text a' → a = a') {table : List A} (htable : ∀ a, a ∈ table)
    (t : Text) (default a : A) :
    (table.find? fun a => text a = t).getD default = a ↔
      text a = t ∨ t ∉ table.map text ∧ a = default := by
  cases hfound : table.find? fun a => text a = t with
  | some a' =>
      have ha' : text a' = t := by simpa using List.find?_some hfound
      have hmem : t ∈ table.map text := List.mem_map.mpr ⟨a', htable a', ha'⟩
      simp only [Option.getD_some, hmem, not_true_eq_false, false_and, or_false]
      constructor
      · rintro rfl
        exact ha'
      · exact fun ha => hinjective a' a (ha'.trans ha.symm)
  | none =>
      have hne : ∀ a, text a ≠ t := by
        intro a
        simpa using List.find?_eq_none.mp hfound a (htable a)
      have hmem : t ∉ table.map text := by
        intro h
        obtain ⟨a', _, ha'⟩ := List.mem_map.mp h
        exact hne a' ha'
      simp only [Option.getD_none, hne a, hmem, not_false_eq_true, true_and, false_or]
      exact eq_comm

theorem status_eq_iff (runStatus : Option Text) (s : BuildTestStatus) :
    (classifyBuildTestStatus [] runStatus data).1 = s ↔
      s.text = asString (propertyOf data "status") ∨
        asString (propertyOf data "status") ∉ allowedStatus.map BuildTestStatus.text ∧ s = .ok :=
  getD_find?_text text_injective (by intro s; cases s <;> decide) _ _ _

theorem classification_eq_iff (runStatus : Option Text) (c : Classification) :
    (classifyBuildTestStatus [] runStatus data).2 = c ↔
      c.text = asString (propertyOf data "classification") ∨
        asString (propertyOf data "classification") ∉
          allowedClassification.map Classification.text ∧ c = .matched :=
  getD_find?_text classificationText_injective (by intro c; cases c <;> decide) _ _ _

/-- With artifacts missing nothing is a success. -/
theorem classify_missing {missing : List Text} (h : missing ≠ []) (runStatus : Option Text)
    (data : Option Record) :
    (classifyBuildTestStatus missing runStatus data).1 ≠ .ok ∧
      (classifyBuildTestStatus missing runStatus data).2 ≠ .matched := by
  unfold classifyBuildTestStatus
  rw [if_pos h]
  split <;> exact ⟨by decide, by decide⟩

theorem compile_failed_iff :
    deriveCompileStatus toLowerCase data .ok = .failed ↔ BuildFailed toLowerCase data := by
  unfold deriveCompileStatus BuildFailed
  cases asRecord (propertyOf data "build") with
  | none => simp
  | some build =>
      simp only [Option.some.injEq, exists_eq_left']
      cases hok : asBoolean (property build "compileOk") with
      | some compileOk => cases compileOk <;> simp
      | none =>
          have hdisjoint : ∀ w ∈ failureWords, w ∉ successWords := by decide
          dsimp only
          split
          · next hsuccess =>
            simpa using fun hfailure => hdisjoint _ hfailure hsuccess
          split
          · next hfailure => simpa using hfailure
          · next hfailure =>
            split <;> simpa using hfailure

theorem execution_failed_iff :
    deriveExecutionStatus toLowerCase data .ok = .failed ↔ ExecutionFailed toLowerCase data := by
  unfold deriveExecutionStatus ExecutionFailed
  cases asRecord (propertyOf data "execution") with
  | none => simp
  | some execution =>
      simp only [Option.some.injEq, exists_eq_left']
      by_cases hran : asBoolean (property execution "ran") = some false
      · simp [hran]
      simp only [hran, if_false, ne_eq, not_false_eq_true, true_and]
      cases hok : asBoolean (property execution "ok") with
      | some ok => cases ok <;> simp
      | none =>
          have hdisjoint : ∀ w ∈ failureWords,
              w ∉ successWords ++ ["skipped".toList, "not-run".toList] := by decide
          generalize toLowerCase (asString (property execution "status")) = word
          simp only [reduceCtorEq, false_or, true_and]
          by_cases hfailure : word ∈ failureWords
          · have hother := hdisjoint word hfailure
            simp only [List.mem_append, not_or] at hother
            simp [hfailure, hother.1]
          by_cases hknown : word ∈ successWords ++ ["skipped".toList, "not-run".toList]
          · simp only [hfailure, hknown, not_true_eq_false, false_and, or_false, iff_false]
            simp only [List.mem_append, List.mem_cons, List.not_mem_nil, or_false] at hknown
            rcases hknown with h | rfl | rfl
            · simp [h]
            · rw [if_neg (by decide : "skipped".toList ∉ successWords)]
              simp
            · rw [if_neg (by decide : "not-run".toList ∉ successWords)]
              simp
          · simp only [hfailure, hknown, not_false_eq_true, true_and, false_or]
            simp only [List.mem_append, List.mem_cons, List.not_mem_nil, or_false, not_or]
              at hknown
            obtain ⟨hsuccess, hskipped, hnot⟩ := hknown
            simp only [hsuccess, hskipped, hnot, if_false]
            cases asNumber (property execution "exitCode") with
            | none => simp
            | some exitCode => by_cases hzero : exitCode = 0 <;> simp [hzero]

theorem valid_stated_iff :
    (deriveValidationStatus data = .valid → StatesValid data) ↔ ValidationTold data := by
  by_cases hstates : StatesValid data
  · exact iff_of_true (fun _ => hstates) fun _ _ => .inr (.inr hstates)
  simp only [hstates, imp_false, ValidationTold, or_false]
  unfold deriveValidationStatus
  cases data with
  | none => exact iff_of_true nofun nofun
  | some record =>
      have hproperty (name : String) : propertyOf (some record) name = property record name := rfl
      simp only [StatesValid, hproperty, not_or, not_exists, not_and] at hstates ⊢
      cases hvalidation : asRecord (property record "validation") with
      | none =>
          refine iff_of_true ?_ nofun
          rw [if_neg hstates.1]
          split_ifs <;> decide
      | some validation =>
          have hvalid := (hstates.2 validation hvalidation).1
          simp only [List.mem_cons, not_or] at hvalid
          simp only [Option.some.injEq, forall_eq', hvalid.1, if_false, List.mem_cons,
            List.not_mem_nil, or_false, false_or]
          split_ifs with hinvalid hincomplete hmissing
          · exact iff_of_true (by decide) (.inl (.inl hinvalid))
          · exact iff_of_true (by decide) (.inl (.inr hincomplete))
          · exact iff_of_true (by decide) (.inr hmissing)
          · refine iff_of_false (fun h => h rfl) ?_
            rintro ((h | h) | h)
            · exact hinvalid h
            · exact hincomplete h
            · exact hmissing h

/-- The status and the classification of a payload without missing artifacts are
sound if and only if they are known and agree with the rest of the payload. -/
theorem agrees_iff (runStatus : Option Text) :
    (((classifyBuildTestStatus [] runStatus data).1 = .ok →
          asString (propertyOf data "status") = "ok".toList) ∧
        ((classifyBuildTestStatus [] runStatus data).2 = .matched →
          asString (propertyOf data "classification") = "match".toList) ∧
        ((classifyBuildTestStatus [] runStatus data).2 = .matched →
          (classifyBuildTestStatus [] runStatus data).1 = .ok) ∧
        ((classifyBuildTestStatus [] runStatus data).1 = .ok →
          ¬ BuildFailed toLowerCase data ∧ ¬ ExecutionFailed toLowerCase data)) ↔
      Agrees toLowerCase data := by
  have hok : BuildTestStatus.text .ok = "ok".toList := rfl
  have hmatched : Classification.text .matched = "match".toList := rfl
  have hokAllowed : "ok".toList ∈ allowedStatus.map BuildTestStatus.text := by decide
  have hmatchAllowed : "match".toList ∈ allowedClassification.map Classification.text := by decide
  rw [status_eq_iff, classification_eq_iff, hok, hmatched]
  simp only [and_true]
  constructor
  · rintro ⟨hstatus, hclass, hconsistent, hstages⟩
    have hstatusAllowed : asString (propertyOf data "status") ∈
        allowedStatus.map BuildTestStatus.text := by
      by_contra hnot
      exact hnot (hstatus (.inr hnot) ▸ hokAllowed)
    have hclassAllowed : asString (propertyOf data "classification") ∈
        allowedClassification.map Classification.text := by
      by_contra hnot
      exact hnot (hclass (.inr hnot) ▸ hmatchAllowed)
    refine ⟨hstatusAllowed, hclassAllowed, fun h => ?_, fun h => hstages (.inl h.symm)⟩
    exact hstatus (hconsistent (.inl h.symm))
  · rintro ⟨hstatusAllowed, hclassAllowed, hconsistent, hstages⟩
    simp only [hstatusAllowed, hclassAllowed, not_true_eq_false, or_false]
    exact ⟨Eq.symm, Eq.symm, fun h => (hconsistent h.symm).symm, fun h => hstages h.symm⟩

end Derivations

section Main

variable (toLowerCase : Text → Text)

/-- The views of a payload are sound if and only if artifacts are missing or its
status and classification are known and agree with its stages, and its
validation is told. -/
theorem sound_iff (missing : List Text) (runStatus : Option Text) (data : Option Record) :
    Sound toLowerCase missing runStatus data ↔
      (missing ≠ [] ∨ Agrees toLowerCase data) ∧ ValidationTold data := by
  by_cases hmissing : missing ≠ []
  · obtain ⟨hok, hmatched⟩ := classify_missing hmissing runStatus data
    simp only [hmissing, ne_eq, not_false_eq_true, true_or, true_and, ← valid_stated_iff]
    constructor
    · exact fun h => h.valid
    · intro h
      exact ⟨fun h => absurd h hok, fun h => absurd h hmatched, fun h => absurd h hmatched,
        fun h => absurd h hok, fun h => absurd h hok, h⟩
  · rw [not_not] at hmissing
    subst hmissing
    rw [← agrees_iff runStatus, ← valid_stated_iff]
    simp only [ne_eq, not_true_eq_false, false_or]
    constructor
    · rintro ⟨hok, hmatched, hconsistent, hcompiled, hexecuted, hvalid⟩
      refine ⟨⟨hok, hmatched, hconsistent, fun h => ?_⟩, hvalid⟩
      have hcompiled := hcompiled h
      have hexecuted := hexecuted h
      rw [h, ne_eq, compile_failed_iff] at hcompiled
      rw [h, ne_eq, execution_failed_iff] at hexecuted
      exact ⟨hcompiled, hexecuted⟩
    · rintro ⟨⟨hok, hmatched, hconsistent, hstages⟩, hvalid⟩
      refine ⟨hok, hmatched, hconsistent, fun h => ?_, fun h => ?_, hvalid⟩
      · rw [h, ne_eq, compile_failed_iff]
        exact (hstages h).1
      · rw [h, ne_eq, execution_failed_iff]
        exact (hstages h).2

/-- A manifest whose validation is blocked. -/
def blockedManifest : Record :=
  [("status".toList, .string "incomplete".toList),
    ("validation".toList, .object [("ok".toList, .bool false),
      ("missingArtifacts".toList, .array []),
      ("completenessStatus".toList, .string "blocked".toList)])]

/-- An empty payload is taken for a matching success, and a blocked validation for
a valid one. -/
theorem nothing_is_success :
    classifyBuildTestStatus [] none (some []) = (.ok, .matched) ∧
      ¬ Sound (List.map Char.toLower) [] none (some []) ∧
      deriveValidationStatus (some blockedManifest) = .valid ∧
      ¬ Sound (List.map Char.toLower) ["build-test-result".toList] none (some blockedManifest) := by
  have hempty : classifyBuildTestStatus [] none (some []) = (.ok, .matched) := by decide
  have hvalid : deriveValidationStatus (some blockedManifest) = .valid := by decide
  refine ⟨hempty, ?_, hvalid, ?_⟩
  · intro h
    have hok := h.ok (by rw [hempty])
    revert hok
    decide
  · intro h
    rcases h.valid hvalid with hstatus | ⟨validation, hvalidation, hstates⟩
    · revert hstatus
      decide
    · have hsome : asRecord (propertyOf (some blockedManifest) "validation") =
          some [("ok".toList, .bool false), ("missingArtifacts".toList, .array []),
            ("completenessStatus".toList, .string "blocked".toList)] := rfl
      obtain rfl := Option.some.inj (hvalidation.symm.trans hsome)
      revert hstates
      decide

end Main

end C2c.Bff.RunViews
