import C2c.Library.JavaObject
import C2c.Library.Trimming
import C2c.Orchestrator.JavaCandidates

/-!
The files an envelope names, and the envelope with a candidate's own files.
-/

namespace C2c.Orchestrator.CandidateEnvelopes

open C2c.Library
open C2c.Library.JavaText
open C2c.Library.JavaObject (bind_eq_ok_iff)
open C2c.Library.PythonText
open C2c.Library.Trimming
open C2c.Library.PythonJson
open C2c.Library.PythonDict
open C2c.Orchestrator.JavaCandidates

section Envelopes

variable {members : List (Text × Json)} {key key' : String} {value : Json}

theorem find?_assign_self (name : Text) (entries : List (Text × Json)) :
    (assign name value entries).find? (fun member => member.1 == name) = some (name, value) := by
  induction entries with
  | nil => simp [assign]
  | cons entry entries ih =>
      rw [assign]
      split_ifs with h
      · simp
      · rw [List.find?_cons_of_neg (by simpa using h), ih]

theorem find?_assign_of_ne {name name' : Text} (h : name ≠ name') (entries : List (Text × Json)) :
    (assign name value entries).find? (fun member => member.1 == name') =
      entries.find? fun member => member.1 == name' := by
  induction entries with
  | nil => simp [assign, h]
  | cons entry entries ih =>
      rw [assign]
      split_ifs with hname
      · rw [List.find?_cons_of_neg (by simpa using h),
          List.find?_cons_of_neg (by simpa [hname] using h)]
      · rw [List.find?_cons, List.find?_cons, ih]

theorem get_assign_self (key : String) :
    PythonJson.get (.object (assign key.toList value members)) key = value := by
  rw [PythonJson.get, membersOf, find?_assign_self]
  rfl

theorem get_assign_of_ne (h : key.toList ≠ key'.toList) :
    PythonJson.get (.object (assign key.toList value members)) key' =
      PythonJson.get (.object members) key' := by
  rw [PythonJson.get, PythonJson.get, membersOf, membersOf, find?_assign_of_ne h]

/-- The file an item of the artifact list names, also where its `content` is
empty. -/
def namedArtifact (item : Json) : Option (Text × Json) :=
  (artifactFile item).or
    (match artifactPath item, get item "content" with
      | some path, .text content => some (path, .text content)
      | _, _ => none)

/-- The files of one Java source, before the project file is put beside it. -/
def sourceEntries (envelope : Json) : List (Text × Json) :=
  match javaSource envelope with
  | some (entryFilePath, source) =>
      (entryFilePath, .text source) ::
        ((filledText (getOr envelope "pomXml" "pomXML")).map fun pom =>
          ("pom.xml".toList, Json.text pom)).toList
  | none => []

/-- The files an envelope names, as they stand in the shape the decoder takes,
before any is put under the path of another. -/
def namedFiles (envelope : Json) (fallbackFiles : List (Text × Text)) : List (Text × Json) :=
  match mappedFiles envelope with
  | some files => files
  | none =>
      if artifactFiles envelope ≠ [] then (artifactItems envelope).filterMap namedArtifact
      else if sourceEntries envelope ≠ [] then sourceEntries envelope
      else fallbackFiles.map fun file => (file.1, .text file.2)

/-- No item of the artifact list is passed over for its empty `content`. -/
def ArtifactsRead (envelope : Json) : Prop :=
  mappedFiles envelope = none → artifactFiles envelope ≠ [] →
    ∀ item ∈ artifactItems envelope, (namedArtifact item).isSome → (artifactFile item).isSome

theorem namedArtifact_of_artifactFile {item : Json} {file : Text × Json}
    (h : artifactFile item = some file) : namedArtifact item = some file := by
  rw [namedArtifact, h, Option.some_or]

theorem length_filterMap_artifactFile (items : List Json) :
    (items.filterMap artifactFile).length ≤ (items.filterMap namedArtifact).length ∧
      ((items.filterMap namedArtifact).length ≤ (items.filterMap artifactFile).length →
        ∀ item ∈ items, (namedArtifact item).isSome → (artifactFile item).isSome) := by
  induction items with
  | nil => simp
  | cons item items ih =>
      cases hfile : artifactFile item with
      | some file =>
          rw [List.filterMap_cons_some hfile,
            List.filterMap_cons_some (namedArtifact_of_artifactFile hfile), List.length_cons,
            List.length_cons]
          refine ⟨Nat.succ_le_succ ih.1, fun h => ?_⟩
          rw [List.forall_mem_cons]
          exact ⟨fun _ => by rw [hfile]; rfl, ih.2 (Nat.le_of_succ_le_succ h)⟩
      | none =>
          rw [List.filterMap_cons_none hfile]
          cases hnamed : namedArtifact item with
          | none =>
              rw [List.filterMap_cons_none hnamed]
              refine ⟨ih.1, fun h => ?_⟩
              rw [List.forall_mem_cons]
              exact ⟨fun hsome => by simp [hnamed] at hsome, ih.2 h⟩
          | some file =>
              rw [List.filterMap_cons_some hnamed, List.length_cons]
              refine ⟨Nat.le_succ_of_le ih.1, fun h => ?_⟩
              have hle := ih.1
              omega

theorem filterMap_artifactFile {items : List Json}
    (h : ∀ item ∈ items, (namedArtifact item).isSome → (artifactFile item).isSome) :
    items.filterMap artifactFile = items.filterMap namedArtifact := by
  apply List.filterMap_congr
  intro item hitem
  cases hfile : artifactFile item with
  | some file => exact (namedArtifact_of_artifactFile hfile).symm
  | none =>
      cases hnamed : namedArtifact item with
      | none => rfl
      | some file =>
          have hsome := h item hitem (by rw [hnamed]; rfl)
          rw [hfile] at hsome
          exact absurd hsome (by decide)

variable {envelope : Json} {fallbackFiles : List (Text × Text)} {raw : List (Text × Json)}
  {used : Bool}

theorem filledMapping_ne_nil {files : List (Text × Json)} (h : filledMapping value = some files) :
    files ≠ [] := by
  unfold filledMapping at h
  split at h
  · split_ifs at h with hempty
    rintro rfl
    rw [Option.some.inj h] at hempty
    exact hempty rfl
  · cases h

theorem mappedFiles_ne_nil {files : List (Text × Json)} (h : mappedFiles envelope = some files) :
    files ≠ [] := by
  rcases Option.or_eq_some_iff.mp h with h | ⟨-, h⟩
  · obtain ⟨key, -, hfiles⟩ := List.exists_of_findSome?_eq_some h
    exact filledMapping_ne_nil hfiles
  · obtain ⟨key, -, hfiles⟩ := List.exists_of_findSome?_eq_some h
    split_ifs at hfiles
    exact filledMapping_ne_nil hfiles

theorem rawFiles_eq (h : rawFiles envelope fallbackFiles = .ok (raw, used)) :
    (candidateFilesFromInnerOutput envelope = raw ∧ raw ≠ [] ∧ used = false) ∨
      (candidateFilesFromInnerOutput envelope = [] ∧
        raw = fallbackFiles.map (fun file => (file.1, Json.text file.2)) ∧ used = true) := by
  unfold rawFiles at h
  split_ifs at h with hfiles hfallback
  · cases h
    exact Or.inl ⟨rfl, hfiles, rfl⟩
  · cases h
    exact Or.inr ⟨not_not.mp hfiles, rfl, rfl⟩

theorem javaSourceFiles_eq (envelope : Json) :
    javaSourceFiles envelope = update [] (sourceEntries envelope) := by
  unfold javaSourceFiles sourceEntries
  cases javaSource envelope with
  | none => rfl
  | some source =>
      cases filledText (getOr envelope "pomXml" "pomXML") with
      | none => rfl
      | some pom => rfl

/-- The files read are entries of the shape the decoder takes, keyed by their
paths; the entries are the files named, but for the artifacts passed over. -/
theorem rawFiles_entries (h : rawFiles envelope fallbackFiles = .ok (raw, used)) :
    ∃ entries, (raw = entries ∨ raw = update [] entries) ∧
      entries.length ≤ (namedFiles envelope fallbackFiles).length ∧
      ((namedFiles envelope fallbackFiles).length ≤ entries.length → ArtifactsRead envelope) ∧
      (ArtifactsRead envelope → entries = namedFiles envelope fallbackFiles) := by
  have hraw := rawFiles_eq h
  unfold namedFiles
  unfold candidateFilesFromInnerOutput at hraw
  cases hmapped : mappedFiles envelope with
  | some files =>
      rw [hmapped] at hraw
      rcases hraw with ⟨rfl, -⟩ | ⟨hnil, -⟩
      · have hread : ArtifactsRead envelope := fun hnone => by
          rw [hmapped] at hnone
          cases hnone
        exact ⟨files, Or.inl rfl, le_rfl, fun _ => hread, fun _ => rfl⟩
      · exact absurd hnil (mappedFiles_ne_nil hmapped)
  | none =>
      rw [hmapped] at hraw
      dsimp only at hraw ⊢
      by_cases hartifacts : artifactFiles envelope ≠ []
      · rw [if_pos hartifacts] at hraw ⊢
        obtain ⟨hnamed, hread⟩ := length_filterMap_artifactFile (artifactItems envelope)
        rcases hraw with ⟨rfl, -⟩ | ⟨hnil, -⟩
        · exact ⟨_, Or.inr rfl, hnamed, fun hge _ _ => hread hge, fun hread =>
            filterMap_artifactFile (hread hmapped hartifacts)⟩
        · exact absurd hnil hartifacts
      · rw [if_neg hartifacts, javaSourceFiles_eq] at hraw
        rw [if_neg hartifacts]
        have hread : ArtifactsRead envelope := fun _ hne => absurd hne hartifacts
        by_cases hsource : sourceEntries envelope ≠ []
        · rw [if_pos hsource]
          rcases hraw with ⟨rfl, -⟩ | ⟨hnil, -⟩
          · exact ⟨_, Or.inr rfl, le_rfl, fun _ => hread, fun _ => rfl⟩
          · exact absurd hnil (update_ne_nil hsource)
        · rw [if_neg hsource]
          rw [not_not.mp hsource] at hraw
          rcases hraw with ⟨rfl, hne, -⟩ | ⟨-, rfl, -⟩
          · exact absurd rfl hne
          · exact ⟨_, Or.inl rfl, le_rfl, fun _ => hread, fun _ => rfl⟩

theorem length_rawFiles_le (h : rawFiles envelope fallbackFiles = .ok (raw, used)) :
    raw.length ≤ (namedFiles envelope fallbackFiles).length := by
  obtain ⟨entries, rfl | rfl, hle, -⟩ := rawFiles_entries h
  · exact hle
  · exact (length_update_nil_le entries).trans hle

/-- Where none is lost, every artifact was read. -/
theorem rawFiles_of_length (h : rawFiles envelope fallbackFiles = .ok (raw, used))
    (hge : (namedFiles envelope fallbackFiles).length ≤ raw.length) :
    raw = namedFiles envelope fallbackFiles ∧ ArtifactsRead envelope := by
  obtain ⟨entries, hraw, hle, hread, heq⟩ := rawFiles_entries h
  have hentries : raw = entries ∧ (namedFiles envelope fallbackFiles).length ≤ entries.length := by
    rcases hraw with rfl | rfl
    · exact ⟨rfl, hge⟩
    · exact ⟨update_nil_of_length (hle.trans hge), hge.trans (length_update_nil_le entries)⟩
  exact ⟨hentries.1.trans (heq (hread hentries.2)), hread hentries.2⟩

/-- Where every artifact is read and no path comes twice, none is lost. -/
theorem rawFiles_of_nodup (h : rawFiles envelope fallbackFiles = .ok (raw, used))
    (hread : ArtifactsRead envelope)
    (hnodup : ((namedFiles envelope fallbackFiles).map Prod.fst).Nodup) :
    raw = namedFiles envelope fallbackFiles := by
  obtain ⟨entries, hraw, -, -, heq⟩ := rawFiles_entries h
  obtain rfl := heq hread
  rcases hraw with rfl | rfl
  · rfl
  · exact update_nil_of_nodup hnodup

end Envelopes

section Redecoding

variable {words : WordData} {maxOutputBytes : Int} {fallbackFiles : List (Text × Text)}
  {members : List (Text × Json)} {candidate : GeneratedJavaCandidate}

/-- An accepted envelope, step by step. -/
theorem decodeCandidate_iff {envelope : Json} :
    decodeCandidate words envelope maxOutputBytes fallbackFiles = .ok candidate ↔
      ∃ raw used entry, rawFiles envelope fallbackFiles = .ok (raw, used) ∧
        decodeFiles words maxOutputBytes raw = .ok candidate.files ∧
        decodeEntryFile envelope candidate.files = .ok entry ∧
        decodeEntryPackage words envelope entry = .ok candidate.entryPackage ∧
        decodeEntryClass words envelope candidate.entryPackage entry.2 =
          .ok candidate.entryClass ∧
        decodeUnsupported envelope = .ok candidate.unsupportedConstructs ∧
        candidate.entryFilePath = entry.1 ∧
        candidate.explanation =
          if used then fallbackExplanation (explanationOf envelope) else explanationOf envelope := by
  unfold decodeCandidate
  constructor
  · intro h
    obtain ⟨⟨raw, used⟩, hraw, h⟩ := bind_eq_ok_iff.mp h
    obtain ⟨files, hfiles, h⟩ := bind_eq_ok_iff.mp h
    obtain ⟨entry, hentry, h⟩ := bind_eq_ok_iff.mp h
    obtain ⟨entryPackage, hpackage, h⟩ := bind_eq_ok_iff.mp h
    obtain ⟨entryClass, hclass, h⟩ := bind_eq_ok_iff.mp h
    obtain ⟨unsupported, hunsupported, h⟩ := bind_eq_ok_iff.mp h
    obtain rfl := Except.ok.inj h
    exact ⟨raw, used, entry, hraw, hfiles, hentry, hpackage, hclass, hunsupported, rfl, rfl⟩
  · rintro ⟨raw, used, entry, hraw, hfiles, hentry, hpackage, hclass, hunsupported, hpath, hexp⟩
    rw [hraw]
    refine bind_eq_ok_iff.mpr ⟨_, rfl, bind_eq_ok_iff.mpr ⟨_, hfiles, bind_eq_ok_iff.mpr
      ⟨_, hentry, bind_eq_ok_iff.mpr ⟨_, hpackage, bind_eq_ok_iff.mpr ⟨_, hclass,
        bind_eq_ok_iff.mpr ⟨_, hunsupported, ?_⟩⟩⟩⟩⟩⟩
    dsimp only
    rw [← hpath, ← hexp]
    rfl

/-- The files of a candidate as a file map. -/
def fileMap (candidate : GeneratedJavaCandidate) : List (Text × Json) :=
  candidate.files.map fun file => (file.1, .text file.2)

/-- The envelope with the candidate's own map in place of its files, and with
its explanation. -/
def ownEnvelope (members : List (Text × Json)) (candidate : GeneratedJavaCandidate) : Json :=
  .object (assign "explanation".toList (.text candidate.explanation)
    (assign "files".toList (.object (fileMap candidate)) members))

theorem get_own {key : String} (hfiles : "files".toList ≠ key.toList)
    (hexplanation : "explanation".toList ≠ key.toList) :
    PythonJson.get (ownEnvelope members candidate) key = PythonJson.get (.object members) key := by
  rw [ownEnvelope, get_assign_of_ne hexplanation, get_assign_of_ne hfiles]

theorem getOr_own {first second : String} (hfirst : "files".toList ≠ first.toList)
    (hfirst' : "explanation".toList ≠ first.toList) (hsecond : "files".toList ≠ second.toList)
    (hsecond' : "explanation".toList ≠ second.toList) :
    getOr (ownEnvelope members candidate) first second = getOr (.object members) first second := by
  rw [getOr, getOr, get_own hfirst hfirst', get_own hsecond hsecond']

theorem rawFiles_own (h : candidate.files ≠ []) :
    rawFiles (ownEnvelope members candidate) fallbackFiles = .ok (fileMap candidate, false) := by
  have hfiles : PythonJson.get (ownEnvelope members candidate) "files" =
      .object (fileMap candidate) := by
    rw [ownEnvelope, get_assign_of_ne (by decide), get_assign_self]
  have hfilled : fileMap candidate ≠ [] := by
    simpa [fileMap] using h
  have hmapped : mappedFiles (ownEnvelope members candidate) = some (fileMap candidate) := by
    have hunder : mappingUnder (ownEnvelope members candidate)
        ["files", "generatedFiles", "projectFiles"] = some (fileMap candidate) := by
      rw [mappingUnder, List.findSome?_cons, hfiles, filledMapping,
        if_neg (by simpa using hfilled)]
    rw [mappedFiles, hunder, Option.some_or]
  have hcandidate : candidateFilesFromInnerOutput (ownEnvelope members candidate) =
      fileMap candidate := by
    rw [candidateFilesFromInnerOutput, hmapped]
  rw [rawFiles, hcandidate, if_pos hfilled]

theorem decodeEntryFile_own (files : List (Text × Text)) :
    decodeEntryFile (ownEnvelope members candidate) files =
      decodeEntryFile (.object members) files := by
  rw [decodeEntryFile, getOr_own (by decide) (by decide) (by decide) (by decide)]
  rfl

theorem decodeEntryPackage_own (entry : Text × Text) :
    decodeEntryPackage words (ownEnvelope members candidate) entry =
      decodeEntryPackage words (.object members) entry := by
  unfold decodeEntryPackage namedPackage
  rw [getOr_own (by decide) (by decide) (by decide) (by decide)]

theorem decodeEntryClass_own (entryPackage entryContent : Text) :
    decodeEntryClass words (ownEnvelope members candidate) entryPackage entryContent =
      decodeEntryClass words (.object members) entryPackage entryContent := by
  unfold decodeEntryClass
  rw [getOr_own (by decide) (by decide) (by decide) (by decide)]

theorem decodeUnsupported_own :
    decodeUnsupported (ownEnvelope members candidate) = decodeUnsupported (.object members) := by
  unfold decodeUnsupported
  rw [getOr_own (by decide) (by decide) (by decide) (by decide)]

theorem str_ne_nil {value : Json} (h : truthy value = true) : str value ≠ [] := by
  cases value with
  | null => exact absurd h (by decide)
  | bool b =>
      cases b with
      | false => exact absurd h (by decide)
      | true => exact List.cons_ne_nil _ _
  | number t =>
      rintro (rfl : t = [])
      exact absurd h (by decide)
  | text t =>
      rintro (rfl : t = [])
      exact absurd h (by decide)
  | array items => simp [str, PythonJson.repr]
  | object members => simp [str, PythonJson.repr]

theorem fallbackExplanation_ne_nil (explanation : Text) :
    fallbackExplanation explanation ≠ [] := by
  apply trimmed_ne_nil (a := 'M') _ (by decide)
  apply List.mem_append_right
  apply List.mem_cons_of_mem
  decide

theorem explanationOf_own (hexplanation : candidate.explanation = [] →
    truthy (getOr (.object members) "explanation" "notes") = false) :
    explanationOf (ownEnvelope members candidate) = candidate.explanation := by
  have hget : PythonJson.get (ownEnvelope members candidate) "explanation" =
      .text candidate.explanation := by
    rw [ownEnvelope, get_assign_self]
  have hnotes : PythonJson.get (ownEnvelope members candidate) "notes" =
      PythonJson.get (.object members) "notes" := get_own (by decide) (by decide)
  rw [explanationOf, getOr, hget, hnotes]
  by_cases hnil : candidate.explanation = []
  · have hfalse := hexplanation hnil
    rw [getOr] at hfalse
    have hfalse' : truthy (PythonJson.get (.object members) "notes") = false := by
      split_ifs at hfalse with h
      · rw [h] at hfalse
        exact absurd hfalse (by decide)
      · exact hfalse
    rw [hnil, if_neg (by decide), strOrEmpty, if_neg (by simp [hfalse'])]
  · have htruthy : truthy (.text candidate.explanation) = true := by
      simpa [truthy] using hnil
    rw [if_pos htruthy, strOrEmpty, if_pos htruthy, str]

/-- A candidate without explanation comes from an envelope without one. -/
theorem explanation_absent {used : Bool} {explanation : Text}
    (h : explanation = if used then fallbackExplanation (explanationOf (.object members))
      else explanationOf (.object members)) (hnil : explanation = []) :
    truthy (getOr (.object members) "explanation" "notes") = false := by
  rw [hnil] at h
  cases used with
  | true => exact absurd h.symm (fallbackExplanation_ne_nil _)
  | false =>
      by_contra htruthy
      rw [Bool.not_eq_false] at htruthy
      have hstr : explanationOf (.object members) ≠ [] := by
        rw [explanationOf, strOrEmpty, if_pos htruthy]
        exact str_ne_nil htruthy
      exact hstr h.symm

theorem decodeEntryFile_spec {envelope : Json} {files : List (Text × Text)} {entry : Text × Text}
    (h : decodeEntryFile envelope files = .ok entry) :
    entry ∈ files ∧ isJavaFile entry.1 = true := by
  unfold decodeEntryFile at h
  split at h
  · split at h
    · cases h
    · next path _ =>
        split_ifs at h with hjava
        split at h
        · next file hfind =>
            obtain rfl := Except.ok.inj h
            refine ⟨List.mem_of_find?_eq_some hfind, ?_⟩
            have hpath := List.find?_some hfind
            rw [beq_iff_eq] at hpath
            rw [hpath]
            simpa using hjava
        · cases h
  · split at h
    · next file hfilter =>
        obtain rfl := Except.ok.inj h
        exact List.mem_filter.mp (hfilter ▸ List.mem_singleton_self file)
    · cases h

theorem decodeEntryPackage_spec {envelope : Json} {entry : Text × Text} {entryPackage : Text}
    (h : decodeEntryPackage words envelope entry = .ok entryPackage) :
    packageLine words entry.2 = some entryPackage := by
  unfold decodeEntryPackage at h
  cases hdeclared : packageLine words entry.2 with
  | none => rw [hdeclared] at h; cases h
  | some declaredPackage =>
      rw [hdeclared] at h
      obtain ⟨chosen, -, h⟩ := bind_eq_ok_iff.mp h
      by_cases hne : declaredPackage ≠ chosen
      · rw [if_pos hne] at h
        cases h
      · rw [if_neg hne] at h
        rw [not_not.mp hne, Except.ok.inj h]

end Redecoding

end C2c.Orchestrator.CandidateEnvelopes
