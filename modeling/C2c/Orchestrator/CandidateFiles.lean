import C2c.Orchestrator.CandidateEnvelopes
import C2c.Orchestrator.CandidateReading

/-!
The files of a decoded candidate against those the envelope names.
-/

namespace C2c.Orchestrator.CandidateFiles

open C2c.Library.JavaText
open C2c.Library.PythonText
open C2c.Library.PythonJson
open C2c.Library.PythonDict
open C2c.Library.PosixPaths
open C2c.Orchestrator.JavaCandidates
open C2c.Orchestrator.CandidateReading
open C2c.Orchestrator.CandidateEnvelopes

section Property

variable (words : WordData) (envelope : Json) (maxOutputBytes : Int)
  (fallbackFiles : List (Text × Text)) (candidate : GeneratedJavaCandidate)

/-- A relative POSIX path without empty segments and without dots. -/
def IsRelative (path : Text) : Prop :=
  ∀ segment ∈ splitAtChar '/' path, segment ≠ [] ∧ segment ≠ ['.'] ∧ segment ≠ ['.', '.']

/-- Every named file is kept once and with its content, in its order. -/
structure Keeps (named : List (Text × Json)) (files : List (Text × Text)) : Prop where
  each : List.Forall₂ ReadAs named files
  once : (files.map Prod.fst).Nodup

/-- What a candidate of an envelope should be. -/
structure IsFaithful (members : List (Text × Json)) : Prop where
  keeps : Keeps (namedFiles (.object members) fallbackFiles) candidate.files
  relative : ∀ file ∈ candidate.files, IsRelative file.1
  directories : ∀ file ∈ candidate.files, ∀ file' ∈ candidate.files,
    ¬ (file.1 ++ ['/']) <+: file'.1
  limited : WithinLimit maxOutputBytes (filesBytes candidate.files)
  entry : ∃ content, (candidate.entryFilePath, content) ∈ candidate.files ∧
    isJavaFile candidate.entryFilePath = true ∧
    packageLine words content = some candidate.entryPackage
  redecoded : decodeCandidate words (ownEnvelope members candidate) maxOutputBytes fallbackFiles =
    .ok candidate

/-- One path is a directory of another. -/
def IsAbove (raw raw' : Text) : Prop :=
  segments raw <+: segments raw' ∧ segments raw ≠ segments raw'

/-- Every path names something, none gains a blank end or a drive when its dots
go, no two name one file, and none is a directory of another; no artifact is
passed over. -/
structure PlainlyNamed : Prop where
  named : ∀ file ∈ namedFiles envelope fallbackFiles, segments file.1 ≠ []
  steady : ∀ file ∈ namedFiles envelope fallbackFiles, Steady (keptPath file.1)
  apart : ((namedFiles envelope fallbackFiles).map fun file => segments file.1).Nodup
  level : ∀ file ∈ namedFiles envelope fallbackFiles, ∀ file' ∈ namedFiles envelope fallbackFiles,
    ¬ IsAbove file.1 file'.1
  read : ArtifactsRead envelope

end Property

section Faithful

variable {words : WordData} {maxOutputBytes : Int} {fallbackFiles : List (Text × Text)}
  {members : List (Text × Json)} {candidate : GeneratedJavaCandidate}
  {entries : List (Text × Json)} {files pairs : List (Text × Text)}

/-- Plain segments are found again in the path, so that the path tells them. -/
theorem segments_of_keptPath {raw raw' : Text} (h : keptPath raw = keptPath raw') :
    segments raw = segments raw' := by
  have hread : ∀ r, pathParts (pathText (segments r)) = segments r := fun _ =>
    pathParts_pathText (plain_pathParts _)
  rw [← hread raw, ← hread raw']
  exact congrArg pathParts h

theorem nodup_paths_iff (h : List.Forall₂ ReadAs entries files) :
    (files.map Prod.fst).Nodup ↔ (entries.map fun entry => segments entry.1).Nodup := by
  rw [paths_of_readAs h, List.Nodup, List.Nodup, List.pairwise_map, List.pairwise_map]
  constructor
  · exact fun hpaths => hpaths.imp fun hne heq => hne (congrArg pathText heq)
  · exact fun hsegments => hsegments.imp fun hne heq => hne (segments_of_keptPath heq)

theorem isRelative_iff {raw path : Text} (h : safeRelpath raw = some path) :
    IsRelative path ↔ segments raw ≠ [] := by
  obtain ⟨-, -, -, -, -, hup, rfl⟩ := safeRelpath_iff.mp h
  have hplain : Plain (segments raw) := plain_pathParts _
  constructor
  · intro hrelative hnone
    rw [keptPath, hnone] at hrelative
    exact (hrelative [] List.mem_cons_self).1 rfl
  · intro hne segment hsegment
    rw [keptPath, splitAtChar_pathText (fun s hs => (hplain s hs).2.2) hne] at hsegment
    obtain ⟨hempty, hdot, -⟩ := hplain segment hsegment
    exact ⟨hempty, hdot, fun heq => hup (heq ▸ hsegment)⟩

theorem fileMap_readAs_iff (files : List (Text × Text)) :
    List.Forall₂ ReadAs (files.map fun file => (file.1, Json.text file.2)) files ↔
      ∀ file ∈ files, safeRelpath file.1 = some file.1 := by
  rw [List.forall₂_map_left_iff, List.forall₂_same]
  exact forall₂_congr fun file _ => and_iff_left rfl

/-- The own map of a candidate is read as it stands just where every path is kept. -/
theorem decodeFiles_fileMap_iff (hnodup : (files.map Prod.fst).Nodup)
    (hlimit : WithinLimit maxOutputBytes (filesBytes files)) (hjava : LooksLikeJava words files) :
    decodeFiles words maxOutputBytes (files.map fun file => (file.1, Json.text file.2)) =
        .ok files ↔
      ∀ file ∈ files, safeRelpath file.1 = some file.1 := by
  rw [decodeFiles_iff, ← fileMap_readAs_iff]
  constructor
  · rintro ⟨pairs, hpairs, hfiles, -⟩
    have hlength : pairs.length = files.length := by
      rw [← hpairs.length_eq, List.length_map]
    have hsame : update [] pairs = pairs := by
      apply update_nil_of_length
      rw [← hfiles, hlength]
    rwa [hfiles, hsame] at hpairs ⊢
  · exact fun hsame => ⟨files, hsame, (update_nil_of_nodup hnodup).symm, hlimit, hjava⟩

/-- What is known of the files of an accepted candidate. -/
theorem accepted_files (h : decodeCandidate words (.object members) maxOutputBytes fallbackFiles =
    .ok candidate) :
    ∃ raw used pairs, rawFiles (.object members) fallbackFiles = .ok (raw, used) ∧
      List.Forall₂ ReadAs raw pairs ∧ candidate.files = update [] pairs ∧
      WithinLimit maxOutputBytes (filesBytes pairs) ∧ LooksLikeJava words pairs := by
  obtain ⟨raw, used, entry, hraw, hfiles, -⟩ := decodeCandidate_iff.mp h
  obtain ⟨pairs, hpairs, hupdate, hlimit, hjava⟩ := decodeFiles_iff.mp hfiles
  exact ⟨raw, used, pairs, hraw, hpairs, hupdate, hlimit, hjava⟩

theorem accepted_files_ne_nil
    (h : decodeCandidate words (.object members) maxOutputBytes fallbackFiles = .ok candidate) :
    candidate.files ≠ [] := by
  obtain ⟨raw, used, pairs, -, -, hupdate, -, hjava, -⟩ := accepted_files h
  rw [hupdate]
  apply update_ne_nil
  rintro rfl
  exact absurd hjava Bool.false_ne_true

/-- The own envelope of a candidate leads to the candidate just where its own
map does. -/
theorem redecoded_iff
    (h : decodeCandidate words (.object members) maxOutputBytes fallbackFiles = .ok candidate) :
    decodeCandidate words (ownEnvelope members candidate) maxOutputBytes fallbackFiles =
        .ok candidate ↔
      decodeFiles words maxOutputBytes (fileMap candidate) = .ok candidate.files := by
  have hown : rawFiles (ownEnvelope members candidate) fallbackFiles = _ :=
    rawFiles_own (accepted_files_ne_nil h)
  obtain ⟨raw, used, entry, hraw, hfiles, hentry, hpackage, hclass, hunsupported, hpath, hexp⟩ :=
    decodeCandidate_iff.mp h
  constructor
  · intro hagain
    obtain ⟨raw', used', entry', hraw', hfiles', -⟩ := decodeCandidate_iff.mp hagain
    rw [hown] at hraw'
    cases hraw'
    exact hfiles'
  · intro hfiles'
    refine decodeCandidate_iff.mpr ⟨_, _, entry, hown, hfiles', ?_, ?_, ?_, ?_, hpath, ?_⟩
    · rwa [decodeEntryFile_own]
    · rwa [decodeEntryPackage_own]
    · rwa [decodeEntryClass_own]
    · rwa [decodeUnsupported_own]
    · rw [explanationOf_own (explanation_absent hexp)]
      rfl

/-- Where no file is lost, the candidate holds the files read and nothing else. -/
theorem files_of_length {raw : List (Text × Json)} {used : Bool}
    (hraw : rawFiles (.object members) fallbackFiles = .ok (raw, used))
    (hpairs : List.Forall₂ ReadAs raw pairs) (hfiles : files = update [] pairs)
    (hlength : (namedFiles (.object members) fallbackFiles).length ≤ files.length) :
    files = pairs ∧ raw = namedFiles (.object members) fallbackFiles ∧
      ArtifactsRead (.object members) := by
  have hle : files.length ≤ pairs.length := by
    rw [hfiles]
    exact length_update_nil_le pairs
  have hnamed := rawFiles_of_length hraw (by rw [hpairs.length_eq]; exact hlength.trans hle)
  refine ⟨?_, hnamed⟩
  rw [hfiles]
  apply update_nil_of_length
  rw [← hfiles, ← hpairs.length_eq]
  exact (length_rawFiles_le hraw).trans hlength

theorem directory_iff_isAbove {entry entry' : Text × Json} {file file' : Text × Text}
    (h : ReadAs entry file) (h' : ReadAs entry' file') (hne : segments entry.1 ≠ []) :
    (file.1 ++ ['/']) <+: file'.1 ↔ IsAbove entry.1 entry'.1 := by
  rw [h.path, h'.path]
  exact directory_iff (plain_pathParts _) hne (plain_pathParts _)

theorem plainlyNamed_of_faithful
    (h : decodeCandidate words (.object members) maxOutputBytes fallbackFiles = .ok candidate)
    (hfaithful : IsFaithful words maxOutputBytes fallbackFiles candidate members) :
    PlainlyNamed (.object members) fallbackFiles := by
  obtain ⟨raw, used, pairs, hraw, hpairs, hfiles, hlimit, hjava⟩ := accepted_files h
  obtain ⟨⟨heach, honce⟩, hrelative, hdirectories, -, -, hredecoded⟩ := hfaithful
  obtain ⟨hsame, -, hread⟩ := files_of_length hraw hpairs hfiles (le_of_eq heach.length_eq)
  rw [← hsame] at hlimit hjava
  have hkept := (decodeFiles_fileMap_iff honce hlimit hjava).mp ((redecoded_iff h).mp hredecoded)
  have hsegments : ∀ file ∈ namedFiles (.object members) fallbackFiles, segments file.1 ≠ [] := by
    intro entry hentry
    obtain ⟨file, hfile, hreadAs⟩ := exists_file heach hentry
    exact (isRelative_iff hreadAs.1).mp (hrelative file hfile)
  refine ⟨hsegments, ?_, (nodup_paths_iff heach).mp honce, ?_, hread⟩
  · intro entry hentry
    obtain ⟨file, hfile, hreadAs⟩ := exists_file heach hentry
    rw [← hreadAs.path]
    exact ((safeRelpath_keptPath hreadAs.1).mp (hkept file hfile)).2
  · intro entry hentry entry' hentry' habove
    obtain ⟨file, hfile, hreadAs⟩ := exists_file heach hentry
    obtain ⟨file', hfile', hreadAs'⟩ := exists_file heach hentry'
    apply hdirectories file hfile file' hfile'
    exact (directory_iff_isAbove hreadAs hreadAs' (hsegments entry hentry)).mpr habove

theorem faithful_of_plainlyNamed
    (h : decodeCandidate words (.object members) maxOutputBytes fallbackFiles = .ok candidate)
    (hplain : PlainlyNamed (.object members) fallbackFiles) :
    IsFaithful words maxOutputBytes fallbackFiles candidate members := by
  obtain ⟨raw, used, pairs, hraw, hpairs, hfiles, hlimit, hjava⟩ := accepted_files h
  obtain ⟨hsegments, hsteady, hapart, hlevel, hread⟩ := hplain
  have hraws : ((namedFiles (.object members) fallbackFiles).map Prod.fst).Nodup := by
    rw [List.Nodup, List.pairwise_map] at hapart ⊢
    exact hapart.imp fun hne heq => hne (congrArg segments heq)
  obtain rfl := rawFiles_of_nodup hraw hread hraws
  have honce := (nodup_paths_iff hpairs).mpr hapart
  have hsame : candidate.files = pairs := by rw [hfiles, update_nil_of_nodup honce]
  rw [← hsame] at hpairs hlimit hjava honce
  have hkept : ∀ file ∈ candidate.files, safeRelpath file.1 = some file.1 := by
    intro file hfile
    obtain ⟨entry, hentry, hreadAs⟩ := exists_entry hpairs hfile
    refine (safeRelpath_keptPath hreadAs.1).mpr ⟨hsegments entry hentry, ?_⟩
    rw [hreadAs.path]
    exact hsteady entry hentry
  obtain ⟨-, -, entry, -, -, hentry, hpackage, -, -, hpath, -⟩ := decodeCandidate_iff.mp h
  obtain ⟨hmem, hjavaFile⟩ := decodeEntryFile_spec hentry
  refine ⟨⟨hpairs, honce⟩, ?_, ?_, hlimit, ⟨entry.2, ?_, ?_, decodeEntryPackage_spec hpackage⟩, ?_⟩
  · intro file hfile
    obtain ⟨entry, hentry, hreadAs⟩ := exists_entry hpairs hfile
    exact (isRelative_iff hreadAs.1).mpr (hsegments entry hentry)
  · intro file hfile file' hfile' hdirectory
    obtain ⟨entry, hentry, hreadAs⟩ := exists_entry hpairs hfile
    obtain ⟨entry', hentry', hreadAs'⟩ := exists_entry hpairs hfile'
    exact hlevel entry hentry entry' hentry'
      ((directory_iff_isAbove hreadAs hreadAs' (hsegments entry hentry)).mp hdirectory)
  · rwa [hpath]
  · rwa [hpath]
  · exact (redecoded_iff h).mpr ((decodeFiles_fileMap_iff honce hlimit hjava).mpr hkept)

/-- The candidate of an accepted envelope is faithful just where the files are
plainly named. -/
theorem faithful_iff_plainlyNamed
    (h : decodeCandidate words (.object members) maxOutputBytes fallbackFiles = .ok candidate) :
    IsFaithful words maxOutputBytes fallbackFiles candidate members ↔
      PlainlyNamed (.object members) fallbackFiles :=
  ⟨plainlyNamed_of_faithful h, faithful_of_plainlyNamed h⟩

/-- An entry class in one file, and a project file beside it. -/
def plainMembers : List (Text × Json) :=
  [("files".toList, .object
    [("a/B.java".toList, .text "package a; class B {}".toList),
      ("pom.xml".toList, .text "<project/>".toList)])]

def plainCandidate : GeneratedJavaCandidate where
  files := [("a/B.java".toList, "package a; class B {}".toList),
    ("pom.xml".toList, "<project/>".toList)]
  entryClass := ['B']
  entryPackage := ['a']
  entryFilePath := "a/B.java".toList
  unsupportedConstructs := []
  explanation := []

theorem plainCandidate_faithful :
    decodeCandidate .ascii (.object plainMembers) 100 [] = .ok plainCandidate ∧
      IsFaithful .ascii 100 [] plainCandidate plainMembers := by
  have haccepted : decodeCandidate .ascii (.object plainMembers) 100 [] = .ok plainCandidate := by
    decide
  have hnamed : namedFiles (.object plainMembers) [] =
      [("a/B.java".toList, .text "package a; class B {}".toList),
        ("pom.xml".toList, .text "<project/>".toList)] := rfl
  refine ⟨haccepted, (faithful_iff_plainlyNamed haccepted).mpr ⟨?_, ?_, ?_, ?_, fun h => ?_⟩⟩
  · rw [hnamed, List.forall_mem_cons, List.forall_mem_singleton]
    decide
  · rw [hnamed, List.forall_mem_cons, List.forall_mem_singleton]
    exact ⟨⟨by decide, by decide⟩, by decide, by decide⟩
  · rw [hnamed]
    decide
  · simp only [hnamed, List.forall_mem_cons, IsAbove]
    decide
  · cases h

/-- Two spellings of one path. -/
def twiceNamed : List (Text × Json) :=
  [("files".toList, .object
    [("a\\B.java".toList, .text "package a; class B {}".toList),
      ("a/B.java".toList, .text "package a; class C {}".toList)])]

def mergedCandidate : GeneratedJavaCandidate where
  files := [("a/B.java".toList, "package a; class C {}".toList)]
  entryClass := ['C']
  entryPackage := ['a']
  entryFilePath := "a/B.java".toList
  unsupportedConstructs := []
  explanation := []

/-- One of two files is lost where their paths differ in a backslash only. -/
theorem merged_not_faithful :
    ¬ ∀ (words : WordData) (members : List (Text × Json)) (maxOutputBytes : Int)
      (fallbackFiles : List (Text × Text)) (candidate : GeneratedJavaCandidate),
      decodeCandidate words (.object members) maxOutputBytes fallbackFiles = .ok candidate →
        IsFaithful words maxOutputBytes fallbackFiles candidate members := by
  intro hall
  have hfaithful := hall .ascii twiceNamed 100 [] mergedCandidate (by decide)
  have hnamed : (namedFiles (.object twiceNamed) []).length = 2 := rfl
  have hlength := hfaithful.keeps.each.length_eq
  rw [hnamed] at hlength
  exact absurd hlength (by decide)

end Faithful

end C2c.Orchestrator.CandidateFiles
