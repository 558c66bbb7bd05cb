import C2c.Library.Trimming
import C2c.Orchestrator.JavaCandidates

/-!
The paths and the files a decoder lets through.
-/

namespace C2c.Orchestrator.CandidateReading

open C2c.Library.JavaText
open C2c.Library.GoText (byteLength)
open C2c.Library.PythonText
open C2c.Library.Trimming
open C2c.Library.PythonJson
open C2c.Library.PythonDict
open C2c.Library.PosixPaths
open C2c.Orchestrator.JavaCandidates

section Paths

variable {raw p : Text}

/-- The path a raw path is kept under. -/
def keptPath (raw : Text) : Text :=
  pathText (segments raw)

theorem safeRelpath_iff :
    safeRelpath raw = some p ↔
      raw ≠ [] ∧ '\x00' ∉ raw ∧ posixText raw ≠ [] ∧ startsWith (posixText raw) ['/'] = false ∧
        hasDrive (posixText raw) = false ∧ ['.', '.'] ∉ segments raw ∧ p = keptPath raw := by
  have hany : (segments raw).any (fun segment => segment == [] || segment == ['.'] ||
      segment == ['.', '.']) = true ↔ ['.', '.'] ∈ segments raw := by
    rw [List.any_eq_true]
    constructor
    · rintro ⟨segment, hmem, hsegment⟩
      obtain ⟨hempty, hdot, -⟩ := plain_pathParts _ segment hmem
      simp only [Bool.or_eq_true, beq_iff_eq, hempty, hdot, false_or] at hsegment
      rwa [← hsegment]
    · exact fun hmem => ⟨_, hmem, rfl⟩
  unfold safeRelpath
  simp only [List.isEmpty_iff, List.contains_eq_mem, decide_eq_true_eq, Bool.or_eq_true, hany]
  split_ifs with hraw hnul hposix hdrive hup
  · simp [hraw]
  · simp [hnul]
  · rcases hposix with h | h <;> simp [h]
  · simp [hdrive]
  · simp [hup]
  · rw [not_or] at hposix
    constructor
    · rintro ⟨⟩
      exact ⟨hraw, hnul, hposix.1, Bool.eq_false_iff.mpr hposix.2, Bool.eq_false_iff.mpr hdrive,
        hup, rfl⟩
    · rintro ⟨-, -, -, -, -, -, rfl⟩
      rfl

theorem mem_keptPath {c : Char} (h : c ∈ keptPath raw) :
    c = '/' ∨ (c ∈ raw ∧ c ≠ '\\') := by
  rcases mem_pathText h with rfl | ⟨segment, hsegment, hc⟩
  · exact Or.inl rfl
  · have hmem := mem_of_mem_trimmed (mem_of_mem_pathParts hsegment hc)
    obtain ⟨d, hd, hchar⟩ := List.mem_map.mp hmem
    split_ifs at hchar with hback
    · exact Or.inl hchar.symm
    · exact Or.inr ⟨hchar ▸ hd, hchar ▸ hback⟩

theorem posixText_keptPath (raw : Text) : posixText (keptPath raw) = strip (keptPath raw) := by
  have hback : '\\' ∉ keptPath raw := by
    intro h
    rcases mem_keptPath h with h | h
    · exact absurd h (by decide)
    · exact h.2 rfl
  have hreplace : replaceChar '\\' '/' (keptPath raw) = keptPath raw := by
    rw [replaceChar]
    conv_rhs => rw [← List.map_id (keptPath raw)]
    apply List.map_congr_left
    intro c hc
    rw [if_neg (fun heq : c = '\\' => hback (heq ▸ hc)), id]
  rw [posixText, hreplace]

/-- No blank stands at an end of the path, and no drive at its front. -/
def Steady (p : Text) : Prop :=
  strip p = p ∧ hasDrive p = false

/-- A kept path is kept as it is when it is read again, if it names something
and is steady. -/
theorem safeRelpath_keptPath (h : safeRelpath raw = some p) :
    safeRelpath p = some p ↔ segments raw ≠ [] ∧ Steady p := by
  obtain ⟨-, hnul, -, -, -, hup, rfl⟩ := safeRelpath_iff.mp h
  have hplain : Plain (segments raw) := plain_pathParts _
  constructor
  · intro hagain
    obtain ⟨hempty, -, -, -, hdrive, -, heq⟩ := safeRelpath_iff.mp hagain
    have hstrip : strip (keptPath raw) = keptPath raw := by
      apply trimmed_of_length
      have hle := length_pathText_pathParts_le (posixText (keptPath raw))
      rw [posixText_keptPath] at hle
      calc (keptPath raw).length = (keptPath (keptPath raw)).length := by rw [← heq]
        _ ≤ _ := by rwa [keptPath, segments, posixText_keptPath]
    rw [posixText_keptPath, hstrip] at hdrive
    refine ⟨?_, hstrip, hdrive⟩
    intro hnone
    rw [keptPath, hnone] at hempty
    exact hempty rfl
  · rintro ⟨hne, hstrip, hdrive⟩
    have hposix : posixText (keptPath raw) = keptPath raw := by rw [posixText_keptPath, hstrip]
    have hparts : segments (keptPath raw) = segments raw := by
      rw [segments, hposix]
      exact pathParts_pathText hplain
    have hempty : keptPath raw ≠ [] := pathText_ne_nil hplain hne
    rw [safeRelpath_iff, hposix, hparts]
    refine ⟨hempty, ?_, hempty, startsWith_pathText hplain, hdrive, hup, ?_⟩
    · intro hmem
      rcases mem_keptPath hmem with h | h
      · exact absurd h (by decide)
      · exact hnul h.1
    · exact (congrArg pathText hparts).symm

end Paths

section Reading

variable {words : WordData} {maxOutputBytes : Int}

/-- What an accepted entry of the map is kept as. -/
def ReadAs (entry : Text × Json) (file : Text × Text) : Prop :=
  safeRelpath entry.1 = some file.1 ∧ entry.2 = .text file.2

/-- One more file. -/
def advance (words : WordData) (decoded : DecodedFiles) (file : Text × Text) : DecodedFiles where
  files := assign file.1 file.2 decoded.files
  totalBytes := decoded.totalBytes + byteLength file.2
  hasJavaShape := decoded.hasJavaShape || (isJavaFile file.1 && hasJavaShape words file.2)
  hasJavaFile := decoded.hasJavaFile || isJavaFile file.1

/-- The size of the files. -/
def filesBytes (files : List (Text × Text)) : Nat :=
  (files.map fun file => byteLength file.2).sum

/-- A limit that is positive is kept. -/
def WithinLimit (maxOutputBytes : Int) (totalBytes : Nat) : Prop :=
  0 < maxOutputBytes → (totalBytes : Int) ≤ maxOutputBytes

theorem decodeFile_iff {decoded decoded' : DecodedFiles} {entry : Text × Json} :
    decodeFile words maxOutputBytes decoded entry = .ok decoded' ↔
      ∃ file, ReadAs entry file ∧ decoded' = advance words decoded file ∧
        WithinLimit maxOutputBytes decoded'.totalBytes := by
  obtain ⟨raw, value⟩ := entry
  unfold decodeFile ReadAs
  cases hpath : safeRelpath raw with
  | none => simp
  | some path =>
      cases value with
      | text content =>
          dsimp only
          split_ifs with hlimit
          · constructor
            · exact nofun
            · rintro ⟨⟨p, t⟩, ⟨hp, ht⟩, rfl, hwithin⟩
              obtain rfl := Option.some.inj hp
              obtain rfl := Json.text.inj ht
              exact absurd (hwithin hlimit.1) (Int.not_le.mpr hlimit.2)
          · constructor
            · rintro ⟨⟩
              exact ⟨(path, content), ⟨rfl, rfl⟩, rfl, fun hpos =>
                Int.not_lt.mp fun hlt => hlimit ⟨hpos, hlt⟩⟩
            · rintro ⟨⟨p, t⟩, ⟨hp, ht⟩, rfl, -⟩
              obtain rfl := Option.some.inj hp
              obtain rfl := Json.text.inj ht
              rfl
      | _ => simp

theorem foldl_advance (files : List (Text × Text)) (decoded : DecodedFiles) :
    files.foldl (advance words) decoded =
      { files := update decoded.files files
        totalBytes := decoded.totalBytes + filesBytes files
        hasJavaShape := decoded.hasJavaShape ||
          files.any fun file => isJavaFile file.1 && hasJavaShape words file.2
        hasJavaFile := decoded.hasJavaFile || files.any fun file => isJavaFile file.1 } := by
  induction files generalizing decoded with
  | nil => simp [update, filesBytes]
  | cons file files ih =>
      rw [List.foldl_cons, ih]
      simp [advance, update_cons, filesBytes, Bool.or_assoc, Nat.add_assoc]

/-- The sizes only grow, so that the limit is kept on the way if it is at the end. -/
theorem foldlM_decodeFile_iff {decoded decoded' : DecodedFiles} {entries : List (Text × Json)} :
    entries.foldlM (decodeFile words maxOutputBytes) decoded = .ok decoded' ↔
      ∃ files, List.Forall₂ ReadAs entries files ∧ decoded' = files.foldl (advance words) decoded ∧
        (files ≠ [] → WithinLimit maxOutputBytes decoded'.totalBytes) := by
  induction entries generalizing decoded with
  | nil =>
      constructor
      · rintro ⟨⟩
        exact ⟨[], .nil, rfl, fun h => absurd rfl h⟩
      · rintro ⟨files, hfiles, rfl, -⟩
        cases hfiles
        rfl
  | cons entry entries ih =>
      rw [List.foldlM_cons]
      constructor
      · intro h
        cases hfirst : decodeFile words maxOutputBytes decoded entry with
        | error e => rw [hfirst] at h; cases h
        | ok first =>
            rw [hfirst] at h
            obtain ⟨file, hfile, rfl, hwithin⟩ := decodeFile_iff.mp hfirst
            obtain ⟨files, hfiles, rfl, hrest⟩ := ih.mp h
            refine ⟨file :: files, .cons hfile hfiles, rfl, fun _ => ?_⟩
            by_cases hnil : files = []
            · rw [hnil]
              exact hwithin
            · exact hrest hnil
      · rintro ⟨files, hfiles, rfl, hlimit⟩
        obtain ⟨file, files, hfile, hrest, rfl⟩ := List.forall₂_cons_left_iff.mp hfiles
        have hwithin := hlimit (List.cons_ne_nil _ _)
        have hfirst : decodeFile words maxOutputBytes decoded entry =
            .ok (advance words decoded file) := by
          refine decodeFile_iff.mpr ⟨file, hfile, rfl, fun hpos => ?_⟩
          have htotal := hwithin hpos
          rw [List.foldl_cons, foldl_advance] at htotal
          exact Int.le_trans (Int.ofNat_le.mpr (Nat.le_add_right _ _)) htotal
        rw [hfirst]
        exact ih.mpr ⟨files, hrest, rfl, fun _ => hwithin⟩

/-- What the loop leaves of the files it read. -/
def readFiles (words : WordData) (pairs : List (Text × Text)) : DecodedFiles where
  files := update [] pairs
  totalBytes := filesBytes pairs
  hasJavaShape := pairs.any fun file => isJavaFile file.1 && hasJavaShape words file.2
  hasJavaFile := pairs.any fun file => isJavaFile file.1

theorem foldl_advance_empty (pairs : List (Text × Text)) :
    pairs.foldl (advance words) {} = readFiles words pairs := by
  rw [foldl_advance, readFiles]
  simp

theorem foldlM_decodeFile_empty_iff {decoded : DecodedFiles} {entries : List (Text × Json)} :
    entries.foldlM (decodeFile words maxOutputBytes) {} = .ok decoded ↔
      ∃ pairs, List.Forall₂ ReadAs entries pairs ∧ decoded = readFiles words pairs ∧
        WithinLimit maxOutputBytes (filesBytes pairs) := by
  simp only [foldlM_decodeFile_iff, foldl_advance_empty]
  constructor
  · rintro ⟨pairs, hpairs, rfl, hlimit⟩
    refine ⟨pairs, hpairs, rfl, ?_⟩
    by_cases hnil : pairs = []
    · intro hpos
      rw [hnil]
      exact Int.le_of_lt hpos
    · exact hlimit hnil
  · rintro ⟨pairs, hpairs, rfl, hlimit⟩
    exact ⟨pairs, hpairs, rfl, fun _ => hlimit⟩

/-- The two checks on the files that have been read. -/
def LooksLikeJava (words : WordData) (pairs : List (Text × Text)) : Prop :=
  (readFiles words pairs).hasJavaFile = true ∧ (readFiles words pairs).hasJavaShape = true

theorem decodeFiles_iff {entries : List (Text × Json)} {files : List (Text × Text)} :
    decodeFiles words maxOutputBytes entries = .ok files ↔
      ∃ pairs, List.Forall₂ ReadAs entries pairs ∧ files = update [] pairs ∧
        WithinLimit maxOutputBytes (filesBytes pairs) ∧ LooksLikeJava words pairs := by
  unfold decodeFiles
  constructor
  · intro h
    cases hfold : entries.foldlM (decodeFile words maxOutputBytes) {} with
    | error e => rw [hfold] at h; cases h
    | ok decoded =>
        rw [hfold] at h
        obtain ⟨pairs, hpairs, rfl, hlimit⟩ := foldlM_decodeFile_empty_iff.mp hfold
        have hjava : LooksLikeJava words pairs := by
          unfold LooksLikeJava
          cases hfile : (readFiles words pairs).hasJavaFile with
          | false => simp [bind, Except.bind, hfile, throw, throwThe, MonadExceptOf.throw] at h
          | true =>
              cases hshape : (readFiles words pairs).hasJavaShape with
              | false =>
                  simp [bind, Except.bind, hfile, hshape, throw, throwThe,
                    MonadExceptOf.throw] at h
              | true => exact ⟨rfl, rfl⟩
        refine ⟨pairs, hpairs, ?_, hlimit, hjava⟩
        simp only [bind, Except.bind, hjava.1, hjava.2] at h
        exact (Except.ok.inj h).symm
  · rintro ⟨pairs, hpairs, rfl, hlimit, hfile, hshape⟩
    rw [foldlM_decodeFile_empty_iff.mpr ⟨pairs, hpairs, rfl, hlimit⟩]
    simp only [bind, Except.bind, hfile, hshape]
    rfl

section Pairs

variable {entries : List (Text × Json)} {files : List (Text × Text)}

theorem ReadAs.path {entry : Text × Json} {file : Text × Text} (h : ReadAs entry file) :
    file.1 = keptPath entry.1 := by
  obtain ⟨-, -, -, -, -, -, hpath⟩ := safeRelpath_iff.mp h.1
  exact hpath

theorem paths_of_readAs (h : List.Forall₂ ReadAs entries files) :
    files.map Prod.fst = entries.map fun entry => keptPath entry.1 := by
  induction h with
  | nil => rfl
  | cons hread _ ih => rw [List.map_cons, List.map_cons, ih, hread.path]

theorem exists_entry (h : List.Forall₂ ReadAs entries files) {file : Text × Text}
    (hfile : file ∈ files) : ∃ entry ∈ entries, ReadAs entry file := by
  induction h with
  | nil => cases hfile
  | cons hread _ ih =>
      rcases List.mem_cons.mp hfile with rfl | hfile
      · exact ⟨_, List.mem_cons_self, hread⟩
      · obtain ⟨entry, hmem, hentry⟩ := ih hfile
        exact ⟨entry, List.mem_cons_of_mem _ hmem, hentry⟩

theorem exists_file (h : List.Forall₂ ReadAs entries files) {entry : Text × Json}
    (hentry : entry ∈ entries) : ∃ file ∈ files, ReadAs entry file := by
  induction h with
  | nil => cases hentry
  | cons hread _ ih =>
      rcases List.mem_cons.mp hentry with rfl | hentry
      · exact ⟨_, List.mem_cons_self, hread⟩
      · obtain ⟨file, hmem, hfile⟩ := ih hentry
        exact ⟨file, List.mem_cons_of_mem _ hmem, hfile⟩

end Pairs

end Reading

end C2c.Orchestrator.CandidateReading
