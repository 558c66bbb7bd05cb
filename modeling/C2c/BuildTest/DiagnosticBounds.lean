import C2c.Library.BigDecimal

/-!
The file paths of diagnostics, as the code units of a Java string.
-/

namespace C2c.BuildTest.DiagnosticBounds

open C2c.Library.JavaText
open C2c.Library.BigDecimal

def maxFilePathLength : Nat :=
  500

def maxFilePathRawInput : Nat :=
  maxFilePathLength * 2

def slash : UInt16 :=
  unit '/'

def fallback : Units :=
  units "generated-project".toList

/-- The segment of a step to the parent. -/
def parent : Units :=
  units "..".toList

/-- `String.isBlank`; no half of a surrogate pair is a blank. -/
def isBlankUnits (t : Units) : Bool :=
  t.all fun c => isWhitespace (Char.ofNat c.toNat)

def isAllowedFilePathChar (c : UInt16) : Bool :=
  (unit 'A' ≤ c && c ≤ unit 'Z') || (unit 'a' ≤ c && c ≤ unit 'z') ||
    (unit '0' ≤ c && c ≤ unit '9') || c == unit '.' || c == unit '_' || c == slash ||
    c == unit '-'

/-- The loop over the segments behind what is rebuilt; a segment too long ends it. -/
def rebuildFrom (rebuilt : Units) : List Units → Units
  | [] => rebuilt
  | segment :: segments =>
      if segment.isEmpty || segment == parent then rebuildFrom rebuilt segments
      else
        let separator := if rebuilt.isEmpty then 0 else 1
        if maxFilePathLength < rebuilt.length + separator + segment.length then rebuilt
        else rebuildFrom (if separator = 1 then rebuilt ++ slash :: segment else rebuilt ++ segment)
          segments

/-- What is left of a path before it is split. -/
def sanitize (filePath : Units) : Units :=
  let clamped := if maxFilePathRawInput < filePath.length then filePath.take maxFilePathRawInput
    else filePath
  let normalised := trimUnits (clamped.map fun c => if c = unit '\\' then slash else c)
  (normalised.dropWhile (· = slash)).map fun c => if isAllowedFilePathChar c then c else unit '_'

/-- `DiagnosticBounds.boundedFilePath`. -/
def boundedFilePath : Option Units → Units
  | none => fallback
  | some filePath =>
      if isBlankUnits filePath then fallback
      else
        let rebuilt := rebuildFrom [] ((sanitize filePath).splitOn slash)
        if rebuilt.isEmpty then fallback else rebuilt

/-- The pattern and the lengths the evidence schema asks of a file path. -/
structure IsSchemaPath (path : Units) : Prop where
  nonempty : path ≠ []
  length : path.length ≤ maxFilePathLength
  allowed : ∀ c ∈ path, isAllowedFilePathChar c = true
  relative : path.head? ≠ some slash
  noTraversal : parent ∉ path.splitOn slash

/-- A segment that is kept. -/
structure IsSegment (segment : Units) : Prop where
  nonempty : segment ≠ []
  notParent : segment ≠ parent
  allowed : ∀ c ∈ segment, isAllowedFilePathChar c = true
  noSlash : slash ∉ segment

def joinSegments (segments : List Units) : Units :=
  [slash].intercalate segments

section Segments

variable {segments : List Units}

theorem joinSegments_cons (segment : Units) (h : segments ≠ []) :
    joinSegments (segment :: segments) = segment ++ slash :: joinSegments segments := by
  rw [joinSegments, List.intercalate_cons_of_ne_nil h, List.append_assoc]
  rfl

theorem joinSegments_append_singleton (h : segments ≠ []) (segment : Units) :
    joinSegments (segments ++ [segment]) = joinSegments segments ++ slash :: segment := by
  induction segments with
  | nil => exact absurd rfl h
  | cons first segments ih =>
      cases segments with
      | nil => simp [joinSegments]
      | cons second segments =>
          rw [List.cons_append, joinSegments_cons first (by simp), ih (by simp),
            joinSegments_cons first (by simp), List.append_assoc]
          rfl

theorem joinSegments_ne_nil (h : segments ≠ []) (hsegments : ∀ s ∈ segments, IsSegment s) :
    joinSegments segments ≠ [] := by
  cases segments with
  | nil => exact absurd rfl h
  | cons segment segments =>
      have hfirst := (hsegments segment List.mem_cons_self).nonempty
      cases segments with
      | nil => simpa [joinSegments] using hfirst
      | cons second segments =>
          rw [joinSegments_cons segment (by simp)]
          simp

theorem splitOn_joinSegments (h : segments ≠ []) (hsegments : ∀ s ∈ segments, IsSegment s) :
    (joinSegments segments).splitOn slash = segments :=
  List.splitOn_intercalate slash (fun s hs => (hsegments s hs).noSlash) h

theorem allowed_joinSegments (hsegments : ∀ s ∈ segments, IsSegment s) :
    ∀ c ∈ joinSegments segments, isAllowedFilePathChar c = true := by
  induction segments with
  | nil => simp [joinSegments]
  | cons segment segments ih =>
      obtain ⟨hsegment, hrest⟩ := List.forall_mem_cons.mp hsegments
      by_cases h : segments = []
      · rw [h, joinSegments, List.intercalate_singleton]
        exact hsegment.allowed
      · rw [joinSegments_cons segment h]
        intro c hc
        rcases List.mem_append.mp hc with hc | hc
        · exact hsegment.allowed c hc
        · rcases List.mem_cons.mp hc with rfl | hc
          · decide
          · exact ih hrest c hc

theorem isSchemaPath_joinSegments (h : segments ≠ []) (hsegments : ∀ s ∈ segments, IsSegment s)
    (hlength : (joinSegments segments).length ≤ maxFilePathLength) :
    IsSchemaPath (joinSegments segments) where
  nonempty := joinSegments_ne_nil h hsegments
  length := hlength
  allowed := allowed_joinSegments hsegments
  relative := by
    cases segments with
    | nil => exact absurd rfl h
    | cons segment segments =>
        have hfirst := hsegments segment List.mem_cons_self
        obtain ⟨c, rest, rfl⟩ := List.exists_cons_of_ne_nil hfirst.nonempty
        have hc : c ≠ slash := fun heq => hfirst.noSlash (heq ▸ List.mem_cons_self)
        by_cases hrest : segments = []
        · rw [hrest, joinSegments, List.intercalate_singleton]
          simpa using hc
        · rw [joinSegments_cons _ hrest]
          simpa using hc
  noTraversal := by
    rw [splitOn_joinSegments h hsegments]
    exact fun hmem => (hsegments parent hmem).notParent rfl

end Segments

section Rebuild

theorem rebuildFrom_cons {kept : List Units} (hkept : ∀ s ∈ kept, IsSegment s) {segment : Units}
    (hsegment : segment ≠ [] ∧ segment ≠ parent) (segments : List Units) :
    rebuildFrom (joinSegments kept) (segment :: segments) =
      if maxFilePathLength < (joinSegments (kept ++ [segment])).length then joinSegments kept
      else rebuildFrom (joinSegments (kept ++ [segment])) segments := by
  have hnot : (segment.isEmpty || segment == parent) = false := by
    simp [hsegment.1, hsegment.2]
  rw [rebuildFrom, hnot, if_neg Bool.false_ne_true]
  by_cases h : kept = []
  · subst h
    simp [joinSegments]
  · have hempty : (joinSegments kept).isEmpty = false := by
      rw [List.isEmpty_eq_false_iff]
      exact joinSegments_ne_nil h hkept
    have hlength : (joinSegments kept).length + 1 + segment.length =
        (joinSegments kept ++ slash :: segment).length := by
      rw [List.length_append, List.length_cons]
      omega
    simp only [hempty, Bool.false_eq_true, if_false, hlength, if_true,
      joinSegments_append_singleton h]

/-- What is rebuilt joins segments, and is as long as the bound allows. -/
theorem rebuildFrom_spec (kept : List Units) (hkept : ∀ s ∈ kept, IsSegment s)
    (hlength : (joinSegments kept).length ≤ maxFilePathLength) {segments : List Units}
    (hsegments : ∀ s ∈ segments, slash ∉ s ∧ ∀ c ∈ s, isAllowedFilePathChar c = true) :
    ∃ result, rebuildFrom (joinSegments kept) segments = joinSegments result ∧
      (∀ s ∈ result, IsSegment s) ∧ (joinSegments result).length ≤ maxFilePathLength := by
  induction segments generalizing kept with
  | nil => exact ⟨kept, rfl, hkept, hlength⟩
  | cons segment segments ih =>
      obtain ⟨⟨hslash, hallowed⟩, hrest⟩ := List.forall_mem_cons.mp hsegments
      by_cases hskip : segment = [] ∨ segment = parent
      · rw [rebuildFrom, if_pos (by simpa using hskip)]
        exact ih kept hkept hlength hrest
      · rw [not_or] at hskip
        rw [rebuildFrom_cons hkept hskip]
        split
        · exact ⟨kept, rfl, hkept, hlength⟩
        · next hfits =>
            refine ih _ ?_ (Nat.not_lt.mp hfits) hrest
            intro s hs
            rcases List.mem_append.mp hs with hs | hs
            · exact hkept s hs
            · obtain rfl := List.mem_singleton.mp hs
              exact ⟨hskip.1, hskip.2, hallowed, hslash⟩

theorem length_joinSegments_append (kept segments : List Units) :
    (joinSegments kept).length ≤ (joinSegments (kept ++ segments)).length := by
  induction kept with
  | nil => exact Nat.zero_le _
  | cons first kept ih =>
      by_cases h : kept = []
      · subst h
        by_cases hsegments : segments = []
        · rw [hsegments, List.append_nil]
        · rw [List.singleton_append, joinSegments_cons first hsegments, joinSegments,
            List.intercalate_singleton, List.length_append]
          exact Nat.le_add_right _ _
      · rw [List.cons_append, joinSegments_cons first h, joinSegments_cons first (by simp [h]),
          List.length_append, List.length_append, List.length_cons, List.length_cons]
        omega

/-- Segments that fit are rebuilt as they are. -/
theorem rebuildFrom_of_fits (kept segments : List Units)
    (hsegments : ∀ s ∈ kept ++ segments, IsSegment s)
    (hlength : (joinSegments (kept ++ segments)).length ≤ maxFilePathLength) :
    rebuildFrom (joinSegments kept) segments = joinSegments (kept ++ segments) := by
  induction segments generalizing kept with
  | nil => rw [rebuildFrom, List.append_nil]
  | cons segment segments ih =>
      have hsplit : kept ++ segment :: segments = (kept ++ [segment]) ++ segments := by simp
      have hsegment := hsegments segment (by simp)
      have hkept : ∀ s ∈ kept, IsSegment s := fun s hs => hsegments s (List.mem_append_left _ hs)
      rw [hsplit] at hsegments hlength ⊢
      have hfits : ¬ maxFilePathLength < (joinSegments (kept ++ [segment])).length :=
        Nat.not_lt.mpr ((length_joinSegments_append _ segments).trans hlength)
      rw [rebuildFrom_cons hkept ⟨hsegment.nonempty, hsegment.notParent⟩, if_neg hfits]
      exact ih _ hsegments hlength

end Rebuild

section Sanitize

theorem allowed_sanitize (filePath : Units) :
    ∀ c ∈ sanitize filePath, isAllowedFilePathChar c = true := by
  intro c hc
  obtain ⟨d, -, rfl⟩ := List.mem_map.mp hc
  split
  · next hallowed => exact hallowed
  · decide

theorem mem_splitOn {t s : Units} {c : UInt16} (hs : s ∈ t.splitOn c) :
    c ∉ s ∧ ∀ d ∈ s, d ∈ t := by
  induction t generalizing s with
  | nil =>
      obtain rfl := List.mem_singleton.mp hs
      exact ⟨List.not_mem_nil, fun _ => id⟩
  | cons d t ih =>
      rw [List.splitOn_cons_eq_if_modifyHead] at hs
      split at hs
      · rcases List.mem_cons.mp hs with rfl | hs
        · exact ⟨List.not_mem_nil, nofun⟩
        · exact ⟨(ih hs).1, fun e he => List.mem_cons_of_mem _ ((ih hs).2 e he)⟩
      · next hne =>
          obtain ⟨first, rest, hsplit⟩ := List.exists_cons_of_ne_nil (List.splitOn_ne_nil c t)
          rw [hsplit, List.modifyHead_cons] at hs
          rw [beq_iff_eq] at hne
          rcases List.mem_cons.mp hs with rfl | hs
          · obtain ⟨hnot, hsub⟩ := ih (s := first) (by rw [hsplit]; exact List.mem_cons_self)
            exact ⟨fun hc => (List.mem_cons.mp hc).elim (fun h => hne h.symm) hnot,
              List.forall_mem_cons.mpr ⟨List.mem_cons_self,
                fun e he => List.mem_cons_of_mem _ (hsub e he)⟩⟩
          · obtain ⟨hnot, hsub⟩ := ih (s := s) (by rw [hsplit]; exact List.mem_cons_of_mem _ hs)
            exact ⟨hnot, fun e he => List.mem_cons_of_mem _ (hsub e he)⟩

theorem segments_sanitize (filePath : Units) :
    ∀ s ∈ (sanitize filePath).splitOn slash,
      slash ∉ s ∧ ∀ c ∈ s, isAllowedFilePathChar c = true := by
  intro s hs
  obtain ⟨hslash, hsub⟩ := mem_splitOn hs
  exact ⟨hslash, fun c hc => allowed_sanitize filePath c (hsub c hc)⟩

/-- The allowed characters lie between the dash and the `z`. -/
theorem toNat_of_allowed {c : UInt16} (h : isAllowedFilePathChar c = true) :
    45 ≤ c.toNat ∧ c.toNat ≤ 122 ∧ c.toNat ≠ 92 := by
  have hcode (d : Char) (hd : d.toNat < 128) : (unit d).toNat = d.toNat := toNat_unit hd
  have hA := hcode 'A' (by decide)
  have hZ := hcode 'Z' (by decide)
  have ha := hcode 'a' (by decide)
  have hz := hcode 'z' (by decide)
  have hzero := hcode '0' (by decide)
  have hnine := hcode '9' (by decide)
  have hdot := hcode '.' (by decide)
  have hlow := hcode '_' (by decide)
  have hslash := hcode '/' (by decide)
  have hdash := hcode '-' (by decide)
  simp only [isAllowedFilePathChar, Bool.or_eq_true, Bool.and_eq_true, beq_iff_eq,
    decide_eq_true_eq, slash, UInt16.le_iff_toNat_le, ← UInt16.toNat_inj, hA, hZ, ha, hz, hzero,
    hnine, hdot, hlow, hslash, hdash] at h
  revert h
  simp only [Char.reduceToNat]
  omega

theorem isBlankUnits_of_allowed {c : UInt16} {t : Units} (h : isAllowedFilePathChar c = true) :
    isBlankUnits (c :: t) = false := by
  obtain ⟨hlow, hhigh, -⟩ := toNat_of_allowed h
  have hcodes : ((List.range 123).all fun n => n < 45 || !isWhitespace (Char.ofNat n)) = true := by
    decide
  have hcode := List.all_eq_true.mp hcodes c.toNat (List.mem_range.mpr (Nat.lt_succ_of_le hhigh))
  rw [decide_eq_false (Nat.not_lt.mpr hlow), Bool.false_or, Bool.not_eq_true'] at hcode
  rw [isBlankUnits, List.all_cons, hcode, Bool.false_and]

/-- What satisfies the schema is left as it is. -/
theorem sanitize_eq_self {path : Units} (h : IsSchemaPath path) : sanitize path = path := by
  have hclamped : ¬ maxFilePathRawInput < path.length :=
    Nat.not_lt.mpr (h.length.trans (by decide))
  have hslashes : path.map (fun c => if c = unit '\\' then slash else c) = path := by
    have hc : ∀ c ∈ path, (if c = unit '\\' then slash else c) = id c := by
      intro c hc
      refine if_neg fun heq => (toNat_of_allowed (h.allowed c hc)).2.2 ?_
      rw [heq]
      rfl
    rw [List.map_congr_left hc, List.map_id]
  have htrimmed : trimUnits path = path := by
    apply trimUnits_eq_self
    intro c hc
    have := (toNat_of_allowed (h.allowed c hc)).1
    rw [UInt16.lt_iff_toNat_lt]
    exact Nat.lt_of_lt_of_le (by decide) this
  have hdropped : path.dropWhile (fun c => decide (c = slash)) = path := by
    cases path with
    | nil => rfl
    | cons c path =>
        have hc : c ≠ slash := by simpa using h.relative
        exact List.dropWhile_cons_of_neg (by simpa using hc)
  have hallowed : path.map (fun c => if isAllowedFilePathChar c then c else unit '_') = path := by
    have hc : ∀ c ∈ path, (if isAllowedFilePathChar c then c else unit '_') = id c :=
      fun c hc => if_pos (h.allowed c hc)
    rw [List.map_congr_left hc, List.map_id]
  rw [sanitize, if_neg hclamped, hslashes, htrimmed, hdropped, hallowed]

end Sanitize

theorem fallback_eq : fallback = joinSegments [fallback] := by
  rw [joinSegments, List.intercalate_singleton]

theorem isSegment_fallback : IsSegment fallback where
  nonempty := by decide
  notParent := by decide
  allowed := List.all_eq_true.mp (by decide)
  noSlash := by decide

/-- Whatever the path, what it is bounded to joins segments. -/
theorem boundedFilePath_segments (filePath : Option Units) :
    ∃ segments, boundedFilePath filePath = joinSegments segments ∧ segments ≠ [] ∧
      (∀ s ∈ segments, IsSegment s) ∧ (joinSegments segments).length ≤ maxFilePathLength := by
  have hfallback : ∃ segments, fallback = joinSegments segments ∧ segments ≠ [] ∧
      (∀ s ∈ segments, IsSegment s) ∧ (joinSegments segments).length ≤ maxFilePathLength :=
    ⟨[fallback], fallback_eq, by simp, by simpa using isSegment_fallback, by decide⟩
  cases filePath with
  | none => exact hfallback
  | some filePath =>
      rw [boundedFilePath]
      split
      · exact hfallback
      · obtain ⟨segments, hrebuilt, hsegments, hlength⟩ := rebuildFrom_spec [] nofun (Nat.zero_le _)
          (segments_sanitize filePath)
        have hrebuilt :
            rebuildFrom [] ((sanitize filePath).splitOn slash) = joinSegments segments :=
          hrebuilt
        dsimp only
        rw [hrebuilt]
        split
        · exact hfallback
        · next hempty =>
            refine ⟨segments, rfl, ?_, hsegments, hlength⟩
            rintro rfl
            exact hempty rfl

theorem boundedFilePath_joinSegments {segments : List Units} (h : segments ≠ [])
    (hsegments : ∀ s ∈ segments, IsSegment s)
    (hlength : (joinSegments segments).length ≤ maxFilePathLength) :
    boundedFilePath (some (joinSegments segments)) = joinSegments segments := by
  have hpath := isSchemaPath_joinSegments h hsegments hlength
  have hblank : isBlankUnits (joinSegments segments) = false := by
    obtain ⟨c, rest, hcons⟩ := List.exists_cons_of_ne_nil hpath.nonempty
    rw [hcons]
    exact isBlankUnits_of_allowed (hpath.allowed c (by rw [hcons]; exact List.mem_cons_self))
  have hrebuilt : rebuildFrom [] segments = joinSegments segments :=
    rebuildFrom_of_fits [] segments hsegments hlength
  have hempty : (joinSegments segments).isEmpty = false := by
    rw [List.isEmpty_eq_false_iff]
    exact hpath.nonempty
  rw [boundedFilePath, hblank, if_neg Bool.false_ne_true]
  dsimp only
  rw [sanitize_eq_self hpath, splitOn_joinSegments h hsegments, hrebuilt, hempty,
    if_neg Bool.false_ne_true]

/-- A bounded path is one the evidence schema accepts, and is left as it is. -/
theorem boundedFilePath_schema (filePath : Option Units) :
    IsSchemaPath (boundedFilePath filePath) ∧
      boundedFilePath (some (boundedFilePath filePath)) = boundedFilePath filePath := by
  obtain ⟨segments, hpath, h, hsegments, hlength⟩ := boundedFilePath_segments filePath
  rw [hpath]
  exact ⟨isSchemaPath_joinSegments h hsegments hlength,
    boundedFilePath_joinSegments h hsegments hlength⟩

example : boundedFilePath (some (units "/tmp/../a b\\C.java".toList)) =
    units "tmp/a_b/C.java".toList := by
  decide

end C2c.BuildTest.DiagnosticBounds
