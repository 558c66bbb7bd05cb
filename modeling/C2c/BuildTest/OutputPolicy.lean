import C2c.BuildTest.Comparison

/-!
The lines the comparison policy compares.
-/

namespace C2c.BuildTest.OutputPolicy

open C2c.Library.JavaText
open C2c.BuildTest.Comparison

/-- The lines of a text behind the characters already read, newest first; a
line ends at a line feed, a carriage return, or both in a row. -/
def cutLinesFrom (line : Text) : Text → List Text
  | [] => [line.reverse]
  | '\r' :: '\n' :: t => line.reverse :: cutLinesFrom [] t
  | c :: t =>
      if c = '\r' ∨ c = '\n' then line.reverse :: cutLinesFrom [] t
      else cutLinesFrom (c :: line) t

def cutLines (t : Text) : List Text :=
  cutLinesFrom [] t

/-- The lines without the blanks and tabs behind them. -/
def trimmedLines (t : Text) : List Text :=
  (cutLines t).map stripTrailingHorizontalWhitespace

/-- The trimmed lines without the empty ones at the end. -/
def comparedLines (t : Text) : List Text :=
  (trimmedLines t).rdropWhile List.isEmpty

theorem cutLinesFrom_cons (line : Text) {c : Char} {t : Text}
    (hpair : ∀ rest, c = '\r' → t = '\n' :: rest → False) :
    cutLinesFrom line (c :: t) = if c = '\r' ∨ c = '\n' then
      line.reverse :: cutLinesFrom [] t else cutLinesFrom (c :: line) t := by
  rw [cutLinesFrom]
  exact hpair

theorem cutLinesFrom_eq (line t : Text) :
    cutLinesFrom line t =
      List.splitOnPPrepend (· == '\n') (normalizeLineEndingsOnly t) line := by
  induction t using replaceCrLf.induct generalizing line with
  | case1 => simp [cutLinesFrom, normalizeLineEndingsOnly, replaceCrLf]
  | case2 t ih =>
      rw [cutLinesFrom, normalizeLineEndingsOnly, replaceCrLf, List.map_cons, if_neg (by decide),
        List.splitOnPPrepend_cons_pos (by rfl), ih []]
      rfl
  | case3 c t hpair ih =>
      have hreplace : replaceCrLf (c :: t) = c :: replaceCrLf t := by
        rw [replaceCrLf]
        exact hpair
      rw [cutLinesFrom_cons line hpair, normalizeLineEndingsOnly, hreplace, List.map_cons]
      by_cases hreturn : c = '\r'
      · rw [if_pos (.inl hreturn), if_pos hreturn, List.splitOnPPrepend_cons_pos (by rfl), ih []]
        rfl
      · rw [if_neg hreturn]
        by_cases hfeed : c = '\n'
        · rw [if_pos (.inr hfeed), List.splitOnPPrepend_cons_pos (by simp [hfeed]), ih []]
          rfl
        · rw [if_neg (not_or.mpr ⟨hreturn, hfeed⟩),
            List.splitOnPPrepend_cons_neg (by simp [hfeed]), ih]
          rfl

theorem cutLines_eq (t : Text) : cutLines t = (normalizeLineEndingsOnly t).splitOn '\n' :=
  cutLinesFrom_eq [] t

theorem trimmedLines_eq (t : Text) : trimmedLines t = strippedLines t := by
  rw [trimmedLines, cutLines_eq, strippedLines]

theorem normalize_eq (t : Text) : normalize t = joinWith ['\n'] (comparedLines t) := by
  rw [Comparison.normalize, comparedLines, trimmedLines_eq]

theorem lineEnd_not_mem_cutLinesFrom {line : Text} (hline : '\r' ∉ line ∧ '\n' ∉ line) (t : Text) :
    ∀ l ∈ cutLinesFrom line t, '\r' ∉ l ∧ '\n' ∉ l := by
  have hreverse {line : Text} (h : '\r' ∉ line ∧ '\n' ∉ line) :
      '\r' ∉ line.reverse ∧ '\n' ∉ line.reverse := by
    simpa using h
  have hempty : '\r' ∉ ([] : Text) ∧ '\n' ∉ ([] : Text) := by
    simp
  induction line, t using cutLinesFrom.induct with
  | case1 line =>
      rw [cutLinesFrom]
      simpa using hline
  | case2 line t ih =>
      rw [cutLinesFrom]
      exact List.forall_mem_cons.mpr ⟨hreverse hline, ih hempty⟩
  | case3 line c t hpair hend ih =>
      rw [cutLinesFrom_cons line hpair, if_pos hend]
      exact List.forall_mem_cons.mpr ⟨hreverse hline, ih hempty⟩
  | case4 line c t hpair hend ih =>
      rw [cutLinesFrom_cons line hpair, if_neg hend]
      rw [not_or] at hend
      exact ih ⟨by simp [hline.1, Ne.symm hend.1], by simp [hline.2, Ne.symm hend.2]⟩

theorem normalizeLineEndingsOnly_of_notMem {t : Text} (h : '\r' ∉ t) :
    normalizeLineEndingsOnly t = t := by
  induction t with
  | nil => rfl
  | cons c t ih =>
      rw [List.mem_cons, not_or] at h
      have hreplace : replaceCrLf (c :: t) = c :: replaceCrLf t := by
        rw [replaceCrLf]
        exact fun _ hreturn _ => h.1 hreturn.symm
      rw [normalizeLineEndingsOnly, hreplace, List.map_cons, if_neg (Ne.symm h.1)]
      exact congrArg (c :: ·) (ih h.2)

theorem return_not_mem_joinWith {lines : List Text} (h : ∀ l ∈ lines, '\r' ∉ l) :
    '\r' ∉ joinWith ['\n'] lines := by
  induction lines with
  | nil => simp [joinWith]
  | cons line lines ih =>
      obtain ⟨hline, hlines⟩ := List.forall_mem_cons.mp h
      cases lines with
      | nil => simpa [joinWith] using hline
      | cons second lines =>
          rw [joinWith, List.intercalate_cons_of_ne_nil (by simp), List.mem_append, List.mem_append]
          rintro ((hmem | hmem) | hmem)
          · exact hline hmem
          · simp at hmem
          · exact ih hlines hmem

/-- The compared lines are found again in their joined text. -/
theorem comparedLines_joinWith {lines : List Text} (hlines : ∀ l ∈ lines, '\r' ∉ l ∧ '\n' ∉ l)
    (htrimmed : lines.map stripTrailingHorizontalWhitespace = lines)
    (hshort : lines.rdropWhile List.isEmpty = lines) :
    comparedLines (joinWith ['\n'] lines) = lines := by
  by_cases hempty : lines = []
  · rw [hempty]
    rfl
  · have hunchanged : normalizeLineEndingsOnly (joinWith ['\n'] lines) = joinWith ['\n'] lines :=
      normalizeLineEndingsOnly_of_notMem (return_not_mem_joinWith fun l hl => (hlines l hl).1)
    have hcut : cutLines (joinWith ['\n'] lines) = lines := by
      rw [cutLines_eq, hunchanged]
      exact List.splitOn_intercalate '\n' (fun l hl => (hlines l hl).2) hempty
    rw [comparedLines, trimmedLines, hcut, htrimmed, hshort]

theorem comparedLines_normalize (t : Text) : comparedLines (normalize t) = comparedLines t := by
  have hcut : ∀ l ∈ cutLines t, '\r' ∉ l ∧ '\n' ∉ l :=
    lineEnd_not_mem_cutLinesFrom (by simp) t
  have hkept : ∀ l ∈ comparedLines t, l ∈ trimmedLines t := fun l hl =>
    (List.rdropWhile_prefix List.isEmpty (trimmedLines t)).subset hl
  rw [normalize_eq]
  apply comparedLines_joinWith
  · intro l hl
    obtain ⟨line, hline, rfl⟩ := List.mem_map.mp (hkept l hl)
    have hsub := (List.rdropWhile_prefix (fun c => c == ' ' || c == '\t') line).subset
    exact ⟨fun h => (hcut line hline).1 (hsub h), fun h => (hcut line hline).2 (hsub h)⟩
  · have hline : ∀ l ∈ comparedLines t, stripTrailingHorizontalWhitespace l = id l := by
      intro l hl
      obtain ⟨line, -, rfl⟩ := List.mem_map.mp (hkept l hl)
      exact List.rdropWhile_idempotent _ line
    rw [List.map_congr_left hline, List.map_id]
  · exact List.rdropWhile_idempotent _ _

/-- Two texts normalize to one exactly when their compared lines are the same. -/
theorem normalize_eq_iff (a b : Text) :
    normalize a = normalize b ↔ comparedLines a = comparedLines b := by
  constructor
  · intro h
    rw [← comparedLines_normalize a, h, comparedLines_normalize]
  · intro h
    rw [normalize_eq, normalize_eq, h]

theorem normalize_normalize (t : Text) : normalize (normalize t) = normalize t := by
  rw [normalize_eq_iff, comparedLines_normalize]

/-! What the classes of a mismatch stand for. -/

/-- The two texts have the same lines. -/
def DifferInLineEndings (a b : Text) : Prop :=
  a ≠ b ∧ cutLines a = cutLines b

/-- The two texts have the same lines but for blanks and tabs behind them. -/
def DifferInTrailingBlanks (a b : Text) : Prop :=
  cutLines a ≠ cutLines b ∧ trimmedLines a = trimmedLines b

theorem normalizeLineEndingsOnly_eq_iff (a b : Text) :
    normalizeLineEndingsOnly a = normalizeLineEndingsOnly b ↔ cutLines a = cutLines b := by
  rw [cutLines_eq, cutLines_eq]
  constructor
  · exact congrArg _
  · intro h
    have hjoined : ['\n'].intercalate ((normalizeLineEndingsOnly a).splitOn '\n') =
        ['\n'].intercalate ((normalizeLineEndingsOnly b).splitOn '\n') := by
      rw [h]
    rwa [List.intercalate_splitOn, List.intercalate_splitOn] at hjoined

/-- Texts whose difference has a class of its own are matched by the policy. -/
theorem normalize_eq_of_trimmedLines {a b : Text} (h : trimmedLines a = trimmedLines b) :
    normalize a = normalize b := by
  rw [normalize_eq_iff, comparedLines, comparedLines, h]

theorem trimmedLines_of_cutLines {a b : Text} (h : cutLines a = cutLines b) :
    trimmedLines a = trimmedLines b := by
  rw [trimmedLines, trimmedLines, h]

theorem stripTrailingWhitespaceOnly_eq_iff (a b : Text) :
    stripTrailingWhitespaceOnly a = stripTrailingWhitespaceOnly b ↔
      trimmedLines a = trimmedLines b := by
  have hsplit (t : Text) :
      (stripTrailingWhitespaceOnly t).splitOn '\n' = trimmedLines t := by
    rw [stripTrailingWhitespaceOnly, ← trimmedLines_eq]
    apply List.splitOn_intercalate
    · intro l hl
      obtain ⟨line, hline, rfl⟩ := List.mem_map.mp hl
      exact fun h => (lineEnd_not_mem_cutLinesFrom (by simp) t line hline).2
        ((List.rdropWhile_prefix _ line).subset h)
    · rw [trimmedLines, cutLines_eq, ne_eq, List.map_eq_nil_iff]
      exact List.splitOn_ne_nil _ _
  constructor
  · intro h
    rw [← hsplit, ← hsplit, h]
  · intro h
    rw [stripTrailingWhitespaceOnly, stripTrailingWhitespaceOnly, ← trimmedLines_eq,
      ← trimmedLines_eq, h]

/-- A mismatch of stdouts is one of their content. -/
theorem classifyStdoutMismatch_of_ne {a b : Text} (h : normalize a ≠ normalize b) :
    classifyStdoutMismatch a b = .content := by
  have hlines : ¬ normalizeLineEndingsOnly a = normalizeLineEndingsOnly b := by
    rw [normalizeLineEndingsOnly_eq_iff]
    exact fun hcut => h (normalize_eq_of_trimmedLines (trimmedLines_of_cutLines hcut))
  have hstripped : ¬ stripTrailingWhitespaceOnly a = stripTrailingWhitespaceOnly b := by
    rw [stripTrailingWhitespaceOnly_eq_iff]
    exact fun htrimmed => h (normalize_eq_of_trimmedLines htrimmed)
  rw [classifyStdoutMismatch, if_neg hlines, if_neg hstripped]

/-- The streams of two executions have the same compared lines. -/
structure StreamsAgree (source target : ExecutionFact) : Prop where
  stdout : comparedLines source.stdout = comparedLines target.stdout
  stderr : comparedLines source.stderr = comparedLines target.stderr

section Compare

variable {source target : ExecutionFact}

theorem matched_iff_streamsAgree (hsource : source.status = .passed)
    (htarget : target.status = .passed)
    (hexit : target.exitCode = some (source.exitCode.getD 0)) :
    (compare source target).matched = true ↔ StreamsAgree source target := by
  rw [compare_matched_iff]
  constructor
  · rintro ⟨-, -, -, hstderr, hstdout⟩
    exact ⟨(normalize_eq_iff _ _).mp hstdout, (normalize_eq_iff _ _).mp hstderr⟩
  · rintro ⟨hstdout, hstderr⟩
    exact ⟨hsource, htarget, (sameExitCode_iff _ _).mpr hexit, (normalize_eq_iff _ _).mpr hstderr,
      (normalize_eq_iff _ _).mpr hstdout⟩

theorem mismatch_of_matched (h : (compare source target).matched = true) :
    (compare source target).mismatch = .none := by
  obtain ⟨hsource, htarget, hexit, hstderr, hstdout⟩ := (compare_matched_iff source target).mp h
  simp [Comparison.compare, judge, hsource, htarget, hexit, hstderr, hstdout]

theorem mismatch_ne_layout (source target : ExecutionFact) :
    (compare source target).mismatch ≠ .lineEndings ∧
      (compare source target).mismatch ≠ .formatting := by
  unfold Comparison.compare judge
  dsimp only
  split
  · exact ⟨nofun, nofun⟩
  · split
    · exact ⟨nofun, nofun⟩
    · split
      · exact ⟨nofun, nofun⟩
      · split
        · next hstdout =>
            rw [classifyStdoutMismatch_of_ne hstdout]
            exact ⟨nofun, nofun⟩
        · exact ⟨nofun, nofun⟩

end Compare

/-- The policy compares lines without what it strips; a comparison matches what
agrees under the policy, so a difference in line endings or trailing blanks has no
class of its own. -/
theorem comparison_follows_policy (source target : ExecutionFact) (a b : Text)
    (hsource : source.status = .passed) (htarget : target.status = .passed)
    (hexit : target.exitCode = some (source.exitCode.getD 0)) :
    (normalize a = normalize b ↔ comparedLines a = comparedLines b) ∧
      normalize (normalize a) = normalize a ∧
      ((compare source target).matched = true ↔ StreamsAgree source target) ∧
      (compare source target).mismatch ≠ .lineEndings ∧
      (compare source target).mismatch ≠ .formatting ∧
      (DifferInLineEndings source.stdout target.stdout ∨
          DifferInTrailingBlanks source.stdout target.stdout →
        comparedLines source.stderr = comparedLines target.stderr →
        (compare source target).mismatch = .none) := by
  refine ⟨normalize_eq_iff a b, normalize_normalize a,
    matched_iff_streamsAgree hsource htarget hexit, (mismatch_ne_layout source target).1,
    (mismatch_ne_layout source target).2, ?_⟩
  intro hdiffer hstderr
  have htrimmed : trimmedLines source.stdout = trimmedLines target.stdout :=
    hdiffer.elim (fun h => trimmedLines_of_cutLines h.2) And.right
  have hstdout : comparedLines source.stdout = comparedLines target.stdout := by
    rw [comparedLines, comparedLines, htrimmed]
  exact mismatch_of_matched
    ((matched_iff_streamsAgree hsource htarget hexit).mpr ⟨hstdout, hstderr⟩)

/-- An execution that ended with zero and wrote a text. -/
def finished (stdout : String) : ExecutionFact where
  status := .passed
  exitCode := some 0
  stdout := stdout.toList
  stderr := []
  surfaceLabel := []

theorem finished_follows_policy :
    (compare (finished "PASS \r\n") (finished "PASS\n\n")).matched = true ∧
      (compare (finished "PASS\r\n") (finished "PASS\n")).mismatch = .none := by
  obtain ⟨-, -, hmatched, -, -, -⟩ := comparison_follows_policy (finished "PASS \r\n")
    (finished "PASS\n\n") [] [] rfl rfl rfl
  obtain ⟨-, -, -, -, -, hclass⟩ := comparison_follows_policy (finished "PASS\r\n")
    (finished "PASS\n") [] [] rfl rfl rfl
  exact ⟨hmatched.mpr ⟨by decide, rfl⟩, hclass (.inl ⟨by decide, by decide⟩) rfl⟩

/-- Stdouts that differ in line endings only are matched, not classified. -/
theorem line_endings_unclassified :
    ¬ ∀ source target : ExecutionFact, source.status = .passed → target.status = .passed →
      source.exitCode = target.exitCode →
      ((compare source target).mismatch = .lineEndings ↔
        DifferInLineEndings source.stdout target.stdout) := by
  intro h
  exact (mismatch_ne_layout _ _).1
    ((h (finished "PASS\r\n") (finished "PASS\n") rfl rfl rfl).mpr ⟨by decide, by decide⟩)

end C2c.BuildTest.OutputPolicy
