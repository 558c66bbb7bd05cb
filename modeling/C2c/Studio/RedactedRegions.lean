import C2c.Studio.PreRedaction

/-!
What of a region a redaction leaves to be read.
-/

namespace C2c.Studio.RedactedRegions

open C2c.Library.RegExp
open C2c.Library.Spans
open C2c.Studio.PreRedaction

section Property

variable (rawText : CodeUnits) (tenantAdditions : List StudioRedactionPatternAddition)

def regionMatches : List RedactionMatch :=
  collectMatches rawText (regionPatterns tenantAdditions)

/-- The matches that put a marker into the text. -/
def applied : List RedactionMatch :=
  (redactMatches rawText (regionMatches rawText tenantAdditions)).appliedMatches

/-- What the redacted region is put together from, its end included. -/
def regionPieces : List Piece :=
  let r := redactMatches rawText (regionMatches rawText tenantAdditions)
  r.pieces ++ (List.range' r.cursor (rawText.length - r.cursor)).map .copied

def copiedPosition : Piece → Option Nat
  | .copied i => some i
  | .newlineOf _ | .marker _ => none

def render : Piece → CodeUnits
  | .copied i | .newlineOf i => rawText[i]?.toList
  | .marker id => markerText id

/-- A redaction copies the positions that no match covers, in their order, keeps
the newline that opens a comment line, and names the patterns of its markers. -/
structure Redacts : Prop where
  rendered : (redactRegion rawText tenantAdditions).redactedText =
    (regionPieces rawText tenantAdditions).flatMap (render rawText)
  copied : (regionPieces rawText tenantAdditions).filterMap copiedPosition =
    (List.range rawText.length).filter fun i =>
      (regionMatches rawText tenantAdditions).all fun m => i < m.start || m.stop ≤ i
  kept : ∀ i, .newlineOf i ∈ regionPieces rawText tenantAdditions → rawText[i]? = some newline ∧
    ∃ m ∈ regionMatches rawText tenantAdditions, m.id = piiCommentLine ∧ m.start = i
  marked : ∀ id, id ∈ (redactRegion rawText tenantAdditions).matchedPatternIds ↔
    .marker id ∈ regionPieces rawText tenantAdditions

end Property

section Matches

variable {rawText : CodeUnits} {patterns : List RedactionPattern}

theorem bounds_of_mem_collectMatches {m : RedactionMatch} (h : m ∈ collectMatches rawText patterns) :
    m.start < m.stop ∧ m.stop ≤ rawText.length := by
  obtain ⟨indexed, -, hm⟩ := List.mem_flatMap.mp ((List.mem_insertionSort comesFirst).mp h)
  obtain ⟨found, hfound, hsome⟩ := List.mem_filterMap.mp hm
  split at hsome
  · rename_i hproper
    cases hsome
    exact ⟨hproper, (matchesFrom_bounds hfound).2⟩
  · cases hsome

theorem minLength_literal (word : CodeUnits) : minLength (literal word) = word.length := by
  induction word with
  | nil => rfl
  | cons c word ih =>
      show 1 + minLength (literal word) = word.length + 1
      rw [ih, Nat.add_comm]

/-- No pattern of a region matches an empty text. -/
theorem minLength_pos {tenantAdditions : List StudioRedactionPatternAddition}
    {pattern : RedactionPattern} (h : pattern ∈ regionPatterns tenantAdditions) :
    0 < minLength pattern.regex := by
  rcases List.mem_append.mp h with hraw | htenant
  · have hall : ∀ pattern ∈ rawPatterns, 0 < minLength pattern.regex := by decide
    exact hall pattern hraw
  · obtain ⟨addition, -, hsome⟩ := List.mem_filterMap.mp htenant
    split at hsome
    · cases hsome
    · rename_i haccepted
      cases hsome
      rw [minLength_literal]
      simp only [Bool.or_eq_true, not_or, beq_iff_eq] at haccepted
      exact Nat.pos_of_ne_zero haccepted.1.2

/-- The loop over the matches of a pattern comes to its end. -/
theorem matchesFrom_complete {tenantAdditions : List StudioRedactionPatternAddition}
    {pattern : RedactionPattern} (h : pattern ∈ regionPatterns tenantAdditions) {fuel : Nat}
    (hfuel : rawText.length < fuel) : matchesFrom rawText pattern.regex fuel 0 =
      matchesFrom rawText pattern.regex (rawText.length + 1) 0 := by
  induction fuel, hfuel using Nat.le_induction with
  | base => rfl
  | succ fuel hfuel ih =>
      rw [← matchesFrom_fuel (minLength_pos h) (by omega)]
      exact ih

instance : Std.Total comesFirst where
  total a b := by
    unfold comesFirst
    omega

instance : IsTrans RedactionMatch comesFirst where
  trans a b c := by
    unfold comesFirst
    omega

theorem pairwise_collectMatches :
    (collectMatches rawText patterns).Pairwise fun a b => a.start ≤ b.start := by
  refine (List.pairwise_insertionSort comesFirst _).imp fun {a b} h => ?_
  unfold comesFirst at h
  omega

end Matches

section Loop

variable (rawText : CodeUnits)

theorem appliedMatches_foldl (r : Redaction) (found : List RedactionMatch) :
    (found.foldl (redactMatch rawText) r).appliedMatches =
      r.appliedMatches ++ sweep RedactionMatch.start RedactionMatch.stop r.cursor found := by
  induction found generalizing r with
  | nil => simp [sweep]
  | cons m found ih =>
      rw [List.foldl_cons, ih, redactMatch, sweep]
      split
      · rfl
      · simp

theorem cursor_foldl (r : Redaction) (found : List RedactionMatch) :
    (found.foldl (redactMatch rawText) r).cursor =
      cursorAfter RedactionMatch.start RedactionMatch.stop r.cursor found := by
  induction found generalizing r with
  | nil => rfl
  | cons m found ih =>
      rw [List.foldl_cons, ih, redactMatch, cursorAfter]
      split
      · rfl
      · rfl

theorem filterMap_copied (positions : List Nat) :
    (positions.map Piece.copied).filterMap copiedPosition = positions := by
  induction positions with
  | nil => rfl
  | cons i positions ih => exact congrArg (i :: ·) ih

/-- The positions copied are the gaps between the matches that are applied. -/
theorem copied_foldl (r : Redaction) (found : List RedactionMatch) :
    (found.foldl (redactMatch rawText) r).pieces.filterMap copiedPosition ++
        List.range' (found.foldl (redactMatch rawText) r).cursor
          (rawText.length - (found.foldl (redactMatch rawText) r).cursor) =
      r.pieces.filterMap copiedPosition ++
        gaps RedactionMatch.start RedactionMatch.stop rawText.length r.cursor
          (sweep RedactionMatch.start RedactionMatch.stop r.cursor found) := by
  induction found generalizing r with
  | nil => rfl
  | cons m found ih =>
      rw [List.foldl_cons, ih, redactMatch, sweep]
      split
      · rfl
      · have hmarker : (if keepsNewline rawText m then [.newlineOf m.start, .marker m.id]
            else [.marker m.id] : List Piece).filterMap copiedPosition = [] := by
          split
          · rfl
          · rfl
        rw [gaps, List.filterMap_append, List.filterMap_append, filterMap_copied, hmarker,
          List.append_nil, List.append_assoc]

/-- The text between two positions, copied code unit by code unit. -/
theorem flatMap_range' (start n : Nat) :
    (List.range' start n).flatMap (fun i => rawText[i]?.toList) = (rawText.drop start).take n := by
  induction n generalizing start with
  | zero => simp
  | succ n ih =>
      rw [List.range'_succ, List.flatMap_cons, ih]
      by_cases hstart : start < rawText.length
      · rw [List.drop_eq_getElem_cons hstart, List.take_succ_cons, List.getElem?_eq_getElem hstart]
        rfl
      · have hle := Nat.le_of_not_lt hstart
        rw [List.getElem?_eq_none hle, List.drop_eq_nil_of_le hle,
          List.drop_eq_nil_of_le (hle.trans (Nat.le_succ start))]
        simp

theorem flatMap_copied (start n : Nat) :
    ((List.range' start n).map Piece.copied).flatMap (render rawText) =
      (rawText.drop start).take n := by
  rw [List.flatMap_map]
  exact flatMap_range' rawText start n

variable {rawText}

theorem newline_of_keepsNewline {m : RedactionMatch} (h : keepsNewline rawText m = true) :
    m.id = piiCommentLine ∧ rawText[m.start]? = some newline := by
  unfold keepsNewline at h
  rw [Bool.and_eq_true, beq_iff_eq, beq_iff_eq, slice, List.drop_take, List.head?_take] at h
  obtain ⟨hid, hhead⟩ := h
  split at hhead
  · cases hhead
  · rw [List.head?_drop] at hhead
    exact ⟨hid, hhead⟩

/-- The text so far is that of its pieces. -/
theorem rendered_foldl (r : Redaction) (found : List RedactionMatch)
    (h : r.redactedText = r.pieces.flatMap (render rawText)) :
    (found.foldl (redactMatch rawText) r).redactedText =
      (found.foldl (redactMatch rawText) r).pieces.flatMap (render rawText) := by
  induction found generalizing r with
  | nil => exact h
  | cons m found ih =>
      rw [List.foldl_cons]
      apply ih
      rw [redactMatch]
      split
      · exact h
      · have hmarker : (if keepsNewline rawText m then [.newlineOf m.start, .marker m.id]
            else [.marker m.id] : List Piece).flatMap (render rawText) =
              if keepsNewline rawText m then newline :: markerText m.id else markerText m.id := by
          split
          · rename_i hkeeps
            simp [render, (newline_of_keepsNewline hkeeps).2]
          · simp [render]
        dsimp only
        rw [List.flatMap_append, List.flatMap_append, hmarker, flatMap_copied, h, slice,
          List.drop_take]

/-- A piece that is not copied comes from a match that was applied. -/
theorem pieces_foldl (r : Redaction) (found : List RedactionMatch)
    (h : ∀ id, .marker id ∈ r.pieces ↔ id ∈ r.appliedMatches.map RedactionMatch.id) (id : CodeUnits) :
    .marker id ∈ (found.foldl (redactMatch rawText) r).pieces ↔
      id ∈ (found.foldl (redactMatch rawText) r).appliedMatches.map RedactionMatch.id := by
  induction found generalizing r with
  | nil => exact h id
  | cons m found ih =>
      rw [List.foldl_cons]
      apply ih
      intro id
      rw [redactMatch]
      split
      · exact h id
      · have hmarker : .marker id ∈ (if keepsNewline rawText m then
            [.newlineOf m.start, .marker m.id] else [.marker m.id] : List Piece) ↔ id = m.id := by
          split
          · simp
          · simp
        simp [h id, hmarker]

theorem kept_foldl (r : Redaction) (found : List RedactionMatch)
    (h : ∀ i, .newlineOf i ∈ r.pieces → rawText[i]? = some newline ∧
      ∃ m ∈ r.appliedMatches, m.id = piiCommentLine ∧ m.start = i) (i : Nat)
    (hi : .newlineOf i ∈ (found.foldl (redactMatch rawText) r).pieces) :
    rawText[i]? = some newline ∧ ∃ m ∈ (found.foldl (redactMatch rawText) r).appliedMatches,
      m.id = piiCommentLine ∧ m.start = i := by
  induction found generalizing r with
  | nil => exact h i hi
  | cons m found ih =>
      rw [List.foldl_cons] at hi ⊢
      refine ih _ ?_ hi
      intro i hi
      rw [redactMatch] at hi ⊢
      split
      · rename_i hcursor
        rw [if_pos hcursor] at hi
        exact h i hi
      · rename_i hcursor
        rw [if_neg hcursor] at hi
        rcases List.mem_append.mp hi with hi | hi
        · rcases List.mem_append.mp hi with hi | hi
          · obtain ⟨hnewline, m', hm', hm⟩ := h i hi
            exact ⟨hnewline, m', List.mem_append_left _ hm', hm⟩
          · obtain ⟨j, -, hj⟩ := List.mem_map.mp hi
            cases hj
        · split at hi
          · rename_i hkeeps
            obtain ⟨hid, hnewline⟩ := newline_of_keepsNewline hkeeps
            have hi : i = m.start := by simpa using hi
            subst hi
            exact ⟨hnewline, m, List.mem_append_right _ List.mem_cons_self, hid, rfl⟩
          · simp at hi

end Loop

section Regions

variable (rawText : CodeUnits) (tenantAdditions : List StudioRedactionPatternAddition)

theorem applied_eq : applied rawText tenantAdditions =
    sweep RedactionMatch.start RedactionMatch.stop 0 (regionMatches rawText tenantAdditions) :=
  appliedMatches_foldl rawText {} (regionMatches rawText tenantAdditions)

theorem redactedText_eq : (redactRegion rawText tenantAdditions).redactedText =
    (regionPieces rawText tenantAdditions).flatMap (render rawText) := by
  have hrendered := @rendered_foldl rawText {} (regionMatches rawText tenantAdditions) rfl
  unfold regionPieces
  dsimp only
  rw [List.flatMap_append, flatMap_copied, List.take_of_length_le (by simp)]
  exact congrArg (· ++ _) hrendered

theorem mem_matchedPatternIds (id : CodeUnits) :
    id ∈ (redactRegion rawText tenantAdditions).matchedPatternIds ↔
      .marker id ∈ regionPieces rawText tenantAdditions := by
  have hpieces := @pieces_foldl rawText {} (regionMatches rawText tenantAdditions) (by simp) id
  show id ∈ List.insertionSort _ _ ↔ _
  rw [List.mem_insertionSort, List.mem_dedup, regionPieces, List.mem_append]
  simp only [List.mem_map, reduceCtorEq, and_false, exists_false, or_false]
  rw [← List.mem_map]
  exact hpieces.symm

theorem newlines_kept (i : Nat) (hi : .newlineOf i ∈ regionPieces rawText tenantAdditions) :
    rawText[i]? = some newline ∧
      ∃ m ∈ regionMatches rawText tenantAdditions, m.id = piiCommentLine ∧ m.start = i := by
  have hpieces : .newlineOf i ∈
      (redactMatches rawText (regionMatches rawText tenantAdditions)).pieces := by
    rcases List.mem_append.mp hi with hi | hi
    · exact hi
    · obtain ⟨j, -, hj⟩ := List.mem_map.mp hi
      cases hj
  obtain ⟨hnewline, m, hm, hmatch⟩ := kept_foldl {} _ nofun i hpieces
  have happlied : m ∈ applied rawText tenantAdditions := hm
  rw [applied_eq] at happlied
  exact ⟨hnewline, m, sweep_subset 0 _ happlied, hmatch⟩

theorem copied_eq : (regionPieces rawText tenantAdditions).filterMap copiedPosition =
    (List.range rawText.length).filter fun i =>
      (applied rawText tenantAdditions).all fun m => i < m.start || m.stop ≤ i := by
  have hbounds (m : RedactionMatch) (hm : m ∈ regionMatches rawText tenantAdditions) :=
    bounds_of_mem_collectMatches hm
  have hcopied := copied_foldl rawText {} (regionMatches rawText tenantAdditions)
  rw [gaps_sweep _ _ _ (fun m hm => (hbounds m hm).1) fun m hm => (hbounds m hm).2,
    ← applied_eq] at hcopied
  unfold regionPieces
  rw [List.filterMap_append, filterMap_copied, List.range_eq_range']
  exact hcopied

/-- No match sticks out of those before it, so none is left out that is not
within one that is applied. -/
theorem redacts_of_noOverhang (h : NoOverhang RedactionMatch.start RedactionMatch.stop
    (regionMatches rawText tenantAdditions)) : Redacts rawText tenantAdditions := by
  refine ⟨redactedText_eq rawText tenantAdditions, ?_, newlines_kept rawText tenantAdditions,
    mem_matchedPatternIds rawText tenantAdditions⟩
  have hwithin := within_of_noOverhang pairwise_collectMatches h
  rw [copied_eq]
  refine List.filter_congr fun i _ => Bool.eq_iff_iff.mpr ?_
  rw [List.all_eq_true, List.all_eq_true, applied_eq]
  constructor
  · intro hall m hm
    obtain ⟨a, ha, hstart, hstop⟩ := hwithin m hm
    have houtside := hall a ha
    simp only [Bool.or_eq_true, decide_eq_true_eq] at houtside ⊢
    omega
  · exact fun hall a ha => hall a (sweep_subset 0 _ ha)

/-- A region is redacted as it should be when no match that begins inside an
earlier one sticks out of all earlier ones; otherwise a match is left out that
no applied one contains. -/
theorem redactRegion_redacts :
    (NoOverhang RedactionMatch.start RedactionMatch.stop (regionMatches rawText tenantAdditions) →
      Redacts rawText tenantAdditions) ∧
    (¬ NoOverhang RedactionMatch.start RedactionMatch.stop (regionMatches rawText tenantAdditions) →
      ∃ m ∈ regionMatches rawText tenantAdditions, ∀ a ∈ applied rawText tenantAdditions,
        ¬ (a.start ≤ m.start ∧ m.stop ≤ a.stop)) := by
  refine ⟨redacts_of_noOverhang rawText tenantAdditions, fun hoverhang => ?_⟩
  by_contra hnone
  apply hoverhang
  refine noOverhang_of_within pairwise_collectMatches
    (fun m hm => (bounds_of_mem_collectMatches hm).1) fun m hm => ?_
  by_contra hout
  apply hnone
  refine ⟨m, hm, fun a ha hcontains => hout ⟨a, ?_, hcontains⟩⟩
  rw [applied_eq] at ha
  exact ha

section Sample

theorem customer_line_redacts :
    Redacts (unitsOf "MOVE CUST-NM TO A.B@C.CO.") [] := by
  refine (redactRegion_redacts _ _).1 ?_
  refine noOverhang_of_within pairwise_collectMatches
    (fun m hm => (bounds_of_mem_collectMatches hm).1) ?_
  unfold Within
  decide +kernel

theorem email_behind_field_name_survives :
    ¬ ∀ (rawText : CodeUnits) (tenantAdditions : List StudioRedactionPatternAddition),
      Redacts rawText tenantAdditions := by
  intro hall
  have hcopied := (hall (unitsOf "DOB@BANK.COM") []).copied
  revert hcopied
  decide +kernel

end Sample

end Regions

end C2c.Studio.RedactedRegions
