import Mathlib.Data.List.SplitBy
import C2c.Studio.ConflictDetection

/-!
When the regions of a merge can be decided one by one.
-/

namespace C2c.Studio.MergeRegions

open C2c.Library.EditGraph
open C2c.Library.JavaText hiding splitLines
open C2c.Studio.MyersDiff
open C2c.Studio.ConflictDetection

def statusAt (align : ConflictDetection.Alignment) (i : Nat) : LineStatus :=
  align.statusByBase[i]?.getD .equal

/-- An insertion leaves the baseline line behind it as it is. -/
def LeavesNext (align : ConflictDetection.Alignment) : Prop :=
  ∀ a, align.insertsByAnchor a ≠ [] → statusAt align (a + 1).toNat = .equal

/-- What the alignment holds behind the first `x` lines of the baseline, when
`last` was the last operation. -/
structure AlignedTo (base : List Text) (x : Nat) (last : Option Op) (s : AlignmentState) :
    Prop where
  length : s.statusByBase.length = base.length
  lastBaseIdx : s.lastBaseIdx = x - 1
  ahead : ∀ i, x ≤ i → statusAt s.toAlignment i = .equal
  pending : ∀ p, s.pendingDeleteIdx = some p → p = x - 1 ∧ 0 < x ∧
    statusAt s.toAlignment (x - 1) = .deleted
  inserted : ∀ a, s.insertsByAnchor a ≠ [] → -1 ≤ a ∧ a < x ∧
    (a + 1 < x → statusAt s.toAlignment (a + 1).toNat = .equal)
  latest : s.insertsByAnchor (x - 1) ≠ [] → ∃ op ∈ last, op.isInsert = true

section Aligned

variable {base child childLines : List Text} {s : AlignmentState} {x : Nat} {last : Option Op}

theorem alignedTo_start (base : List Text) : AlignedTo base 0 none (startAlignment base) where
  length := List.length_map _
  lastBaseIdx := rfl
  ahead := by
    intro i _
    simp only [startAlignment, statusAt, List.getElem?_map]
    cases base[i]? <;> rfl
  pending := nofun
  inserted := fun a h => absurd rfl h
  latest := fun h => absurd rfl h

theorem statusAt_set {statuses : List LineStatus} {status : LineStatus} {i j : Nat}
    (hi : i < statuses.length) :
    (statuses.set i status)[j]?.getD .equal =
      if i = j then status else statuses[j]?.getD .equal := by
  rw [List.getElem?_set]
  split <;> rfl

theorem AlignedTo.keep (h : AlignedTo base x last s) (childLines : List Text) (y : Nat) :
    AlignedTo base (x + 1) (some (.equal x y))
      (alignOp childLines s (DiffOp.ofOp (.equal x y))) where
  length := h.length
  lastBaseIdx := by
    show (x : Int) = _
    omega
  ahead := fun i hi => h.ahead i (by omega)
  pending := nofun
  inserted := by
    intro a ha
    obtain ⟨hlow, hhigh, hnext⟩ := h.inserted a ha
    refine ⟨hlow, by omega, fun hlt => ?_⟩
    rcases Int.lt_or_eq_of_le (show a + 1 ≤ x by omega) with hlt | heq
    · exact hnext hlt
    · exact h.ahead _ (by omega)
  latest := by
    intro ha
    have hhigh := (h.inserted _ ha).2.1
    omega

theorem AlignedTo.delete (h : AlignedTo base x last s) (childLines : List Text)
    (hx : x < base.length)
    (hlast : ∀ op ∈ last, ¬ op.isInsert = true) :
    AlignedTo base (x + 1) (some (.delete x))
      (alignOp childLines s (DiffOp.ofOp (.delete x))) := by
  have hstatus (i : Nat) : statusAt
      (alignOp childLines s (DiffOp.ofOp (.delete x))).toAlignment i =
        if x = i then .deleted else statusAt s.toAlignment i :=
    statusAt_set (by rw [h.length]; exact hx)
  refine ⟨?_, ?_, ?_, ?_, ?_, ?_⟩
  · exact List.length_set.trans h.length
  · show (x : Int) = _
    omega
  · intro i hi
    rw [hstatus, if_neg (by omega)]
    exact h.ahead i (by omega)
  · intro p hp
    obtain rfl : (x : Int) = p := Option.some.inj hp
    refine ⟨by omega, by omega, ?_⟩
    rw [hstatus, if_pos (by omega)]
  · intro a ha
    obtain ⟨hlow, hhigh, hnext⟩ := h.inserted a ha
    refine ⟨hlow, by omega, fun hlt => ?_⟩
    rcases Int.lt_or_eq_of_le (show a + 1 ≤ x by omega) with hlt | heq
    · rw [hstatus, if_neg (by omega)]
      exact hnext hlt
    · obtain ⟨op, hop, hinsert⟩ := h.latest (by rwa [show (x : Int) - 1 = a by omega])
      exact absurd hinsert (hlast op hop)
  · intro ha
    have hhigh := (h.inserted _ ha).2.1
    omega

theorem AlignedTo.insert (h : AlignedTo base x last s) (hx : x ≤ base.length) (y : Int) :
    AlignedTo base x (some (.insert y)) (alignOp childLines s (DiffOp.ofOp (.insert y))) := by
  cases hpending : s.pendingDeleteIdx with
  | none =>
      have hnext : alignOp childLines s (DiffOp.ofOp (.insert y)) =
          { s with
            insertsByAnchor := fun anchor =>
              if anchor = s.lastBaseIdx then
                s.insertsByAnchor anchor ++ [(itemAt childLines y).getD []]
              else s.insertsByAnchor anchor } := by
        simp [alignOp, DiffOp.ofOp, hpending]
      rw [hnext]
      refine ⟨h.length, h.lastBaseIdx, h.ahead, h.pending, ?_, fun _ => ⟨_, rfl, rfl⟩⟩
      intro a ha
      dsimp only at ha
      split at ha
      · rename_i heq
        rw [h.lastBaseIdx] at heq
        exact ⟨by omega, by omega, fun hlt => absurd hlt (by omega)⟩
      · exact h.inserted a ha
  | some p =>
      obtain ⟨hp, hpos, hdeleted⟩ := h.pending p hpending
      have hnext : alignOp childLines s (DiffOp.ofOp (.insert y)) =
          { s with
            statusByBase := s.statusByBase.set p.toNat .changed
            childLineByBase := s.childLineByBase.set p.toNat ((itemAt childLines y).getD [])
            pendingDeleteIdx := none } := by
        simp [alignOp, DiffOp.ofOp, hpending]
      have hstatus (i : Nat) : (s.statusByBase.set p.toNat .changed)[i]?.getD .equal =
          if p.toNat = i then .changed else statusAt s.toAlignment i :=
        statusAt_set (by rw [h.length]; omega)
      rw [hnext]
      refine ⟨List.length_set.trans h.length, h.lastBaseIdx, ?_, nofun, ?_,
        fun _ => ⟨_, rfl, rfl⟩⟩
      · intro i hi
        exact (hstatus i).trans ((if_neg (by omega)).trans (h.ahead i hi))
      · intro a ha
        obtain ⟨hlow, hhigh, hequal⟩ := h.inserted a ha
        refine ⟨hlow, hhigh, fun hlt => (hstatus _).trans ?_⟩
        rw [if_neg]
        · exact hequal hlt
        · intro heq
          have hstill := hequal hlt
          rw [show (a + 1).toNat = x - 1 by omega, hdeleted] at hstill
          cases hstill

/-- The alignment behind a path whose deletions come first. -/
theorem alignedTo_path {d y : Nat} {ops : List Op} (hpath : Path base child d x y ops)
    (hfirst : DeletesFirst ops) (hx : x ≤ base.length) :
    AlignedTo base x ops.getLast?
      ((ops.map DiffOp.ofOp).foldl (alignOp childLines) (startAlignment base)) := by
  induction hpath with
  | start => exact alignedTo_start base
  | @keep d x y ops hpath hmeets ih =>
      have hbefore := ih hfirst.left_of_append (by omega)
      rw [List.map_append, List.foldl_append, List.getLast?_concat]
      exact hbefore.keep childLines y
  | @delete d x y ops hpath ih =>
      have hbefore := ih hfirst.left_of_append (by omega)
      rw [List.map_append, List.foldl_append, List.getLast?_concat]
      refine hbefore.delete childLines hx ?_
      intro op hop hinsert
      exact (List.isChain_append.mp hfirst).2.2 op hop _ rfl ⟨hinsert, rfl⟩
  | @insert d x y ops hpath ih =>
      have hbefore := ih hfirst.left_of_append hx
      rw [List.map_append, List.foldl_append, List.getLast?_concat]
      exact hbefore.insert hx y

theorem leavesNext_of_aligned (h : AlignedTo base base.length last s) :
    LeavesNext s.toAlignment := by
  intro a ha
  obtain ⟨hlow, hhigh, hnext⟩ := h.inserted a ha
  rcases Int.lt_or_eq_of_le (show a + 1 ≤ base.length by omega) with hlt | heq
  · exact hnext hlt
  · exact h.ahead _ (by omega)

/-- Without a line in the baseline all lines are inserted at the head. -/
theorem length_head_inserts {d y : Nat} {ops : List Op} (hpath : Path [] child d x y ops)
    (hfirst : DeletesFirst ops) (hx : x = 0) :
    (((ops.map DiffOp.ofOp).foldl (alignOp childLines)
      (startAlignment [])).insertsByAnchor (-1)).length = y := by
  induction hpath with
  | start => rfl
  | keep hpath hmeets ih => cases hx
  | delete hpath ih => cases hx
  | @insert d x y ops hpath ih =>
      subst hx
      have hfirst := hfirst.left_of_append
      have haligned : AlignedTo [] 0 ops.getLast?
          ((ops.map DiffOp.ofOp).foldl (alignOp childLines) (startAlignment [])) :=
        alignedTo_path hpath hfirst (Nat.le_refl _)
      rw [List.map_append, List.foldl_append]
      cases hpending : ((ops.map DiffOp.ofOp).foldl (alignOp childLines)
          (startAlignment [])).pendingDeleteIdx with
      | some p => exact absurd (haligned.pending p hpending).2.1 (Nat.lt_irrefl 0)
      | none =>
          have hlast : _ = (-1 : Int) := haligned.lastBaseIdx
          simp [alignOp, DiffOp.ofOp, hpending, hlast, ih hfirst rfl]

theorem exists_alignment (base child : List Text) :
    ∃ ops, ConflictDetection.myersDiff base child = some ops ∧
      LeavesNext (buildAlignment base ops child) ∧
      (base = [] →
        ((buildAlignment base ops child).insertsByAnchor (-1)).length = child.length) := by
  obtain ⟨d, ops, hscript, hpath, -, hfirst⟩ := myersScript_spec base child
  refine ⟨ops.map DiffOp.ofOp, by rw [ConflictDetection.myersDiff, hscript]; rfl,
    leavesNext_of_aligned (alignedTo_path hpath hfirst (Nat.le_refl _)), ?_⟩
  rintro rfl
  exact length_head_inserts hpath hfirst rfl

end Aligned

section Regions

variable {manualAlign genAlign : ConflictDetection.Alignment} {baseLines : List Text} {i : Nat}

/-- What a region of a kind needs of the two sides. -/
def Diverges (manual gen : Prop) : LineKind → Prop
  | .manualOnly => manual
  | .newGeneratorOnly => gen
  | .agreed | .conflict => manual ∧ gen
  | .equal | .baselineOnly => False

/-- A region of changed lines of the baseline. -/
structure IsLineRegion (manualAlign genAlign : ConflictDetection.Alignment)
    (region : ConflictRegion) : Prop where
  start_pos : 1 ≤ region.startLine
  start_le : region.startLine ≤ region.endLine
  content : region.baselineContent ≠ []
  diverges : Diverges (statusAt manualAlign (region.startLine - 1) ≠ .equal)
    (statusAt genAlign (region.startLine - 1) ≠ .equal) region.conflictKind

/-- A region of lines that are inserted behind an anchor. -/
structure IsInsertRegion (manualAlign genAlign : ConflictDetection.Alignment) (anchor : Int)
    (region : ConflictRegion) : Prop where
  start_eq : (region.startLine : Int) = anchor + 2
  start_le : region.startLine ≤ region.endLine
  content : region.baselineContent = []
  diverges : Diverges (manualAlign.insertsByAnchor anchor ≠ [])
    (genAlign.insertsByAnchor anchor ≠ []) region.conflictKind

theorem classifyLine_diverges {mStatus gStatus : LineStatus} {mLine gLine : Text}
    (h : classifyLine mStatus mLine gStatus gLine ≠ .equal) :
    Diverges (mStatus ≠ .equal) (gStatus ≠ .equal)
      (classifyLine mStatus mLine gStatus gLine) := by
  unfold classifyLine at h ⊢
  by_cases hm : mStatus = .equal
  · by_cases hg : gStatus = .equal
    · simp [hm, hg] at h
    · simp [hm, hg, Diverges]
  · by_cases hg : gStatus = .equal
    · simp [hm, hg, Diverges]
    · rw [if_neg fun both => hm both.1, if_neg fun one => hm one.1, if_neg fun one => hg one.2]
      by_cases hsame : (if mStatus = .deleted then [] else mLine) =
          if gStatus = .deleted then [] else gLine
      · rw [if_pos hsame]
        exact ⟨hm, hg⟩
      · rw [if_neg hsame]
        exact ⟨hm, hg⟩

theorem joinWithNewline_eq_nil {lines : List Text} : joinWithNewline lines = [] ↔ lines = [] := by
  cases lines <;> simp [joinWithNewline]

/-- The region that a run stands for, when it is flushed before the index `i`. -/
structure IsRun (manualAlign genAlign : ConflictDetection.Alignment) (i : Nat)
    (r : RunAccum) : Prop where
  start_pos : 1 ≤ r.startLine
  start_le : r.startLine ≤ r.endLine
  end_le : r.endLine ≤ i
  baseLines : r.baseLines ≠ []
  diverges : r.kind ≠ .equal → Diverges (statusAt manualAlign (r.startLine - 1) ≠ .equal)
    (statusAt genAlign (r.startLine - 1) ≠ .equal) r.kind

theorem isRun_startRun (manualAlign genAlign : ConflictDetection.Alignment) (i : Nat)
    (bLine : Text) :
    IsRun manualAlign genAlign (i + 1) (startRun manualAlign genAlign i bLine) :=
  ⟨Nat.succ_pos i, Nat.le_refl _, Nat.le_refl _, List.cons_ne_nil _ _, classifyLine_diverges⟩

theorem mem_flushRun {r : RunAccum} {region : ConflictRegion} (h : IsRun manualAlign genAlign i r)
    (hregion : region ∈ flushRun r) :
    IsLineRegion manualAlign genAlign region ∧ region.startLine = r.startLine ∧
      region.endLine ≤ i := by
  unfold flushRun at hregion
  split at hregion
  · cases hregion
  · rename_i hkind
    obtain rfl := List.mem_singleton.mp hregion
    exact ⟨⟨h.start_pos, h.start_le, fun hnil => h.baseLines (joinWithNewline_eq_nil.mp hnil),
      h.diverges hkind⟩, rfl, h.end_le⟩

theorem pairwise_flushRun (r : RunAccum) (R : ConflictRegion → ConflictRegion → Prop) :
    (flushRun r).Pairwise R := by
  unfold flushRun
  split
  · exact List.Pairwise.nil
  · exact List.pairwise_singleton R _

/-- The regions behind a run are regions of changed lines, one behind the other. -/
theorem lineRegions_spec (manualAlign genAlign : ConflictDetection.Alignment)
    (run : Option RunAccum) (hrun : ∀ r ∈ run, IsRun manualAlign genAlign i r) (rest : List Text) :
    (∀ region ∈ lineRegions manualAlign genAlign i run rest,
      IsLineRegion manualAlign genAlign region ∧
        run.elim (i + 1) RunAccum.startLine ≤ region.startLine) ∧
    (lineRegions manualAlign genAlign i run rest).Pairwise fun region next =>
      region.endLine < next.startLine := by
  induction rest generalizing i run with
  | nil =>
      cases run with
      | none => exact ⟨nofun, List.Pairwise.nil⟩
      | some r =>
          refine ⟨?_, pairwise_flushRun r _⟩
          intro region hregion
          obtain ⟨hline, hstart, -⟩ := mem_flushRun (hrun r rfl) hregion
          exact ⟨hline, hstart.ge⟩
  | cons bLine rest ih =>
      cases run with
      | none =>
          rw [lineRegions]
          exact ih (some _) (by rintro r ⟨⟩; exact isRun_startRun _ _ i bLine)
      | some r =>
          have hr := hrun r rfl
          have hlow := hr.start_le
          have hhigh := hr.end_le
          rw [lineRegions]
          split
          · refine ih (some _) ?_
            rintro r' ⟨⟩
            exact ⟨hr.start_pos, Nat.le_trans hlow (Nat.le_succ_of_le hhigh), Nat.le_refl _,
              by simp [extendRun, startRun], hr.diverges⟩
          · obtain ⟨hmem, hpairwise⟩ := ih (some (startRun manualAlign genAlign i bLine))
              (by rintro r' ⟨⟩; exact isRun_startRun _ _ i bLine)
            refine ⟨?_, List.pairwise_append.mpr ⟨pairwise_flushRun r _, hpairwise, ?_⟩⟩
            · intro region hregion
              rcases List.mem_append.mp hregion with hregion | hregion
              · obtain ⟨hline, hstart, -⟩ := mem_flushRun hr hregion
                exact ⟨hline, hstart.ge⟩
              · obtain ⟨hline, hstart⟩ := hmem region hregion
                refine ⟨hline, ?_⟩
                simp only [Option.elim_some, startRun] at hstart ⊢
                omega
            · intro region hregion next hnext
              have hend := (mem_flushRun hr hregion).2.2
              have hstart := (hmem next hnext).2
              simp only [Option.elim_some, startRun] at hstart
              omega

theorem mem_emitInsertRegion {mIns gIns : List Text} {startLine : Nat} {region : ConflictRegion}
    (h : region ∈ emitInsertRegion mIns gIns startLine) :
    region.startLine = startLine ∧ region.startLine ≤ region.endLine ∧
      region.baselineContent = [] ∧ Diverges (mIns ≠ []) (gIns ≠ []) region.conflictKind := by
  unfold emitInsertRegion at h
  have hm := @List.length_eq_zero_iff _ mIns
  have hg := @List.length_eq_zero_iff _ gIns
  split at h
  · cases h
  split at h
  · rename_i hsame
    split at h
    · cases h
    · rename_i hne
      obtain rfl := List.mem_singleton.mp h
      have hgne : gIns ≠ [] := by
        rw [ne_eq, ← joinWithNewline_eq_nil, ← hsame, joinWithNewline_eq_nil, ← hm]
        exact hne
      exact ⟨rfl, by dsimp only [insertRegion]; omega, rfl, fun hnil => hne (hm.mpr hnil), hgne⟩
  split at h
  · rename_i hone
    obtain rfl := List.mem_singleton.mp h
    exact ⟨rfl, by dsimp only [insertRegion]; omega, rfl,
      fun hnil => absurd (hm.mpr hnil) (by omega)⟩
  split at h
  · rename_i hone
    obtain rfl := List.mem_singleton.mp h
    exact ⟨rfl, by dsimp only [insertRegion]; omega, rfl,
      fun hnil => absurd (hg.mpr hnil) (by omega)⟩
  · obtain rfl := List.mem_singleton.mp h
    exact ⟨rfl, by dsimp only [insertRegion]; omega, rfl,
      fun hnil => absurd (hm.mpr hnil) (by omega), fun hnil => absurd (hg.mpr hnil) (by omega)⟩

theorem pairwise_emitInsertRegion (mIns gIns : List Text) (startLine : Nat)
    (R : ConflictRegion → ConflictRegion → Prop) :
    (emitInsertRegion mIns gIns startLine).Pairwise R := by
  unfold emitInsertRegion
  split
  · exact List.Pairwise.nil
  split
  · split
    · exact List.Pairwise.nil
    · exact List.pairwise_singleton R _
  split
  · exact List.pairwise_singleton R _
  split
  · exact List.pairwise_singleton R _
  · exact List.pairwise_singleton R _

/-- The anchors of the insertions, with the lines where their regions start. -/
def anchors (baseLines : List Text) : List (Int × Nat) :=
  (-1, 1) :: (baseLines.length - 1, baseLines.length + 1) ::
    (List.range (baseLines.length - 1)).map fun (anchor : Nat) => ((anchor : Int), anchor + 2)

theorem collectRegions_eq (baseLines : List Text)
    (manualAlign genAlign : ConflictDetection.Alignment) :
    collectRegions baseLines manualAlign genAlign =
      lineRegions manualAlign genAlign 0 none baseLines ++
        (anchors baseLines).flatMap fun anchor =>
          emitInsertRegion (manualAlign.insertsByAnchor anchor.1)
            (genAlign.insertsByAnchor anchor.1) anchor.2 := by
  simp [collectRegions, anchors, List.flatMap_map]

theorem start_of_mem_anchors {anchor : Int × Nat} (h : anchor ∈ anchors baseLines) :
    (anchor.2 : Int) = anchor.1 + 2 := by
  simp only [anchors, List.mem_cons, List.mem_map] at h
  rcases h with rfl | rfl | ⟨a, -, rfl⟩
  · rfl
  · dsimp only
    omega
  · rfl

/-- With a line in the baseline every anchor is visited once. -/
theorem pairwise_anchors (hne : baseLines ≠ []) :
    (anchors baseLines).Pairwise fun anchor next => anchor.2 ≠ next.2 := by
  have hlength := List.length_pos_iff.mpr hne
  simp only [anchors, List.pairwise_cons, List.mem_cons, List.mem_map, List.mem_range,
    List.pairwise_map]
  refine ⟨?_, ?_, List.nodup_range.imp fun hne => by omega⟩
  · rintro anchor (rfl | ⟨a, -, rfl⟩)
    · dsimp only
      omega
    · dsimp only
      omega
  · rintro anchor ⟨a, ha, rfl⟩
    dsimp only
    omega

/-- A region of changed lines or of an insertion. -/
def IsRegion (manualAlign genAlign : ConflictDetection.Alignment)
    (region : ConflictRegion) : Prop :=
  IsLineRegion manualAlign genAlign region ∨ ∃ a, IsInsertRegion manualAlign genAlign a region

theorem isRegion_collectRegions {region : ConflictRegion}
    (h : region ∈ collectRegions baseLines manualAlign genAlign) :
    IsRegion manualAlign genAlign region := by
  rw [collectRegions_eq, List.mem_append, List.mem_flatMap] at h
  rcases h with h | ⟨anchor, hanchor, h⟩
  · exact Or.inl ((lineRegions_spec _ _ none nofun baseLines).1 region h).1
  · obtain ⟨hstart, hle, hcontent, hdiverges⟩ := mem_emitInsertRegion h
    exact Or.inr ⟨anchor.1, hstart ▸ start_of_mem_anchors hanchor, hle, hcontent, hdiverges⟩

theorem Diverges.not_both {p p' q q' : Prop} {kind : LineKind} (h : Diverges p q kind)
    (h' : Diverges p' q' kind) (hp : p' → ¬ p) (hq : q' → ¬ q) : False := by
  cases kind with
  | equal => exact h
  | baselineOnly => exact h
  | manualOnly => exact hp h' h
  | newGeneratorOnly => exact hq h' h
  | agreed => exact hp h'.1 h.1
  | conflict => exact hp h'.1 h.1

/-- A line region and an insertion of one kind never start at one line. -/
theorem IsLineRegion.starts_apart {region insertion : ConflictRegion} {a : Int}
    (h : IsLineRegion manualAlign genAlign region)
    (h' : IsInsertRegion manualAlign genAlign a insertion) (hm : LeavesNext manualAlign)
    (hg : LeavesNext genAlign) :
    ¬ (region.conflictKind = insertion.conflictKind ∧ region.startLine = insertion.startLine) := by
  rintro ⟨hkind, hstart⟩
  have hdiverges := h'.diverges
  have hpos := h.start_pos
  have hanchor := h'.start_eq
  rw [← hkind] at hdiverges
  have hat : region.startLine - 1 = (a + 1).toNat := by omega
  refine Diverges.not_both h.diverges hdiverges ?_ ?_
  · rw [hat]
    exact fun hne hstatus => hstatus (hm a hne)
  · rw [hat]
    exact fun hne hstatus => hstatus (hg a hne)

/-- The kind and the start line tell a region from the others. -/
theorem pairwise_keys (hne : baseLines ≠ []) (hm : LeavesNext manualAlign)
    (hg : LeavesNext genAlign) :
    (collectRegions baseLines manualAlign genAlign).Pairwise fun region next =>
      ¬ (region.conflictKind = next.conflictKind ∧ region.startLine = next.startLine) := by
  obtain ⟨hlines, hordered⟩ := lineRegions_spec manualAlign genAlign none nofun baseLines
  rw [collectRegions_eq, List.pairwise_append, List.pairwise_flatMap]
  refine ⟨?_, ⟨fun anchor _ => pairwise_emitInsertRegion _ _ _ _, ?_⟩, ?_⟩
  · apply hordered.imp_of_mem
    rintro region next hregion - hlt ⟨-, hstart⟩
    have hle := (hlines region hregion).1.start_le
    omega
  · apply (pairwise_anchors hne).imp
    rintro anchor anchor' hne region hregion next hnext ⟨-, hstart⟩
    rw [(mem_emitInsertRegion hregion).1, (mem_emitInsertRegion hnext).1] at hstart
    exact hne hstart
  · intro region hregion insertion hinsertion
    obtain ⟨anchor, hanchor, hinsertion⟩ := List.mem_flatMap.mp hinsertion
    obtain ⟨hstart, hle, hcontent, hdiverges⟩ := mem_emitInsertRegion hinsertion
    exact (hlines region hregion).1.starts_apart
      ⟨hstart ▸ start_of_mem_anchors hanchor, hle, hcontent, hdiverges⟩ hm hg

/-- What the sorted regions keep to before any are joined. -/
structure Arranged (regions : List ConflictRegion) : Prop where
  start_le : ∀ region ∈ regions, region.startLine ≤ region.endLine
  sorted : regions.Pairwise fun region next => region.startLine ≤ next.startLine
  apart : regions.Pairwise fun region next => region.baselineContent ≠ [] →
    next.baselineContent ≠ [] → region.endLine < next.startLine

theorem arranged_sortRegions :
    Arranged (sortRegions (collectRegions baseLines manualAlign genAlign)) := by
  have hperm : (sortRegions (collectRegions baseLines manualAlign genAlign)).Perm
      (collectRegions baseLines manualAlign genAlign) := List.perm_insertionSort _ _
  have hsorted : (sortRegions (collectRegions baseLines manualAlign genAlign)).Pairwise
      fun region next => region.startLine ≤ next.startLine := by
    have : Std.Total fun a b : ConflictRegion => a.startLine ≤ b.startLine :=
      ⟨fun a b => Nat.le_total _ _⟩
    have : IsTrans ConflictRegion fun a b => a.startLine ≤ b.startLine :=
      ⟨fun _ _ _ => Nat.le_trans⟩
    exact List.pairwise_insertionSort _ _
  have hle : ∀ region ∈ sortRegions (collectRegions baseLines manualAlign genAlign),
      region.startLine ≤ region.endLine := by
    intro region hregion
    rcases isRegion_collectRegions (hperm.mem_iff.mp hregion) with h | ⟨a, h⟩
    · exact h.start_le
    · exact h.start_le
  refine ⟨hle, hsorted, ?_⟩
  obtain ⟨hlines, hordered⟩ := lineRegions_spec manualAlign genAlign none nofun baseLines
  -- two regions of changed lines are apart, whichever comes first
  have hdisjoint : (collectRegions baseLines manualAlign genAlign).Pairwise fun region next =>
      region.baselineContent ≠ [] → next.baselineContent ≠ [] →
        region.endLine < next.startLine ∨ next.endLine < region.startLine := by
    rw [collectRegions_eq, List.pairwise_append, List.pairwise_flatMap]
    refine ⟨hordered.imp fun hlt _ _ => Or.inl hlt,
      ⟨fun anchor _ => pairwise_emitInsertRegion _ _ _ _, List.pairwise_of_forall ?_⟩, ?_⟩
    · exact fun anchor anchor' region hregion _ _ hne _ =>
        absurd (mem_emitInsertRegion hregion).2.2.1 hne
    · intro region _ insertion hinsertion _ hne
      obtain ⟨anchor, -, hinsertion⟩ := List.mem_flatMap.mp hinsertion
      exact absurd (mem_emitInsertRegion hinsertion).2.2.1 hne
  have hboth := hsorted.and
    (hperm.symm.pairwise hdisjoint fun h hne hne' => (h hne' hne).symm)
  apply hboth.imp_of_mem
  rintro region next hregion hnext ⟨hstart, hdisjoint⟩ hne hne'
  have hnextle := hle next hnext
  rcases hdisjoint hne hne' with hlt | hlt
  · exact hlt
  · omega

end Regions

section Groups

variable {first : ConflictRegion} {done rest block : List ConflictRegion}

/-- The region that coalescing makes of a group of regions. -/
def foldedRegion : List ConflictRegion → Option ConflictRegion
  | [] => none
  | region :: rest => some (rest.foldl mergeRegions region)

theorem fold_spec (first : ConflictRegion) (done : List ConflictRegion) :
    (done.foldl mergeRegions first).startLine = first.startLine ∧
      (done.foldl mergeRegions first).endLine =
        ((first :: done).getLast (List.cons_ne_nil _ _)).endLine ∧
      (done.foldl mergeRegions first).conflictKind = first.conflictKind ∧
      (done.foldl mergeRegions first).suggestedResolution = first.suggestedResolution ∧
      (done.foldl mergeRegions first).baselineContent =
        (first :: done).flatMap ConflictRegion.baselineContent := by
  induction done using List.reverseRecOn with
  | nil => simp
  | append_singleton done region ih =>
      obtain ⟨hstart, -, hkind, hsuggested, hcontent⟩ := ih
      rw [List.foldl_append]
      refine ⟨hstart, ?_, hkind, hsuggested, ?_⟩
      · simp [mergeRegions]
      · rw [← List.cons_append, List.flatMap_append, ← hcontent]
        simp [mergeRegions]

theorem mergeable_iff {pending region : ConflictRegion} :
    mergeable pending region = true ↔ pending.endLine + 1 = region.startLine ∧
      pending.conflictKind = region.conflictKind ∧ pending.conflictKind ≠ .conflict ∧
      pending.suggestedResolution = region.suggestedResolution := by
  simp [mergeable]

/-- A group is of one kind. -/
theorem last_of_chain (h : (first :: done).IsChain fun a b => mergeable a b = true) :
    ((first :: done).getLast (List.cons_ne_nil _ _)).conflictKind = first.conflictKind ∧
      ((first :: done).getLast (List.cons_ne_nil _ _)).suggestedResolution =
        first.suggestedResolution := by
  induction done generalizing first with
  | nil => exact ⟨rfl, rfl⟩
  | cons region done ih =>
      obtain ⟨hfirst, hrest⟩ := List.isChain_cons_cons.mp h
      obtain ⟨-, hkind, -, hsuggested⟩ := mergeable_iff.mp hfirst
      rw [List.getLast_cons_cons, hkind, hsuggested]
      exact ih hrest

theorem mergeable_fold (h : (first :: done).IsChain fun a b => mergeable a b = true)
    (region : ConflictRegion) :
    mergeable (done.foldl mergeRegions first) region =
      mergeable ((first :: done).getLast (List.cons_ne_nil _ _)) region := by
  obtain ⟨-, hend, hkind, hsuggested, -⟩ := fold_spec first done
  obtain ⟨hlastKind, hlastSuggested⟩ := last_of_chain h
  unfold mergeable
  rw [hend, hkind, hsuggested, hlastKind, hlastSuggested]

theorem coalesceFrom_eq (h : (first :: done).IsChain fun a b => mergeable a b = true) :
    coalesceFrom (done.foldl mergeRegions first) rest =
      ((first :: done ++ rest).splitBy mergeable).filterMap foldedRegion := by
  induction rest generalizing first done with
  | nil =>
      rw [List.append_nil, List.splitBy_of_isChain (List.cons_ne_nil _ _) h]
      rfl
  | cons region rest ih =>
      rw [coalesceFrom, mergeable_fold h]
      split
      · rename_i hmerge
        have hchain : (first :: (done ++ [region])).IsChain fun a b => mergeable a b = true := by
          rw [← List.cons_append]
          apply List.IsChain.append h (List.isChain_singleton _)
          intro last hlast next hnext
          obtain rfl : region = next := by simpa using hnext
          rw [List.getLast?_eq_some_getLast (List.cons_ne_nil _ _)] at hlast
          obtain rfl := Option.some.inj hlast
          exact hmerge
        have hstep := ih hchain
        rw [List.foldl_append] at hstep
        rw [List.foldl_cons, List.foldl_nil] at hstep
        rw [hstep]
        simp
      · rename_i hsplit
        rw [List.splitBy_append_cons, List.splitBy_of_isChain (List.cons_ne_nil _ _) h,
          List.filterMap_append, ← List.nil_append rest, ← List.cons_append,
          ← ih (List.isChain_singleton region)]
        · rfl
        · intro last hlast
          rw [List.getLast?_eq_some_getLast (List.cons_ne_nil _ _)] at hlast
          obtain rfl := Option.some.inj hlast
          exact Bool.eq_false_iff.mpr hsplit

/-- Coalescing joins each group of regions that can be joined one after the other. -/
theorem coalesceAdjacentRegions_eq (regions : List ConflictRegion) :
    coalesceAdjacentRegions regions = (regions.splitBy mergeable).filterMap foldedRegion := by
  cases regions with
  | nil => rfl
  | cons first rest => exact @coalesceFrom_eq first [] rest (List.isChain_singleton first)

/-- Along a group the lines go on. -/
theorem start_le_of_chain (hle : ∀ region ∈ first :: done, region.startLine ≤ region.endLine)
    (h : (first :: done).IsChain fun a b => mergeable a b = true) :
    ∀ region ∈ first :: done, first.startLine ≤ region.startLine ∧
      region.endLine ≤ ((first :: done).getLast (List.cons_ne_nil _ _)).endLine := by
  induction done generalizing first with
  | nil =>
      intro region hregion
      obtain rfl := List.mem_singleton.mp hregion
      exact ⟨Nat.le_refl _, Nat.le_refl _⟩
  | cons next done ih =>
      obtain ⟨hfirst, hrest⟩ := List.isChain_cons_cons.mp h
      obtain ⟨hnext, -⟩ := mergeable_iff.mp hfirst
      have hlefirst := hle first List.mem_cons_self
      have hlenext := hle next (List.mem_cons_of_mem _ List.mem_cons_self)
      have hbelow := ih (fun region hregion => hle region (List.mem_cons_of_mem _ hregion)) hrest
      intro region hregion
      rw [List.getLast_cons_cons]
      rcases List.mem_cons.mp hregion with rfl | hregion
      · have hlast := (hbelow next List.mem_cons_self).2
        omega
      · have hregion := hbelow region hregion
        omega

def HoldsLines (block : List ConflictRegion) : Prop :=
  ∃ region ∈ block, region.baselineContent ≠ []

/-- What is known of a group of arranged regions and of what it is joined to. -/
structure IsGroup (block : List ConflictRegion) (region : ConflictRegion) : Prop where
  holds_iff : region.baselineContent ≠ [] ↔ HoldsLines block
  first_mem : ∃ first ∈ block, first.startLine = region.startLine ∧
    first.conflictKind = region.conflictKind
  last_mem : ∃ last ∈ block, last.endLine = region.endLine
  within : ∀ part ∈ block, region.startLine ≤ part.startLine ∧ part.endLine ≤ region.endLine

theorem isGroup_of_mem {regions : List ConflictRegion}
    (hle : ∀ region ∈ regions, region.startLine ≤ region.endLine)
    (hblock : block ∈ regions.splitBy mergeable) {region : ConflictRegion}
    (hregion : foldedRegion block = some region) : IsGroup block region := by
  cases block with
  | nil => cases hregion
  | cons first done =>
      have hregion := Option.some.inj hregion
      have hchain := List.isChain_of_mem_splitBy hblock
      have hmem : ∀ part ∈ first :: done, part ∈ regions := by
        intro part hpart
        rw [← List.flatten_splitBy mergeable regions]
        exact List.mem_flatten_of_mem hblock hpart
      obtain ⟨hstart, hend, hkind, -, hcontent⟩ := fold_spec first done
      rw [hregion] at hstart hend hkind hcontent
      refine ⟨?_, ⟨first, List.mem_cons_self, hstart.symm, hkind.symm⟩,
        ⟨_, List.getLast_mem (List.cons_ne_nil _ _), hend.symm⟩, ?_⟩
      · rw [hcontent, ne_eq, List.flatMap_eq_nil_iff]
        push Not
        exact Iff.rfl
      · rw [hstart, hend]
        exact start_le_of_chain (fun part hpart => hle part (hmem part hpart)) hchain

end Groups

section Property

variable {regions : List ConflictRegion} {baseline : Text}

/-- The regions are told apart by their ids, claim lines apart from each other,
and the pick for one decides nothing but its own text. -/
structure DecidedApart (baseline : Text) (regions : List ConflictRegion) : Prop where
  ids : (regions.map defaultRegionId).Nodup
  claims : (regions.filter fun region => decide (region.baselineContent ≠ [])).Pairwise
    fun region next => region.endLine < next.startLine
  picks : ∀ selections selections' : Text → Option ConflictRegionResolution,
    ∀ region ∈ regions,
      (∀ id, id ≠ defaultRegionId region → selections id = selections' id) →
      ∀ text text', applyMergeSelections baseline regions selections defaultRegionId = .ok text →
        applyMergeSelections baseline regions selections' defaultRegionId = .ok text' →
        ∃ before after chosen chosen',
          chosenContentFor selections defaultRegionId region = .ok chosen ∧
          chosenContentFor selections' defaultRegionId region = .ok chosen' ∧
          text = mergedText baseline (before ++ splitLines chosen ++ after) ∧
          text' = mergedText baseline (before ++ splitLines chosen' ++ after)

/-- Of two groups of regions that are joined and that hold lines of the baseline,
no insertion reaches by its line numbers into the other group. -/
def InsertsApart (sorted : List ConflictRegion) : Prop :=
  (sorted.splitBy mergeable).Pairwise fun block next => HoldsLines block → HoldsLines next →
    ∀ region ∈ block, ∀ region' ∈ next,
      region.baselineContent = [] ∨ region'.baselineContent = [] →
        region.endLine < region'.startLine

theorem text_injective {kind kind' : LineKind} (h : kind.text = kind'.text) : kind = kind' := by
  cases kind <;> cases kind' <;> first | rfl | exact absurd h (by decide)

theorem colon_not_mem_text (kind : LineKind) : ':' ∉ kind.text := by
  cases kind <;> decide

theorem hyphen_not_mem_natText (n : Nat) : '-' ∉ natText n :=
  fun h => absurd (isDigitAscii_of_mem_natText h) (by decide)

theorem key_of_defaultRegionId {region region' : ConflictRegion}
    (h : defaultRegionId region = defaultRegionId region') :
    region.conflictKind = region'.conflictKind ∧ region.startLine = region'.startLine := by
  obtain ⟨hkind, hlines⟩ := append_cons_inj (colon_not_mem_text _) (colon_not_mem_text _) h
  obtain ⟨hstart, -⟩ :=
    append_cons_inj (hyphen_not_mem_natText _) (hyphen_not_mem_natText _) hlines
  refine ⟨text_injective hkind, ?_⟩
  rw [← digitsValue_natText region.startLine, hstart, digitsValue_natText]

theorem pairwise_groups {R : ConflictRegion → ConflictRegion → Prop} (h : regions.Pairwise R) :
    (regions.splitBy mergeable).Pairwise fun block next =>
      ∀ region ∈ block, ∀ region' ∈ next, R region region' := by
  rw [← List.flatten_splitBy mergeable regions, List.pairwise_flatten] at h
  exact h.2

theorem nodup_ids (hle : ∀ region ∈ regions, region.startLine ≤ region.endLine)
    (hkeys : regions.Pairwise fun region next =>
      ¬ (region.conflictKind = next.conflictKind ∧ region.startLine = next.startLine)) :
    ((coalesceAdjacentRegions regions).map defaultRegionId).Nodup := by
  rw [List.Nodup, List.pairwise_map, coalesceAdjacentRegions_eq, List.pairwise_filterMap]
  apply (pairwise_groups hkeys).imp_of_mem
  intro block next hblock hnext hapart region hregion region' hregion' hid
  obtain ⟨first, hfirst, hstart, hkind⟩ := (isGroup_of_mem hle hblock hregion).first_mem
  obtain ⟨first', hfirst', hstart', hkind'⟩ := (isGroup_of_mem hle hnext hregion').first_mem
  obtain ⟨hkinds, hstarts⟩ := key_of_defaultRegionId hid
  apply hapart first hfirst first' hfirst'
  rw [hkind, hkind', hstart, hstart']
  exact ⟨hkinds, hstarts⟩

theorem exists_foldedRegion {block : List ConflictRegion}
    (h : block ∈ regions.splitBy mergeable) : ∃ region, foldedRegion block = some region := by
  obtain ⟨first, rest, rfl⟩ := List.exists_cons_of_ne_nil (List.ne_nil_of_mem_splitBy h)
  exact ⟨_, rfl⟩

/-- The claimed lines are apart just where the insertions keep to themselves. -/
theorem claims_iff (h : Arranged regions) :
    ((coalesceAdjacentRegions regions).filter
        fun region => decide (region.baselineContent ≠ [])).Pairwise
        (fun region next => region.endLine < next.startLine) ↔
      InsertsApart regions := by
  rw [List.pairwise_filter, coalesceAdjacentRegions_eq, List.pairwise_filterMap]
  unfold InsertsApart
  constructor
  · intro hclaims
    apply hclaims.imp_of_mem
    intro block next hblock hnext hclaim hholds hholds' part hpart part' hpart' _
    obtain ⟨region, hregion⟩ := exists_foldedRegion hblock
    obtain ⟨region', hregion'⟩ := exists_foldedRegion hnext
    have hgroup := isGroup_of_mem h.start_le hblock hregion
    have hgroup' := isGroup_of_mem h.start_le hnext hregion'
    have hlt := hclaim region hregion region' hregion'
      (decide_eq_true (hgroup.holds_iff.mpr hholds))
      (decide_eq_true (hgroup'.holds_iff.mpr hholds'))
    have hend := (hgroup.within part hpart).2
    have hstart := (hgroup'.within part' hpart').1
    omega
  · intro hapart
    apply ((pairwise_groups h.apart).and hapart).imp_of_mem
    rintro block next hblock hnext ⟨hlines, hinserts⟩ region hregion region' hregion' hholds hholds'
    have hgroup := isGroup_of_mem h.start_le hblock hregion
    have hgroup' := isGroup_of_mem h.start_le hnext hregion'
    obtain ⟨last, hlast, hend⟩ := hgroup.last_mem
    obtain ⟨first, hfirst, hstart, -⟩ := hgroup'.first_mem
    rw [← hend, ← hstart]
    by_cases hinsert : last.baselineContent = [] ∨ first.baselineContent = []
    · exact hinserts (hgroup.holds_iff.mp (of_decide_eq_true hholds))
        (hgroup'.holds_iff.mp (of_decide_eq_true hholds')) last hlast first hfirst hinsert
    · rw [not_or] at hinsert
      exact hlines last hlast first hfirst hinsert.1 hinsert.2

theorem exists_of_map_eq_ok {E A B : Type} {f : A → B} {x : Except E A} {b : B}
    (h : x.map f = .ok b) : ∃ a, x = .ok a ∧ f a = b := by
  cases x with
  | error e => cases h
  | ok a => exact ⟨a, rfl, Except.ok.inj h⟩

theorem mergeLines_append (baseLines : List Text)
    (selections : Text → Option ConflictRegionResolution) (result : List Text) (baseIdx : Nat)
    (regions : List ConflictRegion) :
    mergeLines baseLines selections defaultRegionId result baseIdx regions =
      (mergeLines baseLines selections defaultRegionId [] baseIdx regions).map (result ++ ·) := by
  induction regions generalizing result baseIdx with
  | nil => rfl
  | cons region rest ih =>
      rw [mergeLines, mergeLines]
      cases chosenContentFor selections defaultRegionId region with
      | error e => rfl
      | ok chosen =>
          simp only [bind, Except.bind]
          rw [ih, ih ([] ++ _ ++ _)]
          cases mergeLines baseLines selections defaultRegionId [] _ rest with
          | error e => rfl
          | ok lines => simp [Except.map]

section Picks

variable {selections selections' : Text → Option ConflictRegionResolution}
  {region : ConflictRegion}
  (hagree : ∀ id, id ≠ defaultRegionId region → selections id = selections' id)

theorem chosenContentFor_congr {other : ConflictRegion}
    (h : selections (defaultRegionId other) = selections' (defaultRegionId other)) :
    chosenContentFor selections defaultRegionId other =
      chosenContentFor selections' defaultRegionId other := by
  unfold chosenContentFor
  rw [h]

include hagree in
theorem mergeLines_congr (baseLines result : List Text) (baseIdx : Nat)
    (hnot : ∀ other ∈ regions, defaultRegionId other ≠ defaultRegionId region) :
    mergeLines baseLines selections defaultRegionId result baseIdx regions =
      mergeLines baseLines selections' defaultRegionId result baseIdx regions := by
  induction regions generalizing result baseIdx with
  | nil => rfl
  | cons other rest ih =>
      obtain ⟨hother, hrest⟩ := List.forall_mem_cons.mp hnot
      rw [mergeLines, mergeLines, chosenContentFor_congr (hagree _ hother)]
      cases chosenContentFor selections' defaultRegionId other with
      | error e => rfl
      | ok chosen => exact ih _ _ hrest

include hagree in
/-- Two picks for one region change the lines of that region only. -/
theorem mergeLines_differ {baseLines result lines lines' : List Text} {baseIdx : Nat}
    (hnodup : (regions.map defaultRegionId).Nodup) (hmem : region ∈ regions)
    (h : mergeLines baseLines selections defaultRegionId result baseIdx regions = .ok lines)
    (h' : mergeLines baseLines selections' defaultRegionId result baseIdx regions = .ok lines') :
    ∃ before after chosen chosen',
      chosenContentFor selections defaultRegionId region = .ok chosen ∧
      chosenContentFor selections' defaultRegionId region = .ok chosen' ∧
      lines = before ++ splitLines chosen ++ after ∧
      lines' = before ++ splitLines chosen' ++ after := by
  induction regions generalizing result baseIdx with
  | nil => cases hmem
  | cons other rest ih =>
      rw [List.map_cons, List.nodup_cons] at hnodup
      rw [mergeLines] at h h'
      by_cases hsame : region = other
      · subst hsame
        cases hchosen : chosenContentFor selections defaultRegionId region with
        | error e => rw [hchosen] at h; cases h
        | ok chosen =>
            cases hchosen' : chosenContentFor selections' defaultRegionId region with
            | error e => rw [hchosen'] at h'; cases h'
            | ok chosen' =>
                have hnot : ∀ other ∈ rest, defaultRegionId other ≠ defaultRegionId region :=
                  fun other hother heq => hnodup.1 (heq ▸ List.mem_map_of_mem hother)
                simp only [hchosen, hchosen', bind, Except.bind] at h h'
                rw [mergeLines_append] at h h'
                rw [← mergeLines_congr hagree _ _ _ hnot] at h'
                obtain ⟨after, hafter, rfl⟩ := exists_of_map_eq_ok h
                obtain ⟨after', hafter', rfl⟩ := exists_of_map_eq_ok h'
                obtain rfl := Except.ok.inj (hafter.symm.trans hafter')
                exact ⟨_, after, chosen, chosen', rfl, rfl, rfl, rfl⟩
      · have hrest : region ∈ rest := (List.mem_cons.mp hmem).resolve_left hsame
        have hne : defaultRegionId other ≠ defaultRegionId region :=
          fun heq => hnodup.1 (heq ▸ List.mem_map_of_mem hrest)
        rw [← chosenContentFor_congr (hagree _ hne)] at h'
        cases hchosen : chosenContentFor selections defaultRegionId other with
        | error e => rw [hchosen] at h; cases h
        | ok chosen =>
            rw [hchosen] at h h'
            exact ih hnodup.2 hrest h h'

end Picks

theorem decidedApart_of_nodup (hnodup : (regions.map defaultRegionId).Nodup)
    (hclaims : (regions.filter fun region => decide (region.baselineContent ≠ [])).Pairwise
      fun region next => region.endLine < next.startLine) : DecidedApart baseline regions := by
  refine ⟨hnodup, hclaims, ?_⟩
  intro selections selections' region hregion hagree text text' htext htext'
  have hne : regions.length ≠ 0 := fun hnil => by
    rw [List.length_eq_zero_iff.mp hnil] at hregion
    cases hregion
  have hperm : (sortRegions regions).Perm regions := List.perm_insertionSort _ _
  rw [applyMergeSelections, if_neg hne] at htext htext'
  obtain ⟨lines, hlines, rfl⟩ := exists_of_map_eq_ok htext
  obtain ⟨lines', hlines', rfl⟩ := exists_of_map_eq_ok htext'
  obtain ⟨before, after, chosen, chosen', hchosen, hchosen', rfl, rfl⟩ :=
    mergeLines_differ hagree ((hperm.map _).nodup_iff.mpr hnodup) (hperm.mem_iff.mpr hregion)
      hlines hlines'
  exact ⟨before, after, chosen, chosen', hchosen, hchosen', rfl, rfl⟩

theorem splitLines_eq_nil {content : Text} : splitLines content = [] ↔ content = [] := by
  unfold splitLines
  constructor
  · intro h
    by_contra hne
    rw [if_neg (fun hlength => hne (List.length_eq_zero_iff.mp hlength))] at h
    dsimp only at h
    split at h
    · rename_i hlast
      -- one empty part is the empty text
      have hparts : content.splitOn '\n' = [[]] := by
        rw [← List.dropLast_append_getLast? [] hlast.1, h]
        rfl
      have hjoined := @List.intercalate_splitOn _ content _ _ '\n'
      rw [hparts] at hjoined
      exact hne hjoined.symm
    · exact List.splitOn_ne_nil _ _ h
  · rintro rfl
    rfl

theorem emitInsertRegion_of_ne {mIns gIns : List Text} (h : mIns ≠ [] ∨ gIns ≠ [])
    (startLine : Nat) : ∃ region, emitInsertRegion mIns gIns startLine = [region] := by
  have hm := @List.length_eq_zero_iff _ mIns
  have hg := @List.length_eq_zero_iff _ gIns
  unfold emitInsertRegion
  rw [if_neg (by rw [hm, hg]; exact not_and_or.mpr h)]
  split
  · rename_i hsame
    rw [if_neg]
    · exact ⟨_, rfl⟩
    · intro hlength
      have hmnil := hm.mp hlength
      rw [joinWithNewline_eq_nil.mpr hmnil, eq_comm, joinWithNewline_eq_nil] at hsame
      exact h.elim (absurd hmnil) (absurd hsame)
  split
  · exact ⟨_, rfl⟩
  split
  · exact ⟨_, rfl⟩
  · exact ⟨_, rfl⟩

/-- Without a line in the baseline the insertions are pushed twice. -/
theorem not_nodup_of_empty {manualAlign genAlign : ConflictDetection.Alignment}
    (h : manualAlign.insertsByAnchor (-1) ≠ [] ∨ genAlign.insertsByAnchor (-1) ≠ []) :
    ¬ ((coalesceAdjacentRegions (sortRegions (collectRegions [] manualAlign genAlign))).map
      defaultRegionId).Nodup := by
  obtain ⟨region, hregion⟩ := emitInsertRegion_of_ne h 1
  have hle : region.startLine ≤ region.endLine :=
    (mem_emitInsertRegion (hregion ▸ List.mem_singleton_self region)).2.1
  have hcollect : collectRegions [] manualAlign genAlign = [region, region] := by
    show [] ++ emitInsertRegion _ _ 1 ++ emitInsertRegion (manualAlign.insertsByAnchor (-1))
      (genAlign.insertsByAnchor (-1)) 1 ++ [] = _
    rw [hregion]
    rfl
  have hsort : sortRegions [region, region] = [region, region] := by
    simp [sortRegions, List.insertionSort]
  have hmerge : mergeable region region = false := by
    rw [Bool.eq_false_iff, ne_eq, mergeable_iff]
    omega
  rw [hcollect, hsort]
  simp [coalesceAdjacentRegions, coalesceFrom, hmerge]

/-- The regions before any are joined, and the two alignments they come from. -/
theorem exists_sortedRegions (input : DetectConflictsInput) :
    ∃ manualAlign genAlign, LeavesNext manualAlign ∧ LeavesNext genAlign ∧
      (input.baseline = [] →
        (manualAlign.insertsByAnchor (-1)).length = (splitLines input.manual).length ∧
        (genAlign.insertsByAnchor (-1)).length = (splitLines input.newGenerator).length) ∧
      sortedRegions input =
        some (sortRegions (collectRegions (splitLines input.baseline) manualAlign genAlign)) := by
  obtain ⟨manualOps, hmanual, hm, hmHead⟩ :=
    exists_alignment (splitLines input.baseline) (splitLines input.manual)
  obtain ⟨genOps, hgen, hg, hgHead⟩ :=
    exists_alignment (splitLines input.baseline) (splitLines input.newGenerator)
  refine ⟨_, _, hm, hg, ?_, ?_⟩
  · intro hempty
    exact ⟨hmHead (splitLines_eq_nil.mpr hempty), hgHead (splitLines_eq_nil.mpr hempty)⟩
  · simp [sortedRegions, hmanual, hgen]

theorem exists_line_of_not_identical {input : DetectConflictsInput} (h : ¬ IdenticalTexts input)
    (hempty : input.baseline = []) :
    splitLines input.manual ≠ [] ∨ splitLines input.newGenerator ≠ [] := by
  rw [← not_and_or, splitLines_eq_nil, splitLines_eq_nil]
  rintro ⟨hmanual, hgen⟩
  exact h ⟨hempty.trans hmanual.symm, hempty.trans hgen.symm⟩

/-- The regions are decided one by one just where the texts are identical or the
baseline has a line and no insertion reaches by its line numbers from one group
of joined regions into another. -/
theorem decidedApart_iff (input : DetectConflictsInput) :
    ∃ regions, detectConflicts input = some regions ∧
      (DecidedApart input.baseline regions ↔
        IdenticalTexts input ∨ (input.baseline ≠ [] ∧
          ∀ sorted, sortedRegions input = some sorted → InsertsApart sorted)) := by
  by_cases hidentical : IdenticalTexts input
  · refine ⟨[], by rw [detectConflicts, if_pos hidentical], ?_⟩
    refine ⟨fun _ => Or.inl hidentical, fun _ => ?_⟩
    exact decidedApart_of_nodup List.nodup_nil List.Pairwise.nil
  · obtain ⟨manualAlign, genAlign, hm, hg, hhead, hsorted⟩ := exists_sortedRegions input
    refine ⟨_, by rw [detectConflicts, if_neg hidentical, hsorted]; rfl, ?_⟩
    have harranged : Arranged
        (sortRegions (collectRegions (splitLines input.baseline) manualAlign genAlign)) :=
      arranged_sortRegions
    constructor
    · intro hdecided
      refine Or.inr ⟨?_, ?_⟩
      · intro hempty
        obtain ⟨hmHead, hgHead⟩ := hhead hempty
        have hids := hdecided.ids
        rw [hempty] at hids
        refine not_nodup_of_empty ?_ hids
        apply (exists_line_of_not_identical hidentical hempty).imp
        · exact fun hne hnil => hne (List.length_eq_zero_iff.mp (by rw [← hmHead, hnil]; rfl))
        · exact fun hne hnil => hne (List.length_eq_zero_iff.mp (by rw [← hgHead, hnil]; rfl))
      · intro sorted hsome
        obtain rfl := Option.some.inj (hsorted.symm.trans hsome)
        exact (claims_iff harranged).mp hdecided.claims
    · rintro (hsame | ⟨hne, hapart⟩)
      · exact absurd hsame hidentical
      · apply decidedApart_of_nodup
        · have hkeys := pairwise_keys (fun hnil => hne (splitLines_eq_nil.mp hnil)) hm hg
          refine nodup_ids harranged.start_le ?_
          exact (List.perm_insertionSort _ _).symm.pairwise hkeys
            fun h hback => h ⟨hback.1.symm, hback.2.symm⟩
        · exact (claims_iff harranged).mpr (hapart _ hsorted)

/-- The insertion behind line 2 is joined to the change of line 2 by the lines 3
and 4 that it is given, and the change of line 4 loses line 3. -/
def overlappingInput : DetectConflictsInput where
  baseline := "A\nB\nC\nD\n".toList
  manual := "A\nX\nY\nZ\nC\nD\n".toList
  newGenerator := "A\nB\nC\nE\n".toList

theorem not_decidedApart_overlapping :
    ¬ ∀ input regions, detectConflicts input = some regions →
      DecidedApart input.baseline regions := by
  intro h
  have hregions : (detectConflicts overlappingInput).map (fun regions =>
      (regions.filter fun region => decide (region.baselineContent ≠ [])).map
        fun region => (region.startLine, region.endLine)) = some [(2, 4), (4, 4)] := by
    decide +kernel
  obtain ⟨regions, hsome, hlines⟩ := Option.map_eq_some_iff.mp hregions
  have hclaims := (h overlappingInput regions hsome).claims
  have hbounds : ((regions.filter fun region => decide (region.baselineContent ≠ [])).map
      fun region => (region.startLine, region.endLine)).Pairwise
      fun bounds next => bounds.2 < next.1 := List.pairwise_map.mpr hclaims
  rw [hlines] at hbounds
  exact absurd hbounds (by decide)

end Property

end C2c.Studio.MergeRegions
