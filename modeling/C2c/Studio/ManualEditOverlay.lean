import C2c.Studio.MyersDiff

/-!
The overlay that marks what of the editor's buffer was edited by hand.
-/

namespace C2c.Studio.ManualEditOverlay

open C2c.Library.EditGraph
open C2c.Library.JavaText hiding splitLines
open C2c.Studio.MyersDiff

/-- The classes the overlay gives. -/
inductive JavaOriginClass
  | manualModified
  | manualEdit
deriving DecidableEq

structure JavaOriginRegion where
  startLine : Int
  endLine : Int
  originClass : JavaOriginClass
deriving DecidableEq

structure JavaOriginOverlay where
  schemaVersion : Text := "v0".toList
  runId : Text
  javaFile : Text
  regions : List JavaOriginRegion
deriving DecidableEq

structure ComputeManualEditOverlayInput where
  baselineContent : Text
  currentContent : Text
  runId : Text
  javaFile : Text

/-- The region of a run of operations none of which is `equal`. A run without
an insertion has none. -/
def regionOf (run : List Op) : Option JavaOriginRegion :=
  let inserted := (run.filter Op.isInsert).filterMap Op.childIdx
  match inserted.head?, inserted.getLast? with
  | some first, some last =>
      some ⟨first + 1, last + 1,
        if run.any Op.isDelete && run.any Op.isInsert then .manualModified else .manualEdit⟩
  | _, _ => none

def opsToRegions (ops : List Op) : List JavaOriginRegion :=
  match ops with
  | [] => []
  | op :: rest =>
      if op.isEdit then
        (regionOf (op :: rest.takeWhile Op.isEdit)).toList ++
          opsToRegions (rest.dropWhile Op.isEdit)
      else opsToRegions rest
termination_by ops.length
decreasing_by
  · exact Nat.lt_succ_of_le (List.dropWhile_sublist _).length_le
  · exact Nat.lt_succ_self _

/-- `none` for an access beyond the ends of an array, `some none` for `null`. -/
def computeManualEditOverlay (input : ComputeManualEditOverlayInput) :
    Option (Option JavaOriginOverlay) :=
  if input.baselineContent = input.currentContent then some none
  else
    let baseLines := splitLines input.baselineContent
    let curLines := splitLines input.currentContent
    if curLines.length = 0 then some none
    else if baseLines.length = 0 then
      some (some
        { runId := input.runId
          javaFile := input.javaFile
          regions := [⟨1, curLines.length, .manualEdit⟩] })
    else do
      let ops ← ManualEditOverlay.myersDiff baseLines curLines
      return some
        { runId := input.runId
          javaFile := input.javaFile
          regions := opsToRegions ops }

def regionsOf (overlay : Option JavaOriginOverlay) : List JavaOriginRegion :=
  overlay.elim [] JavaOriginOverlay.regions

def Marked (regions : List JavaOriginRegion) (line : Int) : Prop :=
  ∃ region ∈ regions, region.startLine ≤ line ∧ line ≤ region.endLine

instance (regions : List JavaOriginRegion) (line : Int) : Decidable (Marked regions line) :=
  inferInstanceAs (Decidable (∃ region ∈ regions, _))

def unmarkedLines (curLines : List Text) (regions : List JavaOriginRegion) : List Text :=
  (curLines.zipIdx.filter fun line => decide (¬ Marked regions (line.2 + 1))).map Prod.fst

/-- Some line of the baseline is deleted between the same kept lines that the
region lies between. -/
def DeletedAt (ops : List Op) (region : JavaOriginRegion) : Prop :=
  ∃ i, Op.delete i ∈ ops ∧ ∀ i' j', Op.equal i' j' ∈ ops → (i' < i ↔ j' < region.startLine - 1)

/-- The regions mark what an edit script inserts. -/
structure MarksEdits (baseLines curLines : List Text) (ops : List Op)
    (regions : List JavaOriginRegion) : Prop where
  within : ∀ region ∈ regions, 1 ≤ region.startLine ∧ region.startLine ≤ region.endLine ∧
    region.endLine ≤ curLines.length
  separated : regions.Pairwise fun region next =>
    ∃ line, region.endLine < line ∧ line < next.startLine ∧ ¬ Marked regions line
  inserted : ∀ line, Marked regions line → Op.insert (line - 1) ∈ ops
  unmarked : IsCommon (unmarkedLines curLines regions) baseLines curLines
  longest : (unmarkedLines curLines regions).length = lcsLength baseLines curLines
  modified_iff : ∀ region ∈ regions,
    region.originClass = .manualModified ↔ DeletedAt ops region

section Runs

variable {ops run rest : List Op} {a n j : Nat}

theorem insert_mem_iff (hrun : ∀ op ∈ run, op.isEdit = true) (i : Int) :
    Op.insert i ∈ run ↔ i ∈ run.filterMap Op.childIdx := by
  rw [List.mem_filterMap]
  constructor
  · exact fun h => ⟨_, h, rfl⟩
  · rintro ⟨op, hmem, hidx⟩
    cases op with
    | equal i' j' => exact absurd (hrun _ hmem) Bool.false_ne_true
    | insert j' =>
        cases hidx
        exact hmem
    | delete i' => cases hidx

theorem childIdx_run (run : List Op) (hrun : ∀ op ∈ run, op.isEdit = true) :
    (run.filter Op.isInsert).filterMap Op.childIdx = run.filterMap Op.childIdx := by
  rw [List.filterMap_filter]
  apply List.filterMap_congr
  intro op hmem
  cases op with
  | equal i' j' => exact absurd (hrun _ hmem) Bool.false_ne_true
  | insert j' => rfl
  | delete i' => rfl

/-- The region of a run covers the lines that the run inserts. -/
theorem regionOf_run (hrun : ∀ op ∈ run, op.isEdit = true)
    (hchild : run.filterMap Op.childIdx = (List.range' a j).map Int.ofNat) :
    regionOf run =
      if j = 0 then none
      else some ⟨a + 1, a + j, if run.any Op.isDelete then .manualModified else .manualEdit⟩ := by
  unfold regionOf
  rw [childIdx_run run hrun, hchild]
  cases j with
  | zero => rfl
  | succ j =>
      have hinsert : run.any Op.isInsert = true := by
        have hmem : Op.insert a ∈ run := by
          rw [insert_mem_iff hrun, hchild]
          exact List.mem_map.mpr ⟨a, List.mem_range'_1.mpr ⟨Nat.le_refl a, by omega⟩, rfl⟩
        exact List.any_eq_true.mpr ⟨_, hmem, rfl⟩
      rw [hinsert, Bool.and_true, if_neg (Nat.succ_ne_zero j)]
      have hfirst : ((List.range' a (j + 1)).map Int.ofNat).head? = some (a : Int) := rfl
      have hlast : ((List.range' a (j + 1)).map Int.ofNat).getLast? = some ((a + j : Nat) : Int) := by
        rw [List.range'_concat, List.map_append, List.map_singleton, List.getLast?_concat,
          Nat.one_mul]
        rfl
      simp only [hfirst, hlast]
      rw [show ((a + j : Nat) : Int) + 1 = a + (j + 1 : Nat) by omega]

/-- A script is cut at the first kept line. -/
theorem childIdx_split (h : (run ++ rest).filterMap Op.childIdx =
    (List.range' a n).map Int.ofNat) :
    ∃ j ≤ n, run.filterMap Op.childIdx = (List.range' a j).map Int.ofNat ∧
      rest.filterMap Op.childIdx = (List.range' (a + j) (n - j)).map Int.ofNat := by
  rw [List.filterMap_append, List.append_eq_map_iff] at h
  obtain ⟨xs, ys, hrange, hxs, hys⟩ := h
  obtain ⟨j, hj, rfl, rfl⟩ := List.range'_eq_append_iff.mp hrange
  refine ⟨j, hj, hxs.symm, ?_⟩
  rw [← hys, Nat.mul_one]

theorem edit_of_mem_takeWhile {op : Op} {ops : List Op} (hop : op.isEdit = true) :
    ∀ next ∈ op :: ops.takeWhile Op.isEdit, next.isEdit = true := by
  intro next hnext
  rcases List.mem_cons.mp hnext with rfl | hnext
  · exact hop
  · exact List.mem_takeWhile_imp hnext

theorem head_dropWhile (ops : List Op) :
    ∀ op ∈ (ops.dropWhile Op.isEdit).head?, ¬ op.isEdit = true := by
  intro op hop hedit
  have hhead := List.head?_dropWhile_not Op.isEdit ops
  rw [Option.mem_def.mp hop] at hhead
  simp [hedit] at hhead

theorem marked_append {regions regions' : List JavaOriginRegion} {line : Int} :
    Marked (regions ++ regions') line ↔ Marked regions line ∨ Marked regions' line := by
  simp [Marked, or_and_right, exists_or]

/-- What the regions of a script cover that starts at a line of the buffer. -/
structure Covers (ops : List Op) (a n : Nat) (regions : List JavaOriginRegion) : Prop where
  within : ∀ region ∈ regions, (a : Int) + 1 ≤ region.startLine ∧
    region.startLine ≤ region.endLine ∧ region.endLine ≤ a + n
  after_kept : (∀ op ∈ ops.head?, ¬ op.isEdit = true) →
    ∀ region ∈ regions, (a : Int) + 2 ≤ region.startLine
  separated : regions.Pairwise fun region next => region.endLine + 1 < next.startLine
  marked_iff : ∀ line, Marked regions line ↔ Op.insert (line - 1) ∈ ops

/-- A kept line comes before the regions of the rest. -/
theorem Covers.keep {i j : Int} {regions : List JavaOriginRegion}
    (h : Covers ops (a + 1) n regions) : Covers (.equal i j :: ops) a (n + 1) regions where
  within := by
    intro region hmem
    have hregion := h.within region hmem
    omega
  after_kept := by
    intro _ region hmem
    have hregion := h.within region hmem
    omega
  separated := h.separated
  marked_iff := fun line => by simp [h.marked_iff line]

/-- A run comes before the regions behind the next kept line. -/
theorem Covers.prepend {regions : List JavaOriginRegion}
    (hrun : ∀ op ∈ run, op.isEdit = true) (hne : run ≠ [])
    (hchild : run.filterMap Op.childIdx = (List.range' a j).map Int.ofNat) (hj : j ≤ n)
    (hrest : ∀ op ∈ rest.head?, ¬ op.isEdit = true) (h : Covers rest (a + j) (n - j) regions) :
    Covers (run ++ rest) a n ((regionOf run).toList ++ regions) := by
  have hmem (line : Int) : Op.insert (line - 1) ∈ run ↔ (a : Int) + 1 ≤ line ∧ line ≤ a + j := by
    rw [insert_mem_iff hrun, hchild, List.mem_map]
    constructor
    · rintro ⟨i, hi, heq⟩
      rw [List.mem_range'_1] at hi
      rw [Int.ofNat_eq_natCast] at heq
      omega
    · rintro ⟨hlow, hhigh⟩
      refine ⟨(line - 1).toNat, List.mem_range'_1.mpr (by omega), ?_⟩
      exact Int.toNat_of_nonneg (by omega)
  have hkept : (∀ op ∈ (run ++ rest).head?, ¬ op.isEdit = true) → False := by
    obtain ⟨op, ops, rfl⟩ := List.exists_cons_of_ne_nil hne
    exact fun hhead => hhead op rfl (hrun op List.mem_cons_self)
  rw [regionOf_run hrun hchild]
  by_cases hzero : j = 0
  · subst hzero
    rw [if_pos rfl]
    refine ⟨h.within, fun hhead => (hkept hhead).elim, h.separated, ?_⟩
    intro line
    rw [List.mem_append, hmem, Option.toList_none, List.nil_append, h.marked_iff]
    exact (or_iff_right (by omega)).symm
  · rw [if_neg hzero, Option.toList_some]
    refine ⟨?_, fun hhead => (hkept hhead).elim, ?_, ?_⟩
    · intro region hregion
      rcases List.mem_cons.mp hregion with rfl | hregion
      · dsimp only
        omega
      · have hwithin := h.within region hregion
        omega
    · refine List.pairwise_cons.mpr ⟨?_, h.separated⟩
      intro next hnext
      have hstart := h.after_kept hrest next hnext
      dsimp only
      omega
    · intro line
      rw [marked_append, List.mem_append, hmem, h.marked_iff]
      simp [Marked]

theorem opsToRegions_covers
    (hchild : ops.filterMap Op.childIdx = (List.range' a n).map Int.ofNat) :
    Covers ops a n (opsToRegions ops) := by
  induction ops using opsToRegions.induct generalizing a n with
  | case1 =>
      rw [opsToRegions]
      exact ⟨nofun, nofun, List.Pairwise.nil, fun line => by simp [Marked]⟩
  | case2 op rest hop ih =>
      have hrun : ∀ next ∈ op :: rest.takeWhile Op.isEdit, next.isEdit = true :=
        edit_of_mem_takeWhile hop
      have hops : op :: rest = (op :: rest.takeWhile Op.isEdit) ++ rest.dropWhile Op.isEdit := by
        rw [List.cons_append, List.takeWhile_append_dropWhile]
      rw [hops] at hchild
      obtain ⟨j, hj, hfirst, hsecond⟩ := childIdx_split hchild
      rw [opsToRegions, if_pos hop]
      conv => arg 1; rw [hops]
      exact Covers.prepend hrun (List.cons_ne_nil _ _) hfirst hj (head_dropWhile rest)
        (ih hsecond)
  | case3 op rest hop ih =>
      rw [opsToRegions, if_neg hop]
      cases op with
      | insert j => exact absurd rfl hop
      | delete i => exact absurd rfl hop
      | equal i j =>
          cases n with
          | zero => cases hchild
          | succ n =>
              rw [List.range'_succ] at hchild
              exact (ih (List.cons.inj hchild).2).keep

end Runs

section Places

variable {ops run rest : List Op} {a n j : Nat} {region : JavaOriginRegion}

theorem base_lt (hbase : ((run ++ rest).filterMap Op.baseIdx).Pairwise (· < ·)) {op next : Op}
    (hop : op ∈ run) (hnext : next ∈ rest) {i i' : Int} (hi : op.baseIdx = some i)
    (hi' : next.baseIdx = some i') : i < i' := by
  rw [List.filterMap_append, List.pairwise_append] at hbase
  exact hbase.2.2 i (List.mem_filterMap.mpr ⟨op, hop, hi⟩) i'
    (List.mem_filterMap.mpr ⟨next, hnext, hi'⟩)

theorem childIdx_ge (hchild : ops.filterMap Op.childIdx = (List.range' a n).map Int.ofNat)
    {i j : Int} (hmem : Op.equal i j ∈ ops) : (a : Int) ≤ j := by
  have hj : j ∈ ops.filterMap Op.childIdx := List.mem_filterMap.mpr ⟨_, hmem, rfl⟩
  rw [hchild] at hj
  obtain ⟨k, hk, rfl⟩ := List.mem_map.mp hj
  rw [List.mem_range'_1] at hk
  rw [Int.ofNat_eq_natCast]
  omega

theorem exists_kept_head (hrest : ∀ op ∈ rest.head?, ¬ op.isEdit = true) (hne : rest ≠ [])
    (hchild : rest.filterMap Op.childIdx = (List.range' a n).map Int.ofNat) :
    ∃ i tail, rest = .equal i a :: tail := by
  obtain ⟨op, tail, rfl⟩ := List.exists_cons_of_ne_nil hne
  cases op with
  | insert j => exact absurd rfl (hrest _ rfl)
  | delete i => exact absurd rfl (hrest _ rfl)
  | equal i j =>
      cases n with
      | zero => cases hchild
      | succ n =>
          rw [List.range'_succ] at hchild
          obtain rfl : j = a := (List.cons.inj hchild).1
          exact ⟨i, tail, rfl⟩

theorem deletedAt_keep {i : Int} (hbase : ((Op.equal i a :: ops).filterMap Op.baseIdx).Pairwise
    (· < ·)) (hregion : (a : Int) + 2 ≤ region.startLine) :
    DeletedAt (.equal i a :: ops) region ↔ DeletedAt ops region := by
  unfold DeletedAt
  constructor
  · rintro ⟨k, hk, hplace⟩
    have hmem : Op.delete k ∈ ops := by simpa using hk
    exact ⟨k, hmem, fun i' j' h => hplace i' j' (List.mem_cons_of_mem _ h)⟩
  · rintro ⟨k, hk, hplace⟩
    refine ⟨k, List.mem_cons_of_mem _ hk, ?_⟩
    intro i' j' hmem
    rcases List.mem_cons.mp hmem with heq | hmem
    · obtain ⟨rfl, rfl⟩ := Op.equal.inj heq
      have hlt := @base_lt [.equal i' a] ops hbase _ _ (List.mem_singleton_self _) hk _ _ rfl rfl
      exact iff_of_true hlt (by omega)
    · exact hplace i' j' hmem

/-- Behind a run the place of a region is found in what follows the run. -/
theorem deletedAt_rest (hrun : ∀ op ∈ run, op.isEdit = true)
    (hrest : ∀ op ∈ rest.head?, ¬ op.isEdit = true) (hne : rest ≠ [])
    (hchild : rest.filterMap Op.childIdx = (List.range' a n).map Int.ofNat)
    (hbase : ((run ++ rest).filterMap Op.baseIdx).Pairwise (· < ·))
    (hregion : (a : Int) + 2 ≤ region.startLine) :
    DeletedAt (run ++ rest) region ↔ DeletedAt rest region := by
  obtain ⟨i, tail, rfl⟩ := exists_kept_head hrest hne hchild
  constructor
  · rintro ⟨k, hk, hplace⟩
    refine ⟨k, ?_, fun i' j' h => hplace i' j' (List.mem_append_right _ h)⟩
    rcases List.mem_append.mp hk with hk | hk
    · have hlt := base_lt hbase hk List.mem_cons_self rfl rfl
      have hgt := (hplace i a (List.mem_append_right _ List.mem_cons_self)).mpr (by omega)
      omega
    · exact hk
  · rintro ⟨k, hk, hplace⟩
    refine ⟨k, List.mem_append_right _ hk, ?_⟩
    intro i' j' hmem
    rcases List.mem_append.mp hmem with hmem | hmem
    · exact absurd (hrun _ hmem) Bool.false_ne_true
    · exact hplace i' j' hmem

/-- At the place of a run the lines are deleted that the run deletes. -/
theorem deletedAt_run (hrun : ∀ op ∈ run, op.isEdit = true)
    (hrest : ∀ op ∈ rest.head?, ¬ op.isEdit = true)
    (hchild : rest.filterMap Op.childIdx = (List.range' (a + j) n).map Int.ofNat) (hj : 0 < j)
    (hbase : ((run ++ rest).filterMap Op.baseIdx).Pairwise (· < ·))
    (hregion : region.startLine = a + 1) :
    DeletedAt (run ++ rest) region ↔ run.any Op.isDelete = true := by
  rw [List.any_eq_true]
  constructor
  · rintro ⟨k, hk, hplace⟩
    rcases List.mem_append.mp hk with hk | hk
    · exact ⟨_, hk, rfl⟩
    · obtain ⟨i, tail, rfl⟩ := exists_kept_head hrest (List.ne_nil_of_mem hk) hchild
      have htail : Op.delete k ∈ tail := by simpa using hk
      rw [← List.singleton_append, List.filterMap_append, List.pairwise_append] at hbase
      have hlt := @base_lt [.equal i (a + j : Nat)] tail hbase.2.1 _ _
        (List.mem_singleton_self _) htail _ _ rfl rfl
      have hgt := (hplace i _ (List.mem_append_right _ List.mem_cons_self)).mp hlt
      omega
  · rintro ⟨op, hop, hdelete⟩
    cases op with
    | equal i' j' => cases hdelete
    | insert j' => cases hdelete
    | delete k =>
        refine ⟨k, List.mem_append_left _ hop, ?_⟩
        intro i' j' hmem
        rcases List.mem_append.mp hmem with hmem | hmem
        · exact absurd (hrun _ hmem) Bool.false_ne_true
        · have hlt := base_lt hbase hop hmem rfl rfl
          have hge := childIdx_ge hchild hmem
          exact iff_of_false (by omega) (by omega)

theorem opsToRegions_modified_iff
    (hchild : ops.filterMap Op.childIdx = (List.range' a n).map Int.ofNat)
    (hbase : (ops.filterMap Op.baseIdx).Pairwise (· < ·)) :
    ∀ region ∈ opsToRegions ops,
      region.originClass = .manualModified ↔ DeletedAt ops region := by
  induction ops using opsToRegions.induct generalizing a n with
  | case1 =>
      rw [opsToRegions]
      exact nofun
  | case2 op rest hop ih =>
      have hrun : ∀ next ∈ op :: rest.takeWhile Op.isEdit, next.isEdit = true :=
        edit_of_mem_takeWhile hop
      have hops : op :: rest = (op :: rest.takeWhile Op.isEdit) ++ rest.dropWhile Op.isEdit := by
        rw [List.cons_append, List.takeWhile_append_dropWhile]
      rw [hops] at hchild hbase
      obtain ⟨j, hj, hfirst, hsecond⟩ := childIdx_split hchild
      have hrest := head_dropWhile rest
      have hbaseRest := (List.pairwise_append.mp (List.filterMap_append ▸ hbase)).2.1
      intro region hregion
      rw [opsToRegions, if_pos hop, regionOf_run hrun hfirst] at hregion
      rw [hops]
      rcases List.mem_append.mp hregion with hregion | hregion
      · split at hregion
        · cases hregion
        · obtain rfl := List.mem_singleton.mp hregion
          rw [deletedAt_run hrun hrest hsecond (by omega) hbase rfl]
          cases (op :: rest.takeWhile Op.isEdit).any Op.isDelete <;> simp
      · have hne : rest.dropWhile Op.isEdit ≠ [] := by
          intro hnil
          rw [hnil, opsToRegions] at hregion
          cases hregion
        have hstart := (opsToRegions_covers hsecond).after_kept hrest region hregion
        rw [deletedAt_rest hrun hrest hne hsecond hbase hstart]
        exact ih hsecond hbaseRest region hregion
  | case3 op rest hop ih =>
      rw [opsToRegions, if_neg hop]
      intro region hregion
      cases op with
      | insert j => exact absurd rfl hop
      | delete i => exact absurd rfl hop
      | equal i j =>
          cases n with
          | zero => cases hchild
          | succ n =>
              rw [List.range'_succ] at hchild
              obtain rfl : j = a := (List.cons.inj hchild).1
              have hrest := (List.cons.inj hchild).2
              have hstart := ((opsToRegions_covers hrest).within region hregion).1
              rw [deletedAt_keep hbase (by omega)]
              exact ih hrest (List.pairwise_cons.mp hbase).2 region hregion

end Places

section Overlay

variable {baseLines curLines : List Text} {ops : List Op}

theorem pairwise_base_indices {base child : List Text} {d x y : Nat}
    (h : Path base child d x y ops) : (ops.filterMap Op.baseIdx).Pairwise (· < ·) := by
  rw [h.base_indices, List.pairwise_map]
  exact List.pairwise_lt_range.imp fun hlt => Int.ofNat_lt.mpr hlt

theorem child_indices_range' {base child : List Text} {d x y : Nat}
    (h : Path base child d x y ops) :
    ops.filterMap Op.childIdx = (List.range' 0 y).map Int.ofNat := by
  rw [h.child_indices, List.range_eq_range']

theorem unmarkedLines_eq {regions : List JavaOriginRegion}
    (h : ∀ line, Marked regions line ↔ Op.insert (line - 1) ∈ ops) :
    unmarkedLines curLines regions = keptLines curLines ops := by
  unfold unmarkedLines keptLines
  congr 1
  apply List.filter_congr
  intro line _
  rw [decide_eq_decide, h, Int.add_sub_cancel]

/-- Where no region is returned the buffer holds the lines of the baseline or none. -/
theorem marksEdits_nil (h : baseLines = curLines ∨ curLines = []) :
    MarksEdits baseLines curLines ops [] := by
  have hunmarked : unmarkedLines curLines [] = curLines := by
    unfold unmarkedLines Marked
    simp [List.zipIdx_map_fst]
  have hcommon : IsCommon curLines baseLines curLines := by
    refine ⟨?_, List.Sublist.refl _⟩
    rcases h with rfl | rfl
    · exact List.Sublist.refl _
    · exact List.nil_sublist _
  obtain ⟨s, hs, hlength⟩ := exists_common baseLines curLines
  refine ⟨nofun, List.Pairwise.nil, ?_, hunmarked.symm ▸ hcommon, ?_, nofun⟩
  · rintro line ⟨region, hregion, -⟩
    cases hregion
  · rw [hunmarked]
    exact Nat.le_antisymm hcommon.length_le (hlength ▸ hs.2.length_le)

/-- The regions of a script mark what it inserts. -/
theorem marksEdits_opsToRegions {d : Nat}
    (hpath : Path baseLines curLines d baseLines.length curLines.length ops)
    (hmin : ∀ e < d, ¬ Reach baseLines curLines e baseLines.length curLines.length) :
    MarksEdits baseLines curLines ops (opsToRegions ops) := by
  have hchild := child_indices_range' hpath
  have hcovers := opsToRegions_covers hchild
  obtain ⟨hcommon, hlength⟩ := hpath.keptLines_longest hmin
  rw [← unmarkedLines_eq hcovers.marked_iff] at hcommon hlength
  refine ⟨?_, ?_, fun line => (hcovers.marked_iff line).mp, hcommon, hlength,
    opsToRegions_modified_iff hchild (pairwise_base_indices hpath)⟩
  · intro region hregion
    have hwithin := hcovers.within region hregion
    omega
  · have hapart : ∀ region ∈ opsToRegions ops, ∀ next ∈ opsToRegions ops,
        region = next ∨ region.endLine + 1 < next.startLine ∨
          next.endLine + 1 < region.startLine := by
      intro region hregion next hnext
      apply List.Pairwise.forall_of_forall_of_flip _ _ _ hregion hnext
      · exact fun region _ => Or.inl rfl
      · exact hcovers.separated.imp fun h => Or.inr (Or.inl h)
      · exact hcovers.separated.imp fun h => Or.inr (Or.inr h)
    apply hcovers.separated.imp_of_mem
    intro region next hregion _ hlt
    refine ⟨region.endLine + 1, by omega, hlt, ?_⟩
    rintro ⟨other, hother, hlow, hhigh⟩
    have hwithin := hcovers.within region hregion
    rcases hapart region hregion other hother with rfl | h | h <;> omega

theorem opsToRegions_of_edits (h : ∀ op ∈ ops, op.isEdit = true) :
    opsToRegions ops = (regionOf ops).toList := by
  cases ops with
  | nil => rw [opsToRegions]; rfl
  | cons op ops =>
      obtain ⟨hop, hops⟩ := List.forall_mem_cons.mp h
      have htake : ops.takeWhile Op.isEdit = ops := List.takeWhile_eq_self_iff.mpr hops
      have hdrop : ops.dropWhile Op.isEdit = [] := List.dropWhile_eq_nil_iff.mpr hops
      rw [opsToRegions, if_pos hop, htake, hdrop, opsToRegions, List.append_nil]

/-- The script of an empty baseline inserts the whole buffer. -/
theorem opsToRegions_of_empty {d : Nat} (hne : curLines.length ≠ 0)
    (hpath : Path [] curLines d 0 curLines.length ops) :
    opsToRegions ops = [⟨1, curLines.length, .manualEdit⟩] := by
  have hnone : ∀ op ∈ ops, op.baseIdx = none := by
    have hbase : ops.filterMap Op.baseIdx = [] := hpath.base_indices
    exact List.filterMap_eq_nil_iff.mp hbase
  have hedit : ∀ op ∈ ops, op.isEdit = true := by
    intro op hop
    cases op with
    | equal i j => cases hnone _ hop
    | insert j => rfl
    | delete i => rfl
  have hdelete : ops.any Op.isDelete = false := by
    rw [List.any_eq_false]
    intro op hop
    cases op with
    | equal i j => exact Bool.false_ne_true
    | insert j => exact Bool.false_ne_true
    | delete i => cases hnone _ hop
  rw [opsToRegions_of_edits hedit, regionOf_run hedit (child_indices_range' hpath), if_neg hne,
    hdelete]
  simp

/-- The overlay marks the lines that the buffer has and the baseline has not. -/
theorem overlay_marksEdits (input : ComputeManualEditOverlayInput) :
    ∃ overlay ops, computeManualEditOverlay input = some overlay ∧
      ManualEditOverlay.myersDiff (splitLines input.baselineContent)
        (splitLines input.currentContent) = some ops ∧
      MarksEdits (splitLines input.baselineContent) (splitLines input.currentContent) ops
        (regionsOf overlay) := by
  obtain ⟨d, ops, hscript, hpath, hmin, -⟩ := myersScript_spec (splitLines input.baselineContent)
    (splitLines input.currentContent)
  unfold computeManualEditOverlay
  split
  · rename_i heq
    exact ⟨none, ops, rfl, hscript, marksEdits_nil (Or.inl (congrArg splitLines heq))⟩
  dsimp only
  split
  · rename_i hcur
    exact ⟨none, ops, rfl, hscript, marksEdits_nil (Or.inr (List.length_eq_zero_iff.mp hcur))⟩
  split
  · rename_i hcur hbase
    refine ⟨_, ops, rfl, hscript, ?_⟩
    have hmarks := marksEdits_opsToRegions hpath hmin
    rw [List.length_eq_zero_iff.mp hbase] at hpath hmarks ⊢
    rw [opsToRegions_of_empty hcur hpath] at hmarks
    exact hmarks
  · refine ⟨some ⟨"v0".toList, input.runId, input.javaFile, opsToRegions ops⟩, ops, ?_, hscript,
      marksEdits_opsToRegions hpath hmin⟩
    rw [ManualEditOverlay.myersDiff, hscript]
    rfl

end Overlay

end C2c.Studio.ManualEditOverlay
