import Mathlib.Data.List.Chain
import Mathlib.Order.Bounds.Basic
import Mathlib.Order.MinMax
import Mathlib.Data.Nat.Find

/-!
Edit scripts of two lists of lines as paths in a grid.

A point `(x, y)` stands for the first `x` lines of the base and the first `y`
lines of the child. Deletions lead to the right and insertions down, also
beyond the ends of the lists; a step along the diagonal keeps a shared line.
-/

namespace C2c.Library.EditGraph

variable {Line : Type*}

inductive Op where
  | equal (baseIdx childIdx : Int)
  | insert (childIdx : Int)
  | delete (baseIdx : Int)
  deriving DecidableEq, Repr

namespace Op

def baseIdx : Op → Option Int
  | equal i _ => some i
  | insert _ => none
  | delete i => some i

def childIdx : Op → Option Int
  | equal _ j => some j
  | insert j => some j
  | delete _ => none

def isEdit : Op → Bool
  | equal _ _ => false
  | insert _ => true
  | delete _ => true

def isInsert : Op → Bool
  | insert _ => true
  | _ => false

def isDelete : Op → Bool
  | delete _ => true
  | _ => false

end Op

/-- The lines at a point, where neither list has ended, are the same line. -/
def Meets (base child : List Line) (x y : Nat) : Prop :=
  ∃ line, base[x]? = some line ∧ child[y]? = some line

/-- A path from the corner to `(x, y)` along `ops` that has `d` edits. -/
inductive Path (base child : List Line) : Nat → Nat → Nat → List Op → Prop
  | start : Path base child 0 0 0 []
  | keep {d x y ops} : Path base child d x y ops → Meets base child x y →
      Path base child d (x + 1) (y + 1) (ops ++ [.equal x y])
  | delete {d x y ops} : Path base child d x y ops →
      Path base child (d + 1) (x + 1) y (ops ++ [.delete x])
  | insert {d x y ops} : Path base child d x y ops →
      Path base child (d + 1) x (y + 1) (ops ++ [.insert y])

def Reach (base child : List Line) (d x y : Nat) : Prop :=
  ∃ ops, Path base child d x y ops

def IsCommon (s base child : List Line) : Prop :=
  s.Sublist base ∧ s.Sublist child

/-- The length of a longest common subsequence. -/
def lcsLength [DecidableEq Line] : List Line → List Line → Nat
  | [], _ => 0
  | _ :: _, [] => 0
  | a :: base, b :: child =>
      if a = b then lcsLength base child + 1
      else max (lcsLength base (b :: child)) (lcsLength (a :: base) child)

def edits (ops : List Op) : Nat :=
  ops.countP Op.isEdit

/-- The lines of the child that a script does not insert. -/
def keptLines (child : List Line) (ops : List Op) : List Line :=
  (child.zipIdx.filter fun line => decide (Op.insert line.2 ∉ ops)).map Prod.fst

/-- A script that pairs equal lines, accounts for each line of both lists once
and in order, and makes as few edits as a longest common subsequence allows. -/
structure IsMinimalScript [DecidableEq Line] (base child : List Line) (ops : List Op) : Prop where
  equal_lines : ∀ i j, Op.equal i j ∈ ops →
    ∃ x y : Nat, i = x ∧ j = y ∧ Meets base child x y
  base_indices : ops.filterMap Op.baseIdx = (List.range base.length).map Int.ofNat
  child_indices : ops.filterMap Op.childIdx = (List.range child.length).map Int.ofNat
  edits_eq : edits ops = base.length + child.length - 2 * lcsLength base child

section Common

variable {s base child : List Line}

theorem IsCommon.cons_of_ne {a b : Line} (hne : a ≠ b)
    (h : IsCommon s (a :: base) (b :: child)) :
    IsCommon s base (b :: child) ∨ IsCommon s (a :: base) child := by
  cases s with
  | nil => exact Or.inl ⟨List.nil_sublist _, List.nil_sublist _⟩
  | cons c s =>
      by_cases hc : c = a
      · refine Or.inr ⟨h.1, h.2.of_cons_of_ne ?_⟩
        rw [hc]
        exact hne
      · exact Or.inl ⟨h.1.of_cons_of_ne hc, h.2⟩

theorem exists_common [DecidableEq Line] (base child : List Line) :
    ∃ s, IsCommon s base child ∧ s.length = lcsLength base child := by
  fun_induction lcsLength base child with
  | case1 child => exact ⟨[], ⟨List.nil_sublist _, List.nil_sublist _⟩, rfl⟩
  | case2 a base => exact ⟨[], ⟨List.nil_sublist _, List.nil_sublist _⟩, rfl⟩
  | case3 base a child ih =>
      obtain ⟨s, hs, hlength⟩ := ih
      exact ⟨a :: s, ⟨hs.1.cons_cons a, hs.2.cons_cons a⟩, by rw [List.length_cons, hlength]⟩
  | case4 a base b child hne ihbase ihchild =>
      rcases max_choice (lcsLength base (b :: child)) (lcsLength (a :: base) child) with h | h
      · obtain ⟨s, hs, hlength⟩ := ihbase
        exact ⟨s, ⟨hs.1.cons a, hs.2⟩, by rw [h, hlength]⟩
      · obtain ⟨s, hs, hlength⟩ := ihchild
        exact ⟨s, ⟨hs.1, hs.2.cons b⟩, by rw [h, hlength]⟩

theorem IsCommon.length_le [DecidableEq Line] (h : IsCommon s base child) :
    s.length ≤ lcsLength base child := by
  fun_induction lcsLength base child generalizing s with
  | case1 child =>
      rw [List.sublist_nil.mp h.1]
      rfl
  | case2 a base =>
      rw [List.sublist_nil.mp h.2]
      rfl
  | case3 base a child ih =>
      have htail := ih ⟨h.1.tail, h.2.tail⟩
      rw [List.length_tail] at htail
      omega
  | case4 a base b child hne ihbase ihchild =>
      rcases h.cons_of_ne hne with h | h
      · exact le_max_of_le_left (ihbase h)
      · exact le_max_of_le_right (ihchild h)

/-- `lcsLength` is what it is named after. -/
theorem lcsLength_isGreatest [DecidableEq Line] (base child : List Line) :
    IsGreatest {l | ∃ s, IsCommon s base child ∧ s.length = l} (lcsLength base child) := by
  refine ⟨exists_common base child, ?_⟩
  rintro l ⟨s, hs, rfl⟩
  exact hs.length_le

end Common

section Paths

variable {base child s : List Line} {d x y j : Nat} {ops : List Op}

theorem Meets.lt (h : Meets base child x y) : x < base.length ∧ y < child.length := by
  obtain ⟨line, hbase, hchild⟩ := h
  exact ⟨(List.getElem?_eq_some_iff.mp hbase).1, (List.getElem?_eq_some_iff.mp hchild).1⟩

/-- A path and the lines it keeps. -/
theorem Path.common (h : Path base child d x y ops) :
    ∃ s, IsCommon s (base.take x) (child.take y) ∧ x + y = d + 2 * s.length := by
  induction h with
  | start => exact ⟨[], ⟨List.nil_sublist _, List.nil_sublist _⟩, rfl⟩
  | keep h hmeets ih =>
      obtain ⟨s, hs, hlength⟩ := ih
      obtain ⟨line, hbase, hchild⟩ := hmeets
      refine ⟨s ++ [line], ⟨?_, ?_⟩, ?_⟩
      · rw [List.take_add_one, hbase]
        exact hs.1.append (List.Sublist.refl _)
      · rw [List.take_add_one, hchild]
        exact hs.2.append (List.Sublist.refl _)
      · rw [List.length_append, List.length_singleton]
        omega
  | delete h ih =>
      obtain ⟨s, hs, hlength⟩ := ih
      exact ⟨s, ⟨hs.1.trans (List.take_sublist_take_left (Nat.le_succ _)), hs.2⟩, by omega⟩
  | insert h ih =>
      obtain ⟨s, hs, hlength⟩ := ih
      exact ⟨s, ⟨hs.1, hs.2.trans (List.take_sublist_take_left (Nat.le_succ _))⟩, by omega⟩

theorem reach_start (base child : List Line) : Reach base child 0 0 0 :=
  ⟨[], .start⟩

theorem Reach.keep (h : Reach base child d x y) (hmeets : Meets base child x y) :
    Reach base child d (x + 1) (y + 1) :=
  h.elim fun _ hpath => ⟨_, hpath.keep hmeets⟩

theorem Reach.delete (h : Reach base child d x y) : Reach base child (d + 1) (x + 1) y :=
  h.elim fun _ hpath => ⟨_, hpath.delete⟩

theorem Reach.insert (h : Reach base child d x y) : Reach base child (d + 1) x (y + 1) :=
  h.elim fun _ hpath => ⟨_, hpath.insert⟩

/-- A common subsequence of the rests is kept on the way to the end. -/
theorem Reach.to_end (h : Reach base child d x y) (hx : x ≤ base.length)
    (hy : y ≤ child.length) (hs : IsCommon s (base.drop x) (child.drop y)) :
    ∃ e, Reach base child e base.length child.length ∧
      e + 2 * s.length + x + y = d + base.length + child.length := by
  -- by the number of lines that are left
  obtain ⟨left, hleft⟩ : ∃ left, base.length - x + (child.length - y) ≤ left :=
    ⟨_, Nat.le_refl _⟩
  induction left generalizing d x y s with
  | zero =>
      obtain rfl : x = base.length := by omega
      obtain rfl : y = child.length := by omega
      rw [List.drop_length] at hs
      rw [List.sublist_nil.mp hs.1]
      exact ⟨d, h, by rw [List.length_nil]; omega⟩
  | succ left ih =>
      rcases Nat.lt_or_ge x base.length with hxlt | hxge
      · rcases Nat.lt_or_ge y child.length with hylt | hyge
        · have hbase := List.drop_eq_getElem_cons hxlt
          have hchild := List.drop_eq_getElem_cons hylt
          rw [hbase, hchild] at hs
          by_cases heq : base[x] = child[y]
          · have hmeets : Meets base child x y :=
              ⟨base[x], List.getElem?_eq_getElem hxlt, by rw [heq, List.getElem?_eq_getElem hylt]⟩
            cases s with
            | nil =>
                obtain ⟨e, he, hlength⟩ := ih h.delete (s := []) hxlt hy
                  ⟨List.nil_sublist _, List.nil_sublist _⟩ (by omega)
                exact ⟨e, he, by omega⟩
            | cons line s =>
                obtain ⟨e, he, hlength⟩ := ih (h.keep hmeets) hxlt hylt
                  ⟨hs.1.tail, hs.2.tail⟩ (by omega)
                rw [List.tail_cons] at hlength
                exact ⟨e, he, by rw [List.length_cons]; omega⟩
          · rcases hs.cons_of_ne heq with hs | hs
            · rw [← hchild] at hs
              obtain ⟨e, he, hlength⟩ := ih h.delete hxlt hy hs (by omega)
              exact ⟨e, he, by omega⟩
            · rw [← hbase] at hs
              obtain ⟨e, he, hlength⟩ := ih h.insert hx hylt hs (by omega)
              exact ⟨e, he, by omega⟩
        · obtain rfl : y = child.length := Nat.le_antisymm hy hyge
          rw [List.drop_length] at hs
          have hnil : s = [] := List.sublist_nil.mp hs.2
          obtain ⟨e, he, hlength⟩ := ih h.delete hxlt hy (s := s)
            ⟨hnil ▸ List.nil_sublist _, hnil ▸ List.nil_sublist _⟩ (by omega)
          exact ⟨e, he, by omega⟩
      · obtain rfl : x = base.length := Nat.le_antisymm hx hxge
        rw [List.drop_length] at hs
        have hnil : s = [] := List.sublist_nil.mp hs.1
        rcases Nat.eq_or_lt_of_le hy with rfl | hylt
        · exact ⟨d, h, by rw [hnil, List.length_nil]; omega⟩
        · obtain ⟨e, he, hlength⟩ := ih h.insert hx hylt (s := s)
            ⟨hnil ▸ List.nil_sublist _, hnil ▸ List.nil_sublist _⟩ (by omega)
          exact ⟨e, he, by omega⟩

/-- Beyond the end of both lists no line is kept, so that each step there was an edit. -/
theorem Reach.from_end (h : Reach base child d x y) (hx : base.length ≤ x)
    (hy : child.length ≤ y) :
    ∃ e, Reach base child e base.length child.length ∧
      e + (x - base.length) + (y - child.length) = d := by
  obtain ⟨ops, hpath⟩ := h
  obtain ⟨s, hs, hlength⟩ := hpath.common
  rw [List.take_of_length_le hx, List.take_of_length_le hy] at hs
  obtain ⟨e, he, hsum⟩ := (reach_start base child).to_end (Nat.zero_le _) (Nat.zero_le _) hs
  exact ⟨e, he, by omega⟩

theorem reach_all (base child : List Line) :
    Reach base child (base.length + child.length) base.length child.length := by
  obtain ⟨e, he, hsum⟩ := (reach_start base child).to_end (Nat.zero_le _) (Nat.zero_le _)
    ⟨List.nil_sublist _, List.nil_sublist _⟩
  rw [List.length_nil] at hsum
  obtain rfl : e = base.length + child.length := by omega
  exact he

/-- The fewest edits that lead to the end leave a longest common subsequence. -/
theorem Reach.eq_of_minimal [DecidableEq Line]
    (h : Reach base child d base.length child.length)
    (hmin : ∀ e < d, ¬ Reach base child e base.length child.length) :
    d = base.length + child.length - 2 * lcsLength base child := by
  obtain ⟨ops, hpath⟩ := h
  obtain ⟨s, hs, hlength⟩ := hpath.common
  rw [List.take_length, List.take_length] at hs
  have hle := hs.length_le
  obtain ⟨t, ht, htlength⟩ := exists_common base child
  obtain ⟨e, he, hsum⟩ := (reach_start base child).to_end (Nat.zero_le _) (Nat.zero_le _) ht
  have hnot : ¬ e < d := fun hlt => hmin e hlt he
  omega

theorem Path.edits_eq (h : Path base child d x y ops) : edits ops = d := by
  induction h with
  | start => rfl
  | keep h hmeets ih => simp [edits, Op.isEdit, ← ih]
  | delete h ih => simp [edits, Op.isEdit, ← ih]
  | insert h ih => simp [edits, Op.isEdit, ← ih]

theorem Path.base_indices (h : Path base child d x y ops) :
    ops.filterMap Op.baseIdx = (List.range x).map Int.ofNat := by
  induction h with
  | start => rfl
  | keep h hmeets ih => simp [Op.baseIdx, List.range_succ, ih]
  | delete h ih => simp [Op.baseIdx, List.range_succ, ih]
  | insert h ih => simp [Op.baseIdx, ih]

theorem Path.child_indices (h : Path base child d x y ops) :
    ops.filterMap Op.childIdx = (List.range y).map Int.ofNat := by
  induction h with
  | start => rfl
  | keep h hmeets ih => simp [Op.childIdx, List.range_succ, ih]
  | delete h ih => simp [Op.childIdx, ih]
  | insert h ih => simp [Op.childIdx, List.range_succ, ih]

theorem Path.equal_lines (h : Path base child d x y ops) :
    ∀ i j, Op.equal i j ∈ ops → ∃ x y : Nat, i = x ∧ j = y ∧ Meets base child x y := by
  induction h with
  | start => simp
  | @keep d x y ops h hmeets ih =>
      intro i j hmem
      rcases List.mem_append.mp hmem with hmem | hmem
      · exact ih i j hmem
      · obtain ⟨rfl, rfl⟩ : i = x ∧ j = y := by simpa using hmem
        exact ⟨x, y, rfl, rfl, hmeets⟩
  | delete h ih => simpa using ih
  | insert h ih => simpa using ih

theorem Path.insert_lt (h : Path base child d x y ops) {i : Nat} (hmem : Op.insert i ∈ ops) :
    i < y := by
  have hchild : (i : Int) ∈ ops.filterMap Op.childIdx :=
    List.mem_filterMap.mpr ⟨_, hmem, rfl⟩
  rw [h.child_indices] at hchild
  obtain ⟨j, hj, heq⟩ := List.mem_map.mp hchild
  have hlt := List.mem_range.mp hj
  simp only [Int.ofNat_eq_natCast] at heq
  omega

theorem keptLines_congr {child : List Line} {ops ops' : List Op}
    (h : ∀ i < child.length, Op.insert i ∈ ops ↔ Op.insert i ∈ ops') :
    keptLines child ops = keptLines child ops' := by
  unfold keptLines
  congr 1
  apply List.filter_congr
  intro line hline
  have hlt := (List.mem_zipIdx hline).2.1
  rw [decide_eq_decide, h line.2 (by omega)]

theorem keptLines_concat (child : List Line) (line : Line) (ops : List Op) :
    keptLines (child ++ [line]) ops =
      keptLines child ops ++ if Op.insert child.length ∈ ops then [] else [line] := by
  unfold keptLines
  rw [List.zipIdx_append, List.filter_append, List.map_append]
  congr 1
  by_cases hmem : Op.insert child.length ∈ ops <;> simp [hmem]

/-- What a path does not insert it keeps. -/
theorem Path.kept (h : Path base child d x y ops) (hx : x ≤ base.length)
    (hy : y ≤ child.length) :
    (keptLines (child.take y) ops).Sublist (base.take x) ∧
      x + y = d + 2 * (keptLines (child.take y) ops).length := by
  induction h with
  | start => exact ⟨List.nil_sublist _, rfl⟩
  | @keep d x y ops h hmeets ih =>
      obtain ⟨hs, hlength⟩ := ih (by omega) (by omega)
      obtain ⟨line, hbase, hchild⟩ := hmeets
      have hkept : keptLines (child.take (y + 1)) (ops ++ [.equal x y]) =
          keptLines (child.take y) ops ++ [line] := by
        have hnot : Op.insert y ∉ ops := fun hmem => Nat.lt_irrefl y (h.insert_lt hmem)
        rw [List.take_add_one, hchild, Option.toList_some, keptLines_concat,
          List.length_take_of_le (by omega), if_neg (by simpa using hnot)]
        congr 1
        exact keptLines_congr fun i hi => by simp
      rw [hkept, List.take_add_one, hbase]
      exact ⟨hs.append (List.Sublist.refl _), by rw [List.length_append, List.length_singleton]; omega⟩
  | @delete d x y ops h ih =>
      obtain ⟨hs, hlength⟩ := ih (by omega) hy
      have hkept : keptLines (child.take y) (ops ++ [.delete x]) = keptLines (child.take y) ops :=
        keptLines_congr fun i hi => by simp
      rw [hkept]
      exact ⟨hs.trans (List.take_sublist_take_left (Nat.le_succ _)), by omega⟩
  | @insert d x y ops h ih =>
      obtain ⟨hs, hlength⟩ := ih hx (by omega)
      have hkept : keptLines (child.take (y + 1)) (ops ++ [.insert y]) =
          keptLines (child.take y) ops := by
        rw [List.take_add_one, List.getElem?_eq_getElem (by omega), Option.toList_some,
          keptLines_concat, List.length_take_of_le (by omega), if_pos (by simp), List.append_nil]
        apply keptLines_congr
        intro i hi
        rw [List.length_take] at hi
        simp
        omega
      rw [hkept]
      exact ⟨hs, by omega⟩

theorem keptLines_sublist (child : List Line) (ops : List Op) :
    (keptLines child ops).Sublist child := by
  have hfst : (child.zipIdx.map Prod.fst) = child := List.zipIdx_map_fst 0 child
  conv_rhs => rw [← hfst]
  exact List.filter_sublist.map Prod.fst

/-- A minimal script keeps a longest common subsequence. -/
theorem Path.keptLines_longest [DecidableEq Line]
    (h : Path base child d base.length child.length ops)
    (hmin : ∀ e < d, ¬ Reach base child e base.length child.length) :
    IsCommon (keptLines child ops) base child ∧
      (keptLines child ops).length = lcsLength base child := by
  obtain ⟨hs, hlength⟩ := h.kept (Nat.le_refl _) (Nat.le_refl _)
  rw [List.take_length, List.take_length] at hs
  rw [List.take_length] at hlength
  have hcommon : IsCommon (keptLines child ops) base child := ⟨hs, keptLines_sublist child ops⟩
  have hle := hcommon.length_le
  have hd := Reach.eq_of_minimal ⟨ops, h⟩ hmin
  obtain ⟨t, ht, htlength⟩ := exists_common base child
  have hbase := ht.1.length_le
  have hchild := ht.2.length_le
  exact ⟨hcommon, by omega⟩

theorem Path.isMinimalScript [DecidableEq Line]
    (h : Path base child d base.length child.length ops)
    (hmin : ∀ e < d, ¬ Reach base child e base.length child.length) :
    IsMinimalScript base child ops where
  equal_lines := h.equal_lines
  base_indices := h.base_indices
  child_indices := h.child_indices
  edits_eq := by
    rw [h.edits_eq]
    exact Reach.eq_of_minimal ⟨ops, h⟩ hmin

end Paths

/-- The lines from a point along the diagonal are shared. -/
def Slides (base child : List Line) (x y j : Nat) : Prop :=
  ∀ i < j, Meets base child (x + i) (y + i)

def slideOps (x y j : Nat) : List Op :=
  (List.range j).map fun i => .equal ↑(x + i) ↑(y + i)

/-- A point where a path with `d` edits is right after the last of them. -/
def Entry (base child : List Line) : Nat → Nat → Nat → Prop
  | 0, x, y => x = 0 ∧ y = 0
  | d + 1, x, y =>
      (∃ x', x = x' + 1 ∧ Reach base child d x' y) ∨ ∃ y', y = y' + 1 ∧ Reach base child d x y'

/-- No path with `d` edits leads further on the diagonal. -/
structure Furthest (base child : List Line) (d x y : Nat) : Prop where
  reach : Reach base child d x y
  le : ∀ {x' y' : Nat}, Reach base child d x' y' → x' + y = x + y' → x' ≤ x

/-- No deletion comes right after an insertion. -/
def DeletesFirst (ops : List Op) : Prop :=
  ops.IsChain fun op next => ¬ (op.isInsert = true ∧ next.isDelete = true)

section Furthest

variable {base child : List Line} {d x y x' y' j : Nat} {ops : List Op}

theorem slideOps_succ (x y j : Nat) :
    slideOps x y (j + 1) = slideOps x y j ++ [.equal ↑(x + j) ↑(y + j)] := by
  simp [slideOps, List.range_succ]

theorem exists_slides (base child : List Line) (x y : Nat) :
    ∃ j, Slides base child x y j ∧ ¬ Meets base child (x + j) (y + j) := by
  -- the first step that leaves a shared line
  have hend : ∃ j, ¬ Meets base child (x + j) (y + j) :=
    ⟨base.length, fun hmeets => absurd hmeets.lt.1 (by omega)⟩
  classical
  exact ⟨Nat.find hend, fun i hi => not_not.mp (Nat.find_min hend hi), Nat.find_spec hend⟩

theorem Slides.of_succ (h : Slides base child x y (j + 1)) : Slides base child x y j :=
  fun i hi => h i (Nat.lt_succ_of_lt hi)

theorem Path.slide (h : Path base child d x y ops) (hslides : Slides base child x y j) :
    Path base child d (x + j) (y + j) (ops ++ slideOps x y j) := by
  induction j with
  | zero => simpa [slideOps] using h
  | succ j ih =>
      rw [slideOps_succ, ← List.append_assoc]
      exact (ih hslides.of_succ).keep (hslides j (Nat.lt_succ_self j))

theorem Reach.slide (h : Reach base child d x y) (hslides : Slides base child x y j) :
    Reach base child d (x + j) (y + j) :=
  h.elim fun _ hpath => ⟨_, hpath.slide hslides⟩

theorem Entry.reach (h : Entry base child d x y) : Reach base child d x y := by
  cases d with
  | zero =>
      obtain ⟨rfl, rfl⟩ := h
      exact reach_start base child
  | succ d =>
      rcases h with ⟨x', rfl, h⟩ | ⟨y', rfl, h⟩
      · exact h.delete
      · exact h.insert

/-- A path slides from its last edit to where it leads. -/
theorem Reach.entry (h : Reach base child d x y) :
    ∃ s t j, Entry base child d s t ∧ x = s + j ∧ y = t + j ∧ Slides base child s t j := by
  obtain ⟨ops, hpath⟩ := h
  induction hpath with
  | start => exact ⟨0, 0, 0, ⟨rfl, rfl⟩, rfl, rfl, fun i hi => absurd hi (Nat.not_lt_zero i)⟩
  | keep h hmeets ih =>
      obtain ⟨s, t, j, hentry, rfl, rfl, hslides⟩ := ih
      refine ⟨s, t, j + 1, hentry, rfl, rfl, ?_⟩
      intro i hi
      rcases Nat.lt_succ_iff_lt_or_eq.mp hi with hi | rfl
      · exact hslides i hi
      · exact hmeets
  | @delete d x y ops h ih =>
      exact ⟨x + 1, y, 0, Or.inl ⟨x, rfl, ops, h⟩, rfl, rfl, fun i hi => absurd hi (Nat.not_lt_zero i)⟩
  | @insert d x y ops h ih =>
      exact ⟨x, y + 1, 0, Or.inr ⟨y, rfl, ops, h⟩, rfl, rfl, fun i hi => absurd hi (Nat.not_lt_zero i)⟩

/-- The furthest point is found from the furthest entry. -/
theorem Furthest.of_entry (h : Entry base child d x y)
    (hmax : ∀ s t, Entry base child d s t → s + y = x + t → s ≤ x)
    (hslides : Slides base child x y j) (hstop : ¬ Meets base child (x + j) (y + j)) :
    Furthest base child d (x + j) (y + j) where
  reach := h.reach.slide hslides
  le := by
    intro x' y' hreach hdiagonal
    obtain ⟨s, t, i, hentry, rfl, rfl, hkept⟩ := hreach.entry
    have hle := hmax s t hentry (by omega)
    by_contra hlt
    have hmeets := hkept (x + j - s) (by omega)
    rw [show s + (x + j - s) = x + j by omega, show t + (x + j - s) = y + j by omega] at hmeets
    exact hstop hmeets

theorem Furthest.ext (h : Furthest base child d x y) (h' : Furthest base child d x' y')
    (hdiagonal : x + y' = x' + y) : x = x' ∧ y = y' := by
  have hle := h'.le h.reach (by omega)
  have hge := h.le h'.reach (by omega)
  omega

theorem Reach.diagonal (h : Reach base child d x y) :
    x ≤ y + d ∧ y ≤ x + d ∧ (x + y + d) % 2 = 0 := by
  obtain ⟨ops, hpath⟩ := h
  induction hpath with
  | start => exact ⟨Nat.le_refl _, Nat.le_refl _, rfl⟩
  | keep h hmeets ih => omega
  | delete h ih => omega
  | insert h ih => omega

theorem Path.edits_le (h : Path base child d x y ops) : d ≤ x + y := by
  obtain ⟨s, hs, hlength⟩ := h.common
  omega

/-- Each step beyond the end is an edit. -/
theorem Reach.le_length_add (h : Reach base child d x y) : x ≤ base.length + d := by
  obtain ⟨ops, hpath⟩ := h
  induction hpath with
  | start => exact Nat.zero_le _
  | keep h hmeets ih =>
      have hlt := hmeets.lt.1
      omega
  | delete h ih => omega
  | insert h ih => omega

theorem Path.of_last_insert {op : Op} (h : Path base child d x y ops) (hop : op ∈ ops.getLast?)
    (hinsert : op.isInsert = true) :
    ∃ e y', d = e + 1 ∧ y = y' + 1 ∧ Reach base child e x y' := by
  cases h with
  | start => simp at hop
  | keep h hmeets =>
      obtain rfl : _ = op := by simpa using hop
      simp [Op.isInsert] at hinsert
  | delete h =>
      obtain rfl : _ = op := by simpa using hop
      simp [Op.isInsert] at hinsert
  | @insert d x y ops h => exact ⟨d, y, rfl, rfl, ops, h⟩

theorem DeletesFirst.concat {op : Op} (h : DeletesFirst ops)
    (hop : op.isDelete = true → ∀ last ∈ ops.getLast?, ¬ last.isInsert = true) :
    DeletesFirst (ops ++ [op]) := by
  apply List.IsChain.append h (List.isChain_singleton op)
  intro last hlast next hnext
  obtain rfl : op = next := by simpa using hnext
  rintro ⟨hinsert, hdelete⟩
  exact hop hdelete last hlast hinsert

theorem DeletesFirst.insert (h : DeletesFirst ops) (j : Int) :
    DeletesFirst (ops ++ [.insert j]) :=
  h.concat fun hdelete => absurd hdelete Bool.false_ne_true

theorem DeletesFirst.slide (h : DeletesFirst ops) (x y j : Nat) :
    DeletesFirst (ops ++ slideOps x y j) := by
  induction j with
  | zero => simpa [slideOps] using h
  | succ j ih =>
      rw [slideOps_succ, ← List.append_assoc]
      exact ih.concat fun hdelete => absurd hdelete Bool.false_ne_true

end Furthest

/-! Scripts of marked lines. -/

/-- A line of an edit script with what becomes of it. -/
inductive Edit (Line : Type*) where
  | keep (line : Line)
  | remove (line : Line)
  | add (line : Line)
deriving DecidableEq

namespace Edit

def old? : Edit Line → Option Line
  | keep line => some line
  | remove line => some line
  | add _ => none

def new? : Edit Line → Option Line
  | keep line => some line
  | remove _ => none
  | add line => some line

def kept? : Edit Line → Option Line
  | keep line => some line
  | _ => none

def isKeep : Edit Line → Bool
  | keep _ => true
  | _ => false

def isRemove : Edit Line → Bool
  | remove _ => true
  | _ => false

def isAdd : Edit Line → Bool
  | add _ => true
  | _ => false

end Edit

/-- The lines before a script. -/
def oldLines (script : List (Edit Line)) : List Line :=
  script.filterMap Edit.old?

/-- The lines after a script. -/
def newLines (script : List (Edit Line)) : List Line :=
  script.filterMap Edit.new?

/-- The lines that a script keeps. -/
def keptOf (script : List (Edit Line)) : List Line :=
  script.filterMap Edit.kept?

section Marked

variable {script : List (Edit Line)} {base child s : List Line}

theorem oldLines_append (script script' : List (Edit Line)) :
    oldLines (script ++ script') = oldLines script ++ oldLines script' :=
  List.filterMap_append

theorem newLines_append (script script' : List (Edit Line)) :
    newLines (script ++ script') = newLines script ++ newLines script' :=
  List.filterMap_append

@[simp] theorem oldLines_keep (l : List Line) : oldLines (l.map Edit.keep) = l := by
  simp [oldLines, List.filterMap_map, Function.comp_def, Edit.old?]

@[simp] theorem newLines_keep (l : List Line) : newLines (l.map Edit.keep) = l := by
  simp [newLines, List.filterMap_map, Function.comp_def, Edit.new?]

@[simp] theorem oldLines_remove (l : List Line) : oldLines (l.map Edit.remove) = l := by
  simp [oldLines, List.filterMap_map, Function.comp_def, Edit.old?]

@[simp] theorem newLines_remove (l : List Line) : newLines (l.map Edit.remove) = [] := by
  simp [newLines, List.filterMap_map, Function.comp_def, Edit.new?]

@[simp] theorem oldLines_add (l : List Line) : oldLines (l.map Edit.add) = [] := by
  simp [oldLines, List.filterMap_map, Function.comp_def, Edit.old?]

@[simp] theorem newLines_add (l : List Line) : newLines (l.map Edit.add) = l := by
  simp [newLines, List.filterMap_map, Function.comp_def, Edit.new?]

/-- Each line before is kept or removed. -/
theorem length_oldLines (script : List (Edit Line)) :
    (oldLines script).length = script.countP Edit.isKeep + script.countP Edit.isRemove := by
  induction script with
  | nil => rfl
  | cons edit script ih =>
      rw [oldLines] at ih
      cases edit <;>
        simp only [oldLines, List.filterMap_cons, List.countP_cons, List.length_cons, Edit.old?,
          Edit.isKeep, Edit.isRemove, ih, if_true, Bool.false_eq_true, if_false] <;>
        omega

/-- Each line after is kept or added. -/
theorem length_newLines (script : List (Edit Line)) :
    (newLines script).length = script.countP Edit.isKeep + script.countP Edit.isAdd := by
  induction script with
  | nil => rfl
  | cons edit script ih =>
      rw [newLines] at ih
      cases edit <;>
        simp only [newLines, List.filterMap_cons, List.countP_cons, List.length_cons, Edit.new?,
          Edit.isKeep, Edit.isAdd, ih, if_true, Bool.false_eq_true, if_false] <;>
        omega

theorem length_keptOf (script : List (Edit Line)) :
    (keptOf script).length = script.countP Edit.isKeep := by
  induction script with
  | nil => rfl
  | cons edit script ih =>
      rw [keptOf] at ih
      cases edit <;>
        simp only [keptOf, List.filterMap_cons, List.countP_cons, List.length_cons, Edit.kept?,
          Edit.isKeep, ih, if_true, Bool.false_eq_true, if_false, Nat.add_zero]

theorem keptOf_sublist_oldLines (script : List (Edit Line)) :
    (keptOf script).Sublist (oldLines script) := by
  induction script with
  | nil => exact List.nil_sublist _
  | cons edit script ih =>
      cases edit with
      | keep line => exact ih.cons_cons line
      | remove line => exact ih.cons line
      | add line => exact ih

theorem keptOf_sublist_newLines (script : List (Edit Line)) :
    (keptOf script).Sublist (newLines script) := by
  induction script with
  | nil => exact List.nil_sublist _
  | cons edit script ih =>
      cases edit with
      | keep line => exact ih.cons_cons line
      | remove line => exact ih
      | add line => exact ih.cons line

/-- Nothing is kept of lines that are removed before any other line is looked at. -/
theorem keptOf_sublist_drop_old {l : List Line}
    (h : (script.filter fun edit => !edit.isAdd).take l.length = l.map Edit.remove) :
    (keptOf script).Sublist ((oldLines script).drop l.length) := by
  have hsplit := List.take_append_drop l.length (script.filter fun edit => !edit.isAdd)
  rw [h] at hsplit
  have hkept : keptOf (script.filter fun edit => !edit.isAdd) = keptOf script := by
    rw [keptOf, keptOf, List.filterMap_filter]
    congr 1
    funext edit
    cases edit <;> rfl
  have hold : oldLines (script.filter fun edit => !edit.isAdd) = oldLines script := by
    rw [oldLines, oldLines, List.filterMap_filter]
    congr 1
    funext edit
    cases edit <;> rfl
  have hremoved : keptOf (l.map Edit.remove) = [] := by
    simp [keptOf, List.filterMap_map, Function.comp_def, Edit.kept?]
  rw [← hkept, ← hold, ← hsplit, oldLines_append, oldLines_remove, List.drop_left', keptOf,
    List.filterMap_append]
  · rw [← keptOf, hremoved]
    exact keptOf_sublist_oldLines _
  · rfl

theorem keptOf_sublist_drop_new {l : List Line}
    (h : (script.filter fun edit => !edit.isRemove).take l.length = l.map Edit.add) :
    (keptOf script).Sublist ((newLines script).drop l.length) := by
  have hsplit := List.take_append_drop l.length (script.filter fun edit => !edit.isRemove)
  rw [h] at hsplit
  have hkept : keptOf (script.filter fun edit => !edit.isRemove) = keptOf script := by
    rw [keptOf, keptOf, List.filterMap_filter]
    congr 1
    funext edit
    cases edit <;> rfl
  have hnew : newLines (script.filter fun edit => !edit.isRemove) = newLines script := by
    rw [newLines, newLines, List.filterMap_filter]
    congr 1
    funext edit
    cases edit <;> rfl
  have hadded : keptOf (l.map Edit.add) = [] := by
    simp [keptOf, List.filterMap_map, Function.comp_def, Edit.kept?]
  rw [← hkept, ← hnew, ← hsplit, newLines_append, newLines_add, List.drop_left', keptOf,
    List.filterMap_append]
  · rw [← keptOf, hadded]
    exact keptOf_sublist_newLines _
  · rfl

/-- Lines that are removed and lines that are added, before the rest of a script. -/
theorem countP_replace (removed added : List Line) (rest : List (Edit Line)) :
    (removed.map Edit.remove ++ added.map Edit.add ++ rest).countP Edit.isRemove =
        removed.length + rest.countP Edit.isRemove ∧
      (removed.map Edit.remove ++ added.map Edit.add ++ rest).countP Edit.isAdd =
        added.length + rest.countP Edit.isAdd := by
  simp [List.countP_append, List.countP_map, Function.comp_def, Edit.isRemove, Edit.isAdd]

theorem take_replace (removed added : List Line) (rest : List (Edit Line)) :
    ((removed.map Edit.remove ++ added.map Edit.add ++ rest).filter
        fun edit => !edit.isAdd).take removed.length = removed.map Edit.remove ∧
      ((removed.map Edit.remove ++ added.map Edit.add ++ rest).filter
        fun edit => !edit.isRemove).take added.length = added.map Edit.add := by
  have hremove : (removed.map Edit.remove).filter (fun edit => !edit.isAdd) =
      removed.map Edit.remove := by
    simp [List.filter_eq_self, Edit.isAdd]
  have hremove' : (removed.map Edit.remove).filter (fun edit => !edit.isRemove) = [] := by
    simp [List.filter_eq_nil_iff, Edit.isRemove]
  have hadd : (added.map Edit.add).filter (fun edit => !edit.isRemove) =
      added.map Edit.add := by
    simp [List.filter_eq_self, Edit.isRemove]
  have hadd' : (added.map Edit.add).filter (fun edit => !edit.isAdd) = [] := by
    simp [List.filter_eq_nil_iff, Edit.isAdd]
  simp only [List.filter_append, hremove, hremove', hadd, hadd', List.append_nil, List.nil_append]
  exact ⟨List.take_left' (List.length_map _), List.take_left' (List.length_map _)⟩

/-- A common subsequence is what some script keeps. -/
theorem exists_script (h : IsCommon s base child) :
    ∃ script, oldLines script = base ∧ newLines script = child ∧
      script.countP Edit.isKeep = s.length := by
  induction s generalizing base child with
  | nil =>
      refine ⟨base.map Edit.remove ++ child.map Edit.add, ?_, ?_, ?_⟩
      · rw [oldLines_append, oldLines_remove, oldLines_add, List.append_nil]
      · rw [newLines_append, newLines_remove, newLines_add, List.nil_append]
      · simp [List.countP_map, Function.comp_def, Edit.isKeep]
  | cons line s ih =>
      obtain ⟨before, rest, rfl, hbefore, hrest⟩ := List.cons_sublist_iff.mp h.1
      obtain ⟨before', rest', rfl, hbefore', hrest'⟩ := List.cons_sublist_iff.mp h.2
      obtain ⟨removed, removed', rfl⟩ := List.append_of_mem hbefore
      obtain ⟨added, added', rfl⟩ := List.append_of_mem hbefore'
      have hcommon : IsCommon s (removed' ++ rest) (added' ++ rest') :=
        ⟨hrest.trans (List.sublist_append_right _ _),
          hrest'.trans (List.sublist_append_right _ _)⟩
      obtain ⟨script, hold, hnew, hkeep⟩ := ih hcommon
      refine ⟨removed.map Edit.remove ++ added.map Edit.add ++ .keep line :: script, ?_, ?_, ?_⟩
      · rw [oldLines_append, oldLines_append, oldLines_remove, oldLines_add]
        simp [oldLines, Edit.old?, ← hold]
      · rw [newLines_append, newLines_append, newLines_remove, newLines_add]
        simp [newLines, Edit.new?, ← hnew]
      · simp [List.countP_append, List.countP_cons, List.countP_map, Function.comp_def, Edit.isKeep,
          hkeep]

end Marked

end C2c.Library.EditGraph
