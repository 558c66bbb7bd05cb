import C2c.Library.EditGraph
import C2c.Library.JavaText

/-!
The line diff that both the merge dialog and the manual-edit overlay run.

`none` stands for an access beyond the ends of an array.
-/

namespace C2c.Studio.MyersDiff

open C2c.Library.EditGraph
open C2c.Library.JavaText hiding splitLines

variable {Line : Type}

/-- Both copies cut a text into its lines in this way. -/
def splitLines (content : Text) : List Text :=
  if content.length = 0 then []
  else
    let parts := content.splitOn '\n'
    if parts.getLast? = some [] ∧ content.getLast? = some '\n' then parts.dropLast else parts

def itemAt {Item : Type} (items : List Item) (i : Int) : Option Item :=
  if 0 ≤ i then items[i.toNat]? else none

/-- `items[i] = value` on an `Int32Array`. Only a number below the length of the
array is taken: such a number fits in the 32 bits of an element. -/
def setItem (items : List Int) (i value : Int) : Option (List Int) :=
  if 0 ≤ i ∧ i < items.length ∧ 0 ≤ value ∧ value < items.length then
    some (items.set i.toNat value)
  else none

/-- `new Int32Array(2 * max + 2)` -/
def newRow (max : Int) : List Int :=
  List.replicate (2 * max + 2).toNat 0

/-- The inner `while` of the forward pass. -/
def slide [DecidableEq Line] (base child : List Line) (x y : Int) : Option (Int × Int) :=
  if x < base.length ∧ y < child.length then do
    let baseLine ← itemAt base x
    let childLine ← itemAt child y
    if baseLine = childLine then slide base child (x + 1) (y + 1) else return (x, y)
  else return (x, y)
termination_by (base.length - x).toNat

/-- `k === -d || (k !== d && prev[ki - 1] < prev[ki + 1])` -/
def movesDown (prev : List Int) (max d k : Int) : Option Bool :=
  if k = -d then return true
  else if k ≠ d then do
    let left ← itemAt prev (k + max - 1)
    let right ← itemAt prev (k + max + 1)
    return decide (left < right)
  else return false

/-- Where a diagonal is entered, from the row of the round before. -/
def entryOf (prev : List Int) (max d k : Int) : Option Int := do
  let down ← movesDown prev max d k
  if down then itemAt prev (k + max + 1) else (itemAt prev (k + max - 1)).map (· + 1)

/-- One diagonal of a round, and whether the end of both lists is reached on it. -/
def advance [DecidableEq Line] (base child : List Line) (prev curr : List Int)
    (max d k : Int) : Option (List Int × Bool) := do
  let x ← entryOf prev max d k
  let (x, y) ← slide base child x (x - k)
  let curr ← setItem curr (k + max) x
  return (curr, decide (base.length ≤ x ∧ child.length ≤ y))

/-- `for (let k = -d; k <= d; k += 2)`, from `k` on. -/
def diagonals [DecidableEq Line] (base child : List Line) (prev : List Int) (max d k : Int)
    (curr : List Int) : Option (List Int × Bool) :=
  if k ≤ d then do
    let (curr, done) ← advance base child prev curr max d k
    if done then return (curr, true) else diagonals base child prev max d (k + 2) curr
  else return (curr, false)
termination_by (d + 1 - k).toNat

/-- `d === 0 ? new Int32Array(2 * max + 2) : trace[d - 1]` -/
def previous (max : Int) (trace : List (List Int)) (d : Int) : Option (List Int) :=
  if d = 0 then some (newRow max) else itemAt trace (d - 1)

/-- `outer: for (let d = 0; d <= max; d += 1)`, from `d` on. -/
def rounds [DecidableEq Line] (base child : List Line) (max d : Int) (trace : List (List Int)) :
    Option (List (List Int)) :=
  if d ≤ max then do
    let prev ← previous max trace d
    let (curr, done) ← diagonals base child prev max d (-d) prev
    if done then return trace ++ [curr]
    else rounds base child max (d + 1) (trace ++ [curr])
  else return trace
termination_by (max + 1 - d).toNat

/-- The inner `while` of the way back. The script is kept in the order that the
final `reverse` gives it, so that a `push` goes to its front. -/
def descend (prevX prevY x y : Int) (ops : List Op) : Int × Int × List Op :=
  if prevX < x ∧ prevY < y then
    descend prevX prevY (x - 1) (y - 1) (.equal (x - 1) (y - 1) :: ops)
  else (x, y, ops)
termination_by (x - prevX).toNat

/-- The way back from `(x, y)`, with the rounds below the given number to go. -/
def walkBack (max : Int) (trace : List (List Int)) :
    Nat → Int → Int → List Op → Option (List Op)
  | 0, _, _, ops => some ops
  | d + 1, x, y, ops =>
      if 0 < x ∨ 0 < y then do
        let prev ← previous max trace d
        let k := x - y
        let down ← movesDown prev max d k
        let prevK := if down then k + 1 else k - 1
        let prevX ← itemAt prev (prevK + max)
        let (x, y, ops) := descend prevX (prevX - prevK) x y ops
        if 0 < d then
          if x = prevX then walkBack max trace d x (y - 1) (.insert (y - 1) :: ops)
          else walkBack max trace d (x - 1) y (.delete (x - 1) :: ops)
        else walkBack max trace d x y ops
      else some ops

/-- The algorithm that the two copies of `myersDiff` spell out. -/
def myersScript [DecidableEq Line] (base child : List Line) : Option (List Op) :=
  if base.length = 0 ∧ child.length = 0 then some []
  else do
    let max : Int := base.length + child.length
    let trace ← rounds base child max 0 []
    walkBack max trace trace.length base.length child.length []

example : myersScript ["a", "b", "c"] ["a", "x", "c"] =
    some [.equal 0 0, .delete 1, .insert 1, .equal 2 2] := by
  decide +kernel

/-- The cells of the diagonals below `upper` hold the furthest points of a round,
none of which is at the end. -/
def Filled (base child : List Line) (max : Int) (d : Nat) (upper : Int) (row : List Int) : Prop :=
  ∀ k : Int, -d ≤ k → k < upper → (k + d) % 2 = 0 →
    ∃ x y : Nat, (x : Int) - y = k ∧ itemAt row (k + max) = some (x : Int) ∧
      Furthest base child d x y ∧ ¬ (base.length ≤ x ∧ child.length ≤ y)

/-- A row after a whole round. -/
structure Frontier (base child : List Line) (max : Int) (d : Nat) (row : List Int) : Prop where
  length : (row.length : Int) = 2 * max + 2
  filled : Filled base child max d (d + 1) row

/-- The rows of the first rounds. -/
def Traced (base child : List Line) (max : Int) (d : Nat) (trace : List (List Int)) : Prop :=
  ∀ e < d, ∃ row, itemAt trace e = some row ∧ Frontier base child max e row

section Cells

theorem itemAt_natCast {Item : Type} (items : List Item) (i : Nat) :
    itemAt items i = items[i]? := by
  unfold itemAt
  rw [if_pos (Int.natCast_nonneg i), Int.toNat_natCast]

theorem exists_itemAt {Item : Type} {items : List Item} {i : Int} (hlow : 0 ≤ i)
    (hhigh : i < items.length) : ∃ item, itemAt items i = some item := by
  obtain ⟨n, rfl⟩ := Int.eq_ofNat_of_zero_le hlow
  exact ⟨_, (itemAt_natCast items n).trans (List.getElem?_eq_getElem (by omega))⟩

theorem itemAt_newRow {max i : Int} (hlow : 0 ≤ i) (hhigh : i < 2 * max + 2) :
    itemAt (newRow max) i = some 0 := by
  obtain ⟨n, rfl⟩ := Int.eq_ofNat_of_zero_le hlow
  rw [itemAt_natCast, newRow, List.getElem?_replicate, if_pos (by omega)]

/-- A store within the bounds changes one cell. -/
theorem setItem_spec {items : List Int} {i : Int} {value : Nat} (hlow : 0 ≤ i)
    (hhigh : i < items.length) (hvalue : (value : Int) < items.length) :
    ∃ items', setItem items i value = some items' ∧ items'.length = items.length ∧
      itemAt items' i = some (value : Int) ∧
      ∀ i', i' ≠ i → itemAt items' i' = itemAt items i' := by
  refine ⟨items.set i.toNat value,
    if_pos ⟨hlow, hhigh, Int.natCast_nonneg value, hvalue⟩, List.length_set, ?_, ?_⟩
  · unfold itemAt
    rw [if_pos hlow, List.getElem?_set_self (by omega)]
  · intro i' hne
    unfold itemAt
    split
    · rw [List.getElem?_set_ne (by omega)]
    · rfl

end Cells

section Forward

variable {base child : List Line} {max k : Int} {d : Nat} {prev : List Int}

theorem slide_spec [DecidableEq Line] {x y j : Nat} (hslides : Slides base child x y j)
    (hstop : ¬ Meets base child (x + j) (y + j)) :
    slide base child x y = some (↑(x + j), ↑(y + j)) := by
  induction j generalizing x y with
  | zero =>
      rw [slide]
      split
      · rename_i h
        have hbase : x < base.length := by omega
        have hchild : y < child.length := by omega
        rw [itemAt_natCast, itemAt_natCast, List.getElem?_eq_getElem hbase,
          List.getElem?_eq_getElem hchild]
        have hne : base[x] ≠ child[y] := fun heq => hstop
          ⟨base[x], List.getElem?_eq_getElem hbase, by rw [heq]; exact List.getElem?_eq_getElem hchild⟩
        exact if_neg hne
      · rfl
  | succ j ih =>
      have hmeets : Meets base child x y := hslides 0 (Nat.succ_pos j)
      have hlt := hmeets.lt
      obtain ⟨line, hbase, hchild⟩ := hmeets
      rw [slide, if_pos (by omega), itemAt_natCast, itemAt_natCast, hbase, hchild]
      have hnext := @ih (x + 1) (y + 1)
        (fun i hi => by
          have hmeets := hslides (i + 1) (by omega)
          rwa [show x + 1 + i = x + (i + 1) by omega, show y + 1 + i = y + (i + 1) by omega])
        (by rwa [show x + 1 + j = x + (j + 1) by omega, show y + 1 + j = y + (j + 1) by omega])
      rw [show x + 1 + j = x + (j + 1) by omega, show y + 1 + j = y + (j + 1) by omega] at hnext
      simpa using hnext

/-- The choice in a round after the first, and why it is right: the point that is
taken from the round before leads to the furthest entry of the diagonal. -/
theorem movesDown_spec (hprev : Frontier base child max d prev) (hlow : -(d + 1) ≤ k)
    (hhigh : k ≤ d + 1) (hparity : (k + (d + 1)) % 2 = 0) :
    (movesDown prev max ↑(d + 1) k = some true ∧
      ∃ x y : Nat, (x : Int) - y = k + 1 ∧ itemAt prev (k + 1 + max) = some (x : Int) ∧
        Furthest base child d x y ∧
        ∀ s t, Entry base child (d + 1) s t → (s : Int) - t = k → s ≤ x) ∨
    (movesDown prev max ↑(d + 1) k = some false ∧
      ∃ x y : Nat, (x : Int) - y = k - 1 ∧ itemAt prev (k - 1 + max) = some (x : Int) ∧
        Furthest base child d x y ∧
        (∀ s t, Entry base child (d + 1) s t → (s : Int) - t = k → s ≤ x + 1) ∧
        ∀ x' y', Reach base child d x' y' → (x' : Int) - y' = k + 1 → x' ≤ x) := by
  by_cases hfirst : k = -(d + 1)
  · obtain ⟨x, y, hdiagonal, hcell, hfurthest, -⟩ :=
      hprev.filled (k + 1) (by omega) (by omega) (by omega)
    refine Or.inl ⟨by rw [movesDown, if_pos (by omega)]; rfl, x, y, hdiagonal, hcell, hfurthest, ?_⟩
    rintro s t (⟨s', rfl, hreach⟩ | ⟨t', rfl, hreach⟩) hk
    · have hout := hreach.diagonal
      omega
    · exact hfurthest.le hreach (by omega)
  by_cases hlast : k = d + 1
  · obtain ⟨x, y, hdiagonal, hcell, hfurthest, -⟩ :=
      hprev.filled (k - 1) (by omega) (by omega) (by omega)
    refine Or.inr ⟨by rw [movesDown, if_neg (by omega), if_neg (by omega)]; rfl,
      x, y, hdiagonal, hcell, hfurthest, ?_, ?_⟩
    · rintro s t (⟨s', rfl, hreach⟩ | ⟨t', rfl, hreach⟩) hk
      · exact Nat.succ_le_succ (hfurthest.le hreach (by omega))
      · have hout := hreach.diagonal
        omega
    · intro x' y' hreach hk
      have hout := hreach.diagonal
      omega
  obtain ⟨x, y, hdiagonal, hcell, hfurthest, -⟩ :=
    hprev.filled (k - 1) (by omega) (by omega) (by omega)
  obtain ⟨x', y', hdiagonal', hcell', hfurthest', -⟩ :=
    hprev.filled (k + 1) (by omega) (by omega) (by omega)
  have hchoice : movesDown prev max ↑(d + 1) k = some (decide ((x : Int) < x')) := by
    rw [movesDown, if_neg (by omega), if_pos (by omega), show k + max - 1 = k - 1 + max by omega,
      show k + max + 1 = k + 1 + max by omega, hcell, hcell']
    rfl
  by_cases hlt : x < x'
  · refine Or.inl ⟨by rw [hchoice, decide_eq_true (by omega)], x', y', hdiagonal', hcell',
      hfurthest', ?_⟩
    rintro s t (⟨s', rfl, hreach⟩ | ⟨t', rfl, hreach⟩) hk
    · have hle := hfurthest.le hreach (by omega)
      omega
    · exact hfurthest'.le hreach (by omega)
  · refine Or.inr ⟨by rw [hchoice, decide_eq_false (by omega)], x, y, hdiagonal, hcell,
      hfurthest, ?_, ?_⟩
    · rintro s t (⟨s', rfl, hreach⟩ | ⟨t', rfl, hreach⟩) hk
      · exact Nat.succ_le_succ (hfurthest.le hreach (by omega))
      · have hle := hfurthest'.le hreach (by omega)
        omega
    · intro s t hreach hk
      have hle := hfurthest'.le hreach (by omega)
      omega

/-- The entry that is found, for the first round and for the others. -/
theorem entryOf_spec (hmax : 0 < max)
    (hprev : ∀ e, d = e + 1 → Frontier base child max e prev)
    (hfirst : d = 0 → prev = newRow max) (hlow : -d ≤ k) (hhigh : k ≤ d)
    (hparity : (k + d) % 2 = 0) :
    ∃ s t : Nat, entryOf prev max d k = some (s : Int) ∧ (s : Int) - t = k ∧
      Entry base child d s t ∧
      ∀ s' t', Entry base child d s' t' → s' + t = s + t' → s' ≤ s := by
  unfold entryOf
  cases d with
  | zero =>
      obtain rfl : k = 0 := by omega
      refine ⟨0, 0, ?_, rfl, ⟨rfl, rfl⟩, ?_⟩
      · rw [hfirst rfl, movesDown, if_pos (by omega)]
        exact itemAt_newRow (by omega) (by omega)
      · rintro s t ⟨rfl, rfl⟩ -
        exact Nat.le_refl _
  | succ d =>
      rcases movesDown_spec (k := k) (hprev d rfl) (by omega) (by omega) (by omega) with
        ⟨hdown, x, y, hdiagonal, hcell, hfurthest, hle⟩ |
        ⟨hdown, x, y, hdiagonal, hcell, hfurthest, hle, -⟩
      · refine ⟨x, y + 1, ?_, by omega, Or.inr ⟨y, rfl, hfurthest.reach⟩, ?_⟩
        · rw [hdown, show k + max + 1 = k + 1 + max by omega, hcell]
          rfl
        · exact fun s t hentry hst => hle s t hentry (by omega)
      · refine ⟨x + 1, y, ?_, by omega, Or.inl ⟨x, rfl, hfurthest.reach⟩, ?_⟩
        · rw [hdown, show k + max - 1 = k - 1 + max by omega, hcell]
          rfl
        · exact fun s t hentry hst => hle s t hentry (by omega)

theorem previous_spec {trace : List (List Int)} (htraced : Traced base child max d trace) :
    ∃ prev, previous max trace d = some prev ∧
      (∀ e, d = e + 1 → Frontier base child max e prev) ∧ (d = 0 → prev = newRow max) ∧
      (0 ≤ max → (prev.length : Int) = 2 * max + 2) := by
  unfold previous
  cases d with
  | zero =>
      refine ⟨newRow max, rfl, nofun, fun _ => rfl, fun hmax => ?_⟩
      rw [newRow, List.length_replicate, Int.toNat_of_nonneg (by omega)]
  | succ d =>
      obtain ⟨row, hrow, hfrontier⟩ := htraced d (Nat.lt_succ_self d)
      refine ⟨row, ?_, ?_, nofun, fun _ => hfrontier.length⟩
      · rw [if_neg (by omega), show ((d + 1 : Nat) : Int) - 1 = d by omega]
        exact hrow
      · rintro e ⟨⟩
        exact hfrontier

/-- A whole round has not found the end, and so no path of its edits leads there. -/
theorem Frontier.not_reach {row : List Int} (h : Frontier base child max d row) :
    ¬ Reach base child d base.length child.length := by
  intro hreach
  have hdiagonal := hreach.diagonal
  obtain ⟨x, y, hk, -, hfurthest, hend⟩ :=
    h.filled ((base.length : Int) - child.length) (by omega) (by omega) (by omega)
  have hle := hfurthest.le hreach (by omega)
  exact hend ⟨hle, by omega⟩

theorem Traced.not_reach {trace : List (List Int)} (h : Traced base child max d trace) {e : Nat}
    (he : e < d) : ¬ Reach base child e base.length child.length := by
  obtain ⟨row, -, hfrontier⟩ := h e he
  exact hfrontier.not_reach

theorem Traced.append {trace : List (List Int)} (h : Traced base child max d trace)
    (hlength : trace.length = d) (row : List Int) : Traced base child max d (trace ++ [row]) := by
  intro e he
  obtain ⟨row', hrow, hfrontier⟩ := h e he
  rw [itemAt_natCast] at hrow
  refine ⟨row', ?_, hfrontier⟩
  rw [itemAt_natCast, List.getElem?_append_left (by omega), hrow]

theorem Traced.concat {trace : List (List Int)} (h : Traced base child max d trace)
    (hlength : trace.length = d) {row : List Int} (hrow : Frontier base child max d row) :
    Traced base child max (d + 1) (trace ++ [row]) := by
  intro e he
  rcases Nat.lt_succ_iff_lt_or_eq.mp he with he | rfl
  · exact h.append hlength row e he
  · refine ⟨row, ?_, hrow⟩
    rw [itemAt_natCast, ← hlength, List.getElem?_concat_length]

variable [DecidableEq Line] {curr : List Int}

/-- One diagonal gets its furthest point, and no other cell changes. -/
theorem advance_spec (hmax : max = base.length + child.length) (hsize : 0 < max)
    (hprev : ∀ e, d = e + 1 → Frontier base child max e prev)
    (hfirst : d = 0 → prev = newRow max) (hlow : -d ≤ k) (hhigh : k ≤ d) (hd : (d : Int) ≤ max)
    (hparity : (k + d) % 2 = 0) (hcurr : (curr.length : Int) = 2 * max + 2) :
    ∃ x y : Nat, ∃ curr', (x : Int) - y = k ∧ Furthest base child d x y ∧
      advance base child prev curr max d k =
        some (curr', decide (base.length ≤ x ∧ child.length ≤ y)) ∧
      (curr'.length : Int) = 2 * max + 2 ∧ itemAt curr' (k + max) = some (x : Int) ∧
      ∀ i, i ≠ k + max → itemAt curr' i = itemAt curr i := by
  obtain ⟨s, t, hfound, hst, hentry, hle⟩ := entryOf_spec hsize hprev hfirst hlow hhigh hparity
  obtain ⟨j, hslides, hstop⟩ := exists_slides base child s t
  have hfurthest := Furthest.of_entry hentry hle hslides hstop
  have hbound := hfurthest.reach.le_length_add
  obtain ⟨curr', hset, hlength, hself, hother⟩ :=
    @setItem_spec curr (k + max) (s + j) (by omega) (by omega) (by omega)
  refine ⟨s + j, t + j, curr', by omega, hfurthest, ?_, by omega, hself, hother⟩
  have hslide := slide_spec hslides hstop
  have hend : ((base.length : Int) ≤ ↑(s + j) ∧ (child.length : Int) ≤ ↑(t + j)) ↔
      (base.length ≤ s + j ∧ child.length ≤ t + j) := by omega
  rw [advance, hfound, Option.bind_eq_bind, Option.bind_some, show (s : Int) - k = t by omega,
    hslide, Option.bind_eq_bind, Option.bind_some]
  dsimp only
  rw [hset, decide_eq_decide.mpr hend]
  rfl

/-- The diagonals of a round from `k` on fill the row, unless one reaches the end. -/
theorem diagonals_spec (hmax : max = base.length + child.length) (hsize : 0 < max)
    (hprev : ∀ e, d = e + 1 → Frontier base child max e prev)
    (hfirst : d = 0 → prev = newRow max) (hlow : -d ≤ k) (hd : (d : Int) ≤ max)
    (hparity : (k + d) % 2 = 0) (hcurr : (curr.length : Int) = 2 * max + 2)
    (hfilled : Filled base child max d k curr) :
    ∃ curr' done, diagonals base child prev max d k curr = some (curr', done) ∧
      (done = false → Frontier base child max d curr') ∧
      (done = true → ∃ x y, Furthest base child d x y ∧ base.length ≤ x ∧ child.length ≤ y) := by
  -- by the number of diagonals that are left
  obtain ⟨left, hleft⟩ : ∃ left : Nat, d + 1 - k ≤ left := ⟨_, Int.self_le_toNat _⟩
  induction left generalizing k curr with
  | zero =>
      refine ⟨curr, false, by rw [diagonals, if_neg (by omega)]; rfl, fun _ => ⟨hcurr, ?_⟩, nofun⟩
      exact fun k' hk' _ hpar => hfilled k' hk' (by omega) hpar
  | succ left ih =>
      rw [diagonals]
      split
      · rename_i hhigh
        obtain ⟨x, y, curr', hdiagonal, hfurthest, hadvance, hlength, hself, hother⟩ :=
          advance_spec hmax hsize hprev hfirst hlow hhigh hd hparity hcurr
        rw [hadvance, Option.bind_eq_bind, Option.bind_some]
        by_cases hend : base.length ≤ x ∧ child.length ≤ y
        · refine ⟨curr', true, by simp [hend], nofun, fun _ => ⟨x, y, hfurthest, hend⟩⟩
        · rw [decide_eq_false hend]
          have hnext : Filled base child max d (k + 2) curr' := by
            intro k' hk' hupper hpar
            rcases eq_or_ne k' k with rfl | hne
            · exact ⟨x, y, hdiagonal, hself, hfurthest, hend⟩
            · obtain ⟨x', y', hdiagonal', hcell, hrest⟩ := hfilled k' hk' (by omega) hpar
              exact ⟨x', y', hdiagonal', (hother _ (by omega)).trans hcell, hrest⟩
          exact ih (by omega) (by omega) hlength hnext (by omega)
      · rename_i hhigh
        refine ⟨curr, false, rfl, fun _ => ⟨hcurr, ?_⟩, nofun⟩
        exact fun k' hk' _ hpar => hfilled k' hk' (by omega) hpar

/-- The rounds end with the first that leads to the end of both lists. -/
theorem rounds_spec (hmax : max = base.length + child.length) (hsize : 0 < max)
    {trace : List (List Int)} (htraced : Traced base child max d trace)
    (hlength : trace.length = d) :
    ∃ trace' e, rounds base child max d trace = some trace' ∧ trace'.length = e + 1 ∧
      Traced base child max e trace' ∧ Furthest base child e base.length child.length := by
  -- by the number of rounds that are left
  obtain ⟨left, hleft⟩ : ∃ left : Nat, max + 1 - d ≤ left := ⟨_, Int.self_le_toNat _⟩
  have hd : (d : Int) ≤ max := by
    by_contra hover
    exact htraced.not_reach (by omega) (reach_all base child)
  induction left generalizing d trace with
  | zero => omega
  | succ left ih =>
      obtain ⟨prev, hprevious, hprev, hfirst, hrow⟩ := previous_spec htraced
      obtain ⟨curr, done, hdiagonals, hgoes, hends⟩ :=
        diagonals_spec hmax hsize hprev hfirst (Int.le_refl _) hd (by omega) (hrow hsize.le)
          (fun k' hlow hupper => absurd hlow (by omega))
      rw [rounds, if_pos hd, hprevious, Option.bind_eq_bind, Option.bind_some, hdiagonals,
        Option.bind_eq_bind, Option.bind_some]
      cases done with
      | true =>
          obtain ⟨x, y, hfurthest, hx, hy⟩ := hends rfl
          obtain ⟨e, hreach, hsum⟩ := hfurthest.reach.from_end hx hy
          have hnot : ¬ e < d := fun hlt => htraced.not_reach hlt hreach
          obtain rfl : x = base.length := by omega
          obtain rfl : y = child.length := by omega
          exact ⟨trace ++ [curr], d, rfl, by rw [List.length_append, hlength]; rfl,
            htraced.append hlength curr, hfurthest⟩
      | false =>
          have hnext := htraced.concat hlength (hgoes rfl)
          have hstep := ih hnext (by rw [List.length_append, hlength]; rfl) (by omega)
            (by
              by_contra hover
              exact hnext.not_reach (by omega) (reach_all base child))
          rwa [show ((d + 1 : Nat) : Int) = d + 1 by omega] at hstep

end Forward

section Backward

variable {base child : List Line} {max : Int} {trace : List (List Int)}

theorem descend_spec {prevX prevY : Int} {s t j : Nat} (hs : prevX ≤ s) (ht : prevY ≤ t)
    (hcorner : (s : Int) = prevX ∨ (t : Int) = prevY) (ops : List Op) :
    descend prevX prevY ↑(s + j) ↑(t + j) ops = (↑s, ↑t, slideOps s t j ++ ops) := by
  induction j generalizing ops with
  | zero =>
      rw [descend, if_neg (by omega)]
      rfl
  | succ j ih =>
      rw [descend, if_pos (by omega), slideOps_succ, List.append_assoc,
        show ((s + (j + 1) : Nat) : Int) - 1 = ↑(s + j) by omega,
        show ((t + (j + 1) : Nat) : Int) - 1 = ↑(t + j) by omega]
      exact ih _

theorem walkBack_step {d : Nat} {x y x' y' prevX : Int} {prev : List Int} {down : Bool}
    {ops ops' : List Op} (hgoes : 0 < x ∨ 0 < y) (hprevious : previous max trace d = some prev)
    (hdown : movesDown prev max d (x - y) = some down)
    (hcell : itemAt prev ((if down then x - y + 1 else x - y - 1) + max) = some prevX)
    (hdescend : descend prevX (prevX - if down then x - y + 1 else x - y - 1) x y ops =
      (x', y', ops')) :
    walkBack max trace (d + 1) x y ops =
      if 0 < d then
        if x' = prevX then walkBack max trace d x' (y' - 1) (.insert (y' - 1) :: ops')
        else walkBack max trace d (x' - 1) y' (.delete (x' - 1) :: ops')
      else walkBack max trace d x' y' ops' := by
  rw [walkBack, if_pos hgoes]
  simp only [hprevious, hdown, hcell, hdescend, Option.bind_eq_bind, Option.bind_some]

/-- The way back from a furthest point is a path that leads there. -/
theorem walkBack_spec (hsize : 0 < max) {d x y : Nat} (htraced : Traced base child max d trace)
    (hfurthest : Furthest base child d x y) :
    ∃ path, Path base child d x y path ∧ DeletesFirst path ∧
      ∀ ops, walkBack max trace (d + 1) x y ops = some (path ++ ops) := by
  induction d generalizing x y with
  | zero =>
      obtain ⟨s, t, j, ⟨rfl, rfl⟩, rfl, rfl, hslides⟩ := hfurthest.reach.entry
      refine ⟨slideOps 0 0 j, Path.start.slide hslides,
        DeletesFirst.slide List.isChain_nil 0 0 j, ?_⟩
      intro ops
      rcases Nat.eq_zero_or_pos j with rfl | hj
      · rfl
      have hdiagonal : ((0 + j : Nat) : Int) - ((0 + j : Nat) : Int) = 0 := Int.sub_self _
      rw [walkBack_step (by omega) (if_pos rfl) (by rw [hdiagonal]; exact if_pos rfl)
        (by rw [hdiagonal]; exact itemAt_newRow (by omega) (by omega))
        (descend_spec (by omega) (by rw [hdiagonal]; decide) (Or.inl rfl) ops)]
      rfl
  | succ d ih =>
      have hpositive : d + 1 ≤ x + y := hfurthest.reach.elim fun _ hpath => hpath.edits_le
      obtain ⟨prev, hprevious, hprev, -, -⟩ := previous_spec htraced
      have hdiagonal := hfurthest.reach.diagonal
      have hbefore : Traced base child max d trace := fun e he => htraced e (by omega)
      rcases movesDown_spec (k := (x : Int) - y) (hprev d rfl) (by omega) (by omega) (by omega) with
        ⟨hdown, p, q, hpq, hcell, hfrom, hle⟩ | ⟨hdown, p, q, hpq, hcell, hfrom, hle, hright⟩
      · obtain ⟨path, hpath, hfirst, hwalk⟩ := ih hbefore hfrom
        obtain ⟨j, hslides, hstop⟩ := exists_slides base child p (q + 1)
        have hentry : Entry base child (d + 1) p (q + 1) := Or.inr ⟨q, rfl, hfrom.reach⟩
        obtain ⟨rfl, rfl⟩ := hfurthest.ext
          (Furthest.of_entry hentry (fun s t h hst => hle s t h (by omega)) hslides hstop) (by omega)
        refine ⟨path ++ [.insert q] ++ slideOps p (q + 1) j, hpath.insert.slide hslides,
          (hfirst.insert q).slide p (q + 1) j, ?_⟩
        intro ops
        rw [walkBack_step (by omega) hprevious hdown hcell
          (descend_spec (by omega) (by rw [if_pos rfl]; omega) (Or.inl rfl) ops),
          if_pos (Nat.succ_pos d), if_pos rfl, show ((q + 1 : Nat) : Int) - 1 = q by omega, hwalk]
        simp
      · obtain ⟨path, hpath, hfirst, hwalk⟩ := ih hbefore hfrom
        obtain ⟨j, hslides, hstop⟩ := exists_slides base child (p + 1) q
        have hentry : Entry base child (d + 1) (p + 1) q := Or.inl ⟨p, rfl, hfrom.reach⟩
        obtain ⟨rfl, rfl⟩ := hfurthest.ext
          (Furthest.of_entry hentry (fun s t h hst => hle s t h (by omega)) hslides hstop) (by omega)
        -- an insertion right before would have led as far after the deletion
        have hlast : ∀ last ∈ path.getLast?, ¬ last.isInsert = true := by
          intro last hlast hinsert
          obtain ⟨e, y', rfl, rfl, hreach⟩ := hpath.of_last_insert hlast hinsert
          have hbound := hright (p + 1) y' hreach.delete (by omega)
          omega
        refine ⟨path ++ [.delete p] ++ slideOps (p + 1) q j, hpath.delete.slide hslides,
          (hfirst.concat fun _ => hlast).slide (p + 1) q j, ?_⟩
        intro ops
        rw [walkBack_step (by omega) hprevious hdown hcell
          (descend_spec (by omega) (by rw [if_neg Bool.false_ne_true]; omega)
            (Or.inr (by rw [if_neg Bool.false_ne_true]; omega)) ops),
          if_pos (Nat.succ_pos d), if_neg (by omega), show ((p + 1 : Nat) : Int) - 1 = p by omega,
          hwalk]
        simp

end Backward

/-- The algorithm returns a path with the fewest edits. -/
theorem myersScript_spec [DecidableEq Line] (base child : List Line) :
    ∃ d ops, myersScript base child = some ops ∧
      Path base child d base.length child.length ops ∧
      (∀ e < d, ¬ Reach base child e base.length child.length) ∧ DeletesFirst ops := by
  unfold myersScript
  split
  · rename_i h
    rw [h.1, h.2]
    exact ⟨0, [], rfl, .start, fun e he => absurd he (Nat.not_lt_zero e), List.isChain_nil⟩
  · have hnone : Traced base child (base.length + child.length) 0 [] :=
      fun e he => absurd he (Nat.not_lt_zero e)
    obtain ⟨trace, d, hrounds, hlength, htraced, hfurthest⟩ :=
      rounds_spec rfl (by omega) hnone rfl
    obtain ⟨ops, hpath, hfirst, hwalk⟩ := walkBack_spec (by omega) htraced hfurthest
    refine ⟨d, ops, ?_, hpath, fun e he => htraced.not_reach he, hfirst⟩
    have hstart : rounds base child (base.length + child.length) 0 [] = some trace := hrounds
    dsimp only
    rw [hstart, Option.bind_eq_bind, Option.bind_some, hlength, hwalk, List.append_nil]

/-- What an operation of the merge dialog's diff is. -/
inductive OpKind
  | equal
  | insert
  | delete
deriving DecidableEq

/-- An operation of the merge dialog's diff. -/
structure DiffOp where
  kind : OpKind
  baseIdx : Int
  childIdx : Int
deriving DecidableEq

/-- What `conflictDetection.ts` pushes for an operation. -/
def DiffOp.ofOp : Op → DiffOp
  | .equal i j => ⟨.equal, i, j⟩
  | .insert j => ⟨.insert, -1, j⟩
  | .delete i => ⟨.delete, i, -1⟩

/-- The indices of an operation that are valid for its kind. -/
def DiffOp.op (op : DiffOp) : Op :=
  match op.kind with
  | .equal => .equal op.baseIdx op.childIdx
  | .insert => .insert op.childIdx
  | .delete => .delete op.baseIdx

/-- `myersDiff` of `conflictDetection.ts`. -/
def ConflictDetection.myersDiff [DecidableEq Line] (base child : List Line) :
    Option (List DiffOp) :=
  (myersScript base child).map (List.map DiffOp.ofOp)

/-- `myersDiff` of `manualEditOverlay.ts`. It also keeps the row at hand in an
array `v` that nothing reads. -/
def ManualEditOverlay.myersDiff [DecidableEq Line] (base cur : List Line) : Option (List Op) :=
  myersScript base cur

@[simp] theorem DiffOp.op_ofOp (op : Op) : (DiffOp.ofOp op).op = op := by
  cases op <;> rfl

/-- Both copies return a minimal edit script, whatever the lines. -/
theorem myersDiff_minimal [DecidableEq Line] (base child : List Line) :
    (∃ ops, ConflictDetection.myersDiff base child = some ops ∧
      IsMinimalScript base child (ops.map DiffOp.op)) ∧
    ∃ ops, ManualEditOverlay.myersDiff base child = some ops ∧
      IsMinimalScript base child ops := by
  obtain ⟨d, ops, hscript, hpath, hmin, -⟩ := myersScript_spec base child
  have hminimal := hpath.isMinimalScript hmin
  refine ⟨⟨ops.map DiffOp.ofOp, ?_, ?_⟩, ops, hscript, hminimal⟩
  · rw [ConflictDetection.myersDiff, hscript]
    rfl
  · have hviews : DiffOp.op ∘ DiffOp.ofOp = id := funext DiffOp.op_ofOp
    rwa [List.map_map, hviews, List.map_id]

end C2c.Studio.MyersDiff
