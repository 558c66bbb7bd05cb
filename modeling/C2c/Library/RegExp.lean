import Mathlib.Data.List.TakeWhile
import Mathlib.Order.Nat

/-!
The regular expressions of JavaScript that have no back references and repeat
character classes only, over code units.
-/

namespace C2c.Library.RegExp

abbrev CodeUnits := List UInt16

instance : LawfulBEq CodeUnits := inferInstance

/-- An ASCII text. -/
def unitsOf (s : String) : CodeUnits :=
  s.toList.map fun c => UInt16.ofNat c.toNat

inductive Pattern
  | empty
  | set (p : UInt16 → Bool)
  | repeated (least : Nat) (most : Option Nat) (p : UInt16 → Bool)
  | boundary
  | start
  | seq (first second : Pattern)
  | alt (first second : Pattern)

section Classes

def isDigit (c : UInt16) : Bool :=
  48 ≤ c && c ≤ 57

def isUpper (c : UInt16) : Bool :=
  65 ≤ c && c ≤ 90

def isLower (c : UInt16) : Bool :=
  97 ≤ c && c ≤ 122

/-- `\w`. -/
def isWord (c : UInt16) : Bool :=
  isDigit c || isUpper c || isLower c || c == 95

/-- The class of the characters of a text. -/
def oneOf (s : String) (c : UInt16) : Bool :=
  (unitsOf s).contains c

/-- The flag `i`, for a letter of ASCII. -/
def foldCase (c : UInt16) : UInt16 :=
  if isUpper c then c + 32 else c

end Classes

section Patterns

def sequence (patterns : List Pattern) : Pattern :=
  patterns.foldr .seq .empty

def literal (word : CodeUnits) : Pattern :=
  sequence (word.map fun d => .set fun c => c == d)

/-- A literal of ASCII under the flag `i`. -/
def literalFolded (word : CodeUnits) : Pattern :=
  sequence (word.map fun d => .set fun c => foldCase c == foldCase d)

/-- `pattern?`. -/
def optional (pattern : Pattern) : Pattern :=
  .alt pattern .empty

end Patterns

section Matching

def atBoundary (text : CodeUnits) (i : Nat) : Bool :=
  (i != 0 && text[i - 1]?.any isWord) != text[i]?.any isWord

/-- The places a match that begins at `i` can end, in the order in which they
are tried. -/
def ends (text : CodeUnits) : Pattern → Nat → List Nat
  | .empty, i => [i]
  | .set p, i => if text[i]?.any p then [i + 1] else []
  | .repeated least most p, i =>
      let longest := ((text.drop i).takeWhile p).length
      ((List.range' least ((most.elim longest (min longest)) + 1 - least)).map (i + ·)).reverse
  | .boundary, i => if atBoundary text i then [i] else []
  | .start, i => if i = 0 then [i] else []
  | .seq first second, i => (ends text first i).flatMap (ends text second)
  | .alt first second, i => ends text first i ++ ends text second i

/-- `exec`, from `lastIndex` on: where the match begins and ends. -/
def exec (text : CodeUnits) (pattern : Pattern) (lastIndex : Nat) : Option (Nat × Nat) :=
  (List.range' lastIndex (text.length + 1 - lastIndex)).findSome? fun i =>
    (ends text pattern i).head?.map (i, ·)

/-- The matches of a global expression. -/
def matchesFrom (text : CodeUnits) (pattern : Pattern) : Nat → Nat → List (Nat × Nat)
  | 0, _ => []
  | fuel + 1, lastIndex =>
      match exec text pattern lastIndex with
      | none => []
      | some found => found :: matchesFrom text pattern fuel found.2

/-- The length a match has at least. -/
def minLength : Pattern → Nat
  | .empty | .boundary | .start => 0
  | .set _ => 1
  | .repeated least _ _ => least
  | .seq first second => minLength first + minLength second
  | .alt first second => min (minLength first) (minLength second)

theorem ends_bounds {text : CodeUnits} {pattern : Pattern} {i e : Nat} (hi : i ≤ text.length)
    (h : e ∈ ends text pattern i) : i + minLength pattern ≤ e ∧ e ≤ text.length := by
  induction pattern generalizing i e with
  | empty =>
      obtain rfl := List.mem_singleton.mp h
      exact ⟨Nat.le_refl _, hi⟩
  | set p =>
      rw [ends] at h
      split at h
      · rename_i hp
        obtain rfl := List.mem_singleton.mp h
        cases hc : text[i]? with
        | none =>
            rw [hc] at hp
            cases hp
        | some c => exact ⟨Nat.le_refl _, (List.getElem?_eq_some_iff.mp hc).1⟩
      · cases h
  | repeated least most p =>
      rw [ends, List.mem_reverse] at h
      obtain ⟨n, hn, rfl⟩ := List.mem_map.mp h
      have hn := List.mem_range'_1.mp hn
      have hrun : ((text.drop i).takeWhile p).length ≤ text.length - i :=
        (List.takeWhile_sublist p).length_le.trans_eq List.length_drop
      have hmost : (most.elim ((text.drop i).takeWhile p).length
          (min ((text.drop i).takeWhile p).length)) ≤ ((text.drop i).takeWhile p).length := by
        cases most with
        | none => exact Nat.le_refl _
        | some most => exact Nat.min_le_left _ _
      rw [minLength]
      omega
  | boundary =>
      rw [ends] at h
      split at h
      · obtain rfl := List.mem_singleton.mp h
        exact ⟨Nat.le_refl _, hi⟩
      · cases h
  | start =>
      rw [ends] at h
      split at h
      · obtain rfl := List.mem_singleton.mp h
        exact ⟨Nat.le_refl _, hi⟩
      · cases h
  | seq first second ihFirst ihSecond =>
      rw [ends] at h
      obtain ⟨middle, hfirst, hsecond⟩ := List.mem_flatMap.mp h
      obtain ⟨hmin, hmiddle⟩ := ihFirst hi hfirst
      obtain ⟨hmin', he⟩ := ihSecond hmiddle hsecond
      rw [minLength]
      exact ⟨by omega, he⟩
  | alt first second ihFirst ihSecond =>
      rw [ends] at h
      rw [minLength]
      rcases List.mem_append.mp h with h | h
      · obtain ⟨hmin, he⟩ := ihFirst hi h
        exact ⟨by omega, he⟩
      · obtain ⟨hmin, he⟩ := ihSecond hi h
        exact ⟨by omega, he⟩

theorem exec_bounds {text : CodeUnits} {pattern : Pattern} {lastIndex : Nat} {found : Nat × Nat}
    (h : exec text pattern lastIndex = some found) :
    lastIndex ≤ found.1 ∧ found.1 + minLength pattern ≤ found.2 ∧ found.2 ≤ text.length := by
  obtain ⟨i, hi, hfound⟩ := List.exists_of_findSome?_eq_some h
  obtain ⟨e, he, rfl⟩ := Option.map_eq_some_iff.mp hfound
  have hi := List.mem_range'_1.mp hi
  have hbounds := ends_bounds (by omega) (List.mem_of_mem_head? he)
  exact ⟨hi.1, hbounds⟩

theorem matchesFrom_bounds {text : CodeUnits} {pattern : Pattern} {fuel lastIndex : Nat}
    {found : Nat × Nat} (h : found ∈ matchesFrom text pattern fuel lastIndex) :
    found.1 + minLength pattern ≤ found.2 ∧ found.2 ≤ text.length := by
  induction fuel generalizing lastIndex with
  | zero => cases h
  | succ fuel ih =>
      rw [matchesFrom] at h
      split at h
      · cases h
      · rename_i first hfirst
        rcases List.mem_cons.mp h with rfl | h
        · exact (exec_bounds hfirst).2
        · exact ih h

/-- When no match is empty, the loop has ended before its fuel has. -/
theorem matchesFrom_fuel {text : CodeUnits} {pattern : Pattern} (hpattern : 0 < minLength pattern)
    {fuel lastIndex : Nat} (hfuel : text.length < fuel + lastIndex) :
    matchesFrom text pattern fuel lastIndex = matchesFrom text pattern (fuel + 1) lastIndex := by
  induction fuel generalizing lastIndex with
  | zero =>
      have hnone : exec text pattern lastIndex = none := by
        cases hexec : exec text pattern lastIndex with
        | none => rfl
        | some found =>
            have := exec_bounds hexec
            omega
      rw [matchesFrom, matchesFrom, hnone]
  | succ fuel ih =>
      rw [matchesFrom, matchesFrom]
      cases hexec : exec text pattern lastIndex with
      | none => rfl
      | some found =>
          have hbounds := exec_bounds hexec
          exact congrArg (found :: ·) (ih (by omega))

end Matching

end C2c.Library.RegExp
