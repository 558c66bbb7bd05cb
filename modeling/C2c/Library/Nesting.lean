import Mathlib

/-!
Nesting by levels: an element that opens stays open until one of its level or an
outer one comes. The open elements, kept on a stack, are those a list has.
-/

namespace C2c.Library.Nesting

variable {A L : Type} [LinearOrder L] (level : A → L) (opens : A → Bool)

/-- The stack after one more element. -/
def push (stack : List A) (a : A) : List A :=
  stack.filter (level · < level a) ++ if opens a then [a] else []

/-- The elements of a list that are open at one behind it, outermost first. -/
def enclosers (b : A) : List A → List A
  | [] => []
  | a :: l => (if opens a && (l ++ [b]).all (level a < level ·) then [a] else []) ++ enclosers b l

/-- What is left of the stack at an element is what encloses it. -/
theorem filter_foldl_push (b : A) (l stack : List A) :
    (l.foldl (push level opens) stack).filter (level · < level b) =
      stack.filter (fun g => (l ++ [b]).all (level g < level ·)) ++ enclosers level opens b l := by
  induction l generalizing stack with
  | nil => simp [enclosers]
  | cons a l ih =>
      have hkept : (stack.filter (level · < level a)).filter
            (fun g => (l ++ [b]).all (level g < level ·)) =
          stack.filter fun g => (a :: l ++ [b]).all (level g < level ·) := by
        rw [List.filter_filter]
        refine List.filter_congr fun g _ => ?_
        rw [List.cons_append, List.all_cons, Bool.and_comm]
      rw [List.foldl_cons, ih, push, List.filter_append, hkept, List.append_assoc, enclosers]
      congr 1
      cases opens a with
      | false => rfl
      | true =>
          simp only [if_true, Bool.true_and, List.filter_singleton, cond_eq_ite]

theorem all_iff (a : A) (l : List A) :
    l.all (level a < level ·) = true ↔ ∀ c ∈ l, level a < level c := by
  simp only [List.all_eq_true, decide_eq_true_eq]

theorem enclosers_eq_nil {b : A} {l : List A} : enclosers level opens b l = [] ↔
    ∀ pre g mid, l = pre ++ g :: mid → opens g = true → ¬ ∀ c ∈ mid ++ [b], level g < level c := by
  induction l with
  | nil =>
      refine iff_of_true rfl fun pre g mid h => ?_
      simp at h
  | cons a l ih =>
      rw [enclosers, List.append_eq_nil_iff, ih]
      constructor
      · rintro ⟨hfirst, hrest⟩ pre g mid h hopens hinner
        cases pre with
        | nil =>
            cases h
            rw [hopens, (all_iff level a _).mpr hinner] at hfirst
            cases hfirst
        | cons _ pre =>
            cases h
            exact hrest pre g mid rfl hopens hinner
      · intro h
        refine ⟨?_, fun pre g mid hl => h (a :: pre) g mid (by rw [hl]; rfl)⟩
        cases hopens : opens a with
        | false => rfl
        | true =>
            rw [Bool.true_and, if_neg ((all_iff level a _).not.mpr (h [] a l rfl hopens))]

/-- The last of the elements that enclose one. -/
theorem getLast?_enclosers {b g : A} {l : List A} :
    (enclosers level opens b l).getLast? = some g ↔
      ∃ pre mid, l = pre ++ g :: mid ∧ opens g = true ∧ (∀ c ∈ mid ++ [b], level g < level c) ∧
        enclosers level opens b mid = [] := by
  induction l with
  | nil => simp [enclosers]
  | cons a l ih =>
      rw [enclosers]
      by_cases hinner : enclosers level opens b l = []
      · rw [hinner, List.append_nil]
        constructor
        · intro h
          split_ifs at h with hopen
          · cases h
            obtain ⟨hopens, hall⟩ := Bool.and_eq_true_iff.mp hopen
            exact ⟨[], l, rfl, hopens, (all_iff level a _).mp hall, hinner⟩
          · cases h
        · rintro ⟨pre, mid, h, hopens, hlevels, _⟩
          cases pre with
          | nil =>
              cases h
              rw [hopens, (all_iff level g _).mpr hlevels]
              rfl
          | cons _ pre =>
              cases h
              exact absurd hlevels ((enclosers_eq_nil level opens).mp hinner pre g mid rfl hopens)
      · rw [List.getLast?_append_of_ne_nil _ hinner, ih]
        constructor
        · rintro ⟨pre, mid, rfl, h⟩
          exact ⟨a :: pre, mid, rfl, h⟩
        · rintro ⟨pre, mid, h, hopens, hlevels, hnone⟩
          cases pre with
          | nil =>
              cases h
              exact absurd hnone hinner
          | cons _ pre =>
              cases h
              exact ⟨pre, mid, rfl, hopens, hlevels, hnone⟩

end C2c.Library.Nesting
