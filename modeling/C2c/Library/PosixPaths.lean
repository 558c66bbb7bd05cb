import C2c.Library.PythonText

/-!
Paths as their segments: splitting, joining, and one path in front of another.
-/

namespace C2c.Library.PosixPaths

open C2c.Library.JavaText
open C2c.Library.PythonText

theorem splitAtChar_eq_splitOn (c : Char) (t : Text) : splitAtChar c t = t.splitOn c := by
  induction t with
  | nil => rfl
  | cons d t ih =>
      rw [splitAtChar, List.splitOn_cons_eq_if_modifyHead, ih]
      by_cases h : d = c
      · rw [if_pos h, if_pos (beq_iff_eq.mpr h)]
      · rw [if_neg h, if_neg (by simpa using h)]
        cases htail : t.splitOn c with
        | nil => exact absurd htail (List.splitOn_ne_nil c t)
        | cons piece pieces => rfl

/-- A piece does not hold the separator, and nothing that the list does not. -/
theorem mem_splitOn {A : Type} [BEq A] [LawfulBEq A] {l piece : List A} {a : A}
    (h : piece ∈ l.splitOn a) : a ∉ piece ∧ ∀ b ∈ piece, b ∈ l := by
  induction l generalizing piece with
  | nil =>
      obtain rfl := List.mem_singleton.mp h
      exact ⟨List.not_mem_nil, fun _ => id⟩
  | cons b l ih =>
      rw [List.splitOn_cons_eq_if_modifyHead] at h
      split at h
      · rcases List.mem_cons.mp h with rfl | h
        · exact ⟨List.not_mem_nil, nofun⟩
        · exact ⟨(ih h).1, fun d hd => List.mem_cons_of_mem _ ((ih h).2 d hd)⟩
      · next hne =>
          cases htail : l.splitOn a with
          | nil => exact absurd htail (List.splitOn_ne_nil a l)
          | cons first rest =>
              rw [htail, List.modifyHead_cons] at h
              rw [htail] at ih
              rcases List.mem_cons.mp h with rfl | h
              · obtain ⟨hfirst, hmem⟩ := ih List.mem_cons_self
                refine ⟨?_, ?_⟩
                · rw [List.mem_cons, not_or]
                  exact ⟨fun heq => hne (beq_iff_eq.mpr heq.symm), hfirst⟩
                · intro d hd
                  exact (List.mem_cons.mp hd).elim (fun heq => heq ▸ List.mem_cons_self)
                    fun hd => List.mem_cons_of_mem _ (hmem d hd)
              · obtain ⟨hpiece, hmem⟩ := ih (List.mem_cons_of_mem _ h)
                exact ⟨hpiece, fun d hd => List.mem_cons_of_mem _ (hmem d hd)⟩

/-- A path of the given segments. -/
def pathText (segments : List Text) : Text :=
  joinWith ['/'] segments

theorem splitAtChar_pathText {segments : List Text} (h : ∀ s ∈ segments, '/' ∉ s)
    (hne : segments ≠ []) : splitAtChar '/' (pathText segments) = segments := by
  rw [splitAtChar_eq_splitOn]
  exact List.splitOn_intercalate '/' h hne

theorem pathText_splitAtChar (t : Text) : pathText (splitAtChar '/' t) = t := by
  rw [splitAtChar_eq_splitOn]
  exact List.intercalate_splitOn '/'

theorem pathText_cons {segments : List Text} (s : Text) (h : segments ≠ []) :
    pathText (s :: segments) = s ++ ['/'] ++ pathText segments :=
  List.intercalate_cons_of_ne_nil h

theorem pathText_append {front back : List Text} (hfront : front ≠ []) (hback : back ≠ []) :
    pathText (front ++ back) = pathText front ++ ['/'] ++ pathText back := by
  induction front with
  | nil => exact absurd rfl hfront
  | cons s front ih =>
      by_cases h : front = []
      · rw [h, List.singleton_append, pathText_cons s hback]
        simp [pathText, joinWith]
      · rw [List.cons_append, pathText_cons s (by simp [h]), ih h, pathText_cons s h]
        simp

/-- The segments `PurePosixPath` gives: none of them is empty or a dot. -/
def Plain (segments : List Text) : Prop :=
  ∀ s ∈ segments, s ≠ [] ∧ s ≠ ['.'] ∧ '/' ∉ s

theorem plain_pathParts (t : Text) : Plain (pathParts t) := by
  intro s hs
  rw [pathParts, splitAtChar_eq_splitOn, List.mem_filter] at hs
  simp only [Bool.and_eq_true, bne_iff_ne] at hs
  exact ⟨hs.2.1, hs.2.2, (mem_splitOn hs.1).1⟩

theorem mem_of_mem_pathParts {t s : Text} {c : Char} (hs : s ∈ pathParts t) (hc : c ∈ s) :
    c ∈ t := by
  rw [pathParts, splitAtChar_eq_splitOn] at hs
  exact (mem_splitOn (List.mem_of_mem_filter hs)).2 c hc

/-- Plain segments are found again in their path. -/
theorem pathParts_pathText {segments : List Text} (h : Plain segments) :
    pathParts (pathText segments) = segments := by
  by_cases hne : segments = []
  · rw [hne]
    rfl
  · rw [pathParts, splitAtChar_pathText (fun s hs => (h s hs).2.2) hne, List.filter_eq_self]
    intro s hs
    rw [Bool.and_eq_true, bne_iff_ne, bne_iff_ne]
    exact ⟨(h s hs).1, (h s hs).2.1⟩

theorem pathText_ne_nil {segments : List Text} (h : Plain segments) (hne : segments ≠ []) :
    pathText segments ≠ [] := by
  intro hnil
  have hsegments := pathParts_pathText h
  rw [hnil] at hsegments
  exact hne hsegments.symm

theorem mem_pathText {segments : List Text} {c : Char} (h : c ∈ pathText segments) :
    c = '/' ∨ ∃ s ∈ segments, c ∈ s := by
  induction segments with
  | nil => exact absurd h List.not_mem_nil
  | cons s segments ih =>
      by_cases hne : segments = []
      · rw [hne] at h
        exact Or.inr ⟨s, List.mem_cons_self, by simpa [pathText, joinWith] using h⟩
      · rw [pathText_cons s hne, List.mem_append, List.mem_append, List.mem_singleton] at h
        rcases h with (h | h) | h
        · exact Or.inr ⟨s, List.mem_cons_self, h⟩
        · exact Or.inl h
        · exact (ih h).imp_right fun ⟨s, hs, hc⟩ => ⟨s, List.mem_cons_of_mem _ hs, hc⟩

theorem infix_pathText {segments : List Text} {segment : Text} (h : segment ∈ segments) :
    segment <:+: pathText segments := by
  induction segments with
  | nil => cases h
  | cons first segments ih =>
      by_cases hne : segments = []
      · subst hne
        obtain rfl := List.mem_singleton.mp h
        simp [pathText, joinWith]
      · rw [pathText_cons first hne, List.append_assoc]
        rcases List.mem_cons.mp h with rfl | h
        · exact List.infix_append' [] _ _
        · exact (ih h).trans ((List.suffix_append _ _).trans (List.suffix_append _ _)).isInfix

theorem startsWith_pathText {segments : List Text} (h : Plain segments) :
    startsWith (pathText segments) ['/'] = false := by
  cases segments with
  | nil => rfl
  | cons s segments =>
      obtain ⟨hempty, -, hslash⟩ := h s List.mem_cons_self
      obtain ⟨c, s, rfl⟩ := List.exists_cons_of_ne_nil hempty
      have hc : '/' ≠ c := fun heq => hslash (heq ▸ List.mem_cons_self)
      have hfirst (t : Text) : startsWith (c :: t) ['/'] = false := by
        rw [startsWith, List.isPrefixOf, beq_false_of_ne hc, Bool.false_and]
      by_cases hne : segments = []
      · rw [hne, show pathText [c :: s] = c :: s by simp [pathText, joinWith], hfirst]
      · rw [pathText_cons _ hne, List.append_assoc, List.cons_append, hfirst]

/-- One path is a directory in front of another just where its segments are. -/
theorem directory_iff {front segments : List Text} (hfront : Plain front) (hne : front ≠ [])
    (hsegments : Plain segments) :
    (pathText front ++ ['/']) <+: pathText segments ↔ front <+: segments ∧ front ≠ segments := by
  constructor
  · rintro ⟨rest, hrest⟩
    have hsplit : pathParts (pathText segments) = pathParts (pathText front) ++ pathParts rest := by
      rw [← hrest, pathParts, splitAtChar_eq_splitOn, List.append_assoc, List.singleton_append,
        List.splitOn_append_cons_self, List.filter_append, ← splitAtChar_eq_splitOn,
        ← splitAtChar_eq_splitOn]
      rfl
    rw [pathParts_pathText hsegments, pathParts_pathText hfront] at hsplit
    refine ⟨⟨_, hsplit.symm⟩, ?_⟩
    rintro rfl
    have hlength := congrArg List.length hrest
    simp at hlength
  · rintro ⟨⟨back, rfl⟩, hback⟩
    have hback : back ≠ [] := fun h => hback (by rw [h, List.append_nil])
    rw [pathText_append hne hback]
    exact List.prefix_append _ _

theorem length_pathText_le {segments kept : List Text} (h : List.Sublist kept segments) :
    (pathText kept).length ≤ (pathText segments).length := by
  induction h with
  | slnil => exact Nat.le_refl _
  | @cons kept segments s h ih =>
      by_cases hne : segments = []
      · obtain rfl : kept = [] := by simpa [hne] using h
        exact Nat.zero_le _
      · rw [pathText_cons s hne, List.length_append]
        omega
  | @cons_cons kept segments s h ih =>
      by_cases hkept : kept = []
      · by_cases hne : segments = []
        · rw [hkept, hne]
        · rw [hkept, pathText_cons s hne]
          simp [pathText, joinWith]
      · have hne : segments ≠ [] := by
          rintro rfl
          exact hkept (List.sublist_nil.mp h)
        rw [pathText_cons s hkept, pathText_cons s hne]
        simp only [List.length_append]
        omega

theorem length_pathText_pathParts_le (t : Text) : (pathText (pathParts t)).length ≤ t.length := by
  have hkept : (pathParts t).Sublist (splitAtChar '/' t) := List.filter_sublist
  have hle := length_pathText_le hkept
  rwa [pathText_splitAtChar] at hle

end C2c.Library.PosixPaths
