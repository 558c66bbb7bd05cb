import Mathlib.Data.List.DropRight

/-!
Lists without the elements of a class at their two ends.
-/

namespace C2c.Library.Trimming

variable {A : Type}

/-- What is left when the elements of a class are dropped at both ends. -/
def trimmed (p : A → Bool) (l : List A) : List A :=
  (l.dropWhile p).rdropWhile p

variable {p : A → Bool} {l : List A}

theorem mem_of_mem_trimmed {a : A} (h : a ∈ trimmed p l) : a ∈ l :=
  (List.dropWhile_suffix p).subset ((List.rdropWhile_prefix p _).subset h)

theorem length_trimmed_le (p : A → Bool) (l : List A) : (trimmed p l).length ≤ l.length :=
  Nat.le_trans (List.rdropWhile_prefix p _).length_le (List.dropWhile_suffix p).length_le

/-- A list that loses nothing is left as it is. -/
theorem trimmed_of_length (h : l.length ≤ (trimmed p l).length) : trimmed p l = l := by
  have hprefix := List.rdropWhile_prefix p (l := l.dropWhile p)
  have hsuffix := List.dropWhile_suffix (l := l) p
  have hdrop : l.dropWhile p = l :=
    hsuffix.eq_of_length (Nat.le_antisymm hsuffix.length_le (Nat.le_trans h hprefix.length_le))
  unfold trimmed at h ⊢
  rw [hdrop] at h hprefix ⊢
  exact hprefix.eq_of_length (Nat.le_antisymm hprefix.length_le h)

theorem head_trimmed {a : A} {rest : List A} (h : trimmed p l = a :: rest) : p a = false := by
  have hprefix := List.rdropWhile_prefix p (l := l.dropWhile p)
  change trimmed p l <+: l.dropWhile p at hprefix
  rw [h] at hprefix
  obtain ⟨more, hmore⟩ := hprefix
  have hne : l.dropWhile p ≠ [] := by
    rw [← hmore]
    exact List.cons_ne_nil _ _
  have hnot := List.head_dropWhile_not p hne
  simpa [← hmore] using hnot

/-- What is trimmed has nothing left to trim. -/
theorem trimmed_trimmed (p : A → Bool) (l : List A) : trimmed p (trimmed p l) = trimmed p l := by
  cases htrim : trimmed p l with
  | nil => rfl
  | cons a rest =>
      have htwice := List.rdropWhile_idempotent (p := p) (l.dropWhile p)
      change (trimmed p l).rdropWhile p = trimmed p l at htwice
      rw [htrim] at htwice
      rw [trimmed, List.dropWhile_cons_of_neg (by simp [head_trimmed htrim]), htwice]

/-- An element outside the class is never trimmed away. -/
theorem trimmed_ne_nil {a : A} (hmem : a ∈ l) (ha : p a = false) : trimmed p l ≠ [] := by
  intro hnil
  have hall := List.rdropWhile_eq_nil_iff.mp hnil
  have hne : l.dropWhile p ≠ [] := by
    intro hdrop
    have hp := List.dropWhile_eq_nil_iff.mp hdrop a hmem
    rw [ha] at hp
    exact absurd hp (by decide)
  have hhead := List.head_dropWhile_not p hne
  rw [hall _ (List.head_mem hne)] at hhead
  exact absurd hhead (by decide)

end C2c.Library.Trimming
