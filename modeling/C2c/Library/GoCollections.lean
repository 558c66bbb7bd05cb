import Mathlib.Data.List.Dedup
import Mathlib.Data.List.Nodup
import Mathlib.Data.List.Sort

/-!
Go's maps, which are visited in no given order, `sort.Slice`, and lists that
take one value of each key.
-/

namespace C2c.Library.GoCollections

section Maps

/-- The order in which a `range` visits the entries of a map. -/
structure Iteration where
  visit : {A : Type} → List A → List A
  perm : ∀ {A : Type} (l : List A), (visit l).Perm l

/-- Values by their keys, each key with its values in their order. -/
def groups {A K : Type} [DecidableEq K] (key : A → K) (l : List A) : List (K × List A) :=
  (l.map key).dedup.map fun k => (k, l.filter fun a => key a = k)

theorem mem_groups {A K : Type} [DecidableEq K] {key : A → K} {l : List A} {g : K × List A} :
    g ∈ groups key l ↔ ∃ a ∈ l, g = (key a, l.filter fun b => key b = key a) := by
  unfold groups
  constructor
  · intro h
    obtain ⟨k, hk, rfl⟩ := List.mem_map.mp h
    obtain ⟨a, ha, rfl⟩ := List.mem_map.mp (List.mem_dedup.mp hk)
    exact ⟨a, ha, rfl⟩
  · rintro ⟨a, ha, rfl⟩
    exact List.mem_map_of_mem (List.mem_dedup.mpr (List.mem_map_of_mem ha))

theorem Iteration.mem_visit (order : Iteration) {A : Type} {l : List A} {a : A} :
    a ∈ order.visit l ↔ a ∈ l :=
  (order.perm l).mem_iff

/-- The order of a list of the entries. -/
def Iteration.listed : Iteration where
  visit l := l
  perm l := .refl l

end Maps

section Sorting

/-- `sort.Slice` with the given `less`, which need not be stable. -/
structure SliceSort {A : Type} (less : A → A → Bool) where
  sort : List A → List A
  perm : ∀ l, (sort l).Perm l
  sorted : ∀ l, (sort l).Pairwise fun a b => less b a = false

variable {A : Type} {less : A → A → Bool} (order : SliceSort less)

theorem SliceSort.mem_sort {l : List A} {a : A} : a ∈ order.sort l ↔ a ∈ l :=
  (order.perm l).mem_iff

/-- Of two values of a list, one stands before the other. -/
theorem sublist_or_sublist {l : List A} {a b : A} (ha : a ∈ l) (hb : b ∈ l) (hne : a ≠ b) :
    [a, b].Sublist l ∨ [b, a].Sublist l := by
  induction l with
  | nil => cases ha
  | cons c l ih =>
      rcases List.mem_cons.mp ha with rfl | ha' <;> rcases List.mem_cons.mp hb with rfl | hb'
      · exact absurd rfl hne
      · exact .inl (List.cons_sublist_cons.mpr (List.singleton_sublist.mpr hb'))
      · exact .inr (List.cons_sublist_cons.mpr (List.singleton_sublist.mpr ha'))
      · exact (ih ha' hb').imp (·.cons c) (·.cons c)

/-- A smaller value is sorted before a greater one, and what is sorted before an
untied value is smaller. -/
theorem SliceSort.sublist_sort_iff {l : List A} {a b : A} (hne : a ≠ b)
    (htie : less a b = true ∨ less b a = true) :
    [a, b].Sublist (order.sort l) ↔ a ∈ l ∧ b ∈ l ∧ less a b = true := by
  constructor
  · intro h
    have hmem : ∀ c ∈ [a, b], c ∈ l := fun c hc => order.mem_sort.mp (h.subset hc)
    have hle := List.rel_of_pairwise_cons ((order.sorted l).sublist h) (List.mem_singleton_self b)
    refine ⟨hmem a (by simp), hmem b (by simp), htie.resolve_right ?_⟩
    rw [hle]
    exact Bool.false_ne_true
  · rintro ⟨ha, hb, hless⟩
    rcases sublist_or_sublist (order.mem_sort.mpr ha) (order.mem_sort.mpr hb) hne with h | h
    · exact h
    · have hle := List.rel_of_pairwise_cons ((order.sorted l).sublist h)
        (List.mem_singleton_self a)
      rw [hless] at hle
      cases hle

/-- Insertion, by which `sort.Slice` sorts up to twelve values. -/
def SliceSort.insertion (htotal : ∀ a b, less a b = false ∨ less b a = false)
    (htrans : ∀ a b c, less b a = false → less c b = false → less c a = false) :
    SliceSort less where
  sort l := l.insertionSort fun a b => less b a = false
  perm l := List.perm_insertionSort _ l
  sorted l := by
    have total : Std.Total fun a b => less b a = false := ⟨fun a b => (htotal b a)⟩
    have trans : IsTrans A fun a b => less b a = false := ⟨htrans⟩
    exact List.pairwise_insertionSort _ l

end Sorting

section Keys

variable {A K : Type} [DecidableEq K] (key : A → K)

/-- The values taken so far, and a further one if its key is new. -/
def takeNew (taken : List A) (a : A) : List A :=
  if key a ∈ taken.map key then taken else taken ++ [a]

/-- The values taken so far, and of each new key the first value. -/
def takeAllNew (taken l : List A) : List A :=
  l.foldl (takeNew key) taken

@[simp] theorem takeAllNew_nil (taken : List A) : takeAllNew key taken [] = taken :=
  rfl

@[simp] theorem takeAllNew_cons (taken : List A) (a : A) (l : List A) :
    takeAllNew key taken (a :: l) = takeAllNew key (takeNew key taken a) l :=
  rfl

theorem mem_keys_takeNew {taken : List A} {a : A} {k : K} :
    k ∈ (takeNew key taken a).map key ↔ k ∈ taken.map key ∨ k = key a := by
  unfold takeNew
  split
  · next h => exact ⟨.inl, fun hk => hk.elim id fun heq => heq ▸ h⟩
  · rw [List.map_append, List.mem_append, List.map_singleton, List.mem_singleton]

theorem mem_keys_takeAllNew {taken l : List A} {k : K} :
    k ∈ (takeAllNew key taken l).map key ↔ k ∈ taken.map key ∨ k ∈ l.map key := by
  induction l generalizing taken with
  | nil => simp
  | cons a l ih =>
      rw [takeAllNew_cons, ih, mem_keys_takeNew, List.map_cons, List.mem_cons, or_assoc]

theorem nodup_keys_takeNew {taken : List A} (h : (taken.map key).Nodup) (a : A) :
    ((takeNew key taken a).map key).Nodup := by
  unfold takeNew
  split
  · exact h
  · next hnew =>
      rw [List.map_append, List.map_singleton]
      exact h.append (List.nodup_singleton _) (by simpa using hnew)

theorem nodup_keys_takeAllNew {taken : List A} (h : (taken.map key).Nodup) (l : List A) :
    ((takeAllNew key taken l).map key).Nodup := by
  induction l generalizing taken with
  | nil => exact h
  | cons a l ih => exact ih (nodup_keys_takeNew key h a)

/-- What is taken in addition is some of the values, whose keys are new. -/
theorem takeAllNew_eq_append (taken l : List A) :
    ∃ more, takeAllNew key taken l = taken ++ more ∧ more.Sublist l ∧
      ∀ a ∈ more, key a ∉ taken.map key := by
  induction l generalizing taken with
  | nil => exact ⟨[], (List.append_nil _).symm, .slnil, nofun⟩
  | cons a l ih =>
      obtain ⟨more, hmore, hsub, hnew⟩ := ih (takeNew key taken a)
      rw [takeAllNew_cons, hmore]
      by_cases hknown : key a ∈ taken.map key
      · rw [takeNew, if_pos hknown] at hnew ⊢
        exact ⟨more, rfl, hsub.cons a, hnew⟩
      · rw [takeNew, if_neg hknown] at hnew ⊢
        refine ⟨a :: more, by simp, List.cons_sublist_cons.mpr hsub, ?_⟩
        intro b hb
        rcases List.mem_cons.mp hb with rfl | hb
        · exact hknown
        · intro hmem
          exact hnew b hb (by rw [List.map_append]; exact List.mem_append_left _ hmem)

theorem takeAllNew_of_known {taken l : List A} (h : ∀ a ∈ l, key a ∈ taken.map key) :
    takeAllNew key taken l = taken := by
  induction l with
  | nil => rfl
  | cons a l ih =>
      rw [takeAllNew_cons, takeNew, if_pos (h a List.mem_cons_self)]
      exact ih fun b hb => h b (List.mem_cons_of_mem _ hb)

end Keys

end C2c.Library.GoCollections
