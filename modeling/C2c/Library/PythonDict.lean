import Mathlib.Data.List.Nodup

/-!
Dictionaries that keep the order in which their keys came first.
-/

namespace C2c.Library.PythonDict

variable {K V : Type} [DecidableEq K]

/-- `entries[key] = value`: a present key keeps its place. -/
def assign (key : K) (value : V) : List (K × V) → List (K × V)
  | [] => [(key, value)]
  | entry :: entries =>
      if entry.1 = key then (key, value) :: entries else entry :: assign key value entries

/-- Assignments one after the other. -/
def update (entries pairs : List (K × V)) : List (K × V) :=
  pairs.foldl (fun entries pair => assign pair.1 pair.2 entries) entries

theorem assign_of_notMem {key : K} (value : V) {entries : List (K × V)}
    (h : key ∉ entries.map Prod.fst) : assign key value entries = entries ++ [(key, value)] := by
  induction entries with
  | nil => rfl
  | cons entry entries ih =>
      rw [List.map_cons, List.mem_cons, not_or] at h
      rw [assign, if_neg (Ne.symm h.1), ih h.2, List.cons_append]

theorem keys_assign_of_mem {key : K} (value : V) {entries : List (K × V)}
    (h : key ∈ entries.map Prod.fst) :
    (assign key value entries).map Prod.fst = entries.map Prod.fst := by
  induction entries with
  | nil => exact absurd h List.not_mem_nil
  | cons entry entries ih =>
      by_cases hkey : entry.1 = key
      · rw [assign, if_pos hkey, List.map_cons, List.map_cons, hkey]
      · have hmem : key ∈ entries.map Prod.fst :=
          (List.mem_cons.mp h).resolve_left (Ne.symm hkey)
        rw [assign, if_neg hkey, List.map_cons, List.map_cons, ih hmem]

theorem length_assign_of_mem {key : K} (value : V) {entries : List (K × V)}
    (h : key ∈ entries.map Prod.fst) : (assign key value entries).length = entries.length := by
  rw [← List.length_map Prod.fst, keys_assign_of_mem value h, List.length_map]

theorem length_assign_le (key : K) (value : V) (entries : List (K × V)) :
    (assign key value entries).length ≤ entries.length + 1 := by
  by_cases h : key ∈ entries.map Prod.fst
  · rw [length_assign_of_mem value h]
    omega
  · have hlength := congrArg List.length (assign_of_notMem value h)
    rw [List.length_append, List.length_singleton] at hlength
    exact Nat.le_of_eq hlength

theorem nodup_keys_assign (key : K) (value : V) {entries : List (K × V)}
    (h : (entries.map Prod.fst).Nodup) : ((assign key value entries).map Prod.fst).Nodup := by
  by_cases hmem : key ∈ entries.map Prod.fst
  · rwa [keys_assign_of_mem value hmem]
  · rw [assign_of_notMem value hmem, List.map_append]
    exact h.append (List.nodup_singleton key) (by simpa using hmem)

theorem mem_assign {key : K} {value : V} {entries : List (K × V)} {entry : K × V}
    (h : entry ∈ assign key value entries) : entry = (key, value) ∨ entry ∈ entries := by
  induction entries with
  | nil => exact Or.inl (List.mem_singleton.mp h)
  | cons first entries ih =>
      rw [assign] at h
      split_ifs at h
      · exact (List.mem_cons.mp h).imp_right (List.mem_cons_of_mem _)
      · rcases List.mem_cons.mp h with rfl | h
        · exact Or.inr List.mem_cons_self
        · exact (ih h).imp_right (List.mem_cons_of_mem _)

theorem assign_assign (key : K) (first last : V) (entries : List (K × V)) :
    assign key last (assign key first entries) = assign key last entries := by
  induction entries with
  | nil => rw [assign, assign, assign, if_pos rfl]
  | cons entry entries ih =>
      rw [assign, assign]
      split_ifs with hkey
      · rw [assign, if_pos rfl]
      · rw [assign, if_neg hkey, ih]

section Eviction

variable {A : Type}

/-- The oldest entries make way until fewer are left than a cap. -/
def makeRoom (cap : Int) : List A → List A
  | [] => []
  | oldest :: rest =>
      if ((oldest :: rest).length : Int) ≥ cap then makeRoom cap rest else oldest :: rest

theorem makeRoom_eq_drop (cap : Int) (entries : List A) :
    makeRoom cap entries = entries.drop (entries.length + 1 - cap).toNat := by
  induction entries with
  | nil => exact List.drop_nil.symm
  | cons oldest rest ih =>
      rw [makeRoom]
      split_ifs with hfull
      · have hexcess : ((oldest :: rest).length + 1 - cap).toNat =
            (rest.length + 1 - cap).toNat + 1 := by
          rw [List.length_cons] at hfull ⊢
          omega
        rw [ih, hexcess, List.drop_succ_cons]
      · have hexcess : ((oldest :: rest).length + 1 - cap).toNat = 0 := by omega
        rw [hexcess, List.drop_zero]

end Eviction

section Lookups

variable [BEq K] [LawfulBEq K]

theorem lookup_cons (key : K) (entry : K × V) (entries : List (K × V)) :
    (entry :: entries).lookup key =
      if key = entry.1 then some entry.2 else entries.lookup key := by
  rw [List.lookup_cons]
  split_ifs with h
  · rw [beq_iff_eq.mpr h]
  · rw [beq_eq_false_iff_ne.mpr h]

theorem lookup_assign (key : K) (value : V) (entries : List (K × V)) (other : K) :
    (assign key value entries).lookup other =
      if other = key then some value else entries.lookup other := by
  induction entries with
  | nil => exact lookup_cons other (key, value) []
  | cons entry entries ih =>
      rw [assign, lookup_cons other entry]
      by_cases hkey : entry.1 = key
      · rw [if_pos hkey, lookup_cons, hkey]
        split_ifs <;> rfl
      · rw [if_neg hkey, lookup_cons, ih]
        split_ifs with h h' <;> first | rfl | exact absurd (h.symm.trans h') hkey

theorem lookup_of_mem {entries : List (K × V)} (h : (entries.map Prod.fst).Nodup) {entry : K × V}
    (hmem : entry ∈ entries) : entries.lookup entry.1 = some entry.2 := by
  induction entries with
  | nil => exact absurd hmem List.not_mem_nil
  | cons first entries ih =>
      rw [List.map_cons, List.nodup_cons] at h
      rw [lookup_cons]
      rcases List.mem_cons.mp hmem with rfl | hmem
      · exact if_pos rfl
      · have hne : entry.1 ≠ first.1 := fun heq => h.1 (heq ▸ List.mem_map_of_mem hmem)
        rw [if_neg hne, ih h.2 hmem]

theorem mem_of_lookup {entries : List (K × V)} {key : K} {value : V}
    (h : entries.lookup key = some value) : (key, value) ∈ entries := by
  induction entries with
  | nil => exact absurd h (by simp)
  | cons entry entries ih =>
      rw [lookup_cons] at h
      split_ifs at h with hkey
      · rw [hkey, ← Option.some.inj h]
        exact List.mem_cons_self
      · exact List.mem_cons_of_mem _ (ih h)

theorem lookup_of_sublist {entries kept : List (K × V)} (h : (entries.map Prod.fst).Nodup)
    (hkept : kept.Sublist entries) {key : K} (hkey : key ∈ kept.map Prod.fst) :
    kept.lookup key = entries.lookup key := by
  obtain ⟨entry, hentry, rfl⟩ := List.mem_map.mp hkey
  rw [lookup_of_mem (h.sublist (hkept.map _)) hentry, lookup_of_mem h (hkept.subset hentry)]

end Lookups

theorem update_cons (entries : List (K × V)) (pair : K × V) (pairs : List (K × V)) :
    update entries (pair :: pairs) = update (assign pair.1 pair.2 entries) pairs :=
  rfl

theorem nodup_keys_update {entries : List (K × V)} (h : (entries.map Prod.fst).Nodup)
    (pairs : List (K × V)) : ((update entries pairs).map Prod.fst).Nodup := by
  induction pairs generalizing entries with
  | nil => exact h
  | cons pair pairs ih => exact ih (nodup_keys_assign pair.1 pair.2 h)

theorem mem_update {entries pairs : List (K × V)} {entry : K × V}
    (h : entry ∈ update entries pairs) : entry ∈ entries ∨ entry ∈ pairs := by
  induction pairs generalizing entries with
  | nil => exact Or.inl h
  | cons pair pairs ih =>
      rcases ih h with hmem | hmem
      · rcases mem_assign hmem with rfl | hmem
        · exact Or.inr List.mem_cons_self
        · exact Or.inl hmem
      · exact Or.inr (List.mem_cons_of_mem _ hmem)

theorem length_update_le (entries pairs : List (K × V)) :
    (update entries pairs).length ≤ entries.length + pairs.length := by
  induction pairs generalizing entries with
  | nil => exact Nat.le_refl _
  | cons pair pairs ih =>
      have hrest := ih (assign pair.1 pair.2 entries)
      have hfirst := length_assign_le pair.1 pair.2 entries
      rw [update_cons, List.length_cons]
      omega

theorem length_le_assign (key : K) (value : V) (entries : List (K × V)) :
    entries.length ≤ (assign key value entries).length := by
  by_cases h : key ∈ entries.map Prod.fst
  · exact Nat.le_of_eq (length_assign_of_mem value h).symm
  · rw [assign_of_notMem value h, List.length_append]
    exact Nat.le_add_right _ _

theorem length_le_update (entries pairs : List (K × V)) :
    entries.length ≤ (update entries pairs).length := by
  induction pairs generalizing entries with
  | nil => exact Nat.le_refl _
  | cons pair pairs ih => exact Nat.le_trans (length_le_assign pair.1 pair.2 entries) (ih _)

theorem update_ne_nil {entries pairs : List (K × V)} (h : pairs ≠ []) :
    update entries pairs ≠ [] := by
  obtain ⟨pair, pairs, rfl⟩ := List.exists_cons_of_ne_nil h
  intro hnil
  have hassign : (assign pair.1 pair.2 entries).length ≤ 0 := by
    have hle := length_le_update (assign pair.1 pair.2 entries) pairs
    rwa [← update_cons, hnil] at hle
  cases entries with
  | nil => simp [assign] at hassign
  | cons entry entries =>
      have hle := length_le_assign pair.1 pair.2 (entry :: entries)
      rw [List.length_cons] at hle
      omega

/-- Keys that are all new are appended in their order. -/
theorem update_of_nodup {entries pairs : List (K × V)}
    (h : ((entries ++ pairs).map Prod.fst).Nodup) : update entries pairs = entries ++ pairs := by
  induction pairs generalizing entries with
  | nil => rw [List.append_nil]; rfl
  | cons pair pairs ih =>
      have hnew : pair.1 ∉ entries.map Prod.fst := by
        intro hmem
        rw [List.map_append] at h
        exact (List.nodup_append.mp h).2.2 _ hmem _ List.mem_cons_self rfl
      rw [update_cons, assign_of_notMem _ hnew, ih (by simpa using h)]
      simp

/-- No entry is lost only where no key came twice. -/
theorem nodup_of_length_update {entries pairs : List (K × V)}
    (hentries : (entries.map Prod.fst).Nodup)
    (h : (update entries pairs).length = entries.length + pairs.length) :
    ((entries ++ pairs).map Prod.fst).Nodup := by
  induction pairs generalizing entries with
  | nil => rwa [List.append_nil]
  | cons pair pairs ih =>
      have hrest := length_update_le (assign pair.1 pair.2 entries) pairs
      rw [update_cons, List.length_cons] at h
      by_cases hmem : pair.1 ∈ entries.map Prod.fst
      · rw [length_assign_of_mem _ hmem] at hrest
        omega
      · have happend := assign_of_notMem pair.2 hmem
        have hnodup := ih (nodup_keys_assign pair.1 pair.2 hentries)
          (by rw [h, happend, List.length_append, List.length_singleton]; omega)
        rw [happend] at hnodup
        simpa using hnodup

theorem update_nil_of_nodup {pairs : List (K × V)} (h : (pairs.map Prod.fst).Nodup) :
    update [] pairs = pairs := by
  rw [← List.nil_append pairs] at h
  exact update_of_nodup h

theorem length_update_nil_le (pairs : List (K × V)) : (update [] pairs).length ≤ pairs.length := by
  have hle := length_update_le [] pairs
  rwa [List.length_nil, Nat.zero_add] at hle

/-- A dictionary of as many entries as were assigned has just these. -/
theorem update_nil_of_length {pairs : List (K × V)} (h : pairs.length ≤ (update [] pairs).length) :
    update [] pairs = pairs := by
  apply update_nil_of_nodup
  have hlength : (update [] pairs).length = ([] : List (K × V)).length + pairs.length := by
    rw [List.length_nil, Nat.zero_add]
    exact Nat.le_antisymm (length_update_nil_le pairs) h
  exact nodup_of_length_update (by simp) hlength

end C2c.Library.PythonDict
