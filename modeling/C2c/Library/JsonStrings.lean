import C2c.Library.GoJson

/-!
The strings a JSON value carries, and what a Go map of type `map[string]any` has
left of them: all of them if and only if no object repeats a name.
-/

namespace C2c.Library.JsonStrings

open C2c.Library.JavaText
open C2c.Library.JsonText
open C2c.Library.GoJson

mutual

/-- The strings of a value and the names of its members. -/
def strings : Json → List Text
  | .string t => [t]
  | .array items => stringsItems items
  | .object members => stringsMembers members
  | _ => []

def stringsItems : List Json → List Text
  | [] => []
  | item :: items => strings item ++ stringsItems items

def stringsMembers : List (Text × Json) → List Text
  | [] => []
  | (name, value) :: members => name :: (strings value ++ stringsMembers members)

end

mutual

/-- No object of a value repeats a name. -/
def NamesOnce : Json → Prop
  | .array items => NamesOnceItems items
  | .object members => (members.map Prod.fst).Nodup ∧ NamesOnceMembers members
  | _ => True

def NamesOnceItems : List Json → Prop
  | [] => True
  | item :: items => NamesOnce item ∧ NamesOnceItems items

def NamesOnceMembers : List (Text × Json) → Prop
  | [] => True
  | (_, value) :: members => NamesOnce value ∧ NamesOnceMembers members

end

theorem mem_stringsMembers {t : Text} {members : List (Text × Json)} :
    t ∈ stringsMembers members ↔ ∃ m ∈ members, t = m.1 ∨ t ∈ strings m.2 := by
  induction members with
  | nil => simp [stringsMembers]
  | cons m members ih =>
      obtain ⟨name, value⟩ := m
      simp only [stringsMembers, List.mem_cons, List.mem_append, ih, exists_eq_or_imp, or_assoc]

theorem mem_names_put {name : Text} {value : Json} {entries : List (Text × Json)} {other : Text} :
    other ∈ (put name value entries).map Prod.fst ↔ other = name ∨ other ∈ entries.map Prod.fst := by
  induction entries with
  | nil => simp [put]
  | cons entry entries ih =>
      obtain ⟨first, w⟩ := entry
      rw [put]
      split_ifs with hlt heq
      · simp
      · simp [heq]
      · rw [List.map_cons, List.mem_cons, ih, List.map_cons, List.mem_cons, or_left_comm]

/-- A new entry adds its strings. -/
theorem strings_put {name : Text} (value : Json) {entries : List (Text × Json)}
    (h : name ∉ entries.map Prod.fst) : (stringsMembers (put name value entries)).Perm
      (name :: (strings value ++ stringsMembers entries)) := by
  induction entries with
  | nil => exact .refl _
  | cons entry entries ih =>
      obtain ⟨first, w⟩ := entry
      obtain ⟨hfirst, hrest⟩ := not_or.mp (List.mem_cons.not.mp h)
      rw [put]
      split_ifs
      · exact .refl _
      · have hih := ((ih hrest).append_left (first :: strings w))
        refine hih.trans ?_
        simp only [stringsMembers, List.perm_iff_count, List.count_cons, List.count_append,
          List.cons_append]
        intro t
        omega

theorem length_put_le (name : Text) (value : Json) (entries : List (Text × Json)) :
    (stringsMembers (put name value entries)).length ≤
      1 + (strings value).length + (stringsMembers entries).length := by
  induction entries with
  | nil => simp [put, stringsMembers, Nat.add_comm]
  | cons entry entries ih =>
      obtain ⟨first, w⟩ := entry
      rw [put]
      split_ifs <;> simp only [stringsMembers, List.length_cons, List.length_append] at ih ⊢ <;>
        omega

/-- An entry that is replaced loses its strings. -/
theorem length_put_lt {name : Text} (value : Json) {entries : List (Text × Json)}
    (hsorted : Sorted entries) (h : name ∈ entries.map Prod.fst) :
    (stringsMembers (put name value entries)).length <
      1 + (strings value).length + (stringsMembers entries).length := by
  induction entries with
  | nil => cases h
  | cons entry entries ih =>
      obtain ⟨first, w⟩ := entry
      obtain ⟨hfirst, hrest⟩ := List.pairwise_cons.mp hsorted
      rw [put]
      split_ifs with hlt heq
      · rcases List.mem_cons.mp h with hname | hmem
        · exact absurd hlt (hname ▸ lt_irrefl _)
        · exact absurd (hlt.trans (hfirst _ hmem)) (lt_irrefl _)
      · simp only [stringsMembers, List.length_cons, List.length_append]
        omega
      · have hmem := (List.mem_cons.mp h).resolve_left heq
        have := ih hrest hmem
        simp only [stringsMembers, List.length_cons, List.length_append]
        omega

mutual

theorem length_toAny_le : ∀ v : Json, (strings (toAny v)).length ≤ (strings v).length
  | .null | .bool _ | .number _ | .string _ => Nat.le_refl _
  | .array items => length_toAnyItems_le items
  | .object members => length_toAnyMembers_le members []

theorem length_toAnyItems_le : ∀ items : List Json,
    (stringsItems (toAnyItems items)).length ≤ (stringsItems items).length
  | [] => Nat.le_refl _
  | item :: items => by
      have hitem := length_toAny_le item
      have hitems := length_toAnyItems_le items
      simp only [toAnyItems, stringsItems, List.length_append]
      omega

theorem length_toAnyMembers_le : ∀ members entries : List (Text × Json),
    (stringsMembers (toAnyMembers members entries)).length ≤
      (stringsMembers members).length + (stringsMembers entries).length
  | [], entries => by simp [toAnyMembers, stringsMembers]
  | (name, value) :: members, entries => by
      have hvalue := length_toAny_le value
      have hput := length_put_le name (toAny value) entries
      have hmembers := length_toAnyMembers_le members (put name (toAny value) entries)
      simp only [toAnyMembers, stringsMembers, List.length_cons, List.length_append]
      omega

end

mutual

/-- A value that keeps the number of its strings repeats no name. -/
theorem namesOnce_of_length : ∀ v : Json, (strings v).length ≤ (strings (toAny v)).length →
    NamesOnce v
  | .null, _ | .bool _, _ | .number _, _ | .string _, _ => trivial
  | .array items, h => namesOnceItems_of_length items h
  | .object members, h => by
      obtain ⟨hnodup, _, honce⟩ := namesOnceMembers_of_length members [] List.Pairwise.nil h
      exact ⟨hnodup, honce⟩

theorem namesOnceItems_of_length : ∀ items : List Json,
    (stringsItems items).length ≤ (stringsItems (toAnyItems items)).length → NamesOnceItems items
  | [], _ => trivial
  | item :: items, h => by
      have hitem := length_toAny_le item
      have hitems := length_toAnyItems_le items
      simp only [toAnyItems, stringsItems, List.length_append] at h
      exact ⟨namesOnce_of_length item (by omega), namesOnceItems_of_length items (by omega)⟩

theorem namesOnceMembers_of_length : ∀ members entries : List (Text × Json), Sorted entries →
    (stringsMembers members).length + (stringsMembers entries).length ≤
      (stringsMembers (toAnyMembers members entries)).length →
    (members.map Prod.fst).Nodup ∧ (∀ name ∈ members.map Prod.fst, name ∉ entries.map Prod.fst) ∧
      NamesOnceMembers members
  | [], _, _, _ => ⟨List.nodup_nil, nofun, trivial⟩
  | (name, value) :: members, entries, hsorted, h => by
      have hvalue := length_toAny_le value
      have hput := length_put_le name (toAny value) entries
      have hmembers := length_toAnyMembers_le members (put name (toAny value) entries)
      simp only [toAnyMembers, stringsMembers, List.length_cons, List.length_append] at h
      obtain ⟨hnodup, hapart, honce⟩ := namesOnceMembers_of_length members
        (put name (toAny value) entries) (sorted_put hsorted) (by omega)
      have hnew : name ∉ entries.map Prod.fst := by
        intro hmem
        have := length_put_lt (toAny value) hsorted hmem
        omega
      refine ⟨List.nodup_cons.mpr ⟨fun hmem => ?_, hnodup⟩, ?_,
        namesOnce_of_length value (by omega), honce⟩
      · exact hapart name hmem (mem_names_put.mpr (.inl rfl))
      · intro other hother
        rcases List.mem_cons.mp hother with rfl | hother
        · exact hnew
        · exact fun hmem => hapart other hother (mem_names_put.mpr (.inr hmem))

end

mutual

/-- A value that repeats no name keeps its strings. -/
theorem strings_toAny : ∀ v : Json, NamesOnce v → (strings (toAny v)).Perm (strings v)
  | .null, _ | .bool _, _ | .number _, _ | .string _, _ => .refl _
  | .array items, h => strings_toAnyItems items h
  | .object members, h => by
      have hperm := strings_toAnyMembers members [] h.1 nofun h.2
      rwa [stringsMembers, List.append_nil] at hperm

theorem strings_toAnyItems : ∀ items : List Json, NamesOnceItems items →
    (stringsItems (toAnyItems items)).Perm (stringsItems items)
  | [], _ => .refl _
  | item :: items, h => (strings_toAny item h.1).append (strings_toAnyItems items h.2)

theorem strings_toAnyMembers : ∀ members entries : List (Text × Json),
    (members.map Prod.fst).Nodup → (∀ name ∈ members.map Prod.fst, name ∉ entries.map Prod.fst) →
    NamesOnceMembers members → (stringsMembers (toAnyMembers members entries)).Perm
      (stringsMembers members ++ stringsMembers entries)
  | [], _, _, _, _ => .refl _
  | (name, value) :: members, entries, hnodup, hapart, h => by
      obtain ⟨hfirst, hnodup⟩ := List.nodup_cons.mp hnodup
      have hnew := hapart name List.mem_cons_self
      have hapart' : ∀ other ∈ members.map Prod.fst,
          other ∉ (put name (toAny value) entries).map Prod.fst := by
        intro other hother hmem
        rcases mem_names_put.mp hmem with rfl | hmem
        · exact hfirst hother
        · exact hapart other (List.mem_cons_of_mem _ hother) hmem
      have hmembers := strings_toAnyMembers members (put name (toAny value) entries) hnodup hapart' h.2
      have hput := strings_put (toAny value) hnew
      have hvalue := strings_toAny value h.1
      rw [toAnyMembers]
      refine hmembers.trans ((hput.append_left _).trans ?_)
      simp only [stringsMembers, List.perm_iff_count, List.count_cons, List.count_append,
        List.cons_append] at hvalue ⊢
      intro t
      have := hvalue t
      omega

end

/-- A map keeps the strings of a value if and only if no object of it repeats a
name. -/
theorem strings_perm_iff (v : Json) : (strings v).Perm (strings (toAny v)) ↔ NamesOnce v :=
  ⟨fun h => namesOnce_of_length v h.length_eq.le, fun h => (strings_toAny v h).symm⟩

end C2c.Library.JsonStrings
