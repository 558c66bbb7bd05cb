import C2c.TrustCases.BffCatalog
import C2c.TrustCases.OrchestratorCatalog

/-!
The two canonical texts of a value.  They differ in the order of names only,
which is the same for names of ASCII characters.
-/

namespace C2c.TrustCases.CanonicalTexts

open C2c.Library.JavaText hiding trim isTrimmed
open C2c.Library.JsonText
open C2c.Library.GoJson hiding member
open C2c.TrustCases.Documents
open C2c.TrustCases.BffCatalog
open C2c.TrustCases.OrchestratorCatalog

def IsAscii (t : Text) : Prop :=
  ∀ c ∈ t, c.toNat < 128

mutual

/-- The names of all objects of a value are ASCII. -/
def AsciiNames : Json → Prop
  | .array items => AsciiNamesItems items
  | .object members => AsciiNamesMembers members
  | _ => True

def AsciiNamesItems : List Json → Prop
  | [] => True
  | item :: items => AsciiNames item ∧ AsciiNamesItems items

def AsciiNamesMembers : List (Text × Json) → Prop
  | [] => True
  | (name, value) :: members => IsAscii name ∧ AsciiNames value ∧ AsciiNamesMembers members

end

theorem asciiNamesItems_iff (items : List Json) :
    AsciiNamesItems items ↔ ∀ item ∈ items, AsciiNames item := by
  induction items with
  | nil => simp [AsciiNamesItems]
  | cons item items ih => rw [AsciiNamesItems, ih, List.forall_mem_cons]

theorem asciiNamesMembers_iff (members : List (Text × Json)) :
    AsciiNamesMembers members ↔ ∀ m ∈ members, IsAscii m.1 ∧ AsciiNames m.2 := by
  induction members with
  | nil => simp [AsciiNamesMembers]
  | cons m members ih => rw [AsciiNamesMembers, ih, List.forall_mem_cons, and_assoc]

theorem codeUnits_ascii {t : Text} (h : IsAscii t) : codeUnits t = t.map Char.toNat := by
  induction t with
  | nil => rfl
  | cons c t ih =>
      have hc := h c List.mem_cons_self
      have hrest := ih fun d hd => h d (List.mem_cons_of_mem c hd)
      unfold codeUnits at hrest ⊢
      rw [List.flatMap_cons, hrest, if_pos (by omega), List.map_cons, List.singleton_append]

theorem map_toNat_lt_iff (s t : Text) : s.map Char.toNat < t.map Char.toNat ↔ s < t := by
  induction s generalizing t with
  | nil => cases t <;> simp
  | cons c s ih =>
      cases t with
      | nil => simp
      | cons d t =>
          rw [List.map_cons, List.map_cons, List.cons_lt_cons_iff, List.cons_lt_cons_iff, ih,
            Char.toNat_inj]
          exact Iff.rfl

/-- The order of `sort` and of `sort_keys`, on ASCII names. -/
theorem codeUnits_lt_iff {s t : Text} (hs : IsAscii s) (ht : IsAscii t) :
    codeUnits s < codeUnits t ↔ s < t := by
  rw [codeUnits_ascii hs, codeUnits_ascii ht, map_toNat_lt_iff]

theorem insertByUnits_eq_put {name : Text} (value : Json) (hname : IsAscii name)
    {members : List (Text × Json)} (h : ∀ m ∈ members, IsAscii m.1) :
    insertByUnits name value members = put name value members := by
  induction members with
  | nil => rfl
  | cons m members ih =>
      obtain ⟨other, w⟩ := m
      obtain ⟨hother, hrest⟩ := List.forall_mem_cons.mp h
      simp only [insertByUnits, put, codeUnits_lt_iff hname hother, ih hrest]

mutual

theorem canonicalize_eq_toAny : ∀ {v : Json}, AsciiNames v → canonicalize v = toAny v
  | .null, _ | .bool _, _ | .number _, _ | .string _, _ => rfl
  | .array items, h => congrArg Json.array (canonicalizeItems_eq_toAny h)
  | .object members, h =>
      congrArg Json.object (canonicalizeMembers_eq_toAny h fun _ hm => absurd hm List.not_mem_nil)

theorem canonicalizeItems_eq_toAny : ∀ {items : List Json}, AsciiNamesItems items →
    canonicalizeItems items = toAnyItems items
  | [], _ => rfl
  | item :: items, h => by
      rw [canonicalizeItems, toAnyItems, canonicalize_eq_toAny h.1, canonicalizeItems_eq_toAny h.2]

theorem canonicalizeMembers_eq_toAny : ∀ {members entries : List (Text × Json)},
    AsciiNamesMembers members → (∀ m ∈ entries, IsAscii m.1) →
    canonicalizeMembers members entries = toAnyMembers members entries
  | [], _, _, _ => rfl
  | (name, value) :: members, entries, h, hentries => by
      obtain ⟨hname, hvalue, hmembers⟩ := h
      rw [canonicalizeMembers, toAnyMembers, canonicalize_eq_toAny hvalue,
        insertByUnits_eq_put _ hname hentries]
      apply canonicalizeMembers_eq_toAny hmembers
      intro m hm
      rcases mem_put hm with rfl | hm
      · exact hname
      · exact hentries m hm

end

theorem find?_put (name : Text) (value : Json) (entries : List (Text × Json)) (other : Text) :
    (put name value entries).find? (fun m => m.1 == other) =
      if name = other then some (name, value) else entries.find? fun m => m.1 == other := by
  induction entries with
  | nil => by_cases h : name = other <;> simp [put, h]
  | cons m entries ih =>
      obtain ⟨next, w⟩ := m
      by_cases h : name = other
      · subst h
        rw [if_pos rfl] at ih ⊢
        rw [put]
        split_ifs with hlt heq
        · simp
        · simp
        · rw [List.find?_cons_of_neg (by simpa using Ne.symm heq), ih]
      · rw [if_neg h] at ih ⊢
        rw [put]
        split_ifs with hlt heq
        · rw [List.find?_cons_of_neg (by simpa using h)]
        · subst heq
          rw [List.find?_cons_of_neg (by simpa using h), List.find?_cons_of_neg (by simpa using h)]
        · rw [List.find?_cons, List.find?_cons, ih]

theorem find?_toAnyMembers {members : List (Text × Json)} (h : (members.map Prod.fst).Nodup)
    (entries : List (Text × Json)) (name : Text) :
    (toAnyMembers members entries).find? (fun m => m.1 == name) =
      ((members.find? fun m => m.1 == name).map fun m => (m.1, toAny m.2)).or
        (entries.find? fun m => m.1 == name) := by
  induction members generalizing entries with
  | nil => rfl
  | cons m members ih =>
      obtain ⟨first, value⟩ := m
      obtain ⟨hnot, hrest⟩ := List.nodup_cons.mp h
      rw [toAnyMembers, ih hrest, find?_put]
      by_cases hname : first = name
      · subst hname
        have hnone : members.find? (fun m => m.1 == first) = none := by
          rw [List.find?_eq_none]
          intro m hm heq
          have hmem := List.mem_map_of_mem (f := Prod.fst) hm
          exact hnot (eq_of_beq heq ▸ hmem)
        simp [hnone]
      · rw [if_neg hname, List.find?_cons_of_neg (by simpa using hname)]

/-- The members of a canonical object, when no name occurs twice. -/
theorem member_toAny {members : List (Text × Json)} (h : (members.map Prod.fst).Nodup)
    (name : String) :
    member (toAny (.object members)) name = (member (.object members) name).map toAny := by
  simp only [member, toAny, find?_toAnyMembers h, List.find?_nil, Option.or_none, Option.map_map]
  rfl

/-- The two services write a value alike when its names are ASCII. -/
theorem stringify_canonicalize {v : Json} (h : AsciiNames v) :
    stringify (canonicalize v) = canonicalJson v := by
  rw [stringify, canonicalJson, canonicalize_eq_toAny h]

theorem canonicalJson_injective {v w : Json} (h : canonicalJson v = canonicalJson w) :
    toAny v = toAny w :=
  write_injective h

theorem toUTF8_injective {s t : Text}
    (h : (String.ofList s).toUTF8 = (String.ofList t).toUTF8) : s = t :=
  String.ofList_injective (String.toByteArray_inj.mp h)

/-- Equal digests are digests of equal values. -/
theorem catalogHashOf_injective {sha : ByteArray → Text} (hsha : Function.Injective sha)
    {v w : Json} (h : catalogHashOf sha v = catalogHashOf sha w) : toAny v = toAny w :=
  canonicalJson_injective (toUTF8_injective (hsha h))

end C2c.TrustCases.CanonicalTexts
