import C2c.Library.GoText
import C2c.Library.GoTime
import C2c.Library.JsonText
import Mathlib.Data.Char
import Mathlib.Data.List.Lex
import Mathlib.Data.List.Nodup

/-!
Go's `encoding/json`: the texts of `json.Marshal`, the values of
`json.Unmarshal`, and the members of structs and maps. A `float64` is the
numeral that `Marshal` writes for it.
-/

namespace C2c.Library.GoJson

open C2c.Library.JavaText
open C2c.Library.GoTime
open C2c.Library.JsonText

def goSpelling : Escapes :=
  spellings ['<', '>', '&', Char.ofNat 0x2028, Char.ofNat 0x2029]

def marshal (v : Json) : Text :=
  write goSpelling v

/-- `maxNestingDepth`. -/
def maxNestingDepth : Nat :=
  10000

def unmarshal (t : Text) : Option Json :=
  (read t).filter fun v => depth v ≤ maxNestingDepth

theorem unmarshal_marshal (v : Json) :
    unmarshal (marshal v) = if depth v ≤ maxNestingDepth then some v else none := by
  rw [unmarshal, marshal, read_write, Option.filter_some]
  simp only [decide_eq_true_eq]

/-! Members of structs. -/

/-- `foldName`, on the characters that fold with a letter of ASCII. -/
def foldName (t : Text) : Text :=
  t.map fun c => if c.toNat = 0x17f then 's' else if c.toNat = 0x212a then 'k' else c.toLower

/-- The value read into the field of a struct: the last member of its name,
where `null` leaves the field as a missing member does. -/
def member (members : List (Text × Json)) (name : String) : Json :=
  match members.reverse.find? fun m => foldName m.1 == foldName name.toList with
  | some m => m.2
  | none => .null

/-- The members of a struct, less those that `omitempty` leaves out. -/
def present (table : List (String × Option Json)) : List (Text × Json) :=
  table.filterMap fun entry => entry.2.map fun value => (entry.1.toList, value)

/-- Struct fields are told apart by their folded names. -/
def namesDistinct (names : List String) : Bool :=
  decide (names.map fun name => foldName name.toList).Nodup

theorem member_of_mem {members : List (Text × Json)} {name : String} {value : Json}
    (hdistinct : (members.map fun m => foldName m.1).Nodup) (h : (name.toList, value) ∈ members) :
    member members name = value := by
  have hfound : members.reverse.find? (fun m => foldName m.1 == foldName name.toList) =
      some (name.toList, value) := by
    rw [List.find?_eq_some_iff_append]
    refine ⟨by simp, ?_⟩
    obtain ⟨before, after, rfl⟩ := List.append_of_mem h
    refine ⟨after.reverse, before.reverse, by simp, fun m hm => ?_⟩
    have hafter : m ∈ after := List.mem_reverse.mp hm
    rw [List.map_append, List.map_cons] at hdistinct
    have hne := (List.nodup_cons.mp (List.Nodup.of_append_right hdistinct)).1
    simp only [Bool.not_eq_eq_eq_not, Bool.not_true, beq_eq_false_iff_ne]
    intro heq
    exact hne (heq ▸ List.mem_map_of_mem hafter)
  rw [member, hfound]

theorem member_of_notMem {members : List (Text × Json)} {name : String}
    (h : ∀ m ∈ members, foldName m.1 ≠ foldName name.toList) : member members name = .null := by
  have hnone : members.reverse.find? (fun m => foldName m.1 == foldName name.toList) = none := by
    rw [List.find?_eq_none]
    intro m hm
    simpa using h m (List.mem_reverse.mp hm)
  rw [member, hnone]

theorem present_names_sublist (table : List (String × Option Json)) :
    ((present table).map fun m => foldName m.1).Sublist
      (table.map fun entry => foldName entry.1.toList) := by
  induction table with
  | nil => exact List.Sublist.refl _
  | cons entry table ih =>
      obtain ⟨name, value⟩ := entry
      cases value with
      | none => exact ih.cons _
      | some value => exact ih.cons_cons _

theorem member_present {table : List (String × Option Json)}
    (h : namesDistinct (table.map Prod.fst) = true) {name : String} {value : Option Json}
    (hentry : (name, value) ∈ table) : member (present table) name = value.getD .null := by
  have hdistinct : (table.map fun entry => foldName entry.1.toList).Nodup := by
    have hnames := of_decide_eq_true h
    rwa [List.map_map] at hnames
  cases value with
  | some value =>
      apply member_of_mem (hdistinct.sublist (present_names_sublist table))
      exact List.mem_filterMap.mpr ⟨_, hentry, rfl⟩
  | none =>
      apply member_of_notMem
      intro m hm heq
      obtain ⟨entry, hmem, hvalue⟩ := List.mem_filterMap.mp hm
      obtain ⟨found, hfound, rfl⟩ := Option.map_eq_some_iff.mp hvalue
      have hsame : entry = (name, none) := List.inj_on_of_nodup_map hdistinct hmem hentry heq
      rw [hsame] at hfound
      cases hfound

/-- The entry of a table. -/
def entry : List (String × Option Json) → String → Json
  | [], _ => .null
  | (other, value) :: table, name => if other = name then value.getD .null else entry table name

theorem entry_of_mem {table : List (String × Option Json)} {name : String}
    (h : name ∈ table.map Prod.fst) :
    ∃ value, (name, value) ∈ table ∧ entry table name = value.getD .null := by
  induction table with
  | nil => cases h
  | cons first table ih =>
      obtain ⟨other, value⟩ := first
      rw [entry]
      split
      · next heq =>
          subst heq
          exact ⟨value, List.mem_cons_self, rfl⟩
      · next hne =>
          rcases List.mem_cons.mp h with heq | h
          · exact absurd heq.symm hne
          · obtain ⟨found, hmem, hfound⟩ := ih h
            exact ⟨found, List.mem_cons_of_mem _ hmem, hfound⟩

/-- The members of a table are read as its entries. -/
theorem member_table {table : List (String × Option Json)}
    (h : namesDistinct (table.map Prod.fst) = true) {name : String}
    (hname : name ∈ table.map Prod.fst) : member (present table) name = entry table name := by
  obtain ⟨value, hmem, hvalue⟩ := entry_of_mem hname
  rw [member_present h hmem, hvalue]

/-! Fields of structs. -/

def textField (t : Text) : Option Json :=
  some (.string t)

/-- A `string` under `omitempty`. -/
def textOmitEmpty (t : Text) : Option Json :=
  if t = [] then none else some (.string t)

def readText : Json → Option Text
  | .null => some []
  | .string t => some t
  | _ => none

@[simp] theorem readText_textField (t : Text) : readText ((textField t).getD .null) = some t :=
  rfl

@[simp] theorem readText_textOmitEmpty (t : Text) :
    readText ((textOmitEmpty t).getD .null) = some t := by
  unfold textOmitEmpty
  split
  · next h => rw [h]; rfl
  · rfl

def boolField (b : Bool) : Option Json :=
  some (.bool b)

def readBool : Json → Option Bool
  | .null => some false
  | .bool b => some b
  | _ => none

@[simp] theorem readBool_boolField (b : Bool) : readBool ((boolField b).getD .null) = some b :=
  rfl

/-! Integers. -/

/-- Digits of a positive number do not start with a zero. -/
theorem natText_head {n : Nat} (h : 0 < n) : (natText n).head? ≠ some '0' := by
  rw [natText, Nat.toList_repr]
  induction n using Nat.strongRecOn with
  | ind n ih =>
      by_cases hten : n < 10
      · rw [Nat.toDigits_of_lt_base hten]
        have hdigit : ∀ n < 10, 0 < n → some n.digitChar ≠ some '0' := by decide
        exact hdigit n hten h
      · rw [Nat.toDigits_of_base_le (by decide) (by omega), List.head?_append_of_ne_nil _
          Nat.toDigits_ne_nil]
        exact ih (n / 10) (by omega) (by omega)

theorem isUnsigned_natText (n : Nat) : isUnsigned (natText n) = true := by
  have htake : (natText n).takeWhile isDigitAscii = natText n :=
    List.takeWhile_eq_self_iff.mpr (List.all_eq_true.mp (natText_all n))
  have hdrop : (natText n).dropWhile isDigitAscii = [] :=
    List.dropWhile_eq_nil_iff.mpr (List.all_eq_true.mp (natText_all n))
  have hstart : (natText n).length = 1 ∨ (natText n).head? ≠ some '0' := by
    rcases Nat.eq_zero_or_pos n with rfl | hpos
    · exact .inl rfl
    · exact .inr (natText_head hpos)
  simp [isUnsigned, htake, hdrop, natText_ne_nil, isFraction, isExponent]
  simpa using hstart

theorem isNumeral_intText (n : Int) : isNumeral (intText n) = true := by
  unfold intText
  split
  · exact isUnsigned_natText n.natAbs
  · have h := isUnsigned_natText n.natAbs
    unfold isNumeral
    split
    · next t heq => 
      have hminus : isDigitAscii '-' = true :=
        List.all_eq_true.mp (natText_all n.natAbs) '-' (heq ▸ List.mem_cons_self)
      exact absurd hminus (by decide)
    · exact h

theorem intText_all (n : Int) : (intText n).all isNumeralChar = true := by
  have hdigits : (natText n.natAbs).all isNumeralChar = true := by
    apply List.all_eq_true.mpr
    intro c hc
    rw [isNumeralChar, isDigitAscii_of_mem_natText hc, Bool.true_or]
  unfold intText
  split
  · rw [List.all_cons, hdigits]
    rfl
  · exact hdigits

def intNumeral (n : Int) : Numeral :=
  ⟨intText n, isNumeral_intText n, intText_all n⟩

/-- The integer a text spells without fraction and exponent. -/
def readInt : Text → Option Int
  | '-' :: t => if isDigits t then some (-(digitsValue t : Int)) else none
  | t => if isDigits t then some (digitsValue t) else none

theorem isDigits_natText (n : Nat) : isDigits (natText n) = true := by
  simp [isDigits, natText_ne_nil, natText_all]

theorem readInt_intText (n : Int) : readInt (intText n) = some n := by
  unfold intText
  split
  · rw [readInt, if_pos (isDigits_natText _), digitsValue_natText]
    congr 1
    omega
  · unfold readInt
    split
    · next t heq => 
      have hminus : isDigitAscii '-' = true :=
        List.all_eq_true.mp (natText_all n.natAbs) '-' (heq ▸ List.mem_cons_self)
      exact absurd hminus (by decide)
    · rw [if_pos (isDigits_natText _), digitsValue_natText]
      congr 1
      omega

def int64Json (n : Int64) : Json :=
  .number (intNumeral n.toInt)

def int64Field (n : Int64) : Option Json :=
  some (int64Json n)

/-- An `int64` under `omitempty`. -/
def int64OmitEmpty (n : Int64) : Option Json :=
  if n = 0 then none else some (int64Json n)

def readInt64 : Json → Option Int64
  | .null => some 0
  | .number numeral => do
      let n ← readInt numeral.text
      if -9223372036854775808 ≤ n ∧ n < 9223372036854775808 then some (Int64.ofInt n) else none
  | _ => none

theorem readInt64_json (n : Int64) : readInt64 (int64Json n) = some n := by
  have hlow := Int64.le_toInt n
  have hhigh := Int64.toInt_lt n
  simp only [readInt64, int64Json, intNumeral, readInt_intText, Option.bind_eq_bind,
    Option.bind_some]
  rw [if_pos ⟨by omega, by omega⟩, Int64.ofInt_toInt]

@[simp] theorem readInt64_int64Field (n : Int64) :
    readInt64 ((int64Field n).getD .null) = some n :=
  readInt64_json n

@[simp] theorem readInt64_int64OmitEmpty (n : Int64) :
    readInt64 ((int64OmitEmpty n).getD .null) = some n := by
  unfold int64OmitEmpty
  split
  · next h => rw [h]; rfl
  · exact readInt64_json n

/-- A `*int64`. -/
def int64Pointer (n : Option Int64) : Option Json :=
  n.map int64Json

def readInt64Pointer : Json → Option (Option Int64)
  | .null => some none
  | v => (readInt64 v).map some

@[simp] theorem readInt64Pointer_pointer (n : Option Int64) :
    readInt64Pointer ((int64Pointer n).getD .null) = some n := by
  cases n with
  | none => rfl
  | some n =>
      have h := readInt64_json n
      simp only [int64Pointer, Option.map_some, Option.getD_some, int64Json, readInt64Pointer] at h ⊢
      rw [h]
      rfl

/-! Floating-point numbers, times and string lists. -/

def zeroNumeral : Numeral :=
  intNumeral 0

def floatField (n : Numeral) : Option Json :=
  some (.number n)

def readFloat : Json → Option Numeral
  | .null => some zeroNumeral
  | .number n => some n
  | _ => none

@[simp] theorem readFloat_floatField (n : Numeral) : readFloat ((floatField n).getD .null) = some n :=
  rfl

def timeField (t : Time) : Option Json :=
  t.marshal.map .string

def readTime : Json → Option Time
  | .null => some .zero
  | .string t => parse t
  | _ => none

theorem readTime_timeField {t : Time} {v : Json} (h : timeField t = some v) :
    readTime v = some t := by
  obtain ⟨text, htext, rfl⟩ := Option.map_eq_some_iff.mp h
  exact parse_marshal htext

/-- A `[]string` under `omitempty`. -/
def textsOmitEmpty (ts : List Text) : Option Json :=
  if ts = [] then none else some (.array (ts.map .string))

def readTexts : Json → Option (List Text)
  | .null => some []
  | .array items => items.mapM readText
  | _ => none

@[simp] theorem readTexts_textsOmitEmpty (ts : List Text) :
    readTexts ((textsOmitEmpty ts).getD .null) = some ts := by
  have hitems : (ts.map Json.string).mapM readText = some ts := by
    induction ts with
    | nil => rfl
    | cons t ts ih => simp [readText, ih]
  unfold textsOmitEmpty
  split
  · next h => rw [h]; rfl
  · exact hitems

/-! Maps. -/

/-- Names in the order of their bytes, each once. -/
def Sorted (members : List (Text × Json)) : Prop :=
  (members.map Prod.fst).Pairwise (· < ·)

mutual

/-- A value of type `any`: its maps list their entries as `Marshal` does. -/
def Canonical : Json → Prop
  | .array items => CanonicalItems items
  | .object members => Sorted members ∧ CanonicalMembers members
  | _ => True

def CanonicalItems : List Json → Prop
  | [] => True
  | item :: items => Canonical item ∧ CanonicalItems items

def CanonicalMembers : List (Text × Json) → Prop
  | [] => True
  | (_, value) :: members => Canonical value ∧ CanonicalMembers members

end

/-- An assignment to an entry of a map. -/
def put (name : Text) (value : Json) : List (Text × Json) → List (Text × Json)
  | [] => [(name, value)]
  | (other, w) :: members =>
      if name < other then (name, value) :: (other, w) :: members
      else if name = other then (name, value) :: members
      else (other, w) :: put name value members

mutual

/-- The value of type `any` that a JSON value is read as. -/
def toAny : Json → Json
  | .array items => .array (toAnyItems items)
  | .object members => .object (toAnyMembers members [])
  | v => v

def toAnyItems : List Json → List Json
  | [] => []
  | item :: items => toAny item :: toAnyItems items

/-- The entries of a map after the members of an object are assigned in turn. -/
def toAnyMembers : List (Text × Json) → List (Text × Json) → List (Text × Json)
  | [], entries => entries
  | (name, value) :: members, entries => toAnyMembers members (put name (toAny value) entries)

end

theorem canonicalMembers_iff (members : List (Text × Json)) :
    CanonicalMembers members ↔ ∀ m ∈ members, Canonical m.2 := by
  induction members with
  | nil => simp [CanonicalMembers]
  | cons m members ih => rw [CanonicalMembers, ih, List.forall_mem_cons]

theorem mem_put {name : Text} {value : Json} {members : List (Text × Json)} {m : Text × Json}
    (h : m ∈ put name value members) : m = (name, value) ∨ m ∈ members := by
  induction members with
  | nil => exact .inl (List.mem_singleton.mp h)
  | cons entry members ih =>
      rw [put] at h
      split_ifs at h
      · rcases List.mem_cons.mp h with h | h
        · exact .inl h
        · exact .inr h
      · rcases List.mem_cons.mp h with h | h
        · exact .inl h
        · exact .inr (List.mem_cons_of_mem _ h)
      · rcases List.mem_cons.mp h with h | h
        · exact .inr (h ▸ List.mem_cons_self)
        · exact (ih h).imp_right (List.mem_cons_of_mem _)

theorem sorted_put {name : Text} {value : Json} {members : List (Text × Json)}
    (h : Sorted members) : Sorted (put name value members) := by
  induction members with
  | nil => exact List.pairwise_singleton _ _
  | cons entry members ih =>
      obtain ⟨other, w⟩ := entry
      obtain ⟨hfirst, hrest⟩ := List.pairwise_cons.mp h
      rw [put]
      split_ifs with hlt heq
      · refine List.pairwise_cons.mpr ⟨?_, h⟩
        intro later hlater
        rcases List.mem_cons.mp hlater with rfl | hlater
        · exact hlt
        · exact lt_trans hlt (hfirst later hlater)
      · rw [heq]
        exact h
      · refine List.pairwise_cons.mpr ⟨?_, ih hrest⟩
        intro later hlater
        obtain ⟨m, hm, rfl⟩ := List.mem_map.mp hlater
        rcases mem_put hm with rfl | hm
        · exact lt_of_le_of_ne (not_lt.mp hlt) (Ne.symm heq)
        · exact hfirst _ (List.mem_map_of_mem hm)

/-- An entry after all others goes to the end. -/
theorem put_last {name : Text} {value : Json} {members : List (Text × Json)}
    (h : ∀ m ∈ members, m.1 < name) : put name value members = members ++ [(name, value)] := by
  induction members with
  | nil => rfl
  | cons entry members ih =>
      obtain ⟨other, w⟩ := entry
      have hother : other < name := h (other, w) List.mem_cons_self
      rw [put, if_neg hother.asymm, if_neg hother.ne',
        ih fun m hm => h m (List.mem_cons_of_mem _ hm)]
      rfl

mutual

theorem canonical_toAny : ∀ v : Json, Canonical (toAny v)
  | .null | .bool _ | .number _ | .string _ => trivial
  | .array items => canonicalItems_toAny items
  | .object members => canonicalMembers_toAny members [] List.Pairwise.nil trivial

theorem canonicalItems_toAny : ∀ items : List Json, CanonicalItems (toAnyItems items)
  | [] => trivial
  | item :: items => ⟨canonical_toAny item, canonicalItems_toAny items⟩

theorem canonicalMembers_toAny : ∀ members entries : List (Text × Json), Sorted entries →
    CanonicalMembers entries → Canonical (.object (toAnyMembers members entries))
  | [], entries, hsorted, hcanonical => ⟨hsorted, hcanonical⟩
  | (name, value) :: members, entries, hsorted, hcanonical => by
      apply canonicalMembers_toAny members (put name (toAny value) entries) (sorted_put hsorted)
      rw [canonicalMembers_iff] at hcanonical ⊢
      intro m hm
      rcases mem_put hm with rfl | hm
      · exact canonical_toAny value
      · exact hcanonical m hm

end

mutual

/-- A value of type `any` is read as itself. -/
theorem toAny_canonical : ∀ {v : Json}, Canonical v → toAny v = v
  | .null, _ | .bool _, _ | .number _, _ | .string _, _ => rfl
  | .array items, h => congrArg Json.array (toAnyItems_canonical h)
  | .object members, h => congrArg Json.object (toAnyMembers_canonical h.1 h.2)

theorem toAnyItems_canonical : ∀ {items : List Json}, CanonicalItems items →
    toAnyItems items = items
  | [], _ => rfl
  | _ :: _, h => by rw [toAnyItems, toAny_canonical h.1, toAnyItems_canonical h.2]

theorem toAnyMembers_canonical : ∀ {members entries : List (Text × Json)},
    Sorted (entries ++ members) → CanonicalMembers members →
    toAnyMembers members entries = entries ++ members
  | [], entries, _, _ => (List.append_nil entries).symm
  | (name, value) :: members, entries, hsorted, h => by
      have hlast : ∀ m ∈ entries, m.1 < name := by
        intro m hm
        rw [Sorted, List.map_append] at hsorted
        exact (List.pairwise_append.mp hsorted).2.2 _ (List.mem_map_of_mem hm) _
          List.mem_cons_self
      have hshift : entries ++ (name, value) :: members = (entries ++ [(name, value)]) ++ members := by
        simp
      rw [toAnyMembers, toAny_canonical h.1, put_last hlast,
        toAnyMembers_canonical (hshift ▸ hsorted) h.2, hshift]

end

/-- A `map[string]any`. -/
structure AnyMap where
  entries : List (Text × Json)
  canonical : Canonical (.object entries)

namespace AnyMap

def json (m : AnyMap) : Json :=
  .object m.entries

def empty : AnyMap :=
  ⟨[], List.Pairwise.nil, trivial⟩

def ofMembers (members : List (Text × Json)) : AnyMap :=
  ⟨toAnyMembers members [], canonicalMembers_toAny members [] List.Pairwise.nil trivial⟩

theorem ofMembers_entries (m : AnyMap) : ofMembers m.entries = m := by
  obtain ⟨entries, hcanonical⟩ := m
  have h := @toAnyMembers_canonical entries [] hcanonical.1 hcanonical.2
  simpa [ofMembers] using h

end AnyMap

/-- A map that may be `nil`. -/
def mapField (m : Option AnyMap) : Option Json :=
  some ((m.map AnyMap.json).getD .null)

def readMap : Json → Option (Option AnyMap)
  | .null => some none
  | .object members => some (some (AnyMap.ofMembers members))
  | _ => none

@[simp] theorem readMap_mapField (m : Option AnyMap) :
    readMap ((mapField m).getD .null) = some m := by
  cases m with
  | none => rfl
  | some m => exact congrArg (fun m => some (some m)) m.ofMembers_entries

/-- A map under `omitempty`, for which `nil` is as good as empty. -/
def mapOmitEmpty (m : AnyMap) : Option Json :=
  if m.entries = [] then none else some m.json

def readMapOrEmpty (v : Json) : Option AnyMap :=
  (readMap v).map fun m => m.getD .empty

@[simp] theorem readMapOrEmpty_mapOmitEmpty (m : AnyMap) :
    readMapOrEmpty ((mapOmitEmpty m).getD .null) = some m := by
  obtain ⟨entries, hcanonical⟩ := m
  unfold mapOmitEmpty
  split
  · next h =>
      cases h
      rfl
  · exact congrArg some (AnyMap.ofMembers_entries ⟨entries, hcanonical⟩)

end C2c.Library.GoJson
