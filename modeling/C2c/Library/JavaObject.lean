import C2c.Library.JavaText

namespace C2c.Library.JavaObject

open C2c.Library.JavaText

/-- A value of a JSON document read into Java objects.  A fractional number
keeps its Java rendering and its `intValue`. -/
inductive Value
  | null
  | bool (b : Bool)
  | int (n : Int)
  | decimal (text : Text) (whole : Int)
  | str (t : Text)
  | list (items : List Value)
  | map (entries : List (Text × Value))

/-- A `LinkedHashMap<String, Object>`: one entry a key, in insertion order. -/
abbrev ObjectMap := List (Text × Value)

/-- The exceptions the modelled code throws or lets through. -/
inductive JavaException
  | illegalArgument (message : Text)
  | illegalState (message : Text)
  | numberFormat (message : Text)
  | arithmetic (message : Text)
  | indexOutOfBounds (message : Text)
deriving DecidableEq

theorem bind_eq_ok {ε α β : Type} {x : Except ε α} {f : α → Except ε β} {b : β}
    (h : (x >>= f) = .ok b) : ∃ a, x = .ok a ∧ f a = .ok b := by
  cases x with
  | error failure => cases h
  | ok a => exact ⟨a, rfl, h⟩

theorem bind_eq_ok_iff {ε α β : Type} {x : Except ε α} {f : α → Except ε β} {b : β} :
    (x >>= f) = .ok b ↔ ∃ a, x = .ok a ∧ f a = .ok b := by
  constructor
  · exact bind_eq_ok
  · rintro ⟨a, rfl, h⟩
    exact h

theorem ok_of_any {ε α : Type} {x : Except ε α} {p : α → Bool} (h : x.toOption.any p = true) :
    ∃ a, x = .ok a ∧ p a = true := by
  cases x with
  | error failure => contradiction
  | ok a => exact ⟨a, rfl, h⟩

/-- `Integer.parseInt` of a run of digits. -/
def parseInteger (digits : Text) : Except JavaException Nat :=
  if digitsValue digits ≤ intMax then .ok (digitsValue digits)
  else .error (.numberFormat ("For input string: \"".toList ++ digits ++ ['"']))

namespace Value

mutual

/-- `Object.toString`. -/
def toText : Value → Text
  | .null => "null".toList
  | .bool true => "true".toList
  | .bool false => "false".toList
  | .int n => intText n
  | .decimal text _ => text
  | .str t => t
  | .list items => '[' :: itemsText items ++ [']']
  | .map entries => '{' :: entriesText entries ++ ['}']

def itemsText : List Value → Text
  | [] => []
  | [item] => item.toText
  | item :: items => item.toText ++ ", ".toList ++ itemsText items

def entriesText : List (Text × Value) → Text
  | [] => []
  | [(key, value)] => key ++ '=' :: value.toText
  | (key, value) :: entries => key ++ '=' :: value.toText ++ ", ".toList ++ entriesText entries

end

/-- The `instanceof List` view of an object. -/
def asList : Value → Option (List Value)
  | .list items => some items
  | _ => none

/-- The `instanceof Map` view of an object. -/
def asMap : Value → Option ObjectMap
  | .map entries => some entries
  | _ => none

def isNull : Value → Bool
  | .null => true
  | _ => false

def texts (ts : List Text) : Value :=
  .list (ts.map .str)

end Value

/-- `Map.get`, with `null` for a missing key. -/
def get (key : Text) (entries : ObjectMap) : Value :=
  match entries.find? (fun entry => entry.1 == key) with
  | some entry => entry.2
  | none => .null

def containsKey (key : Text) (entries : ObjectMap) : Bool :=
  entries.any fun entry => entry.1 == key

/-- `LinkedHashMap.put`: a present key keeps its place. -/
def put (key : Text) (value : Value) (entries : ObjectMap) : ObjectMap :=
  if containsKey key entries then
    entries.map fun entry => if entry.1 == key then (key, value) else entry
  else entries ++ [(key, value)]

/-- The trimmed text of an object, with a fallback for `null` and for a blank
one. -/
def textOr (value : Value) (fallback : Text) : Text :=
  if value.isNull || isBlank (trim value.toText) then fallback else trim value.toText

theorem get_put_self (key : Text) (value : Value) (entries : ObjectMap) :
    get key (put key value entries) = value := by
  unfold put
  split
  · rename_i hkey
    simp only [containsKey, List.any_eq_true, beq_iff_eq] at hkey
    unfold get
    have hfind : (entries.map fun entry => if entry.1 == key then (key, value) else entry).find?
        (fun entry => entry.1 == key) = some (key, value) := by
      induction entries with
      | nil => simp at hkey
      | cons entry entries ih =>
          by_cases hentry : entry.1 = key
          · simp [hentry]
          · obtain ⟨other, hmem, hother⟩ := hkey
            rcases List.mem_cons.mp hmem with rfl | hmem
            · exact absurd hother hentry
            · simp only [List.map_cons, beq_iff_eq, hentry, if_false]
              rw [List.find?_cons_of_neg (by simpa using hentry)]
              simpa using ih ⟨other, hmem, hother⟩
    rw [hfind]
  · rename_i hkey
    have hnone : entries.find? (fun entry => entry.1 == key) = none := by
      rw [List.find?_eq_none]
      intro entry hmem hentry
      exact hkey (List.any_eq_true.mpr ⟨entry, hmem, hentry⟩)
    simp [get, List.find?_append, hnone]

theorem get_put_of_ne {key other : Text} (h : key ≠ other) (value : Value)
    (entries : ObjectMap) : get key (put other value entries) = get key entries := by
  have hother : (other == key) = false := beq_false_of_ne (Ne.symm h)
  have hfind : (entries.map fun entry => if entry.1 == other then (other, value) else entry).find?
      (fun entry => entry.1 == key) = entries.find? (fun entry => entry.1 == key) := by
    induction entries with
    | nil => rfl
    | cons entry entries ih =>
        rw [List.map_cons]
        by_cases hentry : (entry.1 == other) = true
        · have hkey : (entry.1 == key) = false := eq_of_beq hentry ▸ hother
          rw [if_pos hentry, List.find?_cons_of_neg (by simp [hother]),
            List.find?_cons_of_neg (by simp [hkey]), ih]
        · rw [if_neg hentry, List.find?_cons, List.find?_cons, ih]
  unfold put
  split
  · unfold get
    rw [hfind]
  · simp [get, List.find?_append, hother]

end C2c.Library.JavaObject
