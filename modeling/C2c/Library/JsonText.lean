import C2c.Library.JavaText
import C2c.Library.Sha256

/-!
JSON texts: their values, their writer over a choice of string escapes, and
their reader, which returns what the writer wrote.
-/

namespace C2c.Library.JsonText

open C2c.Library.JavaText
open C2c.Library.Sha256

def isNumeralChar (c : Char) : Bool :=
  isDigitAscii c || ['-', '+', '.', 'e', 'E'].contains c

/-- Digits, at least one, up to the end. -/
def isDigits (t : Text) : Bool :=
  !t.isEmpty && t.all isDigitAscii

/-- The exponent of a numeral, or the end. -/
def isExponent : Text → Bool
  | [] => true
  | 'e' :: '+' :: t | 'e' :: '-' :: t | 'E' :: '+' :: t | 'E' :: '-' :: t => isDigits t
  | 'e' :: t | 'E' :: t => isDigits t
  | _ => false

/-- The fraction and the exponent of a numeral. -/
def isFraction : Text → Bool
  | '.' :: t =>
      !(t.takeWhile isDigitAscii).isEmpty && isExponent (t.dropWhile isDigitAscii)
  | t => isExponent t

def isUnsigned (t : Text) : Bool :=
  let digits := t.takeWhile isDigitAscii
  !digits.isEmpty && (digits.length == 1 || digits.head? != some '0') &&
    isFraction (t.dropWhile isDigitAscii)

/-- A number as JSON spells it. -/
def isNumeral : Text → Bool
  | '-' :: t => isUnsigned t
  | t => isUnsigned t

structure Numeral where
  text : Text
  spelled : isNumeral text = true ∧ text.all isNumeralChar = true
deriving DecidableEq

/-- The power of ten of a numeral's exponent. -/
def exponentValue : Text → Int
  | _ :: '+' :: t => digitsValue t
  | _ :: '-' :: t => -(digitsValue t : Int)
  | _ :: t => digitsValue t
  | [] => 0

def scaled (n : Nat) (exponent : Int) : Rat :=
  if exponent < 0 then mkRat n (10 ^ exponent.natAbs) else mkRat (n * 10 ^ exponent.natAbs : Nat) 1

def unsignedValue (t : Text) : Rat :=
  let digits := t.takeWhile isDigitAscii
  match t.dropWhile isDigitAscii with
  | '.' :: rest =>
      let fraction := rest.takeWhile isDigitAscii
      scaled (digitsValue (digits ++ fraction))
        (exponentValue (rest.dropWhile isDigitAscii) - fraction.length)
  | rest => scaled (digitsValue digits) (exponentValue rest)

/-- The number a numeral spells. -/
def Numeral.value (n : Numeral) : Rat :=
  match n.text with
  | '-' :: t => -unsignedValue t
  | t => unsignedValue t

def twoPower (e : Int) : Rat :=
  if e < 0 then mkRat 1 (2 ^ e.natAbs) else mkRat (2 ^ e.natAbs : Nat) 1

/-- The position of the first binary digit of a positive number. -/
def binaryExponent (q : Rat) : Int :=
  let e : Int := Nat.log2 q.num.natAbs - Nat.log2 q.den
  if q < twoPower e then e - 1 else e

/-- The nearest integer, of two the even one. -/
def roundEven (q : Rat) : Int :=
  let below := q.floor
  let rest := q - below
  if rest < mkRat 1 2 then below
  else if mkRat 1 2 < rest then below + 1
  else if below % 2 = 0 then below else below + 1

/-- The nearest binary64 number, if it is finite. -/
def nearestDouble (q : Rat) : Option Rat :=
  if q = 0 then some 0
  else
    let unit := twoPower (max (binaryExponent (if q < 0 then -q else q) - 52) (-1074))
    let x := roundEven (q / unit) * unit
    if twoPower 1024 ≤ x ∨ x ≤ -twoPower 1024 then none else some x

/-- The `float64` a numeral is read as. -/
def Numeral.double (n : Numeral) : Option Rat :=
  nearestDouble n.value

inductive Json
  | null
  | bool (value : Bool)
  | number (numeral : Numeral)
  | string (value : Text)
  | array (items : List Json)
  | object (members : List (Text × Json))

mutual

/-- Whether every number of a value is within the range of binary64. -/
def Json.finite : Json → Bool
  | .number n => n.double.isSome
  | .array items => finiteItems items
  | .object members => finiteMembers members
  | _ => true

def finiteItems : List Json → Bool
  | [] => true
  | item :: items => item.finite && finiteItems items

def finiteMembers : List (Text × Json) → Bool
  | [] => true
  | (_, value) :: members => value.finite && finiteMembers members

end

/-! Strings. -/

def isHigh (n : Nat) : Bool :=
  0xd800 ≤ n && n < 0xdc00

def isLow (n : Nat) : Bool :=
  0xdc00 ≤ n && n < 0xe000

/-- The character of a code unit; a lone surrogate has none. -/
def charOf (n : Nat) : Char :=
  if n.isValidChar then Char.ofNat n else Char.ofNat 0xfffd

def joinSurrogates : List Nat → Text
  | [] => []
  | [n] => [charOf n]
  | n :: m :: units =>
      if isHigh n && isLow m then
        charOf (0x10000 + (n - 0xd800) * 0x400 + (m - 0xdc00)) :: joinSurrogates units
      else charOf n :: joinSurrogates (m :: units)

def hexValue (c : Char) : Option Nat :=
  if isDigitAscii c then some (c.toNat - 48)
  else if 'a' ≤ c ∧ c ≤ 'f' then some (c.toNat - 87)
  else if 'A' ≤ c ∧ c ≤ 'F' then some (c.toNat - 55)
  else none

def unitValue (a b c d : Char) : Option Nat := do
  some (4096 * (← hexValue a) + 256 * (← hexValue b) + 16 * (← hexValue c) + (← hexValue d))

def shortEscape : Char → Option Nat
  | '"' => some 34
  | '\\' => some 92
  | '/' => some 47
  | 'b' => some 8
  | 'f' => some 12
  | 'n' => some 10
  | 'r' => some 13
  | 't' => some 9
  | _ => none

/-- The code units of a string up to its closing quote, and what follows it. -/
def readUnits : Text → Option (List Nat × Text)
  | [] => none
  | '"' :: rest => some ([], rest)
  | '\\' :: 'u' :: a :: b :: c :: d :: rest => do
      let n ← unitValue a b c d
      let (units, after) ← readUnits rest
      some (n :: units, after)
  | '\\' :: c :: rest => do
      let n ← shortEscape c
      let (units, after) ← readUnits rest
      some (n :: units, after)
  | c :: rest => do
      if c.toNat < 32 then none
      else
        let (units, after) ← readUnits rest
        some (c.toNat :: units, after)

def readString (t : Text) : Option (Text × Text) :=
  (readUnits t).map fun (units, after) => (joinSurrogates units, after)

/-! Values. -/

def isSpace (c : Char) : Bool :=
  [' ', '\t', '\n', '\r'].contains c

def skipSpace (t : Text) : Text :=
  t.dropWhile isSpace

def readNumber (t : Text) : Option (Json × Text) :=
  let numeral := t.takeWhile isNumeralChar
  if h : isNumeral numeral = true ∧ numeral.all isNumeralChar = true then
    some (.number ⟨numeral, h⟩, t.dropWhile isNumeralChar)
  else none

/-- A literal, which only its own text spells. -/
def readLiteral (literal : String) (value : Json) (t : Text) : Option (Json × Text) :=
  if startsWith t literal.toList then some (value, t.drop literal.length) else none

mutual

/-- A value, and what follows it. -/
def readValue : Nat → Text → Option (Json × Text)
  | 0, _ => none
  | fuel + 1, t =>
    match skipSpace t with
    | [] => none
    | '"' :: rest => (readString rest).map fun (value, after) => (.string value, after)
    | '[' :: rest =>
        match skipSpace rest with
        | ']' :: after => some (.array [], after)
        | _ => do
            let (item, after) ← readValue fuel rest
            let (items, after) ← readItems fuel after
            some (.array (item :: items), after)
    | '\x7b' :: rest =>
        match skipSpace rest with
        | '\x7d' :: after => some (.object [], after)
        | _ => do
            let (member, after) ← readMember fuel rest
            let (members, after) ← readMembers fuel after
            some (.object (member :: members), after)
    | 'n' :: rest => readLiteral "null" .null ('n' :: rest)
    | 't' :: rest => readLiteral "true" (.bool true) ('t' :: rest)
    | 'f' :: rest => readLiteral "false" (.bool false) ('f' :: rest)
    | c :: rest => readNumber (c :: rest)

/-- The further items of an array. -/
def readItems : Nat → Text → Option (List Json × Text)
  | 0, _ => none
  | fuel + 1, t =>
    match skipSpace t with
    | ']' :: after => some ([], after)
    | ',' :: rest => do
        let (item, after) ← readValue fuel rest
        let (items, after) ← readItems fuel after
        some (item :: items, after)
    | _ => none

def readMember : Nat → Text → Option ((Text × Json) × Text)
  | 0, _ => none
  | fuel + 1, t =>
    match skipSpace t with
    | '"' :: rest => do
        let (name, after) ← readString rest
        match skipSpace after with
        | ':' :: rest =>
            let (value, after) ← readValue fuel rest
            some ((name, value), after)
        | _ => none
    | _ => none

/-- The further members of an object. -/
def readMembers : Nat → Text → Option (List (Text × Json) × Text)
  | 0, _ => none
  | fuel + 1, t =>
    match skipSpace t with
    | '\x7d' :: after => some ([], after)
    | ',' :: rest => do
        let (member, after) ← readMember fuel rest
        let (members, after) ← readMembers fuel after
        some (member :: members, after)
    | _ => none

end

/-- The value a text spells. -/
def read (t : Text) : Option Json :=
  match readValue (2 * t.length + 1) t with
  | some (value, after) => if (skipSpace after).isEmpty then some value else none
  | none => none

/-! The writer. -/

/-- How a writer spells the characters of a string. -/
structure Escapes where
  spell : Char → Text
  read_spell : ∀ c rest, readUnits (spell c ++ rest) =
    (readUnits rest).map fun (units, after) => (c.toNat :: units, after)
  graphic : ∀ c, ∀ d ∈ spell c, 32 ≤ d.toNat

/-- The escape of a code unit. -/
def unitEscape (n : Nat) : Text :=
  ['\\', 'u', hexDigit (n / 4096 % 16), hexDigit (n / 256 % 16), hexDigit (n / 16 % 16),
    hexDigit (n % 16)]

/-- A character of a string, where `units` are the characters beyond the
control characters that are spelled as code units. -/
def spellChar (units : List Char) (c : Char) : Text :=
  if c = '"' then ['\\', '"']
  else if c = '\\' then ['\\', '\\']
  else if c.toNat = 8 then ['\\', 'b']
  else if c.toNat = 12 then ['\\', 'f']
  else if c.toNat = 10 then ['\\', 'n']
  else if c.toNat = 13 then ['\\', 'r']
  else if c.toNat = 9 then ['\\', 't']
  else if c.toNat < 32 ∨ (c ∈ units ∧ c.toNat < 0x10000) then unitEscape c.toNat
  else [c]

theorem hexValue_hexDigit : ∀ n < 16, hexValue (hexDigit n) = some n := by
  decide

theorem readUnits_unitEscape {n : Nat} (h : n < 0x10000) (rest : Text) :
    readUnits (unitEscape n ++ rest) =
      (readUnits rest).map fun (units, after) => (n :: units, after) := by
  have hunit : unitValue (hexDigit (n / 4096 % 16)) (hexDigit (n / 256 % 16))
      (hexDigit (n / 16 % 16)) (hexDigit (n % 16)) = some n := by
    rw [unitValue]
    repeat rw [hexValue_hexDigit _ (Nat.mod_lt _ (by decide))]
    simp
    omega
  cases hrest : readUnits rest <;> simp [unitEscape, readUnits, hunit, hrest]

theorem readUnits_short {c : Char} {n : Nat} (hc : c ≠ 'u') (h : shortEscape c = some n)
    (rest : Text) : readUnits ('\\' :: c :: rest) =
      (readUnits rest).map fun (units, after) => (n :: units, after) := by
  rw [readUnits.eq_def]
  split
  · next heq => cases heq
  · next heq => cases heq
  · next heq => exact absurd (List.cons.inj (List.cons.inj heq).2).1 hc
  · next heq =>
      cases heq
      cases hrest : readUnits rest <;> simp [h]
  · next hother heq =>
      obtain ⟨heq, hrest⟩ := List.cons.inj heq
      exact absurd hrest.symm (hother c rest heq.symm)

theorem readUnits_plain {c : Char} (hquote : c ≠ '"') (hescape : c ≠ '\\') (hc : ¬ c.toNat < 32)
    (rest : Text) : readUnits (c :: rest) =
      (readUnits rest).map fun (units, after) => (c.toNat :: units, after) := by
  rw [readUnits.eq_def]
  split
  · next heq => cases heq
  · next heq => exact absurd (List.cons.inj heq).1 hquote
  · next heq => exact absurd (List.cons.inj heq).1 hescape
  · next heq => exact absurd (List.cons.inj heq).1 hescape
  · next heq =>
      cases heq
      cases hrest : readUnits rest <;> simp [hc]

theorem graphic_unitEscape (n : Nat) : ∀ d ∈ unitEscape n, 32 ≤ d.toNat := by
  intro d hd
  have hstart : ∀ d ∈ ['\\', 'u'], 32 ≤ d.toNat := by
    simp only [List.mem_cons, List.not_mem_nil, or_false, forall_eq_or_imp, forall_eq]
    decide
  have hhex : ∀ m, 32 ≤ (hexDigit m).toNat := by
    intro m
    have hdigits : ∀ d ∈ ['0', '1', '2', '3', '4', '5', '6', '7', '8', '9', 'a', 'b', 'c', 'd', 'e',
      'f'], 32 ≤ d.toNat := by
      simp only [List.mem_cons, List.not_mem_nil, or_false, forall_eq_or_imp, forall_eq]
      decide
    exact hdigits _ (hexDigit_mem m)
  simp only [unitEscape, List.mem_cons, List.not_mem_nil, or_false] at hd
  rcases hd with rfl | rfl | rfl | rfl | rfl | rfl
  · decide
  · decide
  all_goals exact hhex _

/-- The spelling of JSON writers. -/
def spellings (units : List Char) : Escapes where
  spell := spellChar units
  read_spell := by
    intro c rest
    unfold spellChar
    split
    · next h => rw [h]; exact readUnits_short (by decide) rfl rest
    split
    · next h => rw [h]; exact readUnits_short (by decide) rfl rest
    split
    · next h => rw [h]; exact readUnits_short (by decide) rfl rest
    split
    · next h => rw [h]; exact readUnits_short (by decide) rfl rest
    split
    · next h => rw [h]; exact readUnits_short (by decide) rfl rest
    split
    · next h => rw [h]; exact readUnits_short (by decide) rfl rest
    split
    · next h => rw [h]; exact readUnits_short (by decide) rfl rest
    split
    · next h => exact readUnits_unitEscape (by omega) rest
    · next hquote hescape _ _ _ _ _ hunit =>
        exact readUnits_plain hquote hescape (fun hc => hunit (.inl hc)) rest
  graphic := by
    intro c d hd
    have hshort : ∀ e ∈ ['"', '\\', 'b', 'f', 'n', 'r', 't'], ∀ d ∈ ['\\', e], 32 ≤ d.toNat := by
      simp only [List.mem_cons, List.not_mem_nil, or_false, forall_eq_or_imp, forall_eq]
      decide
    unfold spellChar at hd
    split_ifs at hd with _ _ _ _ _ _ _ hunit
    iterate 7 exact hshort _ (by simp) d hd
    · exact graphic_unitEscape c.toNat d hd
    · rw [List.mem_singleton.mp hd]
      omega

section Writer

variable (escapes : Escapes)

def writeString (t : Text) : Text :=
  '"' :: (t.flatMap escapes.spell ++ ['"'])

mutual

def write : Json → Text
  | .null => "null".toList
  | .bool true => "true".toList
  | .bool false => "false".toList
  | .number numeral => numeral.text
  | .string value => writeString escapes value
  | .array [] => ['[', ']']
  | .array (item :: items) => '[' :: (write item ++ (writeItems items ++ [']']))
  | .object [] => ['\x7b', '\x7d']
  | .object (member :: members) =>
      '\x7b' :: (writeMember member ++ (writeMembers members ++ ['\x7d']))

def writeItems : List Json → Text
  | [] => []
  | item :: items => ',' :: (write item ++ writeItems items)

def writeMember : Text × Json → Text
  | (name, value) => writeString escapes name ++ ':' :: write value

def writeMembers : List (Text × Json) → Text
  | [] => []
  | member :: members => ',' :: (writeMember member ++ writeMembers members)

end

end Writer

mutual

/-- The nesting of arrays and objects. -/
def depth : Json → Nat
  | .array items => depthItems items + 1
  | .object members => depthMembers members + 1
  | _ => 0

def depthItems : List Json → Nat
  | [] => 0
  | item :: items => max (depth item) (depthItems items)

def depthMembers : List (Text × Json) → Nat
  | [] => 0
  | (_, value) :: members => max (depth value) (depthMembers members)

end

/-! Reading strings back. -/

theorem charOf_toNat (c : Char) : charOf c.toNat = c := by
  have hvalid : c.toNat.isValidChar := c.valid
  rw [charOf, if_pos hvalid]
  exact Char.ofNat_toNat c

theorem isHigh_toNat (c : Char) : isHigh c.toNat = false := by
  have hvalid : c.toNat.isValidChar := c.valid
  simp only [isHigh, Bool.and_eq_false_iff, decide_eq_false_iff_not]
  unfold Nat.isValidChar at hvalid
  omega

theorem joinSurrogates_cons (c : Char) (units : List Nat) :
    joinSurrogates (c.toNat :: units) = c :: joinSurrogates units := by
  cases units with
  | nil => simp [joinSurrogates, charOf_toNat]
  | cons m units => simp [joinSurrogates, isHigh_toNat, charOf_toNat]

theorem joinSurrogates_toNat (t : Text) : joinSurrogates (t.map Char.toNat) = t := by
  induction t with
  | nil => rfl
  | cons c t ih => rw [List.map_cons, joinSurrogates_cons, ih]

variable {escapes : Escapes}

theorem readUnits_spell (t rest : Text) :
    readUnits (t.flatMap escapes.spell ++ '"' :: rest) = some (t.map Char.toNat, rest) := by
  induction t with
  | nil => simp [readUnits]
  | cons c t ih =>
      rw [List.flatMap_cons, List.append_assoc, escapes.read_spell, ih]
      rfl

theorem readString_spell (t rest : Text) :
    readString (t.flatMap escapes.spell ++ '"' :: rest) = some (t, rest) := by
  simp only [readString, readUnits_spell, Option.map_some, joinSurrogates_toNat]

/-! Reading numbers back. -/

/-- A text that no numeral goes on into. -/
def Stops (rest : Text) : Prop :=
  ∀ c, rest.head? = some c → isNumeralChar c = false

theorem stops_nil : Stops [] := by
  simp [Stops]

theorem stops_cons {c : Char} (hc : isNumeralChar c = false) (rest : Text) : Stops (c :: rest) := by
  simpa [Stops] using hc

theorem takeWhile_stops {rest : Text} (h : Stops rest) : rest.takeWhile isNumeralChar = [] := by
  cases rest with
  | nil => rfl
  | cons c rest => simp [h c rfl]

theorem dropWhile_stops {rest : Text} (h : Stops rest) : rest.dropWhile isNumeralChar = rest := by
  cases rest with
  | nil => rfl
  | cons c rest => simp [h c rfl]

theorem readNumber_write (n : Numeral) {rest : Text} (h : Stops rest) :
    readNumber (n.text ++ rest) = some (.number n, rest) := by
  have hall : ∀ c ∈ n.text, isNumeralChar c = true := List.all_eq_true.mp n.spelled.2
  have htake : (n.text ++ rest).takeWhile isNumeralChar = n.text := by
    rw [List.takeWhile_append_of_pos hall, takeWhile_stops h, List.append_nil]
  have hdrop : (n.text ++ rest).dropWhile isNumeralChar = rest := by
    rw [List.dropWhile_append_of_pos hall, dropWhile_stops h]
  simp only [readNumber, htake, hdrop, dif_pos n.spelled]

theorem unsigned_head {t : Text} (h : isUnsigned t = true) :
    ∃ c rest, t = c :: rest ∧ isDigitAscii c = true := by
  cases t with
  | nil => simp [isUnsigned] at h
  | cons c rest =>
      refine ⟨c, rest, rfl, ?_⟩
      by_contra hc
      simp [isUnsigned, hc] at h

theorem numeral_head (n : Numeral) :
    ∃ c rest, n.text = c :: rest ∧ (c = '-' ∨ isDigitAscii c = true) := by
  have h := n.spelled.1
  unfold isNumeral at h
  split at h
  · rename_i t heq
    exact ⟨'-', t, heq, .inl rfl⟩
  · obtain ⟨c, rest, hc, hdigit⟩ := unsigned_head h
    exact ⟨c, rest, hc, .inr hdigit⟩

/-! Reading values back. -/

theorem skipSpace_cons {c : Char} (h : isSpace c = false) (t : Text) :
    skipSpace (c :: t) = c :: t := by
  simp [skipSpace, h]

theorem isSpace_of_digit {c : Char} (h : isDigitAscii c = true) : isSpace c = false := by
  by_contra hspace
  have hmem : c ∈ [' ', '\t', '\n', '\r'] := by
    simpa only [isSpace, List.contains_iff_mem, Bool.not_eq_false] using hspace
  have hdigits : ∀ c ∈ [' ', '\t', '\n', '\r'], isDigitAscii c = false := by
    simp only [List.mem_cons, List.not_mem_nil, or_false, forall_eq_or_imp, forall_eq]
    decide
  exact absurd h (by rw [hdigits c hmem]; decide)

/-- What starts the text of a value. -/
def StartsValue (c : Char) : Prop :=
  isSpace c = false ∧ c ≠ ']'

theorem write_head (v : Json) : ∃ c t, write escapes v = c :: t ∧ StartsValue c := by
  have hliteral : ∀ c ∈ ['n', 't', 'f', '"', '[', '\x7b', '-'], StartsValue c := by
    simp only [List.mem_cons, List.not_mem_nil, or_false, forall_eq_or_imp, forall_eq]
    unfold StartsValue
    decide
  cases v with
  | null => exact ⟨'n', _, rfl, hliteral _ (by decide)⟩
  | bool value => cases value <;> exact ⟨_, _, rfl, hliteral _ (by decide)⟩
  | number n =>
      obtain ⟨c, t, ht, hc⟩ := numeral_head n
      refine ⟨c, t, ht, ?_⟩
      rcases hc with rfl | hdigit
      · exact hliteral _ (by decide)
      · refine ⟨isSpace_of_digit hdigit, ?_⟩
        rintro rfl
        exact absurd hdigit (by decide)
  | string value => exact ⟨'"', _, rfl, hliteral _ (by decide)⟩
  | array items => cases items <;> exact ⟨'[', _, rfl, hliteral _ (by decide)⟩
  | object members => cases members <;> exact ⟨'\x7b', _, rfl, hliteral _ (by decide)⟩

mutual

/-- The fuel that reads a value back. -/
def size : Json → Nat
  | .array (item :: items) => size item + sizeItems items + 1
  | .object (member :: members) => sizeMember member + sizeMembers members + 1
  | _ => 1

def sizeItems : List Json → Nat
  | [] => 1
  | item :: items => size item + sizeItems items + 1

def sizeMember : Text × Json → Nat
  | (_, value) => size value + 1

def sizeMembers : List (Text × Json) → Nat
  | [] => 1
  | member :: members => sizeMember member + sizeMembers members + 1

end

theorem size_pos (v : Json) : 0 < size v := by
  cases v with
  | array items => cases items <;> simp [size]
  | object members => cases members <;> simp [size]
  | _ => simp [size]

theorem stops_items (items : List Json) (rest : Text) :
    Stops (writeItems escapes items ++ ']' :: rest) := by
  cases items with
  | nil => exact stops_cons (by decide) rest
  | cons item items => exact stops_cons (by decide) _

theorem stops_members (members : List (Text × Json)) (rest : Text) :
    Stops (writeMembers escapes members ++ '\x7d' :: rest) := by
  cases members with
  | nil => exact stops_cons (by decide) rest
  | cons member members => exact stops_cons (by decide) _

theorem readValue_number {c : Char} (hc : c = '-' ∨ isDigitAscii c = true) (fuel : Nat) (t : Text) :
    readValue (fuel + 1) (c :: t) = readNumber (c :: t) := by
  have hspace : isSpace c = false := by
    rcases hc with rfl | hdigit
    · decide
    · exact isSpace_of_digit hdigit
  have hne : c ∉ ['"', '[', '\x7b', 'n', 't', 'f'] := by
    intro hmem
    have hstart : ∀ c ∈ ['"', '[', '\x7b', 'n', 't', 'f'], c ≠ '-' ∧ isDigitAscii c = false := by
      simp only [List.mem_cons, List.not_mem_nil, or_false, forall_eq_or_imp, forall_eq]
      decide
    rcases hc with heq | hdigit
    · exact (hstart c hmem).1 heq
    · rw [(hstart c hmem).2] at hdigit
      exact Bool.noConfusion hdigit
  simp only [List.mem_cons, List.not_mem_nil, or_false, not_or] at hne
  simp only [readValue, skipSpace_cons hspace]
  split
  case h_8 => 
    rename_i heq
    cases heq
    rfl
  all_goals
    rename_i heq
    cases heq
    try exact absurd hne (by simp)

theorem readValue_array {c : Char} (hc : StartsValue c) (fuel : Nat) (t : Text) :
    readValue (fuel + 1) ('[' :: c :: t) =
      (readValue fuel (c :: t)).bind fun (item, after) =>
        (readItems fuel after).bind fun (items, after) => some (.array (item :: items), after) := by
  have hopen : isSpace '[' = false := by decide
  simp only [readValue, skipSpace_cons hopen, skipSpace_cons hc.1]
  split
  · rename_i heq
    cases heq
    exact absurd rfl hc.2
  · rfl

theorem writeMember_head : ∀ member : Text × Json, ∃ t, writeMember escapes member = '"' :: t
  | (_, _) => ⟨_, rfl⟩

theorem readValue_object (fuel : Nat) (t : Text) :
    readValue (fuel + 1) ('\x7b' :: '"' :: t) =
      (readMember fuel ('"' :: t)).bind fun (member, after) =>
        (readMembers fuel after).bind fun (members, after) =>
          some (.object (member :: members), after) :=
  rfl

mutual

theorem readValue_write : ∀ (v : Json) (fuel : Nat) (rest : Text), size v ≤ fuel → Stops rest →
    readValue fuel (write escapes v ++ rest) = some (v, rest)
  | v, 0, rest, hfuel, _ => absurd hfuel (by have := size_pos v; omega)
  | .null, fuel + 1, rest, _, _ => rfl
  | .bool true, fuel + 1, rest, _, _ => rfl
  | .bool false, fuel + 1, rest, _, _ => rfl
  | .number n, fuel + 1, rest, _, hrest => by
      obtain ⟨c, t, ht, hc⟩ := numeral_head n
      rw [write, ht, List.cons_append, readValue_number hc, ← List.cons_append, ← ht]
      exact readNumber_write n hrest
  | .string value, fuel + 1, rest, _, _ => by
      have hstring := @readString_spell escapes value rest
      simp [write, writeString, readValue, skipSpace, isSpace, hstring]
  | .array [], fuel + 1, rest, _, _ => rfl
  | .array (item :: items), fuel + 1, rest, hfuel, _ => by
      rw [size] at hfuel
      have hitem := readValue_write item fuel _ (by omega)
        (@stops_items escapes items rest)
      have hitems := readItems_write items fuel rest (by omega)
      obtain ⟨c, t, ht, hc⟩ := @write_head escapes item
      rw [ht, List.cons_append] at hitem
      have hsplit : write escapes (.array (item :: items)) ++ rest =
          '[' :: c :: (t ++ (writeItems escapes items ++ ']' :: rest)) := by
        simp [write, ht]
      simp only [hsplit, readValue_array hc, hitem, Option.bind_some, hitems]
  | .object [], fuel + 1, rest, _, _ => rfl
  | .object (member :: members), fuel + 1, rest, hfuel, _ => by
      rw [size] at hfuel
      have hmember := readMember_write member fuel _ (by omega)
        (@stops_members escapes members rest)
      have hmembers := readMembers_write members fuel rest (by omega)
      obtain ⟨t, ht⟩ := @writeMember_head escapes member
      rw [ht, List.cons_append] at hmember
      have hsplit : write escapes (.object (member :: members)) ++ rest =
          '\x7b' :: '"' :: (t ++ (writeMembers escapes members ++ '\x7d' :: rest)) := by
        simp [write, ht]
      simp only [hsplit, readValue_object, hmember, Option.bind_some, hmembers]

theorem readItems_write : ∀ (items : List Json) (fuel : Nat) (rest : Text), sizeItems items ≤ fuel →
    readItems fuel (writeItems escapes items ++ ']' :: rest) = some (items, rest)
  | items, 0, rest, hfuel => absurd hfuel (by cases items <;> simp [sizeItems])
  | [], fuel + 1, rest, _ => rfl
  | item :: items, fuel + 1, rest, hfuel => by
      rw [sizeItems] at hfuel
      have hitem := readValue_write item fuel _ (by omega)
        (@stops_items escapes items rest)
      have hitems := readItems_write items fuel rest (by omega)
      have hsplit : writeItems escapes (item :: items) ++ ']' :: rest =
          ',' :: (write escapes item ++ (writeItems escapes items ++ ']' :: rest)) := by
        simp [writeItems]
      rw [hsplit]
      simp [readItems, skipSpace, isSpace, hitem, hitems]

theorem readMember_write : ∀ (member : Text × Json) (fuel : Nat) (rest : Text),
    sizeMember member ≤ fuel → Stops rest →
    readMember fuel (writeMember escapes member ++ rest) = some (member, rest)
  | (name, value), 0, rest, hfuel, _ => absurd hfuel (by simp [sizeMember])
  | (name, value), fuel + 1, rest, hfuel, hrest => by
      rw [sizeMember] at hfuel
      have hvalue := readValue_write value fuel rest (by omega) hrest
      have hname := @readString_spell escapes name (':' :: (write escapes value ++ rest))
      have hsplit : writeMember escapes (name, value) ++ rest =
          '"' :: (name.flatMap escapes.spell ++ '"' :: ':' :: (write escapes value ++ rest)) := by
        simp [writeMember, writeString]
      rw [hsplit]
      simp [readMember, skipSpace, isSpace, hname, hvalue]

theorem readMembers_write : ∀ (members : List (Text × Json)) (fuel : Nat) (rest : Text),
    sizeMembers members ≤ fuel →
    readMembers fuel (writeMembers escapes members ++ '\x7d' :: rest) = some (members, rest)
  | members, 0, rest, hfuel => absurd hfuel (by cases members <;> simp [sizeMembers])
  | [], fuel + 1, rest, _ => rfl
  | member :: members, fuel + 1, rest, hfuel => by
      rw [sizeMembers] at hfuel
      have hmember := readMember_write member fuel _ (by omega)
        (@stops_members escapes members rest)
      have hmembers := readMembers_write members fuel rest (by omega)
      have hsplit : writeMembers escapes (member :: members) ++ '\x7d' :: rest =
          ',' :: (writeMember escapes member ++
            (writeMembers escapes members ++ '\x7d' :: rest)) := by
        simp [writeMembers]
      rw [hsplit]
      simp [readMembers, skipSpace, isSpace, hmember, hmembers]

end

mutual

theorem size_le : ∀ v : Json, size v ≤ 2 * (write escapes v).length
  | .null | .bool true | .bool false | .array [] | .object [] => by simp [size, write]
  | .number n => by
      obtain ⟨c, t, ht, _⟩ := numeral_head n
      simp only [size, write, ht, List.length_cons]
      omega
  | .string value => by
      simp only [size, write, writeString, List.length_cons]
      omega
  | .array (item :: items) => by
      have hitem := size_le item
      have hitems := sizeItems_le items
      simp only [size, write, List.length_cons, List.length_append]
      omega
  | .object (member :: members) => by
      have hmember := sizeMember_le member
      have hmembers := sizeMembers_le members
      simp only [size, write, List.length_cons, List.length_append]
      omega

theorem sizeItems_le : ∀ items : List Json, sizeItems items ≤ 2 * (writeItems escapes items).length + 1
  | [] => by simp [sizeItems]
  | item :: items => by
      have hitem := size_le item
      have hitems := sizeItems_le items
      simp only [sizeItems, writeItems, List.length_cons, List.length_append]
      omega

theorem sizeMember_le : ∀ member : Text × Json,
    sizeMember member ≤ 2 * (writeMember escapes member).length
  | (name, value) => by
      have hvalue := size_le value
      simp only [sizeMember, writeMember, List.length_cons, List.length_append]
      omega

theorem sizeMembers_le : ∀ members : List (Text × Json),
    sizeMembers members ≤ 2 * (writeMembers escapes members).length + 1
  | [] => by simp [sizeMembers]
  | member :: members => by
      have hmember := sizeMember_le member
      have hmembers := sizeMembers_le members
      simp only [sizeMembers, writeMembers, List.length_cons, List.length_append]
      omega

end

/-- What is written is read back. -/
theorem read_write (v : Json) : read (write escapes v) = some v := by
  have hfuel : size v ≤ 2 * (write escapes v).length + 1 := Nat.le_succ_of_le (size_le v)
  have hread := @readValue_write escapes v _ [] hfuel stops_nil
  rw [List.append_nil] at hread
  simp [read, hread, skipSpace]

theorem write_injective {v w : Json} (h : write escapes v = write escapes w) : v = w := by
  have hv := @read_write escapes v
  rw [h, read_write] at hv
  exact (Option.some.inj hv).symm

/-! Written texts hold no control characters. -/

def Graphic (t : Text) : Prop :=
  ∀ c ∈ t, 32 ≤ c.toNat

theorem graphic_append {s t : Text} : Graphic (s ++ t) ↔ Graphic s ∧ Graphic t :=
  List.forall_mem_append

theorem graphic_cons {c : Char} {t : Text} : Graphic (c :: t) ↔ 32 ≤ c.toNat ∧ Graphic t :=
  List.forall_mem_cons

theorem graphic_nil : Graphic [] := by
  simp [Graphic]

theorem graphic_of_all {t : Text} (h : (t.all fun c => decide (32 ≤ c.toNat)) = true) :
    Graphic t := fun c hc => of_decide_eq_true (List.all_eq_true.mp h c hc)

theorem graphic_numeral (n : Numeral) : Graphic n.text := by
  intro c hc
  have hchar := List.all_eq_true.mp n.spelled.2 c hc
  rw [isNumeralChar, Bool.or_eq_true] at hchar
  rcases hchar with hdigit | hsign
  · have hdigit : ('0' ≤ c ∧ c ≤ '9') := by simpa [isDigitAscii] using hdigit
    exact le_trans (by decide) hdigit.1
  · have hgraphic : ∀ d ∈ ['-', '+', '.', 'e', 'E'], 32 ≤ d.toNat := by
      simp only [List.mem_cons, List.not_mem_nil, or_false, forall_eq_or_imp, forall_eq]
      decide
    exact hgraphic c (List.contains_iff_mem.mp hsign)

theorem graphic_writeString (t : Text) : Graphic (writeString escapes t) := by
  rw [writeString, graphic_cons, graphic_append, graphic_cons]
  refine ⟨by decide, ?_, by decide, graphic_nil⟩
  intro d hd
  obtain ⟨c, _, hd⟩ := List.mem_flatMap.mp hd
  exact escapes.graphic c d hd

mutual

theorem graphic_write : ∀ v : Json, Graphic (write escapes v)
  | .null | .bool true | .bool false | .array [] | .object [] => by
      unfold write
      exact graphic_of_all (by decide)
  | .number n => graphic_numeral n
  | .string value => graphic_writeString value
  | .array (item :: items) => by
      rw [write, graphic_cons, graphic_append, graphic_append]
      exact ⟨by decide, graphic_write item, graphic_writeItems items, by simp [Graphic]⟩
  | .object (member :: members) => by
      rw [write, graphic_cons, graphic_append, graphic_append]
      exact ⟨by decide, graphic_writeMember member, graphic_writeMembers members, by simp [Graphic]⟩

theorem graphic_writeItems : ∀ items : List Json, Graphic (writeItems escapes items)
  | [] => graphic_nil
  | item :: items => by
      rw [writeItems, graphic_cons, graphic_append]
      exact ⟨by decide, graphic_write item, graphic_writeItems items⟩

theorem graphic_writeMember : ∀ member : Text × Json, Graphic (writeMember escapes member)
  | (name, value) => by
      rw [writeMember, graphic_append, graphic_cons]
      exact ⟨graphic_writeString name, by decide, graphic_write value⟩

theorem graphic_writeMembers : ∀ members : List (Text × Json), Graphic (writeMembers escapes members)
  | [] => graphic_nil
  | member :: members => by
      rw [writeMembers, graphic_cons, graphic_append]
      exact ⟨by decide, graphic_writeMember member, graphic_writeMembers members⟩

end

end C2c.Library.JsonText
