import Mathlib.Algebra.Group.Int.Defs
import Mathlib.Algebra.Group.Nat.Defs
import Mathlib.Data.List.DropRight
import Mathlib.Data.List.Basic

namespace C2c.Library.JavaText

/-- A `java.lang.String`, as the list of its characters. -/
abbrev Text := List Char

instance : LawfulBEq Text := inferInstance

/-- `Character.isWhitespace`: space, line and paragraph separators except the
non-breaking ones, and the ASCII controls the method adds. -/
def isWhitespace (c : Char) : Bool :=
  let n := c.toNat
  (9 ≤ n && n ≤ 13) || (28 ≤ n && n ≤ 32) || n == 0x1680 ||
    (0x2000 ≤ n && n ≤ 0x200a && n != 0x2007) ||
    n == 0x2028 || n == 0x2029 || n == 0x205f || n == 0x3000

/-- The characters `String.trim` removes: everything up to the blank. -/
def isTrimmed (c : Char) : Bool :=
  c.toNat ≤ 32

def trim (t : Text) : Text :=
  (t.dropWhile isTrimmed).rdropWhile isTrimmed

def isBlank (t : Text) : Bool :=
  t.all isWhitespace

def startsWith (t pattern : Text) : Bool :=
  pattern.isPrefixOf t

def endsWith (t pattern : Text) : Bool :=
  pattern.isSuffixOf t

/-- `String.indexOf`, with `none` for the `-1` of a missing pattern. -/
def indexOf (pattern : Text) : Text → Option Nat
  | [] => if pattern.isEmpty then some 0 else none
  | c :: t =>
      if pattern.isPrefixOf (c :: t) then some 0 else (indexOf pattern t).map (· + 1)

def contains (t pattern : Text) : Bool :=
  (indexOf pattern t).isSome

def lastIndexOf (c : Char) : Text → Option Nat
  | [] => none
  | d :: t =>
      match lastIndexOf c t with
      | some i => some (i + 1)
      | none => if d == c then some 0 else none

/-- `String.substring(from, to)`. -/
def substring (t : Text) (start stop : Nat) : Text :=
  (t.take stop).drop start

def isLineBreak (c : Char) : Bool :=
  let n := c.toNat
  (10 ≤ n && n ≤ 13) || n == 0x85 || n == 0x2028 || n == 0x2029

/-- `split("\\R", -1)` behind the characters `line` already read, newest
first: a carriage return and the line feed after it are one break. -/
def splitLinesFrom (line : Text) : Text → List Text
  | [] => [line.reverse]
  | '\r' :: '\n' :: t => line.reverse :: splitLinesFrom [] t
  | c :: t =>
      if isLineBreak c then line.reverse :: splitLinesFrom [] t
      else splitLinesFrom (c :: line) t

def splitLines (t : Text) : List Text :=
  splitLinesFrom [] t

def isUpperAscii (c : Char) : Bool :=
  'A' ≤ c && c ≤ 'Z'

def isDigitAscii (c : Char) : Bool :=
  '0' ≤ c && c ≤ '9'

/-- The value of a run of ASCII digits. -/
def digitsValue (digits : Text) : Nat :=
  digits.foldl (fun n c => 10 * n + (c.toNat - 48)) 0

/-- The group of the pattern `\((\d+)\)` at the head of a text. -/
def parenthesizedDigits : Text → Option Text
  | '(' :: t =>
      let digits := t.takeWhile isDigitAscii
      if !digits.isEmpty && startsWith (t.dropWhile isDigitAscii) [')'] then some digits else none
  | _ => none

/-- `Integer.MAX_VALUE`. -/
def intMax : Nat :=
  2147483647

/-- The `int` a 32-bit operation leaves of an exact result. -/
def toInt (x : Int) : Int :=
  x.bmod (2 ^ 32)

/-- Decimal digits of a natural number, as `Integer.toString` writes them. -/
def natText (n : Nat) : Text :=
  (Nat.repr n).toList

def intText (n : Int) : Text :=
  if n < 0 then '-' :: natText n.natAbs else natText n.natAbs

def repeatText (n : Nat) (t : Text) : Text :=
  (List.replicate n t).flatten

def joinWith (separator : Text) (ts : List Text) : Text :=
  separator.intercalate ts

/-- What the Java library knows of Unicode, fixed on ASCII.  Upper-casing
under `Locale.ROOT` maps each character by itself; lower-casing does not (a
final sigma looks at its neighbours). -/
structure UnicodeData where
  upper : Char → Text
  lower : Text → Text
  charUpper : Char → Char
  charLower : Char → Char
  isLetter : Char → Bool
  isDigit : Char → Bool
  upper_ascii : ∀ c, c.toNat < 128 → upper c = [c.toUpper]
  lower_ascii : ∀ t : Text, (∀ c ∈ t, c.toNat < 128) → lower t = t.map Char.toLower
  charUpper_ascii : ∀ c, c.toNat < 128 → charUpper c = c.toUpper
  charLower_ascii : ∀ c, c.toNat < 128 → charLower c = c.toLower
  isLetter_ascii : ∀ c, c.toNat < 128 → isLetter c = c.isAlpha
  isDigit_ascii : ∀ c, c.toNat < 128 → isDigit c = isDigitAscii c

namespace UnicodeData

variable (u : UnicodeData)

/-- `String.toUpperCase(Locale.ROOT)`. -/
def toUpperCase (t : Text) : Text :=
  t.flatMap u.upper

/-- `String.toLowerCase(Locale.ROOT)`. -/
def toLowerCase (t : Text) : Text :=
  u.lower t

theorem toLowerCase_ascii {t : Text} (h : (t.all fun c => decide (c.toNat < 128)) = true) :
    u.toLowerCase t = t.map Char.toLower :=
  u.lower_ascii t fun c hc => of_decide_eq_true (List.all_eq_true.mp h c hc)

def isLetterOrDigit (c : Char) : Bool :=
  u.isLetter c || u.isDigit c

/-- `String.equalsIgnoreCase`, which compares the upper and then the lower
cases of the characters in turn. -/
def equalsIgnoreCase (s t : Text) : Bool :=
  s.length == t.length && (s.zip t).all fun p =>
    u.charLower (u.charUpper p.1) == u.charLower (u.charUpper p.2)

/-- The tables of a text that stays in ASCII: every other character is a
caseless symbol. -/
def ascii : UnicodeData where
  upper c := [c.toUpper]
  lower t := t.map Char.toLower
  charUpper := Char.toUpper
  charLower := Char.toLower
  isLetter := Char.isAlpha
  isDigit := isDigitAscii
  upper_ascii _ _ := rfl
  lower_ascii _ _ := rfl
  charUpper_ascii _ _ := rfl
  charLower_ascii _ _ := rfl
  isLetter_ascii _ _ := rfl
  isDigit_ascii _ _ := rfl

end UnicodeData

theorem indexOf_of_not_mem {c : Char} {t : Text} (h : c ∉ t) : indexOf [c] t = none := by
  induction t with
  | nil => rfl
  | cons d t ih =>
      rw [List.mem_cons, not_or] at h
      simp [indexOf, h.1, ih h.2]

theorem indexOf_append_cons {c : Char} {t : Text} (h : c ∉ t) (rest : Text) :
    indexOf [c] (t ++ c :: rest) = some t.length := by
  induction t with
  | nil => simp [indexOf]
  | cons d t ih =>
      rw [List.mem_cons, not_or] at h
      simp [indexOf, h.1, ih h.2]

theorem contains_iff_infix (t pattern : Text) : contains t pattern = true ↔ pattern <:+: t := by
  induction t with
  | nil =>
      cases pattern <;> simp [contains, indexOf]
  | cons c t ih =>
      rw [List.infix_cons_iff, ← ih]
      by_cases h : pattern <+: c :: t
      · simp [contains, indexOf, h]
      · simp [contains, indexOf, h]

/-- A pattern without the last character of a text is not found across its end. -/
theorem contains_append_of_notMem {pattern before : Text} {c : Char} (hc : c ∉ pattern) (t : Text) :
    contains (before ++ c :: t) pattern = (contains before pattern || contains t pattern) := by
  apply Bool.eq_iff_iff.mpr
  rw [Bool.or_eq_true, contains_iff_infix, contains_iff_infix, contains_iff_infix]
  constructor
  · intro h
    rcases List.infix_append_iff.mp h with h | h | ⟨ending, beginning, rfl, hending, hbeginning⟩
    · exact .inl h
    · rcases List.infix_cons_iff.mp h with h | h
      · cases hpattern : pattern with
        | nil => exact .inr (List.nil_infix)
        | cons d rest =>
            rw [hpattern, List.cons_prefix_cons] at h
            exact absurd (hpattern ▸ h.1 ▸ List.mem_cons_self) hc
      · exact .inr h
    · cases beginning with
      | nil => exact .inl ((List.append_nil ending).symm ▸ hending.isInfix)
      | cons d rest =>
          obtain ⟨rfl, -⟩ := List.cons_prefix_cons.mp hbeginning
          exact absurd (List.mem_append_right _ List.mem_cons_self) hc
  · rintro (h | h)
    · exact h.trans List.infix_append_left
    · exact h.trans ((List.suffix_cons c t).isInfix.trans List.infix_append_right)

theorem contains_singleton (c : Char) (t : Text) : contains t [c] = decide (c ∈ t) := by
  by_cases h : c ∈ t
  · obtain ⟨before, rest, rfl, hbefore⟩ := List.eq_append_cons_of_mem h
    simp [contains, indexOf_append_cons hbefore]
  · simp [contains, indexOf_of_not_mem h, h]

theorem isDigitAscii_of_isDigit {c : Char} (h : c.isDigit = true) : isDigitAscii c = true := by
  simpa [isDigitAscii, Char.isDigit, Char.le_def] using h

theorem digitsValue_eq_ofDigitChars (digits : Text) :
    digitsValue digits = Nat.ofDigitChars 10 digits 0 := by
  rw [Nat.ofDigitChars_eq_foldl]
  rfl

theorem digitsValue_natText (n : Nat) : digitsValue (natText n) = n := by
  rw [natText, Nat.toList_repr, digitsValue_eq_ofDigitChars, Nat.ofDigitChars_ten_toDigits]

theorem isDigitAscii_of_mem_natText {n : Nat} {c : Char} (h : c ∈ natText n) :
    isDigitAscii c = true := by
  rw [natText, Nat.toList_repr] at h
  exact isDigitAscii_of_isDigit (Nat.isDigit_of_mem_toDigits (by decide) (by decide) h)

theorem natText_all (n : Nat) : (natText n).all isDigitAscii = true :=
  List.all_eq_true.mpr fun _ hc => isDigitAscii_of_mem_natText hc

theorem natText_ne_nil (n : Nat) : natText n ≠ [] := by
  rw [natText, Nat.toList_repr]
  exact Nat.toDigits_ne_nil

@[simp] theorem trim_nil : trim [] = [] := rfl

theorem trim_eq_self {t : Text} (hhead : ∀ c, t.head? = some c → isTrimmed c = false)
    (hlast : ∀ c, t.getLast? = some c → isTrimmed c = false) : trim t = t := by
  unfold trim
  have hdrop : t.dropWhile isTrimmed = t := by
    cases t with
    | nil => rfl
    | cons c t => simp [hhead c rfl]
  rw [hdrop]
  apply List.rdropWhile_eq_self_iff.mpr
  intro hne
  rw [hlast _ (List.getLast?_eq_getLast_of_ne_nil hne)]
  simp

theorem trim_cons_of_trimmed {c : Char} (h : isTrimmed c = true) (t : Text) :
    trim (c :: t) = trim t := by
  simp [trim, h]

/-- A property of the ASCII characters, checked one by one. -/
theorem of_ascii {p : Char → Bool}
    (h : ((List.range 128).all fun n => p (Char.ofNat n)) = true) {c : Char}
    (hc : c.toNat < 128) : p c = true := by
  have hp := List.all_eq_true.mp h c.toNat (List.mem_range.mpr hc)
  rwa [Char.ofNat_toNat] at hp

/-- A text splits in one way at the first place of a character. -/
theorem append_cons_inj {c : Char} {s s' t t' : Text} (hs : c ∉ s) (hs' : c ∉ s')
    (h : s ++ c :: t = s' ++ c :: t') : s = s' ∧ t = t' := by
  induction s generalizing s' with
  | nil =>
      cases s' with
      | nil => exact ⟨rfl, (List.cons.inj h).2⟩
      | cons d s' => exact absurd ((List.cons.inj h).1 ▸ List.mem_cons_self) hs'
  | cons d s ih =>
      cases s' with
      | nil => exact absurd ((List.cons.inj h).1 ▸ List.mem_cons_self) hs
      | cons d' s' =>
          obtain ⟨rfl, htail⟩ := List.cons.inj h
          obtain ⟨rfl, rfl⟩ := ih (fun hc => hs (List.mem_cons_of_mem _ hc))
            (fun hc => hs' (List.mem_cons_of_mem _ hc)) htail
          exact ⟨rfl, rfl⟩

end C2c.Library.JavaText
