import C2c.Library.JavaObject

namespace C2c.Runtime.PictureSpec

open C2c.Library.JavaText
open C2c.Library.JavaObject

inductive Category
  | numeric
  | alphanumeric
  | alphabetic
deriving DecidableEq

/-- One alternative of `symbol\((\d+)\)|(symbol+)`: a repeat count or a run. -/
inductive Repeat
  | count (digits : Text)
  | run (length : Nat)
deriving DecidableEq

/-- The positions a repeat stands for. -/
def Repeat.width : Repeat → Except JavaException Nat
  | .count digits => parseInteger digits
  | .run length => .ok length

/-- The scale a numeric picture gives. -/
def scaleWidth : Option Repeat → Except JavaException Nat
  | some positions => positions.width
  | none => .ok 0

/-- The text a repeat of a symbol was read from. -/
def Repeat.text (symbol : Char) : Repeat → Text
  | .count digits => symbol :: '(' :: digits ++ [')']
  | .run length => List.replicate length symbol

/-- A count has digits and a run has symbols. -/
def Repeat.WellFormed : Repeat → Prop
  | .count digits => digits ≠ [] ∧ ∀ c ∈ digits, isDigitAscii c = true
  | .run length => 0 < length

/-- A repeat of a symbol at the head of a text, and what is left. -/
def matchRepeat (symbol : Char) (t : Text) : Option (Repeat × Text) :=
  match t with
  | c :: rest =>
      if c = symbol then
        match parenthesizedDigits rest with
        | some digits => some (.count digits, rest.drop (digits.length + 2))
        | none => some (.run (t.takeWhile (· == symbol)).length, t.dropWhile (· == symbol))
      else none
  | [] => none

/-- `NUMERIC`: the sign group, the integer part and the scale part. -/
def matchNumeric (t : Text) : Option (Bool × Repeat × Option Repeat) :=
  let signed := startsWith t ['S']
  match matchRepeat '9' (if signed then t.drop 1 else t) with
  | some (whole, []) => some (signed, whole, none)
  | some (whole, 'V' :: rest) =>
      match matchRepeat '9' rest with
      | some (fraction, []) => some (signed, whole, some fraction)
      | _ => none
  | _ => none

/-- `ALNUM` and `ALPHA`: one repeat and nothing else. -/
def matchOnly (symbol : Char) (t : Text) : Option Repeat :=
  match matchRepeat symbol t with
  | some (positions, []) => some positions
  | _ => none

/-- The text of a numeric picture. -/
def numericText (signed : Bool) (whole : Repeat) (fraction : Option Repeat) : Text :=
  (if signed then ['S'] else []) ++ whole.text '9' ++
    (match fraction with
      | some positions => 'V' :: positions.text '9'
      | none => [])

theorem parenthesizedDigits_eq_some {t digits : Text} (h : parenthesizedDigits t = some digits) :
    t = '(' :: digits ++ ')' :: t.drop (digits.length + 2) ∧
      (Repeat.count digits).WellFormed := by
  cases t with
  | nil => cases h
  | cons c t =>
      by_cases hc : c = '('
      · subst hc
        simp only [parenthesizedDigits] at h
        split at h
        · rename_i hclosed
          obtain rfl := Option.some.inj h
          simp only [Bool.and_eq_true, Bool.not_eq_true', List.isEmpty_eq_false_iff] at hclosed
          obtain ⟨hdigits, hclosed⟩ := hclosed
          obtain ⟨rest, hrest⟩ := List.isPrefixOf_iff_prefix.mp hclosed
          have hsplit : t = t.takeWhile isDigitAscii ++ ')' :: rest := by
            conv_lhs => rw [← List.takeWhile_append_dropWhile (p := isDigitAscii) (l := t)]
            rw [← hrest]
            rfl
          refine ⟨?_, hdigits, fun c hc => List.mem_takeWhile_imp hc⟩
          have hdrop : ('(' :: t).drop ((t.takeWhile isDigitAscii).length + 2) = rest := by
            generalize t.takeWhile isDigitAscii = digits at hsplit ⊢
            rw [hsplit]
            simp
          rw [hdrop]
          simpa using hsplit
        · cases h
      · simp [parenthesizedDigits, hc] at h

theorem parenthesizedDigits_text {digits : Text} (h : (Repeat.count digits).WellFormed)
    (rest : Text) : parenthesizedDigits ('(' :: digits ++ ')' :: rest) = some digits := by
  obtain ⟨hne, hdigits⟩ := h
  have htake : (digits ++ ')' :: rest).takeWhile isDigitAscii = digits := by
    rw [List.takeWhile_append_of_pos hdigits]
    simp [isDigitAscii]
  have hdrop : (digits ++ ')' :: rest).dropWhile isDigitAscii = ')' :: rest := by
    rw [List.dropWhile_append_of_pos hdigits]
    simp [isDigitAscii]
  simp [parenthesizedDigits, htake, hdrop, hne, startsWith]

theorem matchRepeat_eq_some {symbol : Char} {t rest : Text} {positions : Repeat}
    (h : matchRepeat symbol t = some (positions, rest)) :
    t = positions.text symbol ++ rest ∧ positions.WellFormed := by
  cases t with
  | nil => cases h
  | cons c t =>
      simp only [matchRepeat] at h
      split at h
      · rename_i hc
        subst hc
        split at h
        · rename_i digits hdigits
          obtain ⟨rfl, rfl⟩ := Prod.mk.inj (Option.some.inj h)
          obtain ⟨htext, hwellFormed⟩ := parenthesizedDigits_eq_some hdigits
          refine ⟨?_, hwellFormed⟩
          simpa [Repeat.text] using htext
        · obtain ⟨rfl, rfl⟩ := Prod.mk.inj (Option.some.inj h)
          refine ⟨?_, by simp [Repeat.WellFormed]⟩
          have hrun : (c :: t).takeWhile (· == c) =
              List.replicate ((c :: t).takeWhile (· == c)).length c := by
            apply List.eq_replicate_of_mem
            intro d hd
            simpa using List.mem_takeWhile_imp hd
          rw [Repeat.text, ← hrun, List.takeWhile_append_dropWhile]
      · cases h

theorem matchOnly_eq_some {symbol : Char} {t : Text} {positions : Repeat}
    (h : matchOnly symbol t = some positions) :
    t = positions.text symbol ∧ positions.WellFormed := by
  unfold matchOnly at h
  split at h
  · rename_i hmatch
    obtain rfl := Option.some.inj h
    simpa using matchRepeat_eq_some hmatch
  · cases h

theorem matchNumeric_eq_some {t : Text} {signed : Bool} {whole : Repeat}
    {fraction : Option Repeat} (h : matchNumeric t = some (signed, whole, fraction)) :
    t = numericText signed whole fraction ∧ whole.WellFormed ∧
      ∀ positions ∈ fraction, positions.WellFormed := by
  have hsign : t = (if startsWith t ['S'] then ['S'] else []) ++
      (if startsWith t ['S'] then t.drop 1 else t) := by
    split
    · rename_i hs
      obtain ⟨rest, rfl⟩ := List.isPrefixOf_iff_prefix.mp hs
      rfl
    · rfl
  unfold matchNumeric at h
  dsimp only at h
  split at h
  · rename_i hwhole
    obtain ⟨htext, hwellFormed⟩ := matchRepeat_eq_some hwhole
    simp only [Option.some.injEq, Prod.mk.injEq] at h
    obtain ⟨rfl, rfl, rfl⟩ := h
    refine ⟨?_, hwellFormed, by simp⟩
    rw [htext] at hsign
    simpa [numericText] using hsign
  · rename_i hwhole
    obtain ⟨htext, hwellFormed⟩ := matchRepeat_eq_some hwhole
    split at h
    · rename_i hfraction
      obtain ⟨hrest, hpositions⟩ := matchRepeat_eq_some hfraction
      simp only [Option.some.injEq, Prod.mk.injEq] at h
      obtain ⟨rfl, rfl, rfl⟩ := h
      refine ⟨?_, hwellFormed, by simpa using hpositions⟩
      rw [htext, hrest] at hsign
      simpa [numericText] using hsign
    · cases h
  · cases h

end C2c.Runtime.PictureSpec

namespace C2c.Runtime

open C2c.Library.JavaText
open C2c.Library.JavaObject
open C2c.Runtime.PictureSpec

/-- `PictureSpec`. -/
structure PictureSpec where
  raw : Text
  category : Category
  integerDigits : Nat
  scale : Nat
  byteSize : Int
  signed : Bool
deriving DecidableEq

namespace PictureSpec

def isNumeric (spec : PictureSpec) : Bool :=
  spec.category == .numeric

def normalize (u : UnicodeData) (picture : Text) : Text :=
  u.toUpperCase (trim picture)

/-- `PictureSpec.parse`. -/
def parse (u : UnicodeData) (picture : Text) : Except JavaException PictureSpec :=
  let normalized := normalize u picture
  if normalized.isEmpty then .error (.illegalArgument "PIC clause is empty".toList)
  else
    match matchNumeric normalized with
    | some (signed, whole, fraction) => do
        let integerDigits ← whole.width
        let scale ← scaleWidth fraction
        return ⟨picture, .numeric, integerDigits, scale, toInt (integerDigits + scale), signed⟩
    | none =>
        match matchOnly 'X' normalized with
        | some positions => do
            let length ← positions.width
            return ⟨picture, .alphanumeric, 0, 0, length, false⟩
        | none =>
            match matchOnly 'A' normalized with
            | some positions => do
                let length ← positions.width
                return ⟨picture, .alphabetic, 0, 0, length, false⟩
            | none =>
                .error (.illegalArgument ("Unsupported PIC clause for W0 runtime: ".toList ++
                  picture ++ (" (W0 supports 9(n), S9(n), 9(n)V9(s), S9(n)V9(s), X(n), " ++
                    "A(n))").toList))

end PictureSpec

end C2c.Runtime
