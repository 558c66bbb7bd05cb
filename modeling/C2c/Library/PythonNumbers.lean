import C2c.Library.PythonJson

/-!
`int(value)` of the values of `json.loads`.
-/

namespace C2c.Library.PythonNumbers

open C2c.Library.JavaText
open C2c.Library.PythonText
open C2c.Library.PythonJson

/-- The exceptions of a conversion. -/
inductive PythonError
  | valueError (message : Text)
  | typeError
  | overflowError
deriving DecidableEq

/-- `sys.get_int_max_str_digits()`. -/
def intMaxStrDigits : Nat := 4300

/-- Digits, single underscores between them being left out. -/
def plainDigits (t : Text) : Option Text :=
  let pieces := splitAtChar '_' t
  if pieces.all (fun piece => !piece.isEmpty && piece.all isDigitAscii) then some pieces.flatten
  else none

/-- `int(t)` of a string in ASCII. -/
def intOfText (t : Text) : Except PythonError Int :=
  let invalid := PythonError.valueError
    ("invalid literal for int() with base 10: ".toList ++ reprText t)
  let (negative, digits) :=
    match strip t with
    | '-' :: digits => (true, digits)
    | '+' :: digits => (false, digits)
    | digits => (false, digits)
  match plainDigits digits with
  | some digits =>
      if digits.length ≤ intMaxStrDigits then
        .ok (if negative then -(digitsValue digits : Int) else digitsValue digits)
      else .error invalid
  | none => .error invalid

/-- `int(x)` of a float by its `repr`; `whole` gives the whole part of a finite one. -/
def intOfFloat (whole : Text → Int) (t : Text) : Except PythonError Int :=
  if t = "nan".toList then
    .error (.valueError "cannot convert float NaN to integer".toList)
  else if t = "inf".toList ∨ t = "-inf".toList then .error .overflowError
  else .ok (whole t)

/-- `int(value)`; a number whose text is not that of an integer is a float. -/
def intOf (whole : Text → Int) : Json → Except PythonError Int
  | .bool b => .ok (if b then 1 else 0)
  | .number ('-' :: digits) =>
      if digits ≠ [] ∧ digits.all isDigitAscii = true then .ok (-(digitsValue digits : Int))
      else intOfFloat whole ('-' :: digits)
  | .number digits =>
      if digits ≠ [] ∧ digits.all isDigitAscii = true then .ok (digitsValue digits)
      else intOfFloat whole digits
  | .text t => intOfText t
  | .null => .error .typeError
  | .array _ => .error .typeError
  | .object _ => .error .typeError

/-- The whole parts of the finite floats; a float that is false is zero. -/
structure WholePart where
  of : Text → Int
  zero : ∀ t, truthy (.number t) = false → of t = 0

theorem digitsValue_zeros {t : Text} (h : ∀ c ∈ t, c = '0') : digitsValue t = 0 := by
  induction t with
  | nil => rfl
  | cons c t ih =>
      obtain ⟨rfl, ht⟩ := List.forall_mem_cons.mp h
      exact ih ht

theorem digitsValue_falsy {t : Text} (hfalse : ∀ c ∈ t, ['0', '.', '-'].contains c = true)
    (hdigits : t.all isDigitAscii = true) : digitsValue t = 0 := by
  apply digitsValue_zeros
  intro c hc
  have hdigit := List.all_eq_true.mp hdigits c hc
  have hset := hfalse c hc
  rw [List.contains_iff_mem, List.mem_cons, List.mem_cons, List.mem_singleton] at hset
  rcases hset with rfl | rfl | rfl
  · rfl
  · exact absurd hdigit (by decide)
  · exact absurd hdigit (by decide)

theorem intOfFloat_falsy (whole : WholePart) {t : Text} (h : truthy (.number t) = false) :
    intOfFloat whole.of t = .ok 0 := by
  have hne : ∀ s : Text, truthy (.number s) = true → t ≠ s := by
    rintro s hs rfl
    rw [h] at hs
    exact absurd hs (by decide)
  rw [intOfFloat, if_neg (hne _ (by decide)),
    if_neg (not_or.mpr ⟨hne _ (by decide), hne _ (by decide)⟩), whole.zero t h]

theorem falsy_number {t : Text} (h : truthy (.number t) = false) :
    ∀ c ∈ t, ['0', '.', '-'].contains c = true := by
  intro c hc
  have hset := List.any_eq_false.mp h c hc
  rwa [Bool.not_eq_true, Bool.not_eq_false'] at hset

/-- A number that is false is zero. -/
theorem intOf_falsy (whole : WholePart) {t : Text} (h : truthy (.number t) = false) :
    intOf whole.of (.number t) = .ok 0 := by
  have hfalse := falsy_number h
  unfold intOf
  split
  · next heq => cases heq
  · next digits heq =>
      obtain rfl := Json.number.inj heq
      split_ifs with hdigits
      · rw [digitsValue_falsy (fun c hc => hfalse c (List.mem_cons_of_mem _ hc)) hdigits.2]
        rfl
      · exact intOfFloat_falsy whole h
  · next digits _ heq =>
      obtain rfl := Json.number.inj heq
      split_ifs with hdigits
      · rw [digitsValue_falsy hfalse hdigits.2]
        rfl
      · exact intOfFloat_falsy whole h
  all_goals next heq => cases heq

/-- An integer is found again in its text. -/
theorem intOf_natText (whole : Text → Int) (n : Nat) :
    intOf whole (.number (natText n)) = .ok n := by
  have hdigits := natText_all n
  have hminus : ∀ digits, natText n ≠ '-' :: digits := by
    intro digits heq
    rw [heq] at hdigits
    exact absurd (List.all_eq_true.mp hdigits '-' List.mem_cons_self) (by decide)
  rw [intOf, if_pos ⟨natText_ne_nil n, hdigits⟩, digitsValue_natText]
  exact hminus

end C2c.Library.PythonNumbers
