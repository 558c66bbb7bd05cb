import C2c.Library.TextPattern

namespace C2c.Evidence.FieldErrors

open C2c.Library.JavaText
open C2c.Library.TextPattern

/-- `FieldValidationError`. -/
structure FieldError where
  path : Text
  reason : Text
deriving DecidableEq

/-- `fieldError` under a condition, at the field itself. -/
def check (bad : Bool) (path : Text) (reason : String) : Option FieldError :=
  if bad then some ⟨path, reason.toList⟩ else none

/-- `fieldError` under a condition, at a member of the field. -/
def checkMember (bad : Bool) (path : Text) (member reason : String) : Option FieldError :=
  check bad (path ++ '.' :: member.toList) reason

def member (path : Text) (name : String) : Text :=
  path ++ '.' :: name.toList

/-- The path `name[i]` of an item of a list. -/
def item (path : Text) (i : Nat) : Text :=
  path ++ '[' :: natText i ++ [']']

/-- The checks of a validator in order: the first error wins. -/
def firstError (errors : List (Option FieldError)) : Option FieldError :=
  errors.findSome? id

/-- The validation of a pointer field: `nil` passes. -/
def validateOptional {α : Type} (validate : α → Option FieldError) (value : Option α) :
    Option FieldError :=
  value.bind validate

/-- The validation of the items of a list, each under its own path. -/
def validateEach {α : Type} (validate : Text → α → Option FieldError) (path : Text)
    (values : List α) : Option FieldError :=
  firstError (values.zipIdx.map fun entry => validate (item path entry.2) entry.1)

theorem firstError_eq_none {errors : List (Option FieldError)} :
    firstError errors = none ↔ ∀ error ∈ errors, error = none := by
  simp [firstError]

theorem firstError_cons_none {error : Option FieldError} {errors : List (Option FieldError)} :
    firstError (error :: errors) = none ↔ error = none ∧ firstError errors = none := by
  simp [firstError_eq_none]

theorem firstError_append_none {errors later : List (Option FieldError)} :
    firstError (errors ++ later) = none ↔ firstError errors = none ∧ firstError later = none := by
  simp [firstError_eq_none, or_imp, forall_and]

theorem check_eq_none {bad : Bool} {path : Text} {reason : String} :
    check bad path reason = none ↔ bad = false := by
  cases bad <;> simp [check]

/-- `\s` of a Go pattern. -/
def isPatternSpace (c : Char) : Bool :=
  c == '\t' || c == '\n' || c == '\x0c' || c == '\r' || c == ' '

/-- `[A-Za-z0-9` and the given characters `]`. -/
def alphanumericOr (others : List Char) (c : Char) : Bool :=
  c.isAlphanum || others.contains c

/-- A class under the flag `(?i)`. -/
def folded (p : Char → Bool) (c : Char) : Bool :=
  p c || p (fold c)

/-- `\bprefix[class]{least,}\b`, the shape of most token patterns. -/
def token (start : String) (least : Nat) (p : Char → Bool) : Pattern :=
  sequence [.boundary, literal false start.toList, .repeated least none p, .boundary]

def secretLikePatterns : List Pattern :=
  [sequence [literal true "bearer".toList, .repeated 1 none isPatternSpace,
      .repeated 8 none (folded (alphanumericOr ['.', '_', '-']))],
    token "sk-" 16 (alphanumericOr ['_', '-']),
    sequence [.boundary,
      alternatives (["sk_live", "sk_test", "pk_live", "pk_test"].map fun start =>
        literal false start.toList),
      literal false ['_'], .repeated 12 none Char.isAlphanum, .boundary],
    sequence [.boundary, literal false "AKIA".toList,
      .repeated 16 (some 16) fun c => isUpperAscii c || isDigitAscii c, .boundary],
    sequence [literal true "aws_secret_access_key".toList, .repeated 0 none isPatternSpace,
      .set fun c => c == ':' || c == '=', .repeated 0 none isPatternSpace,
      .repeated 20 none (folded (alphanumericOr ['/', '+', '=']))],
    sequence [.boundary, literal true "api".toList,
      .repeated 0 (some 1) fun c => c == '_' || c == '-', literal true "key".toList, .boundary,
      .repeated 0 none isPatternSpace, .set fun c => c == ':' || c == '=',
      .repeated 0 none isPatternSpace,
      .repeated 12 none (folded (alphanumericOr ['.', '_', '-']))],
    token "hf_" 20 Char.isAlphanum,
    token "ghp_" 20 Char.isAlphanum,
    token "ghs_" 20 Char.isAlphanum,
    token "github_pat_" 20 (alphanumericOr ['_']),
    sequence [.boundary, literal false "eyJ".toList, .repeated 8 none (alphanumericOr ['_', '-']),
      literal false ['.'], .repeated 8 none (alphanumericOr ['_', '-']), literal false ['.'],
      .repeated 8 none (alphanumericOr ['_', '-']), .boundary],
    sequence [literal false "-----BEGIN ".toList,
      .repeated 0 none fun c => isUpperAscii c || c == ' ',
      literal false "PRIVATE KEY-----".toList]]

/-- `ContainsSecretLike`. -/
def containsSecretLike (value : Text) : Bool :=
  secretLikePatterns.any fun pattern => found pattern value

end C2c.Evidence.FieldErrors
