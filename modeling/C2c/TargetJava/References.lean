import C2c.TargetJava.Literals

namespace C2c.TargetJava.References

open C2c.Library.JavaText
open C2c.Library.JavaObject
open C2c.TargetJava.Literals

/-- An entry of the generator's diagnostics, all of severity `info`. -/
structure Diagnostic where
  line : Int
  code : Text
  message : Text
deriving DecidableEq

/-- A value with the diagnostics its computation adds to the `EmissionState`. -/
structure Emits (α : Type) where
  value : α
  diagnostics : List Diagnostic

instance : Monad Emits where
  pure a := ⟨a, []⟩
  bind x f := ⟨(f x.value).value, x.diagnostics ++ (f x.value).diagnostics⟩

section Emits

variable {α β : Type}

@[simp] theorem value_pure (a : α) : (pure a : Emits α).value = a := rfl

@[simp] theorem diagnostics_pure (a : α) : (pure a : Emits α).diagnostics = [] := rfl

@[simp] theorem value_bind (x : Emits α) (f : α → Emits β) :
    (x >>= f).value = (f x.value).value := rfl

@[simp] theorem diagnostics_bind (x : Emits α) (f : α → Emits β) :
    (x >>= f).diagnostics = x.diagnostics ++ (f x.value).diagnostics := rfl

theorem emits_ext {x y : Emits α} (hvalue : x.value = y.value)
    (hdiagnostics : x.diagnostics = y.diagnostics) : x = y := by
  cases x
  cases y
  cases hvalue
  cases hdiagnostics
  rfl

instance : LawfulMonad Emits where
  map_const := rfl
  id_map _ := emits_ext rfl (List.append_nil _)
  seqLeft_eq _ _ := emits_ext rfl (by simp [Seq.seq, SeqLeft.seqLeft, Functor.map])
  seqRight_eq _ _ := emits_ext rfl (by simp [Seq.seq, SeqRight.seqRight, Functor.map])
  pure_seq _ _ := emits_ext rfl (by simp [Seq.seq, Functor.map])
  bind_pure_comp _ _ := rfl
  bind_map _ _ := rfl
  pure_bind _ _ := emits_ext rfl rfl
  bind_assoc _ _ _ := emits_ext rfl (List.append_assoc _ _ _)

@[simp] theorem value_map (f : α → β) (x : Emits α) : (f <$> x).value = f x.value := rfl

theorem value_mapM (f : α → Emits β) (xs : List α) :
    (xs.mapM f).value = xs.map fun x => (f x).value := by
  induction xs with
  | nil => rfl
  | cons x xs ih => simp [List.mapM_cons, ih]

end Emits

def note (line : Int) (code : String) (message : Text) : Emits Unit :=
  ⟨(), [⟨line, code.toList, message⟩]⟩

structure FieldEmission where
  fieldVar : Text
  cobolName : Text
  irNodeId : Text
  picture : Text
  occurs : Int
  numeric : Bool
  initialValue : Option Text
deriving DecidableEq

def FieldEmission.array (field : FieldEmission) : Bool :=
  1 < field.occurs

/-- `Map<String, FieldEmission>`, in insertion order. -/
abbrev Fields := List (Text × FieldEmission)

def Fields.get (fields : Fields) (name : Text) : Option FieldEmission :=
  fields.lookup name

/-- `LinkedHashMap.put`. -/
def Fields.put (fields : Fields) (name : Text) (field : FieldEmission) : Fields :=
  if fields.any fun entry => entry.1 == name then
    fields.map fun entry => if entry.1 == name then (name, field) else entry
  else fields ++ [(name, field)]

structure FieldReference where
  field : FieldEmission
  accessor : Text

/-- What every emission reads: the declared fields, and the statement at hand. -/
structure Site where
  fields : Fields
  line : Int
  stmtId : Text

/-- A message with the statement's id in parentheses behind it. -/
def Site.note (site : Site) (code : String) (message : Text) : Emits Unit :=
  References.note site.line code (message ++ " (".toList ++ site.stmtId ++ [')'])

variable (u : UnicodeData)

def referenceName (token : Text) : Text :=
  let text := u.toUpperCase (trim token)
  match indexOf ['('] text with
  | some paren => trim (text.take paren)
  | none => text

def referenceIndex (token : Text) : Option Text :=
  let text := trim token
  match indexOf ['('] text, lastIndexOf ')' text with
  | some start, some close =>
      if start < close then some (trim (substring text (start + 1) close)) else none
  | _, _ => none

/-- The whole part of the `double` nearest to `n / d`, below `2 ^ 31`.  Between
`2 ^ e` and `2 ^ (e + 1)` a `double` is a multiple of `2 ^ (e - 52)`. -/
def nearestDoubleWhole (n d : Nat) : Nat :=
  let shift := if n / d = 0 then 53 else 52 - Nat.log2 (n / d)
  let scaled := n * 2 ^ shift
  let mantissa := scaled / d
  let rest := 2 * (scaled % d)
  let rounded := if d < rest ∨ (rest = d ∧ mantissa % 2 = 1) then mantissa + 1 else mantissa
  rounded / 2 ^ shift

/-- `(int) Double.parseDouble(text)` of a numeric literal without a plus. -/
def doubleIntValue (text : Text) : Int :=
  let digits := dropSign text
  let n := digitsValue (digits.filter isDigitAscii)
  let d := 10 ^ literalScale digits
  if startsWith text ['-'] then
    if 2 ^ 31 ≤ n / d then -2 ^ 31 else -nearestDoubleWhole n d
  else if intMax ≤ n / d then intMax else nearestDoubleWhole n d

mutual

/-- `fieldReference`, as deep as `fuel`; a subscript is shorter than its token. -/
def fieldReferenceWithin (site : Site) : Nat → Text → Emits (Option FieldReference)
  | 0, _ => pure none
  | fuel + 1, token =>
      let name := referenceName u token
      if isBlank name then pure none
      else
        match site.fields.get name with
        | none => do
            site.note "unknown-field-reference" ("Field reference '".toList ++ token ++
              "' is not declared in IR fieldLayouts".toList)
            return none
        | some field =>
            let index := referenceIndex token
            if field.array then do
              let indexExpr ← elementIndex site fuel index
              if index.all isBlank then
                site.note "array-reference-missing-index" ("Array field reference '".toList ++
                  token ++ "' has no subscript; emitted index 1 fallback".toList)
              return some ⟨field, field.fieldVar ++ ".get(".toList ++ indexExpr ++ [')']⟩
            else do
              if index.isSome then
                site.note "scalar-reference-has-index" ("Scalar field reference '".toList ++
                  token ++ "' includes a subscript".toList)
              return some ⟨field, field.fieldVar⟩

/-- `indexExpression` of a subscript, or the index of a missing one. -/
def elementIndex (site : Site) : Nat → Option Text → Emits Text
  | _, none => pure ['1']
  | fuel, some index =>
      let text := trim index
      if isBlank index then pure ['1']
      else if isNumericLiteral text then pure (intText (doubleIntValue (stripLeadingPlus text)))
      else do
        match ← fieldReferenceWithin site fuel text with
        | some ref => return ref.accessor ++ ".intValueExact()".toList
        | none =>
            site.note "unsupported-array-index" ("Array subscript '".toList ++ index ++
              "' is not a numeric literal or declared field".toList)
            return ['1']

end

/-- `JavaProjectGenerator.fieldReference`. -/
def fieldReference (site : Site) (token : Text) : Emits (Option FieldReference) :=
  fieldReferenceWithin u site (token.length + 1) token

end C2c.TargetJava.References
