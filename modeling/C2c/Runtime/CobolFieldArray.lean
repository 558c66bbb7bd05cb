import C2c.Runtime.HeldValues

namespace C2c.Runtime

open C2c.Library
open C2c.Library.JavaText
open C2c.Library.JavaObject
open C2c.Library.Raising

namespace CobolDecimal

def roundingNecessary : JavaException :=
  .arithmetic "Rounding necessary".toList

def intOverflow : JavaException :=
  .arithmetic "Overflow".toList

/-- `BigDecimal.intValueExact`.  A number with more than 19 digits before its
point is refused before its fraction is looked at. -/
def intValueExact (x : CobolDecimal) : Except JavaException Int :=
  let unscaled := x.value.unscaled
  if unscaled = 0 then .ok 0
  else if x.scale + 19 < (natText unscaled.natAbs).length then .error intOverflow
  else if unscaled.natAbs % 10 ^ x.scale ≠ 0 then .error roundingNecessary
  else
    let whole := unscaled / 10 ^ x.scale
    if whole < -2 ^ 31 ∨ intMax < whole then .error intOverflow else .ok whole

end CobolDecimal

namespace CobolField

/-- `CobolField.numericValue`. -/
def numericValue (field : CobolField) : Except JavaException CobolDecimal :=
  match field.contents with
  | .number _ value => .ok value
  | .display _ _ => .error field.isNotNumeric

/-- `CobolField.intValueExact`. -/
def intValueExact (field : CobolField) : Except JavaException Int := do
  let value ← field.numericValue
  value.intValueExact

end CobolField

/-- `CobolFieldArray`: the elements of a table, which share a picture. -/
structure CobolFieldArray where
  name : Text
  irNodeId : Text
  picture : PictureSpec
  elements : List CobolField
  filled : elements ≠ []
  alike : ∀ element ∈ elements, element.picture = picture

namespace CobolFieldArray

def length (array : CobolFieldArray) : Nat :=
  array.elements.length

def outOfBounds (array : CobolFieldArray) (oneBasedIndex : Int) : JavaException :=
  .indexOutOfBounds ("COBOL subscript for '".toList ++ array.name ++ "' out of bounds: ".toList ++
    intText oneBasedIndex ++ " (valid 1..".toList ++ natText array.length ++ [')'])

/-- `CobolFieldArray.get(int)`. -/
def get (array : CobolFieldArray) (oneBasedIndex : Int) : Except JavaException CobolField :=
  match if 1 ≤ oneBasedIndex then array.elements[(oneBasedIndex - 1).toNat]? else none with
  | some element => .ok element
  | none => .error (array.outOfBounds oneBasedIndex)

/-- The table with another element at a place. -/
def replace (array : CobolFieldArray) (oneBasedIndex : Int) (element : CobolField)
    (h : element.picture = array.picture) : CobolFieldArray where
  name := array.name
  irNodeId := array.irNodeId
  picture := array.picture
  elements := array.elements.set (oneBasedIndex - 1).toNat element
  filled hnil := array.filled (by simpa using hnil)
  alike := by
    intro other hother
    rcases List.mem_or_eq_of_mem_set hother with hmem | rfl
    · exact array.alike other hmem
    · exact h

end CobolFieldArray

end C2c.Runtime
