import C2c.Library.Machine
import C2c.Library.Raising
import C2c.Runtime.CobolDecimal
import C2c.Runtime.PictureSpec

namespace C2c.Runtime

open C2c.Library
open C2c.Library.JavaText
open C2c.Library.JavaObject
open C2c.Library.BigDecimal
open C2c.Library.Raising

/-- What a field holds: a number under a numeric picture, characters under any
other. -/
inductive Contents (picture : PictureSpec)
  | number (h : picture.isNumeric = true) (value : CobolDecimal)
  | display (h : picture.isNumeric = false) (text : Units)

structure CobolField where
  name : Text
  irNodeId : Text
  picture : PictureSpec
  contents : Contents picture

/-- `Category.toString`. -/
def PictureSpec.Category.text : PictureSpec.Category → Text
  | .numeric => "NUMERIC".toList
  | .alphanumeric => "ALPHANUMERIC".toList
  | .alphabetic => "ALPHABETIC".toList

namespace CobolField

/-- The constructor of `CobolField`. -/
def new (name irNodeId : Text) (picture : PictureSpec) : Except JavaException CobolField :=
  if h : picture.isNumeric = true then do
    let zero ← CobolDecimal.ofWhole 0 picture.scale picture.signed
    return ⟨name, irNodeId, picture, .number h zero⟩
  else if picture.byteSize < 0 then
    .error (.illegalArgument ("count is negative: ".toList ++ intText picture.byteSize))
  else
    return ⟨name, irNodeId, picture,
      .display (Bool.eq_false_iff.mpr h) (List.replicate picture.byteSize.toNat 32)⟩

/-- `overflowsIntegerDigits`: the scale is applied already. -/
def overflowsIntegerDigits (picture : PictureSpec) (candidate : CobolDecimal) :
    Except JavaException Bool := do
  let integerPart ← candidate.value.abs.toBigInteger
  let limit ← powerOfTen picture.integerDigits
  return decide ((limit : Int) ≤ integerPart)

def isNotNumeric (field : CobolField) : JavaException :=
  .illegalState ("Field '".toList ++ field.name ++ "' is not numeric (PIC ".toList ++
    field.picture.raw ++ [')'])

def isUnsigned (field : CobolField) (value : CobolDecimal) : JavaException :=
  .illegalState ("Field '".toList ++ field.name ++
    "' is unsigned but received negative value: ".toList ++ value.toText)

def overflows (field : CobolField) (value : CobolDecimal) : JavaException :=
  .illegalState ("Field '".toList ++ field.name ++ "' overflows PIC ".toList ++
    field.picture.raw ++ ": ".toList ++ value.toText)

/-- `CobolField.setNumericValue`. -/
def setNumericValue (value : CobolDecimal) : EStateM JavaException CobolField Unit := do
  let field ← get
  if h : field.picture.isNumeric = true then
    let rescaled ← returning (value.rescale field.picture.scale)
    require (field.picture.signed = true ∨ 0 ≤ rescaled.value.unscaled) (field.isUnsigned value)
    let tooLarge ← returning (overflowsIntegerDigits field.picture rescaled)
    require (tooLarge = false) (field.overflows value)
    let stored ← returning <|
      if field.picture.signed && !rescaled.signed then
        CobolDecimal.ofValue rescaled.value rescaled.scale true
      else .ok rescaled
    set { field with contents := .number h stored }
  else throw field.isNotNumeric

/-- The scale a literal is written at. -/
def literalScale (literal : Units) : Nat :=
  match literal.idxOf? (unit '.') with
  | some dot => literal.length - dot - 1
  | none => 0

/-- `CobolField.moveNumericLiteral`. -/
def moveNumericLiteral (d : DigitData) (literal : Units) :
    EStateM JavaException CobolField Unit := do
  let field ← get
  require (field.picture.isNumeric = true) <|
    .illegalState ("Cannot move numeric literal into non-numeric field '".toList ++ field.name ++
      ['\''])
  let trimmed := trimUnits literal
  let signedLiteral := trimmed.head? == some (unit '-')
  let normalized := if trimmed.head? == some (unit '+') then trimmed.tail else trimmed
  let value ← returning (CobolDecimal.ofLiteral d normalized (literalScale normalized)
    (signedLiteral || field.picture.signed))
  setNumericValue value

/-- `CobolField.moveLiteral`. -/
def moveLiteral (literal : Units) : EStateM JavaException CobolField Unit := do
  let field ← get
  if h : field.picture.isNumeric = false then
    let width := field.picture.byteSize
    if width ≤ literal.length then
      require (0 ≤ width) <|
        .indexOutOfBounds ("begin 0, end ".toList ++ intText width ++ ", length ".toList ++
          natText literal.length)
      set { field with contents := .display h (literal.take width.toNat) }
    else
      set { field with
        contents := .display h (literal ++ List.replicate (width.toNat - literal.length) 32) }
  else
    throw (.illegalState ("Cannot move string literal into numeric field '".toList ++ field.name ++
      ['\'']))

def incompatible (source field : CobolField) : JavaException :=
  .illegalState ("MOVE between incompatible categories: '".toList ++ source.name ++ "' (".toList ++
    source.picture.category.text ++ ") into '".toList ++ field.name ++ "' (".toList ++
    field.picture.category.text ++ [')'])

/-- `CobolField.moveFrom`: what a source holds says whether it is numeric. -/
def moveFrom (source : CobolField) : EStateM JavaException CobolField Unit := do
  let field ← get
  match source.contents with
  | .number _ value =>
      require (field.picture.isNumeric = true) (incompatible source field)
      setNumericValue value
  | .display _ text =>
      require (field.picture.isNumeric = false) (incompatible source field)
      moveLiteral text

/-- `String.substring(int)`. -/
def substringFrom (t : Text) (start : Int) : Except JavaException Text :=
  if start < 0 ∨ (t.length : Int) < start then
    .error (.indexOutOfBounds ("begin ".toList ++ intText start ++ ", end ".toList ++
      natText t.length ++ ", length ".toList ++ natText t.length))
  else .ok (t.drop start.toNat)

/-- The digits of a number, brought to a width. -/
def padTo (width : Int) (unscaled : Text) : Except JavaException Text :=
  if width ≤ unscaled.length then substringFrom unscaled (toInt (unscaled.length - width))
  else .ok (List.replicate (width - unscaled.length).toNat '0' ++ unscaled)

/-- `formatNumericForDisplay`. -/
def formatNumericForDisplay (u : UnicodeData) (picture : PictureSpec) (value : CobolDecimal) :
    Except JavaException Text := do
  let moved ← value.value.abs.movePointRight picture.scale
  let unscaled ← moved.toBigInteger
  let padded ← padTo (toInt (picture.integerDigits + picture.scale)) (intText unscaled)
  let sign : Text :=
    if picture.signed then [if value.value.unscaled < 0 then '-' else '+'] else []
  if 0 < picture.scale then
    let dot := padded.length - picture.scale
    return u.toUpperCase (sign ++ padded.take dot ++ '.' :: padded.drop dot)
  else return u.toUpperCase (sign ++ padded)

/-- `CobolField.displayValue`. -/
def displayValue (u : UnicodeData) (field : CobolField) : Except JavaException Units :=
  match field.contents with
  | .number _ value => do
      let text ← formatNumericForDisplay u field.picture value
      return units text
  | .display _ text => .ok text

/-- A call that may change a field.  A field moved into itself is a source in
the state the field has. -/
inductive Call
  | setNumericValue (value : CobolDecimal)
  | moveNumericLiteral (literal : Units)
  | moveFrom (source : CobolField)
  | moveLiteral (literal : Units)

def Call.perform (d : DigitData) : Call → EStateM JavaException CobolField Unit
  | .setNumericValue value => CobolField.setNumericValue value
  | .moveNumericLiteral literal => CobolField.moveNumericLiteral d literal
  | .moveFrom source => CobolField.moveFrom source
  | .moveLiteral literal => CobolField.moveLiteral literal

/-- The field after a call, whether it returns or throws. -/
def step (d : DigitData) (field : CobolField) (call : Call) : CobolField :=
  stateAfter (call.perform d) field

end CobolField

end C2c.Runtime
