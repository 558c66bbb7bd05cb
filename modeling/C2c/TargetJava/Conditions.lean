import C2c.TargetJava.Expressions

namespace C2c.TargetJava.Conditions

open C2c.Library.JavaText
open C2c.Library.JavaObject
open C2c.TargetJava.Literals
open C2c.TargetJava.References
open C2c.TargetJava.Expressions

variable (u : UnicodeData) (site : Site)

def hasOperator (text : Text) : Bool :=
  contains text ['+'] || contains text ['-'] || contains text ['*'] || contains text ['/']

def isNumericComparable (token : Text) : Bool :=
  let text := trim token
  isNumericLiteral text || hasOperator text ||
    (site.fields.get (referenceName u text)).any fun field => field.numeric

def displayTextExpression (token : Text) : Emits Text := do
  let text := trim token
  if isQuoted text then
    return javaStringLiteral (unquote text)
  match ← fieldReference u site text with
  | some ref => return ref.accessor ++ ".displayValue().trim()".toList
  | none => return javaStringLiteral text

/-- The method of `ConditionStatus` for an operator. -/
def comparisonMethod (operator : Text) : Text :=
  if operator == ['='] then "equalTo".toList
  else if operator == ['<', '>'] then "notEqual".toList
  else if operator == ['>'] then "greaterThan".toList
  else if operator == ['<'] then "lessThan".toList
  else if operator == ['>', '='] then "greaterOrEqual".toList
  else if operator == ['<', '='] then "lessOrEqual".toList
  else "equalTo".toList

def relationalExpression (left operator right : Text) : Emits Text := do
  if isNumericComparable u site left && isNumericComparable u site right then
    let leftNumber ← numericExpression u site left
    let rightNumber ← numericExpression u site right
    return "ConditionStatus.".toList ++ comparisonMethod operator ++ '(' :: leftNumber ++
      ", ".toList ++ rightNumber ++ [')']
  let leftText ← displayTextExpression u site left
  let rightText ← displayTextExpression u site right
  if operator == ['='] then
    return leftText ++ ".equals(".toList ++ rightText ++ [')']
  if operator == ['<', '>'] then
    return '!' :: leftText ++ ".equals(".toList ++ rightText ++ [')']
  site.note "condition-nonnumeric-relational"
    "Non-numeric relational condition requires equality operator".toList
  return "false".toList

/-- `conditionExpression`; a `null` condition is the blank one.  The generator's
`indexOfOperator` repeats the one of the Semantic IR service. -/
def conditionExpression (condition : Text) : Emits Text := do
  let text := trim condition
  if isBlank text then
    site.note "condition-missing" "Condition missing in IR operands".toList
    return "false".toList
  match C2c.SemanticIr.Statements.findOperator text with
  | some (operator, i) =>
      relationalExpression u site (trim (text.take i)) operator
        (trim (text.drop (i + operator.length)))
  | none =>
      note site.line "condition-unsupported" ("Condition has no supported relational operator (".toList ++
        site.stmtId ++ "): ".toList ++ text)
      return "false".toList

def evaluateCondition (selector value : Text) : Emits Text := do
  if isNumericComparable u site selector && isNumericComparable u site value then
    relationalExpression u site selector ['='] value
  else
    let selectorText ← displayTextExpression u site selector
    let valueText ← displayTextExpression u site value
    return selectorText ++ ".equals(".toList ++ valueText ++ [')']

end C2c.TargetJava.Conditions
