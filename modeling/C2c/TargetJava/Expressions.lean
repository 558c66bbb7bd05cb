import C2c.TargetJava.References

namespace C2c.TargetJava.Expressions

open C2c.Library.JavaText
open C2c.Library.JavaObject
open C2c.TargetJava.Literals
open C2c.TargetJava.References

/-- Read on to the parenthesis that brings `depth` down to zero, and what is
left behind it; `none` is the `-1` of `matchingParen`. -/
def takeMatching : Nat → Text → Option (Text × Text)
  | _, [] => none
  | depth, c :: t =>
      if c == '(' then (takeMatching (depth + 1) t).map fun p => (c :: p.1, p.2)
      else if c == ')' then
        if depth = 1 then some ([c], t)
        else (takeMatching (depth - 1) t).map fun p => (c :: p.1, p.2)
      else (takeMatching depth t).map fun p => (c :: p.1, p.2)

section Tokenizer

variable (u : UnicodeData)

def isNumberCharacter (c : Char) : Bool :=
  u.isDigit c || c == '.'

def isNameCharacter (c : Char) : Bool :=
  u.isLetterOrDigit c || c == '-'

/-- Whether a sign before the text `t` belongs to a number. -/
def unarySign (previous : Option Text) (c : Char) (t : Text) : Bool :=
  (c == '+' || c == '-') &&
    (match t with
      | next :: _ => isNumberCharacter u next
      | [] => false) &&
    previous.all fun token => contains "+-*/(".toList token

/-- A name and the subscript behind it, if there is one. -/
def nameToken (name t : Text) : Text × Text :=
  let upper := u.toUpperCase name
  let behind := t.dropWhile isWhitespace
  if startsWith behind ['('] then
    match takeMatching 0 behind with
    | some (group, rest) => (upper ++ ' ' :: u.toUpperCase (trim group), rest)
    | none => (upper, t)
  else (upper, t)

/-- One round of the loop of `tokenizeExpression` at a character that is no
blank: the token, and what is left. -/
def nextToken (previous : Option Text) (c : Char) (t : Text) : Text × Text :=
  if u.isDigit c || c == '.' || unarySign u previous c t then
    (c :: t.takeWhile (isNumberCharacter u), t.dropWhile (isNumberCharacter u))
  else if u.isLetter c then
    nameToken u (c :: t.takeWhile (isNameCharacter u)) (t.dropWhile (isNameCharacter u))
  else ([c], t)

/-- The loop of `tokenizeExpression`; every round consumes a character. -/
def tokenizeFrom : Nat → Option Text → Text → List Text
  | 0, _, _ => []
  | fuel + 1, previous, t =>
      match t.dropWhile isWhitespace with
      | [] => []
      | c :: t =>
          let token := nextToken u previous c t
          token.1 :: tokenizeFrom fuel (some token.1) token.2

/-- `tokenizeExpression`. -/
def tokenizeExpression (value : Text) : List Text :=
  if isBlank value then [] else tokenizeFrom u value.length none value

end Tokenizer

section Parser

variable (u : UnicodeData) (site : Site)

def zeroExpression : Text :=
  "CobolDecimal.of(0L, 0, false)".toList

def addSubMethod (op : Text) : Option Text :=
  if op == ['+'] then some ".add(".toList
  else if op == ['-'] then some ".subtract(".toList
  else none

def mulDivMethod (op : Text) : Option Text :=
  if op == ['*'] then some ".multiply(".toList
  else if op == ['/'] then some ".divide(".toList
  else none

/-- A token that is neither a parenthesis nor missing. -/
def operandToken (token : Text) : Emits Text := do
  if isNumericLiteral token then
    return decimalLiteral token
  match ← fieldReference u site token with
  | some field => return field.accessor ++ ".numericValue()".toList
  | none =>
      site.note "numeric-expression-unknown-token" ("Numeric expression token '".toList ++ token ++
        "' is unsupported".toList)
      return zeroExpression

mutual

/-- `ExpressionParser.parseAddSub`: the Java text, and the tokens left.  The
loops are `addSubRest` and `mulDivRest`. -/
def parseAddSub : Nat → List Text → Emits (Text × List Text)
  | 0, tokens => pure ([], tokens)
  | fuel + 1, tokens => do
      let (left, rest) ← parseMulDiv fuel tokens
      addSubRest fuel left rest

def addSubRest : Nat → Text → List Text → Emits (Text × List Text)
  | fuel + 1, left, op :: tokens =>
      match addSubMethod op with
      | some method => do
          let (right, rest) ← parseMulDiv fuel tokens
          addSubRest fuel (left ++ method ++ right ++ [')']) rest
      | none => pure (left, op :: tokens)
  | _, left, tokens => pure (left, tokens)

def parseMulDiv : Nat → List Text → Emits (Text × List Text)
  | 0, tokens => pure ([], tokens)
  | fuel + 1, tokens => do
      let (left, rest) ← parseFactor fuel tokens
      mulDivRest fuel left rest

def mulDivRest : Nat → Text → List Text → Emits (Text × List Text)
  | fuel + 1, left, op :: tokens =>
      match mulDivMethod op with
      | some method => do
          let (right, rest) ← parseFactor fuel tokens
          mulDivRest fuel (left ++ method ++ right ++ [')']) rest
      | none => pure (left, op :: tokens)
  | _, left, tokens => pure (left, tokens)

def parseFactor : Nat → List Text → Emits (Text × List Text)
  | _, [] => do
      site.note "numeric-expression-missing-factor" "Numeric expression ended before a factor".toList
      return (zeroExpression, [])
  | 0, tokens => pure ([], tokens)
  | fuel + 1, token :: tokens =>
      if token == ['('] then do
        let (nested, rest) ← parseAddSub fuel tokens
        match rest with
        | close :: rest' => return (nested, if close == [')'] then rest' else rest)
        | [] => return (nested, [])
      else do
        let operand ← operandToken u site token
        return (operand, tokens)

end

/-- Three levels of recursion for every token. -/
def parserFuel (tokens : List Text) : Nat :=
  3 * tokens.length + 3

/-- `ExpressionParser.parse`. -/
def parseExpression (tokens : List Text) : Emits Text := do
  if tokens.isEmpty then
    site.note "numeric-expression-empty" "Numeric expression is empty".toList
    return zeroExpression
  let (expression, rest) ← parseAddSub u site (parserFuel tokens) tokens
  match rest with
  | token :: _ =>
      site.note "numeric-expression-trailing-token" ("Numeric expression has trailing token '".toList ++
        token ++ ['\''])
  | [] => pure ()
  return expression

/-- `numericExpression`. -/
def numericExpression (expression : Text) : Emits Text :=
  parseExpression u site (tokenizeExpression u expression)

end Parser

end C2c.TargetJava.Expressions
