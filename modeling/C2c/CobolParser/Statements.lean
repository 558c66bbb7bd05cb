import C2c.CobolParser.DataDivision

namespace C2c.CobolParser.Statements

open C2c.Library.JavaText
open C2c.Library.JavaObject
open C2c.CobolParser.Model
open C2c.CobolParser.Tokens
open C2c.CobolParser.DataDivision

def firstToken (value : Text) : Text :=
  value.takeWhile (· != ' ')

def parseMove (statementText : Text) (operands : ObjectMap) : ObjectMap :=
  let body := statementText.drop 5
  match indexOf " TO ".toList body with
  | none => put "raw".toList (.str body) operands
  | some toIndex =>
      let operands := put "source".toList (.str (trim (body.take toIndex))) operands
      put "targets".toList (.texts (splitArguments (body.drop (toIndex + 4)))) operands

def parsePerform (statementText : Text) (operands : ObjectMap) : ObjectMap :=
  let tokens := splitArguments statementText
  let operands := put "tokens".toList (.texts tokens) operands
  if 3 ≤ tokens.length && tokenAt tokens 1 == "UNTIL".toList then
    let untilText := joinTokens (tokens.drop 2)
    let operands := put "mode".toList (.str "until".toList) operands
    let operands := put "until".toList (.str untilText) operands
    put "conditionTokens".toList (.texts (splitArguments untilText)) operands
  else if 8 ≤ tokens.length && tokenAt tokens 1 == "VARYING".toList then
    let fromIndex := tokenIndex "FROM".toList tokens
    let byIndex := tokenIndex "BY".toList tokens
    let untilIndex := tokenIndex "UNTIL".toList tokens
    if fromIndex = 3 ∧ fromIndex < byIndex ∧ byIndex < untilIndex then
      let untilText := joinTokens (tokens.drop (untilIndex + 1).toNat)
      let operands := put "mode".toList (.str "varying-until".toList) operands
      let operands := put "varying".toList (.str (tokenAt tokens 2)) operands
      let operands := put "from".toList (.str (tokenAt tokens (fromIndex + 1))) operands
      let operands := put "by".toList (.str (tokenAt tokens (byIndex + 1))) operands
      let operands := put "until".toList (.str untilText) operands
      put "conditionTokens".toList (.texts (splitArguments untilText)) operands
    else operands
  else operands

def parseArithmetic (statementText : Text) (operands : ObjectMap) : ObjectMap :=
  let tokens := splitArguments statementText
  let size : Int := tokens.length
  let operands := put "tokens".toList (.texts tokens) operands
  let op := tokenAt tokens 0
  let byIndex := tokenIndex "BY".toList tokens
  let givingIndex := tokenIndex "GIVING".toList tokens
  if op == "ADD".toList then
    let toIndex := tokenIndex "TO".toList tokens
    if 1 < toIndex ∧ toIndex + 1 < size then
      let operands := put "sources".toList (.texts (subList tokens 1 toIndex)) operands
      let operands := put "targets".toList (.texts (subList tokens (toIndex + 1) size)) operands
      let operands := if toIndex = 2 then put "source".toList (.str (tokenAt tokens 1)) operands
        else operands
      if size = toIndex + 2 then put "target".toList (.str (tokenAt tokens (toIndex + 1))) operands
      else operands
    else operands
  else if op == "SUBTRACT".toList then
    let fromIndex := tokenIndex "FROM".toList tokens
    if 1 < fromIndex ∧ fromIndex + 1 < size then
      let operands := put "sources".toList (.texts (subList tokens 1 fromIndex)) operands
      put "targets".toList (.texts (subList tokens (fromIndex + 1) size)) operands
    else operands
  else if op == "MULTIPLY".toList then
    if byIndex = 2 ∧ byIndex + 1 < size then
      let operands := put "source".toList (.str (tokenAt tokens 1)) operands
      let operands := put "by".toList (.str (tokenAt tokens (byIndex + 1))) operands
      if byIndex < givingIndex ∧ givingIndex + 1 < size then
        put "target".toList (.str (tokenAt tokens (givingIndex + 1))) operands
      else put "target".toList (.str (tokenAt tokens (byIndex + 1))) operands
    else operands
  else if op == "DIVIDE".toList then
    let intoIndex := tokenIndex "INTO".toList tokens
    if intoIndex = 2 ∧ intoIndex + 1 < size then
      let operands := put "divisor".toList (.str (tokenAt tokens 1)) operands
      let operands := put "dividend".toList (.str (tokenAt tokens (intoIndex + 1))) operands
      put "target".toList (.str (if intoIndex < givingIndex ∧ givingIndex + 1 < size then
        tokenAt tokens (givingIndex + 1) else tokenAt tokens (intoIndex + 1))) operands
    else if byIndex = 2 ∧ byIndex + 1 < size then
      let operands := put "dividend".toList (.str (tokenAt tokens 1)) operands
      let operands := put "divisor".toList (.str (tokenAt tokens (byIndex + 1))) operands
      if byIndex < givingIndex ∧ givingIndex + 1 < size then
        put "target".toList (.str (tokenAt tokens (givingIndex + 1))) operands
      else operands
    else operands
  else operands

/-- `parseAssignment` and the two operands `COMPUTE` adds to it. -/
def parseAssignment (body : Text) (operands : ObjectMap) : ObjectMap :=
  let (target, expression) := match indexOf ['='] body with
    | none => (none, trim body)
    | some i => (some (trim (body.take i)), trim (body.drop (i + 1)))
  let operands := match target with
    | none => operands
    | some target => put "target".toList (.str target) operands
  let operands := put "expression".toList (.str (trim expression)) operands
  put "expressionTokens".toList (.texts (splitArguments (trim expression))) operands

/-- `CobolParser.StatementParse`, before the statement gets its id. -/
structure StatementParse where
  kind : Kind
  opensBlock : Bool := false
  closesBlock : Bool := false
  operands : ObjectMap := []
  assumptions : List Text := []

def arithmeticKind (kind : Text) : Option Kind :=
  if kind == "ADD".toList then some .add
  else if kind == "SUBTRACT".toList then some .subtract
  else if kind == "MULTIPLY".toList then some .multiply
  else if kind == "DIVIDE".toList then some .divide
  else none

/-- A `PERFORM` opens a block when its text names `UNTIL` or `VARYING`. -/
def performOpens (statementText : Text) : Bool :=
  contains statementText " UNTIL ".toList || contains statementText " VARYING ".toList

/-- The chain of `parseStatement` on the statement's text; `none` is the
unsupported statement of its last branch. -/
def classifyStatement (statementText : Text) : Option StatementParse :=
  if statementText == "END-IF".toList then some { kind := .endIf, closesBlock := true }
  else if statementText == "END-EVALUATE".toList then
    some { kind := .endEvaluate, closesBlock := true }
  else if statementText == "END-PERFORM".toList then
    some { kind := .endPerform, closesBlock := true }
  else if statementText == "ELSE".toList then some { kind := .else }
  else if startsWith statementText "IF ".toList then
    let condition := trim (statementText.drop 3)
    some {
      kind := .if
      opensBlock := true
      operands := put "conditionTokens".toList (.texts (splitArguments condition))
        (put "condition".toList (.str condition) []) }
  else if startsWith statementText "EVALUATE ".toList then
    some {
      kind := .evaluate
      opensBlock := true
      operands := put "selector".toList (.str (trim (statementText.drop 9))) [] }
  else if startsWith statementText "WHEN ".toList then
    let value := trim (statementText.drop 5)
    some {
      kind := .when
      operands := put "valueTokens".toList (.texts (splitArguments value))
        (put "value".toList (.str value) []) }
  else if startsWith statementText "PERFORM ".toList then
    some {
      kind := .perform
      opensBlock := performOpens statementText
      operands := parsePerform statementText [] }
  else if startsWith statementText "MOVE ".toList then
    some { kind := .move, operands := parseMove statementText [] }
  else if startsWith statementText "DISPLAY ".toList then
    some {
      kind := .display
      operands := put "items".toList (.texts (splitArguments (statementText.drop 8))) [] }
  else if startsWith statementText "COMPUTE ".toList then
    some { kind := .compute, operands := parseAssignment (statementText.drop 8) [] }
  else
    match arithmeticKind (firstToken statementText) with
    | some kind => some { kind := kind, operands := parseArithmetic statementText [] }
    | none =>
        if startsWith statementText "CALL ".toList then
          some {
            kind := .call
            operands := put "target".toList (.str (trim (statementText.drop 5))) []
            assumptions := ["CALL is accepted only as a documented no-op shim in W0.".toList] }
        else if statementText == "STOP RUN".toList then some { kind := .stop }
        else if isName statementText then
          some { kind := .paragraph, operands := put "name".toList (.str statementText) [] }
        else none

/-- `CobolParser.parseStatement`: nothing for a blank text, else the statement
with its block effect or the diagnostic of an unsupported one. -/
def parseStatement (u : UnicodeData) (upper raw : Text) (lineNo sequence : Nat) :
    Option (Except Diagnostic (Statement × StatementParse)) :=
  let statementText := stripTrailingPeriod upper
  if isBlank statementText then none
  else
    match classifyStatement statementText with
    | none => some (.error ⟨.error, lineNo, "unsupported-statement".toList,
        "Unsupported W0 procedure statement: ".toList ++ statementText⟩)
    | some parse => some (.ok ({
          id := "s-".toList ++ stableToken u parse.kind.text ++ ['-'] ++
            shortHash (u.toUpperCase raw ++ ['|'] ++ natText sequence)
          kind := parse.kind
          line := lineNo
          raw := raw
          operands := parse.operands }, parse))

end C2c.CobolParser.Statements
