import C2c.CobolParser.Parse

namespace C2c.SemanticIr.Statements

open C2c.Library.JavaText
open C2c.Library.JavaObject
open C2c.CobolParser.Model

/-- An entry of the statement list of the Semantic IR. -/
structure IrStatement where
  id : Text
  operation : Text
  sourceLine : Int
  operands : ObjectMap
  raw : Text

/-- `SemanticIrService.text`. -/
def text (value : Value) (fallback : Text) : Text :=
  textOr value fallback

/-- `SemanticIrService.tokenList`, which repeats the parser's `splitArguments`. -/
def tokenList (value : Text) : Value :=
  .texts (C2c.CobolParser.Tokens.splitArguments value)

/-- `SemanticIrService.indexOfOperator`: the first place outside quotes and
parentheses. -/
def indexOfOperatorFrom (operator : Text) (quoted : Bool) (depth : Nat) : Text → Option Nat
  | [] => none
  | c :: t =>
      let stillQuoted := if c == '"' then !quoted else quoted
      let inner := if c != '"' && !quoted && c == '(' then depth + 1
        else if c != '"' && !quoted && c == ')' then depth - 1
        else depth
      if !stillQuoted && inner == 0 && startsWith (c :: t) operator then some 0
      else (indexOfOperatorFrom operator stillQuoted inner t).map (· + 1)

def indexOfOperator (condition operator : Text) : Option Nat :=
  indexOfOperatorFrom operator false 0 condition

def relationalOperators : List Text :=
  [['>', '='], ['<', '='], ['<', '>'], ['>'], ['<'], ['=']]

/-- The first operator of the list that the text has, and its place. -/
def findOperator (condition : Text) : Option (Text × Nat) :=
  relationalOperators.findSome? fun operator =>
    (indexOfOperator condition operator).map fun i => (operator, i)

def conditionModel (condition : Text) : Value :=
  let model := put "tokens".toList (tokenList condition) [("raw".toList, .str condition)]
  match findOperator condition with
  | some (operator, i) =>
      let model := put "left".toList (.str (trim (condition.take i))) model
      let model := put "operator".toList (.str operator) model
      .map (put "right".toList (.str (trim (condition.drop (i + operator.length)))) model)
  | none => .map model

/-- The entries of a map under the given keys. -/
def copyKeys (keys : List String) (operands model : ObjectMap) : ObjectMap :=
  keys.foldl (fun model key => if containsKey key.toList operands then
    put key.toList (get key.toList operands) model else model) model

def performModel (operands : ObjectMap) : Value :=
  .map (copyKeys ["varying", "from", "by", "until"] operands
    [("mode".toList, .str (text (get "mode".toList operands) []))])

def arithmeticModel (operation : Text) (operands : ObjectMap) : Value :=
  .map (copyKeys ["source", "sources", "target", "targets", "by", "dividend", "divisor"] operands
    [("operation".toList, .str operation)])

def enrichOperands (operation : Text) (operands : ObjectMap) : ObjectMap :=
  let operand (key : String) := text (get key.toList operands) []
  if operation == "compute".toList then
    put "expressionTokens".toList (tokenList (operand "expression")) operands
  else if operation == "if".toList then
    put "conditionModel".toList (conditionModel (operand "condition")) operands
  else if operation == "perform".toList then
    let enriched := put "performModel".toList (performModel operands) operands
    if isBlank (operand "until") then enriched
    else put "conditionModel".toList (conditionModel (operand "until")) enriched
  else if operation == "evaluate".toList then
    put "selectorTokens".toList (tokenList (operand "selector")) operands
  else if operation == "when".toList then
    put "valueTokens".toList (tokenList (operand "value")) operands
  else if operation == "add".toList || operation == "subtract".toList ||
      operation == "multiply".toList || operation == "divide".toList then
    put "arithmeticModel".toList (arithmeticModel operation operands) operands
  else operands

def normalizeStatement (u : UnicodeData) (statement : Statement) : IrStatement :=
  let operation := u.toLowerCase (text (.str statement.kind.text) "UNKNOWN".toList)
  { id := statement.id
    operation := operation
    sourceLine := statement.line
    operands := enrichOperands operation statement.operands
    raw := statement.raw }

/-- `SemanticIrService.normalizeStatements`. -/
def normalizeStatements (u : UnicodeData) (program : ParsedProgram) : List IrStatement :=
  program.statements.map (normalizeStatement u)

end C2c.SemanticIr.Statements
