import C2c.SemanticIr.Statements

/-!
The string helpers of `JavaProjectGenerator`.
-/

namespace C2c.TargetJava.Literals

open C2c.Library.JavaText
open C2c.Library.JavaObject

/-- `JavaProjectGenerator.string`. -/
def string (value : Value) (fallback : Text) : Text :=
  textOr value fallback

/-- An operand as a text. -/
def operand (operands : ObjectMap) (key : String) (fallback : Text) : Text :=
  string (get key.toList operands) fallback

def stringOrNull (value : Value) : Option Text :=
  if value.isNull || isBlank (trim value.toText) then none else some (trim value.toText)

def listOrEmpty (value : Value) : List Value :=
  value.asList.getD []

def tokenStrings (value : Value) : List Text :=
  ((listOrEmpty value).filter fun item => !item.isNull).map fun item => trim item.toText

/-- `operandStrings`: the list under one key, or else the text under another. -/
def operandStrings (operands : ObjectMap) (pluralKey singleKey : String) : List Text :=
  let values := tokenStrings (get pluralKey.toList operands)
  if !values.isEmpty then values
  else
    let single := operand operands singleKey []
    if isBlank single then [] else [single]

/-- The digits of a `\u` escape. -/
def escapeDigits (c : Char) : Text :=
  let digits := Nat.toDigits 16 c.toNat
  List.replicate (4 - digits.length) '0' ++ digits

def escapeCharacter (c : Char) : Text :=
  if c == '\\' then ['\\', '\\']
  else if c == '"' then ['\\', '"']
  else if c == '\n' then ['\\', 'n']
  else if c == '\r' then ['\\', 'r']
  else if c == '\t' then ['\\', 't']
  else if c.toNat < 0x20 then '\\' :: 'u' :: escapeDigits c
  else [c]

def escapeJavaString (value : Text) : Text :=
  value.flatMap escapeCharacter

def javaStringLiteral (value : Text) : Text :=
  '"' :: escapeJavaString value ++ ['"']

/-- `replace("*/", "* /")`. -/
def splitCommentEnds : Text → Text
  | '*' :: '/' :: t => '*' :: ' ' :: '/' :: splitCommentEnds t
  | c :: t => c :: splitCommentEnds t
  | [] => []

def escapeComment (raw : Text) : Text :=
  (splitCommentEnds (raw.map fun c => if c == '\\' then '/' else c)).map fun c =>
    if c == '\n' || c == '\r' then ' ' else c

def isQuoted (token : Text) : Bool :=
  2 ≤ token.length && startsWith token ['"'] && endsWith token ['"']

def unquote (token : Text) : Text :=
  if isQuoted token then (token.drop 1).dropLast else token

def stripLeadingPlus (value : Text) : Text :=
  if startsWith value ['+'] then value.drop 1 else value

/-- `\d+(?:\.\d*)?|\.\d+` over the whole text. -/
def isUnsignedNumber (t : Text) : Bool :=
  let whole := t.takeWhile isDigitAscii
  match t.dropWhile isDigitAscii with
  | [] => !whole.isEmpty
  | c :: fraction =>
      c == '.' && fraction.all isDigitAscii && !(whole.isEmpty && fraction.isEmpty)

def dropSign : Text → Text
  | c :: t => if c == '+' || c == '-' then t else c :: t
  | [] => []

def isNumericLiteral (token : Text) : Bool :=
  isUnsignedNumber (dropSign (trim token))

/-- The scale of a literal: the digits behind its point. -/
def literalScale (normalized : Text) : Nat :=
  match indexOf ['.'] normalized with
  | some dot => normalized.length - dot - 1
  | none => 0

def boolText : Bool → Text
  | true => "true".toList
  | false => "false".toList

/-- `decimalLiteral`. -/
def decimalLiteral (literal : Text) : Text :=
  let normalized := stripLeadingPlus (trim literal)
  "CobolDecimal.of(".toList ++ javaStringLiteral normalized ++ ", ".toList ++
    natText (literalScale normalized) ++ ", ".toList ++ boolText (startsWith normalized ['-']) ++
    [')']

def whenOther (u : UnicodeData) (value : Text) : Bool :=
  u.equalsIgnoreCase "OTHER".toList (trim value)

def javaKeywords : List String :=
  ["abstract", "assert", "boolean", "break", "byte", "case", "catch", "char",
    "class", "const", "continue", "default", "do", "double", "else", "enum",
    "extends", "final", "finally", "float", "for", "goto", "if", "implements",
    "import", "instanceof", "int", "interface", "long", "native", "new", "package",
    "private", "protected", "public", "return", "short", "static", "strictfp",
    "super", "switch", "synchronized", "this", "throw", "throws", "transient",
    "try", "void", "volatile", "while", "true", "false", "null", "yield", "var", "record"]

/-- The camel case of a name: a separator raises the character behind it. -/
def camelCase (u : UnicodeData) (upper : Bool) : Text → Text
  | [] => []
  | c :: t =>
      if c == '-' || c == '_' || c == '[' || c == ']' then camelCase u true t
      else if u.isLetterOrDigit c then
        (if upper then u.charUpper c else u.charLower c) :: camelCase u false t
      else camelCase u upper t

/-- `javaIdentifier`. -/
def javaIdentifier (u : UnicodeData) (cobolName : Text) : Text :=
  let name := camelCase u false cobolName
  let name := if name.isEmpty then "field".toList else name
  let candidate := match name with
    | c :: _ => if u.isLetter c then name else 'f' :: name
    | [] => name
  if javaKeywords.any fun keyword => keyword.toList == candidate then candidate ++ ['_']
  else candidate

end C2c.TargetJava.Literals
