import C2c.Library.PythonText

/-!
JSON values as Python reads them.
-/

namespace C2c.Library.PythonJson

open C2c.Library.JavaText
open C2c.Library.PythonText

/-- A value of `json.loads`; a number is kept as the text `repr` gives it. -/
inductive Json
  | null
  | bool (value : Bool)
  | number (text : Text)
  | text (value : Text)
  | array (items : List Json)
  | object (members : List (Text × Json))

/-- `bool(value)`. -/
def truthy : Json → Bool
  | .null => false
  | .bool value => value
  | .number text => text.any fun c => !(['0', '.', '-'].contains c)
  | .text value => !value.isEmpty
  | .array items => !items.isEmpty
  | .object members => !members.isEmpty

/-- `isinstance(value, Mapping)`. -/
def isMapping : Json → Bool
  | .object _ => true
  | _ => false

/-- The members of a mapping; anything else has none. -/
def membersOf : Json → List (Text × Json)
  | .object members => members
  | _ => []

/-- `value.get(key)`, with `null` for the `None` of a missing key. -/
def get (value : Json) (key : String) : Json :=
  (((membersOf value).find? fun member => member.1 == key.toList).map Prod.snd).getD .null

/-- `key in value`. -/
def hasKey (value : Json) (key : String) : Bool :=
  (membersOf value).any fun member => member.1 == key.toList

/-- `value == t` for a string. -/
def isText (value : Json) (t : String) : Bool :=
  match value with
  | .text s => s == t.toList
  | _ => false

/-- A character in the `repr` of a string with the given quotes. -/
def reprChar (quote c : Char) : Text :=
  let n := c.toNat
  if c = '\\' ∨ c = quote then ['\\', c]
  else if c = '\n' then ['\\', 'n']
  else if c = '\r' then ['\\', 'r']
  else if c = '\t' then ['\\', 't']
  else if n < 32 ∨ (127 ≤ n ∧ n ≤ 160) ∨ n = 0xad then
    ['\\', 'x', hexDigit (n / 16), hexDigit (n % 16)]
  else [c]

/-- `repr` of a string. -/
def reprText (t : Text) : Text :=
  let quote := if t.contains '\'' ∧ ¬ t.contains '"' then '"' else '\''
  quote :: t.flatMap (reprChar quote) ++ [quote]

mutual

/-- `repr(value)`. -/
def repr : Json → Text
  | .null => "None".toList
  | .bool true => "True".toList
  | .bool false => "False".toList
  | .number text => text
  | .text value => reprText value
  | .array items => '[' :: joinWith [',', ' '] (reprItems items) ++ [']']
  | .object members => '\x7b' :: joinWith [',', ' '] (reprMembers members) ++ ['\x7d']

def reprItems : List Json → List Text
  | [] => []
  | item :: items => repr item :: reprItems items

def reprMembers : List (Text × Json) → List Text
  | [] => []
  | (key, value) :: members => (reprText key ++ ':' :: ' ' :: repr value) :: reprMembers members

end

/-- `str(value)`. -/
def str : Json → Text
  | .text value => value
  | value => repr value

/-- `str(value or "")`. -/
def strOrEmpty (value : Json) : Text :=
  if truthy value then str value else []

end C2c.Library.PythonJson
