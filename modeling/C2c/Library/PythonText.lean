import C2c.Library.JavaText

/-!
The string methods and the JSON texts of Python.
-/

namespace C2c.Library.PythonText

open C2c.Library.JavaText

/-- `str.isspace` of one character. -/
def isSpace (c : Char) : Bool :=
  let n := c.toNat
  (9 ≤ n && n ≤ 13) || (28 ≤ n && n ≤ 32) || n == 0x85 || n == 0xa0 || n == 0x1680 ||
    (0x2000 ≤ n && n ≤ 0x200a) || n == 0x2028 || n == 0x2029 || n == 0x202f || n == 0x205f ||
    n == 0x3000

/-- `str.strip`. -/
def strip (t : Text) : Text :=
  (t.dropWhile isSpace).rdropWhile isSpace

/-- `str.lower`, as far as its result is ASCII: the only other characters with
an ASCII letter in their lower case are the Kelvin sign and the dotted I. -/
def lower (t : Text) : Text :=
  t.flatMap fun c =>
    if c.toNat = 0x212a then ['k']
    else if c.toNat = 0x130 then ['i', Char.ofNat 0x307]
    else [c.toLower]

/-- `str.replace` of one character by another. -/
def replaceChar (old new : Char) (t : Text) : Text :=
  t.map fun c => if c = old then new else c

/-- `str.split` at one character. -/
def splitAtChar (separator : Char) : Text → List Text
  | [] => [[]]
  | c :: t =>
      if c = separator then [] :: splitAtChar separator t
      else
        match splitAtChar separator t with
        | piece :: pieces => (c :: piece) :: pieces
        | [] => [[c]]

/-- `PurePosixPath(t).parts` of a path that does not start with a slash. -/
def pathParts (t : Text) : List Text :=
  (splitAtChar '/' t).filter fun part => part != [] && part != ['.']

def hexDigit (n : Nat) : Char :=
  ['0', '1', '2', '3', '4', '5', '6', '7', '8', '9', 'a', 'b', 'c', 'd', 'e', 'f'].getD n '0'

/-- The escape of a UTF-16 code unit. -/
def unitEscape (n : Nat) : Text :=
  '\\' :: 'u' :: [3, 2, 1, 0].map fun position => hexDigit (n / 16 ^ position % 16)

/-- A character in a JSON string; `ascii` is `ensure_ascii`. -/
def jsonChar (ascii : Bool) (c : Char) : Text :=
  let n := c.toNat
  if c = '"' then ['\\', '"']
  else if c = '\\' then ['\\', '\\']
  else if c = '\n' then ['\\', 'n']
  else if c = '\r' then ['\\', 'r']
  else if c = '\t' then ['\\', 't']
  else if n = 8 then ['\\', 'b']
  else if n = 12 then ['\\', 'f']
  else if n < 32 then unitEscape n
  else if ascii && 0x10000 ≤ n then
    unitEscape (0xd800 + (n - 0x10000) / 0x400) ++ unitEscape (0xdc00 + (n - 0x10000) % 0x400)
  else if ascii && 127 ≤ n then unitEscape n
  else [c]

def jsonString (ascii : Bool) (t : Text) : Text :=
  '"' :: t.flatMap (jsonChar ascii) ++ ['"']

def jsonArray (items : List Text) : Text :=
  '[' :: joinWith [','] items ++ [']']

/-- An object of the given members, which are written in the order of their
names, as under `sort_keys`. -/
def jsonObject (members : List (String × Text)) : Text :=
  '\x7b' :: joinWith [','] (members.map fun member =>
    jsonString true member.1.toList ++ ':' :: member.2) ++ ['\x7d']

end C2c.Library.PythonText
