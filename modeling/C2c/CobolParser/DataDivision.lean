import C2c.CobolParser.Model
import C2c.CobolParser.Tokens

namespace C2c.CobolParser.DataDivision

open C2c.Library.JavaText
open C2c.Library.JavaObject
open C2c.CobolParser.Model
open C2c.CobolParser.Tokens

/-- `\s` of a Java pattern. -/
def isPatternSpace (c : Char) : Bool :=
  c == ' ' || (9 ≤ c.toNat && c.toNat ≤ 13)

/-- `\w` of a Java pattern; `\b` stands where it changes. -/
def isWordCharacter (c : Char) : Bool :=
  isUpperAscii c || ('a' ≤ c && c ≤ 'z') || isDigitAscii c || c == '_'

def startsWord : Text → Bool
  | [] => false
  | c :: _ => isWordCharacter c

/-- `Matcher.find` for a pattern that opens with `\b` and a letter:
`inWord` says that a word character stands before the text. -/
def findWord {α : Type} (attempt : Text → Option α) (inWord : Bool) : Text → Option α
  | [] => none
  | c :: t =>
      match if inWord then none else attempt (c :: t) with
      | some found => some found
      | none => findWord attempt (isWordCharacter c) t

/-- A keyword followed by `\s+`; what is left behind the blanks. -/
def afterKeyword (keyword t : Text) : Option Text :=
  if startsWith t keyword then
    match t.drop keyword.length with
    | c :: rest => if isPatternSpace c then some (rest.dropWhile isPatternSpace) else none
    | [] => none
  else none

def isPictureCharacter (c : Char) : Bool :=
  isUpperAscii c || isDigitAscii c || c == '(' || c == ')' || c == '+' || c == '-'

/-- `PICTURE` at one place: `(?:PIC|PICTURE)\s+([A-Z0-9()V+-]+)`. -/
def pictureAt (t : Text) : Option Text :=
  match (afterKeyword "PIC".toList t).orElse fun _ => afterKeyword "PICTURE".toList t with
  | some rest =>
      let picture := rest.takeWhile isPictureCharacter
      if picture.isEmpty then none else some picture
  | none => none

/-- `OCCURS` at one place: `OCCURS\s+(\d+)\s+TIMES\b`. -/
def occursAt (t : Text) : Option Text :=
  match afterKeyword "OCCURS".toList t with
  | some rest =>
      let digits := rest.takeWhile isDigitAscii
      match rest.dropWhile isDigitAscii with
      | c :: behind =>
          let times := behind.dropWhile isPatternSpace
          if !digits.isEmpty && isPatternSpace c && startsWith times "TIMES".toList &&
              !startsWord (times.drop 5) then some digits
          else none
      | [] => none
  | none => none

/-- The lengths of the texts a numeric `VALUE` may take, in the order the
pattern tries them: the digits with their fraction, longest first, and the
digits alone. -/
def numericLengths (t : Text) : List Nat :=
  let whole := (t.takeWhile isDigitAscii).length
  let behind := t.drop whole
  let fraction := ((behind.drop 1).takeWhile isDigitAscii).length
  if whole = 0 then
    if startsWith behind ['.'] && 0 < fraction then [1 + fraction] else []
  else if startsWith behind ['.'] then
    (List.range (fraction + 1)).reverse.map (fun n => whole + 1 + n) ++ [whole]
  else [whole]

def closesWord (t : Text) (n : Nat) : Bool :=
  match (t.take n).getLast? with
  | some c => isWordCharacter c != startsWord (t.drop n)
  | none => false

/-- `VALUE` at one place.  The alternatives are tried in the pattern's order,
each against the word boundary behind it. -/
def valueAt (t : Text) : Option Text :=
  match afterKeyword "VALUE".toList t with
  | some rest =>
      let quoted := if startsWith rest ['"'] then
        let body := (rest.drop 1).takeWhile (· != '"')
        if startsWith (rest.drop (1 + body.length)) ['"'] then [body.length + 2] else [] else []
      let sign := if startsWith rest ['+'] || startsWith rest ['-'] then 1 else 0
      let numeric := (numericLengths (rest.drop sign)).map (sign + ·)
      let words := ["SPACE".toList, "SPACES".toList, "ZERO".toList, "ZEROS".toList,
        "ZEROES".toList].filterMap fun word =>
          if startsWith rest word then some word.length else none
      match (quoted ++ numeric ++ words).find? (closesWord rest) with
      | some n => some (rest.take n)
      | none => none
  | none => none

/-- `symbolWidth` behind `skip` characters that belong to a repeat count
already read. -/
def symbolWidthFrom (symbol : Char) : Nat → Text → Except JavaException Int
  | _, [] => .ok 0
  | skip + 1, _ :: t => symbolWidthFrom symbol skip t
  | 0, c :: t =>
      if c == symbol then
        match parenthesizedDigits t with
        | some digits => do
            let n ← parseInteger digits
            let width ← symbolWidthFrom symbol (digits.length + 2) t
            return toInt (n + width)
        | none => do
            let width ← symbolWidthFrom symbol 0 t
            return toInt (1 + width)
      else symbolWidthFrom symbol 0 t

/-- `CobolParser.symbolWidth`: the positions of a symbol, a repeat count
standing for as many. -/
def symbolWidth (t : Text) (symbol : Char) : Except JavaException Int :=
  symbolWidthFrom symbol 0 t

/-- `CobolParser.scale`. -/
def scale : Option Text → Except JavaException Int
  | none => .ok 0
  | some picture =>
      match indexOf ['V'] picture with
      | none => .ok 0
      | some v => symbolWidth (picture.drop (v + 1)) '9'

/-- `CobolParser.byteSize`. -/
def byteSize (picture : Option Text) (occurs : Option Nat) : Except JavaException Int :=
  match picture with
  | none => .ok 0
  | some picture => do
      let normalized := (if startsWith picture ['S'] then picture.drop 1 else picture).filter (· != 'V')
      let nines ← symbolWidth normalized '9'
      let letters ← symbolWidth normalized 'X'
      return toInt (toInt (nines + letters) * max 1 (occurs.getD 1))

/-- `CobolParser.intMatch` on a match already found. -/
def intMatch : Option Text → Except JavaException (Option Nat)
  | none => .ok none
  | some digits => (parseInteger digits).map some

def stripTrailingPeriod (value : Text) : Text :=
  let text := trim value
  if endsWith text ['.'] then trim text.dropLast else text

/-- `DATA_DECLARATION`: the level, the name and the rest of the line. -/
def matchDataDeclaration : Text → Option (Text × Text × Text)
  | d :: e :: c :: t =>
      if isDigitAscii d && isDigitAscii e && isPatternSpace c then
        match t.dropWhile isPatternSpace with
        | n :: rest =>
            if isUpperAscii n then
              some ([d, e], n :: rest.takeWhile isNameCharacter,
                (rest.dropWhile isNameCharacter).dropWhile isPatternSpace)
            else none
        | [] => none
      else none
  | _ => none

/-- `CobolParser.parseDataItem`: the item, or none, and what it adds to the
result's diagnostics and assumptions. -/
def parseDataItem (u : UnicodeData) (upper : Text) (lineNo : Nat) (sourceHash : Text) :
    Except JavaException (Option DataItem × List Diagnostic × List Text) :=
  match matchDataDeclaration (stripTrailingPeriod upper) with
  | none =>
      if endsWith upper "SECTION.".toList || endsWith upper "SECTION".toList then .ok (none, [], [])
      else
        .ok (none, [⟨.error, lineNo, "unsupported-data-declaration".toList,
          "Unsupported W0 DATA declaration: ".toList ++ upper⟩], [])
  | some (level, name, group3) =>
      let rest := trim group3
      let picture := (findWord pictureAt false rest).map trim
      let redefines := contains rest "REDEFINES".toList || contains rest "RENAMES".toList
      do
        let occurs ← intMatch (findWord occursAt false rest)
        let scale ← scale picture
        let byteSize ← byteSize picture occurs
        return (some {
            id := "d-".toList ++ stableToken u name ++ ['-'] ++
              shortHash (sourceHash ++ "|data|".toList ++ name)
            name := name
            level := digitsValue level
            picture := picture
            value := (findWord valueAt false rest).map trim
            occurs := occurs
            occursDependingOn := (indexOf "DEPENDING ON".toList rest).map fun i =>
              trim (rest.drop (i + "DEPENDING ON".toList.length))
            numeric := picture.any fun p => contains p ['9']
            signed := picture.any fun p => startsWith p ['S']
            scale := scale
            byteSize := byteSize
            group := picture.isNone
            line := lineNo
            assumptions := if redefines then
              ["REDEFINES/RENAMES are tracked as assumptions in W0.".toList] else [] },
          [],
          if redefines then
            ["REDEFINES/RENAMES data layouts require later-wave expansion.".toList] else [])

end C2c.CobolParser.DataDivision
