import C2c.Library.JavaObject

namespace C2c.CobolParser.Tokens

open C2c.Library.JavaText
open C2c.Library.JavaObject

def isNameCharacter (c : Char) : Bool :=
  isUpperAscii c || isDigitAscii c || c == '-'

/-- The pattern `[A-Z][A-Z0-9-]*`, matched against the whole text. -/
def isName : Text → Bool
  | [] => false
  | c :: t => isUpperAscii c && t.all isNameCharacter

/-- Read on behind an opening parenthesis until `depth` of them are closed or
the text ends; the parenthesised part and what is left. -/
def takeParens : Nat → Text → Text × Text
  | 0, t => ([], t)
  | _ + 1, [] => ([], [])
  | depth + 1, c :: t =>
      let inner :=
        if c == '(' then takeParens (depth + 2) t
        else if c == ')' then takeParens depth t
        else takeParens (depth + 1) t
      (c :: inner.1, inner.2)

/-- Read on behind an opening quote, past the closing one. -/
def takeQuoted : Text → Text × Text
  | [] => ([], [])
  | c :: t =>
      if c == '"' then ([c], t)
      else
        let inner := takeQuoted t
        (c :: inner.1, inner.2)

def isPlain (c : Char) : Bool :=
  !isWhitespace c && c != '('

/-- The loop of `rawTokens`; every round consumes a character, so a `fuel` of
the text's length does. -/
def rawTokensFrom : Nat → Text → List Text
  | 0, _ => []
  | fuel + 1, t =>
      match t.dropWhile isWhitespace with
      | [] => []
      | c :: rest =>
          if c == '"' then
            let quoted := takeQuoted rest
            (c :: quoted.1) :: rawTokensFrom fuel quoted.2
          else if c == '(' then
            let parens := takeParens 1 rest
            (c :: parens.1) :: rawTokensFrom fuel parens.2
          else
            (c :: rest.takeWhile isPlain) :: rawTokensFrom fuel (rest.dropWhile isPlain)

def rawTokens (value : Text) : List Text :=
  if isBlank value then [] else rawTokensFrom value.length value

/-- Join a name with the parenthesised token behind it. -/
def joinSubscripts : List Text → List Text
  | token :: next :: tokens =>
      if isName token && startsWith next ['('] && endsWith next [')'] then
        (token ++ ' ' :: next) :: joinSubscripts tokens
      else token :: joinSubscripts (next :: tokens)
  | tokens => tokens

def splitArguments (value : Text) : List Text :=
  joinSubscripts (rawTokens value)

/-- `List.indexOf`, with the `-1` of a missing element. -/
def tokenIndex (word : Text) (tokens : List Text) : Int :=
  match tokens.findIdx? (· == word) with
  | some i => i
  | none => -1

def tokenAt (tokens : List Text) (i : Int) : Text :=
  tokens.getD i.toNat []

def subList (tokens : List Text) (start stop : Int) : List Text :=
  (tokens.take stop.toNat).drop start.toNat

def joinTokens (tokens : List Text) : Text :=
  joinWith [' '] tokens

end C2c.CobolParser.Tokens
