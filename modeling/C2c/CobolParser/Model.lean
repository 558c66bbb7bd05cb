import C2c.Library.JavaObject
import C2c.Library.Sha256

/-!
Records of the parser service and the pure helpers of `Model.java`.
-/

namespace C2c.CobolParser.Model

open C2c.Library.JavaText
open C2c.Library.JavaObject

inductive Severity
  | error
  | info
deriving DecidableEq, Repr

structure Diagnostic where
  severity : Severity
  line : Nat
  code : Text
  message : Text
deriving DecidableEq

/-- `CobolParser.Division`. -/
inductive Division
  | none
  | identification
  | data
  | procedure
deriving DecidableEq, Repr

structure DivisionEntry where
  name : Division
  line : Nat

structure DataItem where
  id : Text
  name : Text
  level : Nat
  picture : Option Text
  value : Option Text
  occurs : Option Nat
  occursDependingOn : Option Text
  numeric : Bool
  signed : Bool
  scale : Int
  byteSize : Int
  group : Bool
  line : Nat
  assumptions : List Text

/-- The statement kinds the parser gives out. -/
inductive Kind
  | endIf
  | endEvaluate
  | endPerform
  | else
  | if
  | evaluate
  | when
  | perform
  | move
  | display
  | compute
  | add
  | subtract
  | multiply
  | divide
  | call
  | stop
  | paragraph
deriving DecidableEq, Repr

def Kind.text : Kind → Text
  | .endIf => "END_IF".toList
  | .endEvaluate => "END_EVALUATE".toList
  | .endPerform => "END_PERFORM".toList
  | .else => "ELSE".toList
  | .if => "IF".toList
  | .evaluate => "EVALUATE".toList
  | .when => "WHEN".toList
  | .perform => "PERFORM".toList
  | .move => "MOVE".toList
  | .display => "DISPLAY".toList
  | .compute => "COMPUTE".toList
  | .add => "ADD".toList
  | .subtract => "SUBTRACT".toList
  | .multiply => "MULTIPLY".toList
  | .divide => "DIVIDE".toList
  | .call => "CALL".toList
  | .stop => "STOP".toList
  | .paragraph => "PARAGRAPH".toList

structure Statement where
  id : Text
  kind : Kind
  line : Nat
  raw : Text
  operands : ObjectMap

structure ControlEdge where
  id : Text
  source : Text
  target : Text
  label : Text

structure ParsedProgram where
  programId : Text
  sourceHash : Text
  divisions : List DivisionEntry := []
  dataItems : List DataItem := []
  statements : List Statement := []
  controlFlow : List ControlEdge := []
  assumptions : List Text := []

inductive Status
  | ok
  | failed
deriving DecidableEq, Repr

structure ParseResult where
  status : Status
  message : Text
  program : ParsedProgram
  diagnostics : List Diagnostic := []
  assumptions : List Text := []

/-- `replaceAll("[^a-z0-9-]", "-")` and `replaceAll("-+", "-")` at once:
`dashed` says that the last character kept is a dash. -/
def collapseToDashes (dashed : Bool) : Text → Text
  | [] => []
  | c :: t =>
      if ('a' ≤ c && c ≤ 'z') || isDigitAscii c then c :: collapseToDashes false t
      else if dashed then collapseToDashes true t
      else '-' :: collapseToDashes true t

/-- `Model.stableToken`. -/
def stableToken (u : UnicodeData) (value : Text) : Text :=
  if isBlank value then ['x']
  else
    let dashed := collapseToDashes false (u.toLowerCase value)
    let headless := if startsWith dashed ['-'] then dashed.drop 1 else dashed
    let token := if endsWith headless ['-'] then headless.dropLast else headless
    if isBlank token then ['x'] else token.take 32

def controlEdge (u : UnicodeData) (source target label : Text) : ControlEdge where
  id := "e-".toList ++ stableToken u source ++ ['-'] ++ stableToken u target ++ ['-'] ++
    stableToken u label
  source := source
  target := target
  label := label

/-- `CobolParser.shortHash`. -/
def shortHash (value : Text) : Text :=
  (C2c.Library.Sha256.sha256Hex value).take 12

end C2c.CobolParser.Model
