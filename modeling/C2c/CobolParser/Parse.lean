import C2c.CobolParser.Statements

namespace C2c.CobolParser.Parse

open C2c.Library.JavaText
open C2c.Library.JavaObject
open C2c.CobolParser.Model
open C2c.CobolParser.Tokens
open C2c.CobolParser.DataDivision
open C2c.CobolParser.Statements

/-- `CobolParser.Block`. -/
structure Block where
  kind : Kind
  startId : Text
deriving DecidableEq

/-- The variables of the loop of `parse`; the innermost block comes first. -/
structure ParserState where
  division : Division := .none
  blocks : List Block := []
  previousStatementId : Option Text := none
  statementSeq : Nat := 0
  lineNo : Nat := 0
  program : ParsedProgram
  diagnostics : List Diagnostic := []
  assumptions : List Text := []

def normalizeLine (raw : Text) : Text :=
  let line := trim raw
  if startsWith line ['*'] || startsWith line ['*', '>'] then [] else line

def divisionFrom (upper : Text) : Division :=
  if startsWith upper "IDENTIFICATION DIVISION".toList then .identification
  else if startsWith upper "DATA DIVISION".toList then .data
  else if startsWith upper "PROCEDURE DIVISION".toList then .procedure
  else .none

def isUnsupportedFeature (upper : Text) : Bool :=
  ["EXEC ", "FILE SECTION", "SELECT ", "FD ", "READ ", "WRITE ", "OPEN ", "CLOSE ", "SORT ",
    "MERGE "].any fun feature => startsWith upper feature.toList

/-- `PROGRAM_ID`: `PROGRAM-ID\.?\s+([A-Z][A-Z0-9-]*)\.?` over the whole line. -/
def matchProgramId (upper : Text) : Option Text :=
  if startsWith upper "PROGRAM-ID".toList then
    let behind := upper.drop 10
    let behind := if startsWith behind ['.'] then behind.drop 1 else behind
    match behind with
    | c :: rest =>
        let name := rest.dropWhile isPatternSpace
        let name := if endsWith name ['.'] then name.dropLast else name
        if isPatternSpace c && isName name then some name else none
    | [] => none
  else none

/-- The end kind that closes a block. -/
def closes (block end_ : Kind) : Bool :=
  (block == .if && end_ == .endIf) || (block == .evaluate && end_ == .endEvaluate) ||
    (block == .perform && end_ == .endPerform)

def ParserState.report (s : ParserState) (line : Nat) (code message : Text) : ParserState :=
  { s with diagnostics := s.diagnostics ++ [⟨.error, line, code, message⟩] }

def ParserState.addEdge (u : UnicodeData) (s : ParserState) (source target label : Text) :
    ParserState :=
  { s with program := { s.program with
      controlFlow := s.program.controlFlow ++ [controlEdge u source target label] } }

/-- `CobolParser.closeBlock`. -/
def closeBlock (u : UnicodeData) (s : ParserState) (statement : Statement) : ParserState :=
  match s.blocks with
  | [] =>
      s.report statement.line "unmatched-block-end".toList
        ("No open block matches ".toList ++ statement.kind.text)
  | block :: blocks =>
      let s := { s with blocks := blocks }
      if closes block.kind statement.kind then
        s.addEdge u block.startId statement.id "block-exit".toList
      else
        s.report statement.line "mismatched-block-end".toList
          ("Block end does not match ".toList ++ block.kind.text)

/-- What `parse` does with a statement it has read. -/
def addStatement (u : UnicodeData) (s : ParserState) (statement : Statement)
    (effect : StatementParse) : ParserState :=
  let s := { s with program := { s.program with
    statements := s.program.statements ++ [statement] } }
  let s := match s.previousStatementId with
    | some previous => s.addEdge u previous statement.id "next".toList
    | none => s
  let s := if effect.opensBlock then
    { s with blocks := ⟨statement.kind, statement.id⟩ :: s.blocks } else s
  let s := if effect.closesBlock then closeBlock u s statement else s
  let s := match s.blocks with
    | block :: _ =>
        if statement.kind == Kind.when || statement.kind == Kind.else then
          s.addEdge u block.startId statement.id "branch".toList
        else s
    | [] => s
  { s with previousStatementId := some statement.id }

/-- One round of the loop of `parse`. -/
def parseLine (u : UnicodeData) (sourceHash : Text) (s : ParserState) (rawLine : Text) :
    Except JavaException ParserState :=
  let s := { s with lineNo := s.lineNo + 1 }
  let line := normalizeLine rawLine
  if isBlank line then .ok s
  else
    let upper := u.toUpperCase line
    let nextDivision := divisionFrom upper
    if nextDivision ≠ .none then
      .ok { s with
        division := nextDivision
        program := { s.program with
          divisions := s.program.divisions ++ [⟨nextDivision, s.lineNo⟩] } }
    else if isUnsupportedFeature upper then
      .ok (s.report s.lineNo "unsupported-feature".toList
        ("Unsupported W0 COBOL feature: ".toList ++ upper))
    else
      match s.division with
      | .identification =>
          .ok (match matchProgramId upper with
            | some programId => { s with program := { s.program with programId := programId } }
            | none => s)
      | .data => do
          let (item, diagnostics, assumptions) ← parseDataItem u upper s.lineNo sourceHash
          return { s with
            program := { s.program with dataItems := s.program.dataItems ++ item.toList }
            diagnostics := s.diagnostics ++ diagnostics
            assumptions := s.assumptions ++ assumptions }
      | .procedure =>
          let s := { s with statementSeq := s.statementSeq + 1 }
          .ok (match parseStatement u upper (trim rawLine) s.lineNo s.statementSeq with
            | none => s
            | some (.error diagnostic) => { s with diagnostics := s.diagnostics ++ [diagnostic] }
            | some (.ok (statement, effect)) =>
                addStatement u { s with assumptions := s.assumptions ++ effect.assumptions }
                  statement effect)
      | .none => .ok s

/-- The part of `Model.ParseRequest` the result depends on. -/
structure ParseRequest where
  source : Text
  sourceHash : Option Text := none

/-- A request for a source, with a hash of its own. -/
def sourceRequest (source : String) : ParseRequest where
  source := source.toList
  sourceHash := some ['h']

def unterminatedBlock (block : Block) : Diagnostic :=
  ⟨.error, 0, "unterminated-block".toList, "Unterminated ".toList ++ block.kind.text ++ " block".toList⟩

def standingAssumptions : List Text :=
  ["W0 assumes display-compatible fixed-point decimal semantics for PIC S9/V fields.".toList,
    "W0 control-flow edges are structural and intentionally conservative.".toList]

/-- `CobolParser.parse` behind its loop. -/
def finish (s : ParserState) : ParseResult :=
  let diagnostics := s.diagnostics ++ s.blocks.map unterminatedBlock
  let assumptions := s.assumptions ++ standingAssumptions
  let failed := diagnostics.any fun d => d.severity == .error
  { status := if failed then .failed else .ok
    message := if failed then "COBOL source contains unsupported W0 constructs".toList
      else "COBOL source parsed".toList
    program := { s.program with assumptions := s.program.assumptions ++ assumptions }
    diagnostics := diagnostics
    assumptions := assumptions }

def sourceHashOf (request : ParseRequest) : Text :=
  match request.sourceHash with
  | some hash => if isBlank hash then C2c.Library.Sha256.sha256Hex request.source else hash
  | none => C2c.Library.Sha256.sha256Hex request.source

def initialState (request : ParseRequest) : ParserState where
  program := { programId := "UNKNOWN".toList, sourceHash := sourceHashOf request }

/-- `CobolParser.parse`. -/
def parse (u : UnicodeData) (request : ParseRequest) : Except JavaException ParseResult := do
  if isBlank request.source then
    throw (.illegalArgument "source is required".toList)
  let s ← (splitLines request.source).foldlM (parseLine u (sourceHashOf request))
    (initialState request)
  return finish s

end C2c.CobolParser.Parse
