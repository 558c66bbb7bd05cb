import C2c.TargetJava.LeafStatements

namespace C2c.TargetJava.Generation

open C2c.Library.JavaText
open C2c.Library.JavaObject
open C2c.CobolParser.Tokens
open C2c.SemanticIr.Statements
open C2c.TargetJava.Literals
open C2c.TargetJava.References
open C2c.TargetJava.Expressions
open C2c.TargetJava.Conditions
open C2c.TargetJava.LeafStatements

/-- The operations `emitStatement` tells apart. -/
inductive Operation
  | paragraph
  | display
  | move
  | compute
  | add
  | subtract
  | multiply
  | divide
  | if
  | else
  | endIf
  | evaluate
  | when
  | endEvaluate
  | perform
  | endPerform
  | stop
  | unsupported (operation : Text)
deriving DecidableEq

def operations : List (String × Operation) :=
  [("paragraph", .paragraph), ("display", .display), ("move", .move), ("compute", .compute),
    ("add", .add), ("subtract", .subtract), ("multiply", .multiply), ("divide", .divide),
    ("if", .if), ("else", .else), ("end_if", .endIf), ("evaluate", .evaluate), ("when", .when),
    ("end_evaluate", .endEvaluate), ("perform", .perform), ("end_perform", .endPerform),
    ("stop", .stop)]

def readOperation (text : Text) : Operation :=
  match operations.find? fun entry => entry.1.toList == text with
  | some entry => entry.2
  | none => .unsupported text

def operationOf (u : UnicodeData) (statement : IrStatement) : Operation :=
  readOperation (u.toLowerCase (string (.str statement.operation) "unknown".toList))

/-- The kinds of a `BlockFrame`. -/
inductive BlockKind
  | if
  | evaluate
  | perform
deriving DecidableEq

def BlockKind.text : BlockKind → Text
  | .if => "if".toList
  | .evaluate => "evaluate".toList
  | .perform => "perform".toList

structure BlockFrame where
  kind : BlockKind
  stmtId : Text
  selector : Option Text := none
  incrementLine : Option JavaLine := none
  whenOpen : Bool := false
deriving DecidableEq

/-- A line behind `4 * indent` blanks. -/
structure CodeLine where
  indent : Nat
  line : JavaLine

def CodeLine.text (code : CodeLine) : Text :=
  repeatText code.indent "    ".toList ++ code.line.text

/-- The `EmissionState` with the lines of the `CodeBuilder`; the top frame comes
first. -/
structure EmissionState where
  frames : List BlockFrame := []
  diagnostics : List Diagnostic := []
  emittedStatementIds : List Text := []
  code : List CodeLine := []
  indent : Nat := 2

namespace EmissionState

def add (s : EmissionState) (line : JavaLine) : EmissionState :=
  { s with code := s.code ++ [⟨s.indent, line⟩] }

def addAll (s : EmissionState) (lines : List JavaLine) : EmissionState :=
  lines.foldl add s

def indented (s : EmissionState) : EmissionState :=
  { s with indent := s.indent + 1 }

def outdented (s : EmissionState) : EmissionState :=
  { s with indent := max 2 (s.indent - 1) }

def withFrames (s : EmissionState) (frames : List BlockFrame) : EmissionState :=
  { s with frames := frames }

/-- The state behind a computation that adds to the diagnostics. -/
def noting {α : Type} (s : EmissionState) (x : Emits α) : EmissionState :=
  { s with diagnostics := s.diagnostics ++ x.diagnostics }

def emitted (s : EmissionState) (stmtId : Text) : EmissionState :=
  { s with emittedStatementIds := s.emittedStatementIds ++ [stmtId] }

/-- The lines without their indentation. -/
def lines (s : EmissionState) : List JavaLine :=
  s.code.map CodeLine.line

section Projections

variable (s : EmissionState) (line : JavaLine) (frames : List BlockFrame)

@[simp] theorem frames_add : (s.add line).frames = s.frames := rfl

@[simp] theorem frames_indented : s.indented.frames = s.frames := rfl

@[simp] theorem frames_outdented : s.outdented.frames = s.frames := rfl

@[simp] theorem frames_withFrames : (s.withFrames frames).frames = frames := rfl

@[simp] theorem frames_noting {α : Type} (x : Emits α) : (s.noting x).frames = s.frames := rfl

@[simp] theorem frames_emitted (stmtId : Text) : (s.emitted stmtId).frames = s.frames := rfl

@[simp] theorem lines_add : (s.add line).lines = s.lines ++ [line] := by
  simp [lines, add]

@[simp] theorem lines_indented : s.indented.lines = s.lines := rfl

@[simp] theorem lines_outdented : s.outdented.lines = s.lines := rfl

@[simp] theorem lines_withFrames : (s.withFrames frames).lines = s.lines := rfl

@[simp] theorem lines_noting {α : Type} (x : Emits α) : (s.noting x).lines = s.lines := rfl

@[simp] theorem lines_emitted (stmtId : Text) : (s.emitted stmtId).lines = s.lines := rfl

@[simp] theorem frames_addAll (added : List JavaLine) : (s.addAll added).frames = s.frames := by
  induction added generalizing s with
  | nil => rfl
  | cons line added ih => exact ih (s.add line)

@[simp] theorem lines_addAll (added : List JavaLine) :
    (s.addAll added).lines = s.lines ++ added := by
  induction added generalizing s with
  | nil => simp [addAll]
  | cons line added ih =>
      have h := ih (s.add line)
      rw [lines_add, List.append_assoc] at h
      exact h

end Projections

end EmissionState

/-- The test of a top frame: `frame == null || !kind.equals(frame.kind)` is a
miss. -/
def onTop {α : Type} (kind : BlockKind) (frames : List BlockFrame)
    (hit : BlockFrame → List BlockFrame → α) (miss : α) : α :=
  match frames with
  | frame :: rest => if frame.kind = kind then hit frame rest else miss
  | [] => miss

variable (u : UnicodeData) (fields : Fields)

/-- A statement that meets no matching frame is recorded. -/
def emitMismatch (source : Source) (code : String) (message description : Text)
    (s : EmissionState) : EmissionState :=
  (s.noting ((source.site fields).note code message)).add
    (assumptionRecordCall (source.site fields) description)

def emitIf (source : Source) (s : EmissionState) : EmissionState :=
  let condition := conditionExpression u (source.site fields) (operand source.operands "condition" [])
  let s := (s.add (headComment "if".toList source)).noting condition
  let s := (s.add (.openIf (.test condition.value))).indented
  s.withFrames ({ kind := .if, stmtId := source.stmtId } :: s.frames)

def emitElse (source : Source) (s : EmissionState) : EmissionState :=
  let s := s.add (headComment "else".toList source)
  onTop .if s.frames (fun _ _ => (s.outdented.add .openElse).indented)
    (emitMismatch fields source "else-without-if" "ELSE without active IF block".toList
      "ELSE without active IF block".toList s)

/-- `emitEndBlock`, which `emitStatement` calls for `if` only. -/
def emitEndBlock (kind : BlockKind) (source : Source) (s : EmissionState) : EmissionState :=
  let s := s.add (headComment ("end_".toList ++ kind.text) source)
  onTop kind s.frames (fun _ frames => (s.withFrames frames).outdented.add .close)
    (emitMismatch fields source "block-end-mismatch"
      ("END_".toList ++ u.toUpperCase kind.text ++ " without matching block".toList)
      ("Block end without matching start: ".toList ++ kind.text) s)

def emitEvaluate (source : Source) (s : EmissionState) : EmissionState :=
  let s := s.add (headComment "evaluate".toList source)
  s.withFrames ({
    kind := .evaluate
    stmtId := source.stmtId
    selector := some (operand source.operands "selector" []) } :: s.frames)

def emitWhen (source : Source) (s : EmissionState) : EmissionState :=
  let value := operand source.operands "value" []
  let s := s.add (headComment "when".toList source)
  onTop .evaluate s.frames
    (fun frame frames =>
      let condition := evaluateCondition u (source.site fields) (frame.selector.getD []) value
      if frame.whenOpen then
        if whenOther u value then (s.outdented.add .openElse).indented
        else ((s.outdented.noting condition).add (.openElseIf condition.value)).indented
      else
        let s := if whenOther u value then s.add (.openIf .always)
          else (s.noting condition).add (.openIf (.test condition.value))
        (s.withFrames ({ frame with whenOpen := true } :: frames)).indented)
    (emitMismatch fields source "when-without-evaluate" "WHEN without active EVALUATE block".toList
      "WHEN without active EVALUATE block".toList s)

def emitEndEvaluate (source : Source) (s : EmissionState) : EmissionState :=
  let s := s.add (headComment "end_evaluate".toList source)
  onTop .evaluate s.frames
    (fun frame frames =>
      let s := s.withFrames frames
      if frame.whenOpen then s.outdented.add .close else s)
    (emitMismatch fields source "end-evaluate-without-evaluate"
      "END_EVALUATE without active EVALUATE block".toList
      "END_EVALUATE without active EVALUATE block".toList s)

structure PerformSpec where
  varying : Option Text := none
  start : Text := []
  step : Text := []
  condition : Text

/-- `JavaProjectGenerator.performSpec`. -/
def performSpec (operands : ObjectMap) : PerformSpec :=
  let mode := operand operands "mode" []
  if mode == "until".toList then { condition := operand operands "until" [] }
  else if mode == "varying-until".toList then
    { varying := stringOrNull (get "varying".toList operands)
      start := operand operands "from" ['0']
      step := operand operands "by" ['1']
      condition := operand operands "until" [] }
  else
    let tokens := tokenStrings (get "tokens".toList operands)
    if 3 ≤ tokens.length && tokenAt tokens 1 == "UNTIL".toList then
      { condition := joinTokens (tokens.drop 2) }
    else
      let fromIndex := tokenIndex "FROM".toList tokens
      let byIndex := tokenIndex "BY".toList tokens
      let untilIndex := tokenIndex "UNTIL".toList tokens
      if 8 ≤ tokens.length && tokenAt tokens 1 == "VARYING".toList && fromIndex == 3 &&
          fromIndex < byIndex && byIndex < untilIndex then
        { varying := some (tokenAt tokens 2)
          start := tokenAt tokens (fromIndex + 1)
          step := tokenAt tokens (byIndex + 1)
          condition := joinTokens (tokens.drop (untilIndex + 1).toNat) }
      else { condition := "false".toList }

/-- The field a `PERFORM VARYING` counts with. -/
def varyingReference (site : Site) (spec : PerformSpec) : Emits (Option FieldReference) :=
  match spec.varying with
  | some varying => fieldReference u site varying
  | none => pure none

/-- The assignment in front of the loop. -/
def performStart (site : Site) (spec : PerformSpec) : Emits (List JavaLine) := do
  match ← varyingReference u site spec with
  | some varying =>
      return [assignNumeric varying.accessor (← numericExpression u site spec.start)]
  | none => return []

/-- The increment at the end of the loop's body. -/
def performIncrement (site : Site) (spec : PerformSpec) : Emits (Option JavaLine) := do
  match ← varyingReference u site spec with
  | some varying =>
      return some (assignNumeric varying.accessor (varying.accessor ++
        ".numericValue().add(".toList ++ (← numericExpression u site spec.step) ++ [')']))
  | none => return none

def loopGuard (stmtId : Text) : Text :=
  "loopGuard_".toList ++ javaIdentifier u stmtId

def emitPerform (source : Source) (s : EmissionState) : EmissionState :=
  let site := source.site fields
  let spec := performSpec source.operands
  let start := performStart u site spec
  let condition := conditionExpression u site spec.condition
  let increment := performIncrement u site spec
  let guard := loopGuard u source.stmtId
  let s := ((s.add (headComment "perform".toList source)).noting start).addAll start.value
  let s := (s.add (.declareGuard guard)).noting condition
  let s := (s.add (.openWhile condition.value)).indented
  let s := (s.add (.checkGuard guard)).indented
  let s := (s.add (.throwGuard source.stmtId)).outdented
  let s := (s.add .close).noting increment
  s.withFrames ({
    kind := .perform
    stmtId := source.stmtId
    incrementLine := increment.value } :: s.frames)

def emitEndPerform (source : Source) (s : EmissionState) : EmissionState :=
  let s := s.add (headComment "end_perform".toList source)
  onTop .perform s.frames
    (fun frame frames =>
      (((s.withFrames frames).addAll frame.incrementLine.toList).outdented).add .close)
    (emitMismatch fields source "end-perform-without-perform"
      "END_PERFORM without active PERFORM block".toList
      "END_PERFORM without active PERFORM block".toList s)

/-- What a statement emits that is no part of the block structure. -/
def leafLines (source : Source) : Operation → Option (Emits (List JavaLine))
  | .paragraph => some (pure [paragraphComment source])
  | .display => some (leaf "display" (emitDisplay u site source.operands))
  | .move => some (leaf "move" (emitMove u site source.operands))
  | .compute => some (leaf "compute" (emitCompute u site source.operands))
  | .add => some (leaf "add" (emitAdd u site source.operands))
  | .subtract => some (leaf "subtract" (emitSubtract u site source.operands))
  | .multiply => some (leaf "multiply" (emitMultiply u site source.operands))
  | .divide => some (leaf "divide" (emitDivide u site source.operands))
  | .unsupported operation => some do
      return headComment operation source :: (← emitUnsupported site operation source.raw)
  | _ => none
where
  site : Site := source.site fields
  leaf (operation : String) (lines : Emits (List JavaLine)) : Emits (List JavaLine) := do
    return headComment operation.toList source :: (← lines)

def emitLeaf (lines : Emits (List JavaLine)) (s : EmissionState) : EmissionState :=
  (s.noting lines).addAll lines.value

/-- The block statements of the `switch` of `emitStatement`. -/
def emitBlock (source : Source) : Operation → EmissionState → EmissionState
  | .if => emitIf u fields source
  | .else => emitElse fields source
  | .endIf => emitEndBlock u fields .if source
  | .evaluate => emitEvaluate source
  | .when => emitWhen u fields source
  | .endEvaluate => emitEndEvaluate fields source
  | .perform => emitPerform u fields source
  | .endPerform => emitEndPerform fields source
  | .stop => fun s => (s.add (headComment "stop".toList source)).add .leave
  | _ => id

/-- `JavaProjectGenerator.emitStatement`. -/
def emitStatement (s : EmissionState) (statement : IrStatement) : EmissionState :=
  let source := sourceOf statement
  let operation := operationOf u statement
  let s := match leafLines u fields source operation with
    | some lines => emitLeaf lines s
    | none => emitBlock u fields source operation s
  s.emitted source.stmtId

def emitStatements (statements : List IrStatement) : EmissionState :=
  statements.foldl (emitStatement u fields) {}

/-- What `closeOpenBlocks` does for a frame. -/
def closeFrame (s : EmissionState) (frame : BlockFrame) : EmissionState :=
  let s := s.noting (note 0 "unclosed-block" ("Generated code closed unmatched IR block ".toList ++
    frame.kind.text ++ " (".toList ++ frame.stmtId ++ [')']))
  if frame.kind = .evaluate ∧ frame.whenOpen = false then s else s.outdented.add .close

/-- `JavaProjectGenerator.closeOpenBlocks`. -/
def closeOpenBlocks (s : EmissionState) : EmissionState :=
  s.frames.foldl closeFrame (s.withFrames [])

/-- The `runBody` of `generate`. -/
def generateBody (statements : List IrStatement) : EmissionState :=
  closeOpenBlocks (emitStatements u fields statements)

theorem plain_leaf (operation : String) {source : Source} {lines : Emits (List JavaLine)}
    (h : PlainLines lines) : PlainLines (leafLines.leaf source operation lines) := by
  intro line hline
  rcases List.mem_cons.mp hline with rfl | hline
  · exact .inl ⟨_, rfl⟩
  · exact h line hline

/-- A leaf statement emits comments and statements only. -/
theorem plain_leafLines {source : Source} {operation : Operation} {lines : Emits (List JavaLine)}
    (h : leafLines u fields source operation = some lines) : PlainLines lines := by
  cases operation with
  | paragraph =>
      obtain rfl := Option.some.inj h
      intro line hline
      exact .inl ⟨_, List.mem_singleton.mp hline⟩
  | display =>
      obtain rfl := Option.some.inj h
      exact plain_leaf _ (plain_emitDisplay u _ _)
  | move =>
      obtain rfl := Option.some.inj h
      exact plain_leaf _ (plain_emitMove u _ _)
  | compute =>
      obtain rfl := Option.some.inj h
      exact plain_leaf _ (plain_emitCompute u _ _)
  | add =>
      obtain rfl := Option.some.inj h
      exact plain_leaf _ (plain_emitAdd u _ _)
  | subtract =>
      obtain rfl := Option.some.inj h
      exact plain_leaf _ (plain_emitSubtract u _ _)
  | multiply =>
      obtain rfl := Option.some.inj h
      exact plain_leaf _ (plain_emitMultiply u _ _)
  | divide =>
      obtain rfl := Option.some.inj h
      exact plain_leaf _ (plain_emitDivide u _ _)
  | unsupported operation =>
      obtain rfl := Option.some.inj h
      intro line hline
      rcases List.mem_cons.mp hline with rfl | hline
      · exact .inl ⟨_, rfl⟩
      · exact plain_emitUnsupported _ _ _ line hline
  | «if» | «else» | endIf | evaluate | when | endEvaluate | perform | endPerform | stop =>
      contradiction

end C2c.TargetJava.Generation
