import C2c.TargetJava.Generation

namespace C2c.TargetJava.BlockSteps

open C2c.Library.JavaText
open C2c.SemanticIr.Statements
open C2c.TargetJava.Literals
open C2c.TargetJava.References
open C2c.TargetJava.Expressions
open C2c.TargetJava.Conditions
open C2c.TargetJava.LeafStatements
open C2c.TargetJava.Generation

/-- The frames a statement leaves, and the lines it adds. -/
structure BlockStep where
  frames : List BlockFrame
  lines : List JavaLine

variable (u : UnicodeData) (fields : Fields)

/-- The condition of an `IF`. -/
def ifCondition (source : Source) : Text :=
  (conditionExpression u (source.site fields) (operand source.operands "condition" [])).value

def whenValue (source : Source) : Text :=
  operand source.operands "value" []

def isOther (source : Source) : Bool :=
  whenOther u (whenValue source)

/-- The condition of a `WHEN` under an `EVALUATE` with the given selector. -/
def whenCondition (selector : Option Text) (source : Source) : Text :=
  (evaluateCondition u (source.site fields) (selector.getD []) (whenValue source)).value

def evaluateFrame (source : Source) : BlockFrame where
  kind := .evaluate
  stmtId := source.stmtId
  selector := some (operand source.operands "selector" [])

def startLines (source : Source) : List JavaLine :=
  (performStart u (source.site fields) (performSpec source.operands)).value

def untilCondition (source : Source) : Text :=
  (conditionExpression u (source.site fields) (performSpec source.operands).condition).value

def performFrame (source : Source) : BlockFrame where
  kind := .perform
  stmtId := source.stmtId
  incrementLine := (performIncrement u (source.site fields) (performSpec source.operands)).value

/-- The lines in front of the body of a loop. -/
def loopHead (source : Source) : List JavaLine :=
  startLines u fields source ++
    [.declareGuard (loopGuard u source.stmtId), .openWhile (untilCondition u fields source),
      .checkGuard (loopGuard u source.stmtId), .throwGuard source.stmtId, .close]

theorem plain_startLines (source : Source) :
    ∀ line ∈ startLines u fields source, ∃ code, line = .statement code := by
  unfold startLines performStart
  rw [value_bind]
  split
  · intro line hline
    exact ⟨_, List.mem_singleton.mp hline⟩
  · rintro _ ⟨⟩

theorem plain_incrementLine {source : Source} {line : JavaLine}
    (h : (performFrame u fields source).incrementLine = some line) :
    ∃ code, line = .statement code := by
  unfold performFrame performIncrement at h
  dsimp only at h
  rw [value_bind] at h
  split at h
  · exact ⟨_, (Option.some.inj h).symm⟩
  · contradiction

/-- A statement whose frame is not on top is recorded and changes no frame. -/
def mismatchStep (source : Source) (description : Text) (frames : List BlockFrame) : BlockStep :=
  ⟨frames, [assumptionRecordCall (source.site fields) description]⟩

def ifStep (source : Source) (frames : List BlockFrame) : BlockStep :=
  ⟨{ kind := .if, stmtId := source.stmtId } :: frames,
    [.openIf (.test (ifCondition u fields source))]⟩

def elseStep (source : Source) (frames : List BlockFrame) : BlockStep :=
  onTop .if frames (fun _ _ => ⟨frames, [.openElse]⟩)
    (mismatchStep fields source "ELSE without active IF block".toList frames)

def endIfStep (source : Source) (frames : List BlockFrame) : BlockStep :=
  onTop .if frames (fun _ rest => ⟨rest, [.close]⟩)
    (mismatchStep fields source
      ("Block end without matching start: ".toList ++ BlockKind.text .if) frames)

/-- The line of a `WHEN` under a frame of an `EVALUATE`. -/
def armLine (frame : BlockFrame) (source : Source) : JavaLine :=
  if frame.whenOpen then
    if isOther u source then .openElse
    else .openElseIf (whenCondition u fields frame.selector source)
  else if isOther u source then .openIf .always
  else .openIf (.test (whenCondition u fields frame.selector source))

def whenStep (source : Source) (frames : List BlockFrame) : BlockStep :=
  onTop .evaluate frames
    (fun frame rest => ⟨{ frame with whenOpen := true } :: rest, [armLine u fields frame source]⟩)
    (mismatchStep fields source "WHEN without active EVALUATE block".toList frames)

def endEvaluateStep (source : Source) (frames : List BlockFrame) : BlockStep :=
  onTop .evaluate frames
    (fun frame rest => ⟨rest, if frame.whenOpen then [.close] else []⟩)
    (mismatchStep fields source "END_EVALUATE without active EVALUATE block".toList frames)

def endPerformStep (source : Source) (frames : List BlockFrame) : BlockStep :=
  onTop .perform frames (fun frame rest => ⟨rest, frame.incrementLine.toList ++ [.close]⟩)
    (mismatchStep fields source "END_PERFORM without active PERFORM block".toList frames)

/-- The comment in front of a block statement. -/
def blockComment (source : Source) : Operation → JavaLine
  | .if => headComment "if".toList source
  | .else => headComment "else".toList source
  | .endIf => headComment ("end_".toList ++ BlockKind.text .if) source
  | .evaluate => headComment "evaluate".toList source
  | .when => headComment "when".toList source
  | .endEvaluate => headComment "end_evaluate".toList source
  | .perform => headComment "perform".toList source
  | .endPerform => headComment "end_perform".toList source
  | _ => headComment "stop".toList source

/-- What a block statement does behind its comment. -/
def blockStep (source : Source) (operation : Operation) (frames : List BlockFrame) : BlockStep :=
  match operation with
  | .if => ifStep u fields source frames
  | .else => elseStep fields source frames
  | .endIf => endIfStep fields source frames
  | .evaluate => ⟨evaluateFrame source :: frames, []⟩
  | .when => whenStep u fields source frames
  | .endEvaluate => endEvaluateStep fields source frames
  | .perform => ⟨performFrame u fields source :: frames, loopHead u fields source⟩
  | .endPerform => endPerformStep fields source frames
  | _ => ⟨frames, [.leave]⟩

/-- What `emitStatement` does to the frames and the lines. -/
def statementStep (statement : IrStatement) (frames : List BlockFrame) : BlockStep :=
  match leafLines u fields (sourceOf statement) (operationOf u statement) with
  | some lines => ⟨frames, lines.value⟩
  | none =>
      let step := blockStep u fields (sourceOf statement) (operationOf u statement) frames
      ⟨step.frames, blockComment (sourceOf statement) (operationOf u statement) :: step.lines⟩

/-- A state stands for the step that led from the frames and lines of another. -/
structure Does (s s' : EmissionState) (comment : JavaLine) (step : BlockStep) : Prop where
  frames : s'.frames = step.frames
  lines : s'.lines = s.lines ++ comment :: step.lines

section Does

variable {source : Source} {s : EmissionState}

theorem does_mismatch (comment : JavaLine) (code : String) (message description : Text) :
    Does s (emitMismatch fields source code message description (s.add comment)) comment
      (mismatchStep fields source description s.frames) :=
  ⟨rfl, by simp [emitMismatch, mismatchStep]⟩

theorem does_onTop {comment : JavaLine} {kind : BlockKind} {frames : List BlockFrame}
    {hit : BlockFrame → List BlockFrame → EmissionState} {miss : EmissionState}
    {hit' : BlockFrame → List BlockFrame → BlockStep} {miss' : BlockStep}
    (hhit : ∀ frame rest, frames = frame :: rest → Does s (hit frame rest) comment (hit' frame rest))
    (hmiss : Does s miss comment miss') :
    Does s (onTop kind frames hit miss) comment (onTop kind frames hit' miss') := by
  cases frames with
  | nil => exact hmiss
  | cons frame rest =>
      unfold onTop
      dsimp only
      split
      · exact hhit frame rest rfl
      · exact hmiss

theorem does_if :
    Does s (emitIf u fields source s) (headComment "if".toList source)
      (ifStep u fields source s.frames) :=
  ⟨rfl, by simp [emitIf, ifStep, ifCondition]⟩

theorem does_else :
    Does s (emitElse fields source s) (headComment "else".toList source)
      (elseStep fields source s.frames) := by
  apply does_onTop
  · intro frame rest hframes
    exact ⟨rfl, by simp⟩
  · exact does_mismatch fields _ _ _ _

theorem does_endIf :
    Does s (emitEndBlock u fields .if source s)
      (headComment ("end_".toList ++ BlockKind.text .if) source)
      (endIfStep fields source s.frames) := by
  apply does_onTop
  · intro frame rest hframes
    exact ⟨rfl, by simp⟩
  · exact does_mismatch fields _ _ _ _

theorem does_evaluate :
    Does s (emitEvaluate source s) (headComment "evaluate".toList source)
      ⟨evaluateFrame source :: s.frames, []⟩ :=
  ⟨rfl, by simp [emitEvaluate]⟩

theorem does_when :
    Does s (emitWhen u fields source s) (headComment "when".toList source)
      (whenStep u fields source s.frames) := by
  apply does_onTop
  · intro frame rest hframes
    have hframes : s.frames = frame :: rest := hframes
    dsimp only [armLine, isOther, whenCondition, whenValue]
    cases hopen : frame.whenOpen with
    | true =>
        have hframe : { frame with whenOpen := true } = frame := by rw [← hopen]
        rw [if_pos rfl, if_pos rfl, hframe]
        split
        · rename_i hother
          exact ⟨hframes, by simp [hother]⟩
        · rename_i hother
          exact ⟨hframes, by simp [hother]⟩
    | false =>
        rw [if_neg Bool.false_ne_true, if_neg Bool.false_ne_true]
        split
        · rename_i hother
          exact ⟨rfl, by simp [hother]⟩
        · rename_i hother
          exact ⟨rfl, by simp [hother]⟩
  · exact does_mismatch fields _ _ _ _

theorem does_endEvaluate :
    Does s (emitEndEvaluate fields source s) (headComment "end_evaluate".toList source)
      (endEvaluateStep fields source s.frames) := by
  apply does_onTop
  · intro frame rest hframes
    dsimp only
    split
    · exact ⟨rfl, by simp⟩
    · exact ⟨rfl, by simp⟩
  · exact does_mismatch fields _ _ _ _

theorem does_perform :
    Does s (emitPerform u fields source s) (headComment "perform".toList source)
      ⟨performFrame u fields source :: s.frames, loopHead u fields source⟩ :=
  ⟨by simp [emitPerform, performFrame], by
    simp [emitPerform, loopHead, startLines, untilCondition]⟩

theorem does_endPerform :
    Does s (emitEndPerform fields source s) (headComment "end_perform".toList source)
      (endPerformStep fields source s.frames) := by
  apply does_onTop
  · intro frame rest hframes
    exact ⟨by simp, by simp⟩
  · exact does_mismatch fields _ _ _ _

theorem does_block {operation : Operation} (hleaf : leafLines u fields source operation = none) :
    Does s (emitBlock u fields source operation s) (blockComment source operation)
      (blockStep u fields source operation s.frames) := by
  cases operation with
  | «if» => exact does_if u fields
  | «else» => exact does_else fields
  | endIf => exact does_endIf u fields
  | evaluate => exact does_evaluate
  | when => exact does_when u fields
  | endEvaluate => exact does_endEvaluate fields
  | perform => exact does_perform u fields
  | endPerform => exact does_endPerform fields
  | stop => exact ⟨rfl, by simp [emitBlock, blockComment, blockStep]⟩
  | paragraph => contradiction
  | display => contradiction
  | move => contradiction
  | compute => contradiction
  | add => contradiction
  | subtract => contradiction
  | multiply => contradiction
  | divide => contradiction
  | unsupported operation => contradiction

end Does

/-- A statement acts on the frames and the lines as its step says. -/
theorem emitStatement_step (s : EmissionState) (statement : IrStatement) :
    (emitStatement u fields s statement).frames =
        (statementStep u fields statement s.frames).frames ∧
      (emitStatement u fields s statement).lines =
        s.lines ++ (statementStep u fields statement s.frames).lines := by
  unfold emitStatement statementStep
  dsimp only
  cases hleaf : leafLines u fields (sourceOf statement) (operationOf u statement) with
  | some lines => simp [emitLeaf]
  | none =>
      have hdoes := does_block u fields (s := s) hleaf
      exact ⟨hdoes.frames, hdoes.lines⟩

/-- What a list of statements does to the frames it meets, and the lines it
adds. -/
def stepsFrom : List IrStatement → List BlockFrame → BlockStep
  | [], frames => ⟨frames, []⟩
  | statement :: statements, frames =>
      let step := statementStep u fields statement frames
      let rest := stepsFrom statements step.frames
      ⟨rest.frames, step.lines ++ rest.lines⟩

theorem stepsFrom_append (before after : List IrStatement) (frames : List BlockFrame) :
    stepsFrom u fields (before ++ after) frames =
      ⟨(stepsFrom u fields after (stepsFrom u fields before frames).frames).frames,
        (stepsFrom u fields before frames).lines ++
          (stepsFrom u fields after (stepsFrom u fields before frames).frames).lines⟩ := by
  induction before generalizing frames with
  | nil => rfl
  | cons statement before ih => simp only [List.cons_append, stepsFrom, ih, List.append_assoc]

theorem foldl_emitStatement (statements : List IrStatement) (s : EmissionState) :
    (statements.foldl (emitStatement u fields) s).frames =
        (stepsFrom u fields statements s.frames).frames ∧
      (statements.foldl (emitStatement u fields) s).lines =
        s.lines ++ (stepsFrom u fields statements s.frames).lines := by
  induction statements generalizing s with
  | nil => simp [stepsFrom]
  | cons statement statements ih =>
      obtain ⟨hframes, hlines⟩ := emitStatement_step u fields s statement
      obtain ⟨hframes', hlines'⟩ := ih (emitStatement u fields s statement)
      refine ⟨?_, ?_⟩
      · rw [List.foldl_cons, hframes', hframes, stepsFrom]
      · rw [List.foldl_cons, hlines', hlines, hframes, stepsFrom, List.append_assoc]

theorem emitStatements_frames (statements : List IrStatement) :
    (emitStatements u fields statements).frames = (stepsFrom u fields statements []).frames :=
  (foldl_emitStatement u fields statements {}).1

theorem emitStatements_lines (statements : List IrStatement) :
    (emitStatements u fields statements).lines = (stepsFrom u fields statements []).lines :=
  (foldl_emitStatement u fields statements {}).2

/-- The brace `closeOpenBlocks` writes for a frame. -/
def closingLines (frame : BlockFrame) : List JavaLine :=
  if frame.kind = .evaluate ∧ frame.whenOpen = false then [] else [.close]

theorem foldl_closeFrame (frames : List BlockFrame) (s : EmissionState) :
    (frames.foldl closeFrame s).lines = s.lines ++ frames.flatMap closingLines := by
  induction frames generalizing s with
  | nil => simp
  | cons frame frames ih =>
      have hclose : (closeFrame s frame).lines = s.lines ++ closingLines frame := by
        unfold closeFrame closingLines
        dsimp only
        split <;> simp
      rw [List.foldl_cons, ih, hclose, List.flatMap_cons, List.append_assoc]

/-- The body of `run()`: what the statements add, and a brace for every open
frame. -/
theorem generateBody_lines (statements : List IrStatement) :
    (generateBody u fields statements).lines =
      (stepsFrom u fields statements []).lines ++
        (stepsFrom u fields statements []).frames.flatMap closingLines := by
  unfold generateBody closeOpenBlocks
  rw [foldl_closeFrame, EmissionState.lines_withFrames, emitStatements_lines,
    emitStatements_frames]

end C2c.TargetJava.BlockSteps
