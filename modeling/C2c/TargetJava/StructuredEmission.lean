import C2c.TargetJava.StructuredProgram

namespace C2c.TargetJava.StructuredEmission

open C2c.Library.JavaText
open C2c.Library.StructuredCode
open C2c.SemanticIr.Statements
open C2c.TargetJava.References
open C2c.TargetJava.LeafStatements
open C2c.TargetJava.Generation
open C2c.TargetJava.BlockSteps
open C2c.TargetJava.JavaReader
open C2c.TargetJava.StructuredProgram

variable (u : UnicodeData) (fields : Fields)

/-- The statements lead from frames to frames, and their lines from a reading to
a reading. -/
structure Leads (statements : List IrStatement) (frames frames' : List BlockFrame)
    (r r' : Reading) : Prop where
  steps : (stepsFrom u fields statements frames).frames = frames'
  reads : readLines r (stepsFrom u fields statements frames).lines = some r'

section Leads

variable {u fields} {frames frames' frames'' : List BlockFrame} {r r' r'' : Reading}

theorem Leads.trans {before after : List IrStatement}
    (h : Leads u fields before frames frames' r r')
    (h' : Leads u fields after frames' frames'' r' r'') :
    Leads u fields (before ++ after) frames frames'' r r'' := by
  refine ⟨?_, ?_⟩
  · rw [stepsFrom_append, h.steps, h'.steps]
  · rw [stepsFrom_append, readLines_append, h.reads, Option.bind_some, h.steps, h'.reads]

theorem stepsFrom_singleton (statement : IrStatement) (frames : List BlockFrame) :
    stepsFrom u fields [statement] frames = statementStep u fields statement frames := by
  simp [stepsFrom]

theorem leafLines_block {source : Source} {operation : Operation}
    (hblock : isBlock operation = true) : leafLines u fields source operation = none := by
  cases operation <;> first | rfl | contradiction

theorem leads_block {operation : Operation} (statement : At u operation)
    (hblock : isBlock operation = true)
    (hreads : readLines r (blockStep u fields (sourceOf statement) operation frames).lines =
      some r') :
    Leads u fields [statement.1] frames
      (blockStep u fields (sourceOf statement) operation frames).frames r r' := by
  have hstep : statementStep u fields statement frames =
      ⟨(blockStep u fields (sourceOf statement) operation frames).frames,
        blockComment (sourceOf statement) operation ::
          (blockStep u fields (sourceOf statement) operation frames).lines⟩ := by
    rw [statementStep, statement.2, leafLines_block hblock]
  have hcomment : ∃ text, blockComment (sourceOf statement) operation = .comment text := by
    cases operation <;> exact ⟨_, rfl⟩
  obtain ⟨text, htext⟩ := hcomment
  refine ⟨?_, ?_⟩
  · rw [stepsFrom_singleton, hstep]
  · rw [stepsFrom_singleton, hstep, htext, readLines_comment, hreads]

end Leads

/-- Wherever they stand, the statements leave the frames as they are and write
the pieces. -/
def Writes (statements : List IrStatement) (pieces : List JavaPiece) : Prop :=
  ∀ frames code enclosing,
    Leads u fields statements frames frames ⟨code, enclosing, none⟩
      ⟨code ++ pieces, enclosing, none⟩

section Writes

variable {u fields} {body other : List IrStatement} {bodyCode otherCode : List JavaPiece}

theorem writes_nil : Writes u fields [] [] := by
  intro frames code enclosing
  exact ⟨rfl, by simp [stepsFrom]⟩

theorem Writes.append (h : Writes u fields body bodyCode)
    (h' : Writes u fields other otherCode) :
    Writes u fields (body ++ other) (bodyCode ++ otherCode) := by
  intro frames code enclosing
  rw [← List.append_assoc]
  exact (h frames code enclosing).trans (h' frames _ enclosing)

theorem writes_leaf (statement : Leaf u) :
    Writes u fields [statement.1] ((leafCode u fields statement).map .act) := by
  intro frames code enclosing
  have hleaf : ∃ lines, leafLines u fields (sourceOf statement) (operationOf u statement) =
      some lines := by
    have hblock := statement.2
    revert hblock
    cases operationOf u statement.1 <;> first | exact fun _ => ⟨_, rfl⟩ | (intro h; contradiction)
  obtain ⟨lines, hlines⟩ := hleaf
  refine ⟨?_, ?_⟩
  · rw [stepsFrom_singleton, statementStep, hlines]
  · rw [stepsFrom_singleton, statementStep, hlines, leafCode, hlines]
    exact readLines_plain (plain_leafLines u fields hlines) code enclosing

theorem writes_stop (statement : At u .stop) : Writes u fields [statement.1] [.leave] := by
  intro frames code enclosing
  exact leads_block statement rfl rfl

theorem writes_ifThen (head : At u .if) (foot : At u .endIf)
    (hbody : Writes u fields body bodyCode) :
    Writes u fields ([head.1] ++ body ++ [foot.1])
      [.choose [(some (ifCondition u fields (sourceOf head)), bodyCode)]] := by
  intro frames code enclosing
  have hhead : Leads u fields [head.1] frames
      ({ kind := .if, stmtId := (sourceOf head).stmtId } :: frames) ⟨code, enclosing, none⟩
      ⟨[], .arm code [] (some (ifCondition u fields (sourceOf head))) false :: enclosing, none⟩ :=
    leads_block head rfl rfl
  exact (hhead.trans (hbody _ [] _)).trans (leads_block foot rfl rfl)

theorem writes_ifElse (head : At u .if) (middle : At u .else) (foot : At u .endIf)
    (hbody : Writes u fields body bodyCode)
    (hother : Writes u fields other otherCode) :
    Writes u fields ([head.1] ++ body ++ [middle.1] ++ other ++ [foot.1])
      [.choose [(some (ifCondition u fields (sourceOf head)), bodyCode), (none, otherCode)]] := by
  intro frames code enclosing
  have hhead : Leads u fields [head.1] frames
      ({ kind := .if, stmtId := (sourceOf head).stmtId } :: frames) ⟨code, enclosing, none⟩
      ⟨[], .arm code [] (some (ifCondition u fields (sourceOf head))) false :: enclosing, none⟩ :=
    leads_block head rfl rfl
  have hmiddle : Leads u fields [middle.1]
      ({ kind := .if, stmtId := (sourceOf head).stmtId } :: frames)
      ({ kind := .if, stmtId := (sourceOf head).stmtId } :: frames)
      ⟨[] ++ bodyCode,
        .arm code [] (some (ifCondition u fields (sourceOf head))) false :: enclosing, none⟩
      ⟨[], .arm code [(some (ifCondition u fields (sourceOf head)), bodyCode)] none true ::
        enclosing, none⟩ :=
    leads_block middle rfl rfl
  exact (((hhead.trans (hbody _ [] _)).trans hmiddle).trans (hother _ [] _)).trans
    (leads_block foot rfl rfl)

theorem readLines_loopHead (source : Source) (code : List JavaPiece)
    (enclosing : List Enclosing) :
    readLines ⟨code, enclosing, none⟩ (loopHead u fields source) =
      some ⟨[], .loop (code ++ (codes (startLines u fields source)).map .act)
        (untilCondition u fields source) :: enclosing, none⟩ := by
  have hplain : ∀ line ∈ startLines u fields source, IsPlain line :=
    fun line hline => .inr (plain_startLines u fields source line hline)
  rw [loopHead, readLines_append, readLines_plain hplain]
  simp [readLines_cons, readLine, readHead]

theorem writes_perform (head : At u .perform) (foot : At u .endPerform)
    (hbody : Writes u fields body bodyCode) :
    Writes u fields ([head.1] ++ body ++ [foot.1])
      ((startCode u fields head).map .act ++
        [.loop (untilCondition u fields (sourceOf head))
          (bodyCode ++ (stepCode u fields head).map .act)]) := by
  intro frames code enclosing
  have hhead : Leads u fields [head.1] frames (performFrame u fields (sourceOf head) :: frames)
      ⟨code, enclosing, none⟩
      ⟨[], .loop (code ++ (startCode u fields head).map .act)
        (untilCondition u fields (sourceOf head)) :: enclosing, none⟩ :=
    leads_block head rfl (readLines_loopHead (sourceOf head) code enclosing)
  have hplain : ∀ line ∈ (performFrame u fields (sourceOf head)).incrementLine.toList,
      IsPlain line :=
    fun line hline => .inr (plain_incrementLine u fields (Option.mem_toList.mp hline))
  refine (hhead.trans (hbody _ [] _)).trans (leads_block foot rfl ?_)
  change readLines _ ((performFrame u fields (sourceOf head)).incrementLine.toList ++ [.close]) = _
  rw [readLines_append, readLines_plain hplain]
  simp [readLines_cons, readLine, closeBlock, startCode, stepCode]

end Writes

section Evaluate

variable {u} (head : At u .evaluate)

/-- The frame of an `EVALUATE` with an open arm. -/
def openFrame : BlockFrame :=
  { evaluateFrame (sourceOf head) with whenOpen := true }

theorem leads_firstArm (arm : At u .when) (frames : List BlockFrame) (code : List JavaPiece)
    (enclosing : List Enclosing) :
    Leads u fields [arm.1] (evaluateFrame (sourceOf head) :: frames)
      (openFrame head :: frames) ⟨code, enclosing, none⟩
      ⟨[], .arm code [] (whenTest fields head arm) false :: enclosing, none⟩ := by
  refine leads_block arm rfl ?_
  change readLines _ [armLine u fields (evaluateFrame (sourceOf head)) (sourceOf arm)] = _
  have hclosed : (evaluateFrame (sourceOf head)).whenOpen = false := rfl
  rw [armLine, whenTest, hclosed, if_neg Bool.false_ne_true]
  split
  · rfl
  · rfl

theorem leads_nextArm (arm : At u .when) (frames : List BlockFrame)
    (code before : List JavaPiece) (finished : List JavaArm) (test : Option Text)
    (enclosing : List Enclosing) :
    Leads u fields [arm.1] (openFrame head :: frames) (openFrame head :: frames)
      ⟨code, .arm before finished test false :: enclosing, none⟩
      ⟨[], .arm before (finished ++ [(test, code)]) (whenTest fields head arm)
        (isOther u (sourceOf arm)) :: enclosing, none⟩ := by
  refine leads_block arm rfl ?_
  change readLines _ [armLine u fields (openFrame head) (sourceOf arm)] = _
  have hopen : (openFrame head).whenOpen = true := rfl
  have hselector : (openFrame head).selector = (evaluateFrame (sourceOf head)).selector := rfl
  rw [armLine, whenTest, hopen, hselector, if_pos rfl]
  split
  · rename_i hother
    rw [hother]
    rfl
  · rename_i hother
    rw [Bool.eq_false_iff.mpr hother]
    rfl

theorem armsStatements_cons (arm : WhenArm u) (arms : List (WhenArm u)) :
    armsStatements (arm :: arms) = [arm.1.1] ++ statements arm.2 ++ armsStatements arms := by
  rw [armsStatements, armStatements]

theorem javaArms_cons (arm : WhenArm u) (arms : List (WhenArm u)) :
    javaArms fields head (arm :: arms) =
      (whenTest fields head arm.1, javaCode fields arm.2) :: javaArms fields head arms := by
  rw [javaArms, javaArm]

/-- The arms behind an open one continue its chain. -/
theorem leads_arms {arms : List (WhenArm u)}
    (harms : ∀ arm ∈ arms, Writes u fields (statements arm.2) (javaCode fields arm.2))
    (hother : arms.dropLast.any isOtherArm = false) (frames : List BlockFrame)
    (code before : List JavaPiece) (finished : List JavaArm) (test : Option Text)
    (enclosing : List Enclosing) :
    ∃ code' finished' test' final,
      Leads u fields (armsStatements arms) (openFrame head :: frames)
        (openFrame head :: frames) ⟨code, .arm before finished test false :: enclosing, none⟩
        ⟨code', .arm before finished' test' final :: enclosing, none⟩ ∧
      finished' ++ [(test', code')] =
        finished ++ (test, code) :: javaArms fields head arms := by
  induction arms generalizing code finished test with
  | nil =>
      rw [armsStatements, javaArms]
      exact ⟨code, finished, test, false, ⟨rfl, by simp [stepsFrom]⟩, rfl⟩
  | cons arm arms ih =>
      have hnext := (leads_nextArm fields head arm.1 frames code before finished test
        enclosing).trans (harms arm List.mem_cons_self _ [] _)
      rw [armsStatements_cons, javaArms_cons]
      cases arms with
      | nil =>
          rw [armsStatements, List.append_nil]
          exact ⟨_, _, _, _, hnext, by simp [javaArms]⟩
      | cons second arms =>
          rw [List.dropLast_cons_cons, List.any_cons, Bool.or_eq_false_iff] at hother
          have hfinal : isOther u (sourceOf arm.1) = false := hother.1
          rw [hfinal] at hnext
          obtain ⟨code', finished', test', final, hleads, heq⟩ :=
            ih (fun arm harm => harms arm (List.mem_cons_of_mem _ harm)) hother.2
              ([] ++ javaCode fields arm.2) (finished ++ [(test, code)])
              (whenTest fields head arm.1)
          refine ⟨code', finished', test', final, hnext.trans hleads, ?_⟩
          rw [heq]
          simp

theorem writes_evaluate {arms : List (WhenArm u)} (foot : At u .endEvaluate)
    (harms : ∀ arm ∈ arms, Writes u fields (statements arm.2) (javaCode fields arm.2))
    (hother : arms.tail.dropLast.any isOtherArm = false) :
    Writes u fields ([head.1] ++ armsStatements arms ++ [foot.1])
      (if arms.isEmpty then [] else [.choose (javaArms fields head arms)]) := by
  intro frames code enclosing
  have hhead : Leads u fields [head.1] frames (evaluateFrame (sourceOf head) :: frames)
      ⟨code, enclosing, none⟩ ⟨code, enclosing, none⟩ := leads_block head rfl rfl
  cases arms with
  | nil =>
      rw [armsStatements, List.append_nil]
      refine hhead.trans (leads_block foot rfl ?_)
      simp [blockStep, endEvaluateStep, onTop, evaluateFrame]
  | cons first arms =>
      have hfirst := (leads_firstArm fields head first.1 frames code enclosing).trans
        (harms first List.mem_cons_self _ [] _)
      obtain ⟨code', finished', test', final, hleads, heq⟩ :=
        leads_arms fields head (fun arm harm => harms arm (List.mem_cons_of_mem _ harm)) hother frames
          ([] ++ javaCode fields first.2) code [] (whenTest fields head first.1) enclosing
      rw [armsStatements_cons]
      refine (hhead.trans (hfirst.trans hleads)).trans (leads_block foot rfl ?_)
      rw [List.nil_append, List.nil_append] at heq
      rw [List.isEmpty_cons, if_neg Bool.false_ne_true, javaArms_cons, ← heq]
      rfl

end Evaluate

variable {u}

mutual

theorem writes_node (node : Node u) (h : otherLastIn node = true) :
    Writes u fields (nodeStatements node) (javaNode fields node) := by
  cases node with
  | leaf statement =>
      rw [nodeStatements, javaNode]
      exact writes_leaf statement
  | stop statement =>
      rw [nodeStatements, javaNode]
      exact writes_stop statement
  | ifThen head body foot =>
      rw [otherLastIn] at h
      rw [nodeStatements, javaNode]
      exact writes_ifThen head foot (writes_statements body h)
  | ifElse head body middle other foot =>
      rw [otherLastIn, Bool.and_eq_true] at h
      rw [nodeStatements, javaNode]
      exact writes_ifElse head middle foot (writes_statements body h.1)
        (writes_statements other h.2)
  | evaluate head arms foot =>
      rw [otherLastIn, Bool.and_eq_true, Bool.not_eq_true'] at h
      rw [nodeStatements, javaNode]
      exact writes_evaluate fields head foot (writes_arms arms h.2) h.1
  | perform head body foot =>
      rw [otherLastIn] at h
      rw [nodeStatements, javaNode]
      exact writes_perform head foot (writes_statements body h)
termination_by structural node

/-- The lines of a program are read as its Java code. -/
theorem writes_statements (nodes : List (Node u)) (h : otherLast nodes = true) :
    Writes u fields (statements nodes) (javaCode fields nodes) := by
  cases nodes with
  | nil =>
      rw [statements, javaCode]
      exact writes_nil
  | cons node nodes =>
      rw [otherLast, Bool.and_eq_true] at h
      rw [statements, javaCode]
      exact (writes_node node h.1).append (writes_statements nodes h.2)
termination_by structural nodes

theorem writes_arms (arms : List (At u .when × List (Node u)))
    (h : otherLastInArms arms = true) :
    ∀ arm ∈ arms, Writes u fields (statements arm.2) (javaCode fields arm.2) := by
  cases arms with
  | nil =>
      rintro _ ⟨⟩
  | cons first arms =>
      rw [otherLastInArms, Bool.and_eq_true] at h
      exact List.forall_mem_cons.mpr ⟨writes_arm first h.1, writes_arms arms h.2⟩
termination_by structural arms

theorem writes_arm (arm : At u .when × List (Node u)) (h : otherLastInArm arm = true) :
    Writes u fields (statements arm.2) (javaCode fields arm.2) := by
  match arm with
  | (head, body) =>
      rw [otherLastInArm] at h
      exact writes_statements body h
termination_by structural arm

end

/-- The body emitted for a program is its Java code. -/
theorem readBody_generateBody {program : Program u} (h : otherLast program = true) :
    readBody (generateBody u fields (statements program)).lines =
      some (javaCode fields program) := by
  have hwrites := writes_statements fields program h [] [] []
  have hreads : readLines {} (stepsFrom u fields (statements program) []).lines =
      some ⟨javaCode fields program, [], none⟩ := hwrites.reads
  rw [readBody, generateBody_lines, hwrites.steps, List.flatMap_nil, List.append_nil, hreads]

end C2c.TargetJava.StructuredEmission
