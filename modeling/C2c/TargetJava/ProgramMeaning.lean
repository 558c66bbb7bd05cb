import C2c.Library.CodeSimulation
import C2c.TargetJava.ArithmeticStatements
import C2c.TargetJava.NumericConditions
import C2c.TargetJava.ReportedStatements
import C2c.TargetJava.StructuredEmission

/-!
What a program of arithmetic statements, choices and loops means, and that the
body generated for it does the same.
-/

namespace C2c.TargetJava.ProgramMeaning

open C2c.Library.BigDecimal (DigitData)
open C2c.Library.JavaText
open C2c.Library.JavaObject
open C2c.Library.StructuredCode
open C2c.Library.CodeSimulation
open C2c.SemanticIr.Statements
open C2c.TargetJava.Literals
open C2c.TargetJava.References
open C2c.TargetJava.Expressions
open C2c.TargetJava.Conditions
open C2c.TargetJava.LeafStatements
open C2c.TargetJava.Generation
open C2c.TargetJava.BlockSteps
open C2c.TargetJava.JavaReader
open C2c.TargetJava.StructuredProgram
open C2c.TargetJava.StructuredEmission (leafLines_block readBody_generateBody)
open C2c.TargetJava.ReportedStatements (diagnostics_addAll)
open C2c.TargetJava.JavaNumbers
open C2c.TargetJava.WrittenReferences
open C2c.TargetJava.WrittenExpressions
open C2c.TargetJava.ExpressionMeaning
open C2c.TargetJava.ArithmeticStatements
open C2c.TargetJava.NumericConditions

section Cobol

instance decidableHolds (x y : Rat) : (relation : Relation) → Decidable (relation.Holds x y)
  | .equalTo => inferInstanceAs (Decidable (x = y))
  | .notEqual => inferInstanceAs (Decidable (x ≠ y))
  | .greaterThan => inferInstanceAs (Decidable (y < x))
  | .lessThan => inferInstanceAs (Decidable (x < y))
  | .greaterOrEqual => inferInstanceAs (Decidable (y ≤ x))
  | .lessOrEqual => inferInstanceAs (Decidable (x ≤ y))

/-- The answer of a condition. -/
def answer (condition : Condition) (store : Memory) : Except Fault Bool := do
  let x ← condition.left.eval store
  let y ← condition.right.eval store
  return decide (condition.relation.Holds x.value.toRat y.value.toRat)

/-- What statements and conditions do to the fields of the program; behind a fault
nothing is done any more. -/
def cobol : Interpretation Statement Condition (Except Fault Memory) where
  act statement state := state >>= performAll statement.assignments
  test condition state :=
    match state >>= answer condition with
    | .ok value => (value, state)
    -- behind a fault every loop ends
    | .error fault => (true, .error fault)

abbrev Code := List (Piece Statement Condition)

end Cobol

section Java

/-- What the generated statements and conditions do to the variables of the class;
`none` behind a text that is not read. -/
def java (d : DigitData) : Interpretation Text Text (Option (Except Fault Memory)) where
  act code state := do
    let result ← state
    let assignment ← readAssignment code
    return result >>= fun memory => assignment.run d memory
  test code state :=
    match state, readCondition code with
    | some result, some comparison =>
        match result >>= comparison.eval d with
        | .ok value => (value, some result)
        | .error fault => (true, some (.error fault))
    | _, _ => (true, none)

end Java

section Encoding

variable (u : UnicodeData) (fields : Fields)

/-- A text writes a condition over declared fields. -/
def EncodesCondition (source : Source) (condition : Condition) (t : Text) : Prop :=
  WritesCondition u (source.site fields) condition t ∧
    condition.left.Declared fields ∧ condition.right.Declared fields

/-- What a `PERFORM` does in front of its loop, and behind each round of it. -/
inductive EncodesVarying (spec : PerformSpec) : Code → Code → Prop
  | plain (h : spec.varying = none) : EncodesVarying spec [] []
  | varying {target : Place} {start step : Expression} {name : Text} (h : spec.varying = some name)
      (htarget : Written target name) (hstart : Writes start spec.start)
      (hstep : Writes step spec.step) (hdeclared : WrittenReferences.Declared fields target)
      (hvalues : start.Declared fields ∧ step.Declared fields) :
      EncodesVarying spec [.act (.compute target start)]
        [.act (.accumulate .add [step] [target])]

/-- What a `WHEN` tests: the selector is equal to its value; `OTHER` is always
taken. -/
inductive EncodesTest (head : At u .evaluate) (arm : At u .when) : Option Condition → Prop
  | other (h : isOther u (sourceOf arm.1) = true) : EncodesTest head arm none
  | equal {selector value : Expression} {t : Text} (h : isOther u (sourceOf arm.1) = false)
      (ht : operand (sourceOf head.1).operands "selector" [] = t) (hselector : Writes selector t)
      (hvalue : Writes value (whenValue (sourceOf arm.1)))
      (hnumeric : isNumericComparable u ((sourceOf arm.1).site fields) t = true ∧
        isNumericComparable u ((sourceOf arm.1).site fields) (whenValue (sourceOf arm.1)) = true)
      (hdeclared : selector.Declared fields ∧ value.Declared fields) :
      EncodesTest head arm (some ⟨selector, .equalTo, value⟩)

/-- The statements of the IR that write a program of arithmetic statements, `IF`,
`EVALUATE`, `PERFORM` and `STOP RUN`.  Every `WHEN` has statements of its own, and no
`WHEN OTHER` stands between other arms. -/
inductive EncodesProgram : Program u → Code → Prop
  | nil : EncodesProgram [] []
  | arithmetic {nodes : Program u} {code : Code} (statement : Leaf u) {written : Statement}
      (h : Encodes (sourceOf statement.1).operands (operationOf u statement.1) written)
      (hdeclared : written.Declared fields) (hrest : EncodesProgram nodes code) :
      EncodesProgram (.leaf statement :: nodes) (.act written :: code)
  | stop {nodes : Program u} {code : Code} (statement : At u .stop)
      (hrest : EncodesProgram nodes code) :
      EncodesProgram (.stop statement :: nodes) (.leave :: code)
  | ifThen {nodes body : Program u} {code bodyCode : Code} {condition : Condition}
      (head : At u .if) (foot : At u .endIf)
      (hcondition : EncodesCondition u fields (sourceOf head.1) condition
        (operand (sourceOf head.1).operands "condition" []))
      (hbody : EncodesProgram body bodyCode) (hrest : EncodesProgram nodes code) :
      EncodesProgram (.ifThen head body foot :: nodes)
        (.choose [(some condition, bodyCode)] :: code)
  | ifElse {nodes body other : Program u} {code bodyCode otherCode : Code} {condition : Condition}
      (head : At u .if) (middle : At u .else) (foot : At u .endIf)
      (hcondition : EncodesCondition u fields (sourceOf head.1) condition
        (operand (sourceOf head.1).operands "condition" []))
      (hbody : EncodesProgram body bodyCode) (hother : EncodesProgram other otherCode)
      (hrest : EncodesProgram nodes code) :
      EncodesProgram (.ifElse head body middle other foot :: nodes)
        (.choose [(some condition, bodyCode), (none, otherCode)] :: code)
  | evaluate {nodes : Program u} {code : Code} {arms : List (WhenArm u)}
      {armsCode : List (Option Condition × Code)} (head : At u .evaluate) (foot : At u .endEvaluate)
      (htests : List.Forall₂ (fun arm armCode => EncodesTest u fields head arm.1 armCode.1) arms
        armsCode)
      (hbodies : ∀ p ∈ arms.zip armsCode, EncodesProgram p.1.2 p.2.2)
      (hfilled : arms ≠ [] ∧ ∀ arm ∈ arms, arm.2 ≠ [])
      (hother : arms.tail.dropLast.any isOtherArm = false)
      (hrest : EncodesProgram nodes code) :
      EncodesProgram (.evaluate head arms foot :: nodes) (.choose armsCode :: code)
  | perform {nodes body : Program u} {code bodyCode before behind : Code} {condition : Condition}
      (head : At u .perform) (foot : At u .endPerform)
      (hcondition : EncodesCondition u fields (sourceOf head.1) condition
        (performSpec (sourceOf head.1).operands).condition)
      (hvarying : EncodesVarying fields (performSpec (sourceOf head.1).operands) before behind)
      (hbody : EncodesProgram body bodyCode) (hrest : EncodesProgram nodes code) :
      EncodesProgram (.perform head body foot :: nodes)
        (before ++ .loop condition (bodyCode ++ behind) :: code)

end Encoding

section Simulation

variable {fields : Fields} {d : DigitData}

/-- The texts were read, and both sides fail alike or the variables still hold what
the fields hold. -/
def Alike (fields : Fields) (state : Except Fault Memory) (state' : Option (Except Fault Memory)) :
    Prop :=
  ∃ result, state' = some result ∧ Agree fields result state

/-- An assignment behind states that are alike. -/
theorem alike_assignment (hvariables : VariablesNamed fields) (happart : VariablesApart fields)
    {a : Place × Expression} (hdeclared : AssignmentDeclared fields a)
    {state : Except Fault Memory} {state' : Option (Except Fault Memory)}
    (h : Alike fields state state') :
    Alike fields (state >>= fun store => assign store a.1 (a.2.eval store))
      ((java d).act (javaAssignment fields a).text state') := by
  obtain ⟨result, rfl, hagree⟩ := h
  match result, state, hagree with
  | .error fault, .error _, hfault =>
      have hread := @readAssignment_text (javaAssignment fields a)
        (named_inJava hvariables hdeclared.1) (readable_javaNumber hvariables hdeclared.2)
      refine ⟨.error fault, ?_, hfault⟩
      simp only [java, Option.bind_eq_bind, Option.bind_some, hread]
      rfl
  | .ok memory, .ok store, hrepresents =>
      obtain ⟨hread, hrun⟩ := run_javaAssignment d hvariables happart hdeclared hrepresents
      refine ⟨(javaAssignment fields a).run d memory, ?_, hrun⟩
      simp only [java, Option.bind_eq_bind, Option.bind_some, hread]
      rfl

/-- A run of assignments behind states that are alike. -/
theorem alike_assignments (hvariables : VariablesNamed fields) (happart : VariablesApart fields)
    {assignments : List (Place × Expression)}
    (hdeclared : ∀ a ∈ assignments, AssignmentDeclared fields a) {state : Except Fault Memory}
    {state' : Option (Except Fault Memory)} (h : Alike fields state state') :
    Alike fields (state >>= performAll assignments)
      ((assignments.map fun a => (javaAssignment fields a).text).foldl
        (fun state code => (java d).act code state) state') := by
  induction assignments generalizing state state' with
  | nil =>
      have hnone : state >>= performAll [] = state := by
        cases state <;> rfl
      rw [hnone]
      exact h
  | cons a assignments ih =>
      have hstep : state >>= performAll (a :: assignments) =
          (state >>= fun store => assign store a.1 (a.2.eval store)) >>=
            performAll assignments := by
        cases state <;> rfl
      rw [hstep, List.map_cons, List.foldl_cons]
      exact ih (fun b hb => hdeclared b (List.mem_cons_of_mem _ hb))
        (alike_assignment hvariables happart (hdeclared a List.mem_cons_self) h)

/-- A statement is simulated by the statements generated for it. -/
theorem simulates_statement (hvariables : VariablesNamed fields) (happart : VariablesApart fields)
    {statement : Statement} (hdeclared : statement.Declared fields) {limit : Nat} :
    Simulates cobol (java d) limit (Alike fields) [.act statement]
      ((statement.assignments.map fun a => (javaAssignment fields a).text).map .act) :=
  simulates_act fun _ _ h =>
    alike_assignments hvariables happart (Statement.assignments_declared hdeclared) h

theorem eq_answer {condition : Condition} {store : Memory} {result : Except Fault Bool}
    (h : condition.Answers store result) : result = answer condition store := by
  unfold answer
  cases result with
  | error fault =>
      rcases h with hleft | ⟨x, hleft, hright⟩
      · rw [hleft]
        rfl
      · rw [hleft]
        simp only [hright]
        rfl
  | ok value =>
      obtain ⟨x, y, hleft, hright, hvalue⟩ := h
      rw [hleft]
      simp only [hright]
      have hdecide : value = decide (condition.relation.Holds x.value.toRat y.value.toRat) := by
        rw [Bool.eq_iff_iff, hvalue, decide_eq_true_iff]
      rw [hdecide]
      rfl

/-- A condition answers as the comparison generated for it. -/
theorem testsAlike_condition (hvariables : VariablesNamed fields) {condition : Condition}
    (hdeclared : condition.left.Declared fields ∧ condition.right.Declared fields) :
    TestsAlike (Alike fields) (cobol.test condition)
      ((java d).test (javaCondition fields condition).text) := by
  rintro state _ ⟨result, rfl, hagree⟩
  have hread := @readCondition_text (javaCondition fields condition)
    (readable_javaNumber hvariables hdeclared.1) (readable_javaNumber hvariables hdeclared.2)
  simp only [cobol, java, hread]
  match result, state, hagree with
  | .error fault, .error _, hfault => exact ⟨rfl, .error fault, rfl, hfault⟩
  | .ok memory, .ok store, hrepresents =>
      have hanswer := eq_answer (eval_javaCondition d hrepresents hdeclared)
      have hjava : (Except.ok memory >>= (javaCondition fields condition).eval d) =
        answer condition store := hanswer
      have hcobol : (Except.ok store >>= answer condition) = answer condition store := rfl
      rw [hjava, hcobol]
      cases answer condition store with
      | error fault => exact ⟨rfl, .error fault, rfl, rfl⟩
      | ok value => exact ⟨rfl, .ok memory, rfl, hrepresents⟩

end Simulation

section Emission

variable {u : UnicodeData} {fields : Fields}

theorem codes_assignments (assignments : List (Place × Expression)) :
    codes (assignments.map fun a => .statement (javaAssignment fields a).text) =
      assignments.map fun a => (javaAssignment fields a).text := by
  unfold codes
  rw [List.filterMap_map, ← List.filterMap_eq_map]
  rfl

/-- The code of an arithmetic statement. -/
theorem leafCode_encodes {statement : IrStatement} {written : Statement}
    (h : Encodes (sourceOf statement).operands (operationOf u statement) written)
    (hdeclared : written.Declared fields) :
    leafCode u fields statement =
      written.assignments.map fun a => (javaAssignment fields a).text := by
  obtain ⟨comment, hlines⟩ := leafLines_encodes u h hdeclared
  rw [leafCode, hlines]
  exact codes_assignments written.assignments

theorem performStart_written {site : Site} {spec : PerformSpec} {target : Place}
    {start : Expression} {name : Text} (h : spec.varying = some name)
    (htarget : Written target name) (hstart : Writes start spec.start)
    (hdeclared : WrittenReferences.Declared site.fields target)
    (hvalue : start.Declared site.fields) :
    performStart u site spec =
      pure [.statement (javaAssignment site.fields (target, start)).text] := by
  obtain ⟨field, hreference⟩ := fieldReference_written u htarget hdeclared
  unfold performStart varyingReference
  rw [h]
  dsimp only
  rw [hreference, pure_bind]
  dsimp only
  rw [numericExpression_writes u hstart hvalue, pure_bind, assignNumeric_text]
  rfl

theorem performIncrement_written {site : Site} {spec : PerformSpec} {target : Place}
    {step : Expression} {name : Text} (h : spec.varying = some name)
    (htarget : Written target name) (hstep : Writes step spec.step)
    (hdeclared : WrittenReferences.Declared site.fields target)
    (hvalue : step.Declared site.fields) :
    performIncrement u site spec = pure (some (.statement
      (javaAssignment site.fields (target, accumulated .add [step] target)).text)) := by
  obtain ⟨field, hreference⟩ := fieldReference_written u htarget hdeclared
  have hadd : ".numericValue().add(".toList = numericValueText ++ Method.text .add := by
    unfold numericValueText Method.text
    simp only [String.reduceToList]
    rfl
  have htext : (inJava site.fields target).text ++ (numericValueText ++ Method.text .add) ++
      (javaNumber site.fields step).text ++ [')'] =
      (javaNumber site.fields (accumulated .add [step] target)).text := by
    rw [javaNumber_accumulated, text_foldl, Number.text]
    simp [List.append_assoc]
  unfold performIncrement varyingReference
  rw [h]
  dsimp only
  rw [hreference, pure_bind]
  dsimp only
  rw [numericExpression_writes u hstep hvalue, pure_bind, hadd, htext, assignNumeric_text]
  rfl

variable {d : DigitData} {limit : Nat}

/-- A `PERFORM VARYING` counts as the program does. -/
theorem simulates_varying (hvariables : VariablesNamed fields) (happart : VariablesApart fields)
    (head : IrStatement) {before behind : Code}
    (h : EncodesVarying fields (performSpec (sourceOf head).operands) before behind) :
    Simulates cobol (java d) limit (Alike fields) before ((startCode u fields head).map .act) ∧
      Simulates cobol (java d) limit (Alike fields) behind ((stepCode u fields head).map .act) := by
  cases h with
  | plain h =>
      have hstart : startCode u fields head = [] := by
        unfold startCode startLines performStart varyingReference
        rw [h]
        rfl
      have hstep : stepCode u fields head = [] := by
        unfold stepCode performFrame performIncrement varyingReference
        rw [h]
        rfl
      rw [hstart, hstep]
      exact ⟨simulates_nil, simulates_nil⟩
  | @varying target start step name h htarget hstart hstep hdeclared hvalues =>
      have hstartCode : startCode u fields head =
          [(javaAssignment fields (target, start)).text] := by
        have hemitted : performStart u ((sourceOf head).site fields)
            (performSpec (sourceOf head).operands) = _ :=
          performStart_written h htarget hstart hdeclared hvalues.1
        unfold startCode startLines
        rw [hemitted]
        rfl
      have hstepCode : stepCode u fields head =
          [(javaAssignment fields (target, accumulated .add [step] target)).text] := by
        have hemitted : performIncrement u ((sourceOf head).site fields)
            (performSpec (sourceOf head).operands) = _ :=
          performIncrement_written h htarget hstep hdeclared hvalues.2
        unfold stepCode performFrame
        rw [hemitted]
        rfl
      have hsources : ∀ source ∈ [step], source.Declared fields :=
        List.forall_mem_singleton.mpr hvalues.2
      have htargets : ∀ place ∈ [target], WrittenReferences.Declared fields place :=
        List.forall_mem_singleton.mpr hdeclared
      rw [hstartCode, hstepCode]
      have hcompute : (Statement.compute target start).Declared fields := ⟨hdeclared, hvalues.1⟩
      have hadd : (Statement.accumulate .add [step] [target]).Declared fields :=
        ⟨hsources, htargets⟩
      exact ⟨simulates_statement hvariables happart hcompute,
        simulates_statement hvariables happart hadd⟩

theorem testsAlike_encodes (hvariables : VariablesNamed fields) {source : Source}
    {condition : Condition} {t : Text} (h : EncodesCondition u fields source condition t) :
    TestsAlike (Alike fields) (cobol.test condition)
      ((java d).test (conditionExpression u (source.site fields) t).value) := by
  rw [conditionExpression_written u h.1 h.2]
  exact testsAlike_condition hvariables h.2

theorem evaluateCondition_written {site : Site} {selector value : Expression} {s t : Text}
    (hselector : Writes selector s) (hvalue : Writes value t)
    (hnumeric : isNumericComparable u site s = true ∧ isNumericComparable u site t = true)
    (hdeclared : selector.Declared site.fields ∧ value.Declared site.fields) :
    evaluateCondition u site s t =
      pure (javaCondition site.fields ⟨selector, .equalTo, value⟩).text := by
  have hrelation := @relationalExpression_written u site ⟨selector, .equalTo, value⟩ s t hselector
    hvalue hnumeric hdeclared
  rw [evaluateCondition, hnumeric.1, hnumeric.2]
  exact hrelation

/-- The condition of a `WHEN` that is no `WHEN OTHER`. -/
theorem whenCondition_encodes {head : At u .evaluate} {arm : At u .when} {condition : Condition}
    (h : EncodesTest u fields head arm (some condition)) :
    isOther u (sourceOf arm.1) = false ∧
      evaluateCondition u ((sourceOf arm.1).site fields)
        (operand (sourceOf head.1).operands "selector" []) (whenValue (sourceOf arm.1)) =
          pure (javaCondition fields condition).text ∧
      condition.left.Declared fields ∧ condition.right.Declared fields := by
  cases h with
  | equal h ht hselector hvalue hnumeric hdeclared =>
      subst ht
      exact ⟨h, evaluateCondition_written hselector hvalue hnumeric hdeclared, hdeclared⟩

/-- The arms of an `EVALUATE` are simulated by the arms of its `if`. -/
theorem armsSimulate_encodes (hvariables : VariablesNamed fields) {head : At u .evaluate}
    {arms : List (WhenArm u)} {armsCode : List (Option Condition × Code)}
    (htests : List.Forall₂ (fun arm armCode => EncodesTest u fields head arm.1 armCode.1) arms
      armsCode)
    (hbodies : ∀ p ∈ arms.zip armsCode,
      Simulates cobol (java d) limit (Alike fields) p.2.2 (javaCode fields p.1.2)) :
    ArmsSimulate cobol (java d) limit (Alike fields) armsCode (javaArms fields head arms) := by
  induction htests with
  | nil =>
      rw [javaArms]
      exact armsSimulate_nil
  | @cons arm armCode arms armsCode htest hrest ih =>
      obtain ⟨arm, body⟩ := arm
      obtain ⟨test, code⟩ := armCode
      have hbody := hbodies ((arm, body), test, code) List.mem_cons_self
      have harms := ih fun p hp => hbodies p (List.mem_cons_of_mem _ hp)
      rw [javaArms, javaArm, whenTest]
      cases test with
      | none =>
          cases htest with
          | other h =>
              rw [if_pos h]
              exact armsSimulate_always hbody
      | some condition =>
          obtain ⟨hnot, hcondition, hdeclared⟩ := whenCondition_encodes htest
          have htext : whenCondition u fields (evaluateFrame (sourceOf head.1)).selector
              (sourceOf arm.1) = (javaCondition fields condition).text :=
            congrArg Emits.value hcondition
          rw [if_neg (Bool.eq_false_iff.mp hnot), htext]
          exact armsSimulate_test (testsAlike_condition hvariables hdeclared) hbody harms

/-- The code generated for a program runs as the program. -/
theorem simulates_encodes (hvariables : VariablesNamed fields) (happart : VariablesApart fields)
    {program : Program u} {code : Code} (h : EncodesProgram u fields program code) :
    Simulates cobol (java d) limit (Alike fields) code (javaCode fields program) := by
  induction h with
  | nil =>
      rw [javaCode]
      exact simulates_nil
  | arithmetic statement h hdeclared hrest ih =>
      rw [javaCode, javaNode, leafCode_encodes h hdeclared]
      exact (simulates_statement hvariables happart hdeclared).append ih
  | stop statement hrest ih =>
      rw [javaCode, javaNode]
      exact simulates_leave.append ih
  | ifThen head foot hcondition hbody hrest ihBody ih =>
      rw [javaCode, javaNode]
      have harms := armsSimulate_test (testsAlike_encodes hvariables hcondition) ihBody
        armsSimulate_nil
      exact (simulates_choose harms).append ih
  | ifElse head middle foot hcondition hbody hother hrest ihBody ihOther ih =>
      rw [javaCode, javaNode]
      exact (simulates_choose (armsSimulate_test (testsAlike_encodes hvariables hcondition) ihBody
        (armsSimulate_always ihOther))).append ih
  | evaluate head foot htests hbodies hfilled hother hrest ihBodies ih =>
      have hempty := List.isEmpty_eq_false_iff.mpr hfilled.1
      rw [javaCode, javaNode, hempty, if_neg Bool.false_ne_true]
      exact (simulates_choose (armsSimulate_encodes hvariables htests ihBodies)).append ih
  | perform head foot hcondition hvarying hbody hrest ihBody ih =>
      rw [javaCode, javaNode, List.append_assoc]
      obtain ⟨hbefore, hbehind⟩ := simulates_varying hvariables happart head.1 hvarying
      have hloop := simulates_loop (testsAlike_encodes hvariables hcondition)
        (ihBody.append hbehind)
      exact hbefore.append (hloop.append ih)

theorem otherLastInArms_of_forall {arms : List (WhenArm u)}
    (h : ∀ arm ∈ arms, otherLast arm.2 = true) : otherLastInArms arms = true := by
  induction arms with
  | nil => rfl
  | cons arm arms ih =>
      obtain ⟨head, body⟩ := arm
      rw [otherLastInArms, ih fun a ha => h a (List.mem_cons_of_mem _ ha), Bool.and_true,
        otherLastInArm]
      exact h (head, body) List.mem_cons_self

theorem exists_zip {A B : Type} {R : A → B → Prop} {xs : List A} {ys : List B}
    (h : List.Forall₂ R xs ys) {x : A} (hx : x ∈ xs) : ∃ y, (x, y) ∈ xs.zip ys := by
  induction h with
  | nil => cases hx
  | cons hxy hrest ih =>
      rcases List.mem_cons.mp hx with rfl | hx
      · exact ⟨_, List.mem_cons_self⟩
      · obtain ⟨y, hy⟩ := ih hx
        exact ⟨y, List.mem_cons_of_mem _ hy⟩

theorem otherLast_encodes {program : Program u} {code : Code}
    (h : EncodesProgram u fields program code) : otherLast program = true := by
  induction h with
  | nil => rfl
  | arithmetic statement h hdeclared hrest ih => exact ih
  | stop statement hrest ih => exact ih
  | ifThen head foot hcondition hbody hrest ihBody ih =>
      rw [otherLast, otherLastIn, ihBody, ih, Bool.and_self]
  | ifElse head middle foot hcondition hbody hother hrest ihBody ihOther ih =>
      rw [otherLast, otherLastIn, ihBody, ihOther, ih, Bool.and_self, Bool.and_self]
  | evaluate head foot htests hbodies hfilled hother hrest ihBodies ih =>
      have harms : otherLastInArms _ = true := otherLastInArms_of_forall fun arm harm =>
        have ⟨_, hmem⟩ := exists_zip htests harm
        ihBodies _ hmem
      rw [otherLast, otherLastIn, hother, harms, ih]
      rfl
  | perform head foot hcondition hvarying hbody hrest ihBody ih =>
      rw [otherLast, otherLastIn, ihBody, ih, Bool.and_self]

/-- The statements lead from frames to frames, and nothing is reported of them. -/
def Passes (u : UnicodeData) (fields : Fields) (statements : List IrStatement)
    (frames frames' : List BlockFrame) : Prop :=
  ∀ s, s.frames = frames → (statements.foldl (emitStatement u fields) s).frames = frames' ∧
    (statements.foldl (emitStatement u fields) s).diagnostics = s.diagnostics

theorem passes_nil (frames : List BlockFrame) : Passes u fields [] frames frames :=
  fun _ h => ⟨h, rfl⟩

theorem Passes.trans {before after : List IrStatement} {frames frames' frames'' : List BlockFrame}
    (h : Passes u fields before frames frames') (h' : Passes u fields after frames' frames'') :
    Passes u fields (before ++ after) frames frames'' := by
  intro s hs
  obtain ⟨hframes, hdiagnostics⟩ := h s hs
  obtain ⟨hframes', hdiagnostics'⟩ := h' _ hframes
  rw [List.foldl_append]
  exact ⟨hframes', hdiagnostics'.trans hdiagnostics⟩

theorem passes_leaf {statement : IrStatement} {written : Statement}
    (h : Encodes (sourceOf statement).operands (operationOf u statement) written)
    (hdeclared : written.Declared fields) (frames : List BlockFrame) :
    Passes u fields [statement] frames frames := by
  intro s hs
  obtain ⟨comment, hlines⟩ := leafLines_encodes u h hdeclared
  have hemitted (lines : List JavaLine) : (emitLeaf (pure lines) s).frames = s.frames ∧
      (emitLeaf (pure lines) s).diagnostics = s.diagnostics := by
    refine ⟨by simp [emitLeaf], ?_⟩
    exact (diagnostics_addAll _ _).trans (List.append_nil _)
  rw [List.foldl_cons, List.foldl_nil, emitStatement, hlines, ← hs]
  exact hemitted _

theorem passes_block {operation : Operation} (statement : At u operation)
    (hblock : isBlock operation = true) {frames frames' : List BlockFrame}
    (h : ∀ s, s.frames = frames →
      (emitBlock u fields (sourceOf statement.1) operation s).frames = frames' ∧
        (emitBlock u fields (sourceOf statement.1) operation s).diagnostics = s.diagnostics) :
    Passes u fields [statement.1] frames frames' := by
  intro s hs
  rw [List.foldl_cons, List.foldl_nil, emitStatement, statement.2, leafLines_block hblock]
  exact h s hs

theorem passes_if (head : At u .if) {condition : Condition}
    (h : EncodesCondition u fields (sourceOf head.1) condition
      (operand (sourceOf head.1).operands "condition" [])) (frames : List BlockFrame) :
    Passes u fields [head.1] frames
      ({ kind := .if, stmtId := (sourceOf head.1).stmtId } :: frames) := by
  apply passes_block head rfl
  intro s hs
  rw [emitBlock, emitIf, conditionExpression_written u h.1 h.2, ← hs]
  exact ⟨rfl, List.append_nil _⟩

theorem passes_else (middle : At u .else) (stmtId : Text) (frames : List BlockFrame) :
    Passes u fields [middle.1] ({ kind := .if, stmtId := stmtId } :: frames)
      ({ kind := .if, stmtId := stmtId } :: frames) := by
  apply passes_block middle rfl
  intro s hs
  rw [emitBlock, emitElse, EmissionState.frames_add, hs]
  exact ⟨hs, rfl⟩

theorem passes_endIf (foot : At u .endIf) (stmtId : Text) (frames : List BlockFrame) :
    Passes u fields [foot.1] ({ kind := .if, stmtId := stmtId } :: frames) frames := by
  apply passes_block foot rfl
  intro s hs
  unfold emitBlock emitEndBlock
  dsimp only
  rw [EmissionState.frames_add, hs]
  exact ⟨rfl, rfl⟩

theorem silent_varying (source : Source) {spec : PerformSpec} {before behind : Code}
    (h : EncodesVarying fields spec before behind) :
    (performStart u (source.site fields) spec).diagnostics = [] ∧
      (performIncrement u (source.site fields) spec).diagnostics = [] := by
  cases h with
  | plain h =>
      unfold performStart performIncrement varyingReference
      rw [h]
      exact ⟨rfl, rfl⟩
  | varying h htarget hstart hstep hdeclared hvalues =>
      have hbefore : performStart u (source.site fields) spec = _ :=
        performStart_written h htarget hstart hdeclared hvalues.1
      have hbehind : performIncrement u (source.site fields) spec = _ :=
        performIncrement_written h htarget hstep hdeclared hvalues.2
      rw [hbefore, hbehind]
      exact ⟨rfl, rfl⟩

theorem passes_perform (head : At u .perform) {condition : Condition} {before behind : Code}
    (hcondition : EncodesCondition u fields (sourceOf head.1) condition
      (performSpec (sourceOf head.1).operands).condition)
    (hvarying : EncodesVarying fields (performSpec (sourceOf head.1).operands) before behind)
    (frames : List BlockFrame) :
    Passes u fields [head.1] frames (performFrame u fields (sourceOf head.1) :: frames) := by
  apply passes_block head rfl
  intro s hs
  obtain ⟨hstart, hincrement⟩ := silent_varying (u := u) (sourceOf head.1) hvarying
  have hdiagnostics : (emitPerform u fields (sourceOf head.1) s).diagnostics = s.diagnostics := by
    change ((((s.add _).noting (performStart u ((sourceOf head.1).site fields)
      (performSpec (sourceOf head.1).operands))).addAll _).diagnostics ++
        (conditionExpression u ((sourceOf head.1).site fields)
          (performSpec (sourceOf head.1).operands).condition).diagnostics) ++
        (performIncrement u ((sourceOf head.1).site fields)
          (performSpec (sourceOf head.1).operands)).diagnostics = _
    rw [diagnostics_addAll, conditionExpression_written u hcondition.1 hcondition.2, hincrement]
    change (s.diagnostics ++ (performStart u ((sourceOf head.1).site fields)
      (performSpec (sourceOf head.1).operands)).diagnostics) ++ [] ++ [] = _
    rw [hstart, List.append_nil, List.append_nil, List.append_nil]
  refine ⟨?_, hdiagnostics⟩
  rw [← hs]
  simp [emitBlock, emitPerform, performFrame]

theorem passes_endPerform (foot : At u .endPerform) (source : Source) (frames : List BlockFrame) :
    Passes u fields [foot.1] (performFrame u fields source :: frames) frames := by
  apply passes_block foot rfl
  intro s hs
  unfold emitBlock emitEndPerform
  dsimp only
  rw [EmissionState.frames_add, hs]
  refine ⟨?_, ?_⟩
  · simp [onTop, performFrame]
  · exact diagnostics_addAll _ _

theorem passes_evaluate (head : At u .evaluate) (frames : List BlockFrame) :
    Passes u fields [head.1] frames (evaluateFrame (sourceOf head.1) :: frames) := by
  apply passes_block head rfl
  intro s hs
  rw [← hs]
  exact ⟨rfl, rfl⟩

theorem passes_when {head : At u .evaluate} {arm : At u .when} {test : Option Condition}
    (h : EncodesTest u fields head arm test) (opened : Bool) (frames : List BlockFrame) :
    Passes u fields [arm.1]
      ({ evaluateFrame (sourceOf head.1) with whenOpen := opened } :: frames)
      ({ evaluateFrame (sourceOf head.1) with whenOpen := true } :: frames) := by
  apply passes_block arm rfl
  intro s hs
  unfold emitBlock emitWhen
  dsimp only
  rw [EmissionState.frames_add, hs]
  dsimp only [onTop, evaluateFrame, if_true, Option.getD_some]
  cases test with
  | none =>
      cases h with
      | other h =>
          have hother : whenOther u (operand (sourceOf arm.1).operands "value" []) = true := h
          cases opened with
          | true =>
              rw [if_pos rfl, hother, if_pos rfl]
              exact ⟨hs, rfl⟩
          | false =>
              rw [if_neg Bool.false_ne_true, hother, if_pos rfl]
              exact ⟨rfl, rfl⟩
  | some condition =>
      obtain ⟨hnot, hcondition, -⟩ := whenCondition_encodes h
      have hother : whenOther u (operand (sourceOf arm.1).operands "value" []) = false := hnot
      have hemitted : evaluateCondition u ((sourceOf arm.1).site fields)
          (operand (sourceOf head.1).operands "selector" [])
          (operand (sourceOf arm.1).operands "value" []) = _ := hcondition
      cases opened with
      | true =>
          rw [if_pos rfl, hother, if_neg Bool.false_ne_true, hemitted]
          exact ⟨hs, List.append_nil _⟩
      | false =>
          rw [if_neg Bool.false_ne_true, hother, if_neg Bool.false_ne_true, hemitted]
          exact ⟨rfl, List.append_nil _⟩

theorem passes_arms {head : At u .evaluate} {arms : List (WhenArm u)}
    {armsCode : List (Option Condition × Code)}
    (htests : List.Forall₂ (fun arm armCode => EncodesTest u fields head arm.1 armCode.1) arms
      armsCode)
    (hbodies : ∀ arm ∈ arms, ∀ frames, Passes u fields (statements arm.2) frames frames)
    (opened : Bool) (frames : List BlockFrame) :
    ∃ opened', Passes u fields (armsStatements arms)
      ({ evaluateFrame (sourceOf head.1) with whenOpen := opened } :: frames)
      ({ evaluateFrame (sourceOf head.1) with whenOpen := opened' } :: frames) := by
  induction htests generalizing opened with
  | nil => exact ⟨opened, passes_nil _⟩
  | @cons arm armCode arms armsCode htest hrest ih =>
      obtain ⟨opened', harms⟩ := ih (fun a ha => hbodies a (List.mem_cons_of_mem _ ha)) true
      refine ⟨opened', ?_⟩
      rw [armsStatements, armStatements]
      exact ((passes_when htest opened frames).trans
        (hbodies arm List.mem_cons_self _)).trans harms

theorem passes_endEvaluate (foot : At u .endEvaluate) (head : At u .evaluate) (opened : Bool)
    (frames : List BlockFrame) :
    Passes u fields [foot.1]
      ({ evaluateFrame (sourceOf head.1) with whenOpen := opened } :: frames) frames := by
  apply passes_block foot rfl
  intro s hs
  unfold emitBlock emitEndEvaluate
  dsimp only
  rw [EmissionState.frames_add, hs]
  cases opened with
  | true => exact ⟨rfl, rfl⟩
  | false => exact ⟨rfl, rfl⟩

/-- Of a program nothing is reported, wherever it stands. -/
theorem passes_encodes {program : Program u} {code : Code}
    (h : EncodesProgram u fields program code) (frames : List BlockFrame) :
    Passes u fields (statements program) frames frames := by
  induction h generalizing frames with
  | nil => exact passes_nil frames
  | arithmetic statement h hdeclared hrest ih =>
      rw [statements, nodeStatements]
      exact (passes_leaf h hdeclared frames).trans (ih frames)
  | stop statement hrest ih =>
      rw [statements, nodeStatements]
      exact (passes_block statement rfl fun s hs => ⟨hs, rfl⟩).trans (ih frames)
  | ifThen head foot hcondition hbody hrest ihBody ih =>
      rw [statements, nodeStatements]
      exact (((passes_if head hcondition frames).trans (ihBody _)).trans
        (passes_endIf foot _ frames)).trans (ih frames)
  | ifElse head middle foot hcondition hbody hother hrest ihBody ihOther ih =>
      rw [statements, nodeStatements]
      exact (((((passes_if head hcondition frames).trans (ihBody _)).trans
        (passes_else middle _ frames)).trans (ihOther _)).trans
          (passes_endIf foot _ frames)).trans (ih frames)
  | evaluate head foot htests hbodies hfilled hother hrest ihBodies ih =>
      rw [statements, nodeStatements]
      obtain ⟨opened, harms⟩ := passes_arms htests (fun arm harm =>
        have ⟨_, hmem⟩ := exists_zip htests harm
        ihBodies _ hmem) false frames
      exact (((passes_evaluate head frames).trans harms).trans
        (passes_endEvaluate foot head opened frames)).trans (ih frames)
  | perform head foot hcondition hvarying hbody hrest ihBody ih =>
      rw [statements, nodeStatements]
      exact (((passes_perform head hcondition hvarying frames).trans (ihBody _)).trans
        (passes_endPerform foot _ frames)).trans (ih frames)

theorem diagnostics_generateBody {program : Program u} {code : Code}
    (h : EncodesProgram u fields program code) :
    (generateBody u fields (statements program)).diagnostics = [] := by
  obtain ⟨hframes, hdiagnostics⟩ := passes_encodes h [] {} rfl
  rw [generateBody, closeOpenBlocks, emitStatements, hframes]
  exact hdiagnostics

def statement (id operation : String) (operands : ObjectMap) : IrStatement :=
  ⟨id.toList, operation.toList, 1, operands, []⟩

def ifAtLeastThree : At .ascii .if :=
  ⟨statement "s1" "if" [("condition".toList, .str "2 * (a + 1) >= 3".toList)], by decide +kernel⟩

def doubleA : Leaf .ascii :=
  ⟨statement "s2" "compute" operandsOfA, by decide +kernel⟩

def endIf : At .ascii .endIf :=
  ⟨statement "s3" "end_if" [], by decide +kernel⟩

/-- `IF 2 * (A + 1) >= 3  COMPUTE A = 2 * (A + 1)  END-IF`. -/
def growA : Program .ascii :=
  [.ifThen ifAtLeastThree [.leaf doubleA] endIf]

def growACode : Code :=
  [.choose [(some atLeastThree, [.act computeA.statement])]]

theorem encodes_growA : EncodesProgram .ascii soleField growA growACode := by
  have hcondition : EncodesCondition .ascii soleField (sourceOf ifAtLeastThree.1) atLeastThree
      (operand (sourceOf ifAtLeastThree.1).operands "condition" []) := by
    have htext : operand (sourceOf ifAtLeastThree.1).operands "condition" [] =
        [] ++ ("2 * (a + 1)".toList ++ [' '] ++ (['>', '='] ++ ([' '] ++ ['3']))) ++ [] := by
      decide
    rw [htext]
    exact ⟨writes_atLeastThree, declared_doubledSuccessor, trivial⟩
  have hoperation : operationOf .ascii doubleA.1 = .compute := by decide +kernel
  have hencodes : Encodes (sourceOf doubleA.1).operands (operationOf .ascii doubleA.1)
      computeA.statement := by
    rw [hoperation]
    exact encodes_operandsOfA
  exact .ifThen ifAtLeastThree endIf hcondition
    (.arithmetic doubleA hencodes declared_computeA .nil) .nil

end Emission

end C2c.TargetJava.ProgramMeaning
