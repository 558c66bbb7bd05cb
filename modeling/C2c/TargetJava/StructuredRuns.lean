import C2c.TargetJava.StructuredEmission

namespace C2c.TargetJava.StructuredRuns

open C2c.Library.JavaText
open C2c.Library.JavaObject
open C2c.Library.StructuredCode
open C2c.SemanticIr.Statements
open C2c.TargetJava.References
open C2c.TargetJava.LeafStatements
open C2c.TargetJava.Generation
open C2c.TargetJava.BlockSteps
open C2c.TargetJava.JavaReader
open C2c.TargetJava.StructuredProgram
open C2c.TargetJava.StructuredEmission

/-- What happens in a run of the emitted Java. -/
inductive JavaEvent
  | ran (code : Text)
  | tested (condition : Text) (value : Bool)
deriving DecidableEq

/-- The truth value of a condition, wherever it is evaluated: behind any
events. -/
abbrev Oracle := List JavaEvent → Text → Bool

/-- The emitted Java runs its statements and evaluates its conditions. -/
def java (oracle : Oracle) : Interpretation Text Text (List JavaEvent) where
  act code events := events ++ [.ran code]
  test condition events :=
    (oracle events condition, events ++ [.tested condition (oracle events condition)])

/-- The run of an emitted body. -/
def javaRun (oracle : Oracle) (lines : List JavaLine) : Option (Outcome (List JavaEvent)) :=
  (readBody lines).map fun code => exec (java oracle) loopGuardLimit code []

inductive CobolEvent
  | ran (action : CobolAction)
  | tested (condition : Text) (value : Bool)

/-- A run of the COBOL reading.  `shared` says that a `WHEN` without statements was
selected that takes over the group of a later one. -/
structure CobolRun where
  events : List CobolEvent := []
  shared : Bool := false

variable (u : UnicodeData) (fields : Fields)

/-- The Java statements of an action. -/
def actionCode : CobolAction → List Text
  | .leaf statement => leafCode u fields statement
  | .start statement => startCode u fields statement
  | .step statement => stepCode u fields statement
  | .share => []

def javaEvents : CobolEvent → List JavaEvent
  | .ran action => (actionCode u fields action).map .ran
  | .tested condition value => [.tested condition value]

/-- The events of a run, as Java shows them. -/
def CobolRun.trace (s : CobolRun) : List JavaEvent :=
  s.events.flatMap (javaEvents u fields)

def cobol (oracle : Oracle) : Interpretation CobolAction Text CobolRun where
  act action s :=
    match action with
    | .share => { s with shared := true }
    | action => { s with events := s.events ++ [.ran action] }
  test condition s :=
    let value := oracle (s.trace u fields) condition
    (value, { s with events := s.events ++ [.tested condition value] })

/-- The run of a program in its COBOL reading, up to the limit of the loops. -/
def cobolRun (oracle : Oracle) (program : Program u) : Outcome CobolRun :=
  exec (cobol u fields oracle) loopGuardLimit (cobolCode fields program) {}

section Simulation

variable {u fields} {oracle : Oracle}

def Shared (s : CobolRun) : Prop :=
  s.shared = true

theorem keeps_shared : Keeps (cobol u fields oracle) Shared where
  act action s hs := by
    cases action with
    | share => rfl
    | leaf statement | start statement | step statement => exact hs
  test condition s hs := hs

theorem exec_keeps_shared (pieces : List CobolPiece) (s : CobolRun) (hs : Shared s) :
    Shared (exec (cobol u fields oracle) loopGuardLimit pieces s).state :=
  exec_invariant keeps_shared pieces s hs

theorem trace_test (condition : Text) (s : CobolRun) :
    (java oracle).test condition (s.trace u fields) =
      (((cobol u fields oracle).test condition s).1,
        ((cobol u fields oracle).test condition s).2.trace u fields) := by
  simp [java, cobol, CobolRun.trace, javaEvents]

theorem trace_act (action : CobolAction) (s : CobolRun) :
    ((cobol u fields oracle).act action s).trace u fields =
      s.trace u fields ++ (actionCode u fields action).map .ran := by
  cases action with
  | share => simp [cobol, CobolRun.trace, actionCode]
  | leaf statement | start statement | step statement => simp [cobol, CobolRun.trace, javaEvents]

theorem foldl_act (code : List Text) (events : List JavaEvent) :
    code.foldl (fun events code => (java oracle).act code events) events =
      events ++ code.map .ran := by
  induction code generalizing events with
  | nil => simp
  | cons first code ih =>
      rw [List.foldl_cons, ih]
      simp [java]

/-- The statements of an action do in Java what it does in COBOL. -/
theorem exec_actionCode (action : CobolAction) (s : CobolRun) :
    exec (java oracle) loopGuardLimit ((actionCode u fields action).map .act)
        (s.trace u fields) =
      .done (((cobol u fields oracle).act action s).trace u fields) := by
  rw [exec_acts, foldl_act, trace_act]

variable (u fields oracle)

/-- The Java code ends as the COBOL code, unless that shares a group. -/
def RunsAs (code : List CobolPiece) (code' : List JavaPiece) : Prop :=
  ∀ s, Follows Shared (CobolRun.trace u fields)
    (exec (cobol u fields oracle) loopGuardLimit code s)
    (exec (java oracle) loopGuardLimit code' (s.trace u fields))

def ArmsRunAs (arms : List (Option Text × List CobolPiece)) (arms' : List JavaArm) : Prop :=
  ∀ s, Follows Shared (CobolRun.trace u fields)
    (execArms (cobol u fields oracle) loopGuardLimit arms s)
    (execArms (java oracle) loopGuardLimit arms' (s.trace u fields))

variable {u fields oracle}

theorem runsAs_nil : RunsAs u fields oracle [] [] := by
  intro s
  rw [exec_nil, exec_nil]
  exact follows_done s

theorem RunsAs.append {code next : List CobolPiece} {code' next' : List JavaPiece}
    (h : RunsAs u fields oracle code code') (hnext : RunsAs u fields oracle next next') :
    RunsAs u fields oracle (code ++ next) (code' ++ next') := by
  intro s
  rw [exec_append, exec_append]
  exact (h s).andThen (exec_keeps_shared next) hnext

theorem runsAs_act (action : CobolAction) :
    RunsAs u fields oracle [.act action] ((actionCode u fields action).map .act) := by
  intro s
  rw [exec_act, exec_nil, exec_actionCode]
  exact follows_done _

theorem runsAs_leave : RunsAs u fields oracle [.leave] [.leave] := by
  intro s
  rw [exec_singleton, exec_singleton, execPiece, execPiece]
  exact .inr rfl

theorem runsAs_choose {arms : List (Option Text × List CobolPiece)} {arms' : List JavaArm}
    (h : ArmsRunAs u fields oracle arms arms') :
    RunsAs u fields oracle [.choose arms] [.choose arms'] := by
  intro s
  rw [exec_singleton, exec_singleton, execPiece, execPiece]
  exact h s

theorem runsAs_loop (condition : Text) {body : List CobolPiece} {body' : List JavaPiece}
    (h : RunsAs u fields oracle body body') :
    RunsAs u fields oracle [.loop condition body] [.loop condition body'] := by
  intro s
  rw [exec_singleton, exec_singleton, execPiece, execPiece]
  exact iterate_follows (trace_test condition) (keeps_shared.test condition)
    (exec_keeps_shared body) h s

theorem armsRunAs_nil : ArmsRunAs u fields oracle [] [] := by
  intro s
  rw [execArms, execArms]
  exact follows_done s

theorem armsRunAs_cons (test : Option Text) {body : List CobolPiece} {body' : List JavaPiece}
    {arms : List (Option Text × List CobolPiece)} {arms' : List JavaArm}
    (hbody : RunsAs u fields oracle body body') (harms : ArmsRunAs u fields oracle arms arms') :
    ArmsRunAs u fields oracle ((test, body) :: arms) ((test, body') :: arms') := by
  intro s
  rw [execArms, execArms]
  cases test with
  | none =>
      rw [execArm, execArm]
      exact hbody s
  | some condition =>
      rw [execArm, execArm, trace_test]
      split
      · exact hbody _
      · exact harms _

/-- Java runs nothing for a shared group, which COBOL notes. -/
theorem runsAs_sharedGroup (following : List (Option Text × List CobolPiece)) :
    RunsAs u fields oracle (sharedGroup following) [] := by
  intro s
  unfold sharedGroup
  split
  · rw [exec_act]
    exact .inl (exec_keeps_shared _ _ rfl)
  · exact runsAs_nil s

mutual

theorem runsAs_node (node : Node u) :
    RunsAs u fields oracle (cobolNode fields node) (javaNode fields node) := by
  cases node with
  | leaf statement =>
      rw [cobolNode, javaNode]
      exact runsAs_act (.leaf statement)
  | stop statement =>
      rw [cobolNode, javaNode]
      exact runsAs_leave
  | ifThen head body foot =>
      rw [cobolNode, javaNode]
      exact runsAs_choose (armsRunAs_cons _ (runsAs_code body) armsRunAs_nil)
  | ifElse head body middle other foot =>
      rw [cobolNode, javaNode]
      exact runsAs_choose (armsRunAs_cons _ (runsAs_code body)
        (armsRunAs_cons none (runsAs_code other) armsRunAs_nil))
  | evaluate head arms foot =>
      rw [cobolNode, javaNode]
      have harms := runsAs_choose (armsRunAs_arms head arms)
      split
      · rename_i hempty
        obtain rfl := List.isEmpty_iff.mp hempty
        intro s
        rw [cobolArms, exec_singleton, execPiece, execArms, exec_nil]
        exact follows_done s
      · exact harms
  | perform head body foot =>
      rw [cobolNode, javaNode]
      exact (runsAs_act (.start head)).append
        (runsAs_loop _ ((runsAs_code body).append (runsAs_act (.step head))))
termination_by structural node

theorem runsAs_code (nodes : List (Node u)) :
    RunsAs u fields oracle (cobolCode fields nodes) (javaCode fields nodes) := by
  cases nodes with
  | nil =>
      rw [cobolCode, javaCode]
      exact runsAs_nil
  | cons node nodes =>
      rw [cobolCode, javaCode]
      exact (runsAs_node node).append (runsAs_code nodes)
termination_by structural nodes

theorem armsRunAs_arms (head : At u .evaluate) (arms : List (At u .when × List (Node u))) :
    ArmsRunAs u fields oracle (cobolArms fields head arms) (javaArms fields head arms) := by
  cases arms with
  | nil =>
      rw [cobolArms, javaArms]
      exact armsRunAs_nil
  | cons arm arms =>
      rw [cobolArms, javaArms]
      exact armsRunAs_arm head arm (armsRunAs_arms head arms)
termination_by structural arms

theorem armsRunAs_arm (head : At u .evaluate) (arm : At u .when × List (Node u))
    {following : List (Option Text × List CobolPiece)} {following' : List JavaArm}
    (h : ArmsRunAs u fields oracle following following') :
    ArmsRunAs u fields oracle (cobolArm fields head arm following :: following)
      (javaArm fields head arm :: following') := by
  match arm with
  | (arm, body) =>
      rw [cobolArm, javaArm]
      apply armsRunAs_cons _ _ h
      split
      · rename_i hempty
        obtain rfl := List.isEmpty_iff.mp hempty
        rw [javaCode]
        exact runsAs_sharedGroup following
      · exact runsAs_code body
termination_by structural arm

end

end Simulation

def statement (id operation : String) (operands : ObjectMap) : IrStatement :=
  ⟨id.toList, operation.toList, 1, operands, []⟩

/-- `EVALUATE A  WHEN 1  WHEN 2  DISPLAY "X"  END-EVALUATE`. -/
def twoWhens : Program .ascii :=
  [.evaluate ⟨statement "s1" "evaluate" [("selector".toList, .str ['A'])], by decide +kernel⟩
    [(⟨statement "s2" "when" [("value".toList, .str ['1'])], by decide +kernel⟩, []),
      (⟨statement "s3" "when" [("value".toList, .str ['2'])], by decide +kernel⟩,
        [.leaf ⟨statement "s4" "display" [("items".toList, .list [.str "\"X\"".toList])],
          by decide +kernel⟩])]
    ⟨statement "s5" "end_evaluate" [], by decide +kernel⟩]

def selectorField : Fields :=
  [(['A'], ⟨['A'], ['A'], [], ['9'], 1, true, none⟩)]

/-- The first `WHEN` fails, the second succeeds. -/
def secondMatches : Oracle := fun events _ => !events.isEmpty

/-- The first `WHEN` succeeds. -/
def firstMatches : Oracle := fun _ _ => true

end C2c.TargetJava.StructuredRuns
