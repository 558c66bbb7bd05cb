import C2c.TargetJava.BlockSteps
import C2c.TargetJava.JavaReader

/-!
Well-nested programs: the statements they stand for, their structured COBOL
reading, and the Java code the generator writes for them.
-/

namespace C2c.TargetJava.StructuredProgram

open C2c.Library.JavaText
open C2c.Library.StructuredCode
open C2c.SemanticIr.Statements
open C2c.TargetJava.References
open C2c.TargetJava.LeafStatements
open C2c.TargetJava.Generation
open C2c.TargetJava.BlockSteps
open C2c.TargetJava.JavaReader

/-- The operations that are part of the block structure. -/
def isBlock : Operation → Bool
  | .if | .else | .endIf | .evaluate | .when | .endEvaluate | .perform | .endPerform | .stop => true
  | _ => false

/-- The statements with one operation. -/
abbrev At (u : UnicodeData) (operation : Operation) :=
  { statement : IrStatement // operationOf u statement = operation }

abbrev Leaf (u : UnicodeData) :=
  { statement : IrStatement // isBlock (operationOf u statement) = false }

/-- A statement of a well-nested program, with all that belongs to it. -/
inductive Node (u : UnicodeData)
  | leaf (statement : Leaf u)
  | stop (statement : At u .stop)
  | ifThen (head : At u .if) (body : List (Node u)) (foot : At u .endIf)
  | ifElse (head : At u .if) (body : List (Node u)) (middle : At u .else) (other : List (Node u))
      (foot : At u .endIf)
  | evaluate (head : At u .evaluate) (arms : List (At u .when × List (Node u)))
      (foot : At u .endEvaluate)
  | perform (head : At u .perform) (body : List (Node u)) (foot : At u .endPerform)

abbrev Program (u : UnicodeData) := List (Node u)

/-- A `WHEN` with the statements up to the next one. -/
abbrev WhenArm (u : UnicodeData) := At u .when × Program u

variable {u : UnicodeData} (fields : Fields)

section Statements

mutual

def nodeStatements : Node u → List IrStatement
  | .leaf statement => [statement]
  | .stop statement => [statement]
  | .ifThen head body foot => [head.1] ++ statements body ++ [foot.1]
  | .ifElse head body middle other foot =>
      [head.1] ++ statements body ++ [middle.1] ++ statements other ++ [foot.1]
  | .evaluate head arms foot => [head.1] ++ armsStatements arms ++ [foot.1]
  | .perform head body foot => [head.1] ++ statements body ++ [foot.1]

/-- The statement list of a program. -/
def statements : List (Node u) → List IrStatement
  | [] => []
  | node :: nodes => nodeStatements node ++ statements nodes

def armsStatements : List (At u .when × List (Node u)) → List IrStatement
  | [] => []
  | arm :: arms => armStatements arm ++ armsStatements arms

def armStatements : At u .when × List (Node u) → List IrStatement
  | (head, body) => [head.1] ++ statements body

end

end Statements

def isOtherArm (arm : WhenArm u) : Bool :=
  isOther u (sourceOf arm.1)

section OtherLast

mutual

/-- A `WHEN OTHER` behind other arms is the last arm. -/
def otherLastIn : Node u → Bool
  | .leaf _ | .stop _ => true
  | .ifThen _ body _ => otherLast body
  | .ifElse _ body _ other _ => otherLast body && otherLast other
  | .evaluate _ arms _ => !(arms.tail.dropLast.any isOtherArm) && otherLastInArms arms
  | .perform _ body _ => otherLast body

/-- No `WHEN` stands behind a `WHEN OTHER` that is not the first arm. -/
def otherLast : List (Node u) → Bool
  | [] => true
  | node :: nodes => otherLastIn node && otherLast nodes

def otherLastInArms : List (At u .when × List (Node u)) → Bool
  | [] => true
  | arm :: arms => otherLastInArm arm && otherLastInArms arms

def otherLastInArm : At u .when × List (Node u) → Bool
  | (_, body) => otherLast body

end

end OtherLast

/-- The test of a `WHEN`; a `WHEN OTHER` has none. -/
def whenTest (head : At u .evaluate) (arm : At u .when) : Option Text :=
  if isOther u (sourceOf arm) then none
  else some (whenCondition u fields (evaluateFrame (sourceOf head)).selector (sourceOf arm))

/-- What a program does besides its tests.  `start` and `step` are the `FROM` and
the `BY` of a `PERFORM VARYING`; `share` notes that a `WHEN` without statements
takes over the group of a later one. -/
inductive CobolAction
  | leaf (statement : IrStatement)
  | start (statement : IrStatement)
  | step (statement : IrStatement)
  | share

abbrev CobolPiece := Piece CobolAction Text

/-- The group a `WHEN` without statements takes over. -/
def sharedGroup : List (Option Text × List CobolPiece) → List CobolPiece
  | (_, piece :: group) :: _ => .act .share :: piece :: group
  | _ => []

section CobolReading

mutual

def cobolNode : Node u → List CobolPiece
  | .leaf statement => [.act (.leaf statement)]
  | .stop _ => [.leave]
  | .ifThen head body _ => [.choose [(some (ifCondition u fields (sourceOf head)), cobolCode body)]]
  | .ifElse head body _ other _ =>
      [.choose [(some (ifCondition u fields (sourceOf head)), cobolCode body),
        (none, cobolCode other)]]
  | .evaluate head arms _ => [.choose (cobolArms head arms)]
  | .perform head body _ =>
      [.act (.start head), .loop (untilCondition u fields (sourceOf head))
        (cobolCode body ++ [.act (.step head)])]

/-- The structured COBOL reading of a program. -/
def cobolCode : List (Node u) → List CobolPiece
  | [] => []
  | node :: nodes => cobolNode node ++ cobolCode nodes

def cobolArms (head : At u .evaluate) :
    List (At u .when × List (Node u)) → List (Option Text × List CobolPiece)
  | [] => []
  | arm :: arms => cobolArm head arm (cobolArms head arms) :: cobolArms head arms

def cobolArm (head : At u .evaluate) :
    At u .when × List (Node u) → List (Option Text × List CobolPiece) →
      Option Text × List CobolPiece
  | (arm, body), following =>
      (whenTest fields head arm, if body.isEmpty then sharedGroup following else cobolCode body)

end

end CobolReading

section LeafCode

variable (u)

/-- The code of a leaf statement. -/
def leafCode (statement : IrStatement) : List Text :=
  match leafLines u fields (sourceOf statement) (operationOf u statement) with
  | some lines => codes lines.value
  | none => []

def startCode (statement : IrStatement) : List Text :=
  codes (startLines u fields (sourceOf statement))

def stepCode (statement : IrStatement) : List Text :=
  codes (performFrame u fields (sourceOf statement)).incrementLine.toList

end LeafCode

section JavaReading

mutual

def javaNode : Node u → List JavaPiece
  | .leaf statement => (leafCode u fields statement).map .act
  | .stop _ => [.leave]
  | .ifThen head body _ => [.choose [(some (ifCondition u fields (sourceOf head)), javaCode body)]]
  | .ifElse head body _ other _ =>
      [.choose [(some (ifCondition u fields (sourceOf head)), javaCode body),
        (none, javaCode other)]]
  | .evaluate head arms _ => if arms.isEmpty then [] else [.choose (javaArms head arms)]
  | .perform head body _ =>
      (startCode u fields head).map .act ++
        [.loop (untilCondition u fields (sourceOf head))
          (javaCode body ++ (stepCode u fields head).map .act)]

/-- The code the generator writes for a program. -/
def javaCode : List (Node u) → List JavaPiece
  | [] => []
  | node :: nodes => javaNode node ++ javaCode nodes

def javaArms (head : At u .evaluate) : List (At u .when × List (Node u)) → List JavaArm
  | [] => []
  | arm :: arms => javaArm head arm :: javaArms head arms

def javaArm (head : At u .evaluate) : At u .when × List (Node u) → JavaArm
  | (arm, body) => (whenTest fields head arm, javaCode body)

end

end JavaReading

end C2c.TargetJava.StructuredProgram
