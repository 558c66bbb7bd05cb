import C2c.Library.StructuredCode
import C2c.TargetJava.LeafStatements

namespace C2c.TargetJava.JavaReader

open C2c.Library.JavaText
open C2c.Library.StructuredCode
open C2c.TargetJava.LeafStatements

/-- Java code: statements, and conditions as they are written. -/
abbrev JavaPiece := Piece Text Text

/-- An arm of an `if` chain; the arm of `if (true)` or `else` has no test. -/
abbrev JavaArm := Option Text × List JavaPiece

def testOf : JavaCondition → Option Text
  | .always => none
  | .test condition => some condition

/-- An open block of Java: an arm of an `if` chain behind its finished arms, or
the body of a loop; with the code in front of it. -/
inductive Enclosing
  | arm (before : List JavaPiece) (finished : List JavaArm) (test : Option Text) (final : Bool)
  | loop (before : List JavaPiece) (condition : Text)

/-- How much of the head of a guarded loop has been read:
`int g = 0; while (!(c)) { if (++g > limit) { throw ...; }`. -/
inductive LoopHead
  | declared (guard : Text)
  | tested (guard condition : Text)
  | checked (condition : Text)
  | thrown (condition : Text)

/-- The code of the innermost block so far, and the blocks around it. -/
structure Reading where
  code : List JavaPiece := []
  enclosing : List Enclosing := []
  head : Option LoopHead := none

def Reading.add (r : Reading) (pieces : List JavaPiece) : Reading :=
  { r with code := r.code ++ pieces }

/-- A line inside the head of a loop. -/
def readHead (r : Reading) (head : LoopHead) (line : JavaLine) : Option Reading :=
  match head, line with
  | _, .comment _ => some r
  | .declared guard, .openWhile condition => some { r with head := some (.tested guard condition) }
  | .tested guard condition, .checkGuard checked =>
      if checked = guard then some { r with head := some (.checked condition) } else none
  | .checked condition, .throwGuard _ => some { r with head := some (.thrown condition) }
  | .thrown condition, .close => some ⟨[], .loop r.code condition :: r.enclosing, none⟩
  | _, _ => none

/-- A brace closes the innermost block. -/
def closeBlock (r : Reading) : Option Reading :=
  match r.enclosing with
  | .arm before finished test _ :: enclosing =>
      some ⟨before ++ [.choose (finished ++ [(test, r.code)])], enclosing, none⟩
  | .loop before condition :: enclosing =>
      some ⟨before ++ [.loop condition r.code], enclosing, none⟩
  | [] => none

/-- The next arm of an `if` chain, which has no `else` yet. -/
def openArm (r : Reading) (next : Option Text) (last : Bool) : Option Reading :=
  match r.enclosing with
  | .arm before finished test false :: enclosing =>
      some ⟨[], .arm before (finished ++ [(test, r.code)]) next last :: enclosing, none⟩
  | _ => none

def readLine (r : Reading) (line : JavaLine) : Option Reading :=
  match r.head with
  | some head => readHead r head line
  | none =>
      match line with
      | .comment _ => some r
      | .statement code => some (r.add [.act code])
      | .leave => some (r.add [.leave])
      | .openIf condition => some ⟨[], .arm r.code [] (testOf condition) false :: r.enclosing, none⟩
      | .openElseIf condition => openArm r (some condition) false
      | .openElse => openArm r none true
      | .declareGuard guard => some { r with head := some (.declared guard) }
      | .close => closeBlock r
      | .openWhile _ | .checkGuard _ | .throwGuard _ => none

def readLines (r : Reading) (lines : List JavaLine) : Option Reading :=
  lines.foldlM readLine r

/-- The code of a body whose blocks are all closed. -/
def readBody (lines : List JavaLine) : Option (List JavaPiece) :=
  match readLines {} lines with
  | some ⟨code, [], none⟩ => some code
  | _ => none

theorem readLines_append (r : Reading) (before after : List JavaLine) :
    readLines r (before ++ after) = (readLines r before).bind fun r => readLines r after :=
  List.foldlM_append

theorem readLines_cons (r : Reading) (line : JavaLine) (lines : List JavaLine) :
    readLines r (line :: lines) = (readLine r line).bind fun r => readLines r lines :=
  List.foldlM_cons

@[simp] theorem readLines_nil (r : Reading) : readLines r [] = some r := rfl

theorem readLines_comment (r : Reading) (text : Text) (lines : List JavaLine) :
    readLines r (.comment text :: lines) = readLines r lines := by
  have hline : readLine r (.comment text) = some r := by
    unfold readLine
    split
    · cases ‹LoopHead› <;> rfl
    · rfl
  rw [readLines_cons, hline, Option.bind_some]

/-- The code of the statements among lines. -/
def codes (lines : List JavaLine) : List Text :=
  lines.filterMap fun line =>
    match line with
    | .statement code => some code
    | _ => none

/-- Plain lines are read as their statements. -/
theorem readLines_plain {lines : List JavaLine} (hplain : ∀ line ∈ lines, IsPlain line)
    (code : List JavaPiece) (enclosing : List Enclosing) :
    readLines ⟨code, enclosing, none⟩ lines =
      some ⟨code ++ (codes lines).map .act, enclosing, none⟩ := by
  induction lines generalizing code with
  | nil => simp [codes]
  | cons line lines ih =>
      have htail : ∀ line ∈ lines, IsPlain line :=
        fun line hline => hplain line (List.mem_cons_of_mem _ hline)
      rcases hplain line List.mem_cons_self with ⟨text, rfl⟩ | ⟨code', rfl⟩
      · rw [readLines_comment, ih htail]
        rfl
      · rw [readLines_cons, readLine, Option.bind_some, Reading.add, ih htail]
        simp [codes]

end C2c.TargetJava.JavaReader
