import C2c.TargetJava.BlockSteps
import C2c.Library.Machine

namespace C2c.TargetJava.BodyShape

open C2c.Library.JavaText
open C2c.Library.Machine
open C2c.Library.JavaObject
open C2c.CobolParser.Parse
open C2c.SemanticIr.Statements
open C2c.TargetJava.Literals
open C2c.TargetJava.References
open C2c.TargetJava.Expressions
open C2c.TargetJava.LeafStatements
open C2c.TargetJava.Generation
open C2c.TargetJava.BlockSteps

inductive ScopeKind
  | method
  | arm
  | elseArm
  | loop
deriving DecidableEq

/-- A Java block that is open: whether it has returned, and the variables it
declares. -/
structure Scope where
  kind : ScopeKind
  returned : Bool := false
  declared : List Text := []

/-- A statement of a block that has not returned. -/
def reach (scopes : List Scope) (result : List Scope) : Option (List Scope) :=
  if scopes.head?.any Scope.returned then none else some result

/-- What javac asks of a line inside open blocks, the innermost first: a
statement is reachable, a variable is new in its scope, an `else` continues an
arm that may have one, a brace closes a block of the method. -/
def checkLine (scopes : List Scope) (line : JavaLine) : Option (List Scope) :=
  match scopes with
  | [] => none
  | scope :: outer =>
      match line with
      | .comment _ => some scopes
      | .statement _ | .throwGuard _ => reach scopes scopes
      | .declareGuard guard =>
          if scopes.any fun scope => scope.declared.contains guard then none
          else reach scopes ({ scope with declared := guard :: scope.declared } :: outer)
      | .leave => reach scopes ({ scope with returned := true } :: outer)
      | .openIf _ | .checkGuard _ => reach scopes ({ kind := .arm } :: scopes)
      | .openWhile _ => reach scopes ({ kind := .loop } :: scopes)
      | .openElseIf _ => if scope.kind = .arm then some ({ kind := .arm } :: outer) else none
      | .openElse => if scope.kind = .arm then some ({ kind := .elseArm } :: outer) else none
      | .close => if outer.isEmpty then none else some outer

def checkLines (scopes : List Scope) (lines : List JavaLine) : Option (List Scope) :=
  lines.foldlM checkLine scopes

/-- The lines are the body of a method. -/
def WellFormedBody (lines : List JavaLine) : Prop :=
  ∃ scope, checkLines [{ kind := .method }] lines = some [scope]

/-- A sequence of statements of the program: the procedure, an arm of an `IF`,
the statements of a `WHEN`, the body of a `PERFORM`. -/
structure Region where
  /-- The arm is an `ELSE`, or a `WHEN OTHER` behind another `WHEN`. -/
  final : Bool := false
  /-- A `STOP RUN` came before. -/
  stopped : Bool := false
  /-- The guards of the loops so far. -/
  loops : List Text := []

def isCode : JavaLine → Bool
  | .statement _ => true
  | _ => false

/-- A statement that emits code has no `STOP RUN` before it. -/
def unstopped (regions result : List Region) : Option (List Region) :=
  if regions.head?.any Region.stopped then none else some result

variable (u : UnicodeData) (fields : Fields)

/-- The regions behind a block statement, if it stands where it may. -/
def blockRegions (source : Source) (operation : Operation) (frames : List BlockFrame)
    (regions : List Region) : Option (List Region) :=
  match regions with
  | [] => none
  | region :: outer =>
      match operation with
      | .if => unstopped regions ({} :: regions)
      | .else =>
          onTop .if frames
            (fun _ _ => if region.final then none else some ({ final := true } :: outer))
            (unstopped regions regions)
      | .endIf => onTop .if frames (fun _ _ => some outer) (unstopped regions regions)
      | .evaluate => some regions
      | .when =>
          onTop .evaluate frames
            (fun frame _ =>
              if frame.whenOpen then
                if region.final then none else some ({ final := isOther u source } :: outer)
              else unstopped regions ({} :: regions))
            (unstopped regions regions)
      | .endEvaluate =>
          onTop .evaluate frames
            (fun frame _ => some (if frame.whenOpen then outer else regions))
            (unstopped regions regions)
      | .perform =>
          if regions.any fun region => region.loops.contains (loopGuard u source.stmtId) then none
          else unstopped regions
            ({} :: { region with loops := loopGuard u source.stmtId :: region.loops } :: outer)
      | .endPerform =>
          onTop .perform frames
            (fun frame _ =>
              if frame.incrementLine.isSome then unstopped regions outer else some outer)
            (unstopped regions regions)
      | _ => unstopped regions ({ region with stopped := true } :: outer)

def regionStep (statement : IrStatement) (frames : List BlockFrame) (regions : List Region) :
    Option (List Region) :=
  match leafLines u fields (sourceOf statement) (operationOf u statement) with
  | some lines => if lines.value.any isCode then unstopped regions regions else some regions
  | none => blockRegions u (sourceOf statement) (operationOf u statement) frames regions

def regionsFrom : List IrStatement → List BlockFrame → List Region → Option (List Region)
  | [], _, regions => some regions
  | statement :: statements, frames, regions => do
      let regions ← regionStep u fields statement frames regions
      regionsFrom statements (statementStep u fields statement frames).frames regions

/-- Every `ELSE`, `WHEN`, `PERFORM` and `STOP RUN` of the list stands where the
emitted Java admits it. -/
def Orderly (statements : List IrStatement) : Prop :=
  (regionsFrom u fields statements [] [{}]).isSome

def armKind (region : Region) : ScopeKind :=
  if region.final then .elseArm else .arm

def scopeOf (kind : ScopeKind) (region : Region) : Scope :=
  ⟨kind, region.stopped, region.loops⟩

/-- The open frames, regions and Java blocks of one place of the program.  An
`EVALUATE` has no Java block before its first `WHEN`. -/
inductive Matches : List BlockFrame → List Region → List Scope → Prop
  | procedure (region : Region) : Matches [] [region] [scopeOf .method region]
  | ifArm {frames regions scopes} (frame : BlockFrame) (region : Region) (hkind : frame.kind = .if)
      (houter : Matches frames regions scopes) :
      Matches (frame :: frames) (region :: regions) (scopeOf (armKind region) region :: scopes)
  | idle {frames regions scopes} (frame : BlockFrame) (hkind : frame.kind = .evaluate)
      (hopen : frame.whenOpen = false) (houter : Matches frames regions scopes) :
      Matches (frame :: frames) regions scopes
  | whenArm {frames regions scopes} (frame : BlockFrame) (region : Region)
      (hkind : frame.kind = .evaluate) (hopen : frame.whenOpen = true)
      (houter : Matches frames regions scopes) :
      Matches (frame :: frames) (region :: regions) (scopeOf (armKind region) region :: scopes)
  | body {frames regions scopes} (frame : BlockFrame) (region : Region)
      (hkind : frame.kind = .perform)
      (hincrement : ∀ line ∈ frame.incrementLine, ∃ code, line = .statement code)
      (houter : Matches frames regions scopes) :
      Matches (frame :: frames) (region :: regions) (scopeOf .loop region :: scopes)

section Matches

variable {frames : List BlockFrame} {regions : List Region} {scopes : List Scope}

/-- The innermost region and block are of one make. -/
theorem Matches.top (h : Matches frames regions scopes) :
    ∃ region outer kind rest, regions = region :: outer ∧ scopes = scopeOf kind region :: rest ∧
      rest.map (fun scope => (scope.returned, scope.declared)) =
        outer.map (fun region => (region.stopped, region.loops)) := by
  induction h with
  | procedure region => exact ⟨region, [], _, [], rfl, rfl, rfl⟩
  | idle frame hkind hopen houter ih => exact ih
  | ifArm frame region hkind houter ih | whenArm frame region hkind hopen houter ih
  | body frame region hkind hincrement houter ih =>
      obtain ⟨top, outer, kind, rest, rfl, rfl, hrest⟩ := ih
      exact ⟨region, _, _, _, rfl, rfl, by simp [scopeOf, hrest]⟩

/-- A change inside the innermost region. -/
theorem Matches.replace {region : Region} {outer : List Region}
    (h : Matches frames (region :: outer) scopes) (region' : Region)
    (hfinal : region'.final = region.final) :
    ∃ kind rest, scopes = scopeOf kind region :: rest ∧
      Matches frames (region' :: outer) (scopeOf kind region' :: rest) := by
  generalize hregions : region :: outer = regions at h
  induction h with
  | procedure top =>
      obtain ⟨rfl, rfl⟩ := List.cons.inj hregions
      exact ⟨_, _, rfl, .procedure region'⟩
  | idle frame hkind hopen houter ih =>
      obtain ⟨kind, rest, rfl, hmatches⟩ := ih hregions
      exact ⟨kind, rest, rfl, .idle frame hkind hopen hmatches⟩
  | ifArm frame top hkind houter ih =>
      obtain ⟨rfl, rfl⟩ := List.cons.inj hregions
      have harm : armKind region' = armKind region := by simp [armKind, hfinal]
      exact ⟨_, _, rfl, harm ▸ .ifArm frame region' hkind houter⟩
  | whenArm frame top hkind hopen houter ih =>
      obtain ⟨rfl, rfl⟩ := List.cons.inj hregions
      have harm : armKind region' = armKind region := by simp [armKind, hfinal]
      exact ⟨_, _, rfl, harm ▸ .whenArm frame region' hkind hopen houter⟩
  | body frame top hkind hincrement houter ih =>
      obtain ⟨rfl, rfl⟩ := List.cons.inj hregions
      exact ⟨_, _, rfl, .body frame region' hkind hincrement houter⟩

theorem Matches.stopped (h : Matches frames regions scopes) :
    scopes.head?.any Scope.returned = regions.head?.any Region.stopped := by
  obtain ⟨region, outer, kind, rest, rfl, rfl, hrest⟩ := h.top
  rfl

theorem Matches.declared (h : Matches frames regions scopes) (guard : Text) :
    (scopes.any fun scope => scope.declared.contains guard) =
      regions.any fun region => region.loops.contains guard := by
  obtain ⟨region, outer, kind, rest, rfl, rfl, hrest⟩ := h.top
  have hdeclared : (rest.any fun scope => scope.declared.contains guard) =
      (rest.map fun scope => (scope.returned, scope.declared)).any fun p => p.2.contains guard := by
    simp [List.any_map, Function.comp_def]
  have hloops : (outer.any fun region => region.loops.contains guard) =
      (outer.map fun region => (region.stopped, region.loops)).any fun p => p.2.contains guard := by
    simp [List.any_map, Function.comp_def]
  rw [List.any_cons, List.any_cons, hdeclared, hloops, hrest]
  rfl

theorem Matches.nonempty (h : Matches frames regions scopes) : scopes.isEmpty = false := by
  obtain ⟨region, outer, kind, rest, rfl, rfl, -⟩ := h.top
  rfl

/-- The brace of a block that has another around it. -/
theorem checkLine_close {scope : Scope} (houter : Matches frames regions scopes) :
    checkLine (scope :: scopes) .close = some scopes := by
  simp [checkLine, houter.nonempty]

/-- A reachable statement stands in a region without a `STOP RUN`. -/
theorem Matches.reach {frames' : List BlockFrame} {regions' : List Region}
    {scopes' : List Scope} (h : Matches frames regions scopes)
    (hresult : Matches frames' regions' scopes') :
    Option.Rel (Matches frames') (unstopped regions regions') (reach scopes scopes') := by
  unfold unstopped BodyShape.reach
  rw [h.stopped]
  exact rel_ite .none (.some hresult)

end Matches

theorem checkLines_append (scopes : List Scope) (before after : List JavaLine) :
    checkLines scopes (before ++ after) =
      (checkLines scopes before).bind fun scopes => checkLines scopes after :=
  List.foldlM_append

theorem checkLines_cons (scopes : List Scope) (line : JavaLine) (lines : List JavaLine) :
    checkLines scopes (line :: lines) =
      (checkLine scopes line).bind fun scopes => checkLines scopes lines :=
  List.foldlM_cons

theorem checkLines_singleton (scopes : List Scope) (line : JavaLine) :
    checkLines scopes [line] = checkLine scopes line := by
  rw [checkLines_cons]
  cases checkLine scopes line <;> rfl

theorem reach_bind (scopes : List Scope) :
    (reach scopes scopes).bind (fun scopes => reach scopes scopes) = reach scopes scopes := by
  unfold reach
  split
  · rfl
  · rename_i hreturned
    rw [Option.bind_some, if_neg hreturned]

theorem checkLines_plain {scope : Scope} {outer : List Scope} {lines : List JavaLine}
    (hplain : ∀ line ∈ lines, IsPlain line) :
    checkLines (scope :: outer) lines =
      if lines.any isCode then reach (scope :: outer) (scope :: outer)
      else some (scope :: outer) := by
  induction lines with
  | nil => rfl
  | cons line lines ih =>
      rw [List.forall_mem_cons] at hplain
      rw [checkLines_cons]
      rcases hplain.1 with ⟨text, rfl⟩ | ⟨code, rfl⟩
      · exact ih hplain.2
      · simp only [checkLine, List.any_cons, isCode, Bool.true_or, if_true]
        unfold reach at ih ⊢
        split
        · rfl
        · rename_i hreturned
          rw [Option.bind_some, ih hplain.2, if_neg hreturned, ite_self]

section Steps

variable {frames : List BlockFrame} {regions : List Region} {scopes : List Scope}
  {source : Source}

theorem rel_mismatch (description : Text) (h : Matches frames regions scopes) :
    Option.Rel (Matches (mismatchStep fields source description frames).frames)
      (unstopped regions regions)
      (checkLines scopes (mismatchStep fields source description frames).lines) := by
  obtain ⟨region, outer, kind, rest, rfl, rfl, -⟩ := h.top
  rw [mismatchStep, assumptionRecordCall, checkLines_singleton]
  exact h.reach h

theorem rel_if (h : Matches frames regions scopes) :
    Option.Rel (Matches (ifStep u fields source frames).frames)
      (blockRegions u source .if frames regions)
      (checkLines scopes (ifStep u fields source frames).lines) := by
  obtain ⟨region, outer, kind, rest, rfl, rfl, -⟩ := h.top
  rw [ifStep, checkLines_singleton]
  exact h.reach (.ifArm _ {} rfl h)

theorem rel_else (h : Matches frames regions scopes) :
    Option.Rel (Matches (elseStep fields source frames).frames)
      (blockRegions u source .else frames regions)
      (checkLines scopes (elseStep fields source frames).lines) := by
  obtain ⟨region, outer, kind, rest, rfl, rfl, -⟩ := h.top
  cases frames with
  | nil => exact rel_mismatch fields _ h
  | cons frame frames =>
      by_cases hkind : frame.kind = .if
      · cases h with
        | ifArm frame region _ houter =>
            simp only [elseStep, blockRegions, onTop, hkind, if_true, checkLines_singleton]
            cases hfinal : region.final with
            | true => simp [checkLine, scopeOf, armKind, hfinal]
            | false =>
                simp only [checkLine, scopeOf, armKind, hfinal, Bool.false_eq_true, if_false,
                  if_true]
                exact .some (.ifArm frame { final := true } hkind houter)
        | idle frame hevaluate hopen houter => simp [hkind] at hevaluate
        | whenArm frame region hevaluate hopen houter => simp [hkind] at hevaluate
        | body frame region hperform hincrement houter => simp [hkind] at hperform
      · simp only [elseStep, blockRegions, onTop, hkind, if_false]
        exact rel_mismatch fields _ h

theorem rel_endIf (h : Matches frames regions scopes) :
    Option.Rel (Matches (endIfStep fields source frames).frames)
      (blockRegions u source .endIf frames regions)
      (checkLines scopes (endIfStep fields source frames).lines) := by
  obtain ⟨region, outer, kind, rest, rfl, rfl, -⟩ := h.top
  cases frames with
  | nil => exact rel_mismatch fields _ h
  | cons frame frames =>
      by_cases hkind : frame.kind = .if
      · cases h with
        | ifArm frame region _ houter =>
            simp only [endIfStep, blockRegions, onTop, hkind, if_true, checkLines_singleton]
            rw [checkLine_close houter]
            exact .some houter
        | idle frame hevaluate hopen houter => simp [hkind] at hevaluate
        | whenArm frame region hevaluate hopen houter => simp [hkind] at hevaluate
        | body frame region hperform hincrement houter => simp [hkind] at hperform
      · simp only [endIfStep, blockRegions, onTop, hkind, if_false]
        exact rel_mismatch fields _ h

theorem rel_evaluate (h : Matches frames regions scopes) :
    Option.Rel (Matches (evaluateFrame source :: frames))
      (blockRegions u source .evaluate frames regions) (checkLines scopes []) := by
  obtain ⟨region, outer, kind, rest, rfl, rfl, -⟩ := h.top
  exact .some (.idle _ rfl rfl h)

theorem rel_when (h : Matches frames regions scopes) :
    Option.Rel (Matches (whenStep u fields source frames).frames)
      (blockRegions u source .when frames regions)
      (checkLines scopes (whenStep u fields source frames).lines) := by
  obtain ⟨region, outer, kind, rest, rfl, rfl, -⟩ := h.top
  cases frames with
  | nil => exact rel_mismatch fields _ h
  | cons frame frames =>
      by_cases hkind : frame.kind = .evaluate
      · simp only [whenStep, blockRegions, onTop, hkind, if_true, checkLines_singleton]
        cases h with
        | ifArm frame region hif houter => simp [hkind] at hif
        | body frame region hperform hincrement houter => simp [hkind] at hperform
        | idle frame _ hopen houter =>
            simp only [hopen, armLine, Bool.false_eq_true, if_false]
            have harm : Matches ({ frame with kind := .evaluate, whenOpen := true } :: frames)
                ({} :: region :: outer) ({ kind := .arm } :: scopeOf kind region :: rest) :=
              .whenArm _ {} rfl rfl houter
            split
            · exact houter.reach harm
            · exact houter.reach harm
        | whenArm frame region _ hopen houter =>
            have harm (final : Bool) :
                Matches ({ frame with kind := .evaluate, whenOpen := true } :: frames)
                  ({ final := final } :: outer)
                  (scopeOf (armKind { final := final }) { final := final } :: rest) :=
              .whenArm _ _ rfl rfl houter
            simp only [hopen, armLine, if_true]
            cases hfinal : region.final with
            | true =>
                cases hother : isOther u source with
                | true => simp [checkLine, scopeOf, armKind, hfinal]
                | false => simp [checkLine, scopeOf, armKind, hfinal]
            | false =>
                cases hother : isOther u source with
                | true => 
                    simp only [checkLine, scopeOf, armKind, hfinal, Bool.false_eq_true, if_false,
                      if_true]
                    exact .some (harm true)
                | false =>
                    simp only [checkLine, scopeOf, armKind, hfinal, Bool.false_eq_true, if_false,
                      if_true]
                    exact .some (harm false)
      · simp only [whenStep, blockRegions, onTop, hkind, if_false]
        exact rel_mismatch fields _ h

theorem rel_endEvaluate (h : Matches frames regions scopes) :
    Option.Rel (Matches (endEvaluateStep fields source frames).frames)
      (blockRegions u source .endEvaluate frames regions)
      (checkLines scopes (endEvaluateStep fields source frames).lines) := by
  obtain ⟨region, outer, kind, rest, rfl, rfl, -⟩ := h.top
  cases frames with
  | nil => exact rel_mismatch fields _ h
  | cons frame frames =>
      by_cases hkind : frame.kind = .evaluate
      · simp only [endEvaluateStep, blockRegions, onTop, hkind, if_true]
        cases h with
        | ifArm frame region hif houter => simp [hkind] at hif
        | body frame region hperform hincrement houter => simp [hkind] at hperform
        | idle frame _ hopen houter =>
            simp only [hopen, Bool.false_eq_true, if_false]
            exact .some houter
        | whenArm frame region _ hopen houter =>
            simp only [hopen, if_true, checkLines_singleton]
            rw [checkLine_close houter]
            exact .some houter
      · simp only [endEvaluateStep, blockRegions, onTop, hkind, if_false]
        exact rel_mismatch fields _ h

theorem rel_endPerform (h : Matches frames regions scopes) :
    Option.Rel (Matches (endPerformStep fields source frames).frames)
      (blockRegions u source .endPerform frames regions)
      (checkLines scopes (endPerformStep fields source frames).lines) := by
  obtain ⟨region, outer, kind, rest, rfl, rfl, -⟩ := h.top
  cases frames with
  | nil => exact rel_mismatch fields _ h
  | cons frame frames =>
      by_cases hkind : frame.kind = .perform
      · simp only [endPerformStep, blockRegions, onTop, hkind, if_true]
        cases h with
        | ifArm frame region hif houter => simp [hkind] at hif
        | idle frame hevaluate hopen houter => simp [hkind] at hevaluate
        | whenArm frame region hevaluate hopen houter => simp [hkind] at hevaluate
        | body frame region _ hplain houter =>
            cases hincrement : frame.incrementLine with
            | none =>
                simp only [Option.toList_none, List.nil_append, checkLines_singleton,
                  Option.isSome_none, Bool.false_eq_true, if_false]
                rw [checkLine_close houter]
                exact .some houter
            | some line =>
                obtain ⟨code, rfl⟩ := hplain line hincrement
                simp only [Option.toList_some, List.cons_append, List.nil_append,
                  Option.isSome_some, if_true]
                rw [checkLines_cons]
                cases hstopped : region.stopped with
                | true => simp [unstopped, checkLine, reach, scopeOf, hstopped]
                | false =>
                    simp only [unstopped, checkLine, reach, scopeOf, List.head?_cons,
                      Option.any_some, hstopped, Bool.false_eq_true, if_false, Option.bind_some,
                      checkLines_singleton]
                    rw [if_neg (by simpa using houter.nonempty)]
                    exact .some houter
      · simp only [endPerformStep, blockRegions, onTop, hkind, if_false]
        exact rel_mismatch fields _ h

theorem rel_stop (h : Matches frames regions scopes) :
    Option.Rel (Matches frames) (blockRegions u source .stop frames regions)
      (checkLines scopes [.leave]) := by
  obtain ⟨region, outer, kind, rest, rfl, rfl, -⟩ := h.top
  rw [checkLines_singleton]
  obtain ⟨kind', rest', hscopes, hstopped⟩ :=
    h.replace { region with stopped := true } rfl
  obtain ⟨hscope, rfl⟩ := List.cons.inj hscopes
  obtain rfl : kind = kind' := congrArg Scope.kind hscope
  exact h.reach hstopped

/-- The head of a loop behind its start: a new guard, a reachable loop. -/
theorem checkLines_loop (scope : Scope) (outer : List Scope) (guard condition stmtId : Text) :
    checkLines (scope :: outer) [.declareGuard guard, .openWhile condition, .checkGuard guard,
        .throwGuard stmtId, .close] =
      if (scope :: outer).any fun scope => scope.declared.contains guard then none
      else reach (scope :: outer)
        ({ kind := .loop } :: { scope with declared := guard :: scope.declared } :: outer) := by
  rw [checkLines_cons, checkLine]
  split
  · rfl
  · cases hreturned : scope.returned with
    | true => simp [reach, hreturned]
    | false => simp [reach, checkLines, checkLine, hreturned]

theorem reach_start {scopes result : List Scope} {f : List Scope → Option (List Scope)}
    {condition duplicate : Bool}
    (hf : f scopes = if duplicate then none else reach scopes result) :
    (if condition then reach scopes scopes else some scopes).bind f = f scopes := by
  cases condition with
  | false => rfl
  | true =>
      rw [if_pos rfl, hf]
      unfold reach at hf ⊢
      split
      · simp
      · rename_i hreturned
        rw [Option.bind_some, hf, if_neg hreturned]

theorem rel_perform (h : Matches frames regions scopes) :
    Option.Rel (Matches (performFrame u fields source :: frames))
      (blockRegions u source .perform frames regions)
      (checkLines scopes (loopHead u fields source)) := by
  have hdeclared := h.declared (loopGuard u source.stmtId)
  obtain ⟨region, outer, kind, rest, rfl, rfl, -⟩ := h.top
  have hplain : ∀ line ∈ startLines u fields source, IsPlain line :=
    fun line hline => .inr (plain_startLines u fields source line hline)
  obtain ⟨kind', rest', hscopes, hloops⟩ := h.replace
    { region with loops := loopGuard u source.stmtId :: region.loops } rfl
  obtain ⟨hscope, rfl⟩ := List.cons.inj hscopes
  obtain rfl : kind = kind' := congrArg Scope.kind hscope
  rw [loopHead, checkLines_append, checkLines_plain hplain, reach_start (checkLines_loop _ _ _ _ _),
    checkLines_loop, hdeclared]
  exact rel_ite .none (h.reach
    (.body _ {} rfl (fun line hline => plain_incrementLine u fields hline) hloops))

theorem rel_block (operation : Operation) (h : Matches frames regions scopes)
    (hleaf : leafLines u fields source operation = none) :
    Option.Rel (Matches (blockStep u fields source operation frames).frames)
      (blockRegions u source operation frames regions)
      (checkLines scopes (blockStep u fields source operation frames).lines) := by
  cases operation with
  | «if» => exact rel_if u fields h
  | «else» => exact rel_else u fields h
  | endIf => exact rel_endIf u fields h
  | evaluate => exact rel_evaluate u h
  | when => exact rel_when u fields h
  | endEvaluate => exact rel_endEvaluate u fields h
  | perform => exact rel_perform u fields h
  | endPerform => exact rel_endPerform u fields h
  | stop => exact rel_stop u h
  | paragraph | display | move | compute | add | subtract | multiply | divide | unsupported =>
      contradiction

/-- A statement is in order exactly if the lines it adds are admitted. -/
theorem rel_statement (statement : IrStatement) (h : Matches frames regions scopes) :
    Option.Rel (Matches (statementStep u fields statement frames).frames)
      (regionStep u fields statement frames regions)
      (checkLines scopes (statementStep u fields statement frames).lines) := by
  unfold statementStep regionStep
  cases hleaf : leafLines u fields (sourceOf statement) (operationOf u statement) with
  | none =>
      obtain ⟨region, outer, kind, rest, rfl, rfl, -⟩ := h.top
      dsimp only
      rw [checkLines_cons]
      have hcomment : checkLine (scopeOf kind region :: rest)
          (blockComment (sourceOf statement) (operationOf u statement)) =
            some (scopeOf kind region :: rest) := by
        cases operationOf u statement <;> rfl
      rw [hcomment]
      exact rel_block u fields _ h hleaf
  | some lines =>
      obtain ⟨region, outer, kind, rest, rfl, rfl, -⟩ := h.top
      dsimp only
      rw [checkLines_plain (plain_leafLines u fields hleaf)]
      exact rel_ite (h.reach h) (.some h)

theorem rel_statements (statements : List IrStatement) (h : Matches frames regions scopes) :
    Option.Rel (Matches (stepsFrom u fields statements frames).frames)
      (regionsFrom u fields statements frames regions)
      (checkLines scopes (stepsFrom u fields statements frames).lines) := by
  induction statements generalizing frames regions scopes with
  | nil => exact .some h
  | cons statement statements ih =>
      rw [stepsFrom, regionsFrom, checkLines_append]
      exact rel_bind (rel_statement u fields statement h) fun regions scopes hstep => ih hstep

/-- The braces of `closeOpenBlocks` close every Java block but the method's. -/
theorem checkLines_closing (h : Matches frames regions scopes) :
    ∃ scope, checkLines scopes (frames.flatMap closingLines) = some [scope] := by
  induction h with
  | procedure region => exact ⟨_, rfl⟩
  | idle frame hkind hopen houter ih =>
      simpa [closingLines, hkind, hopen] using ih
  | ifArm frame region hkind houter ih =>
      simpa [closingLines, hkind, checkLines_cons, checkLine_close houter] using ih
  | whenArm frame region hkind hopen houter ih =>
      simpa [closingLines, hkind, hopen, checkLines_cons, checkLine_close houter] using ih
  | body frame region hkind hincrement houter ih =>
      simpa [closingLines, hkind, checkLines_cons, checkLine_close houter] using ih

end Steps

def secondElse : ParseRequest :=
  sourceRequest "PROCEDURE DIVISION.\nIF A = 1\nELSE\nELSE\nEND-IF"

def whenBehindOther : ParseRequest :=
  sourceRequest "PROCEDURE DIVISION.\nEVALUATE A\nWHEN 1\nWHEN OTHER\nWHEN 2\nEND-EVALUATE"

def displayBehindStop : ParseRequest :=
  sourceRequest "PROCEDURE DIVISION.\nSTOP RUN.\nDISPLAY \"X\""

/-- The parser accepts the source, and the body emitted for it is not well
formed. -/
def Misplaced (request : ParseRequest) : Prop :=
  ∃ result, parse .ascii request = .ok result ∧ result.status = .ok ∧
    ¬ WellFormedBody (generateBody .ascii [] (normalizeStatements .ascii result.program)).lines

theorem not_wellFormedBody {statements : List IrStatement}
    (h : checkLines [{ kind := .method }] (stepsFrom u fields statements []).lines = none) :
    ¬ WellFormedBody (generateBody u fields statements).lines := by
  rintro ⟨scope, hscope⟩
  rw [generateBody_lines, checkLines_append, h] at hscope
  contradiction

theorem misplaced_of_rejected {request : ParseRequest}
    (h : ((parse .ascii request).toOption.any fun result => result.status == .ok &&
      (checkLines [{ kind := .method }]
        (stepsFrom .ascii [] (normalizeStatements .ascii result.program) []).lines).isNone) =
      true) : Misplaced request := by
  obtain ⟨result, hparse, hresult⟩ := ok_of_any h
  simp only [Bool.and_eq_true, beq_iff_eq, Option.isNone_iff_eq_none] at hresult
  exact ⟨result, hparse, hresult.1, not_wellFormedBody .ascii [] hresult.2⟩

end C2c.TargetJava.BodyShape
