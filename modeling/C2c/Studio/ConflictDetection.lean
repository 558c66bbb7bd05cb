import Mathlib.Data.List.Sort
import C2c.Studio.MyersDiff

/-!
The regions in which a manual edit, a new generator output and their baseline
differ, and the text that the picks for them make.
-/

namespace C2c.Studio.ConflictDetection

open C2c.Library.EditGraph
open C2c.Library.JavaText hiding splitLines
open C2c.Studio.MyersDiff

inductive ConflictRegionResolution
  | manual
  | newGenerator
  | baseline
deriving DecidableEq

/-- The kinds of a line, of which a region has any but `equal`. -/
inductive LineKind
  | equal
  | conflict
  | manualOnly
  | newGeneratorOnly
  | agreed
  | baselineOnly
deriving DecidableEq

def LineKind.text : LineKind → Text
  | equal => "equal".toList
  | conflict => "conflict".toList
  | manualOnly => "manual_only".toList
  | newGeneratorOnly => "new_generator_only".toList
  | agreed => "agreed".toList
  | baselineOnly => "baseline_only".toList

structure ConflictRegion where
  startLine : Nat
  endLine : Nat
  conflictKind : LineKind
  baselineContent : Text
  manualContent : Text
  newGeneratorContent : Text
  suggestedResolution : Option ConflictRegionResolution
  needsUserPick : Bool
deriving DecidableEq

structure DetectConflictsInput where
  baseline : Text
  manual : Text
  newGenerator : Text

inductive LineStatus
  | equal
  | changed
  | deleted
deriving DecidableEq

/-- The child's lines by the lines of the baseline, and the insertions by the
index of the line before them, where -1 is the head. -/
structure Alignment where
  statusByBase : List LineStatus
  childLineByBase : List Text
  insertsByAnchor : Int → List Text

/-- What the loop of `buildAlignment` keeps from one operation to the next. -/
structure AlignmentState extends Alignment where
  lastBaseIdx : Int
  pendingDeleteIdx : Option Int

def alignOp (childLines : List Text) (s : AlignmentState) (op : DiffOp) : AlignmentState :=
  match op.kind with
  | .equal => { s with lastBaseIdx := op.baseIdx, pendingDeleteIdx := none }
  | .delete =>
      { s with
        statusByBase := s.statusByBase.set op.baseIdx.toNat .deleted
        childLineByBase := s.childLineByBase.set op.baseIdx.toNat []
        lastBaseIdx := op.baseIdx
        pendingDeleteIdx := some op.baseIdx }
  | .insert =>
      let childLine := (itemAt childLines op.childIdx).getD []
      match s.pendingDeleteIdx with
      | some pending =>
          -- the insertion after a deletion replaces the deleted line
          { s with
            statusByBase := s.statusByBase.set pending.toNat .changed
            childLineByBase := s.childLineByBase.set pending.toNat childLine
            pendingDeleteIdx := none }
      | none =>
          { s with
            insertsByAnchor := fun anchor =>
              if anchor = s.lastBaseIdx then s.insertsByAnchor anchor ++ [childLine]
              else s.insertsByAnchor anchor }

def startAlignment (baseLines : List Text) : AlignmentState where
  statusByBase := baseLines.map fun _ => .equal
  childLineByBase := baseLines
  insertsByAnchor := fun _ => []
  lastBaseIdx := -1
  pendingDeleteIdx := none

def buildAlignment (baseLines : List Text) (ops : List DiffOp) (childLines : List Text) :
    Alignment :=
  (ops.foldl (alignOp childLines) (startAlignment baseLines)).toAlignment

def classifyLine (mStatus : LineStatus) (mLine : Text) (gStatus : LineStatus) (gLine : Text) :
    LineKind :=
  let mSameAsBase := mStatus = .equal
  let gSameAsBase := gStatus = .equal
  if mSameAsBase ∧ gSameAsBase then .equal
  else
    let mContent := if mStatus = .deleted then [] else mLine
    let gContent := if gStatus = .deleted then [] else gLine
    if mSameAsBase ∧ ¬ gSameAsBase then .newGeneratorOnly
    else if ¬ mSameAsBase ∧ gSameAsBase then .manualOnly
    else if mContent = gContent then .agreed
    else .conflict

def joinWithNewline (lines : List Text) : Text :=
  lines.flatMap fun line => line ++ ['\n']

/-- `suggestionFor`: the resolution, and whether the user has to pick. -/
def suggestionFor : LineKind → Option ConflictRegionResolution × Bool
  | .manualOnly => (some .manual, false)
  | .newGeneratorOnly => (some .newGenerator, false)
  | .agreed => (some .manual, false)
  | .baselineOnly => (some .baseline, false)
  | .conflict => (none, true)
  | .equal => (none, false)

structure RunAccum where
  kind : LineKind
  startLine : Nat
  endLine : Nat
  baseLines : List Text
  mLines : List Text
  gLines : List Text

def flushRun (r : RunAccum) : List ConflictRegion :=
  if r.kind = .equal then []
  else
    [{ startLine := r.startLine
       endLine := r.endLine
       conflictKind := r.kind
       baselineContent := joinWithNewline r.baseLines
       manualContent := joinWithNewline r.mLines
       newGeneratorContent := joinWithNewline r.gLines
       suggestedResolution := (suggestionFor r.kind).1
       needsUserPick := (suggestionFor r.kind).2 }]

/-- The run that begins with the baseline line at the index `i`. -/
def startRun (manualAlign genAlign : Alignment) (i : Nat) (bLine : Text) : RunAccum :=
  let mSt := manualAlign.statusByBase[i]?.getD .equal
  let mLn := manualAlign.childLineByBase[i]?.getD bLine
  let gSt := genAlign.statusByBase[i]?.getD .equal
  let gLn := genAlign.childLineByBase[i]?.getD bLine
  { kind := classifyLine mSt mLn gSt gLn
    startLine := i + 1
    endLine := i + 1
    baseLines := [bLine]
    mLines := [if mSt = .deleted then [] else mLn]
    gLines := [if gSt = .deleted then [] else gLn] }

def extendRun (r line : RunAccum) : RunAccum :=
  { r with
    endLine := line.endLine
    baseLines := r.baseLines ++ line.baseLines
    mLines := r.mLines ++ line.mLines
    gLines := r.gLines ++ line.gLines }

/-- The loop over the baseline's lines from the index `i` on, behind a run. -/
def lineRegions (manualAlign genAlign : Alignment) (i : Nat) (run : Option RunAccum) :
    List Text → List ConflictRegion
  | [] => run.elim [] flushRun
  | bLine :: rest =>
      let line := startRun manualAlign genAlign i bLine
      match run with
      | some r =>
          if r.kind = line.kind then
            lineRegions manualAlign genAlign (i + 1) (some (extendRun r line)) rest
          else flushRun r ++ lineRegions manualAlign genAlign (i + 1) (some line) rest
      | none => lineRegions manualAlign genAlign (i + 1) (some line) rest

/-- A region of lines that the two sides insert, as far as they do. -/
def insertRegion (mIns gIns : List Text) (startLine length : Nat) (kind : LineKind)
    (suggested : Option ConflictRegionResolution) (needsUserPick : Bool) : ConflictRegion where
  startLine := startLine
  endLine := startLine + length - 1
  conflictKind := kind
  baselineContent := []
  manualContent := joinWithNewline mIns
  newGeneratorContent := joinWithNewline gIns
  suggestedResolution := suggested
  needsUserPick := needsUserPick

/-- The region that `emitInsertRegion` pushes, if it pushes one. -/
def emitInsertRegion (mIns gIns : List Text) (startLine : Nat) : List ConflictRegion :=
  if mIns.length = 0 ∧ gIns.length = 0 then []
  else if joinWithNewline mIns = joinWithNewline gIns then
    if mIns.length = 0 then []
    else [insertRegion mIns gIns startLine mIns.length .agreed (some .manual) false]
  else if 0 < mIns.length ∧ gIns.length = 0 then
    [insertRegion mIns gIns startLine mIns.length .manualOnly (some .manual) false]
  else if 0 < gIns.length ∧ mIns.length = 0 then
    [insertRegion mIns gIns startLine gIns.length .newGeneratorOnly (some .newGenerator) false]
  else [insertRegion mIns gIns startLine (max mIns.length gIns.length) .conflict none true]

/-- The regions in the order in which `detectConflicts` pushes them. -/
def collectRegions (baseLines : List Text) (manualAlign genAlign : Alignment) :
    List ConflictRegion :=
  let inserts (anchor : Int) (startLine : Nat) :=
    emitInsertRegion (manualAlign.insertsByAnchor anchor) (genAlign.insertsByAnchor anchor)
      startLine
  let tailAnchor : Int := baseLines.length - 1
  lineRegions manualAlign genAlign 0 none baseLines ++ inserts (-1) 1 ++
    inserts tailAnchor (baseLines.length + 1) ++
    (List.range (baseLines.length - 1)).flatMap fun (anchor : Nat) =>
      inserts anchor (anchor + 2)

/-- `sort` by the start line, which is stable. -/
def sortRegions (regions : List ConflictRegion) : List ConflictRegion :=
  regions.insertionSort fun a b => a.startLine ≤ b.startLine

def mergeable (pending region : ConflictRegion) : Bool :=
  pending.endLine + 1 = region.startLine ∧ pending.conflictKind = region.conflictKind ∧
    pending.conflictKind ≠ .conflict ∧
    pending.suggestedResolution = region.suggestedResolution

def mergeRegions (pending region : ConflictRegion) : ConflictRegion where
  startLine := pending.startLine
  endLine := region.endLine
  conflictKind := pending.conflictKind
  baselineContent := pending.baselineContent ++ region.baselineContent
  manualContent := pending.manualContent ++ region.manualContent
  newGeneratorContent := pending.newGeneratorContent ++ region.newGeneratorContent
  suggestedResolution := pending.suggestedResolution
  needsUserPick := pending.needsUserPick && region.needsUserPick

/-- The loop of `coalesceAdjacentRegions` behind a pending region. -/
def coalesceFrom (pending : ConflictRegion) : List ConflictRegion → List ConflictRegion
  | [] => [pending]
  | region :: rest =>
      if mergeable pending region then coalesceFrom (mergeRegions pending region) rest
      else pending :: coalesceFrom region rest

def coalesceAdjacentRegions : List ConflictRegion → List ConflictRegion
  | [] => []
  | region :: rest => coalesceFrom region rest

def IdenticalTexts (input : DetectConflictsInput) : Prop :=
  input.baseline = input.manual ∧ input.baseline = input.newGenerator

instance (input : DetectConflictsInput) : Decidable (IdenticalTexts input) :=
  inferInstanceAs (Decidable (_ ∧ _))

/-- The sorted regions of texts that are not identical, before any are joined;
`none` for an access beyond the ends of an array. -/
def sortedRegions (input : DetectConflictsInput) : Option (List ConflictRegion) := do
  let baseLines := splitLines input.baseline
  let manualLines := splitLines input.manual
  let genLines := splitLines input.newGenerator
  let manualOps ← ConflictDetection.myersDiff baseLines manualLines
  let genOps ← ConflictDetection.myersDiff baseLines genLines
  let manualAlign := buildAlignment baseLines manualOps manualLines
  let genAlign := buildAlignment baseLines genOps genLines
  return sortRegions (collectRegions baseLines manualAlign genAlign)

def detectConflicts (input : DetectConflictsInput) : Option (List ConflictRegion) :=
  if IdenticalTexts input then some []
  else (sortedRegions input).map coalesceAdjacentRegions

def defaultRegionId (region : ConflictRegion) : Text :=
  region.conflictKind.text ++ ':' :: (natText region.startLine ++ '-' :: natText region.endLine)

structure UnresolvedMergeConflictError where
  regionId : Text
  startLine : Nat
  endLine : Nat
deriving DecidableEq

section Apply

variable (baseLines : List Text) (selections : Text → Option ConflictRegionResolution)
  (regionId : ConflictRegion → Text)

def chosenContentFor (region : ConflictRegion) : Except UnresolvedMergeConflictError Text :=
  match (selections (regionId region)).or region.suggestedResolution with
  | some .manual => .ok region.manualContent
  | some .newGenerator => .ok region.newGeneratorContent
  | some .baseline => .ok region.baselineContent
  | none => .error ⟨regionId region, region.startLine, region.endLine⟩

/-- `while (baseIdx < target && baseIdx < baseLines.length)`: the lines that are
pushed, and the pointer behind them. -/
def copyLines (target baseIdx : Nat) : List Text × Nat :=
  if h : baseIdx < target ∧ baseIdx < baseLines.length then
    let copied := copyLines target (baseIdx + 1)
    (baseLines[baseIdx] :: copied.1, copied.2)
  else ([], baseIdx)
termination_by baseLines.length - baseIdx

/-- What is copied in front of a region. -/
def copyBefore (region : ConflictRegion) (baseIdx : Nat) : List Text × Nat :=
  if region.baselineContent ≠ [] then copyLines baseLines (region.startLine - 1) baseIdx
  else if region.startLine > baseLines.length then copyLines baseLines baseLines.length baseIdx
  else ([], baseIdx)

/-- The loop over the sorted regions, and the baseline's rest behind them. -/
def mergeLines (result : List Text) (baseIdx : Nat) :
    List ConflictRegion → Except UnresolvedMergeConflictError (List Text)
  | [] => .ok (result ++ (copyLines baseLines baseLines.length baseIdx).1)
  | region :: rest => do
      let copied := copyBefore baseLines region baseIdx
      let chosen ← chosenContentFor selections regionId region
      mergeLines (result ++ copied.1 ++ splitLines chosen)
        (if region.baselineContent ≠ [] then region.endLine else copied.2) rest

end Apply

/-- The text of the merged lines. -/
def mergedText (baseline : Text) (result : List Text) : Text :=
  let merged := joinWith ['\n'] result
  if baseline.getLast? = some '\n' ∧ merged.getLast? ≠ some '\n' then merged ++ ['\n'] else merged

def applyMergeSelections (baseline : Text) (regions : List ConflictRegion)
    (selections : Text → Option ConflictRegionResolution) (regionId : ConflictRegion → Text) :
    Except UnresolvedMergeConflictError Text :=
  if regions.length = 0 then .ok baseline
  else
    (mergeLines (splitLines baseline) selections regionId [] 0 (sortRegions regions)).map
      (mergedText baseline)

end C2c.Studio.ConflictDetection
