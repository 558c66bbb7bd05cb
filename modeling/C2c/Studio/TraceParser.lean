import C2c.Library.Backtracking
import C2c.Library.JsText
import C2c.Library.JsonText
import C2c.Library.PythonDict
import C2c.Library.TextPattern

/-!
The traceability envelope of a run, and the anchors that the comments of the
generated Java hold.
-/

namespace C2c.Studio.TraceParser

open C2c.Library.JavaText hiding splitLines
open C2c.Library.JsText
open C2c.Library.JsonText hiding isSpace
open C2c.Library.Backtracking
open C2c.Library.PythonDict
open C2c.Library.TextPattern (isWordCharacter)

inductive JavaOriginClass
  | deterministic
  | agentProposed
  | repairAttempted
  | manualModified
  | manualEdit
deriving DecidableEq

inductive JavaVerificationOutcome
  | oraclePassed
  | oracleFailed
  | noOracle
deriving DecidableEq

inductive JavaMappingClass
  | direct
  | aggregated
  | synthesized
  | agentOriginated
deriving DecidableEq

structure LineRange where
  startLine : Nat
  endLine : Nat
deriving DecidableEq

structure JavaRegionClassification where
  schemaVersion : Text
  lineRange : LineRange
  originClass : JavaOriginClass
  verificationOutcome : JavaVerificationOutcome
  mappingClass : JavaMappingClass
deriving DecidableEq

structure IrSymbolAnchor where
  cobolFile : Text
  cobolLine : Nat
deriving DecidableEq

/-- A parsed envelope, with its maps as lists of entries. -/
structure ParsedTrace where
  programId : Text
  irSymbolMap : List (Text × IrSymbolAnchor)
  javaRegionClassification : List (Text × List JavaRegionClassification)

structure InlineIrAnchor where
  javaLine : Nat
  irNodeId : Text
  cobolLine : Nat
deriving DecidableEq

/-- `JAVA_ORIGIN_CLASSES`. -/
def javaOriginClasses : List (String × JavaOriginClass) :=
  [("deterministic", .deterministic), ("agent_proposed", .agentProposed),
    ("repair_attempted", .repairAttempted), ("manual_modified", .manualModified),
    ("manual_edit", .manualEdit)]

/-- `JAVA_VERIFICATION_OUTCOMES`. -/
def javaVerificationOutcomes : List (String × JavaVerificationOutcome) :=
  [("oracle_passed", .oraclePassed), ("oracle_failed", .oracleFailed), ("no_oracle", .noOracle)]

/-- `JAVA_MAPPING_CLASSES`. -/
def javaMappingClasses : List (String × JavaMappingClass) :=
  [("direct", .direct), ("aggregated", .aggregated), ("synthesized", .synthesized),
    ("agent_originated", .agentOriginated)]

section Anchors

/-- `INLINE_IR_REGEX`, which captures the id and the digits of the line. -/
def inlineIrRegex : Matcher (Text × Text) := do
  let _ ← repeated 0 isSpace
  literal "//".toList
  let _ ← repeated 1 isSpace
  let _ ← repeated 1 isWordCharacter
  possibly do
    let _ ← repeated 1 isSpace
    repeated 1 fun c => !isSpace c
  let _ ← repeated 1 isSpace
  literal ['[']
  let head ← one fun c => 'a' ≤ c && c ≤ 'z'
  let tail ← repeated 0 fun c => ('a' ≤ c && c ≤ 'z') || isDigitAscii c || c == '-'
  let _ ← repeated 1 isSpace
  literal "line".toList
  let _ ← repeated 1 isSpace
  let digits ← repeated 1 isDigitAscii
  literal [']']
  return (head :: tail, digits)

/-- `Number.parseInt` of decimal digits, if it is finite. -/
def parseInt (digits : Text) : Option Nat :=
  (nearestDouble (digitsValue digits)).map fun q => q.num.toNat

/-- The anchor of a line and of its number. -/
def anchorOf (numbered : Text × Nat) : Option InlineIrAnchor :=
  (exec inlineIrRegex numbered.1).bind fun found =>
    (parseInt found.2).map fun cobolLine => ⟨numbered.2, found.1, cobolLine⟩

def parseInlineIrAnchors (javaSource : Text) : List InlineIrAnchor :=
  if javaSource.length = 0 then []
  else ((splitLines javaSource).zipIdx 1).filterMap anchorOf

/-- A line holds at most one anchor. -/
theorem pairwise_parseInlineIrAnchors (javaSource : Text) :
    (parseInlineIrAnchors javaSource).Pairwise fun anchor next =>
      anchor.javaLine < next.javaLine := by
  unfold parseInlineIrAnchors
  split
  · exact List.Pairwise.nil
  · have hnumbers : ((splitLines javaSource).zipIdx 1).Pairwise fun line next =>
        line.2 < next.2 := by
      rw [← List.pairwise_map, List.zipIdx_map_snd]
      exact List.pairwise_lt_range'
    rw [List.pairwise_filterMap]
    apply hnumbers.imp
    intro line next hlt anchor hanchor anchor' hanchor'
    obtain ⟨found, -, hfound⟩ := Option.bind_eq_some_iff.mp hanchor
    obtain ⟨found', -, hfound'⟩ := Option.bind_eq_some_iff.mp hanchor'
    obtain ⟨_, -, rfl⟩ := Option.map_eq_some_iff.mp hfound
    obtain ⟨_, -, rfl⟩ := Option.map_eq_some_iff.mp hfound'
    exact hlt

example : parseInlineIrAnchors
    "  // move [s-move-x line 15] X\n// paragraph PARA-A [s-paragraph-y line 22]".toList =
      [⟨1, "s-move-x".toList, 15⟩, ⟨2, "s-paragraph-y".toList, 22⟩] := by
  decide +kernel

end Anchors

section Envelope

/-- The members of an object as `JSON.parse` leaves them. -/
def entries (members : List (Text × Json)) : List (Text × Json) :=
  update [] members

def member (members : List (Text × Json)) (name : String) : Option Json :=
  (entries members).lookup name.toList

/-- `isPositiveInteger`. -/
def positiveInteger : Json → Option Nat
  | .number n => n.double.bind fun q => if q.den = 1 ∧ 0 < q then some q.num.toNat else none
  | _ => none

def textOf : Json → Option Text
  | .string t => some t
  | _ => none

/-- A text of a table. -/
def oneOfTable {Item : Type} (table : List (String × Item)) (value : Json) : Option Item :=
  (textOf value).bind fun t => (table.find? fun entry => entry.1.toList = t).map Prod.snd

def lineRangeOf : Json → Option LineRange
  | .object members => do
      let startLine ← (member members "startLine").bind positiveInteger
      let endLine ← (member members "endLine").bind positiveInteger
      if startLine ≤ endLine then some ⟨startLine, endLine⟩ else none
  | _ => none

/-- `isJavaRegionClassification`, with the region that it finds. -/
def javaRegionClassificationOf : Json → Option JavaRegionClassification
  | .object members => do
      let schemaVersion ← (member members "schemaVersion").bind textOf
      let lineRange ← (member members "lineRange").bind lineRangeOf
      let originClass ← (member members "originClass").bind (oneOfTable javaOriginClasses)
      let verificationOutcome ←
        (member members "verificationOutcome").bind (oneOfTable javaVerificationOutcomes)
      let mappingClass ← (member members "mappingClass").bind (oneOfTable javaMappingClasses)
      return ⟨schemaVersion, lineRange, originClass, verificationOutcome, mappingClass⟩
  | _ => none

def irSymbolAnchorOf : Json → Option IrSymbolAnchor
  | .object members => do
      let cobolFile ← (member members "cobolFile").bind textOf
      let cobolLine ← (member members "cobolLine").bind positiveInteger
      return ⟨cobolFile, cobolLine⟩
  | _ => none

/-- The regions of a file, if it has any that are valid. -/
def validRegions : Json → Option (List JavaRegionClassification)
  | .array regions =>
      let valid := regions.filterMap javaRegionClassificationOf
      if valid.length > 0 then some valid else none
  | _ => none

/-- A map of the entries of a record that can be read. -/
def readRecord {Item : Type} (read : Json → Option Item) : Option Json → List (Text × Item)
  | some (.object members) =>
      update [] ((entries members).filterMap fun entry => (read entry.2).map (entry.1, ·))
  | _ => []

/-- The envelope is an object of these members. -/
def buildParsedTrace (envelope : List (Text × Json)) : ParsedTrace where
  programId := ((member envelope "programId").bind textOf).getD []
  irSymbolMap := readRecord irSymbolAnchorOf (member envelope "irSymbolMap")
  javaRegionClassification :=
    readRecord validRegions (member envelope "javaRegionClassification")

theorem nodup_readRecord {Item : Type} (read : Json → Option Item) (value : Option Json) :
    ((readRecord read value).map Prod.fst).Nodup := by
  unfold readRecord
  split
  · exact @nodup_keys_update _ _ _ [] List.nodup_nil _
  · exact List.nodup_nil

end Envelope

end C2c.Studio.TraceParser
