import Mathlib
import C2c.Library.Doubles
import C2c.Library.PosixPaths
import C2c.Studio.LineageNavigation

/-!
The frames of a stack trace, and the places of the generated Java and of the
COBOL source that they lead to.
-/

namespace C2c.Studio.StackTraceMapper

open C2c.Library.JavaText hiding splitLines splitLinesFrom
open C2c.Library.JsText
open C2c.Library.JsonText hiding isSpace
open C2c.Library.Backtracking
open C2c.Library.PosixPaths (mem_splitOn)
open C2c.Library.PythonDict
open C2c.Library.TextPattern (isWordCharacter)
open C2c.Studio.TraceParser
open C2c.Studio.LineageNavigation

structure ParsedStackFrame where
  frameRaw : Text
  className : Text
  methodName : Text
  javaFile : Text
  javaLine : Nat
deriving DecidableEq

structure ResolvedStackFrame extends ParsedStackFrame where
  javaFilePath : Option Text
  cobol : Option CobolAnchor
deriving DecidableEq

section Parser

/-- `[^\s(]`. -/
def isTargetCharacter (c : Char) : Bool :=
  !isSpace c && c != '('

/-- `[\w$.]`. -/
def isNameCharacter (c : Char) : Bool :=
  isWordCharacter c || c == '$' || c == '.'

/-- `[\w$<>]`. -/
def isMethodCharacter (c : Char) : Bool :=
  isWordCharacter c || c == '$' || c == '<' || c == '>'

/-- `FRAME_REGEX`. -/
def frameRegex : Matcher (Text × Text × Text) := do
  let _ ← repeated 0 isSpace
  literal "at".toList
  let _ ← repeated 1 isSpace
  let target ← repeated 1 isTargetCharacter
  literal ['(']
  let javaFile ← repeated 1 isNameCharacter
  literal [':']
  let digits ← repeated 1 isDigitAscii
  literal [')']
  return (target, javaFile, digits)

/-- `normalized`: what stands behind the module or the loader. -/
def normalizedOf (target : Text) : Text :=
  match lastIndexOf '/' target with
  | some slash => target.drop (slash + 1)
  | none => target

/-- The names of a class and of its method. -/
def parseFrameTarget (target : Text) : Option (Text × Text) :=
  let normalized := normalizedOf target
  match lastIndexOf '.' normalized with
  | none => none
  | some methodSeparator =>
      if methodSeparator = 0 ∨ methodSeparator = normalized.length - 1 then none
      else
        let className := normalized.take methodSeparator
        let methodName := normalized.drop (methodSeparator + 1)
        if className.all isNameCharacter && methodName.all isMethodCharacter then
          some (className, methodName)
        else none

/-- The frame of a line. -/
def frameOf (line : Text) : Option ParsedStackFrame := do
  let (target, javaFile, digits) ← exec frameRegex line
  let (className, methodName) ← parseFrameTarget target
  let javaLine ← parseInt digits
  if javaLine < 1 then none
  else some ⟨line, className, methodName, javaFile, javaLine⟩

def parseStackTrace (raw : Text) : List ParsedStackFrame :=
  if raw.length = 0 then [] else (splitLines raw).filterMap frameOf

example : parseStackTrace "x: boom\n\tat m/a.Foo.<init>(Foo.java:8)\n\tat b.C(D)".toList =
    [⟨"\tat m/a.Foo.<init>(Foo.java:8)".toList, "a.Foo".toList, "<init>".toList,
      "Foo.java".toList, 8⟩] := by
  decide +kernel

end Parser

section Resolution

def expectedJavaPathSuffix (frame : ParsedStackFrame) : Text :=
  let classParts := frame.className.splitOn '.'
  if classParts.length ≤ 1 then frame.javaFile
  else joinWith ['/'] classParts.dropLast ++ '/' :: frame.javaFile

def framePathCacheKey (frame : ParsedStackFrame) : Text :=
  frame.className ++ '\x00' :: frame.javaFile

def findJavaFilePath (parsed : ParsedTrace) (frame : ParsedStackFrame) : Option Text :=
  let keys := parsed.javaRegionClassification.map Prod.fst
  if keys.length = 0 then none
  else
    let candidates := keys.filter (pathSuffixMatches frame.javaFile)
    if candidates.length = 0 then none
    else
      let packageCandidates := candidates.filter (pathSuffixMatches (expectedJavaPathSuffix frame))
      if packageCandidates.length = 1 then packageCandidates.head?
      else if candidates.length = 1 then candidates.head?
      else none

/-- What the loop over the frames remembers. -/
structure Caches where
  pathCache : List (Text × Option Text)
  sourceCache : List (Text × Option Text)

/-- What is remembered of a key, or else found and remembered. -/
def cached (cache : List (Text × Option Text)) (key : Text) (find : Option Text) :
    Option Text × List (Text × Option Text) :=
  match cache.lookup key with
  | some found => (found, cache)
  | none => (find, assign key find cache)

/-- `{ ...frame }`. -/
def bare (frame : ParsedStackFrame) : ResolvedStackFrame :=
  { frame with javaFilePath := none, cobol := none }

/-- The rest of a turn, when the path is found. -/
def mapFrameAt (parsed : ParsedTrace) (sourceProvider : JavaSourceProvider)
    (sourceCache : List (Text × Option Text)) (frame : ParsedStackFrame) (javaFilePath : Text) :
    ResolvedStackFrame × List (Text × Option Text) :=
  let source := cached sourceCache javaFilePath (sourceProvider javaFilePath)
  match source.1 with
  | none | some [] => ({ bare frame with javaFilePath := some javaFilePath }, source.2)
  | some text =>
      match (resolveJavaToCobol parsed javaFilePath frame.javaLine text).1 with
      | .ok target =>
          ({ frame with javaFilePath := some javaFilePath, cobol := some target }, source.2)
      | .unavailable _ => ({ bare frame with javaFilePath := some javaFilePath }, source.2)

/-- One turn of the loop. -/
def mapFrame (parsed : ParsedTrace) (sourceProvider : JavaSourceProvider) (caches : Caches)
    (frame : ParsedStackFrame) : ResolvedStackFrame × Caches :=
  let path := cached caches.pathCache (framePathCacheKey frame) (findJavaFilePath parsed frame)
  match path.1 with
  | none | some [] => (bare frame, ⟨path.2, caches.sourceCache⟩)
  | some javaFilePath =>
      let mapped := mapFrameAt parsed sourceProvider caches.sourceCache frame javaFilePath
      (mapped.1, ⟨path.2, mapped.2⟩)

def mapFrames (parsed : ParsedTrace) (sourceProvider : JavaSourceProvider) :
    Caches → List ParsedStackFrame → List ResolvedStackFrame
  | _, [] => []
  | caches, frame :: frames =>
      let mapped := mapFrame parsed sourceProvider caches frame
      mapped.1 :: mapFrames parsed sourceProvider mapped.2 frames

/-- There is no envelope when it cannot be fetched. -/
def mapStackFrames (envelope : Option ParsedTrace) (frames : List ParsedStackFrame)
    (sourceProvider : JavaSourceProvider) : List ResolvedStackFrame :=
  if frames.length = 0 then []
  else
    match envelope with
    | none => frames.map bare
    | some parsed => mapFrames parsed sourceProvider ⟨[], []⟩ frames

end Resolution

section Printed

/-- The names of a frame, with the loader or the module in front of them. -/
structure Names (origin className methodName javaFile : Text) : Prop where
  ended : origin = [] ∨ origin.getLast? = some '/'
  origin : ∀ c ∈ origin, isTargetCharacter c = true
  className : className ≠ [] ∧ ∀ c ∈ className, isNameCharacter c = true
  methodName : methodName ≠ [] ∧ ∀ c ∈ methodName, isMethodCharacter c = true
  javaFile : javaFile ≠ [] ∧ ∀ c ∈ javaFile, isNameCharacter c = true

/-- A frame as the virtual machine prints it. -/
structure PrintedFrame where
  indent : Text
  origin : Text
  className : Text
  methodName : Text
  javaFile : Text
  javaLine : Nat
  indented : ∀ c ∈ indent, isSpace c = true ∧ c ≠ '\n'
  names : Names origin className methodName javaFile
  line : 0 < javaLine ∧ javaLine ≤ intMax

def targetText (origin className methodName : Text) : Text :=
  origin ++ (className ++ '.' :: methodName)

def PrintedFrame.text (frame : PrintedFrame) : Text :=
  frame.indent ++ ("at".toList ++ ([' '] ++
    (targetText frame.origin frame.className frame.methodName ++ ('(' ::
      (frame.javaFile ++ (':' :: (natText frame.javaLine ++ [')'])))))))

def PrintedFrame.parsed (frame : PrintedFrame) : ParsedStackFrame :=
  ⟨frame.text, frame.className, frame.methodName, frame.javaFile, frame.javaLine⟩

/-- The parts of a line that has a frame at its head. -/
structure FrameParts (line indent gap target javaFile digits rest : Text) : Prop where
  line_eq : line = indent ++ ("at".toList ++ (gap ++ (target ++ ('(' ::
    (javaFile ++ (':' :: (digits ++ (')' :: rest))))))))
  indent : ∀ c ∈ indent, isSpace c = true
  gap : (∀ c ∈ gap, isSpace c = true) ∧ 1 ≤ gap.length
  target : (∀ c ∈ target, isTargetCharacter c = true) ∧ 1 ≤ target.length
  javaFile : (∀ c ∈ javaFile, isNameCharacter c = true) ∧ 1 ≤ javaFile.length
  digits : (∀ c ∈ digits, isDigitAscii c = true) ∧ 1 ≤ digits.length

/-- A line that states a frame at its head. -/
def States (line : Text) : Prop :=
  ∃ indent gap origin className methodName javaFile digits rest,
    FrameParts line indent gap (targetText origin className methodName) javaFile digits rest ∧
      Names origin className methodName javaFile ∧ 0 < digitsValue digits

inductive TraceLine
  | frame (printed : PrintedFrame)
  | other (text : Text) (h : ¬ States text ∧ '\n' ∉ text)

def TraceLine.text : TraceLine → Text
  | .frame printed => printed.text
  | .other text _ => text

def TraceLine.parsed : TraceLine → Option ParsedStackFrame
  | .frame printed => some printed.parsed
  | .other _ _ => none

inductive LineEnd
  | feed
  | returnFeed

def LineEnd.text : LineEnd → Text
  | .feed => ['\n']
  | .returnFeed => ['\r', '\n']

/-- A line with its end, which begins where the line stops. -/
structure EndedLine where
  line : TraceLine
  ending : LineEnd
  stops : ending = .feed → line.text.getLast? ≠ some '\r'

def printTrace (lines : List EndedLine) (last : TraceLine) : Text :=
  (lines.flatMap fun ended => ended.line.text ++ ended.ending.text) ++ last.text

def framesOf (lines : List EndedLine) (last : TraceLine) : List ParsedStackFrame :=
  (lines.map EndedLine.line ++ [last]).filterMap TraceLine.parsed

end Printed

section Characters

theorem isSpace_of_printable {c : Char} (h : 33 ≤ c.toNat ∧ c.toNat ≤ 126) :
    isSpace c = false := by
  unfold isSpace
  simp only [Bool.or_eq_false_iff, Bool.and_eq_false_iff, decide_eq_false_iff_not, beq_eq_false_iff_ne]
  omega

theorem printable_of_isWordCharacter {c : Char} (h : isWordCharacter c = true) :
    33 ≤ c.toNat ∧ c.toNat ≤ 126 := by
  have hval : c.toNat = c.val.toNat := rfl
  simp only [isWordCharacter, Char.isAlphanum, Char.isAlpha, Char.isUpper, Char.isLower,
    Char.isDigit, Bool.or_eq_true, Bool.and_eq_true, decide_eq_true_eq, beq_iff_eq, ge_iff_le,
    UInt32.le_iff_toNat_le, ← hval] at h
  rcases h with ((h | h) | h) | rfl
  · exact ⟨le_trans (by decide) h.1, le_trans h.2 (by decide)⟩
  · exact ⟨le_trans (by decide) h.1, le_trans h.2 (by decide)⟩
  · exact ⟨le_trans (by decide) h.1, le_trans h.2 (by decide)⟩
  · decide

theorem isSpace_of_isTargetCharacter {c : Char} (h : isTargetCharacter c = true) :
    isSpace c = false := by
  rw [isTargetCharacter, Bool.and_eq_true, Bool.not_eq_true'] at h
  exact h.1

theorem isTargetCharacter_of_printable {c : Char} (h : 33 ≤ c.toNat ∧ c.toNat ≤ 126)
    (hc : c ≠ '(') : isTargetCharacter c = true := by
  rw [isTargetCharacter, isSpace_of_printable h, Bool.not_false, Bool.true_and, bne_iff_ne]
  exact hc

theorem printable_of_isNameCharacter {c : Char} (h : isNameCharacter c = true) :
    33 ≤ c.toNat ∧ c.toNat ≤ 126 := by
  simp only [isNameCharacter, Bool.or_eq_true, beq_iff_eq] at h
  rcases h with (h | rfl) | rfl
  · exact printable_of_isWordCharacter h
  · decide
  · decide

theorem printable_of_isMethodCharacter {c : Char} (h : isMethodCharacter c = true) :
    33 ≤ c.toNat ∧ c.toNat ≤ 126 := by
  simp only [isMethodCharacter, Bool.or_eq_true, beq_iff_eq] at h
  rcases h with ((h | rfl) | rfl) | rfl
  · exact printable_of_isWordCharacter h
  · decide
  · decide
  · decide

/-- A character that is not of a class is in no text of that class. -/
theorem notMem_of_class {p : Char → Bool} {c : Char} {t : Text} (ht : ∀ d ∈ t, p d = true)
    (hc : p c = false) : c ∉ t := by
  intro hmem
  rw [ht c hmem] at hc
  cases hc

variable {origin className methodName javaFile : Text}

theorem Names.target (h : Names origin className methodName javaFile) :
    ∀ c ∈ targetText origin className methodName, isTargetCharacter c = true := by
  intro c hc
  simp only [targetText, List.mem_append, List.mem_cons] at hc
  rcases hc with hc | hc | rfl | hc
  · exact h.origin c hc
  · refine isTargetCharacter_of_printable (printable_of_isNameCharacter (h.className.2 c hc)) ?_
    rintro rfl
    exact absurd (h.className.2 _ hc) (by decide)
  · decide
  · refine isTargetCharacter_of_printable (printable_of_isMethodCharacter (h.methodName.2 c hc)) ?_
    rintro rfl
    exact absurd (h.methodName.2 _ hc) (by decide)

end Characters

section Lines

variable {line indent gap target javaFile digits rest : Text}

theorem mem_frameRegex :
    ((target, javaFile, digits), rest) ∈ frameRegex line ↔
      ∃ indent gap, FrameParts line indent gap target javaFile digits rest := by
  constructor
  · intro h
    obtain ⟨indent, _, hindent, h⟩ := mem_bind.mp h
    obtain ⟨⟨⟩, _, hat, h⟩ := mem_bind.mp h
    obtain ⟨gap, _, hgap, h⟩ := mem_bind.mp h
    obtain ⟨_, _, htarget, h⟩ := mem_bind.mp h
    obtain ⟨⟨⟩, _, hopen, h⟩ := mem_bind.mp h
    obtain ⟨_, _, hfile, h⟩ := mem_bind.mp h
    obtain ⟨⟨⟩, _, hcolon, h⟩ := mem_bind.mp h
    obtain ⟨_, _, hdigits, h⟩ := mem_bind.mp h
    obtain ⟨⟨⟩, _, hclose, h⟩ := mem_bind.mp h
    obtain ⟨heq, rfl⟩ := mem_pure.mp h
    cases heq
    rw [mem_repeated] at hindent hgap htarget hfile hdigits
    rw [mem_literal] at hat hopen hcolon hclose
    refine ⟨indent, gap, ?_, hindent.2.1, hgap.2, htarget.2, hfile.2, hdigits.2⟩
    rw [hindent.1, hat, hgap.1, htarget.1, hopen, hfile.1, hcolon, hdigits.1, hclose]
    rfl
  · rintro ⟨indent, gap, h⟩
    refine mem_bind.mpr ⟨indent, _, mem_repeated.mpr ⟨h.line_eq, h.indent, Nat.zero_le _⟩, ?_⟩
    refine mem_bind.mpr ⟨(), _, mem_literal.mpr rfl, ?_⟩
    refine mem_bind.mpr ⟨gap, _, mem_repeated.mpr ⟨rfl, h.gap⟩, ?_⟩
    refine mem_bind.mpr ⟨target, _, mem_repeated.mpr ⟨rfl, h.target⟩, ?_⟩
    refine mem_bind.mpr ⟨(), _, mem_literal.mpr rfl, ?_⟩
    refine mem_bind.mpr ⟨javaFile, _, mem_repeated.mpr ⟨rfl, h.javaFile⟩, ?_⟩
    refine mem_bind.mpr ⟨(), _, mem_literal.mpr rfl, ?_⟩
    refine mem_bind.mpr ⟨digits, _, mem_repeated.mpr ⟨rfl, h.digits⟩, ?_⟩
    exact mem_bind.mpr ⟨(), _, mem_literal.mpr rfl, mem_pure.mpr ⟨rfl, rfl⟩⟩

/-- A line has its frame in one way only. -/
theorem FrameParts.unique {indent' gap' target' javaFile' digits' rest' : Text}
    (h : FrameParts line indent gap target javaFile digits rest)
    (h' : FrameParts line indent' gap' target' javaFile' digits' rest') :
    target = target' ∧ javaFile = javaFile' ∧ digits = digits' := by
  have hfirst {t back : Text} (ht : (∀ c ∈ t, isTargetCharacter c = true) ∧ 1 ≤ t.length) :
      ∀ c ∈ (t ++ back).head?, isSpace c = false := by
    obtain ⟨d, t, rfl⟩ := List.exists_cons_of_length_pos ht.2
    exact head_cons (isSpace_of_isTargetCharacter (ht.1 _ List.mem_cons_self))
  have hword (back : Text) : ∀ c ∈ ("at".toList ++ back).head?, isSpace c = false :=
    head_cons (by decide)
  obtain ⟨-, hat⟩ := run_unique h.indent (hword _) h'.indent (hword _)
    (h.line_eq.symm.trans h'.line_eq)
  obtain ⟨-, htarget⟩ := run_unique h.gap.1 (hfirst h.target) h'.gap.1 (hfirst h'.target)
    (List.append_cancel_left hat)
  obtain ⟨heq, hopen⟩ := run_unique h.target.1 (head_cons (by decide)) h'.target.1
    (head_cons (by decide)) htarget
  obtain ⟨hfile, hcolon⟩ := run_unique h.javaFile.1 (head_cons (by decide)) h'.javaFile.1
    (head_cons (by decide)) (List.tail_eq_of_cons_eq hopen)
  obtain ⟨hdigits, -⟩ := run_unique h.digits.1 (head_cons (by decide)) h'.digits.1
    (head_cons (by decide)) (List.tail_eq_of_cons_eq hcolon)
  exact ⟨heq, hfile, hdigits⟩

end Lines

section Targets

variable {origin className methodName javaFile : Text}

theorem drop_behind (s : Text) (c : Char) (t : Text) : (s ++ c :: t).drop (s.length + 1) = t := by
  simp

theorem normalizedOf_targetText (h : Names origin className methodName javaFile) :
    normalizedOf (targetText origin className methodName) = className ++ '.' :: methodName := by
  have hslash : '/' ∉ className ++ '.' :: methodName := by
    simp only [List.mem_append, List.mem_cons, not_or]
    exact ⟨notMem_of_class h.className.2 (by decide), by decide,
      notMem_of_class h.methodName.2 (by decide)⟩
  unfold normalizedOf targetText
  rcases h.ended with rfl | hlast
  · rw [List.nil_append, lastIndexOf_eq_none.mpr hslash]
  · obtain ⟨front, rfl⟩ := List.getLast?_eq_some_iff.mp hlast
    rw [List.append_assoc, List.singleton_append, lastIndexOf_append_cons front hslash]
    exact drop_behind front '/' _

theorem parseFrameTarget_targetText (h : Names origin className methodName javaFile) :
    parseFrameTarget (targetText origin className methodName) = some (className, methodName) := by
  have hdot : '.' ∉ methodName := notMem_of_class h.methodName.2 (by decide)
  have hclass := List.length_pos_iff.mpr h.className.1
  have hmethod := List.length_pos_iff.mpr h.methodName.1
  simp only [parseFrameTarget, normalizedOf_targetText h, lastIndexOf_append_cons className hdot]
  rw [if_neg, List.take_left, drop_behind, if_pos]
  · rw [Bool.and_eq_true, List.all_eq_true, List.all_eq_true]
    exact ⟨h.className.2, h.methodName.2⟩
  · rw [List.length_append, List.length_cons]
    omega

/-- What stands in front of the names is empty or ends in a slash. -/
theorem split_normalizedOf (target : Text) :
    ∃ origin, target = origin ++ normalizedOf target ∧
      (origin = [] ∨ origin.getLast? = some '/') := by
  unfold normalizedOf
  cases hlast : lastIndexOf '/' target with
  | none => exact ⟨[], rfl, .inl rfl⟩
  | some slash =>
      refine ⟨target.take slash ++ ['/'], ?_, .inr List.getLast?_concat⟩
      rw [List.append_assoc, List.singleton_append]
      exact (split_of_lastIndexOf hlast).1

theorem of_parseFrameTarget {target : Text}
    (h : parseFrameTarget target = some (className, methodName)) :
    ∃ origin, target = targetText origin className methodName ∧
      (origin = [] ∨ origin.getLast? = some '/') ∧
      (className ≠ [] ∧ ∀ c ∈ className, isNameCharacter c = true) ∧
      methodName ≠ [] ∧ ∀ c ∈ methodName, isMethodCharacter c = true := by
  obtain ⟨origin, hsplit, hended⟩ := split_normalizedOf target
  simp only [parseFrameTarget] at h
  split at h
  · cases h
  · rename_i separator hlast
    split_ifs at h with hends hclasses
    obtain ⟨rfl, rfl⟩ := Prod.mk.inj (Option.some.inj h)
    obtain ⟨hnormalized, -⟩ := split_of_lastIndexOf hlast
    rw [Bool.and_eq_true, List.all_eq_true, List.all_eq_true] at hclasses
    rw [not_or] at hends
    refine ⟨origin, ?_, hended, ⟨?_, hclasses.1⟩, ?_, hclasses.2⟩
    · rw [targetText, ← hnormalized]
      exact hsplit
    · rw [Ne, List.take_eq_nil_iff]
      rintro (hzero | hempty)
      · exact hends.1 hzero
      · rw [hempty] at hlast
        cases hlast
    · rw [Ne, List.drop_eq_nil_iff]
      have hlength := congrArg List.length hnormalized
      simp only [List.length_append, List.length_take, List.length_cons, List.length_drop] at hlength
      omega

end Targets

section Trace

theorem parseInt_of_lt {digits : Text} (h : digitsValue digits < 2 ^ 53) :
    parseInt digits = some (digitsValue digits) := by
  rw [parseInt, nearestDouble_natCast h, Option.map_some, Rat.num_natCast, Int.toNat_natCast]

theorem digitsValue_pos {digits : Text} {n : Nat} (h : parseInt digits = some n) (hn : ¬ n < 1) :
    0 < digitsValue digits := by
  apply Nat.pos_of_ne_zero
  intro hzero
  rw [parseInt_of_lt (by rw [hzero]; exact Nat.two_pow_pos 53), hzero] at h
  exact hn (Option.some.inj h ▸ Nat.one_pos)

/-- A printed frame is read. -/
theorem frameOf_printed (frame : PrintedFrame) : frameOf frame.text = some frame.parsed := by
  have hparts : FrameParts frame.text frame.indent [' ']
      (targetText frame.origin frame.className frame.methodName) frame.javaFile
      (natText frame.javaLine) [] :=
    ⟨rfl, fun c hc => (frame.indented c hc).1, ⟨List.forall_mem_singleton.mpr rfl, le_rfl⟩,
      ⟨frame.names.target, by
        simp only [targetText, List.length_append, List.length_cons]
        omega⟩,
      ⟨frame.names.javaFile.2, List.length_pos_iff.mpr frame.names.javaFile.1⟩,
      ⟨fun _ => isDigitAscii_of_mem_natText, List.length_pos_iff.mpr (natText_ne_nil _)⟩⟩
  have hexec : exec frameRegex frame.text =
      some (targetText frame.origin frame.className frame.methodName, frame.javaFile,
        natText frame.javaLine) := by
    refine exec_eq_some ⟨[], mem_frameRegex.mpr ⟨_, _, hparts⟩⟩ ?_
    rintro ⟨target, javaFile, digits⟩ rest hmem
    obtain ⟨indent, gap, hparts'⟩ := mem_frameRegex.mp hmem
    obtain ⟨rfl, rfl, rfl⟩ := hparts'.unique hparts
    rfl
  have hline := frame.line
  have hparse : parseInt (natText frame.javaLine) = some frame.javaLine := by
    rw [parseInt_of_lt, digitsValue_natText]
    rw [digitsValue_natText]
    exact hline.2.trans_lt (by unfold intMax; omega)
  simp only [frameOf, hexec, parseFrameTarget_targetText frame.names, hparse, Option.bind_eq_bind,
    Option.bind_some]
  rw [if_neg (by omega)]
  rfl

/-- A line that is read states a frame. -/
theorem states_of_frameOf {line : Text} {frame : ParsedStackFrame}
    (h : frameOf line = some frame) : States line := by
  obtain ⟨⟨target, javaFile, digits⟩, hexec, hread⟩ := Option.bind_eq_some_iff.mp h
  obtain ⟨⟨className, methodName⟩, htarget, hnamed⟩ := Option.bind_eq_some_iff.mp hread
  obtain ⟨javaLine, hdigits, hframe⟩ := Option.bind_eq_some_iff.mp hnamed
  obtain ⟨rest, hmem⟩ := exists_of_exec hexec
  obtain ⟨indent, gap, hparts⟩ := mem_frameRegex.mp hmem
  obtain ⟨origin, rfl, hended, hclass, hmethod⟩ := of_parseFrameTarget htarget
  split_ifs at hframe with hone
  refine ⟨indent, gap, origin, className, methodName, javaFile, digits, rest, hparts,
    ⟨hended, ?_, hclass, hmethod, ?_⟩, digitsValue_pos hdigits hone⟩
  · exact fun c hc => hparts.target.1 c (List.mem_append_left _ hc)
  · exact ⟨List.length_pos_iff.mp hparts.javaFile.2, hparts.javaFile.1⟩

theorem TraceLine.frameOf_text (line : TraceLine) : frameOf line.text = line.parsed := by
  cases line with
  | frame printed => exact frameOf_printed printed
  | other text h =>
      cases hframe : frameOf text with
      | none => exact hframe
      | some frame => exact absurd (states_of_frameOf hframe) h.1

theorem PrintedFrame.feed_notMem (frame : PrintedFrame) : '\n' ∉ frame.text := by
  have htarget : '\n' ∉ targetText frame.origin frame.className frame.methodName :=
    notMem_of_class frame.names.target (by decide)
  simp only [PrintedFrame.text, List.mem_append, List.mem_cons, not_or]
  refine ⟨fun hmem => (frame.indented _ hmem).2 rfl, by decide, by decide, htarget, by decide,
    notMem_of_class frame.names.javaFile.2 (by decide), by decide, not_mem_natText (by decide) _,
    by decide⟩

theorem TraceLine.feed_notMem (line : TraceLine) : '\n' ∉ line.text := by
  cases line with
  | frame printed => exact printed.feed_notMem
  | other text h => exact h.2

/-- The lines of a trace are found again. -/
theorem splitLines_printTrace (lines : List EndedLine) (last : TraceLine) :
    splitLines (printTrace lines last) = (lines.map EndedLine.line ++ [last]).map TraceLine.text := by
  unfold splitLines printTrace
  induction lines with
  | nil => exact splitLinesFrom_last [] last.feed_notMem
  | cons ended lines ih =>
      obtain ⟨line, ending, hstops⟩ := ended
      rw [List.flatMap_cons, List.append_assoc, List.append_assoc]
      cases ending with
      | feed =>
          exact (splitLinesFrom_feed [] line.feed_notMem (hstops rfl)).trans
            (congrArg (line.text :: ·) ih)
      | returnFeed =>
          exact (splitLinesFrom_return [] line.feed_notMem).trans (congrArg (line.text :: ·) ih)

theorem parseStackTrace_eq (raw : Text) :
    parseStackTrace raw = (splitLines raw).filterMap frameOf := by
  unfold parseStackTrace
  split
  · rename_i hempty
    obtain rfl := List.length_eq_zero_iff.mp hempty
    decide +kernel
  · rfl

/-- The frames of a trace are read in their order. -/
theorem parseStackTrace_printTrace (lines : List EndedLine) (last : TraceLine) :
    parseStackTrace (printTrace lines last) = framesOf lines last := by
  rw [parseStackTrace_eq, splitLines_printTrace, List.filterMap_map, framesOf]
  exact List.filterMap_congr fun line _ => line.frameOf_text

end Trace

section Places

/-- The package directories of a frame and its file name. -/
def placeOf (frame : ParsedStackFrame) : List Text :=
  (frame.className.splitOn '.').dropLast.filter (· ≠ []) ++ [frame.javaFile]

def EndsIn (place : List Text) (path : Text) : Prop :=
  place <:+ pathSegments path

/-- A place and a path are alike as far as the shorter of the two goes. -/
def Agrees (place : List Text) (path : Text) : Prop :=
  pathSegments path ≠ [] ∧ (place <:+ pathSegments path ∨ pathSegments path <:+ place)

def filesOf (parsed : ParsedTrace) : List Text :=
  parsed.javaRegionClassification.map Prod.fst

/-- Of the files, only this one has the property. -/
def Only (files : List Text) (p : Text → Prop) (path : Text) : Prop :=
  path ∈ files ∧ p path ∧ ∀ other ∈ files, p other → other = path

/-- The one file of a frame's package and name. -/
def Located (parsed : ParsedTrace) (frame : ParsedStackFrame) (path : Text) : Prop :=
  Only (filesOf parsed) (EndsIn (placeOf frame)) path

/-- The one file that agrees with a frame's place, or where there is none the one
file of its name. -/
def Chosen (parsed : ParsedTrace) (frame : ParsedStackFrame) (path : Text) : Prop :=
  Only (filesOf parsed) (Agrees (placeOf frame)) path ∨
    (∀ other ∈ filesOf parsed, ¬ Agrees (placeOf frame) other) ∧
      Only (filesOf parsed) (EndsIn [frame.javaFile]) path

/-- The mapping answers each frame by itself, with a path that it may have. -/
structure Answers (mayHave : ParsedTrace → ParsedStackFrame → Text → Prop)
    (envelope : Option ParsedTrace) (frames : List ParsedStackFrame)
    (sourceProvider : JavaSourceProvider) : Prop where
  entries : (mapStackFrames envelope frames sourceProvider).map
    ResolvedStackFrame.toParsedStackFrame = frames
  paths : ∀ entry ∈ mapStackFrames envelope frames sourceProvider, ∀ path,
    entry.javaFilePath = some path → ∃ parsed ∈ envelope, mayHave parsed entry.toParsedStackFrame path
  targets : ∀ entry ∈ mapStackFrames envelope frames sourceProvider, ∀ target,
    entry.cobol = some target ↔ ∃ parsed ∈ envelope, ∃ path source,
      entry.javaFilePath = some path ∧ sourceProvider path = some source ∧
        (resolveJavaToCobol parsed path entry.javaLine source).1 = .ok target
  alone : mapStackFrames envelope frames sourceProvider =
    frames.flatMap fun frame => mapStackFrames envelope [frame] sourceProvider

end Places

section Suffixes

theorem all_zip_iff {a b : List Text} :
    ((a.zip b).all fun pair => pair.1 == pair.2) = true ↔ a <+: b ∨ b <+: a := by
  induction a generalizing b with
  | nil => simp
  | cons x a ih =>
      cases b with
      | nil => simp
      | cons y b =>
          rw [List.zip_cons_cons, List.all_cons, Bool.and_eq_true, ih, List.cons_prefix_cons,
            List.cons_prefix_cons, beq_iff_eq, eq_comm (a := y), ← and_or_left]

theorem pathSuffixMatches_iff {left right : Text} :
    pathSuffixMatches left right = true ↔
      pathSegments left ≠ [] ∧ Agrees (pathSegments left) right := by
  simp only [pathSuffixMatches, Agrees]
  split_ifs with hempty
  · rw [List.length_eq_zero_iff, List.length_eq_zero_iff] at hempty
    simp only [false_iff]
    tauto
  · rw [List.length_eq_zero_iff, List.length_eq_zero_iff, not_or] at hempty
    rw [all_zip_iff, List.reverse_prefix, List.reverse_prefix]
    tauto

theorem pathSegments_append (front back : Text) :
    pathSegments (front ++ '/' :: back) = pathSegments front ++ pathSegments back := by
  unfold pathSegments
  rw [List.splitOnP_append_cons front back (by decide), List.filter_append]

/-- A text without separators is one segment. -/
theorem pathSegments_name {name : Text} (h : ∀ c ∈ name, isNameCharacter c = true) :
    pathSegments name = [name].filter (· ≠ []) := by
  unfold pathSegments
  rw [List.splitOnP_eq_singleton]
  intro c hc
  rw [Bool.or_eq_false_iff, beq_eq_false_iff_ne, beq_eq_false_iff_ne]
  constructor
  · rintro rfl
    exact absurd (h _ hc) (by decide)
  · rintro rfl
    exact absurd (h _ hc) (by decide)

theorem pathSegments_joinWith {parts : List Text}
    (h : ∀ part ∈ parts, ∀ c ∈ part, isNameCharacter c = true) :
    pathSegments (joinWith ['/'] parts) = parts.filter (· ≠ []) := by
  induction parts with
  | nil => rfl
  | cons part parts ih =>
      rw [List.forall_mem_cons] at h
      by_cases hne : parts = []
      · subst hne
        rw [show joinWith ['/'] [part] = part by simp [joinWith], pathSegments_name h.1]
      · rw [joinWith, List.intercalate_cons_of_ne_nil hne, List.append_assoc,
          List.singleton_append, pathSegments_append, pathSegments_name h.1]
        exact (congrArg _ (ih h.2)).trans (List.filter_append ..).symm

end Suffixes

section Search

variable {parsed : ParsedTrace} {frame : ParsedStackFrame}

/-- A frame whose class and file are named by ASCII letters, digits and signs of names. -/
structure Named (frame : ParsedStackFrame) : Prop where
  className : ∀ c ∈ frame.className, isNameCharacter c = true
  javaFile : frame.javaFile ≠ [] ∧ ∀ c ∈ frame.javaFile, isNameCharacter c = true

theorem Named.segments_javaFile (h : Named frame) :
    pathSegments frame.javaFile = [frame.javaFile] := by
  rw [pathSegments_name h.javaFile.2]
  simp [h.javaFile.1]

theorem Named.segments_suffix (h : Named frame) :
    pathSegments (expectedJavaPathSuffix frame) = placeOf frame := by
  have hparts : ∀ part ∈ frame.className.splitOn '.', ∀ c ∈ part, isNameCharacter c = true :=
    fun part hpart c hc => h.className c ((mem_splitOn hpart).2 c hc)
  simp only [expectedJavaPathSuffix, placeOf]
  split_ifs with hone
  · have hnil : (frame.className.splitOn '.').dropLast = [] := by
      rw [← List.length_eq_zero_iff, List.length_dropLast]
      omega
    rw [hnil, List.filter_nil, List.nil_append, h.segments_javaFile]
  · rw [pathSegments_append, h.segments_javaFile,
      pathSegments_joinWith fun part hpart => hparts part (List.dropLast_subset _ hpart)]

theorem endsIn_singleton {name path : Text} :
    EndsIn [name] path ↔ (pathSegments path).getLast? = some name := by
  rw [EndsIn, List.getLast?_eq_some_iff]
  exact exists_congr fun front => eq_comm

/-- What agrees with a place has its file name. -/
theorem endsIn_of_agrees {directories : List Text} {name path : Text}
    (h : Agrees (directories ++ [name]) path) : EndsIn [name] path := by
  obtain ⟨hne, hplace | ⟨front, hpath⟩⟩ := h
  · exact (List.suffix_append _ _).trans hplace
  · have hlast := congrArg List.getLast? hpath
    rw [List.getLast?_append, List.getLast?_concat, List.getLast?_eq_some_getLast hne,
      Option.some_or] at hlast
    rw [endsIn_singleton, List.getLast?_eq_some_getLast hne, hlast]

theorem agrees_singleton {name path : Text} : Agrees [name] path ↔ EndsIn [name] path := by
  constructor
  · exact fun h => @endsIn_of_agrees [] name path h
  · intro h
    refine ⟨?_, .inl h⟩
    rintro hnil
    rw [endsIn_singleton, hnil] at h
    cases h

/-- The one element that a filter leaves. -/
theorem filter_eq_singleton {files : List Text} (h : files.Nodup) {p : Text → Bool} {path : Text} :
    files.filter p = [path] ↔ Only files (p · = true) path := by
  constructor
  · intro hfilter
    have hmem (other : Text) : other ∈ files ∧ p other = true ↔ other = path := by
      rw [← List.mem_filter, hfilter, List.mem_singleton]
    exact ⟨((hmem path).mpr rfl).1, ((hmem path).mpr rfl).2, fun other hother hp =>
      (hmem other).mp ⟨hother, hp⟩⟩
  · rintro ⟨hpath, hp, hall⟩
    apply List.perm_singleton.mp
    apply (List.perm_ext_iff_of_nodup (h.filter p) (List.nodup_singleton path)).mpr
    intro other
    rw [List.mem_filter, List.mem_singleton]
    constructor
    · exact fun hother => hall other hother.1 hother.2
    · rintro rfl
      exact ⟨hpath, hp⟩

/-- The only element of a list. -/
theorem head?_of_one {l : List Text} {path : Text} (h : l.length = 1) :
    l.head? = some path ↔ l = [path] := by
  obtain ⟨first, rfl⟩ := List.length_eq_one_iff.mp h
  simp

/-- The choice between the files of a frame's place and those of its name. -/
theorem choice_iff {places names : List Text} (h : places.length ≤ names.length) {path : Text} :
    (if places.length = 1 then places.head? else if names.length = 1 then names.head? else none) =
      some path ↔ places = [path] ∨ places = [] ∧ names = [path] := by
  split_ifs with hplaces hnames
  · rw [head?_of_one hplaces, or_iff_left]
    rintro ⟨rfl, -⟩
    cases hplaces
  · have hnil : places = [] := List.length_eq_zero_iff.mp (by omega)
    rw [head?_of_one hnames, hnil]
    simp
  · constructor
    · exact nofun
    · rintro (rfl | ⟨-, rfl⟩)
      · exact absurd rfl hplaces
      · exact absurd rfl hnames

theorem findJavaFilePath_iff (h : Named frame) (hfiles : (filesOf parsed).Nodup) {path : Text} :
    findJavaFilePath parsed frame = some path ↔ Chosen parsed frame path := by
  have hname (other : Text) : pathSuffixMatches frame.javaFile other = true ↔
      EndsIn [frame.javaFile] other := by
    rw [pathSuffixMatches_iff, h.segments_javaFile, agrees_singleton]
    simp
  have hplace (other : Text) : pathSuffixMatches (expectedJavaPathSuffix frame) other = true ↔
      Agrees (placeOf frame) other := by
    rw [pathSuffixMatches_iff, h.segments_suffix]
    simp [placeOf]
  set candidates := (filesOf parsed).filter (pathSuffixMatches frame.javaFile) with hcandidates
  have hpackage : candidates.filter (pathSuffixMatches (expectedJavaPathSuffix frame)) =
      (filesOf parsed).filter (pathSuffixMatches (expectedJavaPathSuffix frame)) := by
    rw [hcandidates, List.filter_filter]
    apply List.filter_congr
    intro other _
    rw [Bool.eq_iff_iff, Bool.and_eq_true, hname, hplace]
    exact and_iff_left_of_imp endsIn_of_agrees
  have honly {p : Text → Bool} {q : Text → Prop} (hpq : ∀ other, p other = true ↔ q other) :
      (filesOf parsed).filter p = [path] ↔ Only (filesOf parsed) q path := by
    rw [filter_eq_singleton hfiles]
    simp only [Only, hpq]
  have hfind : findJavaFilePath parsed frame =
      if (candidates.filter (pathSuffixMatches (expectedJavaPathSuffix frame))).length = 1 then
        (candidates.filter (pathSuffixMatches (expectedJavaPathSuffix frame))).head?
      else if candidates.length = 1 then candidates.head? else none := by
    simp only [findJavaFilePath]
    rw [← filesOf, ← hcandidates]
    have hle := List.length_filter_le (pathSuffixMatches frame.javaFile) (filesOf parsed)
    rw [← hcandidates] at hle
    by_cases hempty : candidates.length = 0
    · rw [if_pos hempty, ite_self, List.length_eq_zero_iff.mp hempty]
      rfl
    · rw [if_neg (by omega), if_neg hempty]
  rw [hfind, choice_iff (List.length_filter_le _ _), hpackage, Chosen, honly hplace, honly hname,
    List.filter_eq_nil_iff]
  simp only [hplace]

end Search

section Mapping

variable {parsed : ParsedTrace} {sourceProvider : JavaSourceProvider}

def targetOf : LineageResolution CobolAnchor → Option CobolAnchor
  | .ok target => some target
  | .unavailable _ => none

theorem targetOf_eq_some {resolution : LineageResolution CobolAnchor} {target : CobolAnchor} :
    targetOf resolution = some target ↔ resolution = .ok target := by
  cases resolution with
  | ok found => simp [targetOf]
  | unavailable reason => simp [targetOf]

/-- What is found for a frame without the caches. -/
def resolveFrame (parsed : ParsedTrace) (sourceProvider : JavaSourceProvider)
    (frame : ParsedStackFrame) : ResolvedStackFrame where
  toParsedStackFrame := frame
  javaFilePath := findJavaFilePath parsed frame
  cobol := (findJavaFilePath parsed frame).bind fun path => (sourceProvider path).bind fun source =>
    targetOf (resolveJavaToCobol parsed path frame.javaLine source).1

/-- The caches hold what would be found again. -/
structure Faithful (parsed : ParsedTrace) (sourceProvider : JavaSourceProvider)
    (caches : Caches) : Prop where
  paths : ∀ frame, Named frame → ∀ found,
    caches.pathCache.lookup (framePathCacheKey frame) = some found →
    found = findJavaFilePath parsed frame
  sources : ∀ path found, caches.sourceCache.lookup path = some found → found = sourceProvider path

theorem faithful_empty : Faithful parsed sourceProvider ⟨[], []⟩ where
  paths := by
    intro frame _ found hfound
    cases hfound
  sources := by
    intro path found hfound
    cases hfound

theorem cached_fst {cache : List (Text × Option Text)} {key : Text} {find : Option Text}
    (h : ∀ found, cache.lookup key = some found → found = find) :
    (cached cache key find).1 = find := by
  unfold cached
  split
  · rename_i found hfound
    exact h found hfound
  · rfl

/-- What is in a cache afterwards was there or has been found. -/
theorem lookup_cached {cache : List (Text × Option Text)} {key other : Text}
    {find found : Option Text} (h : (cached cache key find).2.lookup other = some found) :
    cache.lookup other = some found ∨ other = key ∧ found = find := by
  unfold cached at h
  split at h
  · exact .inl h
  · rw [lookup_assign] at h
    split_ifs at h with heq
    · exact .inr ⟨heq, (Option.some.inj h).symm⟩
    · exact .inl h

/-- Frames of one key have one path. -/
theorem findJavaFilePath_of_key {frame frame' : ParsedStackFrame} (h : Named frame)
    (h' : Named frame') (hkey : framePathCacheKey frame = framePathCacheKey frame') :
    findJavaFilePath parsed frame = findJavaFilePath parsed frame' := by
  obtain ⟨hclass, hfile⟩ := append_cons_inj (notMem_of_class h.className (by decide))
    (notMem_of_class h'.className (by decide)) hkey
  have hsuffix : expectedJavaPathSuffix frame = expectedJavaPathSuffix frame' := by
    unfold expectedJavaPathSuffix
    rw [hclass, hfile]
  unfold findJavaFilePath
  rw [hsuffix, hfile]

theorem ne_nil_of_chosen {frame : ParsedStackFrame} {path : Text} (h : Chosen parsed frame path) :
    path ≠ [] := by
  have hends : EndsIn [frame.javaFile] path := by
    rcases h with h | ⟨-, h⟩
    · exact endsIn_of_agrees h.2.1
    · exact h.2.1
  rintro rfl
  cases endsIn_singleton.mp hends

theorem targetOf_nil (path : Text) (javaLine : Nat) :
    targetOf (resolveJavaToCobol parsed path javaLine []).1 = none := by
  have hanchors : parseInlineIrAnchors [] = [] := rfl
  simp only [resolveJavaToCobol, hanchors, List.foldl_nil]
  repeat' split
  all_goals rfl

theorem mapFrameAt_spec {sourceCache : List (Text × Option Text)} {path : Text}
    (h : ∀ found, sourceCache.lookup path = some found → found = sourceProvider path)
    (frame : ParsedStackFrame) :
    mapFrameAt parsed sourceProvider sourceCache frame path =
      (⟨frame, some path, (sourceProvider path).bind fun source =>
        targetOf (resolveJavaToCobol parsed path frame.javaLine source).1⟩,
        (cached sourceCache path (sourceProvider path)).2) := by
  simp only [mapFrameAt, cached_fst h]
  split
  · rename_i hsource
    rw [hsource]
    rfl
  · rename_i hsource
    rw [hsource, Option.bind_some, targetOf_nil]
    rfl
  · rename_i text _ hsource
    rw [hsource, Option.bind_some]
    split
    · rename_i target htarget
      rw [htarget]
      rfl
    · rename_i reason htarget
      rw [htarget]
      rfl

/-- One turn answers its frame, and the caches stay faithful. -/
theorem mapFrame_spec (hfiles : (filesOf parsed).Nodup) {caches : Caches}
    (hcaches : Faithful parsed sourceProvider caches) {frame : ParsedStackFrame}
    (h : Named frame) :
    (mapFrame parsed sourceProvider caches frame).1 = resolveFrame parsed sourceProvider frame ∧
      Faithful parsed sourceProvider (mapFrame parsed sourceProvider caches frame).2 := by
  have hpaths : ∀ other, Named other → ∀ found,
      (cached caches.pathCache (framePathCacheKey frame)
        (findJavaFilePath parsed frame)).2.lookup (framePathCacheKey other) = some found →
      found = findJavaFilePath parsed other := by
    intro other hother found hfound
    rcases lookup_cached hfound with hold | ⟨hkey, rfl⟩
    · exact hcaches.paths other hother found hold
    · exact findJavaFilePath_of_key h hother hkey.symm
  simp only [mapFrame, cached_fst (hcaches.paths frame h), resolveFrame]
  split
  · rename_i hfind
    rw [hfind] at hpaths ⊢
    exact ⟨rfl, hpaths, hcaches.sources⟩
  · rename_i hfind
    exact absurd rfl (ne_nil_of_chosen ((findJavaFilePath_iff h hfiles).mp hfind))
  · rename_i path _ hfind
    rw [hfind] at hpaths ⊢
    rw [mapFrameAt_spec (hcaches.sources path)]
    refine ⟨rfl, hpaths, fun other found hfound => ?_⟩
    rcases lookup_cached hfound with hold | ⟨rfl, rfl⟩
    · exact hcaches.sources other found hold
    · rfl

theorem mapFrames_eq (hfiles : (filesOf parsed).Nodup) {caches : Caches}
    (hcaches : Faithful parsed sourceProvider caches) {frames : List ParsedStackFrame}
    (h : ∀ frame ∈ frames, Named frame) :
    mapFrames parsed sourceProvider caches frames =
      frames.map (resolveFrame parsed sourceProvider) := by
  induction frames generalizing caches with
  | nil => rfl
  | cons frame frames ih =>
      rw [List.forall_mem_cons] at h
      obtain ⟨hframe, hrest⟩ := mapFrame_spec hfiles hcaches h.1
      rw [mapFrames, List.map_cons, hframe, ih hrest h.2]

end Mapping

section Answering

variable {envelope : Option ParsedTrace} {sourceProvider : JavaSourceProvider}

/-- The entry of a frame. -/
def answer (envelope : Option ParsedTrace) (sourceProvider : JavaSourceProvider)
    (frame : ParsedStackFrame) : ResolvedStackFrame :=
  envelope.elim (bare frame) fun parsed => resolveFrame parsed sourceProvider frame

theorem mapStackFrames_eq (hfiles : ∀ parsed ∈ envelope, (filesOf parsed).Nodup)
    {frames : List ParsedStackFrame} (h : ∀ frame ∈ frames, Named frame) :
    mapStackFrames envelope frames sourceProvider =
      frames.map (answer envelope sourceProvider) := by
  unfold mapStackFrames
  split_ifs with hempty
  · rw [List.length_eq_zero_iff.mp hempty, List.map_nil]
  · cases envelope with
    | none => rfl
    | some parsed => exact mapFrames_eq (hfiles parsed rfl) faithful_empty h

theorem toParsedStackFrame_answer (frame : ParsedStackFrame) :
    (answer envelope sourceProvider frame).toParsedStackFrame = frame := by
  cases envelope <;> rfl

theorem javaFilePath_answer (hfiles : ∀ parsed ∈ envelope, (filesOf parsed).Nodup)
    {frame : ParsedStackFrame} (h : Named frame) {path : Text} :
    (answer envelope sourceProvider frame).javaFilePath = some path ↔
      ∃ parsed ∈ envelope, Chosen parsed frame path := by
  cases envelope with
  | none => simp [answer, bare]
  | some parsed =>
      have hiff := @findJavaFilePath_iff _ _ h (hfiles parsed rfl) path
      simpa [answer, resolveFrame] using hiff

theorem cobol_answer {frame : ParsedStackFrame} {target : CobolAnchor} :
    (answer envelope sourceProvider frame).cobol = some target ↔
      ∃ parsed ∈ envelope, ∃ path source,
        (answer envelope sourceProvider frame).javaFilePath = some path ∧
          sourceProvider path = some source ∧
          (resolveJavaToCobol parsed path frame.javaLine source).1 = .ok target := by
  cases envelope with
  | none => simp [answer, bare]
  | some parsed => simp [answer, resolveFrame, Option.bind_eq_some_iff, targetOf_eq_some]

/-- The frames of a trace are named as names are. -/
theorem named_of_mem_framesOf {lines : List EndedLine} {last : TraceLine}
    {frame : ParsedStackFrame} (h : frame ∈ framesOf lines last) : Named frame := by
  obtain ⟨line, -, hframe⟩ := List.mem_filterMap.mp h
  cases line with
  | frame printed =>
      obtain rfl := Option.some.inj hframe
      exact ⟨printed.names.className.2, printed.names.javaFile⟩
  | other text _ => cases hframe

theorem answers_chosen (hfiles : ∀ parsed ∈ envelope, (filesOf parsed).Nodup)
    {frames : List ParsedStackFrame} (h : ∀ frame ∈ frames, Named frame) :
    Answers Chosen envelope frames sourceProvider where
  entries := by
    rw [mapStackFrames_eq hfiles h, List.map_map]
    exact (List.map_congr_left fun frame _ => toParsedStackFrame_answer frame).trans
      (List.map_id frames)
  paths := by
    rw [mapStackFrames_eq hfiles h]
    intro entry hentry path hpath
    obtain ⟨frame, hframe, rfl⟩ := List.mem_map.mp hentry
    rw [toParsedStackFrame_answer]
    exact (javaFilePath_answer hfiles (h frame hframe)).mp hpath
  targets := by
    rw [mapStackFrames_eq hfiles h]
    intro entry hentry target
    obtain ⟨frame, hframe, rfl⟩ := List.mem_map.mp hentry
    rw [toParsedStackFrame_answer]
    exact cobol_answer
  alone := by
    rw [mapStackFrames_eq hfiles h, List.map_eq_flatMap]
    apply List.flatMap_congr
    intro frame hframe
    rw [mapStackFrames_eq hfiles (List.forall_mem_singleton.mpr (h frame hframe)),
      List.map_singleton]

/-- The frames of a printed trace are read in their order, and each is mapped by
itself to the one file that agrees with its place or else has its name. -/
theorem printed_mapped (lines : List EndedLine) (last : TraceLine)
    (envelope : Option (List (Text × Json))) (sourceProvider : JavaSourceProvider) :
    parseStackTrace (printTrace lines last) = framesOf lines last ∧
      Answers Chosen (envelope.map buildParsedTrace) (framesOf lines last) sourceProvider := by
  refine ⟨parseStackTrace_printTrace lines last,
    answers_chosen ?_ fun frame => named_of_mem_framesOf⟩
  intro parsed hparsed
  obtain ⟨members, -, rfl⟩ := Option.map_eq_some_iff.mp hparsed
  exact nodup_readRecord validRegions _

end Answering

section Foreign

theorem spelled_one : isNumeral "1".toList = true ∧ "1".toList.all isNumeralChar = true := by
  decide

theorem spelled_eight : isNumeral "8".toList = true ∧ "8".toList.all isNumeralChar = true := by
  decide

/-- A class of one package. -/
def alphaEnvelope : List (Text × Json) :=
  [("javaRegionClassification".toList, .object [("src/main/java/com/alpha/Foo.java".toList, .array
    [.object [("schemaVersion".toList, .string "v0".toList),
      ("lineRange".toList, .object [("startLine".toList, .number ⟨"1".toList, spelled_one⟩),
        ("endLine".toList, .number ⟨"8".toList, spelled_eight⟩)]),
      ("originClass".toList, .string "deterministic".toList),
      ("verificationOutcome".toList, .string "oracle_passed".toList),
      ("mappingClass".toList, .string "direct".toList)]])])]

/-- A frame of another package, whose file has the same name. -/
def gammaFrame : PrintedFrame where
  indent := ['\t']
  origin := []
  className := "com.gamma.Foo".toList
  methodName := "run".toList
  javaFile := "Foo.java".toList
  javaLine := 4
  indented := List.forall_mem_singleton.mpr ⟨rfl, nofun⟩
  names := ⟨.inl rfl, nofun, ⟨nofun, List.all_eq_true.mp rfl⟩, ⟨nofun, List.all_eq_true.mp rfl⟩,
    ⟨nofun, List.all_eq_true.mp rfl⟩⟩
  line := by decide

/-- The frame gets the file of the other package; and a method whose name has a hyphen
and a loader whose name has a blank are not read. -/
theorem gammaFrame_misplaced :
    ¬ Answers Located (some (buildParsedTrace alphaEnvelope)) (framesOf [] (.frame gammaFrame))
        (fun _ => none) ∧
      parseStackTrace "\tat com.alpha.Foo.run-impl(Foo.java:4)".toList = [] ∧
      parseStackTrace "\tat my loader//com.alpha.Foo.run(Foo.java:4)".toList = [] := by
  refine ⟨fun h => ?_, by decide +kernel, by decide +kernel⟩
  have hmapped : (mapStackFrames (some (buildParsedTrace alphaEnvelope))
      (framesOf [] (.frame gammaFrame)) fun _ => none) =
      [⟨gammaFrame.parsed, some "src/main/java/com/alpha/Foo.java".toList, none⟩] := by
    decide +kernel
  have hentry := h.paths _ (hmapped ▸ List.mem_singleton_self _) _ rfl
  obtain ⟨parsed, -, -, hends, -⟩ := hentry
  unfold EndsIn at hends
  revert hends
  decide +kernel

end Foreign

end C2c.Studio.StackTraceMapper
