import Mathlib.Data.List.Sort
import Mathlib.Data.List.Dedup
import C2c.Library.RegExp
import C2c.Library.Spans

/-!
The redaction the studio applies to a region before it leaves the client.
-/

namespace C2c.Studio.PreRedaction

open C2c.Library.RegExp
open C2c.Library.Spans

section Patterns

structure RedactionPattern where
  id : CodeUnits
  regex : Pattern

structure StudioRedactionPatternAddition where
  id : CodeUnits
  literal : CodeUnits

def fieldNameClass (id : String) (names : List String) : RedactionPattern where
  id := unitsOf id
  regex := sequence [.boundary,
    (names.map fun name => literalFolded (unitsOf name)).foldr .alt (.set fun _ => false),
    .boundary]

def blank (c : UInt16) : Bool :=
  oneOf " \t" c

def isAlphanumericUpper (c : UInt16) : Bool :=
  isUpper c || isDigit c

def isLetter (c : UInt16) : Bool :=
  isUpper c || isLower c

def piiCommentLine : CodeUnits :=
  unitsOf "pii-comment-line"

def newline : UInt16 :=
  10

/-- `RAW_PATTERNS`. -/
def rawPatterns : List RedactionPattern :=
  [⟨piiCommentLine, sequence [.alt .start (.set (· == newline)), .repeated 0 (some 80) blank,
      literal (unitsOf "*"), .repeated 0 none blank, literal (unitsOf "PII:"),
      .repeated 0 (some 4096) (· != newline)]⟩,
    fieldNameClass "field-name-class:account-number" ["ACCT-NO", "ACCOUNT-NUMBER"],
    fieldNameClass "field-name-class:card-number" ["CARD-NO", "CARD-NUMBER"],
    fieldNameClass "field-name-class:customer-name" ["CUSTOMER-NAME", "CUST-NM"],
    fieldNameClass "field-name-class:dob" ["DOB", "DATE-OF-BIRTH"],
    fieldNameClass "field-name-class:email" ["EMAIL"],
    fieldNameClass "field-name-class:national-id" ["NATIONAL-ID", "NATIONAL-IDENTIFIER"],
    fieldNameClass "field-name-class:phone" ["PHONE", "PHONE-NO", "PHONE-NUMBER"],
    fieldNameClass "field-name-class:social-security" ["SOCIAL-SECURITY", "SSN"],
    fieldNameClass "field-name-class:tax-id" ["TAX-ID", "TAX-IDENTIFIER"],
    ⟨unitsOf "ssn-us", sequence [.boundary, .repeated 3 (some 3) isDigit, literal (unitsOf "-"),
      .repeated 2 (some 2) isDigit, literal (unitsOf "-"), .repeated 4 (some 4) isDigit,
      .boundary]⟩,
    ⟨unitsOf "iban-eu", sequence [.boundary, .repeated 2 (some 2) isUpper,
      .repeated 2 (some 2) isDigit, .repeated 11 (some 30) isAlphanumericUpper, .boundary]⟩,
    ⟨unitsOf "bic", sequence [.boundary, literal (unitsOf "BIC"), .repeated 0 none blank,
      optional (.set (oneOf ":=")), .repeated 0 none blank, .repeated 4 (some 4) isUpper,
      .repeated 2 (some 2) isUpper, .repeated 2 (some 2) isAlphanumericUpper,
      optional (.repeated 3 (some 3) isAlphanumericUpper), .boundary]⟩,
    ⟨unitsOf "email-literal", sequence [.boundary,
      .repeated 1 (some 64) (fun c => isLetter c || isDigit c || oneOf "._%+-" c),
      literal (unitsOf "@"),
      .repeated 1 (some 253) (fun c => isLetter c || isDigit c || oneOf ".-" c),
      literal (unitsOf "."), .repeated 2 (some 24) isLetter, .boundary]⟩,
    ⟨unitsOf "phone-e164", sequence [literal (unitsOf "+"), .repeated 7 (some 15) isDigit,
      .boundary]⟩,
    ⟨unitsOf "pan-15-19", sequence [.boundary, .repeated 15 (some 19) isDigit, .boundary]⟩,
    ⟨unitsOf "ipv4-literal", sequence ([.boundary] ++
      (List.replicate 3 [.repeated 1 (some 3) isDigit, literal (unitsOf ".")]).flatten ++
      [.repeated 1 (some 3) isDigit, .boundary])⟩]

/-- What `trim` removes. -/
def isTrimmed (c : UInt16) : Bool :=
  (9 ≤ c && c ≤ 13) || c == 32 || c == 0xa0 || c == 0x1680 || (0x2000 ≤ c && c ≤ 0x200a) ||
    c == 0x2028 || c == 0x2029 || c == 0x202f || c == 0x205f || c == 0x3000 || c == 0xfeff

def trim (t : CodeUnits) : CodeUnits :=
  ((t.dropWhile isTrimmed).reverse.dropWhile isTrimmed).reverse

/-- `TENANT_ADDITION_ID_PATTERN`. -/
def isTenantAdditionId (id : CodeUnits) : Bool :=
  1 ≤ id.length && id.length ≤ 96 &&
    id.all fun c => isLetter c || isDigit c || oneOf "._:-" c

def maxTenantAdditionLiteralChars : Nat :=
  256

/-- `buildTenantAdditionPatterns`; the expression of an escaped literal matches
that literal. -/
def buildTenantAdditionPatterns (additions : List StudioRedactionPatternAddition) :
    List RedactionPattern :=
  additions.filterMap fun addition =>
    if !isTenantAdditionId (trim addition.id) || (trim addition.literal).length == 0 ||
        maxTenantAdditionLiteralChars < (trim addition.literal).length then none
    else some ⟨trim addition.id, literal (trim addition.literal)⟩

end Patterns

section Redaction

structure RedactionMatch where
  id : CodeUnits
  start : Nat
  stop : Nat
  order : Nat
deriving DecidableEq

/-- The matches of one pattern; a match consumes a code unit at least, so the
loop has ended before its fuel has. -/
def patternMatches (rawText : CodeUnits) (pattern : RedactionPattern) (order : Nat) :
    List RedactionMatch :=
  (matchesFrom rawText pattern.regex (rawText.length + 1) 0).filterMap fun found =>
    if found.1 < found.2 then some ⟨pattern.id, found.1, found.2, order⟩ else none

/-- The order of `sort` in `collectMatches`. -/
def comesFirst (a b : RedactionMatch) : Prop :=
  a.start < b.start ∨ a.start = b.start ∧ a.order ≤ b.order

instance : DecidableRel comesFirst :=
  fun a b => inferInstanceAs (Decidable (a.start < b.start ∨ a.start = b.start ∧ a.order ≤ b.order))

/-- `collectMatches`. -/
def collectMatches (rawText : CodeUnits) (patterns : List RedactionPattern) :
    List RedactionMatch :=
  (patterns.zipIdx.flatMap fun indexed =>
    patternMatches rawText indexed.1 indexed.2).insertionSort comesFirst

/-- `rawText.slice`. -/
def slice (rawText : CodeUnits) (start stop : Nat) : CodeUnits :=
  (rawText.take stop).drop start

/-- What the redacted text is put together from. -/
inductive Piece
  | copied (position : Nat)
  | newlineOf (position : Nat)
  | marker (id : CodeUnits)
deriving DecidableEq

/-- The loop of `redactRegion`; `pieces` keeps where its text comes from. -/
structure Redaction where
  cursor : Nat := 0
  redactedText : CodeUnits := []
  appliedMatches : List RedactionMatch := []
  pieces : List Piece := []

def markerText (id : CodeUnits) : CodeUnits :=
  unitsOf "[REDACTED:" ++ id ++ unitsOf "]"

/-- The opening newline is kept of the match of a comment line. -/
def keepsNewline (rawText : CodeUnits) (m : RedactionMatch) : Bool :=
  m.id == piiCommentLine && (slice rawText m.start m.stop).head? == some newline

/-- One round of the loop. -/
def redactMatch (rawText : CodeUnits) (r : Redaction) (m : RedactionMatch) : Redaction :=
  if m.start < r.cursor then r
  else
    { cursor := m.stop
      redactedText := r.redactedText ++ slice rawText r.cursor m.start ++
        if keepsNewline rawText m then newline :: markerText m.id else markerText m.id
      appliedMatches := r.appliedMatches ++ [m]
      pieces := r.pieces ++ (List.range' r.cursor (m.start - r.cursor)).map .copied ++
        if keepsNewline rawText m then [.newlineOf m.start, .marker m.id] else [.marker m.id] }

def redactMatches (rawText : CodeUnits) (found : List RedactionMatch) : Redaction :=
  found.foldl (redactMatch rawText) {}

structure RedactionResult where
  redactedText : CodeUnits
  matchedPatternIds : List CodeUnits

def regionPatterns (tenantAdditions : List StudioRedactionPatternAddition) :
    List RedactionPattern :=
  rawPatterns ++ buildTenantAdditionPatterns tenantAdditions

/-- `redactRegion`. -/
def redactRegion (rawText : CodeUnits) (tenantAdditions : List StudioRedactionPatternAddition) :
    RedactionResult :=
  let r := redactMatches rawText (collectMatches rawText (regionPatterns tenantAdditions))
  { redactedText := r.redactedText ++ rawText.drop r.cursor
    matchedPatternIds := (r.appliedMatches.map RedactionMatch.id).dedup.insertionSort (· ≤ ·) }

end Redaction

end C2c.Studio.PreRedaction
