import C2c.Orchestrator.DivergenceRecords

/-!
What the status of a divergence decision says of the comparison and of the time.
-/

namespace C2c.Orchestrator.DivergenceStatus

open C2c.Library
open C2c.Library.JavaText
open C2c.Library.JavaObject (bind_eq_ok_iff)
open C2c.Library.PythonText
open C2c.Library.PythonJson
open C2c.Library.PythonNumbers
open C2c.Library.PythonTime
open C2c.Orchestrator.DivergenceDecisions
open C2c.Orchestrator.DivergenceRecords

section Property

variable (whole : Text → Int)

/-- The comparison found a difference. -/
def IsMismatch (parityComparison : Json) : Prop :=
  PythonJson.get parityComparison "matched" = .bool false

/-- A reference of a comparison that names the recorded result, read as the
decisions read their own. -/
def RefersTo (current : Json) (ref : ArtifactReference) : Prop :=
  ∃ payload, artifactReferencePayload whole current "comparisonResultRef" = .ok payload ∧
    payload.uri = ref.uri ∧ payload.sha256 = ref.sha256 ∧ payload.byteSize = ref.byteSize

/-- A time that is not earlier than another. -/
def NotBefore (current' current : Text) : Prop :=
  ∃ x' x, readStamp current' = some x' ∧ readStamp current = some x ∧ x'.atLeast x = some true

/-- What the status of a decision should be. -/
structure IsLawful (clock : Text) (d : IntentionalDivergenceDecision)
    (parityComparison trustSummary : Json) (now : Option Text) : Prop where
  returns : ∃ status, statusFor whole clock d parityComparison trustSummary now = .ok status
  absorbing : statusFor whole clock d parityComparison trustSummary now = .ok .expired →
    ∀ clock' parityComparison' trustSummary' now',
      NotBefore (currentTime clock' now') (currentTime clock now) →
        statusFor whole clock' d parityComparison' trustSummary' now' = .ok .expired
  active : statusFor whole clock d parityComparison trustSummary now = .ok .active →
    IsMismatch parityComparison ∧
      RefersTo whole (PythonJson.get parityComparison "comparisonResultRef") d.comparisonResultRef
  recorded : fromMapping whole d.toDict = .ok d

end Property

section Condition

/-- There is no expiry date, or it has not come. -/
def NotExpired (d : IntentionalDivergenceDecision) (current : Text) : Prop :=
  ∀ expiresAt, d.expiresAt = some expiresAt →
    ∃ x y, readStamp expiresAt = some x ∧ readStamp current = some y ∧ y.atLeast x = some false

/-- A comparison that is looked at up to its reference. -/
structure IsCompared (parityComparison : Json) : Prop where
  mapping : isMapping parityComparison = true
  filled : truthy parityComparison = true
  unmatched : isMatched parityComparison = false
  reference : isMapping (PythonJson.get parityComparison "comparisonResultRef") = true

/-- The reference of the comparison decides about the status. -/
def Reached (d : IntentionalDivergenceDecision) (parityComparison : Json) (current : Text) :
    Prop :=
  NotExpired d current ∧ IsCompared parityComparison

/-- A reference with an address and a digest. -/
def IsNamed (ref : Json) : Prop :=
  strip (strOrEmpty (PythonJson.get ref "uri")) ≠ [] ∧
    strip (strOrEmpty (PythonJson.get ref "sha256")) ≠ []

/-- A filled list or object, or an infinite number. -/
def IsUnsizable : Json → Prop
  | .array items => items ≠ []
  | .object members => members ≠ []
  | .number t => t = "inf".toList ∨ t = "-inf".toList
  | _ => False

/-- Neither absent nor an empty text, list or object. -/
def IsGiven : Json → Prop
  | .null => False
  | .text t => t ≠ []
  | .array items => items ≠ []
  | .object members => members ≠ []
  | _ => True

/-- The expiry date and the time are both aware or both naive; the size in the
reference is nothing that has no size; and a comparison that agrees with the
decision says that it did not match, and gives the size. -/
structure Readable (whole : Text → Int) (d : IntentionalDivergenceDecision)
    (parityComparison trustSummary : Json) (current : Text) : Prop where
  comparable : ∀ expiresAt x y, d.expiresAt = some expiresAt → readStamp expiresAt = some x →
    readStamp current = some y → y.offset.isSome = x.offset.isSome
  sizable : Reached d parityComparison current →
    IsNamed (PythonJson.get parityComparison "comparisonResultRef") →
      ¬ IsUnsizable
        (PythonJson.get (PythonJson.get parityComparison "comparisonResultRef") "byteSize")
  told : Reached d parityComparison current →
    refsMatch whole (PythonJson.get parityComparison "comparisonResultRef")
      d.comparisonResultRef.toJson = .ok true →
    trustStale d trustSummary = false →
      IsMismatch parityComparison ∧
        IsGiven (PythonJson.get (PythonJson.get parityComparison "comparisonResultRef") "byteSize")

end Condition

section Times

variable {d : IntentionalDivergenceDecision} {current : Text}

theorem atLeast_isSome_iff {x y : DateTime} :
    (x.atLeast y).isSome = true ↔ x.offset.isSome = y.offset.isSome := by
  unfold DateTime.atLeast
  split_ifs with h <;> simp [h]

theorem atLeast_trans {x y z : DateTime} (hxy : x.atLeast y = some true)
    (hyz : y.atLeast z = some true) : x.atLeast z = some true := by
  unfold DateTime.atLeast at *
  split_ifs at hxy hyz with h h'
  rw [if_pos (h.trans h')]
  rw [Option.some_inj, decide_eq_true_iff] at *
  omega

theorem expiryStatus_none_iff : expiryStatus d current = .ok none ↔ NotExpired d current := by
  unfold expiryStatus NotExpired
  cases d.expiresAt with
  | none => simp
  | some expiresAt =>
      constructor
      · intro h
        rintro _ ⟨⟩
        dsimp only at h
        split at h
        · next x y hx hy =>
            split at h
            · cases h
            · next hlater => exact ⟨x, y, hx, hy, hlater⟩
            · cases h
        · cases h
      · intro h
        obtain ⟨x, y, hx, hy, hlater⟩ := h expiresAt rfl
        simp only [hx, hy, hlater]

theorem expiryStatus_expired_iff :
    expiryStatus d current = .ok (some .expired) ↔
      ∃ expiresAt x y, d.expiresAt = some expiresAt ∧ readStamp expiresAt = some x ∧
        readStamp current = some y ∧ y.atLeast x = some true := by
  unfold expiryStatus
  cases d.expiresAt with
  | none => simp
  | some expiresAt =>
      constructor
      · intro h
        dsimp only at h
        split at h
        · next x y hx hy =>
            split at h
            · next hlater => exact ⟨expiresAt, x, y, rfl, hx, hy, hlater⟩
            · cases h
            · cases h
        · cases h
      · rintro ⟨_, x, y, ⟨⟩, hx, hy, hlater⟩
        simp only [hx, hy, hlater]

theorem expiryStatus_ne_active : expiryStatus d current ≠ .ok (some .active) := by
  unfold expiryStatus
  split
  · exact nofun
  · split
    · split <;> exact nofun
    · exact nofun

/-- The expiry check raises nothing just where the two times can be compared. -/
theorem expiryStatus_ok_iff :
    (∃ status, expiryStatus d current = .ok status) ↔
      ∀ expiresAt x y, d.expiresAt = some expiresAt → readStamp expiresAt = some x →
        readStamp current = some y → y.offset.isSome = x.offset.isSome := by
  unfold expiryStatus
  cases d.expiresAt with
  | none => simp
  | some expiresAt =>
      constructor
      · rintro ⟨status, h⟩ _ x y ⟨⟩ hx hy
        simp only [hx, hy] at h
        rw [← atLeast_isSome_iff]
        cases hlater : y.atLeast x with
        | none => rw [hlater] at h; cases h
        | some later => rfl
      · intro h
        dsimp only
        split
        · next x y hx hy =>
            have hsome := atLeast_isSome_iff.mpr (h expiresAt x y rfl hx hy)
            cases hlater : y.atLeast x with
            | none => rw [hlater] at hsome; cases hsome
            | some later => cases later <;> exact ⟨_, rfl⟩
        · exact ⟨_, rfl⟩

/-- Once a decision has expired, it is expired at every later time. -/
theorem expiryStatus_later {current' : Text} (h : expiryStatus d current = .ok (some .expired))
    (hlater : NotBefore current' current) : expiryStatus d current' = .ok (some .expired) := by
  obtain ⟨expiresAt, x, y, hexpires, hx, hy, hyx⟩ := expiryStatus_expired_iff.mp h
  obtain ⟨y', y₀, hy', hy₀, hle⟩ := hlater
  obtain rfl := Option.some.inj (hy.symm.trans hy₀)
  exact expiryStatus_expired_iff.mpr ⟨expiresAt, x, y', hexpires, hx, hy', atLeast_trans hle hyx⟩

end Times

section Signatures

variable {whole : Text → Int} {value : Json} {ref : ArtifactReference}

/-- A value whose absence a caller takes for a difference. -/
def IsValueError {A : Type} (x : Except PythonError A) : Prop :=
  ∃ message, x = .error (.valueError message)

theorem nonEmptyText_cases (value : Json) (field : String) :
    (strip (strOrEmpty value) ≠ [] ∧ nonEmptyText value field = .ok (strip (strOrEmpty value))) ∨
      (strip (strOrEmpty value) = [] ∧ IsValueError (nonEmptyText value field)) := by
  unfold nonEmptyText
  by_cases h : strip (strOrEmpty value) = []
  · exact Or.inr ⟨h, _, if_pos h⟩
  · exact Or.inl ⟨h, if_neg h⟩

/-- The name of a field stands in messages only. -/
theorem nonEmptyText_field {t : Text} {field field' : String}
    (h : nonEmptyText value field = .ok t) : nonEmptyText value field' = .ok t := by
  unfold nonEmptyText at h ⊢
  dsimp only at h ⊢
  split_ifs at h ⊢
  exact h

theorem signature_of_named (h : IsNamed value) :
    artifactRefSignature whole value = (signatureSize whole value).map fun n =>
      (strip (strOrEmpty (PythonJson.get value "uri")),
        strip (strOrEmpty (PythonJson.get value "sha256")), n) := by
  obtain ⟨-, huri⟩ | ⟨hempty, -⟩ := nonEmptyText_cases (PythonJson.get value "uri") "ref.uri"
  · obtain ⟨-, hsha⟩ | ⟨hempty, -⟩ :=
      nonEmptyText_cases (PythonJson.get value "sha256") "ref.sha256"
    · rw [artifactRefSignature, huri, hsha]
      cases hsize : signatureSize whole value with
      | error e =>
          simp only [bind, Except.bind, hsize]
          rfl
      | ok n =>
          simp only [bind, Except.bind, hsize]
          rfl
    · exact absurd hempty h.2
  · exact absurd hempty h.1

theorem signature_of_unnamed (h : ¬ IsNamed value) :
    IsValueError (artifactRefSignature whole value) := by
  unfold artifactRefSignature
  obtain ⟨hfilled, huri⟩ | ⟨-, message, huri⟩ :=
    nonEmptyText_cases (PythonJson.get value "uri") "ref.uri"
  · obtain ⟨hfilled', -⟩ | ⟨-, message, hsha⟩ :=
      nonEmptyText_cases (PythonJson.get value "sha256") "ref.sha256"
    · exact absurd ⟨hfilled, hfilled'⟩ h
    · rw [huri, hsha]
      exact ⟨message, rfl⟩
  · rw [huri]
    exact ⟨message, rfl⟩

theorem intOfText_cases (t : Text) :
    (∃ n, intOfText t = .ok n) ∨ IsValueError (intOfText t) := by
  unfold intOfText
  dsimp only
  split
  · split_ifs
    · exact Or.inl ⟨_, rfl⟩
    · exact Or.inl ⟨_, rfl⟩
    · exact Or.inr ⟨_, rfl⟩
  · exact Or.inr ⟨_, rfl⟩

theorem not_isValueError_typeError {A : Type} :
    ¬ IsValueError (.error .typeError : Except PythonError A) := by
  rintro ⟨message, h⟩
  cases h

theorem not_isValueError_overflowError {A : Type} :
    ¬ IsValueError (.error .overflowError : Except PythonError A) := by
  rintro ⟨message, h⟩
  cases h

theorem intOfNumber_cases (whole : Text → Int) (t : Text) :
    (¬ IsUnsizable (.number t) ∧
        ((∃ n, intOf whole (.number t) = .ok n) ∨ IsValueError (intOf whole (.number t)))) ∨
      (IsUnsizable (.number t) ∧ intOf whole (.number t) = .error .overflowError) := by
  have hfloat : (¬ IsUnsizable (.number t) ∧
        ((∃ n, intOfFloat whole t = .ok n) ∨ IsValueError (intOfFloat whole t))) ∨
      (IsUnsizable (.number t) ∧ intOfFloat whole t = .error .overflowError) := by
    unfold intOfFloat IsUnsizable
    split_ifs with hnan hinf
    · refine Or.inl ⟨?_, Or.inr ⟨_, rfl⟩⟩
      rw [hnan]
      decide
    · exact Or.inr ⟨hinf, rfl⟩
    · exact Or.inl ⟨hinf, Or.inl ⟨_, rfl⟩⟩
  have hdigits : ∀ digits : Text, digits.all isDigitAscii = true →
      ¬ IsUnsizable (.number digits) ∧ ¬ IsUnsizable (.number ('-' :: digits)) := by
    intro digits hall
    have hinf : digits ≠ "inf".toList ∧ digits ≠ "-inf".toList := by
      constructor <;> rintro rfl <;> exact absurd hall (by decide)
    refine ⟨not_or.mpr hinf, ?_⟩
    rintro (h | h)
    · cases h
    · exact hinf.1 (List.cons.inj h).2
  unfold intOf
  split
  · next heq => cases heq
  · next digits heq =>
      obtain rfl := Json.number.inj heq
      split_ifs with hall
      · exact Or.inl ⟨(hdigits digits hall.2).2, Or.inl ⟨_, rfl⟩⟩
      · exact hfloat
  · next digits _ heq =>
      obtain rfl := Json.number.inj heq
      split_ifs with hall
      · exact Or.inl ⟨(hdigits t hall.2).1, Or.inl ⟨_, rfl⟩⟩
      · exact hfloat
  all_goals next heq => cases heq

theorem truthy_of_isUnsizable (h : IsUnsizable value) : truthy value = true := by
  cases value with
  | number t => rcases h with rfl | rfl <;> decide
  | array items => simpa [truthy, IsUnsizable] using h
  | object members => simpa [truthy, IsUnsizable] using h
  | _ => exact h.elim

/-- The size of a reference can be taken, or is refused with a `ValueError`, but
for the values that have no size at all. -/
theorem signatureSize_cases (whole : Text → Int) (value : Json) :
    (¬ IsUnsizable (PythonJson.get value "byteSize") ∧
        ((∃ n, signatureSize whole value = .ok n) ∨ IsValueError (signatureSize whole value))) ∨
      (IsUnsizable (PythonJson.get value "byteSize") ∧
        ∃ e, signatureSize whole value = .error e ∧ ¬ IsValueError (signatureSize whole value)) := by
  unfold signatureSize
  by_cases htruthy : truthy (PythonJson.get value "byteSize") = true
  · rw [if_pos htruthy]
    cases hsize : PythonJson.get value "byteSize" with
    | null =>
        rw [hsize] at htruthy
        exact absurd htruthy (by decide)
    | bool b => exact Or.inl ⟨id, Or.inl ⟨_, rfl⟩⟩
    | number t =>
        refine (intOfNumber_cases whole t).imp_right fun h => ⟨h.1, _, h.2, ?_⟩
        rw [h.2]
        exact not_isValueError_overflowError
    | text t => exact Or.inl ⟨id, intOfText_cases t⟩
    | array items =>
        rw [hsize] at htruthy
        exact Or.inr ⟨by simpa [truthy, IsUnsizable] using htruthy, _, rfl, not_isValueError_typeError⟩
    | object members =>
        rw [hsize] at htruthy
        exact Or.inr ⟨by simpa [truthy, IsUnsizable] using htruthy, _, rfl, not_isValueError_typeError⟩
  · rw [if_neg htruthy]
    exact Or.inl ⟨fun h => htruthy (truthy_of_isUnsizable h), Or.inl ⟨0, rfl⟩⟩

theorem signature_cases (whole : Text → Int) (value : Json) :
    (¬ (IsNamed value ∧ IsUnsizable (PythonJson.get value "byteSize")) ∧
        ((∃ s, artifactRefSignature whole value = .ok s) ∨
          IsValueError (artifactRefSignature whole value))) ∨
      ((IsNamed value ∧ IsUnsizable (PythonJson.get value "byteSize")) ∧
        ∃ e, artifactRefSignature whole value = .error e ∧
          ¬ IsValueError (artifactRefSignature whole value)) := by
  by_cases hnamed : IsNamed value
  · rw [signature_of_named hnamed]
    rcases signatureSize_cases whole value with ⟨hsize, ⟨n, hn⟩ | ⟨message, hn⟩⟩ | ⟨hsize, e, he, hne⟩
    · rw [hn]
      exact Or.inl ⟨fun h => hsize h.2, Or.inl ⟨_, rfl⟩⟩
    · rw [hn]
      exact Or.inl ⟨fun h => hsize h.2, Or.inr ⟨message, rfl⟩⟩
    · rw [he] at hne ⊢
      refine Or.inr ⟨⟨hnamed, hsize⟩, e, rfl, ?_⟩
      rintro ⟨message, h⟩
      cases h
      exact hne ⟨message, rfl⟩
  · exact Or.inl ⟨fun h => hnamed h.1, Or.inr (signature_of_unnamed hnamed)⟩

/-- A recorded reference has its own parts for a signature. -/
theorem signature_toJson (whole : Text → Int) (h : NormalReference ref) :
    artifactRefSignature whole ref.toJson = .ok (ref.uri, ref.sha256, (ref.byteSize : Int)) := by
  have hsize : signatureSize whole ref.toJson = .ok (ref.byteSize : Int) := by
    change (if truthy (.number (natText ref.byteSize)) then
      intOf whole (.number (natText ref.byteSize)) else .ok 0) = _
    rw [intOf_natText]
    split_ifs with htruthy
    · rfl
    · have hzero := digitsValue_falsy (falsy_number (Bool.eq_false_iff.mpr htruthy))
        (natText_all ref.byteSize)
      rw [digitsValue_natText] at hzero
      rw [hzero]
      rfl
  unfold artifactRefSignature
  exact bind_eq_ok_iff.mpr ⟨_, nonEmptyText_of_clean h.uri, bind_eq_ok_iff.mpr
    ⟨_, nonEmptyText_of_clean h.sha256, bind_eq_ok_iff.mpr ⟨_, hsize, rfl⟩⟩⟩

theorem refsMatch_eq (h : NormalReference ref) :
    refsMatch whole value ref.toJson =
      match artifactRefSignature whole value with
      | .error (.valueError _) => .ok false
      | .error e => .error e
      | .ok s => .ok (s == (ref.uri, ref.sha256, (ref.byteSize : Int))) := by
  rw [refsMatch, signature_toJson whole h]
  cases artifactRefSignature whole value with
  | ok s => rfl
  | error e => cases e <;> rfl

theorem refsMatch_true_iff (h : NormalReference ref) :
    refsMatch whole value ref.toJson = .ok true ↔
      artifactRefSignature whole value = .ok (ref.uri, ref.sha256, (ref.byteSize : Int)) := by
  rw [refsMatch_eq h]
  cases artifactRefSignature whole value with
  | ok s => simp
  | error e => cases e <;> simp

theorem refsMatch_ok_iff (h : NormalReference ref) :
    (∃ b, refsMatch whole value ref.toJson = .ok b) ↔
      (IsNamed value → ¬ IsUnsizable (PythonJson.get value "byteSize")) := by
  rw [refsMatch_eq h]
  rcases signature_cases whole value with ⟨hsize, ⟨s, hs⟩ | ⟨message, hs⟩⟩ | ⟨hsize, e, he, hne⟩
  · rw [hs]
    exact iff_of_true ⟨_, rfl⟩ fun hnamed hun => hsize ⟨hnamed, hun⟩
  · rw [hs]
    exact iff_of_true ⟨_, rfl⟩ fun hnamed hun => hsize ⟨hnamed, hun⟩
  · rw [he] at hne ⊢
    refine iff_of_false ?_ fun hno => hno hsize.1 hsize.2
    rintro ⟨b, hb⟩
    cases e with
    | valueError message => exact hne ⟨message, rfl⟩
    | typeError => cases hb
    | overflowError => cases hb

theorem isGiven_of_intOf {n : Int} (h : intOf whole value = .ok n) : IsGiven value := by
  cases value with
  | null => cases h
  | bool b => trivial
  | number t => trivial
  | text t =>
      rintro rfl
      cases h
  | array items => cases h
  | object members => cases h

/-- A given size that is false is zero. -/
theorem intOf_of_falsy {whole : WholePart} (hgiven : IsGiven value) (h : truthy value = false) :
    intOf whole.of value = .ok 0 := by
  cases value with
  | null => exact hgiven.elim
  | bool b =>
      obtain rfl : b = false := h
      rfl
  | number t => exact intOf_falsy whole h
  | text t => exact absurd (by simpa [truthy] using h) hgiven
  | array items => exact absurd (by simpa [truthy] using h) hgiven
  | object members => exact absurd (by simpa [truthy] using h) hgiven

/-- A reference that agrees with the recorded one names it, if it gives a size. -/
theorem refersTo_iff {whole : WholePart} (h : NormalReference ref)
    (hmapping : isMapping value = true) (hmatch : refsMatch whole.of value ref.toJson = .ok true) :
    RefersTo whole.of value ref ↔ IsGiven (PythonJson.get value "byteSize") := by
  constructor
  · rintro ⟨payload, hpayload, -⟩
    obtain ⟨-, -, -, -, hsize, -⟩ := artifactReferencePayload_iff.mp hpayload
    exact isGiven_of_intOf hsize
  · intro hgiven
    have hsignature := (refsMatch_true_iff h).mp hmatch
    obtain ⟨uri, huri, hrest⟩ := bind_eq_ok_iff.mp hsignature
    obtain ⟨sha256, hsha256, hrest⟩ := bind_eq_ok_iff.mp hrest
    obtain ⟨n, hn, hrest⟩ := bind_eq_ok_iff.mp hrest
    cases hrest
    have hsize : intOf whole.of (PythonJson.get value "byteSize") = .ok (ref.byteSize : Int) := by
      unfold signatureSize at hn
      split_ifs at hn with htruthy
      · exact hn
      · rw [intOf_of_falsy hgiven (Bool.eq_false_iff.mpr htruthy), ← hn]
    refine ⟨{ ref with optional := optionalOf fun key => strippedText (PythonJson.get value key) },
      artifactReferencePayload_iff.mpr ⟨hmapping, ?_, ?_, h.digest, hsize, rfl⟩, rfl, rfl, rfl⟩
    · exact nonEmptyText_field huri
    · exact nonEmptyText_field hsha256

end Signatures

section Status

variable {whole : Text → Int} {d : IntentionalDivergenceDecision}
  {parityComparison trustSummary : Json}

theorem comparisonStatus_of_compared (h : IsCompared parityComparison) :
    comparisonStatus whole d parityComparison trustSummary =
      (refsMatch whole (PythonJson.get parityComparison "comparisonResultRef")
        d.comparisonResultRef.toJson).map fun same =>
          if same then if trustStale d trustSummary then .stale else .active else .stale := by
  obtain ⟨hmapping, hfilled, hunmatched, href⟩ := h
  unfold comparisonStatus
  rw [if_neg (by simp [hmapping, hfilled]), if_neg (by simp [hunmatched]), if_neg (by simp [href])]
  cases refsMatch whole (PythonJson.get parityComparison "comparisonResultRef")
      d.comparisonResultRef.toJson with
  | error e => rfl
  | ok same =>
      cases same
      · rfl
      · cases htrust : trustStale d trustSummary <;> simp [bind, Except.bind, pure, Except.pure,
          Except.map]

theorem comparisonStatus_of_not_compared (h : ¬ IsCompared parityComparison) :
    comparisonStatus whole d parityComparison trustSummary = .ok .invalid ∨
      comparisonStatus whole d parityComparison trustSummary = .ok .stale := by
  unfold comparisonStatus
  by_cases hgiven : ¬ isMapping parityComparison = true ∨ ¬ truthy parityComparison = true
  · exact Or.inl (if_pos hgiven)
  rw [if_neg hgiven]
  by_cases hmatched : isMatched parityComparison = true
  · exact Or.inl (if_pos hmatched)
  rw [if_neg hmatched]
  by_cases href : ¬ isMapping (PythonJson.get parityComparison "comparisonResultRef") = true
  · exact Or.inr (if_pos href)
  rw [not_or, not_not, not_not] at hgiven
  exact absurd ⟨hgiven.1, hgiven.2, Bool.eq_false_iff.mpr hmatched, not_not.mp href⟩ h

theorem comparisonStatus_ok_iff (h : NormalReference d.comparisonResultRef) :
    (∃ status, comparisonStatus whole d parityComparison trustSummary = .ok status) ↔
      (IsCompared parityComparison →
        IsNamed (PythonJson.get parityComparison "comparisonResultRef") →
          ¬ IsUnsizable (PythonJson.get
            (PythonJson.get parityComparison "comparisonResultRef") "byteSize")) := by
  by_cases hcompared : IsCompared parityComparison
  · rw [comparisonStatus_of_compared hcompared, forall_prop_of_true hcompared,
      ← refsMatch_ok_iff h]
    cases refsMatch whole (PythonJson.get parityComparison "comparisonResultRef")
        d.comparisonResultRef.toJson with
    | error e => simp [Except.map]
    | ok same => simp [Except.map]
  · refine iff_of_true ?_ fun h => absurd h hcompared
    exact (comparisonStatus_of_not_compared hcompared).elim (fun h => ⟨_, h⟩) fun h => ⟨_, h⟩

theorem comparisonStatus_active_iff :
    comparisonStatus whole d parityComparison trustSummary = .ok .active ↔
      IsCompared parityComparison ∧
        refsMatch whole (PythonJson.get parityComparison "comparisonResultRef")
          d.comparisonResultRef.toJson = .ok true ∧
        trustStale d trustSummary = false := by
  by_cases hcompared : IsCompared parityComparison
  · rw [comparisonStatus_of_compared hcompared]
    cases refsMatch whole (PythonJson.get parityComparison "comparisonResultRef")
        d.comparisonResultRef.toJson with
    | error e => simp [Except.map]
    | ok same =>
        cases same <;> cases trustStale d trustSummary <;> simp [Except.map, hcompared]
  · refine iff_of_false ?_ fun h => hcompared h.1
    have hnot : comparisonStatus whole d parityComparison trustSummary = .ok .invalid ∨
        comparisonStatus whole d parityComparison trustSummary = .ok .stale :=
      comparisonStatus_of_not_compared hcompared
    rcases hnot with h | h <;> rw [h] <;> decide

theorem comparisonStatus_ne_expired :
    comparisonStatus whole d parityComparison trustSummary ≠ .ok .expired := by
  by_cases hcompared : IsCompared parityComparison
  · rw [comparisonStatus_of_compared hcompared]
    cases refsMatch whole (PythonJson.get parityComparison "comparisonResultRef")
        d.comparisonResultRef.toJson with
    | error e => simp [Except.map]
    | ok same =>
        cases same <;> cases trustStale d trustSummary <;> simp [Except.map]
  · have hnot : comparisonStatus whole d parityComparison trustSummary = .ok .invalid ∨
        comparisonStatus whole d parityComparison trustSummary = .ok .stale :=
      comparisonStatus_of_not_compared hcompared
    rcases hnot with h | h <;> rw [h] <;> decide

theorem statusFor_ok_iff {clock : Text} {now : Option Text}
    (h : NormalReference d.comparisonResultRef) :
    (∃ status, statusFor whole clock d parityComparison trustSummary now = .ok status) ↔
      (∃ status, expiryStatus d (currentTime clock now) = .ok status) ∧
        (Reached d parityComparison (currentTime clock now) →
          IsNamed (PythonJson.get parityComparison "comparisonResultRef") →
            ¬ IsUnsizable (PythonJson.get
              (PythonJson.get parityComparison "comparisonResultRef") "byteSize")) := by
  unfold statusFor Reached
  rw [← expiryStatus_none_iff]
  cases hexpiry : expiryStatus d (currentTime clock now) with
  | error e => simp [bind, Except.bind]
  | ok settled =>
      cases settled with
      | some status => simp [bind, Except.bind, pure, Except.pure]
      | none =>
          simpa [bind, Except.bind] using comparisonStatus_ok_iff h

theorem statusFor_active_iff {clock : Text} {now : Option Text} :
    statusFor whole clock d parityComparison trustSummary now = .ok .active ↔
      Reached d parityComparison (currentTime clock now) ∧
        refsMatch whole (PythonJson.get parityComparison "comparisonResultRef")
          d.comparisonResultRef.toJson = .ok true ∧
        trustStale d trustSummary = false := by
  unfold statusFor Reached
  rw [← expiryStatus_none_iff, and_assoc, ← comparisonStatus_active_iff]
  cases hexpiry : expiryStatus d (currentTime clock now) with
  | error e => simp [bind, Except.bind]
  | ok settled =>
      cases settled with
      | some status =>
          have hne : status ≠ .active := fun heq => expiryStatus_ne_active (heq ▸ hexpiry)
          simpa [bind, Except.bind, pure, Except.pure] using hne
      | none => simp [bind, Except.bind]

theorem statusFor_expired_iff {clock : Text} {now : Option Text} :
    statusFor whole clock d parityComparison trustSummary now = .ok .expired ↔
      expiryStatus d (currentTime clock now) = .ok (some .expired) := by
  unfold statusFor
  cases expiryStatus d (currentTime clock now) with
  | error e => simp [bind, Except.bind]
  | ok settled =>
      cases settled with
      | some status => simp [bind, Except.bind, pure, Except.pure]
      | none =>
          simpa [bind, Except.bind] using comparisonStatus_ne_expired

end Status

section Lawful

variable {whole : WholePart} {d : IntentionalDivergenceDecision} {payload : Json}

/-- The whole part of a float that is not negative. -/
def wholeDigits : WholePart where
  of t := if truthy (.number t) then digitsValue (t.takeWhile isDigitAscii) else 0
  zero t h := if_neg (by simp [h])

def digest : Text := List.replicate 64 'a'

/-- A recorded decision with the given expiry date. -/
def approval (expiresAt : Option Text) : IntentionalDivergenceDecision where
  decisionId := ['d']
  runId := ['r']
  workflowId := ['w']
  comparisonResultRef := { uri := ['u'], sha256 := digest, byteSize := 3, optional := [] }
  reviewer := { reviewerId := ['p'], displayName := ['P'], role := ['q'] }
  rationale := { summary := ['s'], technicalBasis := ['t'], businessImpact := ['b'],
                 followUp := none }
  linkedEvidenceRefs := [{ uri := ['e'], sha256 := digest, byteSize := 4, optional := [] }]
  affectedOutputs := ["stderr".toList]
  invalidationTriggers := ["expires_at_reached".toList]
  decidedAt := "2024-01-01T00:00:00Z".toList
  expiresAt := expiresAt
  updatedAt := none

def mismatch : Json :=
  .object [("matched".toList, .bool false),
    ("comparisonResultRef".toList, (approval none).comparisonResultRef.toJson)]

end Lawful

end C2c.Orchestrator.DivergenceStatus
