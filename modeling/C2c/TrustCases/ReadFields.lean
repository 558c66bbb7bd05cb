import C2c.TrustCases.CanonicalTexts

/-!
What the two loaders make of one trust case of the document: the fields both
check against a pattern are the same, the others are the texts their own
trimming leaves.
-/

namespace C2c.TrustCases.ReadFields

open C2c.Library.JavaText hiding trim isTrimmed
open C2c.Library.JsonText
open C2c.Library.GoJson hiding member
open C2c.Library.PythonText
open C2c.TrustCases.Documents
open C2c.TrustCases.BffCatalog
open C2c.TrustCases.OrchestratorCatalog
open C2c.TrustCases.CanonicalTexts

theorem guard_eq_some_iff {p : Prop} [Decidable p] (u : Unit) :
    (guard p : Option Unit) = some u ↔ p := by
  by_cases h : p <;> simp [guard, h]

theorem bind_eq_some_iff {α β : Type} {x : Option α} {f : α → Option β} {b : β} :
    (x >>= f) = some b ↔ ∃ a, x = some a ∧ f a = some b :=
  Option.bind_eq_some_iff

/-! Strings. -/

theorem requireString_spec {value : Option Json} {s : Text} (h : requireString value = some s) :
    ∃ t, value = some (.string t) ∧ s = trim t := by
  unfold requireString at h
  split at h
  · next t =>
      split_ifs at h
      exact ⟨t, rfl, (Option.some.inj h).symm⟩
  · cases h

theorem requiredString_spec {value : Option Json} {s : Text} (h : requiredString value = some s) :
    ∃ t, value = some (.string t) ∧ s = strip t := by
  unfold requiredString at h
  split at h
  · next t =>
      split_ifs at h
      exact ⟨t, rfl, (Option.some.inj h).symm⟩
  · cases h

theorem requireStringMatching_spec {pattern : Text → Bool} {value : Option Json} {s : Text}
    (h : requireStringMatching pattern value = some s) :
    requireString value = some s ∧ pattern s = true :=
  Option.filter_eq_some_iff.mp h

theorem requiredMatching_spec {pattern : Text → Bool} {value : Option Json} {s : Text}
    (h : requiredMatching pattern value = some s) :
    requiredString value = some s ∧ pattern s = true :=
  Option.filter_eq_some_iff.mp h

theorem not_graphic_of_trimmed (c : Char) (h : isTrimmed c = true) : isGraphic c = false := by
  simp only [isTrimmed, Bool.or_eq_true, Bool.and_eq_true, decide_eq_true_eq, beq_iff_eq] at h
  rw [Bool.eq_false_iff, ne_eq, isGraphic, Bool.and_eq_true, decide_eq_true_eq, decide_eq_true_eq]
  omega

theorem not_graphic_of_space (c : Char) (h : C2c.Library.PythonText.isSpace c = true) :
    isGraphic c = false := by
  simp only [C2c.Library.PythonText.isSpace, Bool.or_eq_true, Bool.and_eq_true, decide_eq_true_eq,
    beq_iff_eq] at h
  rw [Bool.eq_false_iff, ne_eq, isGraphic, Bool.and_eq_true, decide_eq_true_eq, decide_eq_true_eq]
  omega

/-- A pattern that only graphic characters match. -/
def GraphicOnly (pattern : Text → Bool) : Prop :=
  ∀ t, pattern t = true → t.all isGraphic = true

/-- Where both patterns ask for graphic characters both services read one text. -/
theorem same_text {pattern pattern' : Text → Bool} (hpattern : GraphicOnly pattern)
    (hpattern' : GraphicOnly pattern') {value : Option Json} {s s' : Text}
    (h : requireStringMatching pattern value = some s)
    (h' : requiredMatching pattern' value = some s') : s = s' := by
  obtain ⟨hread, hmatch⟩ := requireStringMatching_spec h
  obtain ⟨hread', hmatch'⟩ := requiredMatching_spec h'
  obtain ⟨t, rfl, rfl⟩ := requireString_spec hread
  obtain ⟨t', heq, rfl⟩ := requiredString_spec hread'
  obtain rfl := string_injective (Option.some.inj heq)
  exact (filter_trimmed not_graphic_of_trimmed (hpattern _ hmatch)).trans
    (filter_trimmed not_graphic_of_space (hpattern' _ hmatch')).symm

theorem graphicOnly_oneOf {known : List String}
    (h : (known.all fun word => word.toList.all isGraphic) = true) : GraphicOnly (oneOf known) := by
  intro t ht
  obtain ⟨word, hmem, hword⟩ := List.any_eq_true.mp ht
  exact eq_of_beq hword ▸ List.all_eq_true.mp h word hmem

theorem isGraphic_of_class {p : Char → Bool} (hp : ∀ c, p c = true → isGraphic c = true)
    {others : Text} (h : others.all isGraphic = true) (c : Char)
    (hc : (p c || others.contains c) = true) : isGraphic c = true := by
  rcases Bool.or_eq_true .. ▸ hc with hc | hc
  · exact hp c hc
  · exact List.all_eq_true.mp h c (List.contains_iff_mem.mp hc)

theorem graphicOnly_trustCaseId : GraphicOnly BffCatalog.isTrustCaseId := fun _ ht =>
  graphic_of_capitalThen (fun c hc => by
    rcases Bool.or_eq_true .. ▸ hc with hc | hc
    · exact isGraphic_of_upperOrDigit hc
    · rw [eq_of_beq hc]; decide) ht

theorem graphicOnly_safeVersion : GraphicOnly isSafeVersion := fun _ ht =>
  graphic_of_spans (isGraphic_of_class (fun _ => isGraphic_of_alphanumeric) (by decide)) ht

theorem graphicOnly_artifactName : GraphicOnly isArtifactName := fun _ ht =>
  graphic_of_spans (isGraphic_of_class (fun _ => isGraphic_of_alphanumeric) (by decide)) ht

theorem graphicOnly_date : GraphicOnly isDate := by
  intro t ht
  unfold isDate at ht
  split at ht
  · simp only [List.all_cons, List.all_nil, Bool.and_true, Bool.and_eq_true] at ht ⊢
    have hdigit : ∀ {c}, isDigitAscii c = true → isGraphic c = true := fun hc =>
      isGraphic_of_upperOrDigit (by rw [isUpperOrDigit, hc, Bool.or_true])
    obtain ⟨h1, h2, h3, h4, h5, h6, h7, h8⟩ := ht
    exact ⟨hdigit h1, hdigit h2, hdigit h3, hdigit h4, by decide, hdigit h5, hdigit h6, by decide,
      hdigit h7, hdigit h8⟩
  · cases ht

/-! Arrays and objects. -/

theorem elements_spec {value : Option Json} {items : List Json} (h : elements value = some items) :
    value = some (.array items) := by
  unfold elements at h
  split at h
  · rw [Option.some.inj h]
  · cases h

theorem same_texts {accepts accepts' : Text → Bool} {items : List Json} {ts ts' : List Text}
    (h : texts accepts items = some ts) (h' : texts accepts' items = some ts') : ts = ts' :=
  textItems_injective (congrArg Json.array ((texts_spec h).symm.trans (texts_spec h')))

theorem isText_spec {t : String} {value : Option Json} (h : isText t value = true) :
    value = some (.string t.toList) := by
  unfold isText at h
  split at h
  · rw [eq_of_beq h]
  · cases h

theorem requiredMapping_spec {value : Option Json} {v : Json} (h : requiredMapping value = some v) :
    value = some v := by
  unfold requiredMapping at h
  split at h
  · exact h
  · cases h

theorem same_stdin {value : Option Json} {s s' : Option Text} (h : parseStdin value = some s)
    (h' : requiredStdin value = some s') : s = s' := by
  unfold requiredStdin at h'
  split at h'
  · rw [parseStdin] at h
    exact (Option.some.inj h).symm.trans (Option.some.inj h')
  · rw [parseStdin] at h
    split_ifs at h h'
    exact (Option.some.inj h).symm.trans (Option.some.inj h')
  · cases h'

theorem parseVariables_spec {value : Option Json} {entries : List (Text × Text)}
    (h : parseVariables value = some entries) :
    value = some (textEntries entries) ∧
      ∀ entry ∈ entries, isProfileVariableKey entry.1 = true := by
  unfold parseVariables at h
  split at h
  · obtain ⟨rfl, hnames⟩ := textMembers_spec h
    exact ⟨rfl, hnames⟩
  · cases h

theorem same_variables {value : Option Json} {entries entries' : List (Text × Text)}
    (h : parseVariables value = some entries) (h' : requiredVariables value = some entries') :
    entries = entries' := by
  obtain ⟨rfl, -⟩ := parseVariables_spec h
  exact textEntries_injective (congrArg Json.object (textMembers_spec h').1)

end C2c.TrustCases.ReadFields
