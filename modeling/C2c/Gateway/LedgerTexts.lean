import C2c.Gateway.Accounts
import C2c.Library.JsonStrings

/-!
What of a request can be read off the ledger: the parameters it keeps, and that
records of requests that differ elsewhere are alike.
-/

namespace C2c.Gateway.LedgerTexts

open C2c.Library.JavaText
open C2c.Library.GoText
open C2c.Library.JsonText (Json)
open C2c.Library.GoJson
open C2c.Library.JsonLines
open C2c.Library.Trimming
open C2c.Harness.Events (isHexDigit)
open C2c.Gateway.Ledger
open C2c.Gateway.Policy
open C2c.Gateway.Invocation
open C2c.Gateway.Handler
open C2c.Gateway.Accounts

section Padding

/-- The markers of `isSafeLedgerString`. -/
def secretMarkers : List Text :=
  ["api_key", "apikey", "authorization", "bearer ", "secret", "token", "password", "sk-"].map
    String.toList

/-- A text as the ledger is to keep it. -/
structure Clean (t : Text) : Prop where
  nonempty : t ≠ []
  short : byteLength t ≤ 256
  unbroken : ∀ c ∈ t, c ≠ '\r' ∧ c ≠ '\n' ∧ c ≠ '\t'
  noScheme : contains t "://".toList = false
  noMarker : ∀ marker ∈ secretMarkers, contains (toLower t) marker = false

def leading (t : Text) : Text :=
  t.takeWhile isSpace

def trailing (t : Text) : Text :=
  (t.dropWhile isSpace).rtakeWhile isSpace

/-- The white space around a text breaks no line, makes it no longer than a ledger
text may be, and is no space behind `bearer`. -/
structure PadsHarmlessly (t : Text) : Prop where
  short : byteLength t ≤ 256
  unbroken : ∀ c ∈ leading t ++ trailing t, c ≠ '\r' ∧ c ≠ '\n' ∧ c ≠ '\t'
  noBearer : ¬ ("bearer".toList <:+ toLower (trimSpace t) ∧ (trailing t).head? = some ' ')

theorem eq_padded (t : Text) : t = leading t ++ trimSpace t ++ trailing t := by
  unfold leading trailing trimSpace
  rw [List.append_assoc, List.rdropWhile_append_rtakeWhile, List.takeWhile_append_dropWhile]

theorem isSpace_of_mem_leading {t : Text} {c : Char} (h : c ∈ leading t) : isSpace c = true :=
  List.mem_takeWhile_imp h

theorem isSpace_of_mem_trailing {t : Text} {c : Char} (h : c ∈ trailing t) : isSpace c = true :=
  List.mem_rtakeWhile_imp h

theorem toLower_append (t t' : Text) : toLower (t ++ t') = toLower t ++ toLower t' :=
  List.map_append

/-- White space has no case. -/
theorem toLower_space {t : Text} (h : ∀ c ∈ t, isSpace c = true) : toLower t = t := by
  unfold toLower
  refine (List.map_congr_left fun c hc => ?_).trans (List.map_id t)
  have hspace := h c hc
  simp only [isSpace, Bool.or_eq_true, Bool.and_eq_true, decide_eq_true_eq, beq_iff_eq] at hspace
  rw [if_neg (by omega), if_neg (by omega)]
  unfold Char.toLower
  rw [dif_neg]
  · rfl
  · intro hupper
    have hlow : 65 ≤ c.toNat := hupper.1
    have hhigh : c.toNat ≤ 90 := hupper.2
    omega

section Infixes

variable {A : Type} {pattern before after : List A}

/-- A pattern that begins with no item of a text is not found at its front. -/
theorem infix_of_append_left (h : ∀ a ∈ pattern.head?, a ∉ before)
    (hin : pattern <:+: before ++ after) : pattern <:+: after := by
  cases pattern with
  | nil => exact List.nil_infix
  | cons first rest =>
      have hfirst : first ∉ before := h first rfl
      rcases List.infix_append_iff.mp hin with hin | hin | ⟨front, back, heq, hfront, hback⟩
      · exact absurd (hin.subset List.mem_cons_self) hfirst
      · exact hin
      · cases front with
        | nil =>
            rw [heq, List.nil_append]
            exact hback.isInfix
        | cons other front =>
            obtain ⟨rfl, -⟩ := List.cons.inj heq
            exact absurd (hfront.subset List.mem_cons_self) hfirst

/-- A pattern with no item of a text is not found at its end. -/
theorem infix_of_append_right (h : ∀ a ∈ pattern, a ∉ after)
    (hin : pattern <:+: before ++ after) : pattern <:+: before := by
  rcases List.infix_append_iff.mp hin with hin | hin | ⟨front, back, heq, hfront, hback⟩
  · exact hin
  · cases pattern with
    | nil => exact List.nil_infix
    | cons first rest =>
        exact absurd (hin.subset List.mem_cons_self) (h first List.mem_cons_self)
  · cases back with
    | nil =>
        rw [heq, List.append_nil]
        exact hfront.isInfix
    | cons first rest =>
        have hmem : first ∈ pattern := heq ▸ List.mem_append_right _ List.mem_cons_self
        exact absurd (hback.subset List.mem_cons_self) (h first hmem)

theorem suffix_of_append_left (h : ∀ a ∈ pattern.head?, a ∉ before)
    (hin : pattern <:+ before ++ after) : pattern <:+ after := by
  rcases List.suffix_or_suffix_of_suffix hin (List.suffix_append before after) with hin | hin
  · exact hin
  · obtain ⟨front, rfl⟩ := hin
    cases front with
    | nil => exact List.suffix_refl after
    | cons first front =>
        have hfront := List.suffix_append_self_iff.mp hin
        exact absurd (hfront.subset List.mem_cons_self) (h first rfl)

end Infixes

/-- A pattern without white space is found in a text where it is found in what is
left of it. -/
theorem contains_padded {pattern lead core trail : Text}
    (hpattern : ∀ c ∈ pattern, isSpace c = false) (hlead : ∀ c ∈ lead, isSpace c = true)
    (htrail : ∀ c ∈ trail, isSpace c = true) (h : contains core pattern = false) :
    contains (lead ++ core ++ trail) pattern = false := by
  have happart {c : Char} {padding : Text} (hspaces : ∀ c ∈ padding, isSpace c = true)
      (hc : c ∈ pattern) : c ∉ padding := by
    intro hmem
    have hspace := hspaces c hmem
    rw [hpattern c hc] at hspace
    exact Bool.noConfusion hspace
  rw [← Bool.not_eq_true, contains_iff_infix] at h ⊢
  intro hin
  have hbefore := infix_of_append_right (fun c hc => happart htrail hc) hin
  exact h (infix_of_append_left (fun c hc => happart hlead (List.mem_of_mem_head? hc)) hbefore)

/-- The marker that ends in a space is also found where that space is the first
behind the text. -/
theorem contains_bearer_padded {lead core trail : Text} (hlead : ∀ c ∈ lead, isSpace c = true)
    (htrail : ∀ c ∈ trail, isSpace c = true) (h : contains core "bearer ".toList = false) :
    contains (lead ++ core ++ trail) "bearer ".toList = true ↔
      "bearer".toList <:+ core ∧ trail.head? = some ' ' := by
  have hfirst {padding : Text} (hspaces : ∀ c ∈ padding, isSpace c = true) : 'b' ∉ padding := by
    intro hmem
    exact absurd (hspaces 'b' hmem) (by decide)
  rw [← Bool.not_eq_true, contains_iff_infix] at h
  rw [ contains_iff_infix]
  constructor
  · intro hin
    have hbefore : ¬ "bearer ".toList <:+: lead ++ core := by
      refine fun hin => h (infix_of_append_left (fun c hc => ?_) hin)
      cases hc
      exact hfirst hlead
    rcases List.infix_append_iff.mp hin with hin | hin | ⟨front, back, heq, hfront, hback⟩
    · exact absurd hin hbefore
    · exact absurd (hin.subset (by decide)) (hfirst htrail)
    · obtain ⟨rfl, rfl⟩ : front = "bearer".toList ∧ back = [' '] := by
        have hsplit : front ++ back = "bearer".toList ++ [' '] := heq.symm
        rcases List.append_eq_append_iff.mp hsplit with ⟨rest, hfirst, rfl⟩ | ⟨rest, rfl, hlast⟩
        · cases rest with
          | nil => exact ⟨by rw [hfirst, List.append_nil], rfl⟩
          | cons c rest =>
              have hletters : ∀ c ∈ "bearer".toList, isSpace c = false := by simp [isSpace]
              have hletter := hletters c (hfirst ▸ List.mem_append_right _ List.mem_cons_self)
              have hspace := htrail c (hback.subset List.mem_cons_self)
              exact absurd (hletter.symm.trans hspace) Bool.false_ne_true
        · rcases List.append_eq_singleton_iff.mp hlast.symm with ⟨rfl, rfl⟩ | ⟨rfl, rfl⟩
          · exact ⟨List.append_nil _, rfl⟩
          · exact absurd hfront.isInfix hbefore
      refine ⟨suffix_of_append_left (fun c hc => ?_) hfront, ?_⟩
      · cases hc
        exact hfirst hlead
      · obtain ⟨rest, rfl⟩ := hback
        rfl
  · rintro ⟨hcore, hhead⟩
    obtain ⟨front, rfl⟩ := hcore
    cases trail with
    | nil => cases hhead
    | cons c trail =>
        cases hhead
        refine ⟨lead ++ front, trail, ?_⟩
        simp

/-- A text that passes the check is clean as it stands if its padding is harmless. -/
theorem clean_iff {t : Text} (h : isSafeLedgerString t = true) : Clean t ↔ PadsHarmlessly t := by
  have hlower : toLower t = leading t ++ toLower (trimSpace t) ++ trailing t := by
    conv_lhs => rw [eq_padded t]
    rw [toLower_append, toLower_append, toLower_space fun c => isSpace_of_mem_leading,
      toLower_space fun c => isSpace_of_mem_trailing]
  unfold isSafeLedgerString at h
  simp only [Bool.and_eq_true, Bool.not_eq_true', decide_eq_true_eq, List.any_eq_false,
    Bool.or_eq_true, beq_iff_eq, not_or] at h
  obtain ⟨⟨⟨⟨hnonempty, -⟩, hbreaks⟩, hscheme⟩, hmarkers⟩ := h
  have hmarker (marker : String) (hmem : marker ∈ ["api_key", "apikey", "authorization",
      "bearer ", "secret", "token", "password", "sk-"]) :
      contains (toLower (trimSpace t)) marker.toList = false :=
    Bool.not_eq_true _ ▸ hmarkers marker hmem
  have hbearer := @contains_bearer_padded (leading t) _ (trailing t)
    (fun c => isSpace_of_mem_leading) (fun c => isSpace_of_mem_trailing)
    (hmarker "bearer " (by decide))
  rw [← hlower] at hbearer
  constructor
  · intro hclean
    refine ⟨hclean.short, fun c hc => hclean.unbroken c ?_, fun hends => ?_⟩
    · rw [eq_padded t, List.append_assoc]
      rcases List.mem_append.mp hc with hc | hc
      · exact List.mem_append_left _ hc
      · exact List.mem_append_right _ (List.mem_append_right _ hc)
    · have hfound := hbearer.mpr hends
      rw [hclean.noMarker _ (List.mem_map_of_mem (a := "bearer ") (by simp))] at hfound
      exact Bool.noConfusion hfound
  · intro hpads
    refine ⟨?_, hpads.short, fun c hc => ?_, ?_, fun marker hmem => ?_⟩
    · rintro rfl
      exact hnonempty rfl
    · rw [eq_padded t] at hc
      rcases List.mem_append.mp hc with hc | hc
      · rcases List.mem_append.mp hc with hc | hc
        · exact hpads.unbroken c (List.mem_append_left _ hc)
        · have hc := hbreaks c hc
          exact ⟨hc.1.1, hc.1.2, hc.2⟩
      · exact hpads.unbroken c (List.mem_append_right _ hc)
    · rw [eq_padded t]
      exact contains_padded (by simp [isSpace]) (fun c => isSpace_of_mem_leading)
        (fun c => isSpace_of_mem_trailing) hscheme
    · obtain ⟨name, hname, rfl⟩ := List.mem_map.mp hmem
      by_cases hspace : name = "bearer "
      · subst hspace
        rw [← Bool.not_eq_true, hbearer]
        exact hpads.noBearer
      · rw [hlower]
        have hunspaced : ∀ name ∈ ["api_key", "apikey", "authorization", "bearer ", "secret",
            "token", "password", "sk-"], name ≠ "bearer " →
            ∀ c ∈ name.toList, isSpace c = false := by simp [isSpace]
        exact contains_padded (hunspaced name hname hspace) (fun c => isSpace_of_mem_leading)
          (fun c => isSpace_of_mem_trailing) (hmarker name hname)

end Padding

section Texts

mutual

/-- The strings of a value, the names of its members apart. -/
def textsOf : Json → List Text
  | .string t => [t]
  | .array items => textsOfItems items
  | .object members => textsOfMembers members
  | _ => []

def textsOfItems : List Json → List Text
  | [] => []
  | item :: items => textsOf item ++ textsOfItems items

def textsOfMembers : List (Text × Json) → List Text
  | [] => []
  | (_, value) :: members => textsOf value ++ textsOfMembers members

end

theorem mem_textsOfItems {t : Text} {items : List Json} :
    t ∈ textsOfItems items ↔ ∃ item ∈ items, t ∈ textsOf item := by
  induction items with
  | nil => simp [textsOfItems]
  | cons item items ih => simp only [textsOfItems, List.mem_append, ih, List.mem_cons, exists_eq_or_imp]

theorem mem_textsOfMembers {t : Text} {members : List (Text × Json)} :
    t ∈ textsOfMembers members ↔ ∃ m ∈ members, t ∈ textsOf m.2 := by
  induction members with
  | nil => simp [textsOfMembers]
  | cons m members ih => simp only [textsOfMembers, List.mem_append, ih, List.mem_cons, exists_eq_or_imp]

theorem mem_put_iff {name : Text} {value : Json} {entries : List (Text × Json)}
    (h : name ∉ entries.map Prod.fst) {m : Text × Json} :
    m ∈ put name value entries ↔ m = (name, value) ∨ m ∈ entries := by
  induction entries with
  | nil => simp [put]
  | cons entry entries ih =>
      obtain ⟨other, w⟩ := entry
      rw [List.map_cons, List.mem_cons, not_or] at h
      rw [put]
      split_ifs
      · exact List.mem_cons
      · exact absurd ‹_› h.1
      · rw [List.mem_cons, ih h.2, List.mem_cons, or_left_comm]

/-- Members with names of their own are all assigned. -/
theorem mem_toAnyMembers {members : List (Text × Json)} (hnodup : (members.map Prod.fst).Nodup)
    (hcanonical : ∀ m ∈ members, Canonical m.2) {entries : List (Text × Json)}
    (hapart : ∀ name ∈ members.map Prod.fst, name ∉ entries.map Prod.fst) {m : Text × Json} :
    m ∈ toAnyMembers members entries ↔ m ∈ members ∨ m ∈ entries := by
  induction members generalizing entries with
  | nil => simp [toAnyMembers]
  | cons first members ih =>
      obtain ⟨name, value⟩ := first
      obtain ⟨hfirst, hnodup⟩ := List.nodup_cons.mp hnodup
      obtain ⟨hvalue, hcanonical⟩ := List.forall_mem_cons.mp hcanonical
      have hnew : name ∉ entries.map Prod.fst := hapart name List.mem_cons_self
      rw [toAnyMembers, toAny_canonical hvalue, ih hnodup hcanonical, mem_put_iff hnew,
        List.mem_cons]
      · exact ⟨fun h => by tauto, fun h => by tauto⟩
      · intro other hother hmem
        rcases Library.JsonStrings.mem_names_put.mp hmem with rfl | hmem
        · exact hfirst hother
        · exact hapart other (List.mem_cons_of_mem _ hother) hmem

theorem mem_textsOf_ofMembers {members : List (Text × Json)}
    (hnodup : (members.map Prod.fst).Nodup) (hcanonical : ∀ m ∈ members, Canonical m.2) {t : Text} :
    t ∈ textsOf (AnyMap.ofMembers members).json ↔ ∃ m ∈ members, t ∈ textsOf m.2 := by
  show t ∈ textsOfMembers (toAnyMembers members []) ↔ _
  rw [mem_textsOfMembers]
  have hall := fun m => @mem_toAnyMembers members hnodup hcanonical []
    (fun _ _ hmem => absurd hmem List.not_mem_nil) m
  simp only [hall, List.not_mem_nil, or_false]

/-- The text of a member that passes a check. -/
def memberText (raw : List (Text × Json)) (name : String) (safe : Text → Bool) : List Text :=
  match raw.lookup name.toList with
  | some (.string t) => if safe t then [t] else []
  | _ => []

/-- The texts of a reference that pass their checks. -/
def referenceTexts : Json → List Text
  | .object raw => memberText raw "uri" isSafeLedgerURI ++
      memberText raw "sha256" (fun sha => byteLength sha = 64 && sha.all isHexDigit) ++
      memberText raw "kind" isSafeLedgerString
  | _ => []

/-- The texts of a parameter that pass the checks of the ledger. -/
def ledgerTexts (key : Text) (value : Json) : List Text :=
  if key ∈ ["runId", "promptTemplateId", "failureCategory"].map String.toList then
    match value with
    | .string t => if isSafeLedgerString t then [t] else []
    | _ => []
  else if key ∈ ["sourceRef", "semanticIrRef", "baselineJavaRef", "oracleRef",
      "previousJavaCandidateRef", "buildTestResultRef"].map String.toList then
    referenceTexts value
  else if key = "previousRepairDecisionRefs".toList then
    match value with
    | .array raw => raw.flatMap referenceTexts
    | _ => []
  else []

theorem texts_keepText {safe : Text → Bool} {v : Json} {t : Text} :
    (∃ kept ∈ keepText safe v, t ∈ textsOf kept) ↔ v = .string t ∧ safe t = true := by
  cases v <;> simp only [keepText, Option.mem_def, reduceCtorEq, false_and, exists_false]
  rename_i text
  split_ifs with hsafe
  · simp only [Option.some.injEq, exists_eq_left', textsOf, List.mem_singleton, Json.string.injEq]
    exact ⟨fun h => ⟨h.symm, h ▸ hsafe⟩, fun h => h.1.symm⟩
  · simp only [false_and, exists_false, Json.string.injEq, false_iff]
    rintro ⟨rfl, h⟩
    exact hsafe h

theorem texts_ledgerNumber {v : Json} {t : Text} :
    ¬ ∃ kept ∈ ledgerNumber v, t ∈ textsOf kept := by
  cases v <;> simp [ledgerNumber, textsOf]

theorem mem_memberText {raw : List (Text × Json)} {name : String} {safe : Text → Bool} {t : Text} :
    t ∈ memberText raw name safe ↔ raw.lookup name.toList = some (.string t) ∧ safe t = true := by
  unfold memberText
  split
  · next text hlookup =>
      rw [hlookup]
      split_ifs with hsafe
      · simp only [List.mem_singleton, Option.some.injEq, Json.string.injEq]
        exact ⟨fun h => ⟨h.symm, h ▸ hsafe⟩, fun h => h.1.symm⟩
      · simp only [List.not_mem_nil, Option.some.injEq, Json.string.injEq, false_iff]
        rintro ⟨rfl, h⟩
        exact hsafe h
  · next hother =>
      simp only [List.not_mem_nil, false_iff]
      rintro ⟨hlookup, -⟩
      exact hother t hlookup

theorem mem_referenceMember {raw : List (Text × Json)} {name : String}
    {keep : Json → Option Json} {m : Text × Json} :
    m ∈ referenceMember raw name keep ↔
      m.1 = name.toList ∧ m.2 ∈ (raw.lookup name.toList).bind keep := by
  obtain ⟨key, value⟩ := m
  unfold referenceMember
  simp only [Option.mem_def, Option.map_eq_some_iff, Prod.mk.injEq]
  constructor
  · rintro ⟨kept, hkept, rfl, rfl⟩
    exact ⟨rfl, hkept⟩
  · rintro ⟨rfl, hkept⟩
    exact ⟨value, hkept, rfl, rfl⟩

theorem texts_referenceMember {raw : List (Text × Json)} {name : String} {safe : Text → Bool}
    {t : Text} : (∃ m ∈ referenceMember raw name (keepText safe), t ∈ textsOf m.2) ↔
      t ∈ memberText raw name safe := by
  rw [mem_memberText]
  constructor
  · rintro ⟨m, hm, ht⟩
    obtain ⟨v, hv, hkept⟩ := Option.bind_eq_some_iff.mp (mem_referenceMember.mp hm).2
    obtain ⟨rfl, hsafe⟩ := texts_keepText.mp ⟨m.2, hkept, ht⟩
    exact ⟨hv, hsafe⟩
  · rintro ⟨hlookup, hsafe⟩
    obtain ⟨kept, hkept, ht⟩ := texts_keepText.mpr ⟨rfl, hsafe⟩
    refine ⟨(name.toList, kept), mem_referenceMember.mpr ⟨rfl, ?_⟩, ht⟩
    rw [hlookup]
    exact hkept

/-- The members of a reference that are kept. -/
def keptMembers (raw : List (Text × Json)) : List (Text × Json) :=
  [referenceMember raw "uri" (keepText isSafeLedgerURI),
    referenceMember raw "sha256" (keepText fun sha => byteLength sha = 64 && sha.all isHexDigit),
    referenceMember raw "byteSize" ledgerNumber,
    referenceMember raw "kind" (keepText isSafeLedgerString)].filterMap id

theorem names_sublist {names : List Text} {slots : List (Option (Text × Json))}
    (h : List.Forall₂ (fun name slot => ∀ m ∈ slot, m.1 = name) names slots) :
    ((slots.filterMap id).map Prod.fst).Sublist names := by
  induction h with
  | nil => exact List.Sublist.slnil
  | @cons name slot names slots hslot _ ih =>
      cases slot with
      | none => exact ih.cons name
      | some m =>
          rw [← hslot m rfl]
          exact ih.cons_cons m.1

theorem names_keptMembers (raw : List (Text × Json)) : ((keptMembers raw).map Prod.fst).Nodup := by
  have hname {name : String} {keep : Json → Option Json} :
      ∀ m ∈ referenceMember raw name keep, m.1 = name.toList :=
    fun m hm => (mem_referenceMember.mp hm).1
  have hnames : ((keptMembers raw).map Prod.fst).Sublist
      (["uri", "sha256", "byteSize", "kind"].map String.toList) :=
    names_sublist (.cons hname (.cons hname (.cons hname (.cons hname .nil))))
  exact List.Nodup.sublist hnames (by simp)

theorem canonical_keepText {safe : Text → Bool} {v kept : Json} (h : kept ∈ keepText safe v) :
    Canonical kept := by
  cases v <;> simp only [keepText, Option.mem_def, reduceCtorEq] at h
  split_ifs at h
  cases h
  trivial

theorem canonical_ledgerNumber {v kept : Json} (h : kept ∈ ledgerNumber v) : Canonical kept := by
  cases v <;> cases h
  trivial

theorem canonical_keptMembers {raw : List (Text × Json)} :
    ∀ m ∈ keptMembers raw, Canonical m.2 := by
  intro m hm
  obtain ⟨slot, hslot, rfl⟩ := List.mem_filterMap.mp hm
  have hkept {name : String} {keep : Json → Option Json}
      (hcanonical : ∀ {v kept : Json}, kept ∈ keep v → Canonical kept)
      (hmem : m ∈ referenceMember raw name keep) : Canonical m.2 := by
    obtain ⟨v, -, hv⟩ := Option.bind_eq_some_iff.mp (mem_referenceMember.mp hmem).2
    exact hcanonical hv
  simp only [List.mem_cons, List.not_mem_nil, or_false] at hslot
  rcases hslot with hslot | hslot | hslot | hslot
  · exact hkept canonical_keepText hslot.symm
  · exact hkept canonical_keepText hslot.symm
  · exact hkept canonical_ledgerNumber hslot.symm
  · exact hkept canonical_keepText hslot.symm

theorem texts_keptMembers {raw : List (Text × Json)} {t : Text} :
    (∃ m ∈ keptMembers raw, t ∈ textsOf m.2) ↔ t ∈ referenceTexts (.object raw) := by
  have hsize : ¬ ∃ m ∈ referenceMember raw "byteSize" ledgerNumber, t ∈ textsOf m.2 := by
    rintro ⟨m, hm, ht⟩
    obtain ⟨v, -, hv⟩ := Option.bind_eq_some_iff.mp (mem_referenceMember.mp hm).2
    exact texts_ledgerNumber ⟨m.2, hv, ht⟩
  unfold referenceTexts
  rw [List.mem_append, List.mem_append, ← texts_referenceMember, ← texts_referenceMember,
    ← texts_referenceMember]
  unfold keptMembers
  simp only [List.mem_filterMap, List.mem_cons, List.not_mem_nil, or_false, id_eq,
    exists_eq_or_imp, exists_eq_left, Option.mem_def] at hsize ⊢
  constructor
  · rintro ⟨m, hm | hm | hm | hm, ht⟩
    · exact Or.inl (Or.inl ⟨m, hm, ht⟩)
    · exact Or.inl (Or.inr ⟨m, hm, ht⟩)
    · exact absurd ⟨m, hm, ht⟩ hsize
    · exact Or.inr ⟨m, hm, ht⟩
  · rintro ((⟨m, hm, ht⟩ | ⟨m, hm, ht⟩) | ⟨m, hm, ht⟩)
    · exact ⟨m, Or.inl hm, ht⟩
    · exact ⟨m, Or.inr (Or.inl hm), ht⟩
    · exact ⟨m, Or.inr (Or.inr (Or.inr hm)), ht⟩

theorem texts_sanitizeLedgerReference {v : Json} {t : Text} :
    (∃ ref ∈ sanitizeLedgerReference v, t ∈ textsOf ref) ↔ t ∈ referenceTexts v := by
  cases v with
  | object raw =>
      have hkept := mem_textsOf_ofMembers (t := t) (names_keptMembers raw) canonical_keptMembers
      rw [← texts_keptMembers, ← hkept]
      show (∃ ref ∈ if keptMembers raw = [] then none
        else some (AnyMap.ofMembers (keptMembers raw)).json, _) ↔ _
      split_ifs with hnil
      · rw [hkept, hnil]
        simp
      · simp
  | _ => simp [sanitizeLedgerReference, referenceTexts]

theorem canonical_sanitizeLedgerReference {v ref : Json} (h : ref ∈ sanitizeLedgerReference v) :
    Canonical ref := by
  cases v with
  | object raw =>
      unfold sanitizeLedgerReference at h
      dsimp only at h
      split_ifs at h
      · cases h
      · cases h
        exact AnyMap.canonical _
  | _ => cases h

theorem texts_sanitizeLedgerReferenceList {v : Json} {t : Text} :
    (∃ refs ∈ sanitizeLedgerReferenceList v, t ∈ textsOf refs) ↔
      ∃ raw, v = .array raw ∧ t ∈ raw.flatMap referenceTexts := by
  cases v with
  | array raw =>
      have hitems : (∃ ref ∈ raw.filterMap sanitizeLedgerReference, t ∈ textsOf ref) ↔
          t ∈ raw.flatMap referenceTexts := by
        simp only [List.mem_filterMap, List.mem_flatMap, ← texts_sanitizeLedgerReference]
        constructor
        · rintro ⟨ref, ⟨v, hv, href⟩, ht⟩
          exact ⟨v, hv, ref, href, ht⟩
        · rintro ⟨v, hv, ref, href, ht⟩
          exact ⟨ref, ⟨v, hv, href⟩, ht⟩
      simp only [Json.array.injEq, exists_eq_left']
      rw [← hitems]
      unfold sanitizeLedgerReferenceList
      dsimp only
      split_ifs with hnil
      · rw [hnil]
        simp
      · simp only [Option.mem_some_iff, exists_eq_left', textsOf, mem_textsOfItems]
  | _ => simp [sanitizeLedgerReferenceList]

theorem canonicalItems_iff (items : List Json) :
    CanonicalItems items ↔ ∀ item ∈ items, Canonical item := by
  induction items with
  | nil => simp [CanonicalItems]
  | cons item items ih => rw [CanonicalItems, ih, List.forall_mem_cons]

theorem canonical_ledgerParameter {key : Text} {v kept : Json}
    (h : kept ∈ ledgerParameter key v) : Canonical kept := by
  unfold ledgerParameter at h
  split_ifs at h
  · exact canonical_ledgerNumber h
  · exact canonical_keepText h
  · exact canonical_sanitizeLedgerReference h
  · cases v <;> try cases h
    unfold sanitizeLedgerReferenceList at h
    dsimp only at h
    split_ifs at h
    · cases h
    · cases h
      refine (canonicalItems_iff _).mpr fun ref href => ?_
      obtain ⟨raw, -, hraw⟩ := List.mem_filterMap.mp href
      exact canonical_sanitizeLedgerReference hraw
  · cases h

theorem texts_ledgerParameter {key : Text} {v : Json} {t : Text} :
    (∃ kept ∈ ledgerParameter key v, t ∈ textsOf kept) ↔ t ∈ ledgerTexts key v := by
  have happart : ∀ key ∈ ["temperature", "max_tokens", "attemptNumber",
      "repairBudgetRemaining"].map String.toList, ledgerTexts key v = [] := by
    intro key hkey
    simp only [List.map_cons, List.map_nil, List.mem_cons, List.not_mem_nil, or_false] at hkey
    rcases hkey with rfl | rfl | rfl | rfl <;> rfl
  unfold ledgerParameter
  split_ifs with hnumber htext href hlist
  · rw [happart key hnumber]
    exact iff_of_false texts_ledgerNumber List.not_mem_nil
  · unfold ledgerTexts
    rw [if_pos htext, texts_keepText]
    cases v with
    | string text =>
        rw [Json.string.injEq, List.mem_ite_nil_right, List.mem_singleton]
        exact ⟨fun h => ⟨h.1 ▸ h.2, h.1.symm⟩, fun h => ⟨h.2.symm, h.2 ▸ h.1⟩⟩
    | _ => simp
  · unfold ledgerTexts
    rw [if_neg htext, if_pos href]
    exact texts_sanitizeLedgerReference
  · unfold ledgerTexts
    rw [if_neg htext, if_neg href, if_pos hlist, texts_sanitizeLedgerReferenceList]
    cases v <;> simp
  · unfold ledgerTexts
    rw [if_neg htext, if_neg href, if_neg hlist]
    simp

/-- The texts the ledger keeps of the parameters of a request. -/
theorem texts_sanitizeLedgerParameters {parameters : AnyMap} {t : Text} :
    t ∈ textsOf (sanitizeLedgerParameters parameters).json ↔
      ∃ entry ∈ parameters.entries, t ∈ ledgerTexts entry.1 entry.2 := by
  have hkept (m : Text × Json) :
      m ∈ (parameters.entries.filterMap fun entry =>
        (ledgerParameter entry.1 entry.2).map fun value => (entry.1, value)) ↔
      ∃ entry ∈ parameters.entries, m.1 = entry.1 ∧ m.2 ∈ ledgerParameter entry.1 entry.2 := by
    obtain ⟨key, value⟩ := m
    simp only [List.mem_filterMap, Option.map_eq_some_iff, Prod.mk.injEq, Option.mem_def]
    constructor
    · rintro ⟨entry, hentry, kept, hkept, rfl, rfl⟩
      exact ⟨entry, hentry, rfl, hkept⟩
    · rintro ⟨entry, hentry, rfl, hkept⟩
      exact ⟨entry, hentry, value, hkept, rfl, rfl⟩
  have hnames : ((parameters.entries.filterMap fun entry =>
      (ledgerParameter entry.1 entry.2).map fun value => (entry.1, value)).map Prod.fst).Nodup := by
    have hsorted : (parameters.entries.map Prod.fst).Nodup :=
      parameters.canonical.1.imp fun hlt => ne_of_lt hlt
    have hnames := @names_sublist (parameters.entries.map Prod.fst)
      (parameters.entries.map fun entry =>
        (ledgerParameter entry.1 entry.2).map fun value => (entry.1, value)) (by
      rw [List.forall₂_map_left_iff, List.forall₂_map_right_iff, List.forall₂_same]
      intro entry _ m hm
      obtain ⟨value, -, rfl⟩ := Option.map_eq_some_iff.mp hm
      rfl)
    rw [List.filterMap_map] at hnames
    exact hsorted.sublist hnames
  unfold sanitizeLedgerParameters
  rw [mem_textsOf_ofMembers hnames]
  · simp only [hkept, ← texts_ledgerParameter]
    constructor
    · rintro ⟨m, ⟨entry, hentry, -, hm⟩, ht⟩
      exact ⟨entry, hentry, m.2, hm, ht⟩
    · rintro ⟨entry, hentry, value, hvalue, ht⟩
      exact ⟨(entry.1, value), ⟨entry, hentry, rfl, hvalue⟩, ht⟩
  · intro m hm
    obtain ⟨entry, -, -, hvalue⟩ := (hkept m).mp hm
    exact canonical_ledgerParameter hvalue

def lowerHexDigits : List Char :=
  ['0', '1', '2', '3', '4', '5', '6', '7', '8', '9', 'a', 'b', 'c', 'd', 'e', 'f']

theorem hexDigit_cases {c : Char} (h : isHexDigit c = true) :
    c ∈ lowerHexDigits ++ ['A', 'B', 'C', 'D', 'E', 'F'] := by
  have hvalue : 48 ≤ c.toNat ∧ c.toNat ≤ 57 ∨ 97 ≤ c.toNat ∧ c.toNat ≤ 102 ∨
      65 ≤ c.toNat ∧ c.toNat ≤ 70 := by
    simp only [isHexDigit, isDigitAscii, Bool.or_eq_true, Bool.and_eq_true, decide_eq_true_eq,
      Char.le_def, UInt32.le_iff_toNat_le] at h
    rcases h with (h | h) | h
    · exact Or.inl h
    · exact Or.inr (Or.inl h)
    · exact Or.inr (Or.inr h)
  rw [← Char.ofNat_toNat c]
  rcases hvalue with ⟨hlow, hhigh⟩ | ⟨hlow, hhigh⟩ | ⟨hlow, hhigh⟩ <;>
    interval_cases c.toNat <;> decide

theorem toLower_hex {t : Text} (h : t.all isHexDigit = true) {c : Char} (hc : c ∈ toLower t) :
    c ∈ lowerHexDigits := by
  obtain ⟨d, hd, rfl⟩ := List.mem_map.mp hc
  have hall : ((lowerHexDigits ++ ['A', 'B', 'C', 'D', 'E', 'F']).all fun d =>
      decide ((if d.toNat = 0x212a then 'k' else if d.toNat = 0x130 then 'i' else d.toLower) ∈
        lowerHexDigits)) = true := by decide
  exact of_decide_eq_true
    (List.all_eq_true.mp hall d (hexDigit_cases (List.all_eq_true.mp h d hd)))

/-- A text of hexadecimal digits passes the check of the ledger's strings. -/
theorem isSafeLedgerString_of_hex {t : Text} (hlength : byteLength t = 64)
    (hdigits : t.all isHexDigit = true) : isSafeLedgerString t = true := by
  have hall : ((lowerHexDigits ++ ['A', 'B', 'C', 'D', 'E', 'F']).all fun c =>
      decide (isSpace c = false ∧ c ≠ '\r' ∧ c ≠ '\n' ∧ c ≠ '\t' ∧ c ≠ ':')) = true := by decide
  have hdigit (c : Char) (hc : c ∈ t) := of_decide_eq_true
    (List.all_eq_true.mp hall c (hexDigit_cases (List.all_eq_true.mp hdigits c hc)))
  have htrim : trimSpace t = t := by
    have hnone {part : Text} (hspaces : ∀ c ∈ part, isSpace c = true) (hpart : part ⊆ t) :
        part = [] := by
      refine List.eq_nil_iff_forall_not_mem.mpr fun c hc => ?_
      exact absurd ((hdigit c (hpart hc)).1.symm.trans (hspaces c hc)) Bool.false_ne_true
    have hlead : leading t = [] := hnone (fun c => isSpace_of_mem_leading)
      (List.takeWhile_prefix isSpace).subset
    have htrail : trailing t = [] := hnone (fun c => isSpace_of_mem_trailing)
      ((List.rtakeWhile_suffix isSpace _).trans (List.dropWhile_suffix isSpace)).subset
    have hpadded := eq_padded t
    rw [hlead, htrail, List.nil_append, List.append_nil] at hpadded
    exact hpadded.symm
  have hnonempty : t ≠ [] := by
    rintro rfl
    cases hlength
  have hmarkers : ∀ marker ∈ ["api_key", "apikey", "authorization", "bearer ", "secret", "token",
      "password", "sk-"], ∃ c ∈ marker.toList, c ∉ lowerHexDigits := by simp [lowerHexDigits]
  unfold isSafeLedgerString
  dsimp only
  rw [htrim, hlength]
  simp only [Bool.and_eq_true, Bool.not_eq_true', decide_eq_true_eq, List.any_eq_false,
    Bool.or_eq_true, beq_iff_eq, not_or]
  refine ⟨⟨⟨⟨hnonempty, by omega⟩, fun c hc => ?_⟩, ?_⟩, fun marker hmarker hin => ?_⟩
  · have hc := hdigit c hc
    exact ⟨⟨hc.2.1, hc.2.2.1⟩, hc.2.2.2.1⟩
  · rw [← Bool.not_eq_true, contains_iff_infix]
    exact fun hin => (hdigit ':' (hin.subset (by simp))).2.2.2.2 rfl
  · obtain ⟨c, hc, hnot⟩ := hmarkers marker hmarker
    exact hnot (toLower_hex hdigits ((( contains_iff_infix _ _).mp hin).subset hc))

theorem isSafe_of_mem_referenceTexts {v : Json} {t : Text} (h : t ∈ referenceTexts v) :
    isSafeLedgerString t = true := by
  cases v with
  | object raw =>
      unfold referenceTexts at h
      rw [List.mem_append, List.mem_append, mem_memberText, mem_memberText, mem_memberText] at h
      rcases h with (⟨-, h⟩ | ⟨-, h⟩) | ⟨-, h⟩
      · unfold isSafeLedgerURI at h
        have hsafe := (Bool.and_eq_true_iff.mp h).2
        unfold isSafeLedgerString at hsafe ⊢
        rwa [trimSpace_trimSpace] at hsafe
      · rw [Bool.and_eq_true, decide_eq_true_eq] at h
        exact isSafeLedgerString_of_hex h.1 h.2
      · exact h
  | _ => cases h

theorem isSafe_of_mem_ledgerTexts {key : Text} {v : Json} {t : Text}
    (h : t ∈ ledgerTexts key v) : isSafeLedgerString t = true := by
  unfold ledgerTexts at h
  split_ifs at h
  · cases v with
    | string text =>
        rw [List.mem_ite_nil_right, List.mem_singleton] at h
        exact h.2 ▸ h.1
    | _ => cases h
  · exact isSafe_of_mem_referenceTexts h
  · cases v with
    | array raw =>
        obtain ⟨v, -, ht⟩ := List.mem_flatMap.mp h
        exact isSafe_of_mem_referenceTexts ht
    | _ => cases h
  · cases h

end Texts

section Records

/-- The parameters that the ledger may keep. -/
def ledgerKeys : List Text :=
  ["temperature", "max_tokens", "attemptNumber", "repairBudgetRemaining"].map String.toList ++
    ["runId", "promptTemplateId", "failureCategory"].map String.toList ++
    ["sourceRef", "semanticIrRef", "baselineJavaRef", "oracleRef", "previousJavaCandidateRef",
      "buildTestResultRef"].map String.toList ++ ["previousRepairDecisionRefs".toList]

/-- Requests that differ in the prompt, the schema and other parameters only. -/
structure Alike (r r' : ModelInvocationRequest) : Prop where
  runID : r.runID = r'.runID
  modelID : r.modelID = r'.modelID
  actor : r.actor = r'.actor
  agentRole : r.agentRole = r'.agentRole
  dataClass : r.dataClass = r'.dataClass
  promptTemplateVersion : r.promptTemplateVersion = r'.promptTemplateVersion
  structuredOutput : r.structuredOutput = r'.structuredOutput
  timeoutMs : r.timeoutMs = r'.timeoutMs
  parameters : (r.parameters.entries.filter fun entry => decide (entry.1 ∈ ledgerKeys)) =
    r'.parameters.entries.filter fun entry => decide (entry.1 ∈ ledgerKeys)

/-- The provider of the same model has given the same output or error. -/
structure SameOutput (env env' : Environment) (a a' : Attempt) : Prop where
  model : a.selected.model = a'.selected.model
  result : a.result = a'.result
  expired : a.result.failed = true → env.expiredAtEnd = env'.expiredAtEnd

variable (quote : Text → Text) (s : ModelGatewayService)

def validated (env : Environment) (request : ModelInvocationRequest) :
    Except ModelGatewayValidationError ValidatedInvocation :=
  validateInvocation quote s (env.validatedAt 0) request (computeSHA256Ref request.json)

def attempt (env : Environment) (request : ModelInvocationRequest) (v : ValidatedInvocation) :
    Attempt :=
  (callProviders quote s env request (computeSHA256Ref request.json) v).2

/-- Two requests get the same output, or are refused alike. -/
def GetSame (env env' : Environment) (request request' : ModelInvocationRequest) : Prop :=
  match validated quote s env request, validated quote s env' request' with
  | .ok v, .ok v' => SameOutput env env' (attempt quote s env request v)
      (attempt quote s env' request' v')
  | .error e, .error e' => e = e'
  | _, _ => False

/-- What a record says apart from the references, the ids and the times. -/
def unstamped (record : ModelInvocationLedgerV0) : ModelInvocationLedgerV0 :=
  { record with
    invocationId := []
    requestRef := {}
    outputRef := {}
    latencyMs := 0
    createdAt := .zero }

def Appends (before : GatewayState) (handled : Handled) (record : ModelInvocationLedgerV0) : Prop :=
  handled.state.ledger.records = before.ledger.records ++ [record]

variable {quote s}

theorem eq_of_appendLedgerRecord {env : Environment} {ledger next : Log ModelInvocationLedgerV0}
    {record other : ModelInvocationLedgerV0}
    (h : appendLedgerRecord s env ledger record = .ok next)
    (hnext : next.records = ledger.records ++ [other]) : other = record := by
  have hunchanged : next = ledger → other = record := by
    rintro rfl
    have hlength := congrArg List.length hnext
    simp at hlength
  unfold appendLedgerRecord append modelInvocationLedger Format.checked at h
  split at h
  · exact hunchanged (Except.ok.inj h).symm
  · dsimp only at h
    cases hvalid : record.validate with
    | some e =>
        rw [hvalid] at h
        cases h
    | none =>
        rw [hvalid] at h
        cases hjson : record.json with
        | none =>
            simp only [hjson] at h
            cases h
        | some v =>
            simp only [hjson] at h
            split_ifs at h
            cases h
            exact (List.singleton_inj.mp (List.append_cancel_left hnext)).symm

/-- The record that a handled request has appended. -/
theorem eq_of_appends_finish {env : Environment} {state before : GatewayState}
    (hbefore : state.ledger = before.ledger) {requestRef : DataReference} {invocationID : Text}
    {calls : List Call} {attempt : Attempt} {record : ModelInvocationLedgerV0}
    (h : Appends before (finish s env state requestRef invocationID calls attempt) record) :
    let result := resultOf invocationID env.expiredAtEnd attempt.result
    record = invokedRecord s env attempt.selected invocationID result
      (computeSHA256Ref result.data.json) := by
  have hunchanged (hledger : before.ledger.records = before.ledger.records ++ [record]) : False := by
    have hlength := congrArg List.length hledger
    simp at hlength
  unfold Appends finish at h
  dsimp only at h ⊢
  split at h
  · exact (hunchanged (hbefore ▸ h)).elim
  · split at h
    · exact (hunchanged (hbefore ▸ h)).elim
    · next happend => exact eq_of_appendLedgerRecord happend (hbefore ▸ h)

theorem eq_of_appends_reject {env : Environment} {state before : GatewayState}
    (hbefore : state.ledger = before.ledger) {request : ModelInvocationRequest}
    {requestRef : DataReference} {invocationID : Text} {e : ModelGatewayValidationError}
    {record : ModelInvocationLedgerV0}
    (h : Appends before (reject s env state request requestRef invocationID e) record) :
    record = rejectedRecord s env request requestRef invocationID e
      (computeSHA256Ref (rejectedOutput invocationID e).json) := by
  unfold Appends reject at h
  dsimp only at h
  split at h
  · have hlength := congrArg List.length (hbefore ▸ h)
    simp at hlength
  · next happend => exact eq_of_appendLedgerRecord happend (hbefore ▸ h)

theorem selected_attempt {env : Environment} {request : ModelInvocationRequest}
    {v : ValidatedInvocation} (h : validated quote s env request = .ok v) :
    Selected s request request.json (attempt quote s env request v).selected := by
  have hselected : Selected s request request.json v :=
    (@selected_of_validate _ _ _ request request.modelID _ _ h).1
  unfold attempt callProviders
  dsimp only
  split
  · exact hselected
  · split_ifs
    · exact hselected
    · exact (callFallbacks_cases hselected _ _ _).1

/-- The record of an invocation, up to the references, the ids and the times. -/
def invokedContent (s : ModelGatewayService) (env : Environment)
    (request : ModelInvocationRequest) (a : Attempt) : ModelInvocationLedgerV0 :=
  let result := resultOf [] env.expiredAtEnd a.result
  { ledgerRecord s request {} with
    modelId := a.selected.model.id
    policyDecision := policyDecisionAllow
    runId := request.runID
    provider := a.selected.model.provider
    status := result.status
    usage := result.usage
    errorClass := result.errorClass
    errorCode := result.errorCode
    errorMessage := result.errorMessage
    policyId := orElseText s.resolvedPolicyID s.resolvedPolicyID }

theorem unstamped_invokedRecord {env : Environment} {request : ModelInvocationRequest}
    {payload : Json} {a : Attempt} (hselected : Selected s request payload a.selected)
    (invocationID : Text) (outputRef : DataReference) :
    unstamped (invokedRecord s env a.selected invocationID
      (resultOf invocationID env.expiredAtEnd a.result) outputRef) =
      unstamped (invokedContent s env request a) := by
  obtain ⟨selected, result⟩ := a
  unfold invokedRecord
  rw [hselected.record, hselected.run]
  cases result with
  | output o => rfl
  | error deadlineExceeded => rfl

theorem unstamped_eq {env : Environment} {state : GatewayState}
    {request : ModelInvocationRequest} {record : ModelInvocationLedgerV0}
    (h : Appends state (invokeHandler quote s env state request) record) :
    unstamped record = unstamped
      (match validated quote s env request with
        | .ok v => invokedContent s env request (attempt quote s env request v)
        | .error e => rejectedRecord s env request {} [] e {}) := by
  unfold invokeHandler at h
  dsimp only at h
  split at h
  · next e he =>
      have he : validated quote s env request = .error e := he
      rw [he, eq_of_appends_reject rfl h]
      rfl
  · next v hv =>
      have hv : validated quote s env request = .ok v := hv
      rw [hv, eq_of_appends_finish rfl h]
      exact unstamped_invokedRecord (selected_attempt hv) _ _

theorem sanitizeLedgerParameters_eq (parameters : AnyMap) :
    sanitizeLedgerParameters parameters = .ofMembers
      ((parameters.entries.filter fun entry => decide (entry.1 ∈ ledgerKeys)).filterMap
        fun entry => (ledgerParameter entry.1 entry.2).map fun value => (entry.1, value)) := by
  unfold sanitizeLedgerParameters
  rw [List.filterMap_filter]
  refine congrArg AnyMap.ofMembers (List.filterMap_congr fun entry _ => ?_)
  split_ifs with hkey
  · rfl
  · have hnone : ledgerParameter entry.1 entry.2 = none := by
      rw [decide_eq_true_eq, ledgerKeys, List.mem_append, List.mem_append, List.mem_append,
        List.mem_singleton, not_or, not_or, not_or] at hkey
      obtain ⟨⟨⟨hnumber, htext⟩, href⟩, hlist⟩ := hkey
      unfold ledgerParameter
      rw [if_neg hnumber, if_neg htext, if_neg href, if_neg hlist]
    rw [hnone, Option.map_none]

theorem ledgerRecord_alike {r r' : ModelInvocationRequest} (h : Alike r r')
    (requestRef : DataReference) : ledgerRecord s r requestRef = ledgerRecord s r' requestRef := by
  have hparameters : sanitizeLedgerParameters r.parameters =
      sanitizeLedgerParameters r'.parameters := by
    rw [sanitizeLedgerParameters_eq, sanitizeLedgerParameters_eq, h.parameters]
  unfold ledgerRecord
  rw [hparameters, h.dataClass, h.promptTemplateVersion, h.structuredOutput, h.agentRole]

theorem invokedContent_alike {env env' : Environment} {request request' : ModelInvocationRequest}
    (halike : Alike request request') {a a' : Attempt} (hsame : SameOutput env env' a a') :
    invokedContent s env request a = invokedContent s env' request' a' := by
  have hresult : resultOf [] env.expiredAtEnd a.result = resultOf [] env'.expiredAtEnd a'.result := by
    have hexpired := hsame.expired
    rw [← hsame.result]
    cases hresult : a.result with
    | output o => rfl
    | error deadlineExceeded =>
        rw [hresult] at hexpired
        rw [hexpired rfl]
  unfold invokedContent
  rw [ledgerRecord_alike halike, halike.runID, hresult, hsame.model]

/-- Requests that are alike and get the same leave records that are alike. -/
theorem unstamped_alike {env env' : Environment} {state state' : GatewayState}
    {request request' : ModelInvocationRequest} {record record' : ModelInvocationLedgerV0}
    (halike : Alike request request') (hsame : GetSame quote s env env' request request')
    (h : Appends state (invokeHandler quote s env state request) record)
    (h' : Appends state' (invokeHandler quote s env' state' request') record') :
    unstamped record = unstamped record' := by
  rw [unstamped_eq h, unstamped_eq h']
  unfold GetSame at hsame
  cases hv : validated quote s env request with
  | error e =>
      cases hv' : validated quote s env' request' with
      | error e' =>
          rw [hv, hv'] at hsame
          dsimp only at hsame ⊢
          unfold rejectedRecord
          rw [hsame, ledgerRecord_alike halike, halike.runID]
          rfl
      | ok v' =>
          rw [hv, hv'] at hsame
          exact hsame.elim
  | ok v =>
      cases hv' : validated quote s env' request' with
      | error e' =>
          rw [hv, hv'] at hsame
          exact hsame.elim
      | ok v' =>
          rw [hv, hv'] at hsame
          exact congrArg unstamped (invokedContent_alike halike hsame)

theorem parameters_of_appends {env : Environment} {state : GatewayState}
    {request : ModelInvocationRequest} {record : ModelInvocationLedgerV0}
    (h : Appends state (invokeHandler quote s env state request) record) :
    record.parameters = some (sanitizeLedgerParameters request.parameters) := by
  have heq := congrArg ModelInvocationLedgerV0.parameters (unstamped_eq h)
  split at heq
  · exact heq
  · exact heq

/-- A record tells no more of a request than its fields and the parameters of the
ledger, and its texts are clean exactly where the texts that pass the checks are
padded harmlessly. -/
theorem ledger_confined_iff (quote : Text → Text) (s : ModelGatewayService) (env : Environment)
    (state : GatewayState) (request : ModelInvocationRequest) (record : ModelInvocationLedgerV0)
    (h : Appends state (invokeHandler quote s env state request) record) :
    ((∀ env' state' request' record', Alike request request' →
        GetSame quote s env env' request request' →
        Appends state' (invokeHandler quote s env' state' request') record' →
          unstamped record = unstamped record') ∧
      ∀ parameters ∈ record.parameters, ∀ t ∈ textsOf parameters.json, Clean t) ↔
      ∀ entry ∈ request.parameters.entries, ∀ t ∈ ledgerTexts entry.1 entry.2,
        PadsHarmlessly t := by
  rw [parameters_of_appends h]
  simp only [Option.mem_some_iff, forall_eq', texts_sanitizeLedgerParameters]
  constructor
  · rintro ⟨-, hclean⟩ entry hentry t ht
    exact (clean_iff (isSafe_of_mem_ledgerTexts ht)).mp (hclean t ⟨entry, hentry, ht⟩)
  · intro hpads
    refine ⟨fun env' state' request' record' halike hsame h' =>
      unstamped_alike halike hsame h h', ?_⟩
    rintro t ⟨entry, hentry, ht⟩
    exact (clean_iff (isSafe_of_mem_ledgerTexts ht)).mpr (hpads entry hentry t ht)

end Records

section Example

/-- A request whose run id ends in a line break. -/
def brokenReview : ModelInvocationRequest :=
  { review with
    parameters := .ofMembers [("runId".toList, .string ("run-1".toList ++ ['\n']))] }

theorem brokenReview_appends : ∃ record, Appends {}
    (invokeHandler id reviewerService (answering "completed".toList) {} brokenReview) record := by
  have hlength : (invokeHandler id reviewerService (answering "completed".toList) {}
      brokenReview).state.ledger.records.length = 1 := by decide +kernel
  exact List.length_eq_one_iff.mp hlength

theorem brokenReview_confined : ∃ record, Appends {}
      (invokeHandler id reviewerService (answering "completed".toList) {} brokenReview) record ∧
    (((∀ env' state' request' record', Alike brokenReview request' →
        GetSame id reviewerService (answering "completed".toList) env' brokenReview request' →
        Appends state' (invokeHandler id reviewerService env' state' request') record' →
          unstamped record = unstamped record') ∧
      ∀ parameters ∈ record.parameters, ∀ t ∈ textsOf parameters.json, Clean t) ↔
      ∀ entry ∈ brokenReview.parameters.entries, ∀ t ∈ ledgerTexts entry.1 entry.2,
        PadsHarmlessly t) := by
  obtain ⟨record, hrecord⟩ := brokenReview_appends
  exact ⟨record, hrecord, ledger_confined_iff id reviewerService (answering "completed".toList) {}
    brokenReview record hrecord⟩

/-- The line break is kept. -/
theorem brokenReview_not_clean :
    ¬ ∀ quote s env state request record,
      Appends state (invokeHandler quote s env state request) record →
      (∀ env' state' request' record', Alike request request' →
        GetSame quote s env env' request request' →
        Appends state' (invokeHandler quote s env' state' request') record' →
          unstamped record = unstamped record') ∧
      ∀ parameters ∈ record.parameters, ∀ t ∈ textsOf parameters.json, Clean t := by
  intro h
  obtain ⟨record, hrecord⟩ := brokenReview_appends
  have hclean := (h _ _ _ _ _ _ hrecord).2 _ (parameters_of_appends hrecord)
    ("run-1".toList ++ ['\n'])
  have hkept : "run-1".toList ++ ['\n'] ∈
      textsOf (sanitizeLedgerParameters brokenReview.parameters).json := by
    refine texts_sanitizeLedgerParameters.mpr ⟨_, List.mem_singleton_self _, ?_⟩
    have hsafe : isSafeLedgerString ("run-1".toList ++ ['\n']) = true := by decide +kernel
    unfold ledgerTexts
    rw [if_pos (by simp)]
    show _ ∈ if isSafeLedgerString ("run-1".toList ++ ['\n']) = true then _ else _
    rw [if_pos hsafe]
    exact List.mem_singleton_self _
  exact ((hclean hkept).unbroken '\n' (List.mem_append_right _ (List.mem_singleton_self _))).2.1 rfl

end Example

end C2c.Gateway.LedgerTexts
