import Mathlib
import C2c.TrustCases.SharedIdentities

/-!
The catalogs the two services make of one document.  A digest tells identities
apart in each of them; it is the same in both only where both read the same
texts.
-/

namespace C2c.TrustCases.SharedDigests

open C2c.Library.JavaText hiding trim isTrimmed
open C2c.Library.JsonText
open C2c.Library.GoJson hiding member
open C2c.Library.PythonText
open C2c.TrustCases.Documents
open C2c.TrustCases.BffCatalog
open C2c.TrustCases.OrchestratorCatalog
open C2c.TrustCases.CanonicalTexts
open C2c.TrustCases.ReadFields
open C2c.TrustCases.SharedIdentities

/-! Two readings of one list. -/

theorem mapM_cons_spec {α β : Type} {f : α → Option β} {x : α} {xs : List α} {ys : List β}
    (h : (x :: xs).mapM f = some ys) :
    ∃ y rest, f x = some y ∧ xs.mapM f = some rest ∧ ys = y :: rest := by
  rw [List.mapM_cons] at h
  obtain ⟨y, hy, h⟩ := bind_eq_some_iff.mp h
  obtain ⟨rest, hrest, h⟩ := bind_eq_some_iff.mp h
  exact ⟨y, rest, hy, hrest, (Option.some.inj h).symm⟩

theorem mem_of_mapM {α β : Type} {f : α → Option β} {xs : List α} {ys : List β}
    (h : xs.mapM f = some ys) {y : β} (hy : y ∈ ys) : ∃ x ∈ xs, f x = some y := by
  induction xs generalizing ys with
  | nil =>
      obtain rfl := Option.some.inj h
      cases hy
  | cons x xs ih =>
      obtain ⟨first, rest, hfirst, hrest, rfl⟩ := mapM_cons_spec h
      rcases List.mem_cons.mp hy with rfl | hy
      · exact ⟨x, List.mem_cons_self, hfirst⟩
      · obtain ⟨x', hx', hf⟩ := ih hrest hy
        exact ⟨x', List.mem_cons_of_mem x hx', hf⟩

theorem some_of_mapM {α β : Type} {f : α → Option β} {xs : List α} {ys : List β}
    (h : xs.mapM f = some ys) {x : α} (hx : x ∈ xs) : ∃ y ∈ ys, f x = some y := by
  induction xs generalizing ys with
  | nil => cases hx
  | cons first xs ih =>
      obtain ⟨y, rest, hy, hrest, rfl⟩ := mapM_cons_spec h
      rcases List.mem_cons.mp hx with rfl | hx
      · exact ⟨y, List.mem_cons_self, hy⟩
      · obtain ⟨y', hy', hf⟩ := ih hrest hx
        exact ⟨y', List.mem_cons_of_mem y hy', hf⟩

/-- Two readings have the same image when they agree at each element. -/
theorem map_eq_map_iff_of_mapM {α β γ δ : Type} {f : α → Option β} {g : α → Option γ}
    {F : β → δ} {G : γ → δ} {P : α → Prop} {xs : List α} {ys : List β} {zs : List γ}
    (hf : xs.mapM f = some ys) (hg : xs.mapM g = some zs)
    (h : ∀ x ∈ xs, ∀ y z, f x = some y → g x = some z → (F y = G z ↔ P x)) :
    ys.map F = zs.map G ↔ ∀ x ∈ xs, P x := by
  induction xs generalizing ys zs with
  | nil =>
      obtain rfl := Option.some.inj hf
      obtain rfl := Option.some.inj hg
      simp
  | cons x xs ih =>
      obtain ⟨y, ys', hy, hys, rfl⟩ := mapM_cons_spec hf
      obtain ⟨z, zs', hz, hzs, rfl⟩ := mapM_cons_spec hg
      obtain ⟨hfirst, hrest⟩ := List.forall_mem_cons.mp h
      rw [List.map_cons, List.map_cons, List.cons.injEq, hfirst y z hy hz, ih hys hzs hrest,
        List.forall_mem_cons]

/-! One document in both services. -/

variable {sha : ByteArray → Text} {fixtures : Text → Option (List Text)} {document : Json}
  {bff : BffCatalog.TrustCaseCatalog} {orchestrator : OrchestratorCatalog.TrustCaseCatalog}

/-- What the BFF has read of the document. -/
theorem loadTrustCaseCatalog_spec (h : loadTrustCaseCatalog sha fixtures document = some bff) :
    assertNoExtraKeys ["schemaVersion", "catalogVersion", "description", "trustCases"]
        (toAny document) = true ∧
      isText "v0" (member (toAny document) "schemaVersion") = true ∧
      (∃ t, member (toAny document) "catalogVersion" = some (.string t) ∧
        bff.catalogVersion = trim t) ∧
      (∃ raws, elements (member (toAny document) "trustCases") = some raws ∧ raws ≠ [] ∧
        raws.mapM parseTrustCase = some bff.trustCases) ∧
      bff.catalogHash = sha256Hex sha (stringify (canonicalize (toAny document))) ∧
      bff.summaries = bff.trustCases.map fun c =>
        summarize sha c bff.catalogVersion bff.catalogHash := by
  simp only [loadTrustCaseCatalog, bind_eq_some_iff, guard_eq_some_iff, exists_const,
    Option.pure_def, Option.some.injEq] at h
  obtain ⟨hkeys, hschema, catalogVersion, hversion, raws, hraws, hne, trustCases, htrustCases, -, -,
    -, rfl⟩ := h
  obtain ⟨t, ht, rfl⟩ := requireString_spec (requireStringMatching_spec hversion).1
  exact ⟨hkeys, hschema, ⟨t, ht, rfl⟩, ⟨raws, hraws, hne, htrustCases⟩, rfl, rfl⟩

/-- What the orchestrator has read of the document. -/
theorem load_spec (h : load sha document = some orchestrator) :
    (∃ t, member (toAny document) "catalogVersion" = some (.string t) ∧
        orchestrator.catalogVersion = strip t) ∧
      descriptionAccepted (member (toAny document) "description") = true ∧
      (∃ raws, elements (member (toAny document) "trustCases") = some raws ∧
        raws.mapM (fun raw => (requiredMapping (some raw)).bind fromPayload) =
          some orchestrator.entries) ∧
      orchestrator.catalogHash = catalogHashOf sha (toAny document) := by
  simp only [load, bind_eq_some_iff, guard_eq_some_iff, exists_const, Option.pure_def,
    Option.some.injEq] at h
  obtain ⟨payload, hpayload, catalogVersion, hversion, _, -, hdescription, raws, hraws, -, entries,
    hentries, -, -, rfl⟩ := h
  obtain rfl := Option.some.inj (requiredMapping_spec hpayload)
  obtain ⟨t, ht, rfl⟩ := requiredString_spec hversion
  exact ⟨⟨t, ht, rfl⟩, hdescription, ⟨raws, hraws, hentries⟩, rfl⟩

theorem canonical_elements {items : List Json} (h : Canonical (.array items)) :
    ∀ item ∈ items, Canonical item := by
  induction items with
  | nil => exact nofun
  | cons item items ih => exact List.forall_mem_cons.mpr ⟨h.1, ih h.2⟩

theorem canonical_raws {raws : List Json}
    (h : elements (member (toAny document) "trustCases") = some raws) :
    ∀ raw ∈ raws, Canonical raw :=
  canonical_elements (canonical_member (canonical_toAny document) (elements_spec h))

theorem asciiNames_description {value : Option Json} (h : descriptionAccepted value = true)
    (w : Json) (hw : value = some w) : AsciiNames w := by
  subst hw
  cases w with
  | array items => cases h
  | object members => cases h
  | _ => trivial

/-- The names in a document that both accept are ASCII. -/
theorem asciiNames_document (hbff : loadTrustCaseCatalog sha fixtures document = some bff)
    (horchestrator : load sha document = some orchestrator) : AsciiNames (toAny document) := by
  obtain ⟨hkeys, hschema, ⟨t, hversion, -⟩, ⟨raws, hraws, -, hcases⟩, -⟩ :=
    loadTrustCaseCatalog_spec hbff
  obtain ⟨-, hdescription, -⟩ := load_spec horchestrator
  refine asciiNames_fields (canonical_toAny document) hkeys (by decide) ?_
  simp only [List.forall_mem_cons, List.not_mem_nil, false_imp_iff, implies_true, and_true]
  refine ⟨asciiNames_of_text hschema, fun w hw => ?_, asciiNames_description hdescription,
    fun w hw => ?_⟩
  · rw [hversion] at hw
    exact Option.some.inj hw ▸ trivial
  · rw [elements_spec hraws] at hw
    obtain rfl := Option.some.inj hw
    refine (asciiNamesItems_iff raws).mpr fun raw hraw => ?_
    obtain ⟨c, -, hc⟩ := some_of_mapM hcases hraw
    exact (asciiNames_trustCase (canonical_raws hraws raw hraw) hc).1

theorem catalogHash_eq (hbff : loadTrustCaseCatalog sha fixtures document = some bff)
    (horchestrator : load sha document = some orchestrator) :
    bff.catalogHash = orchestrator.catalogHash := by
  obtain ⟨-, -, -, -, hhash, -⟩ := loadTrustCaseCatalog_spec hbff
  obtain ⟨-, -, -, hhash'⟩ := load_spec horchestrator
  rw [hhash, hhash', sha256Hex, stringify_canonicalize (asciiNames_document hbff horchestrator),
    catalogHashOf]

theorem bffDigest_eq (hbff : loadTrustCaseCatalog sha fixtures document = some bff)
    {c : TrustCase} (hc : c ∈ bff.trustCases) :
    bffDigest sha bff c =
      catalogHashOf sha (identityPayload c bff.catalogVersion bff.catalogHash) := by
  obtain ⟨-, -, -, ⟨raws, hraws, -, hcases⟩, -⟩ := loadTrustCaseCatalog_spec hbff
  obtain ⟨raw, hraw, hparsed⟩ := mem_of_mapM hcases hc
  have hnames := (asciiNames_trustCase (canonical_raws hraws raw hraw) hparsed).2
  show sha256Hex sha (stringify (canonicalize _)) = _
  rw [sha256Hex, stringify_canonicalize (asciiNames_identityPayload hnames _ _)]
  rfl

/-- The digest of a value reads no more of it than its canonical form. -/
theorem catalogHashOf_congr {v w : Json} (h : toAny v = toAny w) :
    catalogHashOf sha v = catalogHashOf sha w := by
  rw [catalogHashOf, catalogHashOf, canonicalJson, canonicalJson, h]

/-- Both list the same identities exactly when both read the same texts. -/
theorem identities_eq_iff (hbff : loadTrustCaseCatalog sha fixtures document = some bff)
    (horchestrator : load sha document = some orchestrator) :
    bff.trustCases.map (bffIdentity bff) =
        orchestrator.entries.map (orchestratorIdentity orchestrator) ↔
      CatalogReadAlike (toAny document) := by
  have hhash := catalogHash_eq hbff horchestrator
  obtain ⟨-, -, ⟨t, hversion, htrim⟩, ⟨raws, hraws, hne, hcases⟩, -⟩ :=
    loadTrustCaseCatalog_spec hbff
  obtain ⟨⟨t', hversion', hstrip⟩, -, ⟨raws', hraws', hentries⟩, -⟩ := load_spec horchestrator
  obtain rfl := Option.some.inj (hraws.symm.trans hraws')
  obtain rfl := string_injective (Option.some.inj (hversion.symm.trans hversion'))
  rw [map_eq_map_iff_of_mapM (P := fun raw =>
    bff.catalogVersion = orchestrator.catalogVersion ∧ ReadAlike raw) hcases hentries]
  · constructor
    · intro h
      obtain ⟨first, hfirst⟩ := List.exists_mem_of_ne_nil raws hne
      refine ⟨(trimsAlike_iff hversion).mpr ?_, fun raws' hraws' raw hraw => ?_⟩
      · rw [← htrim, ← hstrip, (h first hfirst).1]
      · obtain rfl := Option.some.inj (hraws.symm.trans hraws')
        exact (h raw hraw).2
    · intro h raw hraw
      refine ⟨?_, h.trustCases raws hraws raw hraw⟩
      rw [htrim, hstrip, (trimsAlike_iff hversion).mp h.catalogVersion]
  · intro raw hraw c e hc he
    rw [bffIdentity, orchestratorIdentity, hhash]
    obtain ⟨payload, hpayload, he⟩ := Option.bind_eq_some_iff.mp he
    obtain rfl := Option.some.inj (requiredMapping_spec hpayload)
    exact identity_eq_iff (paired (canonical_raws hraws raw hraw) hc he) _ _ _

theorem summaries_digests (hbff : loadTrustCaseCatalog sha fixtures document = some bff) :
    bff.summaries.map TrustCaseSummary.configurationDigest =
      bff.trustCases.map (bffDigest sha bff) := by
  obtain ⟨-, -, -, -, -, hsummaries⟩ := loadTrustCaseCatalog_spec hbff
  rw [hsummaries, List.map_map]
  rfl

/-- Where the identities are the same, so are the digests. -/
theorem digests_eq (hbff : loadTrustCaseCatalog sha fixtures document = some bff)
    (h : bff.trustCases.map (bffIdentity bff) =
      orchestrator.entries.map (orchestratorIdentity orchestrator)) :
    bff.summaries.map TrustCaseSummary.configurationDigest =
      orchestrator.entries.map (orchestratorDigest sha orchestrator) := by
  let digestOf (v : Json) : Text := sha (String.ofList (write (spellings []) v)).toUTF8
  have hbffDigests : bff.trustCases.map (bffDigest sha bff) =
      (bff.trustCases.map (bffIdentity bff)).map digestOf := by
    rw [List.map_map]
    exact List.map_congr_left fun c hc => bffDigest_eq hbff hc
  rw [summaries_digests hbff, hbffDigests, h, List.map_map]
  rfl

/-- Both services tell the same of a document exactly when both read the same
texts of it. -/
theorem sameCatalog_iff (hsha : Function.Injective sha)
    (hbff : loadTrustCaseCatalog sha fixtures document = some bff)
    (horchestrator : load sha document = some orchestrator) :
    SameCatalog sha bff orchestrator ↔ CatalogReadAlike (toAny document) := by
  constructor
  · intro h
    exact (identities_eq_iff hbff horchestrator).mp h.identities
  · intro h
    have hidentities := (identities_eq_iff hbff horchestrator).mpr h
    exact {
      catalogHash := catalogHash_eq hbff horchestrator
      identities := hidentities
      digests := digests_eq hbff hidentities
      bffApart := fun c hc d hd hsame => by
        rw [bffDigest_eq hbff hc, bffDigest_eq hbff hd] at hsame
        exact catalogHashOf_injective hsha hsame
      orchestratorApart := fun c _ d _ hsame => catalogHashOf_injective hsha hsame
      across := fun c hc d _ hsame => by
        rw [bffDigest_eq hbff hc] at hsame
        exact catalogHashOf_injective hsha hsame }

/-! Documents with one trust case. -/

def sampleDocument (programId : String) : Json :=
  .object [
    ("schemaVersion".toList, .string "v0".toList),
    ("catalogVersion".toList, .string "1".toList),
    ("trustCases".toList, .array [.object [
      ("trustCaseId".toList, .string "PROG-1".toList),
      ("version".toList, .string "2026-01-01".toList),
      ("programId".toList, .string "PROG".toList),
      ("title".toList, .string "A program".toList),
      ("description".toList, .string "Displays a line".toList),
      ("defaultForProgram".toList, .bool true),
      ("sourceReference".toList, .object [
        ("fixtureId".toList, .string "PROG-F".toList),
        ("mode".toList, .string "reference-fixture".toList)]),
      ("controlledInput".toList, .object [
        ("stdin".toList, .null),
        ("dataSetIds".toList, .array []),
        ("expectedOutputFixtureId".toList, .string "PROG-F".toList)]),
      ("runtime".toList, .object [("programArgs".toList, .array [])]),
      ("environmentProfile".toList, .object [
        ("profileId".toList, .string "reference-fixture-v1".toList),
        ("description".toList, .string "No variables".toList),
        ("variables".toList, .object [])]),
      ("comparison".toList, .object [
        ("strategy".toList, .string "deterministic-output".toList),
        ("policyVersion".toList, .string "deterministic-output-v1".toList)]),
      ("supportedProgramShape".toList, .object [
        ("language".toList, .string "cobol".toList),
        ("programId".toList, .string programId.toList),
        ("supportedSubset".toList, .array [.string "DISPLAY".toList])]),
      ("evidenceIdentity".toList, .object [
        ("kind".toList, .string "trust-case".toList),
        ("artifactName".toList, .string "executed-trust-case.json".toList)])]])]

def sampleFixtures (fixtureId : Text) : Option (List Text) :=
  if fixtureId = "PROG-F".toList then some ["DISPLAY".toList] else none

/-- A digest that spells out the bytes. -/
def spellBytes (bytes : ByteArray) : Text :=
  bytes.data.toList.map fun b => Char.ofNat b.toNat

theorem spellBytes_injective : Function.Injective spellBytes := by
  intro xs ys h
  have hbyte : Function.Injective fun b : UInt8 => Char.ofNat b.toNat := by
    intro b b' hb
    have hspelled (n : UInt8) : (Char.ofNat n.toNat).toNat = n.toNat := by
      have hlt := n.toNat_lt
      unfold Char.ofNat
      rw [dif_pos (show n.toNat.isValidChar from Or.inl (by omega)), Char.ofNatAux, Char.toNat]
      rfl
    have hnat := congrArg Char.toNat hb
    rw [hspelled, hspelled] at hnat
    exact UInt8.toNat_inj.mp hnat
  have hlist := List.map_injective_iff.mpr hbyte h
  exact ByteArray.ext (Array.toList_inj.mp hlist)

theorem sampleDocument_read_alike : CatalogReadAlike (toAny (sampleDocument "PROG")) := by
  refine ⟨?_, fun raws hraws => ?_⟩
  · rintro t ⟨⟩
    decide +kernel
  · obtain rfl := Option.some.inj hraws
    refine List.forall_mem_singleton.mpr ⟨?_, ?_, ?_⟩
    · rintro t ⟨⟩
      decide +kernel
    · rintro t ⟨⟩
      decide +kernel
    · rintro t ⟨⟩
      decide +kernel

/-- A document without blanks around its texts. -/
theorem trimmed_document_shared :
    ∃ bff orchestrator,
      loadTrustCaseCatalog spellBytes sampleFixtures (sampleDocument "PROG") = some bff ∧
        load spellBytes (sampleDocument "PROG") = some orchestrator ∧
          SameCatalog spellBytes bff orchestrator := by
  obtain ⟨bff, hbff⟩ := Option.isSome_iff_exists.mp
    (show (loadTrustCaseCatalog spellBytes sampleFixtures (sampleDocument "PROG")).isSome = true
      by decide +kernel)
  obtain ⟨orchestrator, horchestrator⟩ := Option.isSome_iff_exists.mp
    (show (load spellBytes (sampleDocument "PROG")).isSome = true by decide +kernel)
  exact ⟨bff, orchestrator, hbff, horchestrator,
    (sameCatalog_iff spellBytes_injective hbff horchestrator).mpr sampleDocument_read_alike⟩

/-- A program name with blanks around it is trimmed by the BFF only. -/
theorem padded_programId_told_apart :
    ¬ ∀ (sha : ByteArray → Text) (fixtures : Text → Option (List Text)) (document : Json)
      (bff : BffCatalog.TrustCaseCatalog) (orchestrator : OrchestratorCatalog.TrustCaseCatalog),
      Function.Injective sha → loadTrustCaseCatalog sha fixtures document = some bff →
        load sha document = some orchestrator → SameCatalog sha bff orchestrator := by
  intro h
  obtain ⟨bff, hbff⟩ := Option.isSome_iff_exists.mp
    (show (loadTrustCaseCatalog spellBytes sampleFixtures (sampleDocument " PROG ")).isSome = true
      by decide +kernel)
  obtain ⟨orchestrator, horchestrator⟩ := Option.isSome_iff_exists.mp
    (show (load spellBytes (sampleDocument " PROG ")).isSome = true by decide +kernel)
  have hsame := h spellBytes sampleFixtures (sampleDocument " PROG ") bff orchestrator
    spellBytes_injective hbff horchestrator
  have halike := (identities_eq_iff hbff horchestrator).mp hsame.identities
  have htrim := (halike.trustCases _ rfl _ List.mem_cons_self).shapeProgramId " PROG ".toList rfl
  exact absurd htrim (by decide)

end C2c.TrustCases.SharedDigests
