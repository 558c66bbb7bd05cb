import C2c.Learning.EditorTelemetry

/-!
The strings that stored telemetry payloads carry.
-/

namespace C2c.Learning.TelemetryPayloads

open C2c.Library.JavaText
open C2c.Library.GoText
open C2c.Library.GoTime
open C2c.Library.JsonText
open C2c.Library.GoJson
open C2c.Library.JsonStrings
open C2c.Learning.EditorTelemetry

section Vocabulary

/-- The words of a field. -/
def words : Kind → List String
  | .oneOf allowed => allowed
  | .counts names => names
  | _ => []

/-- The names and words of an event type, and what its code pattern matches. -/
def Allows (spec : PayloadSpec) (t : Text) : Prop :=
  (∃ w ∈ spec.required ++ spec.optional ++ spec.checks.flatMap fun c => words c.kind,
    w.toList = t) ∨
  (∃ c ∈ spec.checks, c.kind = .code) ∧ irCodeOrKindPattern t = true

/-- The closed vocabulary of an event type. -/
def Allowed (eventType t : Text) : Prop :=
  ∃ spec, specOf eventType = some spec ∧ Allows spec t

theorem specOf_mem {eventType : Text} {spec : PayloadSpec} (h : specOf eventType = some spec) :
    spec ∈ eventTypes.map Prod.snd := by
  obtain ⟨entry, hentry, rfl⟩ := Option.map_eq_some_iff.mp h
  exact List.mem_map_of_mem (List.mem_of_find?_eq_some hentry)

/-- Every field of an event type is checked. -/
theorem fields_checked : ∀ spec ∈ eventTypes.map Prod.snd,
    ∀ key ∈ spec.required ++ spec.optional, key ∈ spec.checks.map Check.key := by
  decide +kernel

theorem required_ne_nil : ∀ spec ∈ eventTypes.map Prod.snd, spec.required ≠ [] := by
  decide

theorem firstError_eq_none {A : Type} {check : A → Option PayloadError} {l : List A} :
    firstError check l = none ↔ ∀ a ∈ l, check a = none := by
  induction l with
  | nil => simp [firstError]
  | cons a l ih =>
      rw [firstError, Option.orElse_eq_or, Option.or_eq_none_iff, ih, List.forall_mem_cons]

theorem ensureFields_eq_none {required optional : List String} {entries : List (Text × Json)} :
    ensureFields required optional entries = none ↔
      (∀ entry ∈ entries, ∃ key ∈ required ++ optional, key.toList = entry.1) ∧
      ∀ key ∈ required, (entries.lookup key.toList).isSome := by
  unfold ensureFields
  split
  · next entry hfind =>
      have hmem := List.mem_of_find?_eq_some hfind
      have hunknown := List.find?_some hfind
      simp only [reduceCtorEq, false_iff, not_and_or]
      left
      intro hall
      obtain ⟨key, hkey, heq⟩ := hall entry hmem
      simp only [Bool.not_eq_true', List.any_eq_false, beq_iff_eq] at hunknown
      exact hunknown key hkey heq
  · next hfind =>
      rw [Option.map_eq_none_iff, List.find?_eq_none]
      simp only [List.find?_eq_none, Bool.not_eq_true', Bool.not_eq_false, List.any_eq_true,
        beq_iff_eq] at hfind
      constructor
      · intro h
        refine ⟨hfind, fun key hkey => ?_⟩
        simpa using h key hkey
      · rintro ⟨_, h⟩ key hkey
        simpa using h key hkey

/-- The entry of a name in a map. -/
theorem lookup_of_mem {entries : List (Text × Json)} (h : Sorted entries) {m : Text × Json}
    (hm : m ∈ entries) : entries.lookup m.1 = some m.2 := by
  induction entries with
  | nil => cases hm
  | cons entry entries ih =>
      obtain ⟨hfirst, hrest⟩ := List.pairwise_cons.mp h
      rcases List.mem_cons.mp hm with rfl | hm
      · exact List.lookup_cons_self
      · have hlt := hfirst _ (List.mem_map_of_mem hm)
        rw [List.lookup_cons, beq_eq_false_iff_ne.mpr hlt.ne']
        exact ih hrest hm

end Vocabulary

section Strings

variable (outside : Rat → Rat)

theorem requireNonNegativeInt_eq_none {key : String} {value : Json}
    (h : requireNonNegativeInt outside key (some value) = none) : strings value = [] := by
  cases value with
  | number n => rfl
  | _ => cases h

/-- A checked value has the words of its field only. -/
theorem strings_checkValue {key : String} {value : Json} (hcanonical : Canonical value)
    {kind : Kind} (h : checkValue outside key (some value) kind = none) :
    ∀ t ∈ strings value, (∃ w ∈ words kind, w.toList = t) ∨
      kind = .code ∧ irCodeOrKindPattern t = true := by
  cases kind with
  | oneOf allowed =>
      cases value with
      | string s =>
          intro t ht
          rw [List.mem_singleton.mp ht]
          simp only [checkValue, requireEnum, ite_eq_left_iff, reduceCtorEq, imp_false,
            List.any_eq_true, beq_iff_eq] at h
          exact .inl (not_not.mp h)
      | _ => cases h
  | boolean =>
      cases value with
      | bool b => exact nofun
      | _ => cases h
  | count =>
      rw [requireNonNegativeInt_eq_none outside h]
      exact nofun
  | code =>
      cases value with
      | string s =>
          intro t ht
          rw [List.mem_singleton.mp ht]
          simp only [checkValue, ite_eq_left_iff, reduceCtorEq, imp_false, Bool.not_eq_true,
            Bool.not_eq_false] at h
          exact .inr ⟨rfl, h⟩
      | _ => cases h
  | counts names =>
      cases value with
      | object regions =>
          simp only [checkValue, Option.orElse_eq_or, Option.or_eq_none_iff, ensureFields_eq_none,
            firstError_eq_none, List.append_nil] at h
          obtain ⟨⟨hknown, _⟩, hcounts⟩ := h
          intro t ht
          obtain ⟨m, hm, hname | hvalue⟩ := mem_stringsMembers.mp ht
          · obtain ⟨key, hkey, heq⟩ := hknown m hm
            exact .inl ⟨key, hkey, heq.trans hname.symm⟩
          · obtain ⟨key, hkey, heq⟩ := hknown m hm
            have hcount := hcounts key hkey
            rw [heq, lookup_of_mem hcanonical.1 hm] at hcount
            rw [requireNonNegativeInt_eq_none outside hcount] at hvalue
            cases hvalue
      | _ => cases h

theorem strings_payloadMap {spec : PayloadSpec} (hspec : spec ∈ eventTypes.map Prod.snd)
    {entries : List (Text × Json)} (hcanonical : Canonical (.object entries))
    (hfields : ensureFields spec.required spec.optional entries = none)
    (hchecks : firstError (Check.run outside entries) spec.checks = none) :
    ∀ t ∈ stringsMembers entries, Allows spec t := by
  obtain ⟨hknown, _⟩ := ensureFields_eq_none.mp hfields
  intro t ht
  obtain ⟨m, hm, hstring⟩ := mem_stringsMembers.mp ht
  obtain ⟨key, hkey, heq⟩ := hknown m hm
  rcases hstring with rfl | hvalue
  · exact .inl ⟨key, List.mem_append_left _ hkey, heq⟩
  · obtain ⟨c, hc, rfl⟩ := List.mem_map.mp (fields_checked spec hspec key hkey)
    have hcheck := firstError_eq_none.mp hchecks c hc
    have hmember : Canonical m.2 := (canonicalMembers_iff entries).mp hcanonical.2 m hm
    rw [Check.run, heq, lookup_of_mem hcanonical.1 hm] at hcheck
    simp only [Option.isNone_some, Bool.and_false, Bool.false_eq_true, if_false] at hcheck
    rcases strings_checkValue outside hmember hcheck t hvalue with ⟨w, hw, hwt⟩ | ⟨hcode, hpattern⟩
    · exact .inl ⟨w, List.mem_append_right _ (List.mem_flatMap.mpr ⟨c, hc, hw⟩), hwt⟩
    · exact .inr ⟨⟨c, hc, hcode⟩, hpattern⟩

/-- The map of a validated payload has strings of the vocabulary only. -/
theorem strings_validated {eventType raw : Text}
    (h : validateEditorTelemetryPayload outside eventType raw = none) :
    ∃ members, unmarshal raw = some (.object members) ∧
      payloadMap raw = some (toAnyMembers members []) ∧
      ∀ t ∈ stringsMembers (toAnyMembers members []), Allowed eventType t := by
  unfold validateEditorTelemetryPayload at h
  cases hmap : payloadMap raw with
  | none => simp [hmap] at h
  | some entries =>
  cases hspec : specOf eventType with
  | none => simp [hmap, hspec] at h
  | some spec =>
  simp only [hmap, hspec, Option.orElse_eq_or, Option.or_eq_none_iff] at h
  obtain ⟨hfields, hchecks⟩ := h
  have hmem := specOf_mem hspec
  rw [← hmap]
  unfold payloadMap at hmap ⊢
  split at hmap
  · cases hmap
    obtain ⟨key, hkey⟩ := List.exists_mem_of_ne_nil _ (required_ne_nil spec hmem)
    have hsome := (ensureFields_eq_none.mp hfields).2 key hkey
    cases hsome
  · next members hraw =>
      split at hmap
      · next hfinite =>
        cases hmap
        have hcanonical := canonicalMembers_toAny members [] List.Pairwise.nil trivial
        refine ⟨members, hraw, if_pos hfinite, ?_⟩
        intro t ht
        exact ⟨spec, hspec, strings_payloadMap outside hmem hcanonical hfields hchecks t ht⟩
      · cases hmap
  · cases hmap

end Strings

section Stored

/-- The line of an event carries a payload. -/
def Carries (line payload : Json) : Prop :=
  ∃ members, line = .object members ∧ ("payload".toList, payload) ∈ members

/-- What the payload of an event and of its line carries is of the closed
vocabulary of its type, and what the validated map carries. -/
def Clean (e : EditorTelemetryEventV0) (line : Json) : Prop :=
  ∃ members, unmarshal e.payload = some (.object members) ∧ Carries line (.object members) ∧
    (∀ t ∈ stringsMembers members, Allowed e.eventType t) ∧
    ∃ entries, payloadMap e.payload = some entries ∧
      (stringsMembers members).Perm (stringsMembers entries)

/-- No object of an event's payload repeats a name. -/
def RepeatsNoName (e : EditorTelemetryEventV0) : Prop :=
  ∀ v, unmarshal e.payload = some v → NamesOnce v

theorem carries_json {e : EditorTelemetryEventV0} {line payload : Json}
    (hline : e.json = some line) (hpayload : unmarshal e.payload = some payload) :
    Carries line payload := by
  simp only [EditorTelemetryEventV0.json, hpayload, Option.bind_eq_bind,
    Option.bind_eq_some_iff, Option.some.injEq] at hline
  obtain ⟨occurredAt, _, receivedAt, _, _, rfl, rfl⟩ := hline
  exact ⟨_, rfl, by simp [present, textField]⟩

variable (outside : Rat → Rat)

theorem clean_iff {e : EditorTelemetryEventV0} {line : Json} (h : e.validate outside = none)
    (hline : e.json = some line) : Clean e line ↔ RepeatsNoName e := by
  unfold EditorTelemetryEventV0.validate at h
  simp only [Option.orElse_eq_or, Option.or_eq_none_iff, Option.map_eq_none_iff] at h
  obtain ⟨members, hraw, hmap, hallowed⟩ := strings_validated outside h.2
  constructor
  · rintro ⟨members', hraw', _, _, entries, hmap', hperm⟩ v hv
    cases hraw.symm.trans hraw'
    cases hmap.symm.trans hmap'
    cases hraw.symm.trans hv
    exact (strings_perm_iff (.object members)).mp hperm
  · intro honce
    have hperm := (strings_perm_iff (.object members)).mpr (honce _ hraw)
    exact ⟨members, hraw, carries_json hline hraw,
      fun t ht => hallowed t (hperm.mem_iff.mp ht), _, hmap, hperm⟩

/-- Two lines carry payloads with the same strings. -/
def SameStrings (line line' : Json) : Prop :=
  ∃ payload payload', Carries line payload ∧ Carries line' payload' ∧
    (strings payload).Perm (strings payload')

theorem clean_same {e e' : EditorTelemetryEventV0} {line line' : Json} (h : Clean e line)
    (h' : Clean e' line') (hmaps : payloadMap e.payload = payloadMap e'.payload) :
    SameStrings line line' := by
  obtain ⟨members, _, hcarries, _, entries, hmap, hperm⟩ := h
  obtain ⟨members', _, hcarries', _, entries', hmap', hperm'⟩ := h'
  cases hmap.symm.trans (hmaps.trans hmap')
  exact ⟨_, _, hcarries, hcarries', hperm.trans hperm'.symm⟩

theorem valid_of_firstInvalid {events : List EditorTelemetryEventV0} {index : Nat}
    (h : firstInvalid outside index events = none) : ∀ e ∈ events, e.validate outside = none := by
  induction events generalizing index with
  | nil => exact nofun
  | cons e events ih =>
      rw [firstInvalid] at h
      split at h
      · cases h
      · next hvalid => exact List.forall_mem_cons.mpr ⟨hvalid, ih h⟩

/-- The lines of events, one for each. -/
theorem mapM_json {events : List EditorTelemetryEventV0} {lines : List Json}
    (h : events.mapM EditorTelemetryEventV0.json = some lines) :
    ∃ kept : List (EditorTelemetryEventV0 × Json), kept.map Prod.fst = events ∧
      kept.map Prod.snd = lines ∧ ∀ k ∈ kept, k.1.json = some k.2 := by
  induction events generalizing lines with
  | nil => cases h; exact ⟨[], rfl, rfl, nofun⟩
  | cons e events ih =>
      simp only [List.mapM_cons, Option.bind_eq_bind, Option.bind_eq_some_iff,
        Option.pure_def, Option.some.injEq] at h
      obtain ⟨line, hline, rest, hrest, rfl⟩ := h
      obtain ⟨kept, rfl, rfl, hkept⟩ := ih hrest
      exact ⟨(e, line) :: kept, rfl, rfl, List.forall_mem_cons.mpr ⟨hline, hkept⟩⟩

/-- A store that has more events than another, each with its line. -/
structure Added (store store' : EditorTelemetryStore)
    (kept : List (EditorTelemetryEventV0 × Json)) : Prop where
  events : store'.events = store.events ++ kept.map Prod.fst
  written : store'.lines = store.lines ++ kept.map Prod.snd
  each : ∀ k ∈ kept, k.1.json = some k.2

/-- The handler adds valid events only. -/
theorem handler_adds (decode : Text → Option EditorTelemetryIngestRequest)
    (store : EditorTelemetryStore) (body : Text) :
    ∃ kept, Added store (editorTelemetryHandler decode outside store body).1 kept ∧
      ∀ k ∈ kept, k.1.validate outside = none := by
  have hquiet : ∃ kept, Added store store kept ∧ ∀ k ∈ kept, k.1.validate outside = none :=
    ⟨[], ⟨(List.append_nil _).symm, (List.append_nil _).symm, nofun⟩, nofun⟩
  unfold editorTelemetryHandler
  split
  · exact hquiet
  split
  · exact hquiet
  split
  · exact hquiet
  split
  · exact hquiet
  split
  · exact hquiet
  split
  · exact hquiet
  split
  · exact hquiet
  split
  · exact hquiet
  · next request _ _ _ _ _ hvalid _ store' happend =>
      obtain ⟨lines, hlines, hstore⟩ := Option.bind_eq_some_iff.mp happend
      cases hstore
      obtain ⟨kept, hevents, rfl, heach⟩ := mapM_json hlines
      refine ⟨kept, ⟨by rw [hevents], rfl, heach⟩, fun k hk => ?_⟩
      exact valid_of_firstInvalid outside hvalid _ (hevents ▸ List.mem_map_of_mem hk)

/-- Two bodies store clean payloads exactly where no object of a payload repeats a
name, and then equal maps have the same strings. -/
theorem stored_payloads_clean_iff (decode : Text → Option EditorTelemetryIngestRequest)
    (store store' : EditorTelemetryStore) (body body' : Text) :
    ∃ kept kept', Added store (editorTelemetryHandler decode outside store body).1 kept ∧
      Added store' (editorTelemetryHandler decode outside store' body').1 kept' ∧
      ∀ k ∈ kept, (Clean k.1 k.2 ↔ RepeatsNoName k.1) ∧
        ∀ k' ∈ kept', RepeatsNoName k.1 → RepeatsNoName k'.1 →
          payloadMap k.1.payload = payloadMap k'.1.payload → SameStrings k.2 k'.2 := by
  obtain ⟨kept, hadded, hvalid⟩ := handler_adds outside decode store body
  obtain ⟨kept', hadded', hvalid'⟩ := handler_adds outside decode store' body'
  refine ⟨kept, kept', hadded, hadded', fun k hk => ?_⟩
  have hclean := clean_iff outside (hvalid k hk) (hadded.each k hk)
  refine ⟨hclean, fun k' hk' honce honce' hmaps => ?_⟩
  have hclean' := clean_iff outside (hvalid' k' hk') (hadded'.each k' hk')
  exact clean_same (hclean.mpr honce) (hclean'.mpr honce') hmaps

section Smuggled

def noon : Time where
  year := 2026
  month := 5
  day := 4
  hour := 12
  minute := 0
  second := 0
  nanosecond := 0
  offset := 0
  inRange := by decide

/-- An event whose payload names its direction twice. -/
def smuggler : EditorTelemetryEventV0 where
  schemaVersion := editorTelemetrySchemaVersion
  eventType := "marker.navigate".toList
  occurredAt := noon
  receivedAt := noon
  sessionId := "s1".toList
  tenantId := "t1".toList
  userId := "u1".toList
  payload := ("\x7b\"direction\":\"MOVE SALARY TO X\",\"direction\":\"next\"," ++
    "\"sourceKind\":\"cobol\",\"severity\":\"error\"\x7d").toList

def smuggled : List (Text × Json) :=
  [("direction".toList, .string "MOVE SALARY TO X".toList),
    ("direction".toList, .string "next".toList),
    ("sourceKind".toList, .string "cobol".toList),
    ("severity".toList, .string "error".toList)]

theorem unmarshal_smuggler : unmarshal smuggler.payload = some (.object smuggled) := by
  have hraw : smuggler.payload = marshal (.object smuggled) := by decide +kernel
  rw [hraw, unmarshal_marshal, if_pos (by decide)]

theorem not_allowed_statement :
    ¬ Allowed "marker.navigate".toList "MOVE SALARY TO X".toList := by
  rintro ⟨spec, hspec, hallows⟩
  have hnavigate : specOf "marker.navigate".toList = some markerNavigate := rfl
  cases hnavigate.symm.trans hspec
  rcases hallows with hword | ⟨_, hpattern⟩
  · revert hword
    decide
  · revert hpattern
    decide

/-- A line of the source stands in a payload that the handler accepts and keeps. -/
theorem repeated_name_smuggles_source : ∃ request store line,
    editorTelemetryHandler (fun _ => some request) (fun _ => 0) {} "batch".toList =
      (store, .created 1) ∧
    store.events = [smuggler] ∧ store.lines = [line] ∧ Carries line (.object smuggled) ∧
    "MOVE SALARY TO X".toList ∈ stringsMembers smuggled ∧
    ¬ Allowed smuggler.eventType "MOVE SALARY TO X".toList ∧ ¬ Clean smuggler line := by
  have hvalid : smuggler.validate (fun _ => 0) = none := by decide +kernel
  obtain ⟨line, hline⟩ : ∃ line, smuggler.json = some line := by
    refine Option.isSome_iff_exists.mp ?_
    decide +kernel
  refine ⟨⟨editorTelemetrySchemaVersion, [smuggler]⟩, ⟨[smuggler], [line]⟩, line, ?_, rfl, rfl,
    carries_json hline unmarshal_smuggler, by decide, not_allowed_statement, ?_⟩
  · have happend : appendBatch {} [smuggler] = some ⟨[smuggler], [line]⟩ := by
      simp [appendBatch, hline]
    have hinvalid : firstInvalid (fun _ => 0) 0 [smuggler] = none := by
      simp [firstInvalid, hvalid]
    have hsize : ¬ maxEditorTelemetryLen < byteLength "batch".toList := by decide
    have hbody : trimSpace "batch".toList ≠ [] := by decide
    have hcount : ¬ maxEditorBatchEvents < 1 := by decide
    simp only [editorTelemetryHandler, if_neg hsize, if_neg hbody, if_neg hcount, ne_eq,
      not_true_eq_false, if_false, reduceCtorEq, hinvalid, happend, List.length_singleton]
  · intro hclean
    have honce := (clean_iff _ hvalid hline).mp hclean _ unmarshal_smuggler
    revert honce
    exact fun honce => absurd honce.1 (by decide)

end Smuggled

end Stored

end C2c.Learning.TelemetryPayloads
