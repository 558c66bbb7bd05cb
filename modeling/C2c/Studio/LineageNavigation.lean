import Mathlib.Data.List.Sort
import C2c.Studio.TraceParser

/-!
From a line of the generated Java to its COBOL line and back.
-/

namespace C2c.Studio.LineageNavigation

open C2c.Library.JavaText hiding splitLines
open C2c.Library.JsText
open C2c.Studio.TraceParser

inductive LineageUnavailableReason
  | noMapping
  | staleManualEdit
  | manualOnly
deriving DecidableEq

inductive LineageResolution (T : Type)
  | ok (target : T)
  | unavailable (reason : LineageUnavailableReason)
deriving DecidableEq

structure CobolAnchor where
  cobolFile : Text
  cobolLine : Nat
deriving DecidableEq

structure JavaTarget where
  javaFile : Text
  javaStartLine : Nat
  javaEndLine : Nat
deriving DecidableEq

abbrev JavaSourceProvider := Text → Option Text

inductive Direction
  | javaToCobol
  | cobolToJava
deriving DecidableEq

/-- The payload of the event `lineage.navigate`. -/
structure LineageNavigatePayload where
  direction : Direction
  resolved : Bool
  mappingClass : Option JavaMappingClass
  unresolvedReason : Option LineageUnavailableReason
deriving DecidableEq

/-- The payload that `emitLineageNavigate` emits. -/
def emitLineageNavigate (direction : Direction) :
    Except LineageUnavailableReason (Option JavaMappingClass) → LineageNavigatePayload
  | .ok mappingClass => ⟨direction, true, mappingClass, none⟩
  | .error reason => ⟨direction, false, none, some reason⟩

/-- An answer, with the payload of the event that is emitted for it. -/
abbrev Answer (T : Type) := LineageResolution T × LineageNavigatePayload

def unavailable {T : Type} (direction : Direction) (reason : LineageUnavailableReason) :
    Answer T :=
  (.unavailable reason, emitLineageNavigate direction (.error reason))

def encloses (region : JavaRegionClassification) (javaLine : Nat) : Bool :=
  region.lineRange.startLine ≤ javaLine && javaLine ≤ region.lineRange.endLine

def findEnclosingRegion (regions : List JavaRegionClassification) (javaLine : Nat) :
    Option JavaRegionClassification :=
  regions.find? fun region => encloses region javaLine

section Paths

variable (toLowerCase : Text → Text)

def pathSegments (value : Text) : List Text :=
  (value.splitOnP fun c => c == '\\' || c == '/').filter fun segment => segment ≠ []

def pathBasename (value : Text) : Text :=
  toLowerCase ((pathSegments value).getLast?.getD value)

def pathSuffixMatches (left right : Text) : Bool :=
  let a := pathSegments left
  let b := pathSegments right
  if a.length = 0 ∨ b.length = 0 then false
  else (a.reverse.zip b.reverse).all fun pair => pair.1 == pair.2

def cobolFileMatches (traceCobolFile requestedCobolFile programId : Text) : Bool :=
  if traceCobolFile = requestedCobolFile then true
  else if pathSuffixMatches traceCobolFile requestedCobolFile then true
  else
    let traceBase := pathBasename toLowerCase traceCobolFile
    let programBase := if programId ≠ [] then toLowerCase programId ++ ".cbl".toList else []
    decide (programBase.length > 0) && traceBase == programBase

end Paths

def regionsOf (parsed : ParsedTrace) (javaFile : Text) : List JavaRegionClassification :=
  (parsed.javaRegionClassification.lookup javaFile).getD []

/-- One round of the loop that chooses the nearest anchor before a line. -/
def chooseAnchor (region : JavaRegionClassification) (javaLine : Nat)
    (chosen : Option InlineIrAnchor) (anchor : InlineIrAnchor) : Option InlineIrAnchor :=
  if anchor.javaLine < region.lineRange.startLine then chosen
  else if anchor.javaLine > region.lineRange.endLine then chosen
  else if anchor.javaLine > javaLine then chosen
  else
    match chosen with
    | none => some anchor
    | some before => if anchor.javaLine > before.javaLine then some anchor else chosen

def resolveJavaToCobol (parsed : ParsedTrace) (javaFile : Text) (javaLine : Nat)
    (source : Text) : Answer CobolAnchor :=
  match findEnclosingRegion (regionsOf parsed javaFile) javaLine with
  | none => unavailable .javaToCobol .noMapping
  | some region =>
      match region.originClass with
      | .manualModified => unavailable .javaToCobol .staleManualEdit
      | .manualEdit => unavailable .javaToCobol .manualOnly
      | .deterministic | .agentProposed | .repairAttempted =>
          match (parseInlineIrAnchors source).foldl (chooseAnchor region javaLine) none with
          | none => unavailable .javaToCobol .noMapping
          | some chosen =>
              match parsed.irSymbolMap.lookup chosen.irNodeId with
              | none => unavailable .javaToCobol .noMapping
              | some irAnchor =>
                  (.ok ⟨irAnchor.cobolFile, irAnchor.cobolLine⟩,
                    emitLineageNavigate .javaToCobol (.ok (some region.mappingClass)))

section Targets

variable (toLowerCase : Text → Text) (parsed : ParsedTrace) (cobolFile : Text) (cobolLine : Nat)

def isManual (region : JavaRegionClassification) : Bool :=
  region.originClass == .manualModified || region.originClass == .manualEdit

/-- The target of an anchor of a file, unless the loop goes on without one. -/
def targetOf (javaFile : Text) (regions : List JavaRegionClassification)
    (anchor : InlineIrAnchor) : Option JavaTarget := do
  let irAnchor ← parsed.irSymbolMap.lookup anchor.irNodeId
  if ¬ cobolFileMatches toLowerCase irAnchor.cobolFile cobolFile parsed.programId then none
  else if irAnchor.cobolLine ≠ cobolLine then none
  else
    let region ← findEnclosingRegion regions anchor.javaLine
    if isManual region then none
    else some ⟨javaFile, region.lineRange.startLine, region.lineRange.endLine⟩

def dedupeKey (target : JavaTarget) : Text :=
  target.javaFile ++ "::".toList ++ natText target.javaStartLine ++ "::".toList ++
    natText target.javaEndLine

/-- The targets, and the keys in `seen`. -/
structure Collected where
  targets : List JavaTarget
  seen : List Text

def Collected.push (c : Collected) (target : JavaTarget) : Collected :=
  if dedupeKey target ∈ c.seen then c
  else ⟨c.targets ++ [target], c.seen ++ [dedupeKey target]⟩

def collectAnchor (javaFile : Text) (regions : List JavaRegionClassification) (c : Collected)
    (anchor : InlineIrAnchor) : Collected :=
  match targetOf toLowerCase parsed cobolFile cobolLine javaFile regions anchor with
  | none => c
  | some target => c.push target

def collectFile (sourceProvider : JavaSourceProvider) (c : Collected) (javaFile : Text) :
    Collected :=
  let regions := regionsOf parsed javaFile
  if regions.length = 0 then c
  else
    match sourceProvider javaFile with
    | none => c
    | some source =>
        let anchors := parseInlineIrAnchors source
        if anchors.length = 0 then c
        else
          anchors.foldl (collectAnchor toLowerCase parsed cobolFile cobolLine javaFile regions) c

/-- `sort` of the keys by their code units. -/
def fileKeys : List Text :=
  (parsed.javaRegionClassification.map Prod.fst).insertionSort fun a b =>
    codeUnits a ≤ codeUnits b

/-- The comparator of the targets is not positive. -/
def InOrder (a b : JavaTarget) : Prop :=
  if a.javaFile = b.javaFile then a.javaStartLine ≤ b.javaStartLine
  else codeUnits a.javaFile < codeUnits b.javaFile

instance : DecidableRel InOrder := fun _ _ => inferInstanceAs (Decidable (ite _ _ _))

def collectJavaTargets (sourceProvider : JavaSourceProvider) : List JavaTarget :=
  let collected := (fileKeys parsed).foldl
    (collectFile toLowerCase parsed cobolFile cobolLine sourceProvider) ⟨[], []⟩
  collected.targets.insertionSort InOrder

def resolveCobolToJava (sourceProvider : Option JavaSourceProvider) : Answer (List JavaTarget) :=
  let provider := sourceProvider.getD fun _ => none
  let targets := collectJavaTargets toLowerCase parsed cobolFile cobolLine provider
  if targets.length = 0 then unavailable .cobolToJava .noMapping
  else (.ok targets, emitLineageNavigate .cobolToJava (.ok none))

end Targets

section Regions

variable {regions : List JavaRegionClassification} {region region' : JavaRegionClassification}
  {javaLine : Nat}

def PairwiseDisjoint (regions : List JavaRegionClassification) : Prop :=
  regions.Pairwise fun region next => ∀ line, ¬ (encloses region line ∧ encloses next line)

theorem encloses_iff : encloses region javaLine = true ↔
    region.lineRange.startLine ≤ javaLine ∧ javaLine ≤ region.lineRange.endLine := by
  rw [encloses, Bool.and_eq_true, decide_eq_true_iff, decide_eq_true_iff]

/-- Of disjoint regions the one that encloses a line is found. -/
theorem findEnclosingRegion_of_mem (hdisjoint : PairwiseDisjoint regions)
    (hregion : region ∈ regions) (hline : encloses region javaLine = true) :
    findEnclosingRegion regions javaLine = some region := by
  induction regions with
  | nil => cases hregion
  | cons first rest ih =>
      obtain ⟨hfirst, hrest⟩ := List.pairwise_cons.mp hdisjoint
      rw [findEnclosingRegion, List.find?_cons]
      rcases List.mem_cons.mp hregion with rfl | hregion
      · rw [hline]
      · have hnot : encloses first javaLine = false :=
          Bool.eq_false_iff.mpr fun hyes => hfirst region hregion javaLine ⟨hyes, hline⟩
        rw [hnot]
        exact ih hrest hregion

theorem mem_of_findEnclosingRegion (h : findEnclosingRegion regions javaLine = some region) :
    region ∈ regions ∧ encloses region javaLine = true :=
  ⟨List.mem_of_find?_eq_some h,
    @List.find?_some _ (fun region => encloses region javaLine) _ _ h⟩

theorem eq_of_encloses (hdisjoint : PairwiseDisjoint regions) (hregion : region ∈ regions)
    (hregion' : region' ∈ regions) (hline : encloses region javaLine = true)
    (hline' : encloses region' javaLine = true) : region = region' :=
  Option.some.inj ((findEnclosingRegion_of_mem hdisjoint hregion hline).symm.trans
    (findEnclosingRegion_of_mem hdisjoint hregion' hline'))

end Regions

section Anchors

variable {region : JavaRegionClassification} {javaLine : Nat}

/-- An anchor of the region that does not stand behind the line. -/
def Precedes (region : JavaRegionClassification) (javaLine : Nat) (anchor : InlineIrAnchor) :
    Prop :=
  encloses region anchor.javaLine = true ∧ anchor.javaLine ≤ javaLine

theorem chooseAnchor_of_not {anchor : InlineIrAnchor} (h : ¬ Precedes region javaLine anchor)
    (chosen : Option InlineIrAnchor) : chooseAnchor region javaLine chosen anchor = chosen := by
  unfold chooseAnchor
  split
  · rfl
  split
  · rfl
  split
  · rfl
  · refine absurd ⟨encloses_iff.mpr ?_, ?_⟩ h <;> omega

theorem chooseAnchor_of_precedes {anchor : InlineIrAnchor} (h : Precedes region javaLine anchor)
    (chosen : Option InlineIrAnchor) :
    ∃ next, chooseAnchor region javaLine chosen anchor = some next ∧
      anchor.javaLine ≤ next.javaLine ∧ (next = anchor ∨ next ∈ chosen) ∧
      ∀ before ∈ chosen, before.javaLine ≤ next.javaLine := by
  obtain ⟨hencloses, hle⟩ := h
  have hrange := encloses_iff.mp hencloses
  unfold chooseAnchor
  rw [if_neg (by omega), if_neg (by omega), if_neg (by omega)]
  cases chosen with
  | none => exact ⟨anchor, rfl, Nat.le_refl _, Or.inl rfl, nofun⟩
  | some before =>
      dsimp only
      split
      · rename_i hlt
        exact ⟨anchor, rfl, Nat.le_refl _, Or.inl rfl,
          fun _ hbefore => Option.some.inj hbefore ▸ Nat.le_of_lt hlt⟩
      · rename_i hge
        exact ⟨before, rfl, Nat.le_of_not_lt hge, Or.inr rfl,
          fun _ hbefore => Option.some.inj hbefore ▸ Nat.le_refl _⟩

/-- The chosen anchor is the nearest one before the line. -/
theorem choose_spec (anchors : List InlineIrAnchor) (chosen : Option InlineIrAnchor)
    (hchosen : ∀ before ∈ chosen, Precedes region javaLine before) :
    (∀ nearest ∈ anchors.foldl (chooseAnchor region javaLine) chosen,
      Precedes region javaLine nearest ∧ (nearest ∈ anchors ∨ nearest ∈ chosen)) ∧
    ∀ anchor, Precedes region javaLine anchor → anchor ∈ anchors ∨ anchor ∈ chosen →
      ∃ nearest, anchors.foldl (chooseAnchor region javaLine) chosen = some nearest ∧
        anchor.javaLine ≤ nearest.javaLine := by
  induction anchors generalizing chosen with
  | nil =>
      refine ⟨fun nearest h => ⟨hchosen nearest h, Or.inr h⟩, ?_⟩
      rintro anchor - (h | h)
      · cases h
      · exact ⟨anchor, h, Nat.le_refl _⟩
  | cons first rest ih =>
      rw [List.foldl_cons]
      by_cases hfirst : Precedes region javaLine first
      · obtain ⟨next, hnext, hle, horigin, hbefore⟩ := chooseAnchor_of_precedes hfirst chosen
        rw [hnext]
        obtain ⟨hmem, hnearest⟩ := ih (some next) (by
          rintro before ⟨⟩
          exact horigin.elim (fun heq => heq ▸ hfirst) (hchosen next))
        constructor
        · intro nearest h
          obtain ⟨hprecedes, hrest | hsome⟩ := hmem nearest h
          · exact ⟨hprecedes, Or.inl (List.mem_cons_of_mem _ hrest)⟩
          · obtain rfl := Option.some.inj hsome
            refine ⟨hprecedes, ?_⟩
            rcases horigin with rfl | hbefore
            · exact Or.inl List.mem_cons_self
            · exact Or.inr hbefore
        · intro anchor hprecedes hanchor
          by_cases hrest : anchor ∈ rest
          · exact hnearest anchor hprecedes (Or.inl hrest)
          · -- the anchor is no farther behind than the one that is chosen now
            have hnext : next ∈ some next := rfl
            obtain ⟨nearest, hsome, hlast⟩ := hnearest next
              (horigin.elim (fun heq => heq ▸ hfirst) (hchosen next)) (Or.inr hnext)
            refine ⟨nearest, hsome, Nat.le_trans ?_ hlast⟩
            rcases hanchor with hanchor | hanchor
            · rcases List.mem_cons.mp hanchor with rfl | hanchor
              · exact hle
              · exact absurd hanchor hrest
            · exact hbefore anchor hanchor
      · rw [chooseAnchor_of_not hfirst]
        obtain ⟨hmem, hnearest⟩ := ih chosen hchosen
        constructor
        · intro nearest h
          exact (hmem nearest h).imp_right (Or.imp_left (List.mem_cons_of_mem _))
        · intro anchor hprecedes hanchor
          refine hnearest anchor hprecedes (hanchor.imp_left fun hcons => ?_)
          rcases List.mem_cons.mp hcons with rfl | hrest
          · exact absurd hprecedes hfirst
          · exact hrest

theorem eq_of_javaLine {source : Text} {anchor anchor' : InlineIrAnchor}
    (h : anchor ∈ parseInlineIrAnchors source) (h' : anchor' ∈ parseInlineIrAnchors source)
    (hline : anchor.javaLine = anchor'.javaLine) : anchor = anchor' := by
  have hnodup : ((parseInlineIrAnchors source).map InlineIrAnchor.javaLine).Nodup :=
    List.pairwise_map.mpr ((pairwise_parseInlineIrAnchors source).imp Nat.ne_of_lt)
  exact List.inj_on_of_nodup_map hnodup h h' hline

/-- On the line of an anchor of the region that anchor is chosen. -/
theorem choose_at_anchor {source : Text} {anchor : InlineIrAnchor}
    (hanchor : anchor ∈ parseInlineIrAnchors source)
    (hregion : encloses region anchor.javaLine = true) :
    (parseInlineIrAnchors source).foldl (chooseAnchor region anchor.javaLine) none =
      some anchor := by
  obtain ⟨hmem, hnearest⟩ :=
    @choose_spec region anchor.javaLine (parseInlineIrAnchors source) none nofun
  obtain ⟨nearest, hsome, hle⟩ :=
    hnearest anchor ⟨hregion, Nat.le_refl _⟩ (Or.inl hanchor)
  obtain ⟨⟨-, hge⟩, horigin⟩ := hmem nearest hsome
  have hsource := horigin.resolve_right nofun
  rw [hsome, eq_of_javaLine hsource hanchor (Nat.le_antisymm hge hle)]

end Anchors

section Collecting

variable (toLowerCase : Text → Text) (parsed : ParsedTrace) (cobolFile : Text) (cobolLine : Nat)
  (sourceProvider : JavaSourceProvider)

theorem dedupeKey_injective {target target' : JavaTarget}
    (h : dedupeKey target = dedupeKey target') : target = target' := by
  have hcolon (n : Nat) : ':' ∉ natText n := not_mem_natText rfl n
  have hkey (file : Text) (start stop : Nat) : dedupeKey ⟨file, start, stop⟩ =
      ((file ++ [':']) ++ ':' :: natText start ++ [':']) ++ ':' :: natText stop := by
    simp [dedupeKey]
  obtain ⟨file, start, stop⟩ := target
  obtain ⟨file', start', stop'⟩ := target'
  rw [hkey, hkey] at h
  -- the numbers hold no colon, so the key is read from its end
  obtain ⟨hrest, hstop⟩ := append_cons_last_inj (hcolon stop) (hcolon stop') h
  obtain ⟨hfile, hstart⟩ := append_cons_last_inj (hcolon start) (hcolon start')
    (List.append_cancel_right hrest)
  rw [List.append_cancel_right hfile, natText_injective hstart, natText_injective hstop]

/-- The targets that the anchors of a file stand for. -/
def fileTargets (javaFile : Text) : List JavaTarget :=
  (sourceProvider javaFile).elim [] fun source =>
    (parseInlineIrAnchors source).filterMap
      (targetOf toLowerCase parsed cobolFile cobolLine javaFile (regionsOf parsed javaFile))

theorem foldl_collectAnchor (javaFile : Text) (regions : List JavaRegionClassification)
    (anchors : List InlineIrAnchor) (c : Collected) :
    anchors.foldl (collectAnchor toLowerCase parsed cobolFile cobolLine javaFile regions) c =
      (anchors.filterMap (targetOf toLowerCase parsed cobolFile cobolLine javaFile
        regions)).foldl Collected.push c := by
  rw [List.foldl_filterMap]
  congr 1
  funext c anchor
  unfold collectAnchor
  cases targetOf toLowerCase parsed cobolFile cobolLine javaFile regions anchor <;> rfl

theorem targetOf_of_no_region (javaFile : Text) (anchor : InlineIrAnchor) :
    targetOf toLowerCase parsed cobolFile cobolLine javaFile [] anchor = none := by
  unfold targetOf
  cases parsed.irSymbolMap.lookup anchor.irNodeId with
  | none => rfl
  | some irAnchor =>
      simp only [Option.bind_eq_bind, Option.bind_some]
      split
      · rfl
      split
      · rfl
      · rfl

theorem collectFile_eq (c : Collected) (javaFile : Text) :
    collectFile toLowerCase parsed cobolFile cobolLine sourceProvider c javaFile =
      (fileTargets toLowerCase parsed cobolFile cobolLine sourceProvider javaFile).foldl
        Collected.push c := by
  unfold collectFile fileTargets
  cases sourceProvider javaFile with
  | none => exact ite_self c
  | some source =>
      dsimp only [Option.elim_some]
      split
      · rename_i hnone
        have hfilter : (parseInlineIrAnchors source).filterMap (targetOf toLowerCase parsed
            cobolFile cobolLine javaFile (regionsOf parsed javaFile)) = [] := by
          rw [List.filterMap_eq_nil_iff, List.length_eq_zero_iff.mp hnone]
          exact fun anchor _ =>
            targetOf_of_no_region toLowerCase parsed cobolFile cobolLine javaFile anchor
        rw [hfilter]
        rfl
      split
      · rename_i hnone
        rw [List.length_eq_zero_iff.mp hnone]
        rfl
      · exact foldl_collectAnchor toLowerCase parsed cobolFile cobolLine javaFile _ _ c

/-- The keys are those of the targets, each once. -/
structure Collected.WellFormed (c : Collected) : Prop where
  seen : c.seen = c.targets.map dedupeKey
  nodup : c.targets.Nodup

theorem Collected.WellFormed.push {c : Collected} (h : c.WellFormed) (target : JavaTarget) :
    (c.push target).WellFormed ∧
      ∀ other, other ∈ (c.push target).targets ↔ other ∈ c.targets ∨ other = target := by
  have hseen : dedupeKey target ∈ c.seen ↔ target ∈ c.targets := by
    rw [h.seen, List.mem_map]
    constructor
    · rintro ⟨other, hother, hkey⟩
      exact dedupeKey_injective hkey ▸ hother
    · exact fun hmem => ⟨target, hmem, rfl⟩
  unfold Collected.push
  by_cases hmem : target ∈ c.targets
  · rw [if_pos (hseen.mpr hmem)]
    refine ⟨h, fun other => ⟨Or.inl, ?_⟩⟩
    rintro (hother | rfl)
    · exact hother
    · exact hmem
  · rw [if_neg fun hkey => hmem (hseen.mp hkey)]
    refine ⟨⟨?_, ?_⟩, ?_⟩
    · rw [h.seen, List.map_append, List.map_singleton]
    · refine h.nodup.append (List.nodup_singleton target) ?_
      rw [List.disjoint_singleton]
      exact hmem
    · intro other
      rw [List.mem_append, List.mem_singleton]

theorem foldl_push (targets : List JavaTarget) {c : Collected} (h : c.WellFormed) :
    (targets.foldl Collected.push c).WellFormed ∧
      ∀ other, other ∈ (targets.foldl Collected.push c).targets ↔
        other ∈ c.targets ∨ other ∈ targets := by
  induction targets generalizing c with
  | nil => exact ⟨h, fun other => by simp⟩
  | cons target targets ih =>
      obtain ⟨hpush, hmem⟩ := h.push target
      obtain ⟨hrest, hmemRest⟩ := ih hpush
      refine ⟨hrest, fun other => ?_⟩
      rw [List.foldl_cons, hmemRest, hmem, List.mem_cons, or_assoc]

/-- The collected targets are those of the files, each once. -/
theorem collectJavaTargets_spec :
    (collectJavaTargets toLowerCase parsed cobolFile cobolLine sourceProvider).Nodup ∧
      ∀ target,
        target ∈ collectJavaTargets toLowerCase parsed cobolFile cobolLine sourceProvider ↔
          ∃ javaFile ∈ fileKeys parsed, target ∈
            fileTargets toLowerCase parsed cobolFile cobolLine sourceProvider javaFile := by
  have hfold : (fileKeys parsed).foldl
      (collectFile toLowerCase parsed cobolFile cobolLine sourceProvider) ⟨[], []⟩ =
      ((fileKeys parsed).flatMap
        (fileTargets toLowerCase parsed cobolFile cobolLine sourceProvider)).foldl
          Collected.push ⟨[], []⟩ := by
    rw [List.foldl_flatMap]
    congr 1
    funext c javaFile
    exact collectFile_eq toLowerCase parsed cobolFile cobolLine sourceProvider c javaFile
  obtain ⟨hwell, hmem⟩ := foldl_push ((fileKeys parsed).flatMap
    (fileTargets toLowerCase parsed cobolFile cobolLine sourceProvider))
    (⟨rfl, List.nodup_nil⟩ : Collected.WellFormed ⟨[], []⟩)
  have hperm := List.perm_insertionSort InOrder ((fileKeys parsed).foldl
      (collectFile toLowerCase parsed cobolFile cobolLine sourceProvider) ⟨[], []⟩).targets
  constructor
  · refine hperm.nodup_iff.mpr ?_
    rw [hfold]
    exact hwell.nodup
  · intro target
    refine hperm.mem_iff.trans ?_
    rw [hfold, hmem, List.mem_flatMap]
    exact or_iff_right List.not_mem_nil

theorem inOrder_total : Std.Total InOrder := by
  refine ⟨fun a b => ?_⟩
  unfold InOrder
  by_cases h : a.javaFile = b.javaFile
  · rw [if_pos h, if_pos h.symm]
    exact Nat.le_total _ _
  · rw [if_neg h, if_neg (Ne.symm h)]
    exact codeUnits_lt_or_lt h

theorem inOrder_trans : IsTrans JavaTarget InOrder := by
  refine ⟨fun a b c hab hbc => ?_⟩
  unfold InOrder at hab hbc ⊢
  by_cases h : a.javaFile = b.javaFile
  · rw [if_pos h] at hab
    by_cases h' : b.javaFile = c.javaFile
    · rw [if_pos h'] at hbc
      rw [if_pos (h.trans h')]
      exact Nat.le_trans hab hbc
    · rw [if_neg h'] at hbc
      rwa [if_neg fun hac => h' (h.symm.trans hac), h]
  · rw [if_neg h] at hab
    by_cases h' : b.javaFile = c.javaFile
    · rwa [if_neg fun hac => h (hac.trans h'.symm), ← h']
    · rw [if_neg h'] at hbc
      have hac : codeUnits a.javaFile < codeUnits c.javaFile := lt_trans hab hbc
      rwa [if_neg fun heq => lt_irrefl _ (heq ▸ hac)]

theorem pairwise_collectJavaTargets :
    (collectJavaTargets toLowerCase parsed cobolFile cobolLine sourceProvider).Pairwise
      InOrder := by
  have := inOrder_total
  have := inOrder_trans
  exact List.pairwise_insertionSort _ _

theorem targetOf_eq_some {javaFile : Text} {regions : List JavaRegionClassification}
    {anchor : InlineIrAnchor} {target : JavaTarget} :
    targetOf toLowerCase parsed cobolFile cobolLine javaFile regions anchor = some target ↔
      ∃ irAnchor region, parsed.irSymbolMap.lookup anchor.irNodeId = some irAnchor ∧
        cobolFileMatches toLowerCase irAnchor.cobolFile cobolFile parsed.programId = true ∧
        irAnchor.cobolLine = cobolLine ∧
        findEnclosingRegion regions anchor.javaLine = some region ∧ isManual region = false ∧
        target = ⟨javaFile, region.lineRange.startLine, region.lineRange.endLine⟩ := by
  unfold targetOf
  cases parsed.irSymbolMap.lookup anchor.irNodeId with
  | none => simp
  | some irAnchor =>
      cases findEnclosingRegion regions anchor.javaLine with
      | none => simp
      | some region =>
          have hsame : some (⟨javaFile, region.lineRange.startLine,
              region.lineRange.endLine⟩ : JavaTarget) = some target ↔
              target = ⟨javaFile, region.lineRange.startLine, region.lineRange.endLine⟩ := by
            rw [Option.some_inj, eq_comm]
          cases hmanual : isManual region with
          | true => simp [hmanual]
          | false => simp [hmanual, hsame]

end Collecting

section BothWays

variable {toLowerCase : Text → Text} {parsed : ParsedTrace} {sourceProvider : JavaSourceProvider}

/-- The event tells what the answer is. -/
def Announced {T : Type} (answer : Answer T) : Prop :=
  match answer.1 with
  | .ok _ => answer.2.resolved = true ∧ answer.2.unresolvedReason = none
  | .unavailable reason => answer.2.resolved = false ∧ answer.2.unresolvedReason = some reason

theorem announced_resolveJavaToCobol (javaFile : Text) (javaLine : Nat) (source : Text) :
    Announced (resolveJavaToCobol parsed javaFile javaLine source) := by
  unfold resolveJavaToCobol
  repeat' split
  all_goals exact ⟨rfl, rfl⟩

theorem announced_resolveCobolToJava (cobolFile : Text) (cobolLine : Nat)
    (provider : Option JavaSourceProvider) :
    Announced (resolveCobolToJava toLowerCase parsed cobolFile cobolLine provider) := by
  unfold resolveCobolToJava
  dsimp only
  split
  · exact ⟨rfl, rfl⟩
  · exact ⟨rfl, rfl⟩

/-- A line resolves to the symbol of the nearest anchor before it in a region
that is not manual. -/
theorem resolveJavaToCobol_eq_ok {javaFile source : Text} {javaLine : Nat}
    {anchor : CobolAnchor} :
    (resolveJavaToCobol parsed javaFile javaLine source).1 = .ok anchor ↔
      ∃ region chosen irAnchor,
        findEnclosingRegion (regionsOf parsed javaFile) javaLine = some region ∧
        isManual region = false ∧
        (parseInlineIrAnchors source).foldl (chooseAnchor region javaLine) none = some chosen ∧
        parsed.irSymbolMap.lookup chosen.irNodeId = some irAnchor ∧
        anchor = ⟨irAnchor.cobolFile, irAnchor.cobolLine⟩ := by
  have hsame (irAnchor : IrSymbolAnchor) :
      ⟨irAnchor.cobolFile, irAnchor.cobolLine⟩ = anchor ↔
        anchor = ⟨irAnchor.cobolFile, irAnchor.cobolLine⟩ := eq_comm
  unfold resolveJavaToCobol
  cases findEnclosingRegion (regionsOf parsed javaFile) javaLine with
  | none => simp [unavailable]
  | some region =>
      cases hchosen : (parseInlineIrAnchors source).foldl (chooseAnchor region javaLine) none with
      | none =>
          cases horigin : region.originClass <;> simp [unavailable, isManual, horigin, hchosen]
      | some chosen =>
          cases hsymbol : parsed.irSymbolMap.lookup chosen.irNodeId with
          | none =>
              cases horigin : region.originClass <;>
                simp [unavailable, isManual, horigin, hchosen, hsymbol]
          | some irAnchor =>
              cases horigin : region.originClass <;>
                simp [unavailable, isManual, horigin, hchosen, hsymbol, hsame]

theorem resolveCobolToJava_eq_ok {cobolFile : Text} {cobolLine : Nat}
    {targets : List JavaTarget} :
    (resolveCobolToJava toLowerCase parsed cobolFile cobolLine (some sourceProvider)).1 =
        .ok targets ↔
      collectJavaTargets toLowerCase parsed cobolFile cobolLine sourceProvider = targets ∧
        targets ≠ [] := by
  unfold resolveCobolToJava
  dsimp only [Option.getD_some]
  split
  · rename_i hnone
    rw [List.length_eq_zero_iff.mp hnone]
    refine ⟨nofun, ?_⟩
    rintro ⟨rfl, hne⟩
    exact absurd rfl hne
  · rename_i hsome
    rw [LineageResolution.ok.injEq]
    constructor
    · rintro rfl
      exact ⟨rfl, fun hnil => hsome (by rw [hnil]; rfl)⟩
    · exact And.left

theorem mem_fileKeys {javaFile : Text} (h : regionsOf parsed javaFile ≠ []) :
    javaFile ∈ fileKeys parsed := by
  rw [fileKeys, (List.perm_insertionSort _ _).mem_iff, List.mem_map]
  unfold regionsOf at h
  cases hlookup : parsed.javaRegionClassification.lookup javaFile with
  | none =>
      rw [hlookup] at h
      exact absurd rfl h
  | some regions =>
      obtain ⟨before, after, heq, -⟩ := List.lookup_eq_some_iff.mp hlookup
      refine ⟨(javaFile, regions), ?_, rfl⟩
      rw [heq]
      exact List.mem_append_right _ List.mem_cons_self

theorem mem_collectJavaTargets {cobolFile : Text} {cobolLine : Nat} {target : JavaTarget} :
    target ∈ collectJavaTargets toLowerCase parsed cobolFile cobolLine sourceProvider ↔
      ∃ source anchor, sourceProvider target.javaFile = some source ∧
        anchor ∈ parseInlineIrAnchors source ∧
        targetOf toLowerCase parsed cobolFile cobolLine target.javaFile
          (regionsOf parsed target.javaFile) anchor = some target := by
  rw [(collectJavaTargets_spec toLowerCase parsed cobolFile cobolLine sourceProvider).2]
  constructor
  · rintro ⟨javaFile, -, htarget⟩
    unfold fileTargets at htarget
    cases hsource : sourceProvider javaFile with
    | none =>
        rw [hsource] at htarget
        cases htarget
    | some source =>
        rw [hsource, Option.elim_some, List.mem_filterMap] at htarget
        obtain ⟨anchor, hanchor, htarget⟩ := htarget
        obtain ⟨-, region, -, -, -, -, -, heq⟩ := (targetOf_eq_some _ _ _ _).mp htarget
        obtain rfl : target.javaFile = javaFile := by rw [heq]
        exact ⟨source, anchor, hsource, hanchor, htarget⟩
  · rintro ⟨source, anchor, hsource, hanchor, htarget⟩
    refine ⟨target.javaFile, mem_fileKeys ?_, ?_⟩
    · intro hnil
      rw [hnil, targetOf_of_no_region] at htarget
      cases htarget
    · unfold fileTargets
      rw [hsource, Option.elim_some, List.mem_filterMap]
      exact ⟨anchor, hanchor, htarget⟩

theorem cobolFileMatches_self (cobolFile programId : Text) :
    cobolFileMatches toLowerCase cobolFile cobolFile programId = true :=
  if_pos rfl

/-- The two directions of the navigation answer each other. -/
structure NavigatesBothWays (toLowerCase : Text → Text) (parsed : ParsedTrace)
    (sourceProvider : JavaSourceProvider) : Prop where
  /-- The region of a line that resolves is found from the COBOL line again. -/
  toJava : ∀ javaFile source javaLine anchor, sourceProvider javaFile = some source →
    (resolveJavaToCobol parsed javaFile javaLine source).1 = .ok anchor →
    ∃ targets, ∃ region ∈ regionsOf parsed javaFile,
      (resolveCobolToJava toLowerCase parsed anchor.cobolFile anchor.cobolLine
        (some sourceProvider)).1 = .ok targets ∧
      encloses region javaLine = true ∧
      ⟨javaFile, region.lineRange.startLine, region.lineRange.endLine⟩ ∈ targets
  /-- A region that is found has a line that resolves to the requested line. -/
  toCobol : ∀ cobolFile cobolLine targets,
    (resolveCobolToJava toLowerCase parsed cobolFile cobolLine (some sourceProvider)).1 =
      .ok targets →
    ∀ target ∈ targets, ∃ source javaLine anchor,
      sourceProvider target.javaFile = some source ∧
      target.javaStartLine ≤ javaLine ∧ javaLine ≤ target.javaEndLine ∧
      (resolveJavaToCobol parsed target.javaFile javaLine source).1 = .ok anchor ∧
      anchor.cobolLine = cobolLine ∧
      cobolFileMatches toLowerCase anchor.cobolFile cobolFile parsed.programId = true
  manualLine : ∀ javaFile, ∀ region ∈ regionsOf parsed javaFile, isManual region = true →
    ∀ javaLine, encloses region javaLine = true →
    ∀ source anchor, (resolveJavaToCobol parsed javaFile javaLine source).1 ≠ .ok anchor
  manualRegion : ∀ cobolFile cobolLine targets,
    (resolveCobolToJava toLowerCase parsed cobolFile cobolLine (some sourceProvider)).1 =
      .ok targets →
    ∀ target ∈ targets, ∀ region ∈ regionsOf parsed target.javaFile, isManual region = true →
      region.lineRange ≠ ⟨target.javaStartLine, target.javaEndLine⟩
  sorted : ∀ cobolFile cobolLine targets,
    (resolveCobolToJava toLowerCase parsed cobolFile cobolLine (some sourceProvider)).1 =
      .ok targets →
    targets.Pairwise InOrder ∧ targets.Nodup

theorem navigatesBothWays_of_disjoint
    (hdisjoint : ∀ javaFile, PairwiseDisjoint (regionsOf parsed javaFile)) :
    NavigatesBothWays toLowerCase parsed sourceProvider where
  toJava := by
    intro javaFile source javaLine anchor hsource hresolved
    obtain ⟨region, chosen, irAnchor, hfind, hmanual, hchosen, hsymbol, rfl⟩ :=
      resolveJavaToCobol_eq_ok.mp hresolved
    obtain ⟨hregion, hline⟩ := mem_of_findEnclosingRegion hfind
    obtain ⟨⟨hencloses, -⟩, hanchor⟩ :=
      (choose_spec (parseInlineIrAnchors source) none nofun).1 chosen hchosen
    -- the region that encloses the line encloses the chosen anchor too
    have htarget : ⟨javaFile, region.lineRange.startLine, region.lineRange.endLine⟩ ∈
        collectJavaTargets toLowerCase parsed irAnchor.cobolFile irAnchor.cobolLine
          sourceProvider := by
      rw [mem_collectJavaTargets]
      refine ⟨source, chosen, hsource, hanchor.resolve_right nofun, ?_⟩
      rw [targetOf_eq_some]
      exact ⟨irAnchor, region, hsymbol, cobolFileMatches_self _ _, rfl,
        findEnclosingRegion_of_mem (hdisjoint javaFile) hregion hencloses, hmanual, rfl⟩
    refine ⟨_, region, hregion, resolveCobolToJava_eq_ok.mpr ⟨rfl, ?_⟩, hline, htarget⟩
    exact List.ne_nil_of_mem htarget
  toCobol := by
    intro cobolFile cobolLine targets hresolved target htarget
    obtain ⟨rfl, -⟩ := resolveCobolToJava_eq_ok.mp hresolved
    obtain ⟨source, anchor, hsource, hanchor, htargetOf⟩ := mem_collectJavaTargets.mp htarget
    obtain ⟨irAnchor, region, hsymbol, hmatches, hcobolLine, hfind, hmanual, heq⟩ :=
      (targetOf_eq_some _ _ _ _).mp htargetOf
    have hencloses := (mem_of_findEnclosingRegion hfind).2
    obtain ⟨hstart, hend⟩ := encloses_iff.mp hencloses
    refine ⟨source, anchor.javaLine, ⟨irAnchor.cobolFile, irAnchor.cobolLine⟩, hsource, ?_, ?_,
      resolveJavaToCobol_eq_ok.mpr ⟨region, anchor, irAnchor, hfind, hmanual,
        choose_at_anchor hanchor hencloses, hsymbol, rfl⟩, hcobolLine, hmatches⟩
    · rw [heq]
      exact hstart
    · rw [heq]
      exact hend
  manualLine := by
    intro javaFile region hregion hmanual javaLine hline source anchor hresolved
    obtain ⟨region', -, -, hfind, hnot, -⟩ := resolveJavaToCobol_eq_ok.mp hresolved
    obtain rfl := Option.some.inj
      ((findEnclosingRegion_of_mem (hdisjoint javaFile) hregion hline).symm.trans hfind)
    rw [hmanual] at hnot
    cases hnot
  manualRegion := by
    intro cobolFile cobolLine targets hresolved target htarget region hregion hmanual hrange
    obtain ⟨rfl, -⟩ := resolveCobolToJava_eq_ok.mp hresolved
    obtain ⟨source, anchor, -, -, htargetOf⟩ := mem_collectJavaTargets.mp htarget
    obtain ⟨-, region', -, -, -, hfind, hnot, heq⟩ := (targetOf_eq_some _ _ _ _).mp htargetOf
    obtain ⟨hregion', hencloses⟩ := mem_of_findEnclosingRegion hfind
    have hsame : region.lineRange = region'.lineRange := by
      rw [hrange, heq]
    have hline : encloses region anchor.javaLine = true := by
      rw [encloses, hsame]
      exact hencloses
    obtain rfl := eq_of_encloses (hdisjoint target.javaFile) hregion hregion' hline hencloses
    rw [hmanual] at hnot
    cases hnot
  sorted := by
    intro cobolFile cobolLine targets hresolved
    obtain ⟨rfl, -⟩ := resolveCobolToJava_eq_ok.mp hresolved
    exact ⟨pairwise_collectJavaTargets toLowerCase parsed cobolFile cobolLine sourceProvider,
      (collectJavaTargets_spec toLowerCase parsed cobolFile cobolLine sourceProvider).1⟩

/-- For an envelope whose regions are disjoint in each file, whatever the sources. -/
theorem navigation_roundTrip (toLowerCase : Text → Text)
    (envelope : List (Text × Library.JsonText.Json)) (sourceProvider : JavaSourceProvider)
    (hdisjoint : ∀ javaFile, PairwiseDisjoint (regionsOf (buildParsedTrace envelope) javaFile)) :
    NavigatesBothWays toLowerCase (buildParsedTrace envelope) sourceProvider :=
  navigatesBothWays_of_disjoint hdisjoint

/-- A generated region above a manual edit. -/
def sampleEnvelope : List (Text × Library.JsonText.Json) :=
  let region (startLine endLine : Library.JsonText.Numeral) (originClass : String) :
      Library.JsonText.Json :=
    .object [("schemaVersion".toList, .string "v0".toList),
      ("lineRange".toList, .object [("startLine".toList, .number startLine),
        ("endLine".toList, .number endLine)]),
      ("originClass".toList, .string originClass.toList),
      ("verificationOutcome".toList, .string "no_oracle".toList),
      ("mappingClass".toList, .string "direct".toList)]
  [("programId".toList, .string "PAY".toList),
    ("irSymbolMap".toList, .object [("s-move-1".toList,
      .object [("cobolFile".toList, .string "PAY.cbl".toList),
        ("cobolLine".toList, .number ⟨"7".toList, by decide⟩)])]),
    ("javaRegionClassification".toList, .object [("Pay.java".toList, .array
      [region ⟨"1".toList, by decide⟩ ⟨"2".toList, by decide⟩ "deterministic",
        region ⟨"3".toList, by decide⟩ ⟨"4".toList, by decide⟩ "manual_edit"])])]

def sampleSources (javaFile : Text) : Option Text :=
  if javaFile = "Pay.java".toList then some "// move [s-move-1 line 7] MOVE A TO B\n;\n".toList
  else none

theorem sampleEnvelope_navigates :
    (resolveJavaToCobol (buildParsedTrace sampleEnvelope) "Pay.java".toList 2
      ((sampleSources "Pay.java".toList).getD [])).1 = .ok ⟨"PAY.cbl".toList, 7⟩ ∧
    NavigatesBothWays id (buildParsedTrace sampleEnvelope) sampleSources := by
  refine ⟨by decide +kernel, navigation_roundTrip id sampleEnvelope sampleSources ?_⟩
  have hmap : ((buildParsedTrace sampleEnvelope).javaRegionClassification.map fun entry =>
      (entry.1, entry.2.map JavaRegionClassification.lineRange)) =
        [("Pay.java".toList, [⟨1, 2⟩, ⟨3, 4⟩])] := by
    decide +kernel
  have hentries : ∀ entry ∈ (buildParsedTrace sampleEnvelope).javaRegionClassification,
      entry.2.map JavaRegionClassification.lineRange = [⟨1, 2⟩, ⟨3, 4⟩] := by
    intro entry hentry
    have hmem : (entry.1, entry.2.map JavaRegionClassification.lineRange) ∈ _ :=
      hmap ▸ List.mem_map.mpr ⟨entry, hentry, rfl⟩
    exact congrArg Prod.snd (List.mem_singleton.mp hmem)
  intro javaFile
  unfold regionsOf
  cases hlookup : (buildParsedTrace sampleEnvelope).javaRegionClassification.lookup javaFile with
  | none => exact List.Pairwise.nil
  | some regions =>
      obtain ⟨before, after, heq, -⟩ := List.lookup_eq_some_iff.mp hlookup
      have hranges := hentries (javaFile, regions) (by simp [heq])
      have hapart : (regions.map JavaRegionClassification.lineRange).Pairwise fun range next =>
          range.endLine < next.startLine := by
        rw [hranges]
        decide
      apply (List.pairwise_map.mp hapart).imp
      rintro region next hlt line ⟨hline, hline'⟩
      have hle := (encloses_iff.mp hline).2
      have hge := (encloses_iff.mp hline').1
      omega

end BothWays

end C2c.Studio.LineageNavigation
