import Mathlib.Data.Finset.Card
import C2c.Library.Machine
import C2c.Library.PythonDict
import C2c.Library.RegExp

/-!
The rate limiter of the session routes, and what its uses have left behind.
-/

namespace C2c.Bff.RateLimit

open C2c.Library.RegExp (CodeUnits unitsOf)
open C2c.Library.Machine
open C2c.Library.PythonDict

structure RateLimiterOptions where
  maxHits : Int := 10
  windowMs : Int := 60000
  maxBuckets : Int := 4096

/-- The map of the buckets, in the order of their insertion. -/
abbrev Buckets := List (CodeUnits × List Int)

section Limiter

variable (options : RateLimiterOptions) (buckets : Buckets) (currentMs : Int)
  (bucketKey : CodeUnits)

def evictUntilUnderCap : Buckets :=
  makeRoom options.maxBuckets buckets

/-- The timestamps of a key, and the map, to which a new key is added. -/
def bucketOf : List Int × Buckets :=
  match buckets.lookup bucketKey with
  | some timestamps => (timestamps, buckets)
  | none => ([], assign bucketKey [] (evictUntilUnderCap options buckets))

def consume : Bool × Buckets :=
  if bucketKey.length = 0 then (true, buckets)
  else
    let cutoff := currentMs - options.windowMs
    let (timestamps, buckets) := bucketOf options buckets bucketKey
    let timestamps := timestamps.filter fun ts => decide (ts > cutoff)
    if (timestamps.length : Int) ≥ options.maxHits then
      (false, assign bucketKey timestamps buckets)
    else (true, assign bucketKey (timestamps ++ [currentMs]) buckets)

end Limiter

structure Call where
  now : Int
  bucketKey : CodeUnits

/-- A call that was answered, and what it did to the buckets. -/
structure Use where
  time : Int
  key : CodeUnits
  permitted : Bool
  created : Bool
  evicted : List CodeUnits
deriving DecidableEq

structure State where
  buckets : Buckets := []
  log : List Use := []

def State.keys (s : State) : List CodeUnits :=
  s.buckets.map Prod.fst

def step (options : RateLimiterOptions) (s : State) (call : Call) : State :=
  let (permitted, buckets) := consume options s.buckets call.now call.bucketKey
  let keys := buckets.map Prod.fst
  { buckets := buckets
    log := s.log ++
      [{ time := call.now
         key := call.bucketKey
         permitted := permitted
         created := decide (call.bucketKey ∉ s.keys ∧ call.bucketKey ∈ keys)
         evicted := s.keys.filter fun key => decide (key ∉ keys) }] }

/-- The calls for a key that were permitted at certain times. -/
def permits (log : List Use) (key : CodeUnits) (within : Int → Bool) : Nat :=
  log.countP fun use => use.key = key && use.permitted && within use.time

/-- A half-open interval of the window's length. -/
def inWindow (options : RateLimiterOptions) (opening time : Int) : Bool :=
  decide (opening ≤ time ∧ time < opening + options.windowMs)

/-- The bucket of a key is not evicted in an interval. -/
def Unevicted (options : RateLimiterOptions) (log : List Use) (key : CodeUnits)
    (opening : Int) : Prop :=
  ∀ use ∈ log, inWindow options opening use.time = true → key ∉ use.evicted

/-- The bucket of a key has been there since the first of these uses. -/
def HeldSince (key : CodeUnits) (uses : List Use) : Prop :=
  ∃ created later, uses = created :: later ∧ created.key = key ∧ created.created = true ∧
    ∀ use ∈ later, key ∉ use.evicted

/-- No key gets more permits in a window than are allowed while its bucket is
kept, and none is refused before; a bucket is kept until enough other keys have
been used. -/
structure Limited (options : RateLimiterOptions) (s : State) : Prop where
  bounded : ∀ key ≠ [], ∀ opening, Unevicted options s.log key opening →
    (permits s.log key (inWindow options opening) : Int) ≤ max options.maxHits 0
  refused : ∀ before use after, s.log = before ++ use :: after → use.permitted = false →
    options.maxHits ≤ permits before use.key fun time =>
      decide (use.time - options.windowMs < time ∧ time ≤ use.time)
  evictions : ∀ before use after, s.log = before ++ use :: after → ∀ key ∈ use.evicted,
    ∃ uses, uses <:+ before ∧ HeldSince key uses ∧
      options.maxBuckets ≤ (((uses ++ [use]).map Use.key).toFinset.erase key).card
  capped : (s.buckets.length : Int) ≤ max options.maxBuckets 1

section Steps

def timestampsOf (buckets : Buckets) (key : CodeUnits) : List Int :=
  (buckets.lookup key).getD []

variable {options : RateLimiterOptions} {s : State} {now : Int} {key other : CodeUnits}

/-- The timestamps of a key that are still in its window. -/
def counting (options : RateLimiterOptions) (s : State) (now : Int) (key : CodeUnits) : List Int :=
  (timestampsOf s.buckets key).filter fun ts => decide (ts > now - options.windowMs)

/-- The buckets that stay beside the one of a key. -/
def remaining (options : RateLimiterOptions) (s : State) (key : CodeUnits) : Buckets :=
  if key ∈ s.keys then s.buckets else evictUntilUnderCap options s.buckets

def isPermitted (options : RateLimiterOptions) (s : State) (now : Int) (key : CodeUnits) : Bool :=
  decide ((counting options s now key).length < options.maxHits)

def written (options : RateLimiterOptions) (s : State) (now : Int) (key : CodeUnits) : List Int :=
  counting options s now key ++ if isPermitted options s now key then [now] else []

theorem consume_eq (hkey : key ≠ []) : consume options s.buckets now key =
    (isPermitted options s now key,
      assign key (written options s now key) (remaining options s key)) := by
  have hlength : ¬ key.length = 0 := fun h => hkey (List.length_eq_zero_iff.mp h)
  have hbucket : (bucketOf options s.buckets key).1 = timestampsOf s.buckets key ∧
      ∀ timestamps, assign key timestamps (bucketOf options s.buckets key).2 =
        assign key timestamps (remaining options s key) := by
    unfold bucketOf timestampsOf remaining
    cases hlookup : s.buckets.lookup key with
    | none =>
        have hnew : key ∉ s.keys := by
          intro hmem
          obtain ⟨entry, hentry, rfl⟩ := List.mem_map.mp hmem
          simpa using List.lookup_eq_none_iff.mp hlookup entry hentry
        rw [if_neg hnew]
        exact ⟨rfl, fun timestamps => assign_assign key [] timestamps _⟩
    | some timestamps =>
        have hheld : key ∈ s.keys := List.mem_map_of_mem (mem_of_lookup hlookup)
        rw [if_pos hheld]
        exact ⟨rfl, fun _ => rfl⟩
  unfold consume
  rw [if_neg hlength]
  dsimp only
  rw [hbucket.1, hbucket.2, hbucket.2]
  unfold written isPermitted counting
  split_ifs with hfull hroom hroom
  · exact absurd (of_decide_eq_true hroom) (not_lt.mpr hfull)
  · rw [List.append_nil, decide_eq_false (not_lt.mpr hfull)]
  · rw [decide_eq_true (not_le.mp hfull)]
  · exact absurd (decide_eq_true (not_le.mp hfull)) hroom

theorem remaining_suffix : remaining options s key <:+ s.buckets := by
  unfold remaining evictUntilUnderCap
  split_ifs
  · exact List.suffix_refl _
  · rw [makeRoom_eq_drop]
    exact List.drop_suffix _ _

theorem mem_remaining_iff :
    key ∈ (remaining options s key).map Prod.fst ↔ key ∈ s.keys := by
  constructor
  · exact fun h => (remaining_suffix.sublist.map _).subset h
  · intro h
    unfold remaining
    rwa [if_pos h]

theorem keys_assign_remaining (timestamps : List Int) :
    (assign key timestamps (remaining options s key)).map Prod.fst =
      if key ∈ s.keys then s.keys else (remaining options s key).map Prod.fst ++ [key] := by
  split_ifs with h
  · rw [keys_assign_of_mem _ (mem_remaining_iff.mpr h)]
    unfold remaining
    rw [if_pos h]
    rfl
  · rw [assign_of_notMem _ fun hmem => h (mem_remaining_iff.mp hmem), List.map_append]
    rfl

theorem step_of_ne (hkey : key ≠ []) :
    step options s ⟨now, key⟩ =
      { buckets := assign key (written options s now key) (remaining options s key)
        log := s.log ++
          [{ time := now
             key := key
             permitted := isPermitted options s now key
             created := decide (key ∉ s.keys)
             evicted := s.keys.filter fun other =>
               decide (other ∉ (remaining options s key).map Prod.fst) }] } := by
  have hcreated (timestamps : List Int) :
      key ∈ (assign key timestamps (remaining options s key)).map Prod.fst := by
    rw [keys_assign_remaining]
    split_ifs with h
    · exact h
    · exact List.mem_append_right _ (List.mem_singleton_self key)
  have hevicted (timestamps : List Int) :
      (s.keys.filter fun other =>
        decide (other ∉ (assign key timestamps (remaining options s key)).map Prod.fst)) =
      s.keys.filter fun other => decide (other ∉ (remaining options s key).map Prod.fst) := by
    refine List.filter_congr fun other hother => decide_eq_decide.mpr (not_congr ?_)
    rw [keys_assign_remaining]
    split_ifs with h
    · unfold remaining
      rw [if_pos h]
      exact Iff.rfl
    · have hne : other ≠ key := fun heq => h (heq ▸ hother)
      rw [List.mem_append, List.mem_singleton, or_iff_left hne]
  unfold step
  dsimp only
  rw [consume_eq hkey]
  simp only [hcreated, hevicted, and_true]

theorem step_of_nil :
    step options s ⟨now, []⟩ =
      { s with
        log := s.log ++
          [{ time := now, key := [], permitted := true, created := false, evicted := [] }] } := by
  have hevicted : (s.keys.filter fun key => decide (key ∉ s.keys)) = [] :=
    List.filter_eq_nil_iff.mpr fun key hkey => by simp [hkey]
  have hconsume : consume options s.buckets now [] = (true, s.buckets) := rfl
  unfold step
  dsimp only
  rw [hconsume]
  show State.mk _ (s.log ++ [⟨now, [], true, decide ([] ∉ s.keys ∧ [] ∈ s.keys), _⟩]) = _
  rw [decide_eq_false fun h => h.1 h.2]
  exact congrArg (fun evicted => State.mk s.buckets (s.log ++ [⟨now, [], true, false, evicted⟩]))
    hevicted

theorem timestampsOf_step (hkey : key ≠ []) (hnodup : s.keys.Nodup) :
    timestampsOf (step options s ⟨now, key⟩).buckets other =
      if other = key then written options s now key
      else if other ∈ (remaining options s key).map Prod.fst then timestampsOf s.buckets other
      else [] := by
  rw [step_of_ne hkey]
  unfold timestampsOf
  rw [lookup_assign]
  split_ifs with hsame hheld
  · rfl
  · rw [lookup_of_sublist hnodup remaining_suffix.sublist hheld]
  · have hnone : (remaining options s key).lookup other = none := by
      rw [List.lookup_eq_none_iff]
      intro entry hentry
      have hne : other ≠ entry.1 := fun heq => hheld (heq ▸ List.mem_map_of_mem hentry)
      simpa using hne
    rw [hnone]
    rfl

theorem permits_append (log : List Use) (use : Use) (key : CodeUnits) (within : Int → Bool) :
    permits (log ++ [use]) key within = permits log key within +
      if (use.key = key && use.permitted && within use.time) = true then 1 else 0 := by
  unfold permits
  rw [List.countP_append, List.countP_singleton]

theorem permits_append_of_ne (log : List Use) {use : Use} (hkey : use.key ≠ other)
    (within : Int → Bool) : permits (log ++ [use]) other within = permits log other within := by
  simp [permits_append, hkey]

theorem permits_mono {log : List Use} {within within' : Int → Bool}
    (h : ∀ use ∈ log, within use.time = true → within' use.time = true) :
    permits log key within ≤ permits log key within' := by
  refine List.countP_mono_left fun use huse hcounted => ?_
  simp only [Bool.and_eq_true] at hcounted ⊢
  exact ⟨hcounted.1, h use huse hcounted.2⟩

theorem permits_eq_zero {log : List Use} {within : Int → Bool}
    (h : ∀ use ∈ log, within use.time = false) : permits log key within = 0 := by
  refine List.countP_eq_zero.mpr fun use huse => ?_
  simp [h use huse]

/-- What the buckets tell about the uses so far. -/
structure Tracks (options : RateLimiterOptions) (s : State) : Prop where
  nodup : s.keys.Nodup
  counted : ∀ key ≠ [], ∀ opening, Unevicted options s.log key opening →
    (∀ use ∈ s.log, use.time < opening + options.windowMs) →
    permits s.log key (fun time => decide (opening ≤ time)) ≤
      (timestampsOf s.buckets key).countP fun ts => decide (opening ≤ ts)
  sound : ∀ key cutoff, ((timestampsOf s.buckets key).countP fun ts => decide (ts > cutoff)) ≤
    permits s.log key fun time => decide (time > cutoff)
  held : ∀ key after, key :: after <:+ s.keys →
    ∃ uses, uses <:+ s.log ∧ HeldSince key uses ∧ ∀ other ∈ after, other ∈ uses.map Use.key

theorem tracks_init : Tracks options {} where
  nodup := List.nodup_nil
  counted _ _ _ _ _ := Nat.zero_le _
  sound _ _ := Nat.zero_le _
  held key after h := absurd (List.suffix_nil.mp h) (List.cons_ne_nil key after)

theorem Unevicted.of_append {log : List Use} {use : Use} {opening : Int}
    (h : Unevicted options (log ++ [use]) key opening) : Unevicted options log key opening :=
  fun earlier hearlier => h earlier (List.mem_append_left _ hearlier)

theorem countP_counting {opening : Int} (hopening : now < opening + options.windowMs) :
    ((counting options s now key).countP fun ts => decide (opening ≤ ts)) =
      (timestampsOf s.buckets key).countP fun ts => decide (opening ≤ ts) := by
  unfold counting
  rw [List.countP_filter]
  refine List.countP_congr fun ts _ => ?_
  simp only [Bool.and_eq_true, decide_eq_true_eq]
  omega

theorem counted_step (h : Tracks options s) (htime : ∀ use ∈ s.log, use.time ≤ now)
    (hkey : key ≠ []) (hother : other ≠ []) {opening : Int}
    (hunevicted : Unevicted options (step options s ⟨now, key⟩).log other opening)
    (hopen : now < opening + options.windowMs) :
    permits (step options s ⟨now, key⟩).log other (fun time => decide (opening ≤ time)) ≤
      (timestampsOf (step options s ⟨now, key⟩).buckets other).countP
        fun ts => decide (opening ≤ ts) := by
  rw [timestampsOf_step hkey h.nodup]
  rw [step_of_ne hkey] at hunevicted ⊢
  have hbefore := h.counted other hother opening hunevicted.of_append fun use huse =>
    lt_of_le_of_lt (htime use huse) hopen
  by_cases hsame : other = key
  · subst hsame
    rw [if_pos rfl, permits_append, written, List.countP_append, countP_counting hopen]
    refine Nat.add_le_add hbefore ?_
    by_cases hpermitted : isPermitted options s now other = true
    · simp [hpermitted, List.countP_singleton]
    · simp [hpermitted]
  · rw [if_neg hsame, permits_append_of_ne _ (Ne.symm hsame)]
    split_ifs with hheld
    · exact hbefore
    · refine Nat.le_of_eq ?_
      rw [List.countP_nil]
      by_cases hknown : other ∈ s.keys
      · have hout : ¬ inWindow options opening now = true := fun hin =>
          hunevicted _ (List.mem_append_right _ (List.mem_singleton_self _)) hin
            (List.mem_filter.mpr ⟨hknown, decide_eq_true hheld⟩)
        have hearly : now < opening := by
          unfold inWindow at hout
          rw [decide_eq_true_eq] at hout
          omega
        refine permits_eq_zero fun use huse => decide_eq_false ?_
        exact not_le.mpr (lt_of_le_of_lt (htime use huse) hearly)
      · have hnone : timestampsOf s.buckets other = [] := by
          unfold timestampsOf
          rw [List.lookup_eq_none_iff.mpr]
          · rfl
          · intro entry hentry
            have hne : other ≠ entry.1 := fun heq => hknown (heq ▸ List.mem_map_of_mem hentry)
            simpa using hne
        rw [hnone, List.countP_nil] at hbefore
        exact Nat.le_zero.mp hbefore

theorem sound_step (h : Tracks options s) (hkey : key ≠ []) (cutoff : Int) :
    ((timestampsOf (step options s ⟨now, key⟩).buckets other).countP fun ts =>
        decide (ts > cutoff)) ≤
      permits (step options s ⟨now, key⟩).log other fun time => decide (time > cutoff) := by
  have hbefore := h.sound other cutoff
  rw [timestampsOf_step hkey h.nodup, step_of_ne hkey]
  by_cases hsame : other = key
  · subst hsame
    rw [if_pos rfl, permits_append, written, List.countP_append]
    refine Nat.add_le_add ?_ ?_
    · exact (List.Sublist.countP_le List.filter_sublist).trans hbefore
    · by_cases hpermitted : isPermitted options s now other = true
      · simp [hpermitted, List.countP_singleton]
      · simp [hpermitted]
  · rw [if_neg hsame, permits_append_of_ne _ (Ne.symm hsame)]
    split_ifs
    · exact hbefore
    · exact Nat.zero_le _

theorem HeldSince.append {uses : List Use} {use : Use} (h : HeldSince other uses)
    (hkept : other ∉ use.evicted) : HeldSince other (uses ++ [use]) := by
  obtain ⟨created, later, rfl, hkey, hcreated, hlater⟩ := h
  refine ⟨created, later ++ [use], rfl, hkey, hcreated, fun earlier hearlier => ?_⟩
  rcases List.mem_append.mp hearlier with hearlier | hearlier
  · exact hlater earlier hearlier
  · rw [List.mem_singleton.mp hearlier]
    exact hkept

theorem suffix_append_singleton {uses log : List Use} (h : uses <:+ log) (use : Use) :
    uses ++ [use] <:+ log ++ [use] :=
  List.suffix_concat_iff.mpr (Or.inr ⟨uses, rfl, h⟩)

theorem keys_step (hkey : key ≠ []) : (step options s ⟨now, key⟩).keys =
    if key ∈ s.keys then s.keys else (remaining options s key).map Prod.fst ++ [key] := by
  unfold State.keys
  rw [step_of_ne hkey]
  exact keys_assign_remaining _

theorem held_step (h : Tracks options s) (hkey : key ≠ []) {after : List CodeUnits}
    (hafter : other :: after <:+ (step options s ⟨now, key⟩).keys) :
    ∃ uses, uses <:+ (step options s ⟨now, key⟩).log ∧ HeldSince other uses ∧
      ∀ later ∈ after, later ∈ uses.map Use.key := by
  rw [keys_step hkey] at hafter
  rw [step_of_ne hkey]
  dsimp only
  have hextend {kept : List CodeUnits} (hsuffix : other :: kept <:+ s.keys)
      (hheld : other ∈ (remaining options s key).map Prod.fst)
      (hafter : ∀ later ∈ after, later ∈ kept ∨ later = key) :
      ∃ uses, uses <:+ s.log ++ [(Use.mk now key (isPermitted options s now key)
          (decide (key ∉ s.keys)) (s.keys.filter fun other =>
            decide (other ∉ (remaining options s key).map Prod.fst)))] ∧
        HeldSince other uses ∧ ∀ later ∈ after, later ∈ uses.map Use.key := by
    obtain ⟨uses, huses, hsince, hused⟩ := h.held other kept hsuffix
    refine ⟨_, suffix_append_singleton huses _, hsince.append ?_, fun later hlater => ?_⟩
    · exact fun hmem => of_decide_eq_true (List.mem_filter.mp hmem).2 hheld
    · rw [List.map_append]
      rcases hafter later hlater with hlater | rfl
      · exact List.mem_append_left _ (hused later hlater)
      · exact List.mem_append_right _ (List.mem_singleton_self _)
  split_ifs at hafter with hknown
  · refine hextend hafter ?_ fun later hlater => Or.inl hlater
    unfold remaining
    rw [if_pos hknown]
    exact hafter.subset List.mem_cons_self
  · rcases List.suffix_concat_iff.mp hafter with hnil | ⟨kept, heq, hkept⟩
    · exact absurd hnil (List.cons_ne_nil _ _)
    · cases kept with
      | nil =>
          obtain ⟨rfl, rfl⟩ := List.cons.inj heq
          refine ⟨_, List.suffix_append _ _, ⟨_, [], rfl, rfl, decide_eq_true hknown, ?_⟩, ?_⟩
          · exact fun _ hmem => absurd hmem List.not_mem_nil
          · exact fun _ hmem => absurd hmem List.not_mem_nil
      | cons first kept =>
          obtain ⟨rfl, rfl⟩ := List.cons.inj heq
          have hkeys : (remaining options s key).map Prod.fst <:+ s.keys := remaining_suffix.map _
          refine hextend (hkept.trans hkeys) (hkept.subset List.mem_cons_self) ?_
          intro later hlater
          exact (List.mem_append.mp hlater).imp_right List.mem_singleton.mp

theorem nodup_step (h : s.keys.Nodup) (hkey : key ≠ []) :
    (step options s ⟨now, key⟩).keys.Nodup := by
  rw [keys_step hkey]
  split_ifs with hknown
  · exact h
  · have hkept : ((remaining options s key).map Prod.fst).Nodup :=
      h.sublist (remaining_suffix.sublist.map _)
    refine hkept.append (List.nodup_singleton key) ?_
    rw [List.disjoint_singleton]
    exact fun hmem => hknown (mem_remaining_iff.mp hmem)

theorem tracks_step (h : Tracks options s) (call : Call)
    (htime : ∀ use ∈ s.log, use.time ≤ call.now) : Tracks options (step options s call) := by
  obtain ⟨now, key⟩ := call
  by_cases hkey : key = []
  · subst hkey
    rw [step_of_nil]
    refine ⟨h.nodup, fun other hother opening hunevicted hopen => ?_, fun other cutoff => ?_,
      fun other after hafter => ?_⟩
    · rw [permits_append_of_ne _ (Ne.symm hother)]
      exact h.counted other hother opening hunevicted.of_append fun use huse =>
        hopen use (List.mem_append_left _ huse)
    · refine (h.sound other cutoff).trans ?_
      rw [permits_append]
      exact Nat.le_add_right _ _
    · obtain ⟨uses, huses, hsince, hused⟩ := h.held other after hafter
      refine ⟨_, suffix_append_singleton huses _, hsince.append List.not_mem_nil, ?_⟩
      intro later hlater
      rw [List.map_append]
      exact List.mem_append_left _ (hused later hlater)
  · refine ⟨nodup_step h.nodup hkey, fun other hother opening hunevicted hopen => ?_,
      fun other cutoff => sound_step h hkey cutoff, fun other after => held_step h hkey⟩
    refine counted_step h htime hkey hother hunevicted ?_
    rw [step_of_ne hkey] at hopen
    exact hopen _ (List.mem_append_right _ (List.mem_singleton_self _))

/-- What holds at every place of a list holds before its last item and there. -/
theorem forall_places_append {P : List Use → Use → Prop} {log : List Use} {last : Use}
    (h : ∀ before use after, log = before ++ use :: after → P before use) (hlast : P log last) :
    ∀ before use after, log ++ [last] = before ++ use :: after → P before use := by
  intro before use after heq
  rcases List.eq_nil_or_concat after with rfl | ⟨after, final, rfl⟩
  · obtain ⟨rfl, hone⟩ := List.append_inj' heq rfl
    exact (List.singleton_inj.mp hone) ▸ hlast
  · rw [List.concat_eq_append, ← List.cons_append, ← List.append_assoc] at heq
    exact h before use after (List.append_inj' heq rfl).1

theorem bounded_step (h : Tracks options s) (htime : ∀ use ∈ s.log, use.time ≤ now)
    (hkey : key ≠ []) {opening : Int}
    (hunevicted : Unevicted options s.log key opening)
    (hin : inWindow options opening now = true) (hpermitted : isPermitted options s now key = true) :
    (permits s.log key (inWindow options opening) : Int) < options.maxHits := by
  have hwindow := of_decide_eq_true hin
  calc (permits s.log key (inWindow options opening) : Int)
      ≤ permits s.log key fun time => decide (opening ≤ time) := by
        refine Int.ofNat_le.mpr (permits_mono fun use _ hinside => ?_)
        exact decide_eq_true (of_decide_eq_true hinside).1
    _ ≤ (timestampsOf s.buckets key).countP fun ts => decide (opening ≤ ts) := by
        refine Int.ofNat_le.mpr (h.counted key hkey opening hunevicted fun use huse => ?_)
        exact lt_of_le_of_lt (htime use huse) hwindow.2
    _ = (counting options s now key).countP fun ts => decide (opening ≤ ts) := by
        rw [countP_counting hwindow.2]
    _ ≤ (counting options s now key).length := Int.ofNat_le.mpr List.countP_le_length
    _ < options.maxHits := of_decide_eq_true hpermitted

theorem refused_step (h : Tracks options s) (htime : ∀ use ∈ s.log, use.time ≤ now)
    (hrefused : isPermitted options s now key = false) :
    options.maxHits ≤ permits s.log key fun time =>
      decide (now - options.windowMs < time ∧ time ≤ now) := by
  calc options.maxHits
      ≤ (counting options s now key).length := not_lt.mp (of_decide_eq_false hrefused)
    _ = (timestampsOf s.buckets key).countP fun ts => decide (ts > now - options.windowMs) := by
        rw [counting, List.countP_eq_length_filter]
    _ ≤ permits s.log key fun time => decide (time > now - options.windowMs) :=
        Int.ofNat_le.mpr (h.sound key _)
    _ ≤ permits s.log key fun time => decide (now - options.windowMs < time ∧ time ≤ now) := by
        refine Int.ofNat_le.mpr (permits_mono fun use huse hinside => ?_)
        exact decide_eq_true ⟨of_decide_eq_true hinside, htime use huse⟩

theorem evictions_step (h : Tracks options s) {use : Use} (huse : use.key = key)
    (hknown : other ∈ s.keys) (hgone : other ∉ (remaining options s key).map Prod.fst) :
    ∃ uses, uses <:+ s.log ∧ HeldSince other uses ∧
      options.maxBuckets ≤ (((uses ++ [use]).map Use.key).toFinset.erase other).card := by
  obtain ⟨before, after, hkeys⟩ := List.append_of_mem hknown
  obtain ⟨uses, huses, hsince, hused⟩ := h.held other after ⟨before, hkeys.symm⟩
  have hnew : key ∉ s.keys := by
    intro hmem
    unfold remaining at hgone
    rw [if_pos hmem] at hgone
    exact hgone hknown
  -- all before the evicted bucket is evicted with it
  have hbefore : options.maxBuckets ≤ (after.length : Int) + 1 := by
    have hlength : s.buckets.length = before.length + after.length + 1 := by
      rw [← List.length_map Prod.fst]
      show s.keys.length = _
      rw [hkeys, List.length_append, List.length_cons]
      omega
    by_contra hfew
    apply hgone
    unfold remaining evictUntilUnderCap
    rw [if_neg hnew, makeRoom_eq_drop, List.map_drop]
    show other ∈ s.keys.drop _
    rw [hkeys, List.drop_append_of_le_length (by omega)]
    exact List.mem_append_right _ List.mem_cons_self
  refine ⟨uses, huses, hsince, hbefore.trans ?_⟩
  have hnodup : (after ++ [key]).Nodup ∧ other ∉ after ++ [key] := by
    have hall := h.nodup
    rw [hkeys] at hall hnew
    have htail := List.nodup_cons.mp (List.nodup_append.mp hall).2.1
    have hkey : key ∉ other :: after := fun hmem => hnew (List.mem_append_right _ hmem)
    refine ⟨htail.2.append (List.nodup_singleton key) ?_, fun hmem => ?_⟩
    · rw [List.disjoint_singleton]
      exact fun hmem => hkey (List.mem_cons_of_mem _ hmem)
    · rcases List.mem_append.mp hmem with hmem | hmem
      · exact htail.1 hmem
      · exact hkey (List.mem_singleton.mp hmem ▸ List.mem_cons_self)
  have hsubset : (after ++ [key]).toFinset ⊆
      ((uses ++ [use]).map Use.key).toFinset.erase other := by
    intro later hlater
    rw [List.mem_toFinset] at hlater
    refine Finset.mem_erase.mpr ⟨fun heq => hnodup.2 (heq ▸ hlater), ?_⟩
    rw [List.mem_toFinset, List.map_append]
    rcases List.mem_append.mp hlater with hlater | hlater
    · exact List.mem_append_left _ (hused later hlater)
    · refine List.mem_append_right _ ?_
      rw [List.mem_singleton.mp hlater, List.map_singleton, huse]
      exact List.mem_singleton_self key
  have hcard := Finset.card_le_card hsubset
  rw [List.toFinset_card_of_nodup hnodup.1, List.length_append, List.length_singleton] at hcard
  exact_mod_cast hcard

theorem capped_step (h : (s.buckets.length : Int) ≤ max options.maxBuckets 1) (hkey : key ≠ []) :
    ((step options s ⟨now, key⟩).buckets.length : Int) ≤ max options.maxBuckets 1 := by
  rw [← List.length_map Prod.fst]
  show (((step options s ⟨now, key⟩).keys.length : Nat) : Int) ≤ _
  rw [keys_step hkey]
  split_ifs with hknown
  · unfold State.keys
    rwa [List.length_map]
  · unfold remaining evictUntilUnderCap
    rw [if_neg hknown, makeRoom_eq_drop, List.length_append, List.length_map, List.length_drop,
      List.length_singleton]
    omega

theorem limited_step (htracks : Tracks options s) (h : Limited options s) (call : Call)
    (htime : ∀ use ∈ s.log, use.time ≤ call.now) : Limited options (step options s call) := by
  obtain ⟨now, key⟩ := call
  by_cases hkey : key = []
  · subst hkey
    rw [step_of_nil]
    refine ⟨fun other hother opening hunevicted => ?_, ?_, ?_, h.capped⟩
    · rw [permits_append_of_ne _ (Ne.symm hother)]
      exact h.bounded other hother opening hunevicted.of_append
    · exact forall_places_append h.refused fun hfalse => Bool.noConfusion hfalse
    · exact forall_places_append h.evictions fun _ hmem => absurd hmem List.not_mem_nil
  · have hcapped := @capped_step _ _ now _ h.capped hkey
    rw [step_of_ne hkey] at hcapped ⊢
    refine ⟨fun other hother opening hunevicted => ?_, ?_, ?_, hcapped⟩
    · have hbefore := h.bounded other hother opening hunevicted.of_append
      dsimp only
      rw [permits_append]
      split_ifs with hcounted
      · simp only [Bool.and_eq_true, decide_eq_true_eq] at hcounted
        obtain ⟨⟨rfl, hpermitted⟩, hin⟩ := hcounted
        have hfree := bounded_step htracks htime hkey hunevicted.of_append hin hpermitted
        push_cast
        omega
      · exact hbefore
    · exact forall_places_append h.refused fun hrefused => refused_step htracks htime hrefused
    · refine forall_places_append h.evictions fun other hmem => ?_
      obtain ⟨hknown, hgone⟩ := List.mem_filter.mp hmem
      exact evictions_step htracks rfl hknown (of_decide_eq_true hgone)

end Steps

theorem log_times (options : RateLimiterOptions) (calls : List Call) :
    (run (step options) {} calls).log.map Use.time = calls.map Call.now := by
  induction calls using List.reverseRecOn with
  | nil => rfl
  | append_singleton calls call ih =>
      rw [run_append, List.map_append, ← ih]
      exact List.map_append

section Sample

def sampleOptions : RateLimiterOptions where
  maxHits := 1
  windowMs := 10
  maxBuckets := 2

def sampleCalls : List Call :=
  [⟨0, unitsOf "a"⟩, ⟨0, unitsOf "b"⟩, ⟨100, unitsOf "a"⟩, ⟨101, unitsOf "c"⟩, ⟨102, unitsOf "a"⟩]

end Sample

end C2c.Bff.RateLimit
