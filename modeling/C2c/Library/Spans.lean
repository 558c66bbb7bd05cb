import Mathlib.Data.List.Basic
import Mathlib.Data.List.Induction
import Mathlib.Order.Nat

/-!
A sweep over spans of positions, from left to right, that takes a span when it
begins at or behind the end of the last one taken.
-/

namespace C2c.Library.Spans

section Sweep

variable {A : Type*} (start stop : A → Nat)

def sweep : Nat → List A → List A
  | _, [] => []
  | cursor, m :: spans =>
      if start m < cursor then sweep cursor spans else m :: sweep (stop m) spans

/-- Where the last span ends that the sweep has taken. -/
def cursorAfter : Nat → List A → Nat
  | cursor, [] => cursor
  | cursor, m :: spans =>
      if start m < cursor then cursorAfter cursor spans else cursorAfter (stop m) spans

/-- The positions between the spans that were taken. -/
def gaps (length : Nat) : Nat → List A → List Nat
  | cursor, [] => List.range' cursor (length - cursor)
  | cursor, m :: taken => List.range' cursor (start m - cursor) ++ gaps length (stop m) taken

variable {start stop}

theorem sweep_append (cursor : Nat) (spans later : List A) :
    sweep start stop cursor (spans ++ later) =
      sweep start stop cursor spans ++
        sweep start stop (cursorAfter start stop cursor spans) later := by
  induction spans generalizing cursor with
  | nil => rfl
  | cons m spans ih =>
      rw [List.cons_append, sweep, sweep, cursorAfter]
      split
      · exact ih cursor
      · rw [ih (stop m), List.cons_append]

theorem sweep_subset (cursor : Nat) (spans : List A) : sweep start stop cursor spans ⊆ spans := by
  induction spans generalizing cursor with
  | nil => exact List.Subset.refl []
  | cons m spans ih =>
      rw [sweep]
      split
      · exact fun a ha => List.mem_cons_of_mem m (ih cursor ha)
      · exact List.cons_subset_cons m (ih (stop m))

theorem cursorAfter_eq (cursor : Nat) (spans : List A) :
    cursorAfter start stop cursor spans = cursor ∨
      ∃ a ∈ sweep start stop cursor spans, stop a = cursorAfter start stop cursor spans := by
  induction spans generalizing cursor with
  | nil => exact .inl rfl
  | cons m spans ih =>
      rw [sweep, cursorAfter]
      split
      · exact ih cursor
      · rcases ih (stop m) with heq | ⟨a, ha, heq⟩
        · exact .inr ⟨m, List.mem_cons_self, heq.symm⟩
        · exact .inr ⟨a, List.mem_cons_of_mem m ha, heq⟩

/-- What is taken begins at or behind the cursor, and the sweep goes on behind
its end. -/
theorem le_cursorAfter (cursor : Nat) (spans : List A) (hproper : ∀ m ∈ spans, start m < stop m) :
    cursor ≤ cursorAfter start stop cursor spans ∧ ∀ a ∈ sweep start stop cursor spans,
      cursor ≤ start a ∧ stop a ≤ cursorAfter start stop cursor spans := by
  induction spans generalizing cursor with
  | nil => exact ⟨Nat.le_refl _, nofun⟩
  | cons m spans ih =>
      obtain ⟨hm, hspans⟩ := List.forall_mem_cons.mp hproper
      rw [sweep, cursorAfter]
      split
      · exact ih cursor hspans
      · rename_i hcursor
        have hbegins : cursor ≤ start m := Nat.le_of_not_lt hcursor
        obtain ⟨hle, htaken⟩ := ih (stop m) hspans
        refine ⟨by omega, fun a ha => ?_⟩
        rcases List.mem_cons.mp ha with rfl | ha
        · exact ⟨hbegins, hle⟩
        · obtain ⟨hstart, hstop⟩ := htaken a ha
          exact ⟨by omega, hstop⟩

/-- A span is taken, or the sweep has gone on behind its beginning. -/
theorem mem_sweep_or_lt (cursor : Nat) (spans : List A) (hproper : ∀ m ∈ spans, start m < stop m)
    {a : A} (ha : a ∈ spans) : a ∈ sweep start stop cursor spans ∨
      start a < cursorAfter start stop cursor spans := by
  induction spans generalizing cursor with
  | nil => cases ha
  | cons m spans ih =>
      have hspans := (List.forall_mem_cons.mp hproper).2
      rw [sweep, cursorAfter]
      split
      · rename_i hcursor
        rcases List.mem_cons.mp ha with rfl | ha
        · exact .inr (hcursor.trans_le (le_cursorAfter cursor spans hspans).1)
        · exact ih cursor hspans ha
      · rcases List.mem_cons.mp ha with rfl | ha
        · exact .inl List.mem_cons_self
        · exact (ih (stop m) hspans ha).imp_left (List.mem_cons_of_mem m)

theorem range'_split {a b c : Nat} (hab : a ≤ b) (hbc : b ≤ c) :
    List.range' a (c - a) = List.range' a (b - a) ++ List.range' b (c - b) := by
  have hsplit := List.range'_append_1 (s := a) (m := b - a) (n := c - b)
  have hmiddle : a + (b - a) = b := by omega
  have htotal : b - a + (c - b) = c - a := by omega
  rw [hmiddle, htotal] at hsplit
  exact hsplit.symm

/-- The gaps are the positions that no taken span covers. -/
theorem gaps_sweep (length cursor : Nat) (spans : List A)
    (hproper : ∀ m ∈ spans, start m < stop m) (hlength : ∀ m ∈ spans, stop m ≤ length) :
    gaps start stop length cursor (sweep start stop cursor spans) =
      (List.range' cursor (length - cursor)).filter fun i =>
        (sweep start stop cursor spans).all fun m => i < start m || stop m ≤ i := by
  induction spans generalizing cursor with
  | nil => simp [sweep, gaps]
  | cons m spans ih =>
      obtain ⟨hm, hspans⟩ := List.forall_mem_cons.mp hproper
      obtain ⟨hend, hends⟩ := List.forall_mem_cons.mp hlength
      rw [sweep]
      split
      · exact ih cursor hspans hends
      · rename_i hcursor
        have hlater := (le_cursorAfter (stop m) spans hspans).2
        have hsplit : List.range' cursor (length - cursor) =
            List.range' cursor (start m - cursor) ++ (List.range' (start m) (stop m - start m) ++
              List.range' (stop m) (length - stop m)) := by
          rw [range'_split (Nat.le_of_not_lt hcursor) (hm.le.trans hend), range'_split hm.le hend]
        rw [gaps, ih (stop m) hspans hends, hsplit, List.filter_append, List.filter_append]
        have hbefore : (List.range' cursor (start m - cursor)).filter (fun i =>
            (m :: sweep start stop (stop m) spans).all fun m => i < start m || stop m ≤ i) =
              List.range' cursor (start m - cursor) := by
          refine List.filter_eq_self.mpr fun i hi => List.all_eq_true.mpr fun a ha => ?_
          have hi := List.mem_range'_1.mp hi
          rcases List.mem_cons.mp ha with rfl | ha
          · simp only [Bool.or_eq_true, decide_eq_true_eq]
            omega
          · have hstart := (hlater a ha).1
            simp only [Bool.or_eq_true, decide_eq_true_eq]
            omega
        have hwithin : (List.range' (start m) (stop m - start m)).filter (fun i =>
            (m :: sweep start stop (stop m) spans).all fun m => i < start m || stop m ≤ i) = [] := by
          refine List.filter_eq_nil_iff.mpr fun i hi hall => ?_
          have hi := List.mem_range'_1.mp hi
          have hm := List.all_eq_true.mp hall m List.mem_cons_self
          simp only [Bool.or_eq_true, decide_eq_true_eq] at hm
          omega
        have hbehind : (List.range' (stop m) (length - stop m)).filter (fun i =>
            (m :: sweep start stop (stop m) spans).all fun m => i < start m || stop m ≤ i) =
              (List.range' (stop m) (length - stop m)).filter fun i =>
                (sweep start stop (stop m) spans).all fun m => i < start m || stop m ≤ i := by
          refine List.filter_congr fun i hi => ?_
          have hi := List.mem_range'_1.mp hi
          simp [hi.1]
        rw [hbefore, hwithin, hbehind, List.nil_append]

end Sweep

section Overhang

variable {A : Type*} {start stop : A → Nat}

/-- A span that begins inside an earlier one ends inside an earlier one. -/
def NoOverhang (start stop : A → Nat) (spans : List A) : Prop :=
  ∀ earlier m later, spans = earlier ++ m :: later → (∃ a ∈ earlier, start m < stop a) →
    ∃ z ∈ earlier, stop m ≤ stop z

/-- Every span lies within one the sweep takes. -/
def Within (start stop : A → Nat) (spans : List A) : Prop :=
  ∀ m ∈ spans, ∃ a ∈ sweep start stop 0 spans, start a ≤ start m ∧ stop m ≤ stop a

theorem within_of_noOverhang {spans : List A} (hsorted : spans.Pairwise fun a b => start a ≤ start b)
    (h : NoOverhang start stop spans) : Within start stop spans := by
  induction spans using List.reverseRecOn with
  | nil => exact nofun
  | append_singleton spans m ih =>
      obtain ⟨hsorted, -, hlast⟩ := List.pairwise_append.mp hsorted
      have hlast (a : A) (ha : a ∈ spans) : start a ≤ start m :=
        hlast a ha m List.mem_cons_self
      have ih : Within start stop spans := by
        refine ih hsorted fun earlier n later heq hinside => ?_
        exact h earlier n (later ++ [m]) (by rw [heq]; simp) hinside
      intro n hn
      rw [sweep_append]
      rcases List.mem_append.mp hn with hold | hnew
      · obtain ⟨a, ha, hwithin⟩ := ih n hold
        exact ⟨a, List.mem_append_left _ ha, hwithin⟩
      · obtain rfl := List.mem_singleton.mp hnew
        rw [sweep]
        split
        · rename_i hcursor
          -- the span is left out: it begins inside the last one taken
          have hinside : ∃ a ∈ spans, start n < stop a := by
            rcases @cursorAfter_eq A start stop 0 spans with heq | ⟨a, ha, heq⟩
            · rw [heq] at hcursor
              exact absurd hcursor (Nat.not_lt_zero _)
            · exact ⟨a, sweep_subset 0 spans ha, heq ▸ hcursor⟩
          obtain ⟨z, hz, hstop⟩ := h spans n [] rfl hinside
          obtain ⟨b, hb, hstart, hend⟩ := ih z hz
          exact ⟨b, List.mem_append_left _ hb, hstart.trans (hlast z hz), hstop.trans hend⟩
        · exact ⟨n, List.mem_append_right _ List.mem_cons_self, Nat.le_refl _, Nat.le_refl _⟩

/-- Where a span overhangs the earlier ones, some span sticks out of all that the
sweep takes. -/
theorem noOverhang_of_within {spans : List A}
    (hsorted : spans.Pairwise fun a b => start a ≤ start b)
    (hproper : ∀ m ∈ spans, start m < stop m) (h : Within start stop spans) :
    NoOverhang start stop spans := by
  rintro earlier m later rfl ⟨a, ha, hinside⟩
  obtain ⟨-, hsortedLater, hsortedAcross⟩ := List.pairwise_append.mp hsorted
  obtain ⟨b, hb, hstart, hstop⟩ := h m (List.mem_append_right _ List.mem_cons_self)
  have hproperEarlier (n : A) (hn : n ∈ earlier) := hproper n (List.mem_append_left _ hn)
  have htaken := @le_cursorAfter A start stop 0 earlier hproperEarlier
  have hm := hproper m (List.mem_append_right _ List.mem_cons_self)
  rw [sweep_append] at hb
  rcases List.mem_append.mp hb with hb | hb
  · exact ⟨b, sweep_subset 0 earlier hb, hstop⟩
  · exfalso
    -- `m` is not left out, so no span before it that was taken reaches into it
    have hproperLater (n : A) (hn : n ∈ m :: later) := hproper n (List.mem_append_right _ hn)
    have hbehind := le_cursorAfter (cursorAfter start stop 0 earlier) (m :: later) hproperLater
    have hcursor : cursorAfter start stop 0 earlier ≤ start m := ((hbehind.2 b hb).1).trans hstart
    have hearlier (c : A) (hc : c ∈ sweep start stop 0 earlier) : stop c ≤ start m :=
      (htaken.2 c hc).2.trans hcursor
    rcases mem_sweep_or_lt 0 earlier hproperEarlier ha with hmem | hleft
    · exact absurd (hearlier a hmem) (Nat.not_le_of_lt hinside)
    · obtain ⟨c, hc, hstart', hstop'⟩ := h a (List.mem_append_left _ ha)
      rw [sweep_append] at hc
      rcases List.mem_append.mp hc with hc | hc
      · exact absurd (hstop'.trans (hearlier c hc)) (Nat.not_le_of_lt hinside)
      · exact absurd ((hbehind.2 c hc).1.trans hstart') (Nat.not_le_of_lt hleft)

end Overhang

end C2c.Library.Spans
