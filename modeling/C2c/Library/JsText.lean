import Mathlib.Data.List.Lex
import C2c.Library.JavaText

/-!
Strings of JavaScript that are well-formed Unicode.
-/

namespace C2c.Library.JsText

open C2c.Library.JavaText

/-- `\s` of a regular expression. -/
def isSpace (c : Char) : Bool :=
  let n := c.toNat
  (9 ≤ n && n ≤ 13) || n == 32 || n == 0xa0 || n == 0x1680 || (0x2000 ≤ n && n ≤ 0x200a) ||
    n == 0x2028 || n == 0x2029 || n == 0x202f || n == 0x205f || n == 0x3000 || n == 0xfeff

/-- `split(/\r?\n/)`, where `line` is what has been read of a part. -/
def splitLinesFrom (line : Text) : Text → List Text
  | '\r' :: '\n' :: t => line :: splitLinesFrom [] t
  | '\n' :: t => line :: splitLinesFrom [] t
  | c :: t => splitLinesFrom (line ++ [c]) t
  | [] => [line]

/-- `split(/\r?\n/)`. -/
def splitLines (t : Text) : List Text :=
  splitLinesFrom [] t

@[simp] theorem splitLinesFrom_nil (line : Text) : splitLinesFrom line [] = [line] := rfl

@[simp] theorem splitLinesFrom_newline (line t : Text) :
    splitLinesFrom line ('\n' :: t) = line :: splitLinesFrom [] t := rfl

@[simp] theorem splitLinesFrom_pair (line t : Text) :
    splitLinesFrom line ('\r' :: '\n' :: t) = line :: splitLinesFrom [] t := rfl

theorem splitLinesFrom_cons {c : Char} {t : Text} (line : Text) (hfeed : c ≠ '\n')
    (hpair : c = '\r' → t.head? ≠ some '\n') :
    splitLinesFrom line (c :: t) = splitLinesFrom (line ++ [c]) t := by
  rw [splitLinesFrom]
  · rintro rest rfl rfl
    exact hpair rfl rfl
  · exact hfeed

/-- A line up to a line feed that no carriage return stands in front of. -/
theorem splitLinesFrom_feed {t rest : Text} (line : Text) (hfeed : '\n' ∉ t)
    (hreturn : t.getLast? ≠ some '\r') :
    splitLinesFrom line (t ++ '\n' :: rest) = (line ++ t) :: splitLinesFrom [] rest := by
  induction t generalizing line with
  | nil => rw [List.nil_append, splitLinesFrom_newline, List.append_nil]
  | cons c t ih =>
      rw [List.mem_cons, not_or] at hfeed
      rw [List.cons_append, splitLinesFrom_cons line (Ne.symm hfeed.1), ih _ hfeed.2]
      · rw [List.append_assoc, List.singleton_append]
      · cases t with
        | nil => exact nofun
        | cons d t => rwa [List.getLast?_cons_cons] at hreturn
      · rintro rfl
        cases t with
        | nil => exact absurd rfl hreturn
        | cons d t => exact fun heq => hfeed.2 (Option.some.inj heq ▸ List.mem_cons_self)

/-- A line up to a carriage return and a line feed. -/
theorem splitLinesFrom_return {t rest : Text} (line : Text) (hfeed : '\n' ∉ t) :
    splitLinesFrom line (t ++ '\r' :: '\n' :: rest) = (line ++ t) :: splitLinesFrom [] rest := by
  induction t generalizing line with
  | nil => rw [List.nil_append, splitLinesFrom_pair, List.append_nil]
  | cons c t ih =>
      rw [List.mem_cons, not_or] at hfeed
      rw [List.cons_append, splitLinesFrom_cons line (Ne.symm hfeed.1), ih _ hfeed.2,
        List.append_assoc, List.singleton_append]
      rintro -
      cases t with
      | nil => exact fun heq => nomatch heq
      | cons d t => exact fun heq => hfeed.2 (Option.some.inj heq ▸ List.mem_cons_self)

theorem splitLinesFrom_last {t : Text} (line : Text) (hfeed : '\n' ∉ t) :
    splitLinesFrom line t = [line ++ t] := by
  induction t generalizing line with
  | nil => rw [splitLinesFrom_nil, List.append_nil]
  | cons c t ih =>
      rw [List.mem_cons, not_or] at hfeed
      rw [splitLinesFrom_cons line (Ne.symm hfeed.1), ih _ hfeed.2, List.append_assoc,
        List.singleton_append]
      rintro -
      cases t with
      | nil => exact fun heq => nomatch heq
      | cons d t => exact fun heq => hfeed.2 (Option.some.inj heq ▸ List.mem_cons_self)

example : splitLines "a\r\nb\rc\n".toList = ["a".toList, "b\rc".toList, []] := by decide

/-- The UTF-16 code units of a character. -/
def unitsOf (c : Char) : List Nat :=
  if c.toNat < 0x10000 then [c.toNat]
  else [0xd800 + (c.toNat - 0x10000) / 0x400, 0xdc00 + (c.toNat - 0x10000) % 0x400]

def codeUnits (t : Text) : List Nat :=
  t.flatMap unitsOf

/-- A character is no surrogate. -/
theorem toNat_bounds (c : Char) : c.toNat < 0xd800 ∨ 0xdfff < c.toNat ∧ c.toNat < 0x110000 :=
  c.valid

theorem unitsOf_ne_nil (c : Char) : unitsOf c ≠ [] := by
  unfold unitsOf
  split <;> exact List.cons_ne_nil _ _

theorem unitsOf_append_inj {c d : Char} {s t : List Nat} (h : unitsOf c ++ s = unitsOf d ++ t) :
    c = d ∧ s = t := by
  have hc := toNat_bounds c
  have hd := toNat_bounds d
  have hof (heq : c.toNat = d.toNat) : c = d := Char.toNat_inj.mp heq
  unfold unitsOf at h
  split at h
  · split at h
    · obtain ⟨hhead, htail⟩ := List.cons.inj h
      exact ⟨hof hhead, htail⟩
    · obtain ⟨hhead, -⟩ := List.cons.inj h
      omega
  · split at h
    · obtain ⟨hhead, -⟩ := List.cons.inj h
      omega
    · obtain ⟨hhead, hrest⟩ := List.cons.inj h
      obtain ⟨hnext, htail⟩ := List.cons.inj hrest
      exact ⟨hof (by omega), htail⟩

theorem codeUnits_injective {s t : Text} (h : codeUnits s = codeUnits t) : s = t := by
  induction s generalizing t with
  | nil =>
      cases t with
      | nil => rfl
      | cons d t => exact absurd (List.append_eq_nil_iff.mp h.symm).1 (unitsOf_ne_nil d)
  | cons c s ih =>
      cases t with
      | nil => exact absurd (List.append_eq_nil_iff.mp h).1 (unitsOf_ne_nil c)
      | cons d t =>
          obtain ⟨rfl, hrest⟩ := unitsOf_append_inj h
          rw [ih hrest]

/-- Of two strings one comes first in the order of `<`. -/
theorem codeUnits_lt_or_lt {s t : Text} (h : s ≠ t) :
    codeUnits s < codeUnits t ∨ codeUnits t < codeUnits s :=
  lt_or_gt_of_ne fun heq => h (codeUnits_injective heq)

/-- The last occurrence of a character splits a text in one way. -/
theorem append_cons_last_inj {c : Char} {s s' t t' : Text} (ht : c ∉ t) (ht' : c ∉ t')
    (h : s ++ c :: t = s' ++ c :: t') : s = s' ∧ t = t' := by
  have hreversed : t.reverse ++ c :: s.reverse = t'.reverse ++ c :: s'.reverse := by
    simpa using congrArg List.reverse h
  obtain ⟨hback, hfront⟩ := append_cons_inj (fun hmem => ht (List.mem_reverse.mp hmem))
    (fun hmem => ht' (List.mem_reverse.mp hmem)) hreversed
  exact ⟨List.reverse_injective hfront, List.reverse_injective hback⟩

theorem lastIndexOf_eq_none {c : Char} {t : Text} : lastIndexOf c t = none ↔ c ∉ t := by
  induction t with
  | nil => exact ⟨fun _ => List.not_mem_nil, fun _ => rfl⟩
  | cons d t ih =>
      rw [lastIndexOf, List.mem_cons, not_or]
      cases hlast : lastIndexOf c t with
      | some i =>
          rw [hlast] at ih
          exact ⟨nofun, fun h => absurd (ih.mpr h.2) nofun⟩
      | none =>
          have hrest := ih.mp hlast
          by_cases hd : d = c
          · simp [hd]
          · simp [hd, Ne.symm hd, hrest]

/-- The last place of a character. -/
theorem lastIndexOf_append_cons {c : Char} (s : Text) {t : Text} (h : c ∉ t) :
    lastIndexOf c (s ++ c :: t) = some s.length := by
  induction s with
  | nil =>
      rw [List.nil_append, lastIndexOf, lastIndexOf_eq_none.mpr h, if_pos (by simp),
        List.length_nil]
  | cons d s ih => rw [List.cons_append, lastIndexOf, ih, List.length_cons]

/-- A text is split at the last place of a character. -/
theorem split_of_lastIndexOf {c : Char} {t : Text} {i : Nat} (h : lastIndexOf c t = some i) :
    t = t.take i ++ c :: t.drop (i + 1) ∧ c ∉ t.drop (i + 1) := by
  induction t generalizing i with
  | nil => cases h
  | cons d t ih =>
      rw [lastIndexOf] at h
      cases hlast : lastIndexOf c t with
      | some j =>
          rw [hlast] at h
          obtain rfl := Option.some.inj h
          obtain ⟨hsplit, hrest⟩ := ih hlast
          exact ⟨congrArg (d :: ·) hsplit, hrest⟩
      | none =>
          rw [hlast] at h
          dsimp only at h
          split_ifs at h with heq
          obtain rfl := Option.some.inj h
          obtain rfl := beq_iff_eq.mp heq
          exact ⟨rfl, lastIndexOf_eq_none.mp hlast⟩

theorem natText_injective {n n' : Nat} (h : natText n = natText n') : n = n' := by
  rw [← digitsValue_natText n, h, digitsValue_natText]

theorem not_mem_natText {c : Char} (hc : isDigitAscii c = false) (n : Nat) : c ∉ natText n := by
  intro hmem
  rw [isDigitAscii_of_mem_natText hmem] at hc
  cases hc

end C2c.Library.JsText
