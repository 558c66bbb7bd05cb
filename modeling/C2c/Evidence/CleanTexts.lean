import C2c.Evidence.Manifest
import Mathlib.Data.List.Chain

/-!
Texts that are never taken for secrets, because of the characters in them.
-/

namespace C2c.Evidence.CleanTexts

open C2c.Library.JavaText
open C2c.Library.TextPattern
open C2c.Evidence.FieldErrors
open C2c.Evidence.Artifacts
open C2c.Evidence.Validation

/-- A text `ContainsSecretLike` lets pass. -/
def Clean (t : Text) : Prop :=
  containsSecretLike t = false

/-- Words of which every secret has one, in lower case. -/
def foldedWords : List Text :=
  ["bearer".toList, "aws_secret_access_key".toList, "key".toList]

/-- Words of which every other secret has one. -/
def plainWords : List Text :=
  ["sk-".toList, ['_'], "AKIA".toList, "hf_".toList, "ghp_".toList, "ghs_".toList,
    "github_pat_".toList, "eyJ".toList, "PRIVATE KEY-----".toList]

theorem folded_word_inside {patterns : List Pattern} {word t : Text}
    (h : found (sequence patterns) t = true) (hliteral : literal true word ∈ patterns)
    (hword : word ∈ foldedWords) : ∃ word ∈ foldedWords, word <:+: t.map fold := by
  refine ⟨word, hword, ?_⟩
  have hlower : word.map (literalForm true) = word := by
    revert hword
    have hall : foldedWords.all (fun word => word.map (literalForm true) == word) = true := by
      decide
    intro hword
    exact beq_iff_eq.mp (List.all_eq_true.mp hall word hword)
  have hpart := literal_infix_of_found h hliteral
  rw [hlower] at hpart
  exact hpart

theorem plain_word_inside {patterns : List Pattern} {word t : Text}
    (h : found (sequence patterns) t = true) (hliteral : literal false word ∈ patterns)
    (hword : word ∈ plainWords) : ∃ word ∈ plainWords, word <:+: t := by
  refine ⟨word, hword, ?_⟩
  have hsame : ∀ s : Text, s.map (literalForm false) = s := List.map_id
  have hpart := literal_infix_of_found h hliteral
  rwa [hsame, hsame] at hpart

/-- A text that is taken for a secret has one of the words. -/
theorem word_of_secretLike {t : Text} (h : containsSecretLike t = true) :
    (∃ word ∈ foldedWords, word <:+: t.map fold) ∨ ∃ word ∈ plainWords, word <:+: t := by
  simp only [containsSecretLike, secretLikePatterns, List.any_cons, List.any_nil, Bool.or_false,
    Bool.or_eq_true] at h
  rcases h with h | h | h | h | h | h | h | h | h | h | h | h
  · exact .inl (folded_word_inside h (.head _) (.head _))
  · exact .inr (plain_word_inside h (.tail _ (.head _)) (.head _))
  · exact .inr (plain_word_inside h (.tail _ (.tail _ (.head _))) (.tail _ (.head _)))
  · exact .inr (plain_word_inside h (.tail _ (.head _)) (.tail _ (.tail _ (.head _))))
  · exact .inl (folded_word_inside h (.head _) (.tail _ (.head _)))
  · exact .inl (folded_word_inside h (.tail _ (.tail _ (.tail _ (.head _))))
      (.tail _ (.tail _ (.head _))))
  · exact .inr (plain_word_inside h (.tail _ (.head _)) (.tail _ (.tail _ (.tail _ (.head _)))))
  · exact .inr (plain_word_inside h (.tail _ (.head _)) (by simp [plainWords]))
  · exact .inr (plain_word_inside h (.tail _ (.head _)) (by simp [plainWords]))
  · exact .inr (plain_word_inside h (.tail _ (.head _)) (by simp [plainWords]))
  · exact .inr (plain_word_inside h (.tail _ (.head _)) (by simp [plainWords]))
  · exact .inr (plain_word_inside h (.tail _ (.tail _ (.head _))) (by simp [plainWords]))

theorem clean_of_no_word {t : Text} (hfolded : ∀ word ∈ foldedWords, ¬ word <:+: t.map fold)
    (hplain : ∀ word ∈ plainWords, ¬ word <:+: t) : Clean t := by
  by_contra hsecret
  rcases word_of_secretLike (Bool.not_eq_false _ |>.mp hsecret) with
    ⟨word, hword, hpart⟩ | ⟨word, hword, hpart⟩
  · exact hfolded word hword hpart
  · exact hplain word hword hpart

/-- A class that folding keeps and that no word stays in holds no secret. -/
theorem clean_of_all {p : Char → Bool} (hfold : ∀ c, p c = true → p (fold c) = true)
    (hwords : (foldedWords ++ plainWords).all (fun word => !word.all p) = true) {t : Text}
    (ht : t.all p = true) : Clean t := by
  have hout : ∀ word ∈ foldedWords ++ plainWords, ¬ word.all p = true := by
    intro word hword hall
    have hnot := List.all_eq_true.mp hwords word hword
    rw [hall] at hnot
    contradiction
  apply clean_of_no_word
  · intro word hword hpart
    apply hout word (List.mem_append_left _ hword)
    rw [List.all_eq_true] at ht ⊢
    intro c hc
    obtain ⟨d, hd, rfl⟩ := List.mem_map.mp (hpart.subset hc)
    exact hfold d (ht d hd)
  · intro word hword hpart
    apply hout word (List.mem_append_right _ hword)
    rw [List.all_eq_true] at ht ⊢
    exact fun c hc => ht c (hpart.subset hc)

theorem isHexDigit_ascii {c : Char} (h : isHexDigit c = true) : c.toNat < 128 := by
  have hbounds : c ≤ '9' ∨ c ≤ 'f' ∨ c ≤ 'F' := by
    simp only [isHexDigit, isDigitAscii, Bool.or_eq_true, Bool.and_eq_true, decide_eq_true_eq] at h
    rcases h with (⟨-, h⟩ | ⟨-, h⟩) | ⟨-, h⟩
    · exact .inl h
    · exact .inr (.inl h)
    · exact .inr (.inr h)
  rcases hbounds with h | h | h
  · exact Nat.lt_of_le_of_lt (UInt32.le_iff_toNat_le.mp h) (by decide)
  · exact Nat.lt_of_le_of_lt (UInt32.le_iff_toNat_le.mp h) (by decide)
  · exact Nat.lt_of_le_of_lt (UInt32.le_iff_toNat_le.mp h) (by decide)

theorem clean_sha256 {t : Text} (h : matchesSha256 t = true) : Clean t := by
  rw [matchesSha256, Bool.and_eq_true] at h
  refine clean_of_all ?_ (by decide) h.2
  intro c hc
  have hascii : ((List.range 128).all fun n =>
      !isHexDigit (Char.ofNat n) || isHexDigit (fold (Char.ofNat n))) = true := by decide +kernel
  have hfold := of_ascii (p := fun c => !isHexDigit c || isHexDigit (fold c)) hascii
    (isHexDigit_ascii hc)
  rw [hc] at hfold
  exact hfold

theorem clean_oneOf {values : List String} {t : Text}
    (hvalues : values.all (fun value => !containsSecretLike value.toList) = true)
    (h : isOneOf values t = true) : Clean t := by
  obtain ⟨value, hvalue, heq⟩ := List.any_eq_true.mp h
  have hclean := List.all_eq_true.mp hvalues value hvalue
  rw [beq_iff_eq.mp heq] at hclean
  exact Bool.not_eq_true' _ |>.mp hclean

section Quiet

/-- A character of no word but `bearer` and `eyJ`. -/
def quietChar (c : Char) : Bool :=
  fold c != 'k' && c != '_'

def opensPair (c : Char) : Bool :=
  fold c == 'b' || c == 'y'

def completesPair (c : Char) : Bool :=
  fold c == 'e' || c == 'J'

/-- Quiet characters without the pairs `be` and `yJ`, also when a text comes
before them. -/
structure Quiet (t : Text) : Prop where
  chars : t.all quietChar = true
  pairs : t.IsChain fun c d => (opensPair c && completesPair d) = false
  head : t.head?.any completesPair = false

theorem Quiet.append {s t : Text} (hs : Quiet s) (ht : Quiet t) : Quiet (s ++ t) where
  chars := by rw [List.all_append, hs.chars, ht.chars, Bool.and_self]
  pairs := by
    refine hs.pairs.append ht.pairs ?_
    intro c hc d hd
    have hhead := ht.head
    rw [Option.mem_def.mp hd] at hhead
    have hd : completesPair d = false := hhead
    rw [hd, Bool.and_false]
  head := by
    cases s with
    | nil => exact ht.head
    | cons c s => exact hs.head

theorem quiet_nil : Quiet [] :=
  ⟨rfl, .nil, rfl⟩

theorem quiet_of_decide {t : Text}
    (h : (t.all quietChar = true ∧
      (t.IsChain fun c d => (opensPair c && completesPair d) = false)) ∧
      t.head?.any completesPair = false) : Quiet t :=
  ⟨h.1.1, h.1.2, h.2⟩

theorem not_mem_of_quiet {t : Text} (h : t.all quietChar = true) : 'k' ∉ t.map fold := by
  intro hk
  obtain ⟨c, hc, hfold⟩ := List.mem_map.mp hk
  have hquiet := List.all_eq_true.mp h c hc
  rw [quietChar, hfold] at hquiet
  contradiction

theorem clean_of_quiet {t : Text} (h : Quiet t) : Clean t := by
  have hk := not_mem_of_quiet h.chars
  apply clean_of_no_word
  · intro word hword hpart
    have hcases : word = "bearer".toList ∨ 'k' ∈ word := by
      have hall : foldedWords.all
          (fun word => word == "bearer".toList || word.contains 'k') = true := by decide
      have hword := List.all_eq_true.mp hall word hword
      rwa [Bool.or_eq_true, beq_iff_eq, List.contains_iff_mem] at hword
    rcases hcases with rfl | hmem
    · have hmap : (t.map fold).IsChain fun c d => (c == 'b' && d == 'e') = false := by
        rw [List.isChain_map]
        refine h.pairs.imp ?_
        intro c d hpair
        simp only [opensPair, completesPair] at hpair
        cases hb : fold c == 'b' <;> cases he : fold d == 'e' <;> simp_all
      have hchain := hmap.infix hpart
      revert hchain
      decide
    · exact hk (hpart.subset hmem)
  · intro word hword hpart
    have hcases : word = "eyJ".toList ∨ word.all quietChar = false := by
      have hall : plainWords.all
          (fun word => word == "eyJ".toList || !word.all quietChar) = true := by decide
      have hword := List.all_eq_true.mp hall word hword
      rwa [Bool.or_eq_true, beq_iff_eq, Bool.not_eq_true'] at hword
    rcases hcases with rfl | hnot
    · have hchain := h.pairs.infix hpart
      revert hchain
      decide
    · have hall : word.all quietChar = true := by
        rw [List.all_eq_true]
        exact fun c hc => List.all_eq_true.mp h.chars c (hpart.subset hc)
      rw [hall] at hnot
      contradiction

theorem quiet_natText (n : Nat) : Quiet (natText n) := by
  have hdigit : ∀ c ∈ natText n, quietChar c = true ∧ opensPair c = false ∧
      completesPair c = false := by
    intro c hc
    have hc := isDigitAscii_of_mem_natText hc
    have hascii : ((List.range 128).all fun n => !isDigitAscii (Char.ofNat n) ||
        (quietChar (Char.ofNat n) && !opensPair (Char.ofNat n) &&
          !completesPair (Char.ofNat n))) = true := by decide +kernel
    have hlow : c.toNat < 128 := isHexDigit_ascii (by simp [isHexDigit, hc])
    have hp := of_ascii (p := fun c => !isDigitAscii c ||
      (quietChar c && !opensPair c && !completesPair c)) hascii hlow
    simpa [hc, and_assoc] using hp
  refine ⟨?_, ?_, ?_⟩
  · rw [List.all_eq_true]
    exact fun c hc => (hdigit c hc).1
  · apply List.Pairwise.isChain
    rw [List.pairwise_iff_forall_sublist]
    intro c d hsublist
    have hc := hsublist.subset List.mem_cons_self
    rw [(hdigit c hc).2.1, Bool.false_and]
  · cases hhead : (natText n).head? with
    | none => rfl
    | some c => exact (hdigit c (List.mem_of_head? hhead)).2.2

theorem quiet_artifactName (name : ArtifactName) : Quiet name.text := by
  have hindexed : ∀ (index : Nat) (field : String), Quiet ('.' :: field.toList) →
      Quiet (repairAttemptText index field) := by
    intro index field hfield
    have hattempt : Quiet ("repairAttempts".toList ++ '[' :: natText index ++ [']']) := by
      have hopen : Quiet ("repairAttempts".toList ++ ['[']) := quiet_of_decide (by decide)
      have hclose : Quiet [']'] := quiet_of_decide (by decide)
      simpa using (hopen.append (quiet_natText index)).append hclose
    exact hattempt.append hfield
  cases name with
  | repairAttemptBuildTestResultRef index => exact hindexed _ _ (quiet_of_decide (by decide))
  | repairAttemptModelInvocationRef index => exact hindexed _ _ (quiet_of_decide (by decide))
  | repairAttemptModelInvocationRefAgentRole index =>
      exact hindexed _ _ (quiet_of_decide (by decide))
  | repairAttemptNewJavaCandidateRef index => exact hindexed _ _ (quiet_of_decide (by decide))
  | _ => exact quiet_of_decide (by decide)

theorem quiet_join {texts : List Text} (h : ∀ t ∈ texts, Quiet t) :
    Quiet (joinWith [' '] texts) := by
  have hblank : Quiet [' '] := quiet_of_decide (by decide)
  induction texts with
  | nil => exact quiet_nil
  | cons t texts ih =>
      have ht := h t List.mem_cons_self
      have hrest := ih fun s hs => h s (List.mem_cons_of_mem _ hs)
      cases texts with
      | nil => simpa [joinWith] using ht
      | cons s texts => simpa [joinWith, List.intercalate] using (ht.append hblank).append hrest

end Quiet

end C2c.Evidence.CleanTexts
