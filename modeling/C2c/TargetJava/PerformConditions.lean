import C2c.CobolParser.TokenTexts
import C2c.TargetJava.Generation

namespace C2c.TargetJava.PerformConditions

open C2c.Library.JavaText
open C2c.Library.JavaObject
open C2c.CobolParser.Tokens
open C2c.CobolParser.Statements
open C2c.CobolParser.TokenTexts
open C2c.SemanticIr.Statements
open C2c.TargetJava.Generation
open C2c.TargetJava.Literals

/-- The operands of a `PERFORM` statement, as the Semantic IR has them. -/
def irOperands (statementText : Text) : ObjectMap :=
  enrichOperands "perform".toList (parsePerform statementText [])

/-- The tokens of the condition model. -/
def conditionModelTokens (operands : ObjectMap) : Value :=
  get "tokens".toList (((get "conditionModel".toList operands).asMap).getD [])

/-- The condition is what stands behind an `UNTIL` of the statement, and the
parser keeps its tokens. -/
structure Found (statementText : Text) (condition : List Text) : Prop where
  tokens : ∃ before, splitArguments statementText = before ++ "UNTIL".toList :: condition
  parser : get "conditionTokens".toList (parsePerform statementText []) = .texts condition

/-- The services behind the parser read the tokens of the condition again. -/
structure Reread (statementText : Text) (condition : List Text) : Prop where
  semanticIr : condition ≠ [] →
    conditionModelTokens (irOperands statementText) = .texts condition
  generator : splitArguments (performSpec (irOperands statementText)).condition = condition

/-- What `parsePerform` stores of a condition. -/
structure Stores (statementText : Text) (condition : List Text) (operands : ObjectMap) : Prop where
  tokens : ∃ before, splitArguments statementText = before ++ "UNTIL".toList :: condition
  mode : get "mode".toList operands = .str "until".toList ∨
    get "mode".toList operands = .str "varying-until".toList
  untilText : get "until".toList operands = .str (joinTokens condition)
  conditionTokens : get "conditionTokens".toList operands =
    .texts (splitArguments (joinTokens condition))

theorem eq_append_of_tokenIndex {word : Text} {tokens : List Text}
    (h : 0 ≤ tokenIndex word tokens) :
    ∃ before, tokens = before ++ word :: tokens.drop (tokenIndex word tokens + 1).toNat := by
  unfold tokenIndex at h ⊢
  cases hfind : tokens.findIdx? (· == word) with
  | none => rw [hfind] at h; exact absurd h (by decide)
  | some i =>
      obtain ⟨hlt, hword, -⟩ := List.findIdx?_eq_some_iff_getElem.mp hfind
      refine ⟨tokens.take i, ?_⟩
      rw [show ((i : Int) + 1).toNat = i + 1 from by omega, ← eq_of_beq hword,
        List.getElem_cons_drop, List.take_append_drop]

theorem parsePerform_cases (statementText : Text) :
    (∃ condition, Stores statementText condition (parsePerform statementText [])) ∨
      get "until".toList (parsePerform statementText []) = .null := by
  unfold parsePerform
  dsimp only
  split
  · next hsimple =>
      simp only [Bool.and_eq_true, decide_eq_true_eq, beq_iff_eq] at hsimple
      obtain ⟨hsize, hword⟩ := hsimple
      refine .inl ⟨(splitArguments statementText).drop 2, ?_, .inl rfl, rfl, rfl⟩
      generalize splitArguments statementText = tokens at hsize hword
      match tokens, hsize with
      | first :: _ :: rest, _ =>
          obtain rfl := hword
          exact ⟨[first], rfl⟩
  · split
    · split
      · next hindices =>
          have hfound : 0 ≤ tokenIndex "UNTIL".toList (splitArguments statementText) := by omega
          exact .inl ⟨_, eq_append_of_tokenIndex hfound, .inr rfl, rfl, rfl⟩
      · exact .inr rfl
    · exact .inr rfl

theorem Stores.condition_tokens {statementText : Text} {condition : List Text}
    {operands : ObjectMap} (h : Stores statementText condition operands) :
    splitArguments (joinTokens condition) = condition := by
  obtain ⟨before, hbefore⟩ := h.tokens
  have hdrop : (splitArguments statementText).drop (before.length + 1) = condition := by
    rw [hbefore]
    simp
  rw [← hdrop, splitArguments_joinTokens_drop]

theorem enrichOperands_perform (operands : ObjectMap) :
    enrichOperands "perform".toList operands =
      let enriched := put "performModel".toList (performModel operands) operands
      let condition := text (get "until".toList operands) []
      if isBlank condition then enriched
      else put "conditionModel".toList (conditionModel condition) enriched :=
  rfl

/-- The Semantic IR adds models to the operands and keeps the others. -/
theorem get_irOperands {key : Text} (hmodel : key ≠ "performModel".toList)
    (hcondition : key ≠ "conditionModel".toList) (statementText : Text) :
    get key (irOperands statementText) = get key (parsePerform statementText []) := by
  unfold irOperands
  rw [enrichOperands_perform]
  dsimp only
  split_ifs
  · rw [get_put_of_ne hmodel]
  · rw [get_put_of_ne hcondition, get_put_of_ne hmodel]

theorem conditionModel_tokens (condition : Text) :
    ∃ model, conditionModel condition = .map model ∧
      get "tokens".toList model = .texts (splitArguments condition) := by
  unfold conditionModel
  dsimp only
  split
  · refine ⟨_, rfl, ?_⟩
    rw [get_put_of_ne (by decide), get_put_of_ne (by decide), get_put_of_ne (by decide),
      get_put_self]
    rfl
  · refine ⟨_, rfl, ?_⟩
    rw [get_put_self]
    rfl

theorem textOr_of_trimmed {t : Text} (h : trim t = t) :
    textOr (.str t) [] = if isBlank t then [] else t := by
  simp [textOr, Value.isNull, Value.toText, h]

theorem splitArguments_of_blank {t : Text} (h : isBlank t = true) : splitArguments t = [] := by
  rw [splitArguments, rawTokens, if_pos h]
  rfl

theorem Stores.reread {statementText : Text} {condition : List Text}
    (h : Stores statementText condition (parsePerform statementText []))
    (htrim : trim (joinTokens condition) = joinTokens condition) :
    Reread statementText condition where
  semanticIr := by
    intro hne
    have hblank : isBlank (joinTokens condition) = false := by
      rw [Bool.eq_false_iff]
      intro hblank
      exact hne (h.condition_tokens ▸ splitArguments_of_blank hblank)
    have htext : text (get "until".toList (parsePerform statementText [])) [] =
        joinTokens condition := by
      rw [h.untilText, text, textOr_of_trimmed htrim, hblank]
      rfl
    obtain ⟨model, hmodel, htokens⟩ := conditionModel_tokens (joinTokens condition)
    unfold conditionModelTokens irOperands
    rw [enrichOperands_perform]
    simp only [htext, hblank, Bool.false_eq_true, if_false, get_put_self, hmodel]
    exact htokens.trans (congrArg Value.texts h.condition_tokens)
  generator := by
    have hmode := get_irOperands (show "mode".toList ≠ _ by decide) (by decide) statementText
    have huntil : operand (irOperands statementText) "until" [] =
        if isBlank (joinTokens condition) then [] else joinTokens condition := by
      rw [operand, string, get_irOperands (by decide) (by decide), h.untilText,
        textOr_of_trimmed htrim]
    have hcondition : (performSpec (irOperands statementText)).condition =
        operand (irOperands statementText) "until" [] := by
      have htext : operand (irOperands statementText) "mode" [] = "until".toList ∨
          operand (irOperands statementText) "mode" [] = "varying-until".toList := by
        rw [operand, string, hmode]
        exact h.mode.imp (fun h => by rw [h]; decide) (fun h => by rw [h]; decide)
      unfold performSpec
      rcases htext with htext | htext
      · rw [htext]; rfl
      · rw [htext]; rfl
    rw [hcondition, huntil]
    split_ifs with hblank
    · rw [splitArguments_of_blank rfl, ← h.condition_tokens, splitArguments_of_blank hblank]
    · exact h.condition_tokens

/-- Every text keeps its characters and its tokens when it is split, and a
`PERFORM` condition keeps its tokens on the way through the services if it
neither begins nor ends with a character that `trim` takes. -/
theorem kept_and_reread (value : Text) :
    Kept value ∧ ∀ untilText, get "until".toList (parsePerform value []) = .str untilText →
      ∃ condition, untilText = joinTokens condition ∧ Found value condition ∧
        (trim untilText = untilText → Reread value condition) := by
  refine ⟨kept value, fun untilText huntil => ?_⟩
  rcases parsePerform_cases value with ⟨condition, hstores⟩ | hnone
  · have htext : untilText = joinTokens condition := by
      have hsame := huntil.symm.trans hstores.untilText
      exact Value.str.inj hsame
    refine ⟨condition, htext, ⟨hstores.tokens, ?_⟩, fun htrim => hstores.reread (htext ▸ htrim)⟩
    rw [hstores.conditionTokens, hstores.condition_tokens]
  · rw [hnone] at huntil
    cases huntil

theorem subscripted_condition_reread :
    Kept "PERFORM UNTIL X(I) > 10".toList ∧
      ∃ condition, "X (I) > 10".toList = joinTokens condition ∧
        Found "PERFORM UNTIL X(I) > 10".toList condition ∧
        Reread "PERFORM UNTIL X(I) > 10".toList condition := by
  obtain ⟨hkept, hconditions⟩ := kept_and_reread "PERFORM UNTIL X(I) > 10".toList
  obtain ⟨condition, htext, hfound, hreread⟩ := hconditions "X (I) > 10".toList (by rfl)
  exact ⟨hkept, condition, htext, hfound, hreread (by decide)⟩

/-- A `PERFORM` whose condition begins with a control character. -/
def controlStatement : Text :=
  "PERFORM UNTIL \x01X = 1".toList

/-- The character is part of a token for the parser; the services behind it
trim it away. -/
theorem control_character_dropped :
    get "until".toList (parsePerform controlStatement []) = .str "\x01X = 1".toList ∧
      ¬ ∃ condition, Found controlStatement condition ∧ Reread controlStatement condition := by
  refine ⟨by rfl, ?_⟩
  rintro ⟨condition, hfound, hreread⟩
  have hgenerator := hreread.generator
  have hread : splitArguments (performSpec (irOperands controlStatement)).condition =
      ["X".toList, "=".toList, "1".toList] := by decide +kernel
  obtain ⟨before, hbefore⟩ := hfound.tokens
  have htokens : splitArguments controlStatement =
      ["PERFORM".toList, "UNTIL".toList, "\x01X".toList, "=".toList, "1".toList] := by
    decide +kernel
  rw [← hgenerator, hread, htokens] at hbefore
  have hlast := congrArg (fun tokens => tokens.reverse.take 3) hbefore
  simp at hlast

end C2c.TargetJava.PerformConditions
