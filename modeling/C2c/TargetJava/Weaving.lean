import C2c.Library.JavaSource
import C2c.TargetJava.JavaClass

/-!
The code the generator writes is woven from its own words, from names and from
string literals.
-/

namespace C2c.TargetJava.Weaving

open C2c.Library.JavaText
open C2c.Library.JsonText (hexValue)
open C2c.Library.JavaObject
open C2c.Library.JavaSource
open C2c.TargetJava.Literals
open C2c.TargetJava.References
open C2c.TargetJava.Expressions
open C2c.TargetJava.Conditions
open C2c.TargetJava.LeafStatements
open C2c.TargetJava.Generation
open C2c.TargetJava.JavaClass

/-- The words the generator writes: of its expressions, its statements and the
class around them. -/
inductive IsWord : Text → Prop
  | decimalOf : IsWord "CobolDecimal.of(".toList
  | zero : IsWord zeroExpression
  | comma : IsWord ", ".toList
  | trueWord : IsWord "true".toList
  | falseWord : IsWord "false".toList
  | one : IsWord ['1']
  | minus : IsWord ['-']
  | dot : IsWord ['.']
  | not : IsWord ['!']
  | leftParen : IsWord ['(']
  | rightParen : IsWord [')']
  | get : IsWord ".get(".toList
  | intValueExact : IsWord ".intValueExact()".toList
  | numericValue : IsWord ".numericValue()".toList
  | increment : IsWord ".numericValue().add(".toList
  | add : IsWord ".add(".toList
  | subtract : IsWord ".subtract(".toList
  | multiply : IsWord ".multiply(".toList
  | divide : IsWord ".divide(".toList
  | addName : IsWord "add".toList
  | subtractName : IsWord "subtract".toList
  | displayValue : IsWord ".displayValue()".toList
  | trimmedValue : IsWord ".displayValue().trim()".toList
  | equals : IsWord ".equals(".toList
  | conditionStatus : IsWord "ConditionStatus.".toList
  | comparison (operator : Text) : IsWord (comparisonMethod operator)
  | display : IsWord "System.out.println(new StringBuilder()".toList
  | append : IsWord ".append(".toList
  | endDisplay : IsWord ".toString());".toList
  | moveLiteral : IsWord ".moveLiteral(".toList
  | moveFrom : IsWord ".moveFrom(".toList
  | setNumericValue : IsWord ".setNumericValue(".toList
  | endCall : IsWord ");".toList
  | record : IsWord "assumptionRegistry.record(".toList
  | severity : IsWord ", Severity.WARN, ".toList
  | ifWord : IsWord "if (".toList
  | openBlock : IsWord ") \x7b".toList
  | elseIf : IsWord "\x7d else if (".toList
  | openElse : IsWord "\x7d else \x7b".toList
  | int : IsWord "int ".toList
  | fromZero : IsWord " = 0;".toList
  | whileNot : IsWord "while (!(".toList
  | openLoop : IsWord ")) \x7b".toList
  | ifCounted : IsWord "if (++".toList
  | greater : IsWord " > ".toList
  | throwWord : IsWord "throw new IllegalStateException(".toList
  | close : IsWord ['}']
  | leave : IsWord "return;".toList
  | indent : IsWord "    ".toList
  | lineEnd : IsWord ['\n']
  | package : IsWord "package ".toList
  | packagePrefix : IsWord "c2c.generated.".toList
  | imports : IsWord importLines
  | publicClass : IsWord "\npublic final class ".toList
  | programIdConstant : IsWord " \x7b\n\n    public static final String PROGRAM_ID = ".toList
  | irIdConstant : IsWord ";\n    public static final String IR_ID = ".toList
  | sourceHashConstant : IsWord ";\n    public static final String SOURCE_HASH = ".toList
  | constants : IsWord runtimeConstants
  | privateFinal : IsWord "    private final ".toList
  | fieldArray : IsWord "CobolFieldArray ".toList
  | field : IsWord "CobolField ".toList
  | endLine : IsWord ";\n".toList
  | publicConstructor : IsWord "\n    public ".toList
  | constructorHead : IsWord "() \x7b\n".toList
  | thisField : IsWord "        this.".toList
  | newFieldArray : IsWord " = new CobolFieldArray(".toList
  | newField : IsWord " = new CobolField(".toList
  | parsePicture : IsWord ", PictureSpec.parse(".toList
  | beforeOccurs : IsWord "), ".toList
  | endCallLine : IsWord ");\n".toList
  | endCreation : IsWord "));\n".toList
  | setNumericValueToAll : IsWord ".setNumericValueToAll(".toList
  | moveLiteralToAll : IsWord ".moveLiteralToAll(".toList
  | accessor : IsWord accessorLines
  | suppressWarnings : IsWord "    @SuppressWarnings(".toList
  | run : IsWord runLines
  | commentIndent : IsWord "        ".toList
  | main : IsWord mainLines
  | runCall : IsWord "().run();\n    \x7d\n\x7d\n".toList

/-- A character of an identifier or a number. -/
def isNamePart (c : Char) : Bool :=
  c.isAlphanum || c == '_' || 128 ≤ c.toNat

def IsName (t : Text) : Prop :=
  t.all isNamePart = true

/-- Code of the generator's words, of names, and of literals with a word behind
each. -/
inductive Woven : Text → Prop
  | nil : Woven []
  | word {s w : Text} : Woven s → IsWord w → Woven (s ++ w)
  | name {s n : Text} : Woven s → IsName n → Woven (s ++ n)
  | literal {s w : Text} (value : Text) : Woven s → IsWord w →
      Woven (s ++ (javaStringLiteral value ++ w))

/-- Woven code, or such code with a literal at its end. -/
def Expression (s : Text) : Prop :=
  Woven s ∨ ∃ before value, Woven before ∧ s = before ++ javaStringLiteral value

section Woven

variable {s t w n : Text}

theorem woven_word (h : IsWord w) : Woven w :=
  Woven.word .nil h

theorem woven_name (h : IsName n) : Woven n :=
  Woven.name .nil h

theorem Woven.append (hs : Woven s) (ht : Woven t) : Woven (s ++ t) := by
  induction ht with
  | nil => rwa [List.append_nil]
  | word _ hw ih => exact List.append_assoc .. ▸ ih.word hw
  | name _ hn ih => exact List.append_assoc .. ▸ ih.name hn
  | literal value _ hw ih => exact List.append_assoc .. ▸ ih.literal value hw

theorem Woven.expression (h : Woven s) : Expression s :=
  .inl h

theorem expression_literal (value : Text) : Expression (javaStringLiteral value) :=
  .inr ⟨[], value, .nil, rfl⟩

/-- A word behind an expression. -/
theorem Expression.word (h : Expression s) (hw : IsWord w) : Woven (s ++ w) := by
  rcases h with h | ⟨before, value, hbefore, rfl⟩
  · exact h.word hw
  · rw [List.append_assoc]
    exact hbefore.literal value hw

theorem Woven.before (h : Woven s) (ht : Expression t) : Expression (s ++ t) := by
  rcases ht with ht | ⟨before, value, hbefore, rfl⟩
  · exact .inl (h.append ht)
  · exact .inr ⟨s ++ before, value, h.append hbefore, (List.append_assoc ..).symm⟩

theorem Woven.literal_before (h : Woven s) (value : Text) :
    Expression (s ++ javaStringLiteral value) :=
  h.before (expression_literal value)

theorem woven_flatMap {α : Type} {f : α → Text} (xs : List α) (h : ∀ x ∈ xs, Woven (f x)) :
    Woven (xs.flatMap f) := by
  induction xs with
  | nil => exact .nil
  | cons x xs ih =>
      rw [List.flatMap_cons]
      obtain ⟨hx, hxs⟩ := List.forall_mem_cons.mp h
      exact hx.append (ih hxs)

theorem woven_repeat (h : IsWord w) (k : Nat) : Woven (repeatText k w) := by
  induction k with
  | zero => exact .nil
  | succ k ih =>
      rw [repeatText, List.replicate_succ, List.flatten_cons]
      exact (woven_word h).append ih

end Woven

/-! Names and numbers. -/

theorem isName_natText (k : Nat) : IsName (natText k) := by
  refine List.all_eq_true.mpr fun c hc => ?_
  have hdigit := isDigitAscii_of_mem_natText hc
  rw [isDigitAscii, Bool.and_eq_true, decide_eq_true_eq, decide_eq_true_eq] at hdigit
  have : c.isDigit = true := by
    simpa [Char.isDigit, Char.le_def] using hdigit
  simp [isNamePart, Char.isAlphanum, this]

theorem woven_intText (k : Int) : Woven (intText k) := by
  unfold intText
  split
  · exact (woven_word IsWord.minus).name (isName_natText _)
  · exact woven_name (isName_natText _)

theorem woven_boolText (b : Bool) : Woven (boolText b) := by
  cases b
  · exact woven_word .falseWord
  · exact woven_word .trueWord

/-! The elements of woven code. -/

theorem plain_of_isWord {w : Text} (h : IsWord w) : w ≠ [] ∧ w.all isPlain = true := by
  have hplain : (!w.isEmpty && w.all isPlain) = true := by
    cases h with
    | comparison operator =>
        unfold comparisonMethod
        split_ifs <;> decide
    | _ => decide +kernel
  rw [Bool.and_eq_true, Bool.not_eq_true', List.isEmpty_eq_false_iff] at hplain
  exact hplain

theorem isPlain_of_isNamePart {c : Char} (h : isNamePart c = true) : isPlain c = true := by
  rw [isPlain_iff]
  refine ⟨?_, ?_, ?_, ?_⟩ <;> rintro rfl <;> exact absurd h (by decide)

theorem plain_of_isName {n : Text} (h : IsName n) : n.all isPlain = true :=
  List.all_eq_true.mpr fun c hc => isPlain_of_isNamePart (List.all_eq_true.mp h c hc)

/-- What stands in the literal for a character once the escapes of the source
are translated. -/
def literalCharacter (c : Char) : Text :=
  if c.toNat < 0x20 ∧ c ≠ '\n' ∧ c ≠ '\r' ∧ c ≠ '\t' then [c] else escapeCharacter c

theorem escapeDigits_values : ∀ n < 32, (escapeDigits (Char.ofNat n)).map hexValue =
    [some 0, some 0, some (n / 16), some (n % 16)] := by
  decide

theorem translateFrom_digit {c : Char} {digit : Nat} (h : hexValue c = some digit) (k value : Nat)
    (t : Text) :
    translateFrom (.digits k value) (c :: t) =
      if k = 3 then (translateFrom .none t).map (C2c.Library.JsonText.charOf (16 * value + digit) :: ·)
      else translateFrom (.digits (k + 1) (16 * value + digit)) t := by
  rw [translateFrom, h]

/-- A control character is escaped by its code. -/
theorem translate_control {c : Char} (h : c.toNat < 32) (t : Text) :
    translateEscapes ('\\' :: 'u' :: (escapeDigits c ++ t)) = (translateEscapes t).map (c :: ·) := by
  have hdigits := escapeDigits_values c.toNat h
  rw [Char.ofNat_toNat] at hdigits
  obtain ⟨d₁, digits, hlist, h₁, hdigits⟩ := List.map_eq_cons_iff.mp hdigits
  obtain ⟨d₂, digits, rfl, h₂, hdigits⟩ := List.map_eq_cons_iff.mp hdigits
  obtain ⟨d₃, digits, rfl, h₃, hdigits⟩ := List.map_eq_cons_iff.mp hdigits
  obtain ⟨d₄, digits, rfl, h₄, hdigits⟩ := List.map_eq_cons_iff.mp hdigits
  obtain rfl := List.map_eq_nil_iff.mp hdigits
  have hvalid : c.toNat.isValidChar := c.valid
  have hchar : C2c.Library.JsonText.charOf
      (16 * (16 * (16 * (16 * 0 + 0) + 0) + c.toNat / 16) + c.toNat % 16) = c := by
    rw [show 16 * (16 * (16 * (16 * 0 + 0) + 0) + c.toNat / 16) + c.toNat % 16 = c.toNat by omega,
      C2c.Library.JsonText.charOf, if_pos hvalid, Char.ofNat_toNat]
  rw [hlist, translateEscapes, translateFrom, if_pos rfl, translateFrom, if_pos rfl]
  simp only [List.cons_append, List.nil_append]
  rw [translateFrom_digit h₁, if_neg (by decide), translateFrom_digit h₂, if_neg (by decide),
    translateFrom_digit h₃, if_neg (by decide), translateFrom_digit h₄, if_pos rfl, hchar]
  rfl

theorem translate_escaped (c : Char) (hu : c ≠ 'u') (t : Text) :
    translateEscapes ('\\' :: c :: t) = (translateEscapes t).map fun rest => '\\' :: c :: rest := by
  rw [translateEscapes, translateFrom, if_pos rfl, translateFrom, if_neg hu]
  rfl

theorem translate_escapeCharacter (c : Char) (t : Text) :
    translateEscapes (escapeCharacter c ++ t) = (translateEscapes t).map (literalCharacter c ++ ·) := by
  by_cases hc : c ∈ ['\\', '"', '\n', '\r', '\t']
  · simp only [List.mem_cons, List.not_mem_nil, or_false] at hc
    rcases hc with rfl | rfl | rfl | rfl | rfl <;> exact translate_escaped _ (by decide) t
  · simp only [List.mem_cons, List.not_mem_nil, or_false, not_or] at hc
    obtain ⟨hback, hquote, hnewline, hreturn, htab⟩ := hc
    have hescape : escapeCharacter c =
        if c.toNat < 0x20 then '\\' :: 'u' :: escapeDigits c else [c] := by
      simp [escapeCharacter, hback, hquote, hnewline, hreturn, htab]
    rw [literalCharacter, hescape]
    by_cases hcontrol : c.toNat < 0x20
    · rw [if_pos hcontrol, if_pos ⟨hcontrol, hnewline, hreturn, htab⟩]
      exact translate_control hcontrol t
    · rw [if_neg hcontrol, if_neg fun h => hcontrol h.1]
      exact translate_plain (by simpa using Ne.symm hback) t

theorem translate_escapeJavaString (value t : Text) :
    translateEscapes (escapeJavaString value ++ t) =
      (translateEscapes t).map (value.flatMap literalCharacter ++ ·) := by
  induction value with
  | nil => simp [escapeJavaString]
  | cons c value ih =>
      unfold escapeJavaString at ih ⊢
      rw [List.flatMap_cons, List.append_assoc, translate_escapeCharacter, ih, Option.map_map]
      refine congrArg (Option.map · _) (funext fun rest => ?_)
      simp [List.append_assoc]

/-- The characters of a value stay in the literal. -/
theorem lexFrom_literalCharacter (c : Char) (read t : Text) :
    lexFrom (.string read) (literalCharacter c ++ t) =
      lexFrom (.string (read ++ literalCharacter c)) t := by
  by_cases hc : c ∈ ['\\', '"', '\n', '\r', '\t']
  · simp only [List.mem_cons, List.not_mem_nil, or_false] at hc
    rcases hc with rfl | rfl | rfl | rfl | rfl <;>
      simp [literalCharacter, escapeCharacter, lexFrom_cons, Mode.step, isLineEnd,
        Function.comp_def]
  · simp only [List.mem_cons, List.not_mem_nil, or_false, not_or] at hc
    obtain ⟨hback, hquote, hnewline, hreturn, htab⟩ := hc
    have hself : literalCharacter c = [c] := by
      unfold literalCharacter
      split
      · rfl
      · next h =>
          have hcontrol : ¬ c.toNat < 0x20 := fun hlt => h ⟨hlt, hnewline, hreturn, htab⟩
          simp [escapeCharacter, hback, hquote, hnewline, hreturn, htab, hcontrol]
    rw [hself]
    simp [lexFrom_cons, Mode.step, isLineEnd, hback, hquote, hnewline, hreturn, Function.comp_def]

theorem lexFrom_literalCharacters (value read t : Text) :
    lexFrom (.string read) (value.flatMap literalCharacter ++ t) =
      lexFrom (.string (read ++ value.flatMap literalCharacter)) t := by
  induction value generalizing read with
  | nil => simp
  | cons c value ih =>
      rw [List.flatMap_cons, List.append_assoc, lexFrom_literalCharacter, ih, List.append_assoc]

/-- A closed literal is one element, if no other quote follows it. -/
theorem lexFrom_closedLiteral (characters : Text) {c : Char} (hc : c ≠ '"') (t : Text) :
    lexFrom (.string characters) ('"' :: c :: t) =
      (lexFrom .code (c :: t)).map ([.string characters] ++ ·) := by
  rw [lexFrom_cons, Mode.step, if_pos rfl, Option.bind_some]
  split
  · next hempty =>
      subst hempty
      rw [lexFrom_cons, Mode.step, if_neg hc, Option.bind_some, lexFrom_cons, Mode.step,
        Option.bind_some, Option.map_map, Option.map_map]
      rfl
  · rfl

theorem lexes_literal (value : Text) {w : Text} (hw : IsWord w) :
    ∃ s' elements, Lexes (javaStringLiteral value ++ w) s' elements := by
  obtain ⟨hne, hplain⟩ := plain_of_isWord hw
  obtain ⟨c, rest, rfl⟩ := List.exists_cons_of_ne_nil hne
  have hword := lexes_plain hplain
  have hc : c ≠ '"' := by
    rw [List.all_cons, Bool.and_eq_true] at hplain
    exact ((isPlain_iff c).mp hplain.1).2.2.1
  have hquote (t : Text) : translateEscapes ('"' :: t) = (translateEscapes t).map ('"' :: ·) :=
    translate_plain (by decide : '\\' ∉ ['"']) t
  refine ⟨'"' :: value.flatMap literalCharacter ++ '"' :: (c :: rest),
    .string (value.flatMap literalCharacter) :: (c :: rest).map .symbol, fun t => ?_, fun t => ?_⟩
  · have htext : javaStringLiteral value ++ (c :: rest) ++ t =
        '"' :: (escapeJavaString value ++ '"' :: (c :: rest ++ t)) := by
      simp [javaStringLiteral]
    rw [htext, hquote, translate_escapeJavaString, hquote, hword.translated, Option.map_map,
      Option.map_map, Option.map_map]
    refine congrArg (Option.map · _) (funext fun t' => ?_)
    simp
  · have htext : '"' :: value.flatMap literalCharacter ++ '"' :: (c :: rest) ++ t =
        '"' :: (value.flatMap literalCharacter ++ '"' :: c :: (rest ++ t)) := by
      simp
    have hopen (t : Text) : lexFrom .code ('"' :: t) = lexFrom (.string []) t := by
      simp [lexFrom_cons, Mode.step, codeStep, Function.comp_def]
    rw [htext, hopen, lexFrom_literalCharacters, List.nil_append, lexFrom_closedLiteral _ hc]
    have hread := hword.read t
    rw [List.cons_append] at hread
    rw [hread, Option.map_map]
    rfl

/-- Woven code is read apart from what stands behind it. -/
theorem woven_lexes {s : Text} (h : Woven s) : ∃ s' elements, Lexes s s' elements := by
  induction h with
  | nil => exact ⟨[], [], .nil⟩
  | word _ hw ih =>
      obtain ⟨s', elements, hs⟩ := ih
      exact ⟨_, _, hs.append (lexes_plain (plain_of_isWord hw).2)⟩
  | name _ hn ih =>
      obtain ⟨s', elements, hs⟩ := ih
      exact ⟨_, _, hs.append (lexes_plain (plain_of_isName hn))⟩
  | literal value _ hw ih =>
      obtain ⟨s', elements, hs⟩ := ih
      obtain ⟨t', others, ht⟩ := lexes_literal value hw
      exact ⟨_, _, hs.append ht⟩

end C2c.TargetJava.Weaving
