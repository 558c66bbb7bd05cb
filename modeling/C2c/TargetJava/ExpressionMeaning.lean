import C2c.TargetJava.WrittenExpressions

/-!
What the generator makes of a written expression: Java text that is worth what
the expression is worth.
-/

namespace C2c.TargetJava.ExpressionMeaning

open C2c.Library.BigDecimal
open C2c.Library.JavaText
open C2c.Library.JavaObject
open C2c.Runtime
open C2c.TargetJava.Literals
open C2c.TargetJava.References
open C2c.TargetJava.Expressions
open C2c.TargetJava.JavaNumbers
open C2c.TargetJava.WrittenReferences
open C2c.TargetJava.WrittenExpressions

section Translation

/-- The text the generated class gives a literal; a plus is dropped. -/
def javaDigits (literal : Literal) : Text :=
  (if literal.negative then ['-'] else []) ++ literal.whole ++ pointText literal.fraction

def javaNumber (fields : Fields) : Expression → Number
  | .literal value => .literal (javaDigits value) value.fraction.length value.negative
  | .reference place => .value (inJava fields place)
  | .apply method left right => .apply method (javaNumber fields left) (javaNumber fields right)

/-- The variables of the fields are Java identifiers. -/
def VariablesNamed (fields : Fields) : Prop :=
  ∀ name field, fields.get name = some field → IsIdentifier field.fieldVar

/-- The variables of the generated class hold what the fields of the program hold. -/
def Represents (fields : Fields) (memory store : Memory) : Prop :=
  ∀ name field, fields.get name = some field → memory field.fieldVar = store name

end Translation

section Literals

/-- The characters of a literal. -/
theorem mem_text {literal : Literal} {c : Char} (h : c ∈ literal.text) :
    (c = '+' ∨ c = '-') ∨ isDigitAscii c = true ∨ c = '.' := by
  rcases List.mem_append.mp h with h | h
  · left
    revert h
    cases literal.sign with
    | unsigned => simp [Sign.text]
    | plus => exact fun h => .inl (List.mem_singleton.mp h)
    | minus => exact fun h => .inr (List.mem_singleton.mp h)
  · exact .inr (literal.body_facts.2 c h)

theorem solid_text (literal : Literal) : Solid literal.text := by
  have htrimmed {c : Char} (hc : c ∈ literal.text) : isTrimmed c = false := by
    rcases mem_text hc with (rfl | rfl) | hbody
    · decide
    · decide
    · exact (number_of_body .ascii hbody).2.2.2
  refine ⟨?_, fun c hc => htrimmed (List.mem_of_mem_head? hc),
    fun c hc => htrimmed (List.mem_of_mem_getLast? hc)⟩
  intro hnil
  exact literal.body_facts.1 (List.append_eq_nil_iff.mp hnil).2

/-- The head of a number is no sign. -/
theorem body_head (literal : Literal) :
    ∃ c body, literal.body = c :: body ∧ c ≠ '+' ∧ c ≠ '-' := by
  obtain ⟨hne, hbody⟩ := literal.body_facts
  obtain ⟨c, body, hcons⟩ := List.exists_cons_of_ne_nil hne
  refine ⟨c, body, hcons, ?_⟩
  rcases hbody c (hcons ▸ List.mem_cons_self) with h | rfl
  · exact ⟨(digit_facts h).2.2.1, (digit_facts h).2.2.2.1⟩
  · decide

theorem dropSign_text (literal : Literal) : dropSign literal.text = literal.body := by
  obtain ⟨c, body, hcons, hplus, hminus⟩ := body_head literal
  have htext : literal.text = literal.sign.text ++ literal.body := rfl
  rw [htext, hcons]
  cases literal.sign <;> simp [dropSign, Sign.text, hplus, hminus]

theorem javaDigits_body (literal : Literal) :
    javaDigits literal = (if literal.negative then ['-'] else []) ++ literal.body :=
  List.append_assoc _ _ _

theorem stripLeadingPlus_text (literal : Literal) :
    stripLeadingPlus literal.text = javaDigits literal := by
  obtain ⟨c, body, hcons, hplus, hminus⟩ := body_head literal
  have htext : literal.text = literal.sign.text ++ literal.body := rfl
  rw [htext, javaDigits_body, hcons, Literal.negative]
  cases literal.sign <;> simp [stripLeadingPlus, startsWith, Sign.text, hplus.symm, List.isPrefixOf]

theorem whole_digits (literal : Literal) : ∀ c ∈ literal.whole, isDigitAscii c = true :=
  fun c hc => literal.digits c (List.mem_append_left _ hc)

theorem fraction_digits (literal : Literal) : ∀ c ∈ literal.fraction, isDigitAscii c = true :=
  fun c hc => literal.digits c (List.mem_append_right _ hc)

theorem isNumericLiteral_text (literal : Literal) : isNumericLiteral literal.text = true := by
  have hfilled := literal.filled
  have hfraction := fraction_digits literal
  have hpoint : ∀ c, (pointText literal.fraction).head? = some c → isDigitAscii c = false := by
    unfold pointText
    intro c hc
    split at hc
    · cases hc
    · obtain rfl := Option.some.inj hc
      decide
  obtain ⟨htake, hdrop⟩ := takeWhile_append_head (whole_digits literal) hpoint
  rw [isNumericLiteral, (solid_text literal).trim_eq, dropSign_text, Literal.body, isUnsignedNumber,
    htake, hdrop]
  cases hcases : literal.fraction with
  | nil =>
      rw [hcases, List.append_nil] at hfilled
      simpa [pointText] using hfilled
  | cons c fraction =>
      rw [hcases] at hfraction
      simpa [pointText] using hfraction

theorem literalScale_javaDigits (literal : Literal) :
    literalScale (javaDigits literal) = literal.fraction.length := by
  have hsign : ∀ c ∈ (if literal.negative then ['-'] else []) ++ literal.whole, c ≠ '.' := by
    intro c hc
    rcases List.mem_append.mp hc with hc | hc
    · split at hc
      · obtain rfl := List.mem_singleton.mp hc
        decide
      · cases hc
    · exact (digit_facts (literal.digits c (List.mem_append_left _ hc))).2.1
  have hpoint : '.' ∉ (if literal.negative then ['-'] else []) ++ literal.whole :=
    fun hmem => hsign '.' hmem rfl
  rw [literalScale, javaDigits]
  cases hfraction : literal.fraction with
  | nil =>
      rw [pointText, List.isEmpty_nil, if_pos rfl, List.append_nil, indexOf_of_not_mem hpoint]
      rfl
  | cons d fraction =>
      rw [pointText, List.isEmpty_cons, if_neg Bool.false_ne_true, indexOf_append_cons hpoint]
      simp only [List.length_append, List.length_cons]
      omega

theorem startsWith_javaDigits (literal : Literal) :
    startsWith (javaDigits literal) ['-'] = literal.negative := by
  obtain ⟨c, body, hcons, hplus, hminus⟩ := body_head literal
  rw [javaDigits_body, hcons]
  cases literal.negative <;> simp [startsWith, List.isPrefixOf, hminus.symm]

theorem mem_javaDigits {literal : Literal} {c : Char} (h : c ∈ javaDigits literal) :
    isDigitAscii c = true ∨ c = '.' ∨ c = '-' := by
  rw [javaDigits_body] at h
  rcases List.mem_append.mp h with h | h
  · split at h
    · exact .inr (.inr (List.mem_singleton.mp h))
    · cases h
  · rcases literal.body_facts.2 c h with h | h
    · exact .inl h
    · exact .inr (.inl h)

theorem digit_unescaped {c : Char} (h : isDigitAscii c = true ∨ c = '.' ∨ c = '-') :
    escapeCharacter c = [c] ∧ c ≠ '"' := by
  have hascii : c.toNat < 128 := by
    rcases h with h | rfl | rfl
    · exact ascii_of_isDigitAscii h
    · decide
    · decide
  have hall := of_ascii (p := fun c => !(isDigitAscii c || c == '.' || c == '-') ||
    (escapeCharacter c == [c] && c != '"')) (by decide) hascii
  have hkind : (isDigitAscii c || c == '.' || c == '-') = true := by
    rcases h with h | rfl | rfl
    · simp [h]
    · rfl
    · rfl
  rw [hkind] at hall
  simpa using hall

theorem decimalLiteral_normalized {token t : Text} (h : stripLeadingPlus (trim token) = t) :
    decimalLiteral token = "CobolDecimal.of(".toList ++ javaStringLiteral t ++ ", ".toList ++
      natText (literalScale t) ++ ", ".toList ++ boolText (startsWith t ['-']) ++ [')'] := by
  subst h
  rfl

theorem opening_text (t : Text) :
    "CobolDecimal.of(".toList ++ ('"' :: (t ++ ['"'])) ++ ", ".toList =
      ofText ++ t ++ ['"', ',', ' '] := by
  unfold ofText
  simp only [String.reduceToList]
  simp

/-- The text of a literal is its text in the generated class. -/
theorem decimalLiteral_text (fields : Fields) (literal : Literal) :
    decimalLiteral literal.text = (javaNumber fields (.literal literal)).text := by
  have hescape : escapeJavaString (javaDigits literal) = javaDigits literal := by
    rw [escapeJavaString, List.flatMap_congr fun c hc => (digit_unescaped (mem_javaDigits hc)).1]
    exact List.flatMap_singleton' _
  have hnormalized : stripLeadingPlus (trim literal.text) = javaDigits literal := by
    rw [(solid_text literal).trim_eq, stripLeadingPlus_text]
  rw [decimalLiteral_normalized hnormalized, literalScale_javaDigits, startsWith_javaDigits,
    javaStringLiteral, hescape, List.cons_append, opening_text, javaNumber, Number.text, literalText]
  rfl

theorem units_javaDigits (literal : Literal) : units (javaDigits literal) =
    (javaDigits literal).map unit := by
  apply units_ascii
  intro c hc
  rcases mem_javaDigits hc with h | rfl | rfl
  · exact ascii_of_isDigitAscii h
  · decide
  · decide

/-- The generated class reads a literal as it is. -/
theorem ofLiteral_javaDigits (d : DigitData) (literal : Literal) :
    CobolDecimal.ofLiteral d (units (javaDigits literal)) literal.fraction.length
      literal.negative = literal.decimal := by
  have hparse := parse_plain d literal.negative (whole_digits literal) (fraction_digits literal)
    literal.filled literal.short
  unfold CobolDecimal.ofLiteral Literal.decimal
  rw [units_javaDigits, javaDigits, hparse]

end Literals

section Parsing

variable (u : UnicodeData) {site : Site}

theorem Written.depth_le {place : Place} {t : Text} (h : Written place t) :
    place.depth ≤ t.length + 1 := by
  induction h with
  | scalar hname => exact Nat.le_add_left _ _
  | constant hname hbefore hinner hafter hdigits hne => exact Nat.le_add_left _ _
  | element hname hbefore hinner hafter hindex ih =>
      rw [Place.depth]
      simp only [subscripted, List.length_append, List.length_cons]
      omega

theorem operandToken_literal (literal : Literal) :
    literal.text ≠ ['('] ∧ operandToken u site literal.text =
      pure (javaNumber site.fields (.literal literal)).text := by
  have hopen : literal.text ≠ ['('] := by
    intro htext
    have hmem : '(' ∈ literal.body := by
      rw [← dropSign_text, htext]
      decide
    rcases literal.body_facts.2 _ hmem with h | h
    · cases h
    · cases h
  refine ⟨hopen, ?_⟩
  rw [operandToken, isNumericLiteral_text, if_pos rfl, decimalLiteral_text site.fields]

/-- A declared reference is read as the value of its accessor. -/
theorem operandToken_reference {place : Place} {token : Text} (hwritten : Written place token)
    (hdeclared : WrittenReferences.Declared site.fields place) :
    token ≠ ['('] ∧ operandToken u site token =
      pure (javaNumber site.fields (.reference place)).text := by
  obtain ⟨c, rest, htoken, hc⟩ := hwritten.head
  obtain ⟨field, -, hreference⟩ :=
    fieldReferenceWithin_written u hwritten hdeclared (Written.depth_le hwritten)
  constructor
  · intro htext
    rw [htoken] at htext
    obtain rfl := (List.cons.inj htext).1
    cases hc
  · rw [operandToken, isNumericLiteral_written hwritten, if_neg Bool.false_ne_true,
      fieldReference, hreference]
    rfl

theorem mulDivMethod_symbol {method : Method} (h : method = .multiply ∨ method = .divide) :
    mulDivMethod [symbol method] = some method.text := by
  rcases h with rfl | rfl <;> decide

theorem addSubMethod_symbol {method : Method} (h : method = .add ∨ method = .subtract) :
    addSubMethod [symbol method] = some method.text ∧ mulDivMethod [symbol method] = none := by
  rcases h with rfl | rfl <;> decide

/-- What the parser does with the tokens of an expression at a level: the loops
go on behind them with enough fuel left. -/
def Parsed (u : UnicodeData) (site : Site) (level : Level) (tokens : List Text) (text : Text) : Prop :=
  match level with
  | .factor => ∀ fuel rest, 3 * tokens.length ≤ fuel →
      parseFactor u site (fuel + 1) (tokens ++ rest) = pure (text, rest)
  | .term => ∀ n fuel rest, 3 * tokens.length + 1 + n ≤ fuel → ∃ left, n ≤ left ∧
      parseMulDiv u site (fuel + 1) (tokens ++ rest) = mulDivRest u site left text rest
  | .sum => ∀ n fuel rest, 3 * tokens.length + 2 + n ≤ fuel →
      (∀ token, rest.head? = some token → mulDivMethod token = none) → ∃ left, n ≤ left ∧
      parseAddSub u site (fuel + 1) (tokens ++ rest) = addSubRest u site left text rest

theorem mulDivRest_of_none {rest : List Text}
    (h : ∀ token, rest.head? = some token → mulDivMethod token = none) (fuel : Nat) (left : Text) :
    mulDivRest u site fuel left rest = pure (left, rest) := by
  cases rest with
  | nil => simp [mulDivRest]
  | cons token rest =>
      cases fuel with
      | zero => simp [mulDivRest]
      | succ fuel => rw [mulDivRest, h token rfl]

theorem addSubRest_of_none {rest : List Text}
    (h : ∀ token, rest.head? = some token → addSubMethod token = none) (fuel : Nat) (left : Text) :
    addSubRest u site fuel left rest = pure (left, rest) := by
  cases rest with
  | nil => simp [addSubRest]
  | cons token rest =>
      cases fuel with
      | zero => simp [addSubRest]
      | succ fuel => rw [addSubRest, h token rfl]

theorem Parsed.operand {token text : Text} (hopen : token ≠ ['('])
    (h : operandToken u site token = pure text) :
    Parsed u site .factor [token] text := by
  intro fuel rest _
  rw [List.singleton_append, parseFactor, if_neg (by simpa using hopen), h]
  rfl

theorem Parsed.group {tokens : List Text} {text : Text}
    (h : Parsed u site .sum tokens text) :
    Parsed u site .factor (['('] :: (tokens ++ [[')']])) text := by
  intro fuel rest hfuel
  simp only [List.length_cons, List.length_append, List.length_nil] at hfuel
  obtain ⟨fuel, rfl⟩ : ∃ n, fuel = n + 1 := Nat.exists_eq_add_of_le' (by omega)
  obtain ⟨left, -, hsum⟩ := h 0 fuel ([')'] :: rest) (by omega) (by
    rintro token htoken
    obtain rfl := Option.some.inj htoken
    decide)
  have hclose : addSubRest u site left text ([')'] :: rest) = pure (text, [')'] :: rest) :=
    addSubRest_of_none u (by
      rintro token htoken
      obtain rfl := Option.some.inj htoken
      decide) _ _
  rw [List.cons_append, List.append_assoc, List.singleton_append, parseFactor, if_pos (by rfl), hsum,
    hclose]
  rfl

theorem Parsed.term {tokens : List Text} {text : Text}
    (h : Parsed u site .factor tokens text) :
    Parsed u site .term tokens text := by
  intro n fuel rest hfuel
  obtain ⟨fuel, rfl⟩ : ∃ n, fuel = n + 1 := Nat.exists_eq_add_of_le' (by omega)
  refine ⟨fuel + 1, by omega, ?_⟩
  rw [parseMulDiv, h fuel rest (by omega), pure_bind]

theorem Parsed.sum {tokens : List Text} {text : Text}
    (h : Parsed u site .term tokens text) :
    Parsed u site .sum tokens text := by
  intro n fuel rest hfuel hrest
  obtain ⟨fuel, rfl⟩ : ∃ n, fuel = n + 1 := Nat.exists_eq_add_of_le' (by omega)
  obtain ⟨left, -, hterm⟩ := h 0 fuel rest (by omega)
  refine ⟨fuel + 1, by omega, ?_⟩
  rw [parseAddSub, hterm, mulDivRest_of_none u hrest, pure_bind]

theorem Parsed.product {method : Method} {tokens behind : List Text} {left right : Text}
    (hmethod : method = .multiply ∨ method = .divide)
    (hleft : Parsed u site .term tokens left)
    (hright : Parsed u site .factor behind right) :
    Parsed u site .term (tokens ++ [symbol method] :: behind)
      (left ++ method.text ++ right ++ [')']) := by
  intro n fuel rest hfuel
  simp only [List.length_append, List.length_cons] at hfuel
  obtain ⟨fuel', hfuel', hterm⟩ := hleft (3 * behind.length + 2 + n) fuel
    ([symbol method] :: (behind ++ rest)) (by omega)
  obtain ⟨fuel', rfl⟩ : ∃ m, fuel' = m + 1 + 1 :=
    Nat.exists_eq_add_of_le' (show 2 ≤ fuel' by omega)
  refine ⟨fuel' + 1, by omega, ?_⟩
  rw [List.append_assoc, List.cons_append, hterm, mulDivRest, mulDivMethod_symbol hmethod]
  dsimp only
  rw [hright fuel' rest (by omega), pure_bind]

theorem Parsed.addition {method : Method} {tokens behind : List Text} {left right : Text}
    (hmethod : method = .add ∨ method = .subtract)
    (hleft : Parsed u site .sum tokens left)
    (hright : Parsed u site .term behind right) :
    Parsed u site .sum (tokens ++ [symbol method] :: behind)
      (left ++ method.text ++ right ++ [')']) := by
  obtain ⟨hadd, hmul⟩ := addSubMethod_symbol hmethod
  intro n fuel rest hfuel hrest
  simp only [List.length_append, List.length_cons] at hfuel
  obtain ⟨fuel', hfuel', hsum⟩ := hleft (3 * behind.length + 3 + n) fuel
    ([symbol method] :: (behind ++ rest)) (by omega) (by
      rintro token htoken
      obtain rfl := Option.some.inj htoken
      exact hmul)
  obtain ⟨fuel', rfl⟩ : ∃ m, fuel' = m + 1 + 1 :=
    Nat.exists_eq_add_of_le' (show 2 ≤ fuel' by omega)
  obtain ⟨fuel'', -, hterm⟩ := hright 0 fuel' rest (by omega)
  refine ⟨fuel' + 1, by omega, ?_⟩
  rw [List.append_assoc, List.cons_append, hsum, addSubRest, hadd]
  dsimp only
  rw [hterm, mulDivRest_of_none u hrest, pure_bind]

theorem split_spelled {tokens : List Text} {lexemes behind : List Lexeme}
    (h : List.Forall₂ Spelled tokens (lexemes ++ behind)) :
    ∃ s t, tokens = s ++ t ∧ List.Forall₂ Spelled s lexemes ∧ List.Forall₂ Spelled t behind :=
  ⟨_, _, (List.take_append_drop lexemes.length tokens).symm, List.forall₂_take_append _ _ _ h,
    List.forall₂_drop_append _ _ _ h⟩

theorem split_operator {tokens : List Text} {lexemes behind : List Lexeme} {method : Method}
    (h : List.Forall₂ Spelled tokens (lexemes ++ .operator method :: behind)) :
    ∃ s t, tokens = s ++ [symbol method] :: t ∧ List.Forall₂ Spelled s lexemes ∧
      List.Forall₂ Spelled t behind := by
  obtain ⟨s, t, rfl, hs, ht⟩ := split_spelled h
  cases ht with
  | cons hoperator ht =>
      cases hoperator
      exact ⟨s, _, rfl, hs, ht⟩

theorem parses_ne_nil {level : Level} {e : Expression} {lexemes : List Lexeme}
    (h : Parses level e lexemes) : lexemes ≠ [] := by
  rintro rfl
  have halternates := h.alternates (show Alternates false [] from rfl)
  simp [Alternates] at halternates

/-- The parser makes the Java text of an expression of its tokens. -/
theorem parsed_parses {level : Level} {e : Expression} {lexemes : List Lexeme}
    (hparses : Parses level e lexemes) (hdeclared : e.Declared site.fields) {tokens : List Text}
    (hspelled : List.Forall₂ Spelled tokens lexemes) :
    Parsed u site level tokens (javaNumber site.fields e).text := by
  induction hparses generalizing tokens with
  | literal literal =>
      cases hspelled with
      | cons htoken hnil =>
          cases htoken
          cases hnil
          obtain ⟨hopen, htext⟩ := operandToken_literal u literal
          exact .operand u hopen htext
  | reference place =>
      cases hspelled with
      | cons htoken hnil =>
          cases htoken with
          | reference hwritten =>
              cases hnil
              obtain ⟨hopen, htext⟩ := operandToken_reference u hwritten hdeclared
              exact .operand u hopen htext
  | group h ih =>
      cases hspelled with
      | cons hopen hrest =>
          obtain ⟨s, t, rfl, hs, ht⟩ := split_spelled hrest
          cases hopen
          cases ht with
          | cons hclose hnil =>
              cases hclose
              cases hnil
              exact (ih hdeclared hs).group
  | term h ih => exact (ih hdeclared hspelled).term
  | product hmethod hleft hright ihl ihr =>
      obtain ⟨s, t, rfl, hs, ht⟩ := split_operator hspelled
      exact .product u hmethod (ihl hdeclared.1 hs) (ihr hdeclared.2 ht)
  | sum h ih => exact (ih hdeclared hspelled).sum
  | addition hmethod hleft hright ihl ihr =>
      obtain ⟨s, t, rfl, hs, ht⟩ := split_operator hspelled
      exact .addition u hmethod (ihl hdeclared.1 hs) (ihr hdeclared.2 ht)

/-- The Java text of a written expression; nothing is reported of it. -/
theorem numericExpression_writes {e : Expression} {t : Text} (hwrites : Writes e t)
    (hdeclared : e.Declared site.fields) :
    numericExpression u site t = pure (javaNumber site.fields e).text := by
  obtain ⟨lexemes, hparses, hlaid⟩ := hwrites
  have htokens := tokenizeExpression_laid u hparses hlaid
  have hparsed := parsed_parses u hparses hdeclared htokens
  rw [numericExpression]
  generalize tokenizeExpression u t = tokens at htokens hparsed
  obtain ⟨left, -, hsum⟩ := hparsed 0 (3 * tokens.length + 2) [] le_rfl (by simp)
  have hrest : addSubRest u site left (javaNumber site.fields e).text [] =
      pure ((javaNumber site.fields e).text, []) :=
    addSubRest_of_none u (by simp) _ _
  have hfilled : tokens.isEmpty = false := by
    cases htokens with
    | nil => exact absurd rfl (parses_ne_nil hparses)
    | cons _ _ => rfl
  rw [List.append_nil, hrest] at hsum
  rw [parseExpression, hfilled, parserFuel, hsum]
  rfl

theorem isBlank_of_writes {e : Expression} {t : Text} (h : Writes e t) : isBlank t = false := by
  obtain ⟨lexemes, hparses, hlaid⟩ := h
  have htokens := tokenizeExpression_laid .ascii hparses hlaid
  cases hblank : isBlank t with
  | false => rfl
  | true =>
      rw [tokenizeExpression, if_pos hblank] at htokens
      cases htokens
      exact absurd rfl (parses_ne_nil hparses)

end Parsing

section Meaning

variable {fields : Fields} {memory store : Memory}

theorem fieldNamed_variableOf (hrepresents : Represents fields memory store) {name : Text}
    {field : FieldEmission} (hget : fields.get name = some field) :
    fieldNamed memory (variableOf fields name) = fieldNamed store name ∧
      arrayNamed memory (variableOf fields name) = arrayNamed store name := by
  have hholds : memory (variableOf fields name) = store name := by
    rw [variableOf, hget]
    exact hrepresents name field hget
  rw [fieldNamed, fieldNamed, arrayNamed, arrayNamed, hholds]
  exact ⟨rfl, rfl⟩

theorem locate_inJava (hrepresents : Represents fields memory store) {place : Place}
    (hdeclared : WrittenReferences.Declared fields place) :
    (inJava fields place).locate memory = place.locate store := by
  induction place with
  | scalar name =>
      obtain ⟨field, hget, -⟩ := hdeclared
      exact (fieldNamed_variableOf hrepresents hget).1
  | constant name index =>
      obtain ⟨⟨field, hget, -⟩, -⟩ := hdeclared
      rw [inJava, Place.locate, Place.locate, (fieldNamed_variableOf hrepresents hget).2]
  | element name index ih =>
      obtain ⟨⟨field, hget, -⟩, hindex⟩ := hdeclared
      rw [inJava, Place.locate, Place.locate, (fieldNamed_variableOf hrepresents hget).2, ih hindex]

/-- The Java expression is worth what the expression is worth. -/
theorem eval_javaNumber (d : DigitData) (hrepresents : Represents fields memory store)
    {e : Expression} (hdeclared : e.Declared fields) :
    (javaNumber fields e).eval d memory = e.eval store := by
  induction e with
  | literal literal => exact congrArg throwing (ofLiteral_javaDigits d literal)
  | reference place =>
      rw [javaNumber, Number.eval, Expression.eval, locate_inJava hrepresents hdeclared]
  | apply method left right ihl ihr =>
      rw [javaNumber, Number.eval, Expression.eval, ihl hdeclared.1, ihr hdeclared.2]

theorem named_inJava (hvariables : VariablesNamed fields) {place : Place}
    (hdeclared : WrittenReferences.Declared fields place) : (inJava fields place).Named := by
  have hname {name : Text} {field : FieldEmission} (hget : fields.get name = some field) :
      IsIdentifier (variableOf fields name) := by
    rw [variableOf, hget]
    exact hvariables name field hget
  induction place with
  | scalar name =>
      obtain ⟨field, hget, -⟩ := hdeclared
      exact hname hget
  | constant name index =>
      obtain ⟨⟨field, hget, -⟩, -⟩ := hdeclared
      exact hname hget
  | element name index ih =>
      obtain ⟨⟨field, hget, -⟩, hindex⟩ := hdeclared
      exact ⟨hname hget, ih hindex⟩

theorem readable_javaNumber (hvariables : VariablesNamed fields) {e : Expression}
    (hdeclared : e.Declared fields) : (javaNumber fields e).Readable := by
  induction e with
  | literal literal =>
      intro hmem
      exact (digit_unescaped (mem_javaDigits hmem)).2 rfl
  | reference place => exact named_inJava hvariables hdeclared
  | apply method left right ihl ihr => exact ⟨ihl hdeclared.1, ihr hdeclared.2⟩

/-- Of a written expression over declared fields nothing is reported, and the text
the generated class gets for it reads as a Java expression that is worth, or
throws, what the expression is worth on any contents of the fields. -/
theorem numericExpression_means (d : DigitData) (u : UnicodeData) {site : Site} {e : Expression}
    {t : Text} {memory store : Memory} (hwrites : Writes e t) (hdeclared : e.Declared site.fields)
    (hvariables : VariablesNamed site.fields)
    (hrepresents : Represents site.fields memory store) :
    (numericExpression u site t).diagnostics = [] ∧
      ∃ number, readNumber (numericExpression u site t).value = some number ∧
        number.eval d memory = e.eval store := by
  rw [numericExpression_writes u hwrites hdeclared]
  exact ⟨rfl, _, readNumber_text (readable_javaNumber hvariables hdeclared),
    eval_javaNumber d hrepresents hdeclared⟩

def wholeNumber (c : Char) (h : isDigitAscii c = true) : Literal where
  sign := .unsigned
  whole := [c]
  fraction := []
  digits := by simpa using h
  filled := List.cons_ne_nil c []
  short := Nat.zero_le _

/-- The product of two and the successor of `A`. -/
def doubledSuccessor : Expression :=
  .apply .multiply (.literal (wholeNumber '2' rfl))
    (.apply .add (.reference (.scalar ['A'])) (.literal (wholeNumber '1' rfl)))

theorem isGap_nil : IsGap [] :=
  fun _ hc => absurd hc List.not_mem_nil

theorem isGap_blank : IsGap [' '] := by
  intro c hc
  obtain rfl := List.mem_singleton.mp hc
  decide

theorem isDataName_a : IsDataName ['a'] :=
  ⟨by simp; decide, 'a', rfl, by decide⟩

theorem writes_doubledSuccessor : Writes doubledSuccessor "2 * (a + 1)".toList := by
  have hsum : Parses .sum (.apply .add (.reference (.scalar ['A'])) (.literal (wholeNumber '1' rfl)))
      ([.reference (.scalar ['A'])] ++ .operator .add :: [.literal (wholeNumber '1' rfl)]) :=
    .addition (.inl rfl) (.sum (.term (.reference _))) (.term (.literal _))
  refine ⟨_, .sum (.product (.inl rfl) (.term (.literal _)) (.group hsum)), ?_⟩
  have hclose := Laid.cons isGap_nil .closing (.nil isGap_nil) (by simp)
  have hone := Laid.cons isGap_blank (.literal (wholeNumber '1' rfl)) hclose (by simp)
  have hplus := Laid.cons isGap_blank (.operator .add) hone (by simp)
  have ha := Laid.cons isGap_nil (.reference (.scalar isDataName_a)) hplus (by
    rintro name c - hc
    obtain rfl := Option.some.inj hc
    decide)
  have hopen := Laid.cons isGap_blank .opening ha (by simp)
  have htimes := Laid.cons isGap_blank (.operator .multiply) hopen (by simp)
  exact Laid.cons isGap_nil (.literal (wholeNumber '2' rfl)) htimes (by simp)

/-- A program with one field. -/
def soleField : Fields :=
  [(['A'], ⟨['a'], ['A'], "ir-1".toList, "9(2)".toList, 1, true, none⟩)]

/-- The field of the program under one of its names. -/
def held (name holder : Text) : Memory := fun asked =>
  if asked = holder then
    some (.field ⟨name, "ir-1".toList, ⟨"9(2)".toList, .numeric, 2, 0, 2, false⟩,
      .number rfl ⟨⟨7, 0, by decide⟩, 0, false, rfl, by decide⟩⟩)
  else none

theorem soleField_get {name : Text} {field : FieldEmission}
    (hget : Fields.get soleField name = some field) : name = ['A'] ∧ field.fieldVar = ['a'] := by
  unfold Fields.get soleField at hget
  rw [List.lookup_cons] at hget
  cases hname : name == ['A'] with
  | false =>
      rw [hname] at hget
      cases hget
  | true =>
      rw [hname] at hget
      obtain rfl := Option.some.inj hget
      exact ⟨eq_of_beq hname, rfl⟩

theorem variablesNamed_soleField : VariablesNamed soleField := by
  intro name field hget
  rw [(soleField_get hget).2]
  exact ⟨by simp; decide, 'a', rfl, by decide⟩

theorem represents_held : Represents soleField (held ['A'] ['a']) (held ['A'] ['A']) := by
  intro name field hget
  obtain ⟨rfl, hvariable⟩ := soleField_get hget
  rw [hvariable]
  rfl

theorem declared_doubledSuccessor : doubledSuccessor.Declared soleField :=
  ⟨trivial, ⟨_, rfl, rfl⟩, trivial⟩

theorem doubledSuccessor_means :
    (numericExpression .ascii ⟨soleField, 1, "s1".toList⟩ "2 * (a + 1)".toList).diagnostics = [] ∧
      ∃ number, readNumber
          (numericExpression .ascii ⟨soleField, 1, "s1".toList⟩ "2 * (a + 1)".toList).value =
            some number ∧
        number.eval .ascii (held ['A'] ['a']) = doubledSuccessor.eval (held ['A'] ['A']) :=
  numericExpression_means .ascii .ascii writes_doubledSuccessor declared_doubledSuccessor
    variablesNamed_soleField represents_held

end Meaning

end C2c.TargetJava.ExpressionMeaning
