import Mathlib.Data.List.Forall2
import C2c.TargetJava.Expressions
import C2c.TargetJava.WrittenReferences

/-!
The arithmetic expressions of a COBOL program, how they are written, and the
tokens the generator takes from what is written.
-/

namespace C2c.TargetJava.WrittenExpressions

open C2c.Library.BigDecimal
open C2c.Library.JavaText
open C2c.Library.JavaObject
open C2c.Runtime
open C2c.TargetJava.References
open C2c.TargetJava.Expressions
open C2c.TargetJava.JavaNumbers
open C2c.TargetJava.WrittenReferences

section Trees

inductive Sign
  | unsigned
  | plus
  | minus
deriving DecidableEq

def Sign.text : Sign → Text
  | .unsigned => []
  | .plus => ['+']
  | .minus => ['-']

/-- A numeric literal of COBOL. -/
structure Literal where
  sign : Sign
  whole : Text
  fraction : Text
  digits : ∀ c ∈ whole ++ fraction, isDigitAscii c = true
  filled : whole ++ fraction ≠ []
  short : fraction.length ≤ intMax

def Literal.text (literal : Literal) : Text :=
  literal.sign.text ++ (literal.whole ++ pointText literal.fraction)

def Literal.negative (literal : Literal) : Bool :=
  literal.sign = .minus

/-- The number a literal writes, at the scale its point sets. -/
def Literal.decimal (literal : Literal) : Except JavaException CobolDecimal := do
  let magnitude : Int := digitsValue (literal.whole ++ literal.fraction)
  let number ← make (if literal.negative then -magnitude else magnitude) literal.fraction.length
  CobolDecimal.ofValue number literal.fraction.length literal.negative

/-- An arithmetic expression; its places name fields of the program. -/
inductive Expression
  | literal (literal : Literal)
  | reference (place : Place)
  | apply (method : Method) (left right : Expression)

/-- What an expression is worth when the fields of the program hold `store`. -/
def Expression.eval (store : Memory) : Expression → Except Fault CobolDecimal
  | .literal value => throwing value.decimal
  | .reference place => do
      let field ← place.locate store
      throwing field.numericValue
  | .apply method left right => do
      let x ← left.eval store
      let y ← right.eval store
      throwing (method.call x y)

def Expression.Declared (fields : Fields) : Expression → Prop
  | .literal _ => True
  | .reference place => WrittenReferences.Declared fields place
  | .apply _ left right => left.Declared fields ∧ right.Declared fields

end Trees

section Writing

def symbol : Method → Char
  | .add => '+'
  | .subtract => '-'
  | .multiply => '*'
  | .divide => '/'

inductive Lexeme
  | literal (literal : Literal)
  | reference (place : Place)
  | operator (method : Method)
  | opening
  | closing

inductive Spelled : Text → Lexeme → Prop
  | literal (literal : Literal) : Spelled literal.text (.literal literal)
  | reference {place : Place} {t : Text} (hwritten : Written place t) : Spelled t (.reference place)
  | operator (method : Method) : Spelled [symbol method] (.operator method)
  | opening : Spelled ['('] .opening
  | closing : Spelled [')'] .closing

inductive Level
  | factor
  | term
  | sum

/-- The grammar of arithmetic: products bind closer than sums, and both group
from the left. -/
inductive Parses : Level → Expression → List Lexeme → Prop
  | literal (literal : Literal) : Parses .factor (.literal literal) [.literal literal]
  | reference (place : Place) : Parses .factor (.reference place) [.reference place]
  | group {e : Expression} {lexemes : List Lexeme} (h : Parses .sum e lexemes) :
      Parses .factor e (.opening :: (lexemes ++ [.closing]))
  | term {e : Expression} {lexemes : List Lexeme} (h : Parses .factor e lexemes) :
      Parses .term e lexemes
  | product {method : Method} {left right : Expression} {lexemes behind : List Lexeme}
      (hmethod : method = .multiply ∨ method = .divide) (hleft : Parses .term left lexemes)
      (hright : Parses .factor right behind) :
      Parses .term (.apply method left right) (lexemes ++ .operator method :: behind)
  | sum {e : Expression} {lexemes : List Lexeme} (h : Parses .term e lexemes) :
      Parses .sum e lexemes
  | addition {method : Method} {left right : Expression} {lexemes behind : List Lexeme}
      (hmethod : method = .add ∨ method = .subtract) (hleft : Parses .sum left lexemes)
      (hright : Parses .term right behind) :
      Parses .sum (.apply method left right) (lexemes ++ .operator method :: behind)

/-- Lexemes between blanks; behind a name stands nothing that would go on with it. -/
inductive Laid : List Lexeme → Text → Prop
  | nil {gap : Text} (hgap : IsGap gap) : Laid [] gap
  | cons {gap piece rest : Text} {lexeme : Lexeme} {lexemes : List Lexeme} (hgap : IsGap gap)
      (hspelled : Spelled piece lexeme) (hrest : Laid lexemes rest)
      (hapart : ∀ name c, lexeme = .reference (.scalar name) → rest.head? = some c →
        isDataCharacter c = false) :
      Laid (lexeme :: lexemes) (gap ++ (piece ++ rest))

/-- The texts that write an expression. -/
def Writes (e : Expression) (t : Text) : Prop :=
  ∃ lexemes, Parses .sum e lexemes ∧ Laid lexemes t

end Writing

section Alternation

/-- An operand is followed by an operator, an operator by an operand. -/
def Alternates : Bool → List Lexeme → Prop
  | operand, [] => operand = false
  | true, .literal _ :: lexemes | true, .reference _ :: lexemes => Alternates false lexemes
  | true, .opening :: lexemes => Alternates true lexemes
  | false, .operator _ :: lexemes => Alternates true lexemes
  | false, .closing :: lexemes => Alternates false lexemes
  | _, _ :: _ => False

theorem Parses.alternates {level : Level} {e : Expression} {lexemes : List Lexeme}
    (h : Parses level e lexemes) {rest : List Lexeme} (hrest : Alternates false rest) :
    Alternates true (lexemes ++ rest) := by
  induction h generalizing rest with
  | literal literal => exact hrest
  | reference place => exact hrest
  | group h ih =>
      rw [List.cons_append, List.append_assoc]
      exact ih hrest
  | term h ih => exact ih hrest
  | product hmethod hleft hright ihl ihr =>
      rw [List.append_assoc]
      exact ihl (ihr hrest)
  | sum h ih => exact ih hrest
  | addition hmethod hleft hright ihl ihr =>
      rw [List.append_assoc]
      exact ihl (ihr hrest)

/-- Whether an operand is expected behind a lexeme. -/
def Lexeme.expects : Lexeme → Bool
  | .operator _ | .opening => true
  | _ => false

theorem Alternates.tail {operand : Bool} {lexeme : Lexeme} {lexemes : List Lexeme}
    (h : Alternates operand (lexeme :: lexemes)) : Alternates lexeme.expects lexemes := by
  cases operand <;> cases lexeme <;> first | exact h | exact h.elim

/-- A character that ends an operand. -/
def EndsOperand (c : Char) : Prop :=
  c.toNat < 128 ∧ isDigitAscii c = false ∧ c ≠ '.' ∧ c ≠ '('

instance : DecidablePred EndsOperand := fun _ => inferInstanceAs (Decidable (_ ∧ _ ∧ _ ∧ _))

theorem Laid.head {lexemes : List Lexeme} {t : Text} (h : Laid lexemes t)
    (halternates : Alternates false lexemes) : ∀ c, t.head? = some c → EndsOperand c := by
  have hblank {gap : Text} (hgap : IsGap gap) {c : Char} (hc : c ∈ gap) : EndsOperand c := by
    obtain ⟨-, hopen, -, -, -, hdigit, hpoint⟩ := gap_facts (hgap c hc)
    exact ⟨(hgap c hc).1, hdigit, hpoint, hopen⟩
  intro c hc
  cases h with
  | nil hgap => exact hblank hgap (List.mem_of_mem_head? hc)
  | @cons gap piece rest lexeme lexemes hgap hspelled hrest hapart =>
      cases gap with
      | cons d gap =>
          obtain rfl := Option.some.inj hc
          exact hblank hgap List.mem_cons_self
      | nil =>
          cases hspelled with
          | literal literal => exact halternates.elim
          | reference hwritten => exact halternates.elim
          | operator method =>
              obtain rfl := Option.some.inj hc
              cases method <;> decide
          | opening => exact halternates.elim
          | closing =>
              obtain rfl := Option.some.inj hc
              decide

/-- Past the blanks behind an operand there is no parenthesis that opens. -/
theorem Laid.dropWhile {lexemes : List Lexeme} {t : Text} (h : Laid lexemes t)
    (halternates : Alternates false lexemes) : startsWith (t.dropWhile isWhitespace) ['('] = false := by
  have hblank {gap : Text} (hgap : IsGap gap) : ∀ c ∈ gap, isWhitespace c = true :=
    fun c hc => (hgap c hc).2
  cases h with
  | nil hgap =>
      rw [List.dropWhile_eq_nil_iff.mpr (hblank hgap)]
      rfl
  | cons hgap hspelled hrest hapart =>
      rw [List.dropWhile_append_of_pos (hblank hgap)]
      cases hspelled with
      | literal literal => exact halternates.elim
      | reference hwritten => exact halternates.elim
      | operator method => cases method <;> rfl
      | opening => exact halternates.elim
      | closing => rfl

end Alternation

section Matching

/-- A text whose parentheses match is read over at any depth. -/
def Balanced (t : Text) : Prop :=
  ∀ depth rest, takeMatching (depth + 1) (t ++ rest) =
    (takeMatching (depth + 1) rest).map fun p => (t ++ p.1, p.2)

theorem takeMatching_open (depth : Nat) (t : Text) :
    takeMatching depth ('(' :: t) = (takeMatching (depth + 1) t).map fun p => ('(' :: p.1, p.2) :=
  rfl

theorem takeMatching_close (depth : Nat) (t : Text) :
    takeMatching (depth + 2) (')' :: t) =
      (takeMatching (depth + 1) t).map fun p => (')' :: p.1, p.2) := by
  simp [takeMatching]

theorem Balanced.append {s t : Text} (hs : Balanced s) (ht : Balanced t) : Balanced (s ++ t) := by
  intro depth rest
  rw [List.append_assoc, hs, ht, Option.map_map]
  simp [Function.comp_def]

theorem balanced_of_notMem {t : Text} (h : ∀ c ∈ t, c ≠ '(' ∧ c ≠ ')') : Balanced t := by
  intro depth rest
  induction t with
  | nil => simp
  | cons c t ih =>
      obtain ⟨hopen, hclose⟩ := h c List.mem_cons_self
      have htail := ih fun d hd => h d (List.mem_cons_of_mem _ hd)
      simp [takeMatching, hopen, hclose, htail, Function.comp_def]

theorem Balanced.group {t : Text} (h : Balanced t) : Balanced ('(' :: t ++ [')']) := by
  intro depth rest
  rw [List.cons_append, List.cons_append, List.append_assoc, takeMatching_open, h,
    List.singleton_append, takeMatching_close, Option.map_map, Option.map_map]
  simp [Function.comp_def]

theorem takeMatching_group {t : Text} (h : Balanced t) (rest : Text) :
    takeMatching 0 ('(' :: (t ++ ')' :: rest)) = some ('(' :: (t ++ [')']), rest) := by
  rw [takeMatching_open, h]
  rfl

theorem balanced_gap {gap : Text} (h : IsGap gap) : Balanced gap :=
  balanced_of_notMem fun c hc => ⟨(gap_facts (h c hc)).2.1, (gap_facts (h c hc)).2.2.1⟩

theorem balanced_characters {t : Text} (h : ∀ c ∈ t, isDataCharacter c = true) : Balanced t :=
  balanced_of_notMem fun c hc => ⟨(data_facts (h c hc)).2.2.1, (data_facts (h c hc)).2.2.2.1⟩

theorem balanced_digits {digits : Text} (h : ∀ c ∈ digits, isDigitAscii c = true) :
    Balanced digits :=
  balanced_characters fun c hc => (digit_facts (h c hc)).1

theorem Written.balanced {place : Place} {t : Text} (h : Written place t) : Balanced t := by
  induction h with
  | scalar hname => exact balanced_characters hname.characters
  | constant hname hbefore hinner hafter hdigits hne =>
      have hsubscript := ((balanced_gap hinner).append (balanced_digits hdigits)).append
        (balanced_gap hafter)
      have hhead := (balanced_characters hname.characters).append (balanced_gap hbefore)
      simpa [subscripted] using hhead.append hsubscript.group
  | element hname hbefore hinner hafter hindex ih =>
      have hsubscript := ((balanced_gap hinner).append ih).append (balanced_gap hafter)
      have hhead := (balanced_characters hname.characters).append (balanced_gap hbefore)
      simpa [subscripted] using hhead.append hsubscript.group

end Matching

section Tokens

variable (u : UnicodeData)

/-- Whether the generator takes a sign for the sign of a number. -/
def expectsOperand (previous : Option Text) : Bool :=
  previous.all fun token => contains "+-*/(".toList token

theorem isNumberCharacter_ascii {c : Char} (h : c.toNat < 128) :
    isNumberCharacter u c = (isDigitAscii c || c == '.') := by
  rw [isNumberCharacter, u.isDigit_ascii c h]

theorem isNameCharacter_ascii {c : Char} (h : c.toNat < 128) :
    isNameCharacter u c = isDataCharacter c := by
  rw [isNameCharacter, UnicodeData.isLetterOrDigit, u.isLetter_ascii c h, u.isDigit_ascii c h,
    isDataCharacter]

def Literal.body (literal : Literal) : Text :=
  literal.whole ++ pointText literal.fraction

theorem Literal.body_facts (literal : Literal) :
    literal.body ≠ [] ∧ ∀ c ∈ literal.body, isDigitAscii c = true ∨ c = '.' := by
  have hfilled := literal.filled
  have hdigits := literal.digits
  unfold Literal.body pointText
  split
  · rename_i hempty
    rw [List.isEmpty_iff.mp hempty] at hfilled hdigits
    exact ⟨hfilled, fun c hc => .inl (hdigits c hc)⟩
  · refine ⟨by simp, fun c hc => ?_⟩
    rcases List.mem_append.mp hc with hc | hc
    · exact .inl (hdigits c (List.mem_append_left _ hc))
    · rcases List.mem_cons.mp hc with rfl | hc
      · exact .inr rfl
      · exact .inl (hdigits c (List.mem_append_right _ hc))

theorem number_of_body {c : Char} (h : isDigitAscii c = true ∨ c = '.') :
    c.toNat < 128 ∧ isNumberCharacter u c = true ∧ isWhitespace c = false ∧
      isTrimmed c = false := by
  rcases h with h | rfl
  · obtain ⟨htrimmed, hblank, -⟩ := data_facts (digit_facts h).1
    refine ⟨ascii_of_isDigitAscii h, ?_, hblank, htrimmed⟩
    rw [isNumberCharacter_ascii u (ascii_of_isDigitAscii h), h, Bool.true_or]
  · exact ⟨by decide, isNumberCharacter_ascii u (by decide), by decide, by decide⟩

theorem not_number_of_endsOperand {c : Char} (h : EndsOperand c) : isNumberCharacter u c = false := by
  obtain ⟨hascii, hdigit, hpoint, -⟩ := h
  simp [isNumberCharacter_ascii u hascii, hdigit, hpoint]

/-- The token of a literal is the literal. -/
theorem nextToken_literal (literal : Literal) {rest : Text}
    (hrest : ∀ c, rest.head? = some c → EndsOperand c) {previous : Option Text}
    (hprevious : expectsOperand previous = true) :
    ∃ c t, literal.text = c :: t ∧ isWhitespace c = false ∧
      nextToken u previous c (t ++ rest) = (literal.text, rest) := by
  obtain ⟨hne, hbody⟩ := literal.body_facts
  have htake := takeWhile_append_head (fun c hc => (number_of_body u (hbody c hc)).2.1)
    fun c hc => not_number_of_endsOperand u (hrest c hc)
  obtain ⟨c, body, hcons⟩ := List.exists_cons_of_ne_nil hne
  have hc := hbody c (hcons ▸ List.mem_cons_self)
  obtain ⟨hascii, hnumber, hblank, -⟩ := number_of_body u hc
  have hsigned (sign : Char) (hsign : sign = '+' ∨ sign = '-') :
      nextToken u previous sign (literal.body ++ rest) = (sign :: literal.body, rest) := by
    have hunary : unarySign u previous sign (literal.body ++ rest) = true := by
      rw [hcons, List.cons_append, unarySign, hnumber, Bool.and_true]
      rcases hsign with rfl | rfl
      · exact hprevious
      · exact hprevious
    rw [nextToken, hunary, Bool.or_true, if_pos rfl, htake.1, htake.2]
  cases hsign : literal.sign with
  | unsigned =>
      refine ⟨c, body, by rw [Literal.text, hsign]; exact hcons, hblank, ?_⟩
      have htail := takeWhile_append_head
        (fun d hd => (number_of_body u (hbody d (hcons ▸ List.mem_cons_of_mem _ hd))).2.1)
        fun d hd => not_number_of_endsOperand u (hrest d hd)
      rw [isNumberCharacter] at hnumber
      rw [nextToken, hnumber, Bool.true_or, if_pos rfl, htail.1, htail.2, Literal.text, hsign]
      exact congrArg (·, rest) hcons.symm
  | plus =>
      refine ⟨'+', literal.body, by rw [Literal.text, hsign]; rfl, by decide, ?_⟩
      rw [hsigned '+' (.inl rfl), Literal.text, hsign]
      rfl
  | minus =>
      refine ⟨'-', literal.body, by rw [Literal.text, hsign]; rfl, by decide, ?_⟩
      rw [hsigned '-' (.inr rfl), Literal.text, hsign]
      rfl

/-- Behind the characters of a name stands one that cannot go on with it. -/
def Apart (rest : Text) : Prop :=
  ∀ c, rest.head? = some c → c.toNat < 128 ∧ isDataCharacter c = false

theorem nextToken_name {name rest : Text} (hname : IsDataName name) (hrest : Apart rest)
    (previous : Option Text) :
    ∃ c t, name = c :: t ∧ isWhitespace c = false ∧
      nextToken u previous c (t ++ rest) = nameToken u name rest := by
  obtain ⟨c, hhead, hc⟩ := hname.head
  obtain ⟨t, rfl⟩ := List.head?_eq_some_iff.mp hhead
  have hascii := ascii_of_isAlpha hc
  obtain ⟨hdata, hdigit, hpoint, hplus, hminus, -⟩ := alpha_facts hc
  have hcharacter {d : Char} (hd : isDataCharacter d = true) : isNameCharacter u d = true := by
    rw [isNameCharacter_ascii u (ascii_of_isDataCharacter hd), hd]
  have htake := takeWhile_append_head
    (fun d hd => hcharacter (hname.characters d (List.mem_cons_of_mem c hd)))
    fun d hd => by rw [isNameCharacter_ascii u (hrest d hd).1, (hrest d hd).2]
  refine ⟨c, t, rfl, (data_facts hdata).2.1, ?_⟩
  have hnumber : (u.isDigit c || c == '.' || unarySign u previous c (t ++ rest)) = false := by
    simp [u.isDigit_ascii c hascii, hdigit, hpoint, unarySign, hplus, hminus]
  rw [nextToken, hnumber, u.isLetter_ascii c hascii, hc, htake.1, htake.2]
  rfl

theorem nameToken_scalar {name rest : Text} (hname : IsDataName name)
    (hopen : startsWith (rest.dropWhile isWhitespace) ['('] = false) :
    nameToken u name rest = (upper name, rest) := by
  have hascii := fun c hc => ascii_of_isDataCharacter (hname.characters c hc)
  simp [nameToken, hopen, toUpperCase_ascii u hascii]

/-- The blanks in front of a subscript become one. -/
theorem nameToken_table {name before subscript : Text} (hname : IsDataName name)
    (hbefore : IsGap before) (hbalanced : Balanced subscript)
    (hascii : ∀ c ∈ subscript, c.toNat < 128) (rest : Text) :
    nameToken u name (before ++ '(' :: (subscript ++ ')' :: rest)) =
      (upper name ++ ' ' :: '(' :: (upper subscript ++ [')']), rest) := by
  have hbehind : (before ++ '(' :: (subscript ++ ')' :: rest)).dropWhile isWhitespace =
      '(' :: (subscript ++ ')' :: rest) := by
    rw [List.dropWhile_append_of_pos fun c hc => (hbefore c hc).2]
    rfl
  have htrim : trim ('(' :: (subscript ++ [')'])) = '(' :: (subscript ++ [')']) := by
    apply trim_eq_self
    · rintro c hc
      obtain rfl := Option.some.inj hc
      decide
    · rintro c hc
      rw [← List.cons_append, List.getLast?_concat] at hc
      obtain rfl := Option.some.inj hc
      decide
  have hgroup : ∀ c ∈ '(' :: (subscript ++ [')']), c.toNat < 128 := by
    intro c hc
    rcases List.mem_cons.mp hc with rfl | hc
    · decide
    · rcases List.mem_append.mp hc with hc | hc
      · exact hascii c hc
      · obtain rfl := List.mem_singleton.mp hc
        decide
  have hnames := fun c hc => ascii_of_isDataCharacter (hname.characters c hc)
  have hopen (t : Text) : startsWith ('(' :: t) ['('] = true := by simp [startsWith]
  have hupper : upper ('(' :: (subscript ++ [')'])) = '(' :: (upper subscript ++ [')']) := by
    simp [upper]
  simp only [nameToken, hbehind, hopen, takeMatching_group hbalanced, htrim, if_true,
    toUpperCase_ascii u hnames, toUpperCase_ascii u hgroup, hupper]

/-- The token of a reference with a subscript. -/
theorem nextToken_table {name before inner core after : Text} (hname : IsDataName name)
    (hbefore : IsGap before) (hinner : IsGap inner) (hafter : IsGap after) (hcore : Balanced core)
    (hascii : ∀ c ∈ core, c.toNat < 128) (rest : Text) (previous : Option Text) :
    ∃ c t, subscripted name before inner core after = c :: t ∧ isWhitespace c = false ∧
      nextToken u previous c (t ++ rest) =
        (subscripted (upper name) [' '] inner (upper core) after, rest) := by
  have hbalanced : Balanced (inner ++ core ++ after) :=
    ((balanced_gap hinner).append hcore).append (balanced_gap hafter)
  have hsubscript : ∀ c ∈ inner ++ core ++ after, c.toNat < 128 := by
    intro c hc
    rcases List.mem_append.mp hc with hc | hc
    · rcases List.mem_append.mp hc with hc | hc
      · exact (hinner c hc).1
      · exact hascii c hc
    · exact (hafter c hc).1
  have hbehind : Apart (before ++ '(' :: (inner ++ core ++ after ++ ')' :: rest)) := by
    intro c hc
    cases before with
    | nil =>
        obtain rfl := Option.some.inj hc
        exact ⟨by decide, by decide⟩
    | cons d before =>
        obtain rfl := Option.some.inj hc
        have hd := hbefore d List.mem_cons_self
        exact ⟨hd.1, (gap_facts hd).2.2.2.2.1⟩
  obtain ⟨c, t, rfl, hblank, htoken⟩ := nextToken_name u hname hbehind previous
  refine ⟨c, t ++ before ++ '(' :: (inner ++ core ++ after) ++ [')'], rfl, hblank, ?_⟩
  rw [nameToken_table u hname hbefore hbalanced hsubscript] at htoken
  simpa [subscripted, upper_gap hinner, upper_gap hafter] using htoken

/-- The token of a reference is the reference again. -/
theorem nextToken_reference {place : Place} {piece rest : Text} (hwritten : Written place piece)
    (hrest : ∀ c, rest.head? = some c → EndsOperand c)
    (hopen : startsWith (rest.dropWhile isWhitespace) ['('] = false)
    (hapart : ∀ name c, place = .scalar name → rest.head? = some c → isDataCharacter c = false)
    (previous : Option Text) :
    ∃ c t token, piece = c :: t ∧ isWhitespace c = false ∧
      nextToken u previous c (t ++ rest) = (token, rest) ∧ Written place token := by
  have hspace : IsGap [' '] := by
    intro c hc
    obtain rfl := List.mem_singleton.mp hc
    exact ⟨by decide, by decide⟩
  cases hwritten with
  | scalar hname =>
      have hbehind : Apart rest := fun c hc => ⟨(hrest c hc).1, hapart _ c rfl hc⟩
      obtain ⟨c, t, hpiece, hblank, htoken⟩ := nextToken_name u hname hbehind previous
      refine ⟨c, t, _, hpiece, hblank, htoken.trans (nameToken_scalar u hname hopen), ?_⟩
      exact (Written.scalar hname).upper
  | constant hname hbefore hinner hafter hdigits hne =>
      obtain ⟨c, t, hpiece, hblank, htoken⟩ := nextToken_table u hname hbefore hinner hafter
        (balanced_digits hdigits) (fun c hc => ascii_of_isDigitAscii (hdigits c hc)) rest previous
      refine ⟨c, t, _, hpiece, hblank, htoken, ?_⟩
      rw [upper_digits hdigits]
      have hwritten := Written.constant hname.upper hspace hinner hafter hdigits hne
      rwa [hname.upper_upper] at hwritten
  | element hname hbefore hinner hafter hindex =>
      obtain ⟨c, t, hpiece, hblank, htoken⟩ := nextToken_table u hname hbefore hinner hafter
        (Written.balanced hindex) hindex.ascii rest previous
      refine ⟨c, t, _, hpiece, hblank, htoken, ?_⟩
      have hwritten := Written.element hname.upper hspace hinner hafter hindex.upper
      rwa [hname.upper_upper] at hwritten

/-- A sign behind an operand is an operator. -/
theorem nextToken_symbol {c : Char} (hc : c ∈ ['+', '-', '*', '/', '(', ')'])
    {previous : Option Text} (h : (c = '+' ∨ c = '-') → expectsOperand previous = false)
    (rest : Text) : isWhitespace c = false ∧ nextToken u previous c rest = ([c], rest) := by
  have hfacts : c.toNat < 128 ∧ isWhitespace c = false ∧ isDigitAscii c = false ∧ c ≠ '.' ∧
      c.isAlpha = false := by
    simp only [List.mem_cons, List.not_mem_nil, or_false] at hc
    rcases hc with rfl | rfl | rfl | rfl | rfl | rfl <;> decide
  obtain ⟨hascii, hblank, hdigit, hpoint, halpha⟩ := hfacts
  have hunary : unarySign u previous c rest = false := by
    by_cases hsign : c = '+' ∨ c = '-'
    · have hprevious := h hsign
      rw [expectsOperand] at hprevious
      unfold unarySign
      rw [hprevious, Bool.and_false]
    · rw [not_or] at hsign
      simp [unarySign, hsign]
  refine ⟨hblank, ?_⟩
  simp [nextToken, u.isDigit_ascii c hascii, hdigit, hpoint, hunary, u.isLetter_ascii c hascii, halpha]

theorem not_contains_of_mem {c : Char} {token : Text} (hmem : c ∈ token)
    (hc : c ∉ "+-*/(".toList) : expectsOperand (some token) = false := by
  apply Bool.eq_false_iff.mpr
  intro hcontains
  rw [expectsOperand, Option.all_some, contains_iff_infix] at hcontains
  obtain ⟨before, behind, hsplit⟩ := hcontains
  exact hc (hsplit ▸ List.mem_append_left _ (List.mem_append_right _ hmem))

theorem notMem_operators {c : Char} (h : isDigitAscii c = true ∨ c.isAlpha = true ∨ c = '.') :
    c ∉ "+-*/(".toList := by
  intro hmem
  have hcases : c = '+' ∨ c = '-' ∨ c = '*' ∨ c = '/' ∨ c = '(' := by simpa using hmem
  rcases hcases with rfl | rfl | rfl | rfl | rfl <;> revert h <;> decide

/-- Behind the token of a lexeme a sign is taken as the lexeme says. -/
theorem Spelled.expects {token : Text} {lexeme : Lexeme} (h : Spelled token lexeme) :
    expectsOperand (some token) = lexeme.expects := by
  cases h with
  | literal literal =>
      obtain ⟨hne, hbody⟩ := literal.body_facts
      obtain ⟨c, body, hcons⟩ := List.exists_cons_of_ne_nil hne
      have hmem : c ∈ literal.body := hcons ▸ List.mem_cons_self
      apply not_contains_of_mem (List.mem_append_right _ hmem)
      rcases hbody c hmem with h | h
      · exact notMem_operators (.inl h)
      · exact notMem_operators (.inr (.inr h))
  | reference hwritten =>
      obtain ⟨c, rest, rfl, hc⟩ := hwritten.head
      exact not_contains_of_mem List.mem_cons_self (notMem_operators (.inr (.inl hc)))
  | operator method => cases method <;> decide
  | opening => decide
  | closing => decide

/-- One round of the tokenizer reads one lexeme. -/
theorem nextToken_spelled {piece rest : Text} {lexeme : Lexeme} {lexemes : List Lexeme}
    (hspelled : Spelled piece lexeme) (hlaid : Laid lexemes rest) {operand : Bool}
    (halternates : Alternates operand (lexeme :: lexemes))
    (hapart : ∀ name c, lexeme = .reference (.scalar name) → rest.head? = some c →
      isDataCharacter c = false)
    {previous : Option Text} (hprevious : expectsOperand previous = operand) :
    ∃ c t token, piece = c :: t ∧ isWhitespace c = false ∧
      nextToken u previous c (t ++ rest) = (token, rest) ∧ Spelled token lexeme := by
  have htail := halternates.tail
  cases hspelled with
  | literal literal =>
      cases operand with
      | false => exact halternates.elim
      | true =>
          obtain ⟨c, t, hpiece, hblank, htoken⟩ :=
            nextToken_literal u literal (hlaid.head htail) hprevious
          exact ⟨c, t, literal.text, hpiece, hblank, htoken, .literal literal⟩
  | reference hwritten =>
      obtain ⟨c, t, token, hpiece, hblank, htoken, hagain⟩ := nextToken_reference u hwritten
        (hlaid.head htail) (hlaid.dropWhile htail)
        (fun name c hplace => hapart name c (congrArg Lexeme.reference hplace)) previous
      exact ⟨c, t, token, hpiece, hblank, htoken, .reference hagain⟩
  | operator method =>
      cases operand with
      | true => exact halternates.elim
      | false =>
          obtain ⟨hblank, htoken⟩ := nextToken_symbol u (c := symbol method)
            (by cases method <;> decide) (fun _ => hprevious) rest
          exact ⟨_, [], _, rfl, hblank, htoken, .operator method⟩
  | opening =>
      obtain ⟨hblank, htoken⟩ := nextToken_symbol u (c := '(') (by decide) (by simp) rest
      exact ⟨_, [], _, rfl, hblank, htoken, .opening⟩
  | closing =>
      obtain ⟨hblank, htoken⟩ := nextToken_symbol u (c := ')') (by decide) (by simp) rest
      exact ⟨_, [], _, rfl, hblank, htoken, .closing⟩

theorem tokenizeFrom_laid {lexemes : List Lexeme} {t : Text} (hlaid : Laid lexemes t)
    {operand : Bool} (halternates : Alternates operand lexemes) {previous : Option Text}
    (hprevious : expectsOperand previous = operand) {fuel : Nat} (hfuel : t.length ≤ fuel) :
    List.Forall₂ Spelled (tokenizeFrom u fuel previous t) lexemes := by
  induction hlaid generalizing operand previous fuel with
  | nil hgap =>
      have hdrop := List.dropWhile_eq_nil_iff.mpr fun c hc => (hgap c hc).2
      cases fuel with
      | zero => exact .nil
      | succ fuel =>
          rw [tokenizeFrom, hdrop]
          exact .nil
  | @cons gap piece rest lexeme lexemes hgap hspelled hrest hapart ih =>
      obtain ⟨c, t, token, rfl, hblank, htoken, hagain⟩ :=
        nextToken_spelled u hspelled hrest halternates hapart hprevious
      have hdrop : (gap ++ (c :: t ++ rest)).dropWhile isWhitespace = c :: (t ++ rest) := by
        rw [List.dropWhile_append_of_pos fun c hc => (hgap c hc).2, List.cons_append]
        simp [hblank]
      simp only [List.length_append, List.length_cons] at hfuel
      obtain ⟨fuel, rfl⟩ : ∃ n, fuel = n + 1 := Nat.exists_eq_add_of_le' (by omega)
      rw [tokenizeFrom, hdrop]
      dsimp only
      rw [htoken]
      exact .cons hagain (ih halternates.tail hagain.expects (by omega))

/-- The tokens of a written expression spell its lexemes. -/
theorem tokenizeExpression_laid {e : Expression} {lexemes : List Lexeme} {t : Text}
    (hparses : Parses .sum e lexemes) (hlaid : Laid lexemes t) :
    List.Forall₂ Spelled (tokenizeExpression u t) lexemes := by
  have halternates : Alternates true lexemes := by
    simpa using hparses.alternates (show Alternates false [] from rfl)
  have hfilled : isBlank t = false := by
    cases hlaid with
    | nil hgap => exact absurd halternates (by simp [Alternates])
    | cons hgap hspelled hrest hapart =>
        have hfirst : expectsOperand none = true := rfl
        obtain ⟨c, t, token, rfl, hblank, -⟩ :=
          nextToken_spelled u hspelled hrest halternates hapart hfirst
        simp [isBlank, hblank]
  rw [tokenizeExpression, hfilled]
  exact tokenizeFrom_laid u hlaid halternates rfl le_rfl

end Tokens

end C2c.TargetJava.WrittenExpressions
