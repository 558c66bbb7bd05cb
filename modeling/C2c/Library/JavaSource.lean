import C2c.Library.JavaText
import C2c.Library.JsonText

/-!
The lexical structure of Java source: unicode escapes are translated first,
then comments and literals are told from the other characters.
-/

namespace C2c.Library.JavaSource

open C2c.Library.JavaText
open C2c.Library.JsonText

/-! Unicode escapes. -/

/-- What has been read of an escape: nothing, a backslash that may begin one,
or the digits behind its `u`.  A surrogate is read as the replacement
character. -/
inductive Pending
  | none
  | backslash
  | digits (read : Nat) (value : Nat)
deriving DecidableEq

/-- The translation of a text behind what is pending, unless an escape is
malformed.  A backslash behind a backslash begins no escape. -/
def translateFrom : Pending → Text → Option Text
  | .none, [] => some []
  | .backslash, [] => some ['\\']
  | .digits _ _, [] => Option.none
  | .none, c :: t =>
      if c = '\\' then translateFrom .backslash t else (translateFrom .none t).map (c :: ·)
  | .backslash, c :: t =>
      if c = 'u' then translateFrom (.digits 0 0) t
      else (translateFrom .none t).map fun rest => '\\' :: c :: rest
  | .digits n value, c :: t =>
      match hexValue c with
      | some digit =>
          if n = 3 then (translateFrom .none t).map (charOf (16 * value + digit) :: ·)
          else translateFrom (.digits (n + 1) (16 * value + digit)) t
      | Option.none =>
          if c = 'u' ∧ n = 0 then translateFrom (.digits 0 0) t else Option.none

def translateEscapes (t : Text) : Option Text :=
  translateFrom .none t

/-- A text that completes no escape begun before it. -/
def Fresh (t : Text) : Prop :=
  ∀ c, t.head? = some c → c ≠ '\\' ∧ c ≠ 'u' ∧ hexValue c = none

theorem map_before {f : Text → Text} (hf : ∀ s t, f (s ++ t) = f s ++ t) (x y : Option Text) :
    (x.bind fun s => y.map (s ++ ·)).map f = (x.map f).bind fun s => y.map (s ++ ·) := by
  cases x with
  | none => rfl
  | some s => cases y <;> simp [hf]

/-- A text is translated apart from a fresh one behind it. -/
theorem translateFrom_append (pending : Pending) (s : Text) {t : Text} (h : Fresh t) :
    translateFrom pending (s ++ t) =
      (translateFrom pending s).bind fun s' => (translateEscapes t).map (s' ++ ·) := by
  induction s generalizing pending with
  | nil =>
      cases t with
      | nil => cases pending <;> rfl
      | cons c t =>
          obtain ⟨hback, hu, hhex⟩ := h c rfl
          cases pending with
          | none => simp [translateFrom, translateEscapes]
          | backslash =>
              simp only [List.nil_append, translateFrom, if_neg hu, translateEscapes, if_neg hback,
                Option.bind_some, Option.map_map]
              rfl
          | digits n value => simp [translateFrom, hhex, hu]
  | cons c s ih =>
      cases pending with
      | none =>
          simp only [List.cons_append, translateFrom]
          split
          · exact ih _
          · rw [ih, map_before fun _ _ => rfl]
      | backslash =>
          simp only [List.cons_append, translateFrom]
          split
          · exact ih _
          · rw [ih, map_before fun _ _ => rfl]
      | digits n value =>
          simp only [List.cons_append, translateFrom]
          split
          · split
            · rw [ih, map_before fun _ _ => rfl]
            · exact ih _
          · split
            · exact ih _
            · rfl

theorem translate_append (s : Text) {t : Text} (h : Fresh t) :
    translateEscapes (s ++ t) =
      (translateEscapes s).bind fun s' => (translateEscapes t).map (s' ++ ·) :=
  translateFrom_append .none s h

/-- A text without a backslash stays as it is. -/
theorem translate_plain {s : Text} (h : '\\' ∉ s) (t : Text) :
    translateEscapes (s ++ t) = (translateEscapes t).map (s ++ ·) := by
  induction s with
  | nil => simp
  | cons c s ih =>
      obtain ⟨hc, hs⟩ := not_or.mp (List.mem_cons.not.mp h)
      have hrest := ih hs
      unfold translateEscapes at hrest ⊢
      rw [List.cons_append, translateFrom, if_neg (Ne.symm hc), hrest, Option.map_map]
      rfl

theorem translate_self {s : Text} (h : '\\' ∉ s) : translateEscapes s = some s := by
  have hs := translate_plain h []
  rw [List.append_nil] at hs
  exact hs.trans (congrArg some (List.append_nil s))

/-! Comments and literals. -/

inductive Element
  | symbol (c : Char)
  | comment (text : Text)
  | string (characters : Text)
  | textBlock (characters : Text)
  | character (characters : Text)
deriving DecidableEq

/-- Where in the text the reader is: in code, or in an element with what has
been read of it. -/
inductive Mode
  | code
  | slash
  | lineComment (text : Text)
  | blockComment (text : Text)
  | star (text : Text)
  | string (text : Text)
  | stringEscape (text : Text)
  | emptyString
  | textBlock (text : Text) (quotes : Nat)
  | textBlockEscape (text : Text)
  | character (text : Text)
  | characterEscape (text : Text)
deriving DecidableEq

def isLineEnd (c : Char) : Bool :=
  c == '\n' || c == '\r'

/-- A character in code: blanks, and what is neither a comment nor a literal, are
symbols. -/
def codeStep (c : Char) : Mode × List Element :=
  if c = '/' then (.slash, [])
  else if c = '"' then (.string [], [])
  else if c = '\'' then (.character [], [])
  else (.code, [.symbol c])

def Mode.step (c : Char) : Mode → Option (Mode × List Element)
  | .code => some (codeStep c)
  | .slash =>
      if c = '/' then some (.lineComment [], [])
      else if c = '*' then some (.blockComment [], [])
      else some ((codeStep c).1, .symbol '/' :: (codeStep c).2)
  | .lineComment text =>
      if isLineEnd c then some (.code, [.comment text, .symbol c])
      else some (.lineComment (text ++ [c]), [])
  | .blockComment text =>
      if c = '*' then some (.star text, []) else some (.blockComment (text ++ [c]), [])
  | .star text =>
      if c = '/' then some (.code, [.comment text])
      else if c = '*' then some (.star (text ++ ['*']), [])
      else some (.blockComment (text ++ ['*', c]), [])
  | .string text =>
      if c = '"' then some (if text = [] then (.emptyString, []) else (.code, [.string text]))
      else if c = '\\' then some (.stringEscape text, [])
      else if isLineEnd c then none
      else some (.string (text ++ [c]), [])
  | .stringEscape text => if isLineEnd c then none else some (.string (text ++ ['\\', c]), [])
  | .emptyString =>
      if c = '"' then some (.textBlock [] 0, [])
      else some ((codeStep c).1, .string [] :: (codeStep c).2)
  | .textBlock text quotes =>
      if c = '"' then
        if quotes = 2 then some (.code, [.textBlock (text.take (text.length - 2))])
        else some (.textBlock (text ++ ['"']) (quotes + 1), [])
      else if c = '\\' then some (.textBlockEscape text, [])
      else some (.textBlock (text ++ [c]) 0, [])
  | .textBlockEscape text => some (.textBlock (text ++ ['\\', c]) 0, [])
  | .character text =>
      if c = '\'' then some (.code, [.character text])
      else if c = '\\' then some (.characterEscape text, [])
      else if isLineEnd c then none
      else some (.character (text ++ [c]), [])
  | .characterEscape text =>
      if isLineEnd c then none else some (.character (text ++ ['\\', c]), [])

/-- The end of the text, which comes too early in an open element. -/
def Mode.finish : Mode → Option (List Element)
  | .code => some []
  | .slash => some [.symbol '/']
  | .lineComment text => some [.comment text]
  | .emptyString => some [.string []]
  | _ => none

def lexFrom : Mode → Text → Option (List Element)
  | mode, [] => mode.finish
  | mode, c :: t =>
      (mode.step c).bind fun next => (lexFrom next.1 t).map (next.2 ++ ·)

/-- The comments, the literals and the other characters of a Java source file. -/
def lex (t : Text) : Option (List Element) :=
  (translateEscapes t).bind (lexFrom .code)

/-! Texts that are read apart from what stands behind them. -/

/-- A character that is a symbol wherever it stands in code. -/
def isPlain (c : Char) : Bool :=
  c != '\\' && c != '/' && c != '"' && c != '\''

theorem isPlain_iff (c : Char) :
    isPlain c = true ↔ c ≠ '\\' ∧ c ≠ '/' ∧ c ≠ '"' ∧ c ≠ '\'' := by
  simp [isPlain, and_assoc]

theorem lexFrom_cons (mode : Mode) (c : Char) (t : Text) :
    lexFrom mode (c :: t) =
      (mode.step c).bind fun next => (lexFrom next.1 t).map (next.2 ++ ·) := rfl

/-- The elements of a text in code, whatever follows it. -/
structure Lexes (s s' : Text) (elements : List Element) : Prop where
  translated : ∀ t, translateEscapes (s ++ t) = (translateEscapes t).map (s' ++ ·)
  read : ∀ t, lexFrom .code (s' ++ t) = (lexFrom .code t).map (elements ++ ·)

theorem Lexes.nil : Lexes [] [] [] :=
  ⟨fun t => by simp, fun t => by simp⟩

theorem Lexes.append {s s' t t' : Text} {es fs : List Element} (hs : Lexes s s' es)
    (ht : Lexes t t' fs) : Lexes (s ++ t) (s' ++ t') (es ++ fs) := by
  constructor
  · intro rest
    rw [List.append_assoc, hs.translated, ht.translated, Option.map_map]
    congr 1
    funext r
    exact (List.append_assoc s' t' r).symm
  · intro rest
    rw [List.append_assoc, hs.read, ht.read, Option.map_map]
    congr 1
    funext r
    exact (List.append_assoc es fs r).symm

theorem Lexes.lex {s s' : Text} {es : List Element} (h : Lexes s s' es) :
    lex s = some es := by
  have htranslated := h.translated []
  have hread := h.read []
  rw [List.append_nil] at htranslated hread
  rw [JavaSource.lex, htranslated, translateEscapes, translateFrom, Option.map_some, Option.bind_some,
    List.append_nil, hread, lexFrom, Mode.finish, Option.map_some, List.append_nil]

theorem not_mem_of_plain {s : Text} (h : s.all isPlain = true) : '\\' ∉ s := by
  intro hmem
  have hplain := List.all_eq_true.mp h _ hmem
  exact absurd rfl ((isPlain_iff _).mp hplain).1

theorem lexes_plain {s : Text} (h : s.all isPlain = true) : Lexes s s (s.map .symbol) := by
  refine ⟨translate_plain (not_mem_of_plain h), fun t => ?_⟩
  induction s with
  | nil => simp
  | cons c s ih =>
      rw [List.all_cons, Bool.and_eq_true] at h
      obtain ⟨-, hslash, hquote, hapostrophe⟩ := (isPlain_iff c).mp h.1
      rw [List.cons_append, lexFrom_cons, Mode.step, codeStep, if_neg hslash, if_neg hquote,
        if_neg hapostrophe, Option.bind_some, ih h.2, Option.map_map]
      rfl

/-! Comments. -/

/-- Whether a comment's text has an end mark. -/
def EndMarked (t : Text) : Prop :=
  ['*', '/'] <:+: t

/-- A text for a line comment: one that is translated without a line end. -/
def LineSafe (t : Text) : Prop :=
  ∃ t', translateEscapes t = some t' ∧ t'.any isLineEnd = false

/-- A text for a comment with an end mark. -/
def BlockSafe (t : Text) : Prop :=
  ∃ t', translateEscapes t = some t' ∧ ¬ EndMarked t'

theorem fresh_cons {c : Char} (h : c ≠ '\\' ∧ c ≠ 'u' ∧ hexValue c = none) (t : Text) :
    Fresh (c :: t) := by
  rintro d ⟨⟩
  exact h

theorem lineSafe_append (s : Text) {t : Text} (h : Fresh t) :
    LineSafe (s ++ t) ↔ LineSafe s ∧ LineSafe t := by
  unfold LineSafe
  rw [translate_append s h]
  cases translateEscapes s with
  | none => simp
  | some s' =>
      cases translateEscapes t with
      | none => simp
      | some t' =>
          simp only [Option.bind_some, Option.map_some, Option.some.injEq, exists_eq_left',
            List.any_append, Bool.or_eq_false_iff]

theorem lineSafe_plain_append {s : Text} (hback : '\\' ∉ s) (hend : s.any isLineEnd = false)
    (t : Text) : LineSafe (s ++ t) ↔ LineSafe t := by
  unfold LineSafe
  rw [translate_plain hback]
  cases translateEscapes t with
  | none => simp
  | some t' =>
      simp only [Option.map_some, Option.some.injEq, exists_eq_left', List.any_append, hend,
        Bool.false_or]

theorem lineSafe_plain {s : Text} (hback : '\\' ∉ s) (hend : s.any isLineEnd = false) :
    LineSafe s :=
  ⟨s, translate_self hback, hend⟩

theorem contains_iff_endMarked (t : Text) : contains t ['*', '/'] = true ↔ EndMarked t :=
  contains_iff_infix t ['*', '/']

theorem endMarked_append_cons {c : Char} (hstar : c ≠ '*') (hslash : c ≠ '/') (s t : Text) :
    EndMarked (s ++ c :: t) ↔ EndMarked s ∨ EndMarked t := by
  have hnot : c ∉ ['*', '/'] := by
    simp [hstar, hslash]
  have h : contains (s ++ c :: t) ['*', '/'] = (contains s ['*', '/'] || contains t ['*', '/']) :=
    contains_append_of_notMem hnot t
  rw [Bool.eq_iff_iff, Bool.or_eq_true, contains_iff_infix, contains_iff_infix,
    contains_iff_infix] at h
  exact h

/-- A text between a blank and a line feed of a block comment. -/
theorem blockSafe_hole {before after : Text} (hbefore : '\\' ∉ before) (hmark : ¬ EndMarked before)
    (hole : Text) :
    BlockSafe (before ++ ' ' :: (hole ++ '\n' :: after)) ↔ BlockSafe hole ∧ BlockSafe after := by
  have hfront : '\\' ∉ before ++ [' '] := by
    simpa using hbefore
  have htext := translate_plain hfront (hole ++ '\n' :: after)
  rw [List.append_assoc, List.singleton_append,
    translate_append hole (fresh_cons (by decide) after),
    show translateEscapes ('\n' :: after) = _ from
      translate_plain (by decide : '\\' ∉ ['\n']) after] at htext
  unfold BlockSafe
  rw [htext]
  cases translateEscapes hole with
  | none => simp
  | some hole' =>
      cases translateEscapes after with
      | none => simp
      | some after' =>
          have hsplit : EndMarked (before ++ ' ' :: (hole' ++ '\n' :: after')) ↔
              EndMarked hole' ∨ EndMarked after' := by
            rw [endMarked_append_cons (by decide) (by decide), or_iff_right hmark,
              endMarked_append_cons (by decide) (by decide)]
          simp [hsplit, not_or]

/-- A text without a line end stays in the line comment. -/
theorem lexFrom_lineComment {t : Text} (h : t.any isLineEnd = false) (read rest : Text) :
    lexFrom (.lineComment read) (t ++ '\n' :: rest) =
      (lexFrom .code rest).map ([.comment (read ++ t), .symbol '\n'] ++ ·) := by
  induction t generalizing read with
  | nil =>
      rw [List.nil_append, lexFrom_cons, Mode.step, if_pos (show isLineEnd '\n' = true from rfl),
        Option.bind_some, List.append_nil]
  | cons c t ih =>
      rw [List.any_cons, Bool.or_eq_false_iff] at h
      rw [List.cons_append, lexFrom_cons, Mode.step, if_neg (by simp [h.1]), Option.bind_some,
        ih h.2, Option.map_map, List.append_assoc]
      rfl

/-- A text with a line end leaves only a part of it in the comment. -/
theorem lexFrom_lineComment_short {t : Text} (h : t.any isLineEnd = true) (read rest : Text)
    {elements : List Element} (hread : lexFrom (.lineComment read) (t ++ rest) = some elements) :
    ∃ comment, elements.head? = some (.comment comment) ∧
      comment.length < read.length + t.length := by
  induction t generalizing read elements with
  | nil => cases h
  | cons c t ih =>
      rw [List.cons_append, lexFrom_cons, Mode.step] at hread
      by_cases hc : isLineEnd c = true
      · rw [if_pos hc, Option.bind_some, Option.map_eq_some_iff] at hread
        obtain ⟨after, -, rfl⟩ := hread
        exact ⟨read, rfl, by simp⟩
      · rw [if_neg hc, Option.bind_some, Option.map_eq_some_iff] at hread
        obtain ⟨after, hafter, rfl⟩ := hread
        rw [List.any_cons, Bool.eq_false_iff.mpr hc, Bool.false_or] at h
        obtain ⟨comment, hhead, hlength⟩ := ih h _ hafter
        refine ⟨comment, hhead, ?_⟩
        rw [List.length_append, List.length_singleton] at hlength
        rw [List.length_cons]
        omega

theorem endMarked_cons_iff (c d : Char) (t : Text) :
    EndMarked (c :: d :: t) ↔ (c = '*' ∧ d = '/') ∨ EndMarked (d :: t) := by
  unfold EndMarked
  rw [List.infix_cons_iff, List.cons_prefix_cons, List.cons_prefix_cons]
  simp [eq_comm]

theorem not_endMarked_singleton (c : Char) : ¬ EndMarked [c] := by
  intro h
  have hlength := h.length_le
  simp at hlength

theorem not_endMarked_of_cons {c : Char} {t : Text} (h : ¬ EndMarked (c :: t)) : ¬ EndMarked t :=
  fun ht => h (List.infix_cons_iff.mpr (.inr ht))

theorem endMarked_of_cons {c : Char} {t : Text} (hc : c ≠ '*') (h : EndMarked (c :: t)) :
    EndMarked t := by
  rcases List.infix_cons_iff.mp h with h | h
  · exact absurd (List.cons_prefix_cons.mp h).1.symm hc
  · exact h

/-- A text without an end mark stays in the comment, also behind a star. -/
theorem lexFrom_blockComment {t : Text} (rest : Text) :
    (∀ read, ¬ EndMarked t → lexFrom (.blockComment read) (t ++ '*' :: '/' :: rest) =
      (lexFrom .code rest).map ([.comment (read ++ t)] ++ ·)) ∧
    ∀ read, ¬ EndMarked ('*' :: t) → lexFrom (.star read) (t ++ '*' :: '/' :: rest) =
      (lexFrom .code rest).map ([.comment (read ++ '*' :: t)] ++ ·) := by
  induction t with
  | nil =>
      constructor
      · intro read _
        rw [List.nil_append, lexFrom_cons, Mode.step, if_pos rfl, Option.bind_some, lexFrom_cons,
          Mode.step, if_pos rfl, Option.bind_some, List.append_nil, Option.map_map]
        rfl
      · intro read _
        rw [List.nil_append, lexFrom_cons, Mode.step, if_neg (by decide), if_pos rfl,
          Option.bind_some, lexFrom_cons, Mode.step, if_pos rfl, Option.bind_some, Option.map_map]
        rfl
  | cons c t ih =>
      constructor
      · intro read h
        rw [List.cons_append, lexFrom_cons, Mode.step]
        by_cases hc : c = '*'
        · subst hc
          rw [if_pos rfl, Option.bind_some, ih.2 read h, Option.map_map]
          rfl
        · rw [if_neg hc, Option.bind_some, ih.1 _ (not_endMarked_of_cons h), Option.map_map,
            List.append_assoc]
          rfl
      · intro read h
        rw [endMarked_cons_iff, not_or, not_and] at h
        rw [List.cons_append, lexFrom_cons, Mode.step, if_neg (h.1 rfl)]
        by_cases hc : c = '*'
        · subst hc
          rw [if_pos rfl, Option.bind_some, ih.2 _ h.2, Option.map_map, List.append_assoc]
          rfl
        · rw [if_neg hc, Option.bind_some, ih.1 _ (not_endMarked_of_cons h.2), Option.map_map,
            List.append_assoc]
          rfl

/-- A text with an end mark leaves only a part of it in the comment. -/
theorem lexFrom_blockComment_short {t : Text} (rest : Text) :
    (∀ read elements, EndMarked t →
      lexFrom (.blockComment read) (t ++ rest) = some elements →
        ∃ comment, elements.head? = some (.comment comment) ∧
          comment.length < read.length + t.length) ∧
    ∀ read elements, EndMarked ('*' :: t) →
      lexFrom (.star read) (t ++ rest) = some elements →
        ∃ comment, elements.head? = some (.comment comment) ∧
          comment.length < read.length + 1 + t.length := by
  induction t with
  | nil =>
      constructor
      · intro read elements h
        exact absurd h.length_le (by decide)
      · intro read elements h
        exact absurd h (not_endMarked_singleton '*')
  | cons c t ih =>
      constructor
      · intro read elements h hread
        rw [List.cons_append, lexFrom_cons, Mode.step] at hread
        by_cases hc : c = '*'
        · subst hc
          rw [if_pos rfl, Option.bind_some, Option.map_eq_some_iff] at hread
          obtain ⟨after, hafter, rfl⟩ := hread
          obtain ⟨comment, hhead, hlength⟩ := ih.2 read after h hafter
          exact ⟨comment, hhead, by rw [List.length_cons]; omega⟩
        · rw [if_neg hc, Option.bind_some, Option.map_eq_some_iff] at hread
          obtain ⟨after, hafter, rfl⟩ := hread
          obtain ⟨comment, hhead, hlength⟩ := ih.1 _ after (endMarked_of_cons hc h) hafter
          rw [List.length_append, List.length_singleton] at hlength
          exact ⟨comment, hhead, by rw [List.length_cons]; omega⟩
      · intro read elements h hread
        rw [List.cons_append, lexFrom_cons, Mode.step] at hread
        by_cases hslash : c = '/'
        · rw [if_pos hslash, Option.bind_some, Option.map_eq_some_iff] at hread
          obtain ⟨after, -, rfl⟩ := hread
          exact ⟨read, rfl, by rw [List.length_cons]; omega⟩
        · rw [endMarked_cons_iff] at h
          have hrest : EndMarked (c :: t) := h.resolve_left fun hboth => hslash hboth.2
          rw [if_neg hslash] at hread
          by_cases hc : c = '*'
          · subst hc
            rw [if_pos rfl, Option.bind_some, Option.map_eq_some_iff] at hread
            obtain ⟨after, hafter, rfl⟩ := hread
            obtain ⟨comment, hhead, hlength⟩ := ih.2 _ after hrest hafter
            rw [List.length_append, List.length_singleton] at hlength
            exact ⟨comment, hhead, by rw [List.length_cons]; omega⟩
          · rw [if_neg hc, Option.bind_some, Option.map_eq_some_iff] at hread
            obtain ⟨after, hafter, rfl⟩ := hread
            obtain ⟨comment, hhead, hlength⟩ := ih.1 _ after (endMarked_of_cons hc hrest) hafter
            rw [List.length_append, List.length_cons, List.length_singleton] at hlength
            exact ⟨comment, hhead, by rw [List.length_cons]; omega⟩

/-! A file as a sequence of code and comments. -/

inductive Chunk
  | code (s : Text)
  | lineComment (t : Text)
  | blockComment (t : Text)

def Chunk.text : Chunk → Text
  | .code s => s
  | .lineComment t => '/' :: '/' :: t ++ ['\n']
  | .blockComment t => '/' :: '*' :: t ++ ['*', '/']

/-- What a chunk is in the file: the elements of the code, or one comment. -/
def Chunk.elements : Chunk → List Element
  | .code s => (lex s).getD []
  | .lineComment t => [.comment ((translateEscapes t).getD []), .symbol '\n']
  | .blockComment t => [.comment ((translateEscapes t).getD [])]

def Chunk.Safe : Chunk → Prop
  | .code s => ∃ s' elements, Lexes s s' elements
  | .lineComment t => LineSafe t
  | .blockComment t => BlockSafe t

theorem some_append_iff {α : Type} (x : Option (List α)) (ys zs : List α) :
    x.map (ys ++ ·) = some (ys ++ zs) ↔ x = some zs := by
  cases x with
  | none => simp
  | some xs => simp

theorem not_mem_slashes {c : Char} (h : c ≠ '\\') : '\\' ∉ ['/', c] := by
  simp [h.symm]

theorem translate_comment (c : Char) (hc : c ≠ '\\') (t : Text) {behind : Text}
    (hfresh : Fresh behind) :
    translateEscapes ('/' :: c :: t ++ behind) =
      (translateEscapes t).bind fun t' => (translateEscapes behind).map fun b => '/' :: c :: (t' ++ b) := by
  have hplain := translate_plain (not_mem_slashes hc) (t ++ behind)
  rw [translate_append t hfresh, Option.map_bind] at hplain
  refine hplain.trans (congrArg _ (funext fun t' => ?_))
  rw [Function.comp_apply, Option.map_map]
  rfl

/-- A line comment is read as one comment exactly when its text is safe. -/
theorem lex_lineComment_iff (t rest : Text) (es : List Element) :
    lex ((Chunk.lineComment t).text ++ rest) = some ((Chunk.lineComment t).elements ++ es) ↔
      LineSafe t ∧ lex rest = some es := by
  have hfresh : Fresh ('\n' :: rest) := fresh_cons (by decide) rest
  have hback : '\\' ∉ ['\n'] := by decide
  have htext : (Chunk.lineComment t).text ++ rest = '/' :: '/' :: t ++ '\n' :: rest := by
    simp [Chunk.text]
  rw [htext, lex, translate_comment '/' (by decide) t hfresh,
    show translateEscapes ('\n' :: rest) = _ from translate_plain hback rest, lex, Chunk.elements,
    LineSafe]
  cases htranslate : translateEscapes t with
  | none => simp
  | some t' =>
      cases translateEscapes rest with
      | none => simp
      | some r =>
          have hslashes : lexFrom .code ('/' :: '/' :: (t' ++ '\n' :: r)) =
              lexFrom (.lineComment []) (t' ++ '\n' :: r) := by
            simp [lexFrom_cons, Mode.step, codeStep, Function.comp_def]
          simp only [Option.bind_some, Option.map_some, Option.getD_some, List.singleton_append,
            hslashes, Option.some.injEq, exists_eq_left']
          cases hsafe : t'.any isLineEnd with
          | false =>
              rw [lexFrom_lineComment hsafe, List.nil_append, some_append_iff]
              simp
          | true =>
              refine iff_of_false (fun h => ?_) (by simp)
              obtain ⟨comment, hhead, hlength⟩ := lexFrom_lineComment_short hsafe [] _ h
              cases hhead
              simp at hlength

/-- A block comment is read as one comment exactly when its text is safe. -/
theorem lex_blockComment_iff (t rest : Text) (es : List Element) :
    lex ((Chunk.blockComment t).text ++ rest) = some ((Chunk.blockComment t).elements ++ es) ↔
      BlockSafe t ∧ lex rest = some es := by
  have hfresh : Fresh ('*' :: '/' :: rest) := fresh_cons (by decide) _
  have hback : '\\' ∉ ['*', '/'] := by decide
  have htext : (Chunk.blockComment t).text ++ rest = '/' :: '*' :: t ++ '*' :: '/' :: rest := by
    simp [Chunk.text]
  rw [htext, lex, translate_comment '*' (by decide) t hfresh,
    show translateEscapes ('*' :: '/' :: rest) = _ from translate_plain hback rest, lex, Chunk.elements,
    BlockSafe]
  cases htranslate : translateEscapes t with
  | none => simp
  | some t' =>
      cases translateEscapes rest with
      | none => simp
      | some r =>
          have hmark : lexFrom .code ('/' :: '*' :: (t' ++ '*' :: '/' :: r)) =
              lexFrom (.blockComment []) (t' ++ '*' :: '/' :: r) := by
            simp [lexFrom_cons, Mode.step, codeStep, Function.comp_def]
          simp only [Option.bind_some, Option.map_some, Option.getD_some, List.cons_append,
            List.nil_append, hmark, Option.some.injEq, exists_eq_left']
          by_cases hsafe : EndMarked t'
          · refine iff_of_false (fun h => ?_) (by simp [hsafe])
            obtain ⟨comment, hhead, hlength⟩ := (lexFrom_blockComment_short _).1 [] _ hsafe h
            cases hhead
            simp at hlength
          · rw [(lexFrom_blockComment r).1 [] hsafe, List.nil_append]
            exact (some_append_iff _ [.comment t'] es).trans (and_iff_right hsafe).symm

theorem lex_code_iff {s s' : Text} {elements : List Element} (h : Lexes s s' elements)
    (rest : Text) (es : List Element) :
    lex (s ++ rest) = some ((Chunk.code s).elements ++ es) ↔ lex rest = some es := by
  rw [Chunk.elements, h.lex, Option.getD_some, lex, h.translated, lex]
  cases translateEscapes rest with
  | none => simp
  | some r => rw [Option.map_some, Option.bind_some, Option.bind_some, h.read, some_append_iff]

/-- A file falls into its chunks exactly when the texts of its comments are safe. -/
theorem lex_chunks_iff {chunks : List Chunk}
    (hcode : ∀ s, .code s ∈ chunks → ∃ s' elements, Lexes s s' elements) :
    lex (chunks.flatMap Chunk.text) = some (chunks.flatMap Chunk.elements) ↔
      ∀ chunk ∈ chunks, chunk.Safe := by
  induction chunks with
  | nil => simp [lex, translateEscapes, translateFrom, lexFrom, Mode.finish]
  | cons chunk chunks ih =>
      have hrest := ih fun s hs => hcode s (List.mem_cons_of_mem chunk hs)
      rw [List.flatMap_cons, List.flatMap_cons, List.forall_mem_cons, ← hrest]
      cases chunk with
      | code s =>
          obtain ⟨s', elements, hlexes⟩ := hcode s List.mem_cons_self
          rw [Chunk.text, lex_code_iff hlexes]
          exact (and_iff_right ⟨s', elements, hlexes⟩).symm
      | lineComment t => exact lex_lineComment_iff t _ _
      | blockComment t => exact lex_blockComment_iff t _ _

end C2c.Library.JavaSource
