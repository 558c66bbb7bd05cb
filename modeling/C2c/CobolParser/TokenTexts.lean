import C2c.CobolParser.Tokens

namespace C2c.CobolParser.TokenTexts

open C2c.Library.JavaText
open C2c.CobolParser.Tokens

/-- A run of characters without a blank, or one that begins a quotation or a
parenthesis. -/
def IsPiece (piece : Text) : Prop :=
  piece ≠ [] ∧ (startsWith piece ['"'] = true ∨ startsWith piece ['('] = true ∨
    ∀ c ∈ piece, isWhitespace c = false)

/-- The text consists of the pieces, in order, and of blanks between them. -/
inductive Pieces : List Text → Text → Prop
  | blanks {gap : Text} (hgap : ∀ c ∈ gap, isWhitespace c = true) : Pieces [] gap
  | piece {gap piece rest : Text} {pieces : List Text}
      (hgap : ∀ c ∈ gap, isWhitespace c = true) (hpiece : IsPiece piece)
      (hrest : Pieces pieces rest) : Pieces (piece :: pieces) (gap ++ piece ++ rest)

/-- The tokens are the pieces, up to a blank put between a name and the
parenthesis behind it. -/
inductive Groups : List Text → List Text → Prop
  | nil : Groups [] []
  | piece {piece : Text} {tokens pieces : List Text} (h : Groups tokens pieces) :
      Groups (piece :: tokens) (piece :: pieces)
  | subscripted {name parens : Text} {tokens pieces : List Text} (hname : isName name = true)
      (hparens : startsWith parens ['('] = true) (h : Groups tokens pieces) :
      Groups ((name ++ ' ' :: parens) :: tokens) (name :: parens :: pieces)

def nonBlanks (t : Text) : Text :=
  t.filter fun c => !isWhitespace c

/-- What the tokens of a text keep of it: every character that is no blank,
once and in order, and themselves when they are joined and split again. -/
structure Kept (value : Text) : Prop where
  spelled : ∃ pieces, Pieces pieces value ∧ Groups (splitArguments value) pieces
  characters : nonBlanks (splitArguments value).flatten = nonBlanks value
  stable : splitArguments (joinTokens (splitArguments value)) = splitArguments value

/-- The token that starts with `c`, and what is behind it. -/
def nextToken (c : Char) (rest : Text) : Text × Text :=
  if c == '"' then (c :: (takeQuoted rest).1, (takeQuoted rest).2)
  else if c == '(' then (c :: (takeParens 1 rest).1, (takeParens 1 rest).2)
  else (c :: rest.takeWhile isPlain, rest.dropWhile isPlain)

theorem takeQuoted_append (t : Text) : (takeQuoted t).1 ++ (takeQuoted t).2 = t := by
  induction t with
  | nil => rfl
  | cons c t ih =>
      unfold takeQuoted
      split_ifs
      · rfl
      · exact congrArg (c :: ·) ih

theorem takeParens_append (depth : Nat) (t : Text) :
    (takeParens depth t).1 ++ (takeParens depth t).2 = t := by
  induction t generalizing depth with
  | nil => cases depth <;> rfl
  | cons c t ih =>
      cases depth with
      | zero => rfl
      | succ depth =>
          unfold takeParens
          refine congrArg (c :: ·) ?_
          split_ifs
          · exact ih (depth + 2)
          · exact ih depth
          · exact ih (depth + 1)

theorem nextToken_append (c : Char) (rest : Text) :
    (nextToken c rest).1 ++ (nextToken c rest).2 = c :: rest := by
  unfold nextToken
  split_ifs
  · exact congrArg (c :: ·) (takeQuoted_append rest)
  · exact congrArg (c :: ·) (takeParens_append 1 rest)
  · exact congrArg (c :: ·) List.takeWhile_append_dropWhile

/-- A token begins with the character it was found at. -/
theorem nextToken_head (c : Char) (rest : Text) :
    (nextToken c rest).1 = c :: (nextToken c rest).1.tail := by
  unfold nextToken
  split_ifs <;> rfl

theorem length_nextToken (c : Char) (rest : Text) : (nextToken c rest).2.length ≤ rest.length := by
  have hlength := congrArg List.length (nextToken_append c rest)
  rw [nextToken_head, List.length_append, List.length_cons, List.length_cons] at hlength
  omega

theorem isPiece_nextToken {c : Char} (hc : isWhitespace c = false) (rest : Text) :
    IsPiece (nextToken c rest).1 := by
  refine ⟨by rw [nextToken_head]; exact List.cons_ne_nil _ _, ?_⟩
  unfold nextToken
  split_ifs with hquote hparen
  · obtain rfl := eq_of_beq hquote
    exact .inl (by simp [startsWith])
  · obtain rfl := eq_of_beq hparen
    exact .inr (.inl (by simp [startsWith]))
  · refine .inr (.inr fun d hd => ?_)
    rcases List.mem_cons.mp hd with rfl | hd
    · exact hc
    · have hplain := List.mem_takeWhile_imp hd
      simp only [isPlain, Bool.and_eq_true, Bool.not_eq_true'] at hplain
      exact hplain.1

/-- A quotation reads the same before another text when it is closed. -/
theorem takeQuoted_again (t : Text) {behind : Text} (h : (takeQuoted t).2 ≠ [] ∨ behind = []) :
    takeQuoted ((takeQuoted t).1 ++ behind) = ((takeQuoted t).1, behind) := by
  induction t with
  | nil =>
      obtain h | rfl := h
      · exact absurd rfl h
      · rfl
  | cons c t ih =>
      by_cases hc : (c == '"') = true
      · simp [takeQuoted, hc]
      · simp only [takeQuoted, hc, Bool.false_eq_true, if_false] at h ⊢
        simp [takeQuoted, hc, ih h]

theorem takeParens_again (depth : Nat) (t : Text) {behind : Text}
    (h : (takeParens depth t).2 ≠ [] ∨ behind = []) :
    takeParens depth ((takeParens depth t).1 ++ behind) = ((takeParens depth t).1, behind) := by
  induction t generalizing depth with
  | nil =>
      cases depth with
      | zero => simp [takeParens]
      | succ depth =>
          obtain h | rfl := h
          · exact absurd rfl h
          · rfl
  | cons c t ih =>
      cases depth with
      | zero => simp [takeParens]
      | succ depth =>
          by_cases hopen : (c == '(') = true
          · simp only [takeParens, hopen, if_true] at h ⊢
            simp [takeParens, hopen, ih _ h]
          · by_cases hclose : (c == ')') = true
            · simp only [takeParens, hopen, hclose, Bool.false_eq_true, if_true, if_false] at h ⊢
              simp [takeParens, hopen, hclose, ih _ h]
            · simp only [takeParens, hopen, hclose, Bool.false_eq_true, if_false] at h ⊢
              simp [takeParens, hopen, hclose, ih _ h]

theorem takePlain_again (t : Text) {behind : Text}
    (hbehind : behind = [] ∨ ∃ t, behind = ' ' :: t) :
    (t.takeWhile isPlain ++ behind).takeWhile isPlain = t.takeWhile isPlain ∧
      (t.takeWhile isPlain ++ behind).dropWhile isPlain = behind := by
  have hplain : ∀ c ∈ t.takeWhile isPlain, isPlain c = true := fun c hc =>
    List.mem_takeWhile_imp hc
  have hblank : isPlain ' ' = false := by decide
  rw [List.takeWhile_append_of_pos hplain, List.dropWhile_append_of_pos hplain]
  obtain rfl | ⟨t, rfl⟩ := hbehind
  · simp
  · simp [hblank]

/-- A token reads the same in front of a blank, and at the end if it was the
last one of the text. -/
theorem nextToken_again (c : Char) (rest : Text) {behind : Text}
    (h : (nextToken c rest).2 ≠ [] ∨ behind = [])
    (hbehind : behind = [] ∨ ∃ t, behind = ' ' :: t) :
    nextToken c ((nextToken c rest).1.tail ++ behind) = ((nextToken c rest).1, behind) := by
  unfold nextToken at h ⊢
  split_ifs at h ⊢ with hquote hparen
  · rw [List.tail_cons, takeQuoted_again rest h]
  · rw [List.tail_cons, takeParens_again 1 rest h]
  · obtain ⟨htake, hdrop⟩ := takePlain_again rest hbehind
    rw [List.tail_cons, htake, hdrop]

/-- The tokens of a text before names are joined with what is behind them. -/
def scan (t : Text) : List Text :=
  rawTokensFrom t.length t

theorem rawTokensFrom_succ (fuel : Nat) (t : Text) :
    rawTokensFrom (fuel + 1) t =
      match t.dropWhile isWhitespace with
      | [] => []
      | c :: rest => (nextToken c rest).1 :: rawTokensFrom fuel (nextToken c rest).2 := by
  rw [rawTokensFrom]
  cases t.dropWhile isWhitespace with
  | nil => rfl
  | cons c rest =>
      simp only [nextToken]
      split_ifs <;> rfl

theorem rawTokensFrom_fuel (n m : Nat) (t : Text) (hn : t.length ≤ n) (hm : t.length ≤ m) :
    rawTokensFrom n t = rawTokensFrom m t := by
  induction n generalizing m t with
  | zero =>
      obtain rfl : t = [] := by simpa using hn
      cases m with
      | zero => rfl
      | succ m => rfl
  | succ n ih =>
      cases m with
      | zero =>
          obtain rfl : t = [] := by simpa using hm
          rfl
      | succ m =>
          rw [rawTokensFrom_succ, rawTokensFrom_succ]
          have hdropped := List.length_dropWhile_le isWhitespace t
          cases hskip : t.dropWhile isWhitespace with
          | nil => rfl
          | cons c rest =>
              have hrest := length_nextToken c rest
              rw [hskip, List.length_cons] at hdropped
              exact congrArg ((nextToken c rest).1 :: ·) (ih m _ (by omega) (by omega))

theorem scan_of_blank {t : Text} (h : t.dropWhile isWhitespace = []) : scan t = [] := by
  unfold scan
  cases hlength : t.length with
  | zero => rfl
  | succ n => rw [rawTokensFrom_succ, h]

theorem scan_of_token {t : Text} {c : Char} {rest : Text}
    (h : t.dropWhile isWhitespace = c :: rest) :
    scan t = (nextToken c rest).1 :: scan (nextToken c rest).2 := by
  have hdropped := List.length_dropWhile_le isWhitespace t
  have hrest := length_nextToken c rest
  rw [h, List.length_cons] at hdropped
  obtain ⟨n, hlength⟩ : ∃ n, t.length = n + 1 := ⟨t.length - 1, by omega⟩
  rw [scan, hlength, rawTokensFrom_succ, h]
  exact congrArg ((nextToken c rest).1 :: ·) (rawTokensFrom_fuel _ _ _ (by omega) le_rfl)

theorem rawTokens_eq_scan (value : Text) : rawTokens value = scan value := by
  unfold rawTokens
  split_ifs with hblank
  · exact (scan_of_blank (List.dropWhile_eq_nil_iff.mpr (List.all_eq_true.mp hblank))).symm
  · rfl

/-- Every property of a text that its blank ends have and that a token hands
on from what is behind it. -/
theorem scan_induction {motive : Text → Prop}
    (blank : ∀ t, t.dropWhile isWhitespace = [] → motive t)
    (token : ∀ t c rest, t.dropWhile isWhitespace = c :: rest →
      motive (nextToken c rest).2 → motive t) (t : Text) : motive t := by
  induction hn : t.length using Nat.strong_induction_on generalizing t with
  | _ n ih =>
      cases hskip : t.dropWhile isWhitespace with
      | nil => exact blank t hskip
      | cons c rest =>
          have hdropped := List.length_dropWhile_le isWhitespace t
          have hrest := length_nextToken c rest
          rw [hskip, List.length_cons] at hdropped
          exact token t c rest hskip (ih _ (by omega) _ rfl)

theorem isWhitespace_head {t : Text} {c : Char} {rest : Text}
    (h : t.dropWhile isWhitespace = c :: rest) : isWhitespace c = false := by
  have hhead := List.head?_dropWhile_not isWhitespace t
  simpa [h] using hhead

theorem pieces_scan (t : Text) : Pieces (scan t) t := by
  induction t using scan_induction with
  | blank t hskip =>
      rw [scan_of_blank hskip]
      exact .blanks (List.dropWhile_eq_nil_iff.mp hskip)
  | token t c rest hskip ih =>
      have htext : t = t.takeWhile isWhitespace ++ (nextToken c rest).1 ++
          (nextToken c rest).2 := by
        rw [List.append_assoc, nextToken_append, ← hskip, List.takeWhile_append_dropWhile]
      have hgap : ∀ d ∈ t.takeWhile isWhitespace, isWhitespace d = true := fun d hd =>
        List.mem_takeWhile_imp hd
      have hpieces := Pieces.piece hgap (isPiece_nextToken (isWhitespace_head hskip) rest) ih
      rw [scan_of_token hskip]
      exact htext ▸ hpieces

theorem joinTokens_cons (token : Text) (tokens : List Text) :
    joinTokens (token :: tokens) =
      token ++ if tokens = [] then [] else ' ' :: joinTokens tokens := by
  cases tokens with
  | nil => simp [joinTokens, joinWith]
  | cons next tokens => simp [joinTokens, joinWith]

theorem scan_of_cons_blank (t : Text) : scan (' ' :: t) = scan t := by
  have hskip : (' ' :: t).dropWhile isWhitespace = t.dropWhile isWhitespace := by
    simp [show isWhitespace ' ' = true from by decide]
  cases ht : t.dropWhile isWhitespace with
  | nil => rw [scan_of_blank ht, scan_of_blank (hskip.trans ht)]
  | cons c rest => rw [scan_of_token ht, scan_of_token (hskip.trans ht)]

/-- Joined by blanks, the tokens are read again as they are. -/
theorem scan_joinTokens (t : Text) : scan (joinTokens (scan t)) = scan t := by
  induction t using scan_induction with
  | blank t hskip => rw [scan_of_blank hskip]; rfl
  | token t c rest hskip ih =>
      rw [scan_of_token hskip, joinTokens_cons]
      generalize hbehind : (if scan (nextToken c rest).2 = [] then []
        else ' ' :: joinTokens (scan (nextToken c rest).2)) = behind
      have hscan : scan behind = scan (nextToken c rest).2 := by
        rw [← hbehind]
        split_ifs with hend
        · rw [hend]; rfl
        · rw [scan_of_cons_blank, ih]
      have hopen : (nextToken c rest).2 ≠ [] ∨ behind = [] := by
        refine or_iff_not_imp_left.mpr fun hend => ?_
        rw [not_not] at hend
        rw [← hbehind, hend]
        exact if_pos rfl
      have hblank : behind = [] ∨ ∃ t, behind = ' ' :: t := by
        rw [← hbehind]
        split_ifs
        · exact .inl rfl
        · exact .inr ⟨_, rfl⟩
      have hfirst : ((nextToken c rest).1 ++ behind).dropWhile isWhitespace =
          c :: ((nextToken c rest).1.tail ++ behind) := by
        rw [nextToken_head, List.cons_append, List.dropWhile_cons, isWhitespace_head hskip]
        rfl
      rw [scan_of_token hfirst, nextToken_again c rest hopen hblank, hscan]

theorem groups_joinSubscripts (pieces : List Text) : Groups (joinSubscripts pieces) pieces := by
  induction pieces using joinSubscripts.induct with
  | case1 name parens rest hname ih =>
      rw [joinSubscripts, if_pos hname]
      simp only [Bool.and_eq_true] at hname
      exact .subscripted hname.1.1 hname.1.2 ih
  | case2 token next rest hname ih =>
      rw [joinSubscripts, if_neg hname]
      exact .piece ih
  | case3 pieces hshort =>
      cases pieces with
      | nil => exact .nil
      | cons piece pieces =>
          cases pieces with
          | nil => exact .piece .nil
          | cons next pieces => exact absurd rfl (hshort piece next pieces)

theorem Groups.eq_nil_iff {tokens pieces : List Text} (h : Groups tokens pieces) :
    tokens = [] ↔ pieces = [] := by
  cases h <;> simp

/-- Groups of pieces and the pieces themselves are joined alike. -/
theorem Groups.joinTokens_eq {tokens pieces : List Text} (h : Groups tokens pieces) :
    joinTokens tokens = joinTokens pieces := by
  induction h with
  | nil => rfl
  | piece h ih =>
      rw [joinTokens_cons, joinTokens_cons, ih]
      simp only [h.eq_nil_iff]
  | subscripted hname hparens h ih =>
      rw [joinTokens_cons, joinTokens_cons, if_neg (List.cons_ne_nil _ _), joinTokens_cons, ih]
      simp only [h.eq_nil_iff, List.append_assoc, List.cons_append]

theorem nonBlanks_append (s t : Text) : nonBlanks (s ++ t) = nonBlanks s ++ nonBlanks t :=
  List.filter_append s t

theorem nonBlanks_of_blank {gap : Text} (h : ∀ c ∈ gap, isWhitespace c = true) :
    nonBlanks gap = [] := by
  rw [nonBlanks, List.filter_eq_nil_iff]
  exact fun c hc => by simp [h c hc]

theorem Groups.nonBlanks_eq {tokens pieces : List Text} (h : Groups tokens pieces) :
    nonBlanks tokens.flatten = nonBlanks pieces.flatten := by
  induction h with
  | nil => rfl
  | piece h ih => rw [List.flatten_cons, List.flatten_cons, nonBlanks_append, nonBlanks_append, ih]
  | @subscripted name parens tokens pieces hname hparens h ih =>
      have hblank : nonBlanks (' ' :: parens) = nonBlanks parens := by
        simp [nonBlanks, show isWhitespace ' ' = true from by decide]
      simp only [List.flatten_cons, nonBlanks_append, hblank, ih, List.append_assoc]

theorem Pieces.nonBlanks_eq {pieces : List Text} {t : Text} (h : Pieces pieces t) :
    nonBlanks pieces.flatten = nonBlanks t := by
  induction h with
  | blanks hgap => exact (nonBlanks_of_blank hgap).symm
  | piece hgap hpiece hrest ih =>
      rw [List.flatten_cons, nonBlanks_append, nonBlanks_append, nonBlanks_append, ih,
        nonBlanks_of_blank hgap, List.nil_append]

theorem splitArguments_joinTokens (value : Text) :
    splitArguments (joinTokens (splitArguments value)) = splitArguments value := by
  unfold splitArguments
  rw [(groups_joinSubscripts _).joinTokens_eq, rawTokens_eq_scan, rawTokens_eq_scan,
    scan_joinTokens]

theorem kept (value : Text) : Kept value where
  spelled := by
    refine ⟨scan value, pieces_scan value, ?_⟩
    rw [splitArguments, rawTokens_eq_scan]
    exact groups_joinSubscripts _
  characters := by
    rw [splitArguments, rawTokens_eq_scan, (groups_joinSubscripts _).nonBlanks_eq,
      (pieces_scan value).nonBlanks_eq]
  stable := splitArguments_joinTokens value

theorem scan_tail (value : Text) : ∃ rest, (scan value).tail = scan rest := by
  cases hskip : value.dropWhile isWhitespace with
  | nil => exact ⟨[], by rw [scan_of_blank hskip]; rfl⟩
  | cons c rest => exact ⟨(nextToken c rest).2, by rw [scan_of_token hskip]; rfl⟩

/-- The tokens behind the first one are the tokens of a text of their own. -/
theorem splitArguments_tail (value : Text) :
    ∃ rest, (splitArguments value).tail = splitArguments rest := by
  simp only [splitArguments, rawTokens_eq_scan]
  obtain ⟨behind, hbehind⟩ := scan_tail value
  cases hscan : scan value with
  | nil => exact ⟨[], rfl⟩
  | cons token tokens =>
      rw [hscan, List.tail_cons] at hbehind
      cases tokens with
      | nil => exact ⟨[], rfl⟩
      | cons next tokens =>
          rw [joinSubscripts]
          split_ifs
          · obtain ⟨rest, hrest⟩ := scan_tail behind
            rw [← hbehind, List.tail_cons] at hrest
            exact ⟨rest, by rw [List.tail_cons, hrest]⟩
          · exact ⟨behind, by rw [List.tail_cons, hbehind]⟩

theorem splitArguments_drop (value : Text) (n : Nat) :
    ∃ rest, (splitArguments value).drop n = splitArguments rest := by
  induction n with
  | zero => exact ⟨value, rfl⟩
  | succ n ih =>
      obtain ⟨rest, hrest⟩ := ih
      obtain ⟨behind, hbehind⟩ := splitArguments_tail rest
      exact ⟨behind, by rw [← List.tail_drop, hrest, hbehind]⟩

/-- The text put together of the tokens from one on has these tokens. -/
theorem splitArguments_joinTokens_drop (value : Text) (n : Nat) :
    splitArguments (joinTokens ((splitArguments value).drop n)) = (splitArguments value).drop n := by
  obtain ⟨rest, hrest⟩ := splitArguments_drop value n
  rw [hrest, splitArguments_joinTokens]

end C2c.CobolParser.TokenTexts
