import C2c.Library.JavaText

namespace C2c.Library.TextPattern

open C2c.Library.JavaText

/-- Regular expressions whose repetitions range over character classes. -/
inductive Pattern
  | empty
  | set (p : Char → Bool)
  | repeated (least : Nat) (most : Option Nat) (p : Char → Bool)
  | boundary
  | seq (first second : Pattern)
  | alt (first second : Pattern)

/-- A place in a text: the character before it and what follows. -/
structure Place where
  before : Option Char
  rest : Text

def Place.next (place : Place) : Option (Char × Place) :=
  match place.rest with
  | c :: rest => some (c, ⟨some c, rest⟩)
  | [] => none

/-- `\w`. -/
def isWordCharacter (c : Char) : Bool :=
  c.isAlphanum || c == '_'

/-- A word boundary: exactly one side is a word character. -/
def Place.atBoundary (place : Place) : Bool :=
  (place.before.any isWordCharacter) != (place.rest.head?.any isWordCharacter)

/-- The places a run of characters of a class can end, shortest first. -/
def runEnds (p : Char → Bool) (before : Option Char) : Text → List Place
  | [] => [⟨before, []⟩]
  | c :: rest =>
      ⟨before, c :: rest⟩ :: (if p c then runEnds p (some c) rest else [])

/-- The places a match that starts here can end. -/
def ends : Pattern → Place → List Place
  | .empty, place => [place]
  | .set p, place =>
      match place.next with
      | some (c, place) => if p c then [place] else []
      | none => []
  | .repeated least most p, place =>
      let all := runEnds p place.before place.rest
      (match most with
        | some most => all.take (most + 1)
        | none => all).drop least
  | .boundary, place => if place.atBoundary then [place] else []
  | .seq first second, place => (ends first place).flatMap (ends second)
  | .alt first second, place => ends first place ++ ends second place

/-- Whether a match starts at the head of a text or behind it. -/
def foundFrom (pattern : Pattern) (before : Option Char) : Text → Bool
  | [] => !(ends pattern ⟨before, []⟩).isEmpty
  | c :: rest =>
      !(ends pattern ⟨before, c :: rest⟩).isEmpty || foundFrom pattern (some c) rest

/-- `Regexp.MatchString` of an unanchored pattern. -/
def found (pattern : Pattern) (t : Text) : Bool :=
  foundFrom pattern none t

/-- The lower-case representative of a letter under simple case folding, for
the letters that fold to ASCII. -/
def fold (c : Char) : Char :=
  if c = '\u212A' then 'k' else if c = '\u017F' then 's' else c.toLower

/-- A literal; `folded` is the flag `(?i)`. -/
def literal (folded : Bool) (word : Text) : Pattern :=
  word.foldr
    (fun d pattern => .seq (.set fun c => if folded then fold c == fold d else c == d) pattern)
    .empty

def sequence (patterns : List Pattern) : Pattern :=
  patterns.foldr .seq .empty

def alternatives : List Pattern → Pattern
  | [] => .repeated 1 (some 0) fun _ => false
  | [pattern] => pattern
  | pattern :: patterns => .alt pattern (alternatives patterns)

example : found (sequence [.boundary, literal false "hf_".toList, .repeated 3 none Char.isAlphanum,
    .boundary]) "x hf_abcd".toList = true := by decide

/-- The texts a match of a pattern can read, boundaries and counts aside. -/
def Reads : Pattern → Text → Prop
  | .empty, t => t = []
  | .set p, t => ∃ c, t = [c] ∧ p c = true
  | .repeated _ _ p, t => ∀ c ∈ t, p c = true
  | .boundary, t => t = []
  | .seq first second, t => ∃ s s', t = s ++ s' ∧ Reads first s ∧ Reads second s'
  | .alt first second, t => Reads first t ∨ Reads second t

theorem reads_runEnds {p : Char → Bool} {before : Option Char} {t : Text} {place : Place}
    (h : place ∈ runEnds p before t) :
    ∃ s, t = s ++ place.rest ∧ ∀ c ∈ s, p c = true := by
  induction t generalizing before with
  | nil =>
      obtain rfl := List.mem_singleton.mp h
      exact ⟨[], rfl, by simp⟩
  | cons c t ih =>
      rcases List.mem_cons.mp h with rfl | htail
      · exact ⟨[], rfl, by simp⟩
      · split at htail
        · rename_i hc
          obtain ⟨s, rfl, hs⟩ := ih htail
          exact ⟨c :: s, rfl, List.forall_mem_cons.mpr ⟨hc, hs⟩⟩
        · exact absurd htail List.not_mem_nil

/-- A match reads what stands between its ends. -/
theorem reads_of_mem_ends {pattern : Pattern} {place place' : Place}
    (h : place' ∈ ends pattern place) :
    ∃ s, place.rest = s ++ place'.rest ∧ Reads pattern s := by
  induction pattern generalizing place place' with
  | empty =>
      obtain rfl := List.mem_singleton.mp h
      exact ⟨[], rfl, rfl⟩
  | set p =>
      obtain ⟨before, rest⟩ := place
      cases rest with
      | nil => exact absurd h List.not_mem_nil
      | cons c rest =>
          by_cases hc : p c = true
          · have h : place' ∈ if p c = true then [(⟨some c, rest⟩ : Place)] else [] := h
            rw [if_pos hc, List.mem_singleton] at h
            obtain rfl := h
            exact ⟨[c], rfl, c, rfl, hc⟩
          · have h : place' ∈ if p c = true then [(⟨some c, rest⟩ : Place)] else [] := h
            rw [if_neg hc] at h
            exact absurd h List.not_mem_nil
  | repeated least most p =>
      have hmem := List.mem_of_mem_drop h
      cases most with
      | none => exact reads_runEnds hmem
      | some most => exact reads_runEnds (List.mem_of_mem_take hmem)
  | boundary =>
      have h : place' ∈ if place.atBoundary = true then [place] else [] := h
      split at h
      · obtain rfl := List.mem_singleton.mp h
        exact ⟨[], rfl, rfl⟩
      · exact absurd h List.not_mem_nil
  | seq first second ihFirst ihSecond =>
      obtain ⟨middle, hfirst, hsecond⟩ := List.mem_flatMap.mp h
      obtain ⟨s, hs, hreads⟩ := ihFirst hfirst
      obtain ⟨s', hs', hreads'⟩ := ihSecond hsecond
      exact ⟨s ++ s', by rw [hs, hs', List.append_assoc], s, s', rfl, hreads, hreads'⟩
  | alt first second ihFirst ihSecond =>
      rcases List.mem_append.mp h with hfirst | hsecond
      · obtain ⟨s, hs, hreads⟩ := ihFirst hfirst
        exact ⟨s, hs, .inl hreads⟩
      · obtain ⟨s, hs, hreads⟩ := ihSecond hsecond
        exact ⟨s, hs, .inr hreads⟩

theorem infix_of_ends {pattern : Pattern} {before : Option Char} {t : Text}
    (h : (!(ends pattern ⟨before, t⟩).isEmpty) = true) : ∃ s, s <:+: t ∧ Reads pattern s := by
  cases hends : ends pattern ⟨before, t⟩ with
  | nil =>
      rw [hends] at h
      contradiction
  | cons place places =>
      obtain ⟨s, hs, hreads⟩ := reads_of_mem_ends (hends ▸ List.mem_cons_self)
      exact ⟨s, List.IsPrefix.isInfix ⟨place.rest, hs.symm⟩, hreads⟩

theorem infix_of_foundFrom {pattern : Pattern} {before : Option Char} {t : Text}
    (h : foundFrom pattern before t = true) : ∃ s, s <:+: t ∧ Reads pattern s := by
  induction t generalizing before with
  | nil => exact infix_of_ends h
  | cons c t ih =>
      rw [foundFrom, Bool.or_eq_true] at h
      rcases h with hends | htail
      · exact infix_of_ends hends
      · obtain ⟨s, hpart, hreads⟩ := ih htail
        exact ⟨s, hpart.trans (List.suffix_cons c t).isInfix, hreads⟩

/-- How a literal compares characters. -/
def literalForm (folded : Bool) (c : Char) : Char :=
  if folded then fold c else c

theorem reads_literal {folded : Bool} {word s : Text} (h : Reads (literal folded word) s) :
    s.map (literalForm folded) = word.map (literalForm folded) := by
  induction word generalizing s with
  | nil =>
      obtain rfl : s = [] := h
      rfl
  | cons d word ih =>
      obtain ⟨_, s', rfl, ⟨c, rfl, hc⟩, hword⟩ := h
      have hform : literalForm folded c = literalForm folded d := by
        cases folded with
        | false => exact beq_iff_eq.mp hc
        | true => exact beq_iff_eq.mp hc
      rw [List.map_append, ih hword, List.map_cons, List.map_cons, hform]
      rfl

theorem infix_of_reads_sequence {patterns : List Pattern} {pattern : Pattern} {t : Text}
    (h : Reads (sequence patterns) t) (hpattern : pattern ∈ patterns) :
    ∃ s, s <:+: t ∧ Reads pattern s := by
  induction patterns generalizing t with
  | nil => exact absurd hpattern List.not_mem_nil
  | cons first patterns ih =>
      obtain ⟨s, s', rfl, hfirst, hrest⟩ := h
      rcases List.mem_cons.mp hpattern with rfl | hlater
      · exact ⟨s, (List.prefix_append s s').isInfix, hfirst⟩
      · obtain ⟨r, hpart, hreads⟩ := ih hrest hlater
        exact ⟨r, hpart.trans (List.suffix_append s s').isInfix, hreads⟩

/-- Where a sequence is found, so are its literals. -/
theorem literal_infix_of_found {patterns : List Pattern} {folded : Bool} {word t : Text}
    (hfound : found (sequence patterns) t = true) (hword : literal folded word ∈ patterns) :
    word.map (literalForm folded) <:+: t.map (literalForm folded) := by
  obtain ⟨s, hpart, hreads⟩ := infix_of_foundFrom hfound
  obtain ⟨r, hpart', hreads'⟩ := infix_of_reads_sequence hreads hword
  rw [← reads_literal hreads']
  exact (hpart'.trans hpart).map _

end C2c.Library.TextPattern
