import C2c.Library.GoJson
import C2c.Library.PythonText

/-!
The JSON values the two loaders of the trust-case catalog read and write.  A
document is read into `toAny` of its syntax tree: of members with one name the
last one counts, and neither loader looks at the order of members.
-/

namespace C2c.TrustCases.Documents

open C2c.Library.JavaText
open C2c.Library.JsonText
open C2c.Library.GoJson hiding member

def member (value : Json) (name : String) : Option Json :=
  match value with
  | .object members => (members.find? fun m => m.1 == name.toList).map Prod.snd
  | _ => none

def elements : Option Json → Option (List Json)
  | some (.array items) => some items
  | _ => none

/-- The strings of an array, if it has nothing else and all of them pass. -/
def texts (accepts : Text → Bool) : List Json → Option (List Text)
  | [] => some []
  | .string t :: items => if accepts t then (texts accepts items).map (t :: ·) else none
  | _ :: _ => none

/-- The entries of an object of strings, if all of them pass. -/
def textMembers (acceptsName acceptsValue : Text → Bool) :
    List (Text × Json) → Option (List (Text × Text))
  | [] => some []
  | (name, .string t) :: members =>
      if acceptsName name && acceptsValue t then
        (textMembers acceptsName acceptsValue members).map ((name, t) :: ·)
      else none
  | _ :: _ => none

def textItems (ts : List Text) : Json :=
  .array (ts.map .string)

def textEntries (entries : List (Text × Text)) : Json :=
  .object (entries.map fun entry => (entry.1, .string entry.2))

/-- A text or `null`. -/
def textOrNull : Option Text → Json
  | some t => .string t
  | none => .null

/-- A character class with bounds on the number of characters. -/
def spans (least most : Nat) (p : Char → Bool) (t : Text) : Bool :=
  least ≤ t.length && t.length ≤ most && t.all p

def isUpperOrDigit (c : Char) : Bool :=
  isUpperAscii c || isDigitAscii c

def isAlphanumeric (c : Char) : Bool :=
  isUpperOrDigit c || ('a' ≤ c && c ≤ 'z')

/-- A character class behind a capital letter. -/
def capitalThen (least most : Nat) (p : Char → Bool) : Text → Bool
  | c :: t => isUpperAscii c && spans least most p t
  | [] => false

/-- `s` is a text that two ways of trimming leave of one string. -/
def isGraphic (c : Char) : Bool :=
  33 ≤ c.toNat && c.toNat ≤ 126

theorem texts_spec {accepts : Text → Bool} {items : List Json} {ts : List Text}
    (h : texts accepts items = some ts) : items = ts.map .string := by
  induction items generalizing ts with
  | nil => obtain rfl := Option.some.inj h; rfl
  | cons item items ih =>
      cases item with
      | string t =>
          rw [texts] at h
          split_ifs at h
          obtain ⟨rest, hrest, rfl⟩ := Option.map_eq_some_iff.mp h
          rw [List.map_cons, ih hrest]
      | _ => cases h

theorem textMembers_spec {acceptsName acceptsValue : Text → Bool} {members : List (Text × Json)}
    {entries : List (Text × Text)} (h : textMembers acceptsName acceptsValue members = some entries) :
    members = entries.map (fun entry => (entry.1, .string entry.2)) ∧
      ∀ entry ∈ entries, acceptsName entry.1 = true := by
  induction members generalizing entries with
  | nil => obtain rfl := Option.some.inj h; simp
  | cons m members ih =>
      obtain ⟨name, value⟩ := m
      cases value with
      | string t =>
          rw [textMembers] at h
          split_ifs at h with haccepts
          obtain ⟨rest, hrest, rfl⟩ := Option.map_eq_some_iff.mp h
          obtain ⟨rfl, hnames⟩ := ih hrest
          rw [Bool.and_eq_true] at haccepts
          exact ⟨rfl, List.forall_mem_cons.mpr ⟨haccepts.1, hnames⟩⟩
      | _ => cases h

theorem string_injective : Function.Injective Json.string := fun _ _ h => Json.string.inj h

theorem textItems_injective : Function.Injective textItems := fun _ _ h =>
  List.map_injective_iff.mpr string_injective (Json.array.inj h)

theorem textEntries_injective : Function.Injective textEntries := by
  intro xs ys h
  refine List.map_injective_iff.mpr ?_ (Json.object.inj h)
  rintro ⟨k, s⟩ ⟨l, t⟩ heq
  obtain ⟨rfl, hvalue⟩ := Prod.mk.inj heq
  exact Prod.ext rfl (string_injective hvalue)

theorem filter_dropWhile {p q : Char → Bool} (h : ∀ c, p c = true → q c = false) (t : Text) :
    (t.dropWhile p).filter q = t.filter q := by
  induction t with
  | nil => rfl
  | cons c t ih =>
      rw [List.dropWhile_cons]
      split_ifs with hc
      · rw [ih, List.filter_cons_of_neg (by simp [h c hc])]
      · rfl

theorem filter_rdropWhile {p q : Char → Bool} (h : ∀ c, p c = true → q c = false) (t : Text) :
    (t.rdropWhile p).filter q = t.filter q := by
  rw [List.rdropWhile, List.filter_reverse, filter_dropWhile h, List.filter_reverse,
    List.reverse_reverse]

/-- A trimmed text of graphic characters is made of the string's graphic characters. -/
theorem filter_trimmed {p : Char → Bool} (h : ∀ c, p c = true → isGraphic c = false) {t : Text}
    (hgraphic : ((t.dropWhile p).rdropWhile p).all isGraphic = true) :
    (t.dropWhile p).rdropWhile p = t.filter isGraphic := by
  rw [← filter_dropWhile h t, ← filter_rdropWhile h]
  exact (List.filter_eq_self.mpr (List.all_eq_true.mp hgraphic)).symm

theorem graphic_of_spans {least most : Nat} {p : Char → Bool}
    (h : ∀ c, p c = true → isGraphic c = true) {t : Text} (ht : spans least most p t = true) :
    t.all isGraphic = true := by
  rw [spans, Bool.and_eq_true] at ht
  exact List.all_eq_true.mpr fun c hc => h c (List.all_eq_true.mp ht.2 c hc)

theorem isGraphic_of_upperOrDigit {c : Char} (h : isUpperOrDigit c = true) :
    isGraphic c = true := by
  simp only [isUpperOrDigit, isUpperAscii, isDigitAscii, Bool.or_eq_true, Bool.and_eq_true,
    decide_eq_true_eq, Char.le_def, UInt32.le_iff_toNat_le] at h
  simp only [isGraphic, Bool.and_eq_true, decide_eq_true_eq]
  have hA : 'A'.val.toNat = 65 := rfl
  have hZ : 'Z'.val.toNat = 90 := rfl
  have h0 : '0'.val.toNat = 48 := rfl
  have h9 : '9'.val.toNat = 57 := rfl
  have hc : c.val.toNat = c.toNat := rfl
  omega

theorem isGraphic_of_alphanumeric {c : Char} (h : isAlphanumeric c = true) :
    isGraphic c = true := by
  rw [isAlphanumeric, Bool.or_eq_true] at h
  rcases h with h | h
  · exact isGraphic_of_upperOrDigit h
  · simp only [Bool.and_eq_true, decide_eq_true_eq, Char.le_def, UInt32.le_iff_toNat_le] at h
    simp only [isGraphic, Bool.and_eq_true, decide_eq_true_eq]
    have ha : 'a'.val.toNat = 97 := rfl
    have hz : 'z'.val.toNat = 122 := rfl
    have hc : c.val.toNat = c.toNat := rfl
    omega

theorem graphic_of_capitalThen {least most : Nat} {p : Char → Bool}
    (h : ∀ c, p c = true → isGraphic c = true) {t : Text}
    (ht : capitalThen least most p t = true) : t.all isGraphic = true := by
  cases t with
  | nil => cases ht
  | cons c t =>
      rw [capitalThen, Bool.and_eq_true] at ht
      rw [List.all_cons, Bool.and_eq_true]
      exact ⟨isGraphic_of_upperOrDigit (by rw [isUpperOrDigit, ht.1, Bool.true_or]),
        graphic_of_spans h ht.2⟩

/-- Entries in the order of their names are known by what each name stands for. -/
theorem sorted_ext {xs ys : List (Text × Json)} (hxs : Sorted xs) (hys : Sorted ys)
    (h : ∀ name, xs.find? (fun m => m.1 == name) = ys.find? fun m => m.1 == name) : xs = ys := by
  induction xs generalizing ys with
  | nil =>
      cases ys with
      | nil => rfl
      | cons y ys =>
          have hy := h y.1
          simp at hy
  | cons x xs ih =>
      cases ys with
      | nil =>
          have hx := h x.1
          simp at hx
      | cons y ys =>
          obtain ⟨hxfirst, hxrest⟩ := List.pairwise_cons.mp hxs
          obtain ⟨hyfirst, hyrest⟩ := List.pairwise_cons.mp hys
          have habsent {z : Text × Json} {zs : List (Text × Json)} {name : Text}
              (hfirst : ∀ later ∈ zs.map Prod.fst, name < later) :
              zs.find? (fun m => m.1 == name) = none := by
            rw [List.find?_eq_none]
            intro m hm heq
            have hlt := hfirst _ (List.mem_map_of_mem hm)
            rw [eq_of_beq heq] at hlt
            exact lt_irrefl _ hlt
          -- the first names are the least ones, so they are the same
          have hname : x.1 = y.1 := by
            rcases lt_trichotomy x.1 y.1 with hlt | heq | hgt
            · have hx := h x.1
              rw [List.find?_cons_of_pos (by simp), List.find?_cons_of_neg (by simpa using hlt.ne'),
                @habsent y ys x.1 fun later hlater => lt_trans hlt (hyfirst later hlater)] at hx
              cases hx
            · exact heq
            · have hy := h y.1
              rw [List.find?_cons_of_neg (by simpa using hgt.ne'),
                @habsent x xs y.1 fun later hlater => lt_trans hgt (hxfirst later hlater),
                List.find?_cons_of_pos (by simp)] at hy
              cases hy
          have hentry : x = y := by
            have hx := h x.1
            rw [List.find?_cons_of_pos (by simp), List.find?_cons_of_pos (by simp [hname])] at hx
            exact Option.some.inj hx
          subst hentry
          refine congrArg (x :: ·) (ih hxrest hyrest fun name => ?_)
          by_cases heq : x.1 = name
          · rw [← heq, @habsent x xs x.1 hxfirst, @habsent x ys x.1 hyfirst]
          · have hboth := h name
            rwa [List.find?_cons_of_neg (by simpa using heq),
              List.find?_cons_of_neg (by simpa using heq)] at hboth

end C2c.TrustCases.Documents
