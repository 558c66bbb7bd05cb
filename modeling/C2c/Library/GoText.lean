import C2c.Library.JavaText
import C2c.Library.Sha256

/-!
The functions of Go's `strings` package.
-/

namespace C2c.Library.GoText

open C2c.Library.JavaText
open C2c.Library.Sha256

/-- `unicode.IsSpace`. -/
def isSpace (c : Char) : Bool :=
  let n := c.toNat
  (9 ≤ n && n ≤ 13) || n == 32 || n == 0x85 || n == 0xa0 || n == 0x1680 ||
    (0x2000 ≤ n && n ≤ 0x200a) || n == 0x2028 || n == 0x2029 || n == 0x202f || n == 0x205f ||
    n == 0x3000

/-- `strings.TrimSpace`. -/
def trimSpace (t : Text) : Text :=
  (t.dropWhile isSpace).rdropWhile isSpace

theorem trimSpace_cons_ne_nil {c : Char} (h : isSpace c = false) (t : Text) :
    trimSpace (c :: t) ≠ [] := by
  unfold trimSpace
  rw [List.dropWhile_cons_of_neg (by simp [h])]
  intro hnil
  have hall := List.rdropWhile_eq_nil_iff.mp hnil c List.mem_cons_self
  rw [h] at hall
  cases hall

/-- `strings.ToLower`, as far as its result is ASCII: the only other
characters with an ASCII letter as lower case are the Kelvin sign and the
dotted I. -/
def toLower (t : Text) : Text :=
  t.map fun c => if c.toNat = 0x212a then 'k' else if c.toNat = 0x130 then 'i' else c.toLower

/-- `len(t)`. -/
def byteLength (t : Text) : Nat :=
  (t.flatMap utf8Bytes).length

/-- The characters that lie within the first bytes of a text. -/
def takeBytes : Nat → Text → Text
  | _, [] => []
  | limit, c :: t =>
      if (utf8Bytes c).length ≤ limit then c :: takeBytes (limit - (utf8Bytes c).length) t else []

theorem byteLength_of_ascii {t : Text} (h : ∀ c ∈ t, c.toNat < 128) : byteLength t = t.length := by
  induction t with
  | nil => rfl
  | cons c t ih =>
      have hc : c.toNat < 0x80 := h c List.mem_cons_self
      have ih := ih fun d hd => h d (List.mem_cons_of_mem c hd)
      unfold byteLength at ih ⊢
      rw [List.flatMap_cons, List.length_append, ih, utf8Bytes, if_pos hc]
      exact Nat.add_comm 1 t.length

end C2c.Library.GoText
