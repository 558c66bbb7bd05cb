import C2c.Library.JavaText

namespace C2c.Library.Utf8

open C2c.Library.JavaText

abbrev Bytes := List UInt8

def replacement : Char := '\uFFFD'

def isContinuation (b : UInt8) : Bool :=
  0x80 ≤ b && b ≤ 0xBF

/-- The character of a code point; a surrogate stands for none. -/
def scalar (n : Nat) : Char :=
  if n.isValidChar then Char.ofNat n else replacement

/-- The low six bits, which are what a continuation byte carries. -/
def payload (b : UInt8) : Nat :=
  b.toNat % 64

/-- Whether `b2` cannot follow the first byte of a three-byte sequence. -/
def isMalformed3_2 (b1 b2 : UInt8) : Bool :=
  (b1 == 0xE0 && b2 < 0xA0) || !isContinuation b2

/-- Whether `b2` cannot follow the first byte of a four-byte sequence. -/
def isMalformed4_2 (b1 b2 : UInt8) : Bool :=
  (b1 == 0xF0 && b2 < 0x90) || (b1 == 0xF4 && 0x90 ≤ b2) || !isContinuation b2

/-- The character a two-byte sequence stands for, and how many of the bytes
after its first one it takes. -/
def decode2 (b1 : UInt8) : Bytes → Char × Nat
  | b2 :: _ =>
      if isContinuation b2 then (scalar (b1.toNat % 32 * 64 + payload b2), 1)
      else (replacement, 0)
  | [] => (replacement, 0)

def decode3 (b1 : UInt8) : Bytes → Char × Nat
  | b2 :: rest =>
      if isMalformed3_2 b1 b2 then (replacement, 0)
      else
        match rest with
        | b3 :: _ =>
            if isContinuation b3 then
              (scalar ((b1.toNat % 16 * 64 + payload b2) * 64 + payload b3), 2)
            else (replacement, 1)
        | [] => (replacement, 1)
  | [] => (replacement, 0)

def decode4 (b1 : UInt8) : Bytes → Char × Nat
  | b2 :: rest =>
      if 0xF4 < b1 || isMalformed4_2 b1 b2 then (replacement, 0)
      else
        match rest with
        | b3 :: rest =>
            if isContinuation b3 then
              match rest with
              | b4 :: _ =>
                  if isContinuation b4 then
                    (scalar (((b1.toNat % 8 * 64 + payload b2) * 64 + payload b3) * 64 +
                      payload b4), 3)
                  else (replacement, 2)
              | [] => (replacement, 2)
            else (replacement, 1)
        | [] => (replacement, 1)
  | [] => (replacement, 0)

/-- What the bytes from `b` on begin with, and how many bytes after `b` that
takes.  Of a malformed sequence only the well-formed beginning is taken. -/
def decodeHead (b : UInt8) (rest : Bytes) : Char × Nat :=
  if b < 0x80 then (Char.ofNat b.toNat, 0)
  else if 0xC2 ≤ b && b ≤ 0xDF then decode2 b rest
  else if 0xE0 ≤ b && b ≤ 0xEF then decode3 b rest
  else if 0xF0 ≤ b && b ≤ 0xF7 then decode4 b rest
  else (replacement, 0)

/-- Decode behind `skip` bytes that the last character has taken. -/
def decodeFrom : Nat → Bytes → Text
  | _, [] => []
  | skip + 1, _ :: rest => decodeFrom skip rest
  | 0, b :: rest => (decodeHead b rest).1 :: decodeFrom (decodeHead b rest).2 rest

/-- `new String(bytes, StandardCharsets.UTF_8)`. -/
def decode (bytes : Bytes) : Text :=
  decodeFrom 0 bytes

/-- The bytes of a text of ASCII characters. -/
def asciiBytes (t : Text) : Bytes :=
  t.map fun c => UInt8.ofNat c.toNat

/-- A sequence takes continuation bytes only: behind them it neither looks at
a byte nor takes one. -/
def Local (f : Bytes → Char × Nat) : Prop :=
  ∀ xs : Bytes, ∀ b ys, isContinuation b = false →
    f (xs ++ b :: ys) = f xs ∧ (f xs).2 ≤ xs.length

theorem decode2_local (b1 : UInt8) : Local (decode2 b1) := by
  intro xs b ys hb
  cases xs with
  | nil => simp [decode2, hb]
  | cons b2 rest =>
      by_cases h2 : isContinuation b2 <;> simp [decode2, h2]

theorem decode3_local (b1 : UInt8) : Local (decode3 b1) := by
  intro xs b ys hb
  cases xs with
  | nil => simp [decode3, isMalformed3_2, hb]
  | cons b2 rest =>
      by_cases h2 : isMalformed3_2 b1 b2
      · simp [decode3, h2]
      cases rest with
      | nil => simp [decode3, h2, hb]
      | cons b3 rest =>
          by_cases h3 : isContinuation b3 <;> simp [decode3, h2, h3]

theorem decode4_local (b1 : UInt8) : Local (decode4 b1) := by
  intro xs b ys hb
  cases xs with
  | nil => simp [decode4, isMalformed4_2, hb]
  | cons b2 rest =>
      by_cases h2 : (0xF4 < b1 || isMalformed4_2 b1 b2) = true
      · simp [decode4, h2]
      cases rest with
      | nil => simp [decode4, h2, hb]
      | cons b3 rest =>
          by_cases h3 : isContinuation b3
          · cases rest with
            | nil => simp [decode4, h2, h3, hb]
            | cons b4 rest =>
                by_cases h4 : isContinuation b4 <;> simp [decode4, h2, h3, h4]
          · simp [decode4, h2, h3]

theorem decodeHead_local (b1 : UInt8) : Local (decodeHead b1) := by
  intro xs b ys hb
  unfold decodeHead
  split_ifs
  · exact ⟨rfl, Nat.zero_le _⟩
  · exact decode2_local b1 xs b ys hb
  · exact decode3_local b1 xs b ys hb
  · exact decode4_local b1 xs b ys hb
  · exact ⟨rfl, Nat.zero_le _⟩

theorem decodeFrom_append (b : UInt8) (ys : Bytes) (hb : isContinuation b = false) (xs : Bytes)
    (skip : Nat) (hskip : skip ≤ xs.length) :
    decodeFrom skip (xs ++ b :: ys) = decodeFrom skip xs ++ decode (b :: ys) := by
  induction xs generalizing skip with
  | nil =>
      obtain rfl : skip = 0 := by simpa using hskip
      rfl
  | cons x xs ih =>
      cases skip with
      | succ skip =>
          exact ih skip (by simpa using hskip)
      | zero =>
          obtain ⟨hhead, htaken⟩ := decodeHead_local x xs b ys hb
          simp only [List.cons_append, decodeFrom, hhead]
          rw [ih _ htaken]

/-- A text falls apart before every byte that continues no sequence. -/
theorem decode_append (xs : Bytes) {b : UInt8} (hb : isContinuation b = false) (ys : Bytes) :
    decode (xs ++ b :: ys) = decode xs ++ decode (b :: ys) :=
  decodeFrom_append b ys hb xs 0 (Nat.zero_le _)

theorem decode_asciiBytes {t : Text} (h : ∀ c ∈ t, c.toNat < 128) :
    decode (asciiBytes t) = t := by
  induction t with
  | nil => rfl
  | cons c t ih =>
      have hc : c.toNat < 128 := h c (List.mem_cons_self ..)
      have hbyte : UInt8.ofNat c.toNat < 0x80 := by
        rw [UInt8.lt_iff_toNat_lt, UInt8.toNat_ofNat']
        simpa [Nat.mod_eq_of_lt (show c.toNat < 256 by omega)] using hc
      have hchar : Char.ofNat (UInt8.ofNat c.toNat).toNat = c := by
        rw [UInt8.toNat_ofNat', Nat.mod_eq_of_lt (by omega), Char.ofNat_toNat]
      calc decode (asciiBytes (c :: t))
          = c :: decode (asciiBytes t) := by
            simp only [decode, asciiBytes, List.map_cons, decodeFrom, decodeHead, if_pos hbyte, hchar]
        _ = c :: t := by rw [ih fun d hd => h d (List.mem_cons_of_mem c hd)]

example : decode [0x43, 0xC3, 0xA9, 0xE2, 0x82, 0xAC, 0xE2, 0x82, 0x21] = "C\u00e9\u20ac\ufffd!".toList := by
  decide +kernel

end C2c.Library.Utf8
