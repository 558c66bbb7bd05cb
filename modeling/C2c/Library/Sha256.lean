import Mathlib.Algebra.Group.Nat.Defs

namespace C2c.Library.Sha256

/-- Rotate a 32-bit word, held as a natural number, to the right. -/
def rotr (x n : Nat) : Nat :=
  ((x >>> n) ||| (x <<< (32 - n))) % 2 ^ 32

def add32 (x y : Nat) : Nat :=
  (x + y) % 2 ^ 32

/-- The round constants: the first 32 bits of the fractional parts of the cube
roots of the first 64 primes. -/
def roundConstants : List Nat :=
  [0x428a2f98, 0x71374491, 0xb5c0fbcf, 0xe9b5dba5, 0x3956c25b, 0x59f111f1, 0x923f82a4, 0xab1c5ed5,
   0xd807aa98, 0x12835b01, 0x243185be, 0x550c7dc3, 0x72be5d74, 0x80deb1fe, 0x9bdc06a7, 0xc19bf174,
   0xe49b69c1, 0xefbe4786, 0x0fc19dc6, 0x240ca1cc, 0x2de92c6f, 0x4a7484aa, 0x5cb0a9dc, 0x76f988da,
   0x983e5152, 0xa831c66d, 0xb00327c8, 0xbf597fc7, 0xc6e00bf3, 0xd5a79147, 0x06ca6351, 0x14292967,
   0x27b70a85, 0x2e1b2138, 0x4d2c6dfc, 0x53380d13, 0x650a7354, 0x766a0abb, 0x81c2c92e, 0x92722c85,
   0xa2bfe8a1, 0xa81a664b, 0xc24b8b70, 0xc76c51a3, 0xd192e819, 0xd6990624, 0xf40e3585, 0x106aa070,
   0x19a4c116, 0x1e376c08, 0x2748774c, 0x34b0bcb5, 0x391c0cb3, 0x4ed8aa4a, 0x5b9cca4f, 0x682e6ff3,
   0x748f82ee, 0x78a5636f, 0x84c87814, 0x8cc70208, 0x90befffa, 0xa4506ceb, 0xbef9a3f7, 0xc67178f2]

/-- The eight working variables of the compression function. -/
structure HashState where
  a : Nat
  b : Nat
  c : Nat
  d : Nat
  e : Nat
  f : Nat
  g : Nat
  h : Nat

def initialState : HashState :=
  ⟨0x6a09e667, 0xbb67ae85, 0x3c6ef372, 0xa54ff53a, 0x510e527f, 0x9b05688c, 0x1f83d9ab, 0x5be0cd19⟩

/-- The next schedule word from the words so far, newest first. -/
def scheduleWord (newest : List Nat) : Nat :=
  let w2 := newest.getD 1 0
  let w7 := newest.getD 6 0
  let w15 := newest.getD 14 0
  let w16 := newest.getD 15 0
  let s0 := rotr w15 7 ^^^ rotr w15 18 ^^^ (w15 >>> 3)
  let s1 := rotr w2 17 ^^^ rotr w2 19 ^^^ (w2 >>> 10)
  add32 (add32 w16 s0) (add32 w7 s1)

def extendSchedule : Nat → List Nat → List Nat
  | 0, newest => newest
  | n + 1, newest => extendSchedule n (scheduleWord newest :: newest)

def round (s : HashState) (k w : Nat) : HashState :=
  let s1 := rotr s.e 6 ^^^ rotr s.e 11 ^^^ rotr s.e 25
  let ch := (s.e &&& s.f) ^^^ ((s.e ^^^ 0xffffffff) &&& s.g)
  let t1 := add32 (add32 s.h s1) (add32 ch (add32 k w))
  let s0 := rotr s.a 2 ^^^ rotr s.a 13 ^^^ rotr s.a 22
  let maj := (s.a &&& s.b) ^^^ (s.a &&& s.c) ^^^ (s.b &&& s.c)
  ⟨add32 t1 (add32 s0 maj), s.a, s.b, s.c, add32 s.d t1, s.e, s.f, s.g⟩

def rounds : HashState → List Nat → List Nat → HashState
  | s, k :: ks, w :: ws => rounds (round s k w) ks ws
  | s, _, _ => s

def HashState.add (s t : HashState) : HashState :=
  ⟨add32 s.a t.a, add32 s.b t.b, add32 s.c t.c, add32 s.d t.d,
   add32 s.e t.e, add32 s.f t.f, add32 s.g t.g, add32 s.h t.h⟩

def bigEndian (bytes : List Nat) : Nat :=
  bytes.foldl (fun n b => n * 256 + b) 0

/-- Cut a list into pieces of `size` elements; `fuel` bounds the pieces. -/
def pieces {α : Type} (size : Nat) : Nat → List α → List (List α)
  | 0, _ => []
  | fuel + 1, xs => if xs.isEmpty then [] else xs.take size :: pieces size fuel (xs.drop size)

def compress (s : HashState) (block : List Nat) : HashState :=
  let words := (pieces 4 16 block).map bigEndian
  s.add (rounds s roundConstants (extendSchedule 48 words.reverse).reverse)

def byteAt (n position : Nat) : Nat :=
  (n >>> (8 * position)) % 256

/-- The message followed by the bit `1`, zeros, and its length in bits. -/
def pad (message : List Nat) : List Nat :=
  let bits := 8 * message.length
  message ++ 0x80 :: List.replicate ((119 - message.length % 64) % 64) 0 ++
    [7, 6, 5, 4, 3, 2, 1, 0].map (byteAt bits)

def hexDigit (n : Nat) : Char :=
  ['0', '1', '2', '3', '4', '5', '6', '7', '8', '9', 'a', 'b', 'c', 'd', 'e', 'f'].getD n '0'

/-- A 32-bit word as eight lower-case hexadecimal digits. -/
def hexWord (n : Nat) : List Char :=
  [7, 6, 5, 4, 3, 2, 1, 0].map fun position => hexDigit ((n >>> (4 * position)) % 16)

def HashState.words (s : HashState) : List Nat :=
  [s.a, s.b, s.c, s.d, s.e, s.f, s.g, s.h]

def hashBytes (message : List Nat) : HashState :=
  let padded := pad message
  (pieces 64 (padded.length / 64) padded).foldl compress initialState

/-- The UTF-8 bytes of one character. -/
def utf8Bytes (c : Char) : List Nat :=
  let n := c.toNat
  if n < 0x80 then [n]
  else if n < 0x800 then [0xc0 + n / 64, 0x80 + n % 64]
  else if n < 0x10000 then [0xe0 + n / 4096, 0x80 + n / 64 % 64, 0x80 + n % 64]
  else [0xf0 + n / 262144, 0x80 + n / 4096 % 64, 0x80 + n / 64 % 64, 0x80 + n % 64]

/-- SHA-256 of the UTF-8 bytes of a text, in lower-case hexadecimal. -/
def sha256Hex (text : List Char) : List Char :=
  (hashBytes (text.flatMap utf8Bytes)).words.flatMap hexWord

theorem hexDigit_mem (n : Nat) :
    hexDigit n ∈ ['0', '1', '2', '3', '4', '5', '6', '7', '8', '9', 'a', 'b', 'c', 'd', 'e', 'f'] := by
  unfold hexDigit
  rw [List.getD_eq_getElem?_getD]
  rcases h : (['0', '1', '2', '3', '4', '5', '6', '7', '8', '9', 'a', 'b', 'c', 'd', 'e',
    'f'] : List Char)[n]? with _ | c
  · simp
  · exact List.mem_of_getElem? h

theorem sha256Hex_length (text : List Char) : (sha256Hex text).length = 64 := by
  simp [sha256Hex, HashState.words, hexWord]

theorem mem_sha256Hex {text : List Char} {c : Char} (h : c ∈ sha256Hex text) :
    c ∈ ['0', '1', '2', '3', '4', '5', '6', '7', '8', '9', 'a', 'b', 'c', 'd', 'e', 'f'] := by
  simp only [sha256Hex, hexWord, List.mem_flatMap, List.mem_map] at h
  obtain ⟨_, _, _, _, rfl⟩ := h
  exact hexDigit_mem _

example : sha256Hex "abc".toList =
    "ba7816bf8f01cfea414140de5dae2223b00361a396177a9cb410ff61f20015ad".toList := by
  decide +kernel

end C2c.Library.Sha256
