import C2c.BuildTest.Verification
import C2c.Library.Utf8

namespace C2c.BuildTest.Captures

open C2c.Library.JavaText
open C2c.Library.Utf8
open C2c.BuildTest.Comparison
open C2c.BuildTest.Verification

/-- An `InputStream`, as the pieces in which its bytes arrive. -/
abbrev InputStream := List Bytes

/-- `InputStream.read(byte[])` into `size` bytes: it waits for the next piece
and takes what fits of it; `none` is the end of the stream. -/
def read (size : Nat) : InputStream → Option (Bytes × InputStream)
  | [] => none
  | [] :: rest => read size rest
  | (b :: piece) :: rest => some ((b :: piece).take size, (b :: piece).drop size :: rest)

/-- `InputStream.readNBytes`, with what it leaves of the stream. -/
def readNBytes : Nat → InputStream → Bytes × InputStream
  | _, [] => ([], [])
  | n, piece :: rest =>
      if n ≤ piece.length then (piece.take n, piece.drop n :: rest)
      else
        (piece ++ (readNBytes (n - piece.length) rest).1,
          (readNBytes (n - piece.length) rest).2)

def maxOutputBytes : Nat :=
  1048576

def outputTruncatedSentinel : Text :=
  "\n[c2c: output truncated at ".toList ++ natText maxOutputBytes ++ " bytes]\n".toList

/-- `CobolRuntimeExecutor.readAll` on a stream without read errors.  What the
draining loop reads is discarded. -/
def readAll (stream : InputStream) : Text :=
  match read 1 (readNBytes maxOutputBytes stream).2 with
  | none => decode (readNBytes maxOutputBytes stream).1
  | some _ => decode (readNBytes maxOutputBytes stream).1 ++ outputTruncatedSentinel

def maxCaptureBytes : Nat :=
  1048576

def truncationNotice : Text :=
  "\n[output truncated after ".toList ++ natText maxCaptureBytes ++ " bytes]".toList

/-- The variables of the loop in `GeneratedProgramRunner.readStream`; `total`
is a 32-bit `int`. -/
structure Capture where
  buffer : Bytes
  total : Int

def Capture.empty : Capture :=
  ⟨[], 0⟩

/-- One round of the loop, with the chunk `read` delivered. -/
def Capture.write (capture : Capture) (chunk : Bytes) : Capture where
  buffer :=
    let remaining : Int := maxCaptureBytes - capture.buffer.length
    if 0 < remaining then capture.buffer ++ chunk.take remaining.toNat else capture.buffer
  total := toInt (capture.total + chunk.length)

theorem length_of_read {size : Nat} (hsize : 0 < size) {stream : InputStream} {chunk : Bytes}
    {rest : InputStream} (h : read size stream = some (chunk, rest)) :
    rest.flatten.length < stream.flatten.length := by
  induction stream with
  | nil => cases h
  | cons piece stream ih =>
      cases piece with
      | nil => exact ih h
      | cons b piece =>
          obtain ⟨rfl, rfl⟩ := h
          simp only [List.flatten_cons, List.length_append, List.length_drop, List.length_cons]
          omega

/-- `while ((read = stream.read(chunk)) != -1)`. -/
def Capture.readChunks (capture : Capture) (stream : InputStream) : Capture :=
  match _h : read 8192 stream with
  | none => capture
  | some (chunk, rest) => (capture.write chunk).readChunks rest
termination_by stream.flatten.length
decreasing_by exact length_of_read (by decide) _h

/-- `GeneratedProgramRunner.readStream` on a stream without read errors. -/
def readStream (stream : InputStream) : Text :=
  let capture := Capture.empty.readChunks stream
  decode (if capture.total > maxCaptureBytes then capture.buffer ++ asciiBytes truncationNotice
    else capture.buffer)

/-- The comparison of an oracle run with a run of the generated program, both
ended with exit code 0 and nothing on the error stream. -/
def parity (source target : InputStream) : ParityResult :=
  compareOutputs (readAll source) [] (some 0) (readStream target) (readStream []) (some 0)
    "oracle.cobol-runtime".toList

/-- What was captured of an output of which `limit` bytes are kept. -/
def captured (limit : Nat) (notice : Text) (output : Bytes) : Text :=
  decode (output.take limit) ++ if limit < output.length then notice else []

/-- What the two captures and their comparison are to tell of the complete
outputs. -/
structure Faithful (source target : InputStream) : Prop where
  equal_matched : source.flatten = target.flatten → (parity source target).matched = true
  differing_unmatched :
    normalize (decode source.flatten) ≠ normalize (decode target.flatten) →
      (parity source target).matched = false
  source_notice :
    readAll source = captured maxOutputBytes outputTruncatedSentinel source.flatten
  target_notice :
    readStream target = captured maxCaptureBytes truncationNotice target.flatten

/-- Whether one output, cut at `limit` and with the notice behind it, reads
like the other one although the complete outputs differ. -/
def Forges (limit : Nat) (notice : Text) (long short : Bytes) : Prop :=
  limit < long.length ∧ short.length ≤ limit ∧
    normalize (decode (long.take limit) ++ notice) = normalize (decode short) ∧
    normalize (decode long) ≠ normalize (decode short)

/-- The outputs of which the captures tell the truth: the `int` counts the
target's output as over the limit if it is, equal outputs fit, and none ends
like the other one cut. -/
structure Representable (source target : Bytes) : Prop where
  counted : maxCaptureBytes < target.length → (maxCaptureBytes : Int) < toInt target.length
  equal_fit : source = target → source.length ≤ maxOutputBytes
  target_genuine : ¬ Forges maxOutputBytes outputTruncatedSentinel source target
  source_genuine : ¬ Forges maxCaptureBytes truncationNotice target source

theorem read_eq_none_iff (size : Nat) (stream : InputStream) :
    read size stream = none ↔ stream.flatten = [] := by
  induction stream with
  | nil => simp [read]
  | cons piece stream ih =>
      cases piece with
      | nil => simpa [read] using ih
      | cons b piece => simp [read]

theorem flatten_of_read {size : Nat} {stream : InputStream} {chunk : Bytes} {rest : InputStream}
    (h : read size stream = some (chunk, rest)) : stream.flatten = chunk ++ rest.flatten := by
  induction stream with
  | nil => cases h
  | cons piece stream ih =>
      cases piece with
      | nil => exact ih h
      | cons b piece =>
          obtain ⟨rfl, rfl⟩ := h
          rw [List.flatten_cons, List.flatten_cons, ← List.append_assoc, List.take_append_drop]

theorem readNBytes_spec (n : Nat) (stream : InputStream) :
    (readNBytes n stream).1 = stream.flatten.take n ∧
      (readNBytes n stream).2.flatten = stream.flatten.drop n := by
  induction stream generalizing n with
  | nil => simp [readNBytes]
  | cons piece stream ih =>
      unfold readNBytes
      rw [List.flatten_cons, List.take_append, List.drop_append]
      split_ifs with h
      · have hnone : n - piece.length = 0 := by omega
        simp [hnone]
      · obtain ⟨hread, hleft⟩ := ih (n - piece.length)
        have hall : piece.length ≤ n := by omega
        rw [hread, hleft, List.take_of_length_le hall, List.drop_of_length_le hall]
        exact ⟨rfl, rfl⟩

/-- However the bytes arrive, `readAll` keeps the first ones and tells whether
there were more. -/
theorem readAll_eq (stream : InputStream) :
    readAll stream = captured maxOutputBytes outputTruncatedSentinel stream.flatten := by
  obtain ⟨hread, hleft⟩ := readNBytes_spec maxOutputBytes stream
  unfold readAll captured
  rw [hread]
  by_cases hover : maxOutputBytes < stream.flatten.length
  · have hmore : (readNBytes maxOutputBytes stream).2.flatten ≠ [] := by
      rw [hleft, ne_eq, List.drop_eq_nil_iff]
      omega
    obtain ⟨byte, hbyte⟩ := Option.ne_none_iff_exists'.mp
      (fun hnone => hmore ((read_eq_none_iff 1 _).mp hnone))
    rw [hbyte, if_pos hover]
  · have hend : (readNBytes maxOutputBytes stream).2.flatten = [] := by
      rw [hleft, List.drop_eq_nil_iff]
      omega
    rw [(read_eq_none_iff 1 _).mpr hend, if_neg hover, List.append_nil]

/-- What the loop holds after the bytes `seen`. -/
structure Capture.Holds (capture : Capture) (seen : Bytes) : Prop where
  buffer : capture.buffer = seen.take maxCaptureBytes
  total : capture.total = toInt seen.length

theorem Capture.holds_empty : Capture.empty.Holds [] where
  buffer := by simp [Capture.empty]
  total := by decide

theorem Capture.Holds.write {capture : Capture} {seen : Bytes} (h : capture.Holds seen)
    (chunk : Bytes) : (capture.write chunk).Holds (seen ++ chunk) where
  buffer := by
    simp only [Capture.write, h.buffer, List.length_take, List.take_append]
    split_ifs with hroom
    · have hfit : seen.length ≤ maxCaptureBytes := by omega
      have hremaining :
          ((maxCaptureBytes : Int) - (min maxCaptureBytes seen.length : Nat)).toNat =
            maxCaptureBytes - seen.length := by omega
      rw [hremaining]
    · have hfull : maxCaptureBytes - seen.length = 0 := by omega
      rw [hfull, List.take_zero, List.append_nil]
  total := by
    simp only [Capture.write, h.total, toInt, List.length_append, Int.bmod_add_bmod]
    rfl

theorem Capture.Holds.readChunks {capture : Capture} {seen : Bytes} (h : capture.Holds seen)
    (stream : InputStream) : (capture.readChunks stream).Holds (seen ++ stream.flatten) := by
  induction hn : stream.flatten.length using Nat.strong_induction_on
    generalizing capture seen stream with
  | _ n ih =>
      unfold Capture.readChunks
      split
      · next hend =>
          rw [(read_eq_none_iff 8192 stream).mp hend, List.append_nil]
          exact h
      · next chunk rest hread =>
          rw [flatten_of_read hread, ← List.append_assoc]
          have hless := length_of_read (by decide) hread
          exact ih rest.flatten.length (hn ▸ hless) (h.write chunk) rest rfl

/-- However the bytes arrive, `readStream` keeps the first ones; that there
were more it tells if the `int` counted them so. -/
theorem readStream_eq (stream : InputStream) :
    readStream stream = decode (stream.flatten.take maxCaptureBytes) ++
      if (maxCaptureBytes : Int) < toInt stream.flatten.length then truncationNotice else [] := by
  obtain ⟨hbuffer, htotal⟩ := Capture.holds_empty.readChunks stream
  rw [List.nil_append] at hbuffer htotal
  simp only [readStream, gt_iff_lt, hbuffer, htotal]
  split_ifs
  · have hnotice : asciiBytes truncationNotice = 10 :: asciiBytes truncationNotice.tail := by
      decide
    have hascii : (truncationNotice.all fun c => decide (c.toNat < 128)) = true := by decide
    rw [hnotice, decode_append _ (by decide), ← hnotice, decode_asciiBytes fun c hc =>
      of_decide_eq_true (List.all_eq_true.mp hascii c hc)]
  · rw [List.append_nil]

theorem toInt_length_of_fits {output : Bytes} (h : output.length ≤ maxCaptureBytes) :
    toInt output.length = output.length := by
  unfold maxCaptureBytes at h
  unfold toInt
  rw [Int.bmod_eq_of_le] <;> omega

theorem readStream_eq_captured_iff (stream : InputStream) :
    readStream stream = captured maxCaptureBytes truncationNotice stream.flatten ↔
      (maxCaptureBytes < stream.flatten.length →
        (maxCaptureBytes : Int) < toInt stream.flatten.length) := by
  have hnotice : truncationNotice ≠ [] := by decide
  rw [readStream_eq, captured, List.append_cancel_left_eq]
  generalize stream.flatten = output
  by_cases hover : maxCaptureBytes < output.length
  · by_cases hcounted : (maxCaptureBytes : Int) < toInt output.length
    · simp [hover, hcounted]
    · simp [hover, hcounted, hnotice.symm]
  · have hfits := toInt_length_of_fits (Nat.le_of_not_lt hover)
    have hcounted : ¬ (maxCaptureBytes : Int) < toInt output.length := by omega
    simp [hover, hcounted]

theorem captured_of_fits {limit : Nat} {output : Bytes} (notice : Text)
    (h : output.length ≤ limit) : captured limit notice output = decode output := by
  rw [captured, List.take_of_length_le h, if_neg (Nat.not_lt_of_le h), List.append_nil]

theorem captured_of_exceeds {limit : Nat} {output : Bytes} (notice : Text)
    (h : limit < output.length) :
    captured limit notice output = decode (output.take limit) ++ notice := by
  rw [captured, if_pos h]

/-- Two cut outputs differ: their last lines are the two notices. -/
theorem normalize_captured_ne {source target : Bytes} (hsource : maxOutputBytes < source.length)
    (htarget : maxCaptureBytes < target.length) :
    normalize (captured maxOutputBytes outputTruncatedSentinel source) ≠
      normalize (captured maxCaptureBytes truncationNotice target) := by
  have hsentinel : outputTruncatedSentinel = '\n' :: outputTruncatedSentinel.tail := by decide
  have hnotice : truncationNotice = '\n' :: truncationNotice.tail := by decide
  rw [captured_of_exceeds _ hsource, captured_of_exceeds _ htarget, hsentinel, hnotice]
  intro heq
  have hfirst : "[c2c: output truncated at 1048576 bytes]".toList <:+
      normalize (decode (source.take maxOutputBytes) ++ '\n' :: outputTruncatedSentinel.tail) :=
    suffix_normalize _ (by decide +kernel)
  have hsecond : "[output truncated after 1048576 bytes]".toList <:+
      normalize (decode (target.take maxCaptureBytes) ++ '\n' :: truncationNotice.tail) :=
    suffix_normalize _ (by decide +kernel)
  rw [heq] at hfirst
  rcases List.suffix_or_suffix_of_suffix hfirst hsecond with h | h
  · exact absurd h (by decide +kernel)
  · exact absurd h (by decide +kernel)

theorem parity_matched_iff (source target : InputStream) :
    (parity source target).matched = true ↔
      normalize (readAll source) = normalize (readStream target) := by
  have hsilent : readStream [] = [] := by
    rw [readStream_eq]
    decide
  rw [parity, compareOutputs, compare_matched_iff, hsilent]
  constructor
  · exact SameBehaviour.stdout
  · exact fun h => ⟨rfl, rfl, rfl, rfl, h⟩

/-- What a comparison of two captures that carry their notices finds. -/
theorem matched_iff_captured {source target : InputStream}
    (hnotice : readStream target = captured maxCaptureBytes truncationNotice target.flatten) :
    (parity source target).matched = true ↔
      normalize (captured maxOutputBytes outputTruncatedSentinel source.flatten) =
        normalize (captured maxCaptureBytes truncationNotice target.flatten) := by
  rw [parity_matched_iff, readAll_eq, hnotice]

theorem Faithful.representable {source target : InputStream} (h : Faithful source target) :
    Representable source.flatten target.flatten where
  counted := (readStream_eq_captured_iff target).mp h.target_notice
  equal_fit := by
    intro heq
    by_contra hover
    rw [Nat.not_le] at hover
    have hmatched := (matched_iff_captured h.target_notice).mp (h.equal_matched heq)
    exact normalize_captured_ne hover (heq ▸ hover) hmatched
  target_genuine := by
    rintro ⟨hover, hfits, hsame, hdiffer⟩
    have hkept : target.flatten.length ≤ maxCaptureBytes := hfits
    have hmatched : (parity source target).matched = true := by
      rw [matched_iff_captured h.target_notice, captured_of_exceeds _ hover,
        captured_of_fits _ hkept, hsame]
    rw [h.differing_unmatched hdiffer] at hmatched
    cases hmatched
  source_genuine := by
    rintro ⟨hover, hfits, hsame, hdiffer⟩
    have hkept : source.flatten.length ≤ maxOutputBytes := hfits
    have hmatched : (parity source target).matched = true := by
      rw [matched_iff_captured h.target_notice, captured_of_exceeds _ hover,
        captured_of_fits _ hkept, hsame]
    rw [h.differing_unmatched (Ne.symm hdiffer)] at hmatched
    cases hmatched

theorem Representable.faithful {source target : InputStream}
    (h : Representable source.flatten target.flatten) : Faithful source target := by
  have hnotice := (readStream_eq_captured_iff target).mpr h.counted
  refine ⟨fun heq => ?_, fun hdiffer => ?_, readAll_eq source, hnotice⟩
  · have hfits := h.equal_fit heq
    rw [matched_iff_captured hnotice, captured_of_fits _ hfits,
      captured_of_fits _ (heq ▸ hfits), heq]
  · rw [Bool.eq_false_iff, ne_eq, matched_iff_captured hnotice]
    intro hsame
    by_cases hsource : maxOutputBytes < source.flatten.length
    · by_cases htarget : maxCaptureBytes < target.flatten.length
      · exact normalize_captured_ne hsource htarget hsame
      · rw [Nat.not_lt] at htarget
        rw [captured_of_exceeds _ hsource, captured_of_fits _ htarget] at hsame
        exact h.target_genuine ⟨hsource, htarget, hsame, hdiffer⟩
    · rw [Nat.not_lt] at hsource
      rw [captured_of_fits _ hsource] at hsame
      by_cases htarget : maxCaptureBytes < target.flatten.length
      · rw [captured_of_exceeds _ htarget] at hsame
        exact h.source_genuine ⟨htarget, hsource, hsame.symm, hdiffer.symm⟩
      · rw [captured_of_fits _ (Nat.le_of_not_lt htarget)] at hsame
        exact hdiffer hsame

theorem faithful_iff (source target : InputStream) :
    Faithful source target ↔ Representable source.flatten target.flatten :=
  ⟨Faithful.representable, Representable.faithful⟩

/-- Both programs write the same byte once more often than a capture keeps. -/
theorem long_equal_outputs_unfaithful :
    ¬ Faithful [List.replicate (maxOutputBytes + 1) 65]
      [List.replicate (maxOutputBytes + 1) 65] := by
  intro h
  have hfits := h.representable.equal_fit rfl
  rw [List.flatten_singleton, List.length_replicate] at hfits
  exact absurd hfits (Nat.not_succ_le_self _)

end C2c.BuildTest.Captures
