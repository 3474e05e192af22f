import Mathlib.Tactic.Common

/-!
# UTF-8

`Buffer.from(text, 'utf8')` and `buffer.toString('utf8')`. What is no character decodes to
replacement characters, and what was encoded decodes to itself.
-/

namespace Js

abbrev Bytes := List UInt8

/-- `Buffer.from(text, 'utf8')`. -/
def encodeUtf8 (text : List Char) : Bytes := text.flatMap String.utf8EncodeChar

/-- The character at the start of `bytes`, if there is one. -/
def firstChar? (bytes : Bytes) : Option Char := bytes.toByteArray.utf8DecodeChar? 0

def isContinuation (b : UInt8) : Bool := 0x80 ≤ b && b ≤ 0xBF

/-- Whether `second` may follow the lead byte `first` of more than one byte. -/
def mayFollow (first second : UInt8) : Bool :=
  if first = 0xE0 then 0xA0 ≤ second && second ≤ 0xBF
  else if first = 0xED then 0x80 ≤ second && second ≤ 0x9F
  else if first = 0xF0 then 0x90 ≤ second && second ≤ 0xBF
  else if first = 0xF4 then 0x80 ≤ second && second ≤ 0x8F
  else 0xE1 ≤ first && first ≤ 0xF3 && isContinuation second

/-- How many bytes one replacement character stands for: as many as could begin a character. -/
def brokenLength : Bytes → ℕ
  | first :: second :: third :: _ =>
    if !mayFollow first second then 1
    else if 0xF0 ≤ first && isContinuation third then 3
    else 2
  | [first, second] => if mayFollow first second then 2 else 1
  | _ => 1

/-- `buffer.toString('utf8')`, of what follows the first `skip` bytes. -/
def decodeFrom : ℕ → Bytes → List Char
  | _, [] => []
  | skip + 1, _ :: rest => decodeFrom skip rest
  | 0, b :: rest =>
    match firstChar? (b :: rest) with
    | some c => c :: decodeFrom (c.utf8Size - 1) rest
    | none => Char.ofNat 0xFFFD :: decodeFrom (brokenLength (b :: rest) - 1) rest

def decodeUtf8 (bytes : Bytes) : List Char := decodeFrom 0 bytes

theorem decodeFrom_append (skipped rest : Bytes) :
    decodeFrom skipped.length (skipped ++ rest) = decodeFrom 0 rest := by
  induction skipped with
  | nil => rfl
  | cons b skipped ih => exact ih

theorem decodeFrom_encodeChar (c : Char) (rest : Bytes) :
    decodeFrom 0 (String.utf8EncodeChar c ++ rest) = c :: decodeFrom 0 rest := by
  have hfirst : firstChar? (String.utf8EncodeChar c ++ rest) = some c := by
    rw [firstChar?, List.toByteArray_append]
    exact ByteArray.utf8DecodeChar?_utf8EncodeChar_append
  have hlength := String.length_utf8EncodeChar c
  cases hbytes : String.utf8EncodeChar c with
  | nil => exact absurd hbytes String.utf8EncodeChar_ne_nil
  | cons b tail =>
    rw [hbytes] at hfirst hlength
    rw [List.length_cons] at hlength
    rw [List.cons_append] at hfirst ⊢
    rw [decodeFrom, hfirst]
    show c :: decodeFrom (c.utf8Size - 1) (tail ++ rest) = _
    rw [← hlength, Nat.add_sub_cancel, decodeFrom_append]

theorem decodeUtf8_encodeUtf8 (text : List Char) : decodeUtf8 (encodeUtf8 text) = text := by
  induction text with
  | nil => rfl
  | cons c text ih =>
    rw [encodeUtf8, List.flatMap_cons, decodeUtf8, decodeFrom_encodeChar]
    exact congrArg _ ih

/-- The line feed is no part of another character. -/
theorem mem_encodeUtf8 {text : List Char} (h : 0x0A ∈ encodeUtf8 text) : '\n' ∈ text := by
  obtain ⟨c, hc, hbyte⟩ := List.mem_flatMap.1 h
  suffices hline : c = '\n' from hline ▸ hc
  have hmulti : ∀ n, 0x80 ≤ n → n < 0x100 → (0x0A : UInt8) ≠ UInt8.ofNat n := by
    intro n hlow hhigh heq
    have hnat := congrArg UInt8.toNat heq
    rw [UInt8.toNat_ofNat', Nat.mod_eq_of_lt (by omega)] at hnat
    have : (0x0A : UInt8).toNat = 10 := rfl
    omega
  rw [String.utf8EncodeChar] at hbyte
  split at hbyte
  · next hsmall =>
    rw [List.mem_singleton] at hbyte
    have hnat := congrArg UInt8.toNat hbyte
    rw [UInt8.toNat_ofNat', Nat.mod_eq_of_lt (by omega)] at hnat
    exact Char.ext (UInt32.toNat_inj.1 hnat.symm)
  · exfalso
    split at hbyte
    · simp only [List.mem_cons, List.not_mem_nil, or_false] at hbyte
      obtain hbyte | hbyte := hbyte
      · exact hmulti _ (by omega) (by omega) hbyte
      · exact hmulti _ (by omega) (by omega) hbyte
    · split at hbyte
      · simp only [List.mem_cons, List.not_mem_nil, or_false] at hbyte
        obtain hbyte | hbyte | hbyte := hbyte
        · exact hmulti _ (by omega) (by omega) hbyte
        · exact hmulti _ (by omega) (by omega) hbyte
        · exact hmulti _ (by omega) (by omega) hbyte
      · simp only [List.mem_cons, List.not_mem_nil, or_false] at hbyte
        obtain hbyte | hbyte | hbyte | hbyte := hbyte
        · exact hmulti _ (by omega) (by omega) hbyte
        · exact hmulti _ (by omega) (by omega) hbyte
        · exact hmulti _ (by omega) (by omega) hbyte
        · exact hmulti _ (by omega) (by omega) hbyte

end Js
