import NexusTrade.Lib.Utf8

/-!
# Percent-encoded texts

The escapes of a URL, over texts as lists of characters: the characters that are kept stand for themselves, every
other one for the escapes of its bytes.  Which characters are kept is a parameter.

* **`decode_encode`**: an encoded text is read back;
* **`mem_encode`**: it holds no character but the kept ones, the percent sign and hexadecimal digits;
* **`splitOn_joined`**: texts without the separator that are joined by it are found again.
-/

namespace Percent

open Utf8 (Bytes)

/-- A hexadecimal digit, in upper case. -/
def hexDigit (n : ℕ) : Char := Char.ofNat (if n < 10 then 48 + n else 55 + n)

/-- The value of a hexadecimal digit. -/
def hexValue (c : Char) : Option ℕ :=
  if 48 ≤ c.toNat ∧ c.toNat ≤ 57 then some (c.toNat - 48)
  else if 65 ≤ c.toNat ∧ c.toNat ≤ 70 then some (c.toNat - 55)
  else if 97 ≤ c.toNat ∧ c.toNat ≤ 102 then some (c.toNat - 87)
  else none

theorem hexValue_hexDigit : ∀ n < 16, hexValue (hexDigit n) = some n := by decide

/-- The escape of a byte. -/
def escapeByte (byte : UInt8) : List Char := ['%', hexDigit (byte.toNat / 16), hexDigit (byte.toNat % 16)]

section Encoding

variable (kept : Char → Bool)

def encodeChar (c : Char) : List Char :=
  if kept c then [c] else (String.utf8EncodeChar c).flatMap escapeByte

/-- The encoded text. -/
def encode (text : List Char) : List Char := text.flatMap (encodeChar kept)

/-- The bytes that an encoded text stands for. -/
def bytes : List Char → Option Bytes
  | [] => some []
  | '%' :: high :: low :: rest =>
    match hexValue high, hexValue low with
    | some h, some l => (bytes rest).map (UInt8.ofNat (16 * h + l) :: ·)
    | _, _ => none
  | c :: rest => if c = '%' then none else (bytes rest).map (String.utf8EncodeChar c ++ ·)

/-- The text that an encoded text stands for, if it is well formed. -/
def decode (text : List Char) : Option (List Char) := (bytes text).bind Utf8.decode

variable {kept}

/-! ### Reading back -/

theorem bytes_escapeByte (byte : UInt8) (rest : List Char) :
    bytes (escapeByte byte ++ rest) = (bytes rest).map (byte :: ·) := by
  have hbyte : byte.toNat < 256 := byte.toNat_lt
  have hhigh := hexValue_hexDigit (byte.toNat / 16) (by omega)
  have hlow := hexValue_hexDigit (byte.toNat % 16) (by omega)
  have hsum : 16 * (byte.toNat / 16) + byte.toNat % 16 = byte.toNat := by omega
  show bytes ('%' :: hexDigit (byte.toNat / 16) :: hexDigit (byte.toNat % 16) :: rest) = _
  rw [bytes, hhigh, hlow]
  show (bytes rest).map (UInt8.ofNat (16 * (byte.toNat / 16) + byte.toNat % 16) :: ·) = _
  rw [hsum, UInt8.ofNat_toNat]

theorem bytes_escapes (escaped : Bytes) (rest : List Char) :
    bytes (escaped.flatMap escapeByte ++ rest) = (bytes rest).map (escaped ++ ·) := by
  induction escaped with
  | nil => simp
  | cons byte escaped ih =>
      rw [List.flatMap_cons, List.append_assoc, bytes_escapeByte, ih, Option.map_map]
      rfl

theorem bytes_cons {c : Char} (hc : c ≠ '%') (rest : List Char) :
    bytes (c :: rest) = (bytes rest).map (String.utf8EncodeChar c ++ ·) := by
  rw [bytes.eq_def]
  split
  · rename_i heq
    cases heq
  · rename_i heq
    exact absurd (List.cons.inj heq).1 hc
  · rename_i heq
    cases heq
    rw [if_neg hc]

theorem bytes_encodeChar (hpercent : kept '%' = false) (c : Char) (rest : List Char) :
    bytes (encodeChar kept c ++ rest) = (bytes rest).map (String.utf8EncodeChar c ++ ·) := by
  rw [encodeChar]
  cases hkept : kept c with
  | true =>
      have hc : c ≠ '%' := by
        intro he
        rw [he, hpercent] at hkept
        cases hkept
      exact bytes_cons hc rest
  | false => exact bytes_escapes (String.utf8EncodeChar c) rest

theorem bytes_encode (hpercent : kept '%' = false) (text : List Char) :
    bytes (encode kept text) = some (Utf8.encode text) := by
  induction text with
  | nil => rfl
  | cons c text ih =>
      rw [encode, List.flatMap_cons, bytes_encodeChar hpercent, ← encode, ih, Utf8.encode_cons]
      rfl

/-- **An encoded text is read back.** -/
theorem decode_encode (hpercent : kept '%' = false) (text : List Char) :
    decode (encode kept text) = some text := by
  rw [decode, bytes_encode hpercent]
  exact Utf8.decode_encode text

/-! ### The characters of an encoded text -/

theorem mem_escapeByte {byte : UInt8} {c : Char} (h : c ∈ escapeByte byte) : c = '%' ∨ (hexValue c).isSome := by
  have hbyte : byte.toNat < 256 := byte.toNat_lt
  rcases List.mem_cons.mp h with rfl | h
  · exact .inl rfl
  rcases List.mem_cons.mp h with rfl | h
  · exact .inr (Option.isSome_of_eq_some (hexValue_hexDigit _ (by omega)))
  · obtain rfl := List.mem_singleton.mp h
    exact .inr (Option.isSome_of_eq_some (hexValue_hexDigit _ (by omega)))

theorem mem_encode {text : List Char} {c : Char} (h : c ∈ encode kept text) :
    kept c = true ∨ c = '%' ∨ (hexValue c).isSome := by
  obtain ⟨d, _, hd⟩ := List.mem_flatMap.mp h
  rw [encodeChar] at hd
  cases hkept : kept d with
  | true =>
      rw [if_pos hkept] at hd
      obtain rfl := List.mem_singleton.mp hd
      exact .inl hkept
  | false =>
      rw [if_neg (by simp [hkept])] at hd
      obtain ⟨byte, _, hbyte⟩ := List.mem_flatMap.mp hd
      exact .inr (mem_escapeByte hbyte)

/-- A character that is neither kept nor part of an escape is not there. -/
theorem not_mem_encode {c : Char} (hkept : kept c = false) (hpercent : c ≠ '%') (hdigit : hexValue c = none)
    (text : List Char) : c ∉ encode kept text := by
  intro h
  rcases mem_encode h with h | h | h
  · rw [hkept] at h
    cases h
  · exact hpercent h
  · rw [hdigit] at h
    cases h

end Encoding

/-! ### Separators -/

/-- Texts, each behind a separator. -/
def joined (separator : Char) (texts : List (List Char)) : List Char :=
  texts.flatMap (separator :: ·)

theorem splitOn_joined {separator : Char} (texts : List (List Char)) :
    ∀ {first : List Char}, separator ∉ first → (∀ text ∈ texts, separator ∉ text) →
      (first ++ joined separator texts).splitOn separator = first :: texts := by
  induction texts with
  | nil =>
      intro first hfirst _
      rw [joined, List.flatMap_nil, List.append_nil]
      exact List.splitOn_eq_singleton hfirst
  | cons text texts ih =>
      intro first hfirst hall
      have htext := hall text List.mem_cons_self
      have htexts := fun other ho => hall other (List.mem_cons_of_mem text ho)
      rw [joined, List.flatMap_cons, List.cons_append, ← joined,
        List.splitOn_append_cons_self_of_not_mem hfirst, ih htext htexts]

end Percent
