import Mathlib.Data.List.Basic

/-!
# Texts as bytes

UTF-8 over lists of bytes, and what a text that is cut anywhere still is.

* **`encode`** and **`decode`** are inverse to each other;
* **`decode_torn`**: bytes that stop inside a character are no text, whatever follows, if it starts with a byte of
  its own character;
* **`take_encode`**: the bytes before a cut are a text, or a text and a part of a character.
-/

namespace Utf8

abbrev Bytes := List UInt8

/-- The bytes of a text. -/
def encode (text : List Char) : Bytes := text.flatMap String.utf8EncodeChar

/-- Decoding with fuel: every character takes a byte. -/
def decodeFrom : ℕ → Bytes → Option (List Char)
  | _, [] => some []
  | 0, _ :: _ => none
  | n + 1, byte :: bytes =>
    match (byte :: bytes).toByteArray.utf8DecodeChar? 0 with
    | none => none
    | some c => (decodeFrom n ((byte :: bytes).drop c.utf8Size)).map (c :: ·)

/-- The text of some bytes, if they are one. -/
def decode (bytes : Bytes) : Option (List Char) := decodeFrom bytes.length bytes

theorem encode_nil : encode [] = [] := rfl

theorem encode_cons (c : Char) (text : List Char) : encode (c :: text) = String.utf8EncodeChar c ++ encode text :=
  List.flatMap_cons

theorem encode_append (text text' : List Char) : encode (text ++ text') = encode text ++ encode text' :=
  List.flatMap_append

/-! ### Decoding -/

theorem length_pos (c : Char) : 0 < (String.utf8EncodeChar c).length := by
  rw [String.length_utf8EncodeChar]
  exact c.utf8Size_pos

/-- The first character is read off the bytes. -/
theorem decodeChar_append (c : Char) (rest : Bytes) :
    (String.utf8EncodeChar c ++ rest).toByteArray.utf8DecodeChar? 0 = some c := by
  rw [List.toByteArray_append]
  exact ByteArray.utf8DecodeChar?_utf8EncodeChar_append

theorem decodeFrom_encode (text : List Char) : ∀ n, (encode text).length ≤ n →
    decodeFrom n (encode text) = some text := by
  induction text with
  | nil =>
      intro n _
      cases n <;> rfl
  | cons c text ih =>
      intro n hn
      rw [encode_cons] at hn ⊢
      have hpos := length_pos c
      rw [List.length_append] at hn
      cases n with
      | zero => omega
      | succ n =>
          cases hbytes : String.utf8EncodeChar c ++ encode text with
          | nil => simp_all
          | cons byte bytes =>
              rw [decodeFrom, ← hbytes, decodeChar_append]
              have hdrop : (String.utf8EncodeChar c ++ encode text).drop c.utf8Size = encode text := by
                rw [← String.length_utf8EncodeChar]
                exact List.drop_left
              simp only [hdrop, ih n (by omega), Option.map_some]

theorem decode_encode (text : List Char) : decode (encode text) = some text :=
  decodeFrom_encode text _ (Nat.le_refl _)

theorem encode_decodeFrom : ∀ (n : ℕ) (bytes : Bytes) (text : List Char), decodeFrom n bytes = some text →
    encode text = bytes := by
  intro n
  induction n with
  | zero =>
      intro bytes text h
      cases bytes with
      | nil =>
          cases h
          rfl
      | cons byte bytes => cases h
  | succ n ih =>
      intro bytes text h
      cases bytes with
      | nil =>
          cases h
          rfl
      | cons byte bytes =>
          rw [decodeFrom] at h
          cases hchar : (byte :: bytes).toByteArray.utf8DecodeChar? 0 with
          | none =>
              rw [hchar] at h
              cases h
          | some c =>
              rw [hchar] at h
              obtain ⟨text', hrest, rfl⟩ := Option.map_eq_some_iff.mp h
              rw [encode_cons, ih _ _ hrest]
              have hfirst := congrArg (fun b : ByteArray => b.data.toList)
                (String.toByteArray_utf8EncodeChar_of_utf8DecodeChar?_eq_some hchar)
              have htake : String.utf8EncodeChar c = (byte :: bytes).take c.utf8Size := by
                simpa [ByteArray.data_extract] using hfirst
              rw [htake]
              exact List.take_append_drop _ _

theorem encode_of_decode {bytes : Bytes} {text : List Char} (h : decode bytes = some text) : encode text = bytes :=
  encode_decodeFrom _ _ _ h

/-! ### The bytes of a character -/

theorem forall_bytes {P : UInt8 → Prop} (h : ∀ b : BitVec 8, P (UInt8.ofBitVec b)) (x : UInt8) : P x := h x.toBitVec

/-- The number of bytes after the first. -/
def following (lead : UInt8) : ℕ :=
  if lead < 128 then 0 else if lead < 224 then 1 else if lead < 240 then 2 else 3

theorem following_two : ∀ x : UInt8, following (x &&& 0x1f ||| 0xc0) = 1 :=
  forall_bytes (by decide +kernel)

theorem following_three : ∀ x : UInt8, following (x &&& 0x0f ||| 0xe0) = 2 :=
  forall_bytes (by decide +kernel)

theorem following_four : ∀ x : UInt8, following (x &&& 0x07 ||| 0xf0) = 3 :=
  forall_bytes (by decide +kernel)

theorem continuation_large : ∀ x : UInt8, 128 ≤ (x &&& 0x3f ||| 0x80) :=
  forall_bytes (by decide +kernel)

theorem following_small {x : UInt8} (h : x < 128) : following x = 0 := by
  rw [following, if_pos h]

/-- **The bytes of a character**: the first tells how many follow, and these are large. -/
theorem encodeChar_spec (c : Char) : ∃ lead tail, String.utf8EncodeChar c = lead :: tail ∧
    tail.length = following lead ∧ ∀ byte ∈ tail, 128 ≤ byte := by
  rcases c.utf8Size_eq with hsize | hsize | hsize | hsize
  · refine ⟨_, _, String.utf8EncodeChar_eq_singleton hsize, ?_, by simp⟩
    have hval := Char.utf8Size_eq_one_iff.mp hsize
    rw [UInt32.le_iff_toNat_le] at hval
    rw [following_small]
    · rfl
    · rw [UInt8.lt_iff_toNat_lt, UInt32.toNat_toUInt8]
      have hmod := Nat.mod_le c.val.toNat (2 ^ 8)
      have hbound : (127 : UInt32).toNat = 127 := rfl
      show _ < 128
      omega
  · refine ⟨_, _, String.utf8EncodeChar_eq_cons_cons hsize, ?_, ?_⟩
    · rw [following_two]
      rfl
    · simp [continuation_large]
  · refine ⟨_, _, String.utf8EncodeChar_eq_cons_cons_cons hsize, ?_, ?_⟩
    · rw [following_three]
      rfl
    · simp [continuation_large]
  · refine ⟨_, _, String.utf8EncodeChar_eq_cons_cons_cons_cons hsize, ?_, ?_⟩
    · rw [following_four]
      rfl
    · simp [continuation_large]

/-- A small byte of a character is all of it. -/
theorem eq_singleton_of_mem {c : Char} {byte : UInt8} (hsmall : byte < 128) (h : byte ∈ String.utf8EncodeChar c) :
    String.utf8EncodeChar c = [byte] := by
  obtain ⟨lead, tail, hbytes, hlength, hlarge⟩ := encodeChar_spec c
  rw [hbytes] at h ⊢
  rcases List.mem_cons.mp h with rfl | hin
  · rw [following_small hsmall] at hlength
    rw [List.length_eq_zero_iff.mp hlength]
  · have hge := hlarge byte hin
    rw [UInt8.le_iff_toNat_le] at hge
    rw [UInt8.lt_iff_toNat_lt] at hsmall
    omega

/-! ### Cuts -/

/-- Bytes that stop inside a character. -/
def Torn (bytes : Bytes) : Prop :=
  ∃ text part c, bytes = encode text ++ part ∧ part ≠ [] ∧ part <+: String.utf8EncodeChar c ∧
    part.length < (String.utf8EncodeChar c).length

/-- **A cut** leaves a text or stops inside a character. -/
theorem take_encode (text : List Char) (k : ℕ) :
    (∃ before, before <+: text ∧ (encode text).take k = encode before) ∨ Torn ((encode text).take k) := by
  induction text generalizing k with
  | nil => exact Or.inl ⟨[], List.nil_prefix, by rw [encode_nil, List.take_nil]⟩
  | cons c text ih =>
      rw [encode_cons]
      rcases Nat.lt_or_ge k (String.utf8EncodeChar c).length with hinside | hpast
      · rw [List.take_append_of_le_length (by omega)]
        rcases Nat.eq_zero_or_pos k with rfl | hpos
        · exact Or.inl ⟨[], List.nil_prefix, by rw [List.take_zero, encode_nil]⟩
        · refine Or.inr ⟨[], _, c, rfl, ?_, List.take_prefix _ _, ?_⟩
          · intro hnil
            have hlength := congrArg List.length hnil
            rw [List.length_take, List.length_nil] at hlength
            omega
          · rw [List.length_take]
            omega
      · rw [List.take_append, List.take_of_length_le hpast]
        rcases ih (k - (String.utf8EncodeChar c).length) with ⟨before, hbefore, htake⟩ | ⟨before, part, c', htake, hpart⟩
        · refine Or.inl ⟨c :: before, ?_, by rw [htake, encode_cons]⟩
          obtain ⟨rest, rfl⟩ := hbefore
          exact ⟨rest, rfl⟩
        · exact Or.inr ⟨c :: before, part, c', by rw [htake, encode_cons, List.append_assoc], hpart⟩

/-- What follows a text in a text is a text. -/
theorem encode_cancel (text : List Char) : ∀ {text' : List Char} {rest : Bytes},
    encode text' = encode text ++ rest → ∃ text'', rest = encode text'' := by
  induction text with
  | nil =>
      intro text' rest h
      exact ⟨text', h.symm⟩
  | cons c text ih =>
      intro text' rest h
      rw [encode_cons, List.append_assoc] at h
      cases text' with
      | nil =>
          have hlength := congrArg List.length h
          have hpos := length_pos c
          rw [encode_nil, List.length_append, List.length_nil] at hlength
          omega
      | cons c' text' =>
          rw [encode_cons] at h
          have hchar : some c' = some c := by rw [← decodeChar_append c' (encode text'), h, decodeChar_append]
          obtain rfl := Option.some.inj hchar
          exact ih (List.append_cancel_left h)

/-- **Bytes that stop inside a character are no text**, whatever follows. -/
theorem decode_torn {bytes : Bytes} (h : Torn bytes) {rest : Bytes} (hrest : ∀ byte ∈ rest.head?, byte < 128) :
    decode (bytes ++ rest) = none := by
  obtain ⟨text, part, c, rfl, hnonempty, hprefix, hshort⟩ := h
  cases hdecode : decode (encode text ++ part ++ rest) with
  | none => rfl
  | some text' =>
      exfalso
      have hbytes := encode_of_decode hdecode
      rw [List.append_assoc] at hbytes
      obtain ⟨text'', htail⟩ := encode_cancel text hbytes
      cases text'' with
      | nil => exact hnonempty (List.append_eq_nil_iff.mp htail).1
      | cons c' text'' =>
          rw [encode_cons] at htail
          obtain ⟨lead, tail, hc, hlength, -⟩ := encodeChar_spec c
          obtain ⟨lead', tail', hc', hlength', hlarge⟩ := encodeChar_spec c'
          obtain ⟨after, hafter⟩ := hprefix
          rw [hc] at hafter hshort
          rw [hc', List.cons_append] at htail
          cases part with
          | nil => exact hnonempty rfl
          | cons first part =>
              -- the two characters have the same first byte, hence the same length
              rw [List.cons_append, List.cons.injEq] at hafter htail
              obtain ⟨rfl, hafter⟩ := hafter
              obtain ⟨rfl, htail⟩ := htail
              have hsame : part.length < tail'.length := by
                rw [List.length_cons, List.length_cons] at hshort
                omega
              have hbyte : (part ++ rest)[part.length]? = tail'[part.length]? := by
                rw [htail, List.getElem?_append_left hsame]
              rw [List.getElem?_append_right (Nat.le_refl _), Nat.sub_self, List.getElem?_eq_getElem hsame] at hbyte
              have hsmall := hrest (tail'[part.length]) (by rw [List.head?_eq_getElem?, hbyte]; rfl)
              have hge := hlarge _ (List.getElem_mem hsame)
              rw [UInt8.le_iff_toNat_le] at hge
              rw [UInt8.lt_iff_toNat_lt] at hsmall
              omega

end Utf8
