import Mathlib.Data.List.Basic

/-!
# The URL encoding of a text

`URLEncoder.encode` keeps letters, digits and `.`, `-`, `*`, `_`, turns a space into `+`, and every
other character into its UTF-8 bytes, each as `%` and two hexadecimal digits. `URLDecoder.decode`
turns `+` into a space, collects the bytes of neighbouring escapes and decodes them together, with
the replacement character for bytes that are not UTF-8, and refuses an escape that is not complete.

## Main definitions

* `URLEncoder.encode`, `URLDecoder.decode` — the two methods, with UTF-8
* `URLEncoder.isEncoded` — the characters an encoded text can have

## Main results

* `URLDecoder.decode_encoded` — decoding undoes encoding
* `URLEncoder.isEncoded_of_mem_encode` — what an encoded text consists of
* `URLDecoder.eq_nil_of_decode` — only the empty text decodes to the empty text
-/

namespace Shabdiz

/-! ### Hexadecimal digits -/

/-- The hexadecimal digit of a number below sixteen, in capitals. -/
def hexDigit (n : ℕ) : Char :=
  if n < 10 then Char.ofNat (48 + n) else Char.ofNat (55 + n)

/-- The number of a hexadecimal digit, capital or small. -/
def hexValue (c : Char) : Option ℕ :=
  if '0' ≤ c ∧ c ≤ '9' then some (c.toNat - 48)
  else if 'A' ≤ c ∧ c ≤ 'F' then some (c.toNat - 55)
  else if 'a' ≤ c ∧ c ≤ 'f' then some (c.toNat - 87)
  else none

theorem hexValue_hexDigit : ∀ n < 16, hexValue (hexDigit n) = some n := by
  decide

/-! ### Encoding -/

namespace URLEncoder

/-- The characters that stay as they are. -/
def isSafe (c : Char) : Bool :=
  ('a' ≤ c && c ≤ 'z') || ('A' ≤ c && c ≤ 'Z') || ('0' ≤ c && c ≤ '9') ||
    c = '.' || c = '-' || c = '*' || c = '_'

/-- The escape of a byte. -/
def escape (b : UInt8) : List Char :=
  ['%', hexDigit (b.toNat / 16), hexDigit (b.toNat % 16)]

/-- The encoding of one character: itself, a plus sign, or its bytes in UTF-8. -/
def encodeChar (c : Char) : List Char :=
  if isSafe c then [c]
  else if c = ' ' then ['+']
  else (String.utf8EncodeChar c).flatMap escape

/-- `URLEncoder.encode` with UTF-8. -/
def encode (s : List Char) : List Char :=
  s.flatMap encodeChar

/-- The characters of an encoded text. -/
def isEncoded (c : Char) : Bool :=
  isSafe c || c = '+' || c = '%'

theorem isSafe_hexDigit : ∀ n < 16, isSafe (hexDigit n) = true := by
  decide

theorem isEncoded_of_mem_escape {b : UInt8} {c : Char} (h : c ∈ escape b) :
    isEncoded c = true := by
  have hb : b.toNat < 256 := b.toNat_lt
  simp only [escape, List.mem_cons, List.not_mem_nil, or_false] at h
  obtain rfl | rfl | rfl := h
  · rfl
  · rw [isEncoded, isSafe_hexDigit _ (by omega)]
    rfl
  · rw [isEncoded, isSafe_hexDigit _ (by omega)]
    rfl

/-- **An encoded text** has nothing but letters, digits and `.`, `-`, `*`, `_`, `+`, `%`. -/
theorem isEncoded_of_mem_encode {s : List Char} {c : Char} (h : c ∈ encode s) :
    isEncoded c = true := by
  obtain ⟨a, -, ha⟩ := List.mem_flatMap.mp h
  rw [encodeChar] at ha
  split at ha
  · next hsafe =>
    obtain rfl := List.mem_singleton.mp ha
    rw [isEncoded, hsafe]
    rfl
  · split at ha
    · obtain rfl := List.mem_singleton.mp ha
      rfl
    · obtain ⟨b, -, hb⟩ := List.mem_flatMap.mp ha
      exact isEncoded_of_mem_escape hb

theorem encode_nil : encode [] = [] := rfl

theorem encode_cons (c : Char) (s : List Char) : encode (c :: s) = encodeChar c ++ encode s :=
  List.flatMap_cons

end URLEncoder

/-! ### Decoding -/

/-- The text of a sequence of UTF-8 bytes; a byte that begins no character gives the replacement
character. -/
def utf8Text (bs : List UInt8) : List Char :=
  match bs with
  | [] => []
  | b :: bs =>
    match (b :: bs).toByteArray.utf8DecodeChar? 0 with
    | some c => c :: utf8Text ((b :: bs).drop c.utf8Size)
    | none => '\uFFFD' :: utf8Text bs
termination_by bs.length
decreasing_by
  · have := c.utf8Size_pos
    simp only [List.length_drop, List.length_cons]
    omega
  · simp only [List.length_cons]
    omega

theorem utf8Text_encodeChar (c : Char) (bs : List UInt8) :
    utf8Text (String.utf8EncodeChar c ++ bs) = c :: utf8Text bs := by
  have hlen : (String.utf8EncodeChar c).length = c.utf8Size := String.length_utf8EncodeChar c
  have hdec : (String.utf8EncodeChar c ++ bs).toByteArray.utf8DecodeChar? 0 = some c := by
    rw [List.toByteArray_append, ByteArray.utf8DecodeChar?_utf8EncodeChar_append]
  have hdrop : (String.utf8EncodeChar c ++ bs).drop c.utf8Size = bs := by
    rw [← hlen, List.drop_left]
  obtain ⟨b, t, hbt⟩ := List.exists_cons_of_length_pos (l := String.utf8EncodeChar c ++ bs) (by
    have := c.utf8Size_pos
    rw [List.length_append]
    omega)
  rw [hbt] at hdec hdrop ⊢
  rw [utf8Text, hdec]
  simp only [hdrop]

/-- The bytes of a text decode to it. -/
theorem utf8Text_flatMap (t : List Char) : utf8Text (t.flatMap String.utf8EncodeChar) = t := by
  induction t with
  | nil =>
    rw [List.flatMap_nil, utf8Text]
  | cons c t ih => rw [List.flatMap_cons, utf8Text_encodeChar, ih]

theorem eq_nil_of_utf8Text {bs : List UInt8} (h : utf8Text bs = []) : bs = [] := by
  cases bs with
  | nil => rfl
  | cons b bs =>
    rw [utf8Text] at h
    split at h <;> exact absurd h (List.cons_ne_nil _ _)

namespace URLDecoder

/-- Decode a text, with the bytes of the escapes just before it. -/
def decodeFrom (bytes : List UInt8) : List Char → Option (List Char)
  | [] => some (utf8Text bytes)
  | '+' :: s => (utf8Text bytes ++ ' ' :: ·) <$> decodeFrom [] s
  | '%' :: a :: b :: s =>
    match hexValue a, hexValue b with
    | some x, some y => decodeFrom (bytes ++ [UInt8.ofNat (x * 16 + y)]) s
    | _, _ => none
  | '%' :: _ => none
  | c :: s => (utf8Text bytes ++ c :: ·) <$> decodeFrom [] s

/-- The decoded text; there is none, and the method throws, where an escape is not complete. -/
def decode (s : List Char) : Option (List Char) :=
  decodeFrom [] s

theorem decodeFrom_escape (bytes : List UInt8) (b : UInt8) (s : List Char) :
    decodeFrom bytes (URLEncoder.escape b ++ s) = decodeFrom (bytes ++ [b]) s := by
  have hb : b.toNat < 256 := b.toNat_lt
  have hval : b.toNat / 16 * 16 + b.toNat % 16 = b.toNat := by omega
  simp only [URLEncoder.escape, List.cons_append, List.nil_append]
  rw [decodeFrom, hexValue_hexDigit _ (by omega), hexValue_hexDigit _ (by omega)]
  simp only [hval, UInt8.ofNat_toNat]

theorem decodeFrom_escapes (bytes bs : List UInt8) (s : List Char) :
    decodeFrom bytes (bs.flatMap URLEncoder.escape ++ s) = decodeFrom (bytes ++ bs) s := by
  induction bs generalizing bytes with
  | nil => rw [List.flatMap_nil, List.nil_append, List.append_nil]
  | cons b bs ih =>
    rw [List.flatMap_cons, List.append_assoc, decodeFrom_escape, ih, List.append_assoc,
      List.singleton_append]

theorem decodeFrom_safe {c : Char} (h : URLEncoder.isSafe c = true) (bytes : List UInt8)
    (s : List Char) :
    decodeFrom bytes (c :: s) = (utf8Text bytes ++ c :: ·) <$> decodeFrom [] s := by
  rw [decodeFrom]
  · rintro rfl
    exact absurd h (by decide)
  · rintro a b s rfl
    exact absurd h (by decide)
  · rintro rfl
    exact absurd h (by decide)

/-- What was encoded is decoded, after the bytes of what came before it. -/
theorem decodeFrom_encode (t s : List Char) :
    decodeFrom (t.flatMap String.utf8EncodeChar) (URLEncoder.encode s) = some (t ++ s) := by
  induction s generalizing t with
  | nil =>
    rw [URLEncoder.encode_nil, decodeFrom, utf8Text_flatMap, List.append_nil]
  | cons c s ih =>
    have hs : decodeFrom [] (URLEncoder.encode s) = some s := ih []
    rw [URLEncoder.encode_cons, URLEncoder.encodeChar]
    split
    · next hsafe =>
      rw [List.singleton_append, decodeFrom_safe hsafe, hs, utf8Text_flatMap]
      rfl
    · split
      · next hspace =>
        rw [List.singleton_append, decodeFrom, hs, utf8Text_flatMap, hspace]
        rfl
      · have hc : t.flatMap String.utf8EncodeChar ++ String.utf8EncodeChar c =
            (t ++ [c]).flatMap String.utf8EncodeChar := by
          rw [List.flatMap_append, List.flatMap_singleton]
        rw [decodeFrom_escapes, hc, ih, List.append_assoc, List.singleton_append]

/-- **Decoding undoes encoding.** -/
theorem decode_encoded (s : List Char) : decode (URLEncoder.encode s) = some s :=
  decodeFrom_encode [] s

theorem eq_nil_of_decodeFrom {bytes : List UInt8} {s : List Char}
    (h : decodeFrom bytes s = some []) : bytes = [] ∧ s = [] := by
  fun_induction decodeFrom bytes s with
  | case1 bytes => exact ⟨eq_nil_of_utf8Text (Option.some.inj h), rfl⟩
  | case2 bytes s ih =>
    obtain ⟨t, -, ht⟩ := Option.map_eq_some_iff.mp h
    exact absurd ht (by simp)
  | case3 bytes a b s x y hx hy ih => exact absurd (ih h).1 (by simp)
  | case4 => exact absurd h (by simp)
  | case5 => exact absurd h (by simp)
  | case6 bytes c s _ _ _ ih =>
    obtain ⟨t, -, ht⟩ := Option.map_eq_some_iff.mp h
    exact absurd ht (by simp)

/-- Only the empty text decodes to the empty text. -/
theorem eq_nil_of_decode {s : List Char} (h : decode s = some []) : s = [] :=
  (eq_nil_of_decodeFrom h).2

end URLDecoder

/-- Different texts are encoded differently. -/
theorem URLEncoder.encode_injective : Function.Injective URLEncoder.encode := by
  intro s t h
  have hs := URLDecoder.decode_encoded s
  rw [h, URLDecoder.decode_encoded] at hs
  exact (Option.some.inj hs).symm

theorem URLEncoder.encode_eq_nil {s : List Char} : URLEncoder.encode s = [] ↔ s = [] := by
  constructor
  · intro h
    exact URLEncoder.encode_injective h
  · rintro rfl
    rfl

end Shabdiz
