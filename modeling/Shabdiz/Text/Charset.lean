import Shabdiz.Text.URLCodec

/-!
# Charsets

A process writes characters as the bytes of its platform's charset, whatever that is. Its output is
read in another one: as UTF-8, or with a character for each byte. ASCII is read back either way.

## Main definitions

* `byteChar` — a byte taken for a character
* `Charset`, `DelimitedCharset` — the charsets of platforms
* `UTF8Decoder` — a decoder of UTF-8 that puts replacement characters for what is no UTF-8

## Main results

* `Charset.readsBack_of_ascii`, `Charset.count_map_byteChar` — bytes read one by one
* `UTF8Decoder.bytewise` — there is such a decoder
* `UTF8Decoder.count_decode` — an ASCII character is decoded as often as its byte is there
* `DelimitedCharset.count_decode_bytes` — a delimiter is read as often as it was written
-/

namespace Shabdiz

/-! ### Bytes as characters -/

/-- A byte taken for a character. -/
def byteChar (b : UInt8) : Char := Char.ofUInt8 b

theorem toNat_byteChar (b : UInt8) : (byteChar b).toNat = b.toNat :=
  b.toNat_toUInt32

theorem byteChar_ofNat {c : Char} (h : c.toNat < 128) : byteChar (UInt8.ofNat c.toNat) = c := by
  have hnat : (byteChar (UInt8.ofNat c.toNat)).toNat = c.toNat := by
    rw [toNat_byteChar, UInt8.toNat_ofNat_of_lt' (by simp [UInt8.size]; omega)]
  exact Char.toNat_inj.mp hnat

/-! ### Charsets that extend ASCII -/

/-- A charset that extends ASCII: every other character gives bytes outside ASCII, or the byte of
`?` when the charset does not have it. -/
structure Charset where
  /-- The bytes of a character. -/
  encode : Char → List UInt8
  encode_ascii : ∀ c : Char, c.toNat < 128 → encode c = [UInt8.ofNat c.toNat]
  encode_other : ∀ c : Char, 128 ≤ c.toNat → ∀ b ∈ encode c, 128 ≤ b.toNat ∨ b = 63

/-- The bytes of a text. -/
def Charset.bytes (cs : Charset) (s : List Char) : List UInt8 :=
  s.flatMap cs.encode

/-- The texts that read the same from their bytes. -/
def Charset.ReadsBack (cs : Charset) (id : List Char) : Prop :=
  (cs.bytes id).map byteChar = id

namespace Charset

variable {cs : Charset} {s t : List Char}

theorem bytes_append (cs : Charset) (s t : List Char) :
    cs.bytes (s ++ t) = cs.bytes s ++ cs.bytes t :=
  List.flatMap_append

/-- ASCII reads back. -/
theorem readsBack_of_ascii (cs : Charset) (h : ∀ c ∈ s, c.toNat < 128) : cs.ReadsBack s := by
  induction s with
  | nil => rfl
  | cons c s ih =>
    rw [List.forall_mem_cons] at h
    have hs : (cs.bytes s).map byteChar = s := ih h.2
    rw [ReadsBack, bytes, List.flatMap_cons, cs.encode_ascii c h.1, List.singleton_append,
      List.map_cons, byteChar_ofNat h.1]
    exact congrArg _ hs

/-- An ASCII character other than `?` is read as often as it was printed. -/
theorem count_map_byteChar (cs : Charset) {d : Char} (hd : d.toNat < 128) (hq : d ≠ '?')
    (s : List Char) : ((cs.bytes s).map byteChar).count d = s.count d := by
  induction s with
  | nil => rfl
  | cons c s ih =>
    have hsplit : cs.bytes (c :: s) = cs.encode c ++ cs.bytes s := List.flatMap_cons
    rw [hsplit, List.map_append, List.count_append, ih, List.count_cons, Nat.add_comm]
    congr 1
    obtain hc | hc := Nat.lt_or_ge c.toNat 128
    · rw [cs.encode_ascii c hc, List.map_singleton, byteChar_ofNat hc, List.count_singleton]
    · have hne : ∀ e ∈ (cs.encode c).map byteChar, e ≠ d := by
        intro e he
        obtain ⟨b, hb, rfl⟩ := List.mem_map.mp he
        obtain hb | rfl := cs.encode_other c hc b hb
        · intro heq
          rw [← heq, toNat_byteChar] at hd
          omega
        · intro heq
          exact hq heq.symm
      have hcd : c ≠ d := by
        rintro rfl
        omega
      rw [List.count_eq_zero.mpr fun hmem => hne d hmem rfl, if_neg (by simpa using hcd)]

theorem mem_map_byteChar_iff (cs : Charset) {d : Char} (hd : d.toNat < 128) (hq : d ≠ '?')
    (s : List Char) : d ∈ (cs.bytes s).map byteChar ↔ d ∈ s := by
  rw [← List.count_pos_iff, count_map_byteChar cs hd hq, List.count_pos_iff]

theorem byteChar_ne_of_mem_bytes (cs : Charset) {d : Char} (hd : d.toNat < 128) (hq : d ≠ '?')
    (hs : d ∉ s) {b : UInt8} (hb : b ∈ cs.bytes s) : byteChar b ≠ d := by
  rintro rfl
  exact hs ((cs.mem_map_byteChar_iff hd hq s).mp (List.mem_map_of_mem hb))

/-- A character outside ASCII has no byte in ASCII. -/
theorem le_toNat_of_mem_utf8EncodeChar {c : Char} {b : UInt8} (hc : 128 ≤ c.toNat)
    (hb : b ∈ String.utf8EncodeChar c) : 128 ≤ b.toNat := by
  have hval : ¬ c.val.toNat ≤ 127 := Nat.not_le_of_lt hc
  rw [String.utf8EncodeChar, if_neg hval] at hb
  split at hb
  · simp only [List.mem_cons, List.not_mem_nil, or_false] at hb
    obtain rfl | rfl := hb <;> rw [UInt8.toNat_ofNat'] <;> omega
  · split at hb
    · simp only [List.mem_cons, List.not_mem_nil, or_false] at hb
      obtain rfl | rfl | rfl := hb <;> rw [UInt8.toNat_ofNat'] <;> omega
    · simp only [List.mem_cons, List.not_mem_nil, or_false] at hb
      obtain rfl | rfl | rfl | rfl := hb <;> rw [UInt8.toNat_ofNat'] <;> omega

/-- UTF-8. -/
def utf8 : Charset where
  encode := String.utf8EncodeChar
  encode_ascii c hc := by
    have hval : c.val.toNat ≤ 127 := Nat.le_of_lt_succ hc
    rw [String.utf8EncodeChar, if_pos hval]
    rfl
  encode_other _ hc _ hb := Or.inl (le_toNat_of_mem_utf8EncodeChar hc hb)

/-- ISO 8859-1. -/
def latin1 : Charset where
  encode c := if c.toNat < 256 then [UInt8.ofNat c.toNat] else [63]
  encode_ascii c hc := if_pos (by omega)
  encode_other c hc b hb := by
    split at hb
    · rw [List.mem_singleton.mp hb, UInt8.toNat_ofNat']
      omega
    · exact Or.inr (List.mem_singleton.mp hb)

end Charset

/-- A charset that extends ASCII and writes the byte of the delimiter `d` for nothing but `d`. Other
bytes of ASCII may be a part of what it writes for other characters. -/
structure DelimitedCharset (d : Char) where
  /-- The bytes of a character. -/
  encode : Char → List UInt8
  encode_ascii : ∀ c : Char, c.toNat < 128 → encode c = [UInt8.ofNat c.toNat]
  encode_other : ∀ c : Char, 128 ≤ c.toNat → UInt8.ofNat d.toNat ∉ encode c

/-- Where no other character gives bytes of ASCII but `?`, any other ASCII delimiter will do. -/
@[simps]
def Charset.delimited (cs : Charset) (d : Char) (hd : d.toNat < 128) (hq : d ≠ '?') :
    DelimitedCharset d where
  encode := cs.encode
  encode_ascii := cs.encode_ascii
  encode_other c hc hmem := by
    have hval : (UInt8.ofNat d.toNat).toNat = d.toNat := by
      rw [← toNat_byteChar, byteChar_ofNat hd]
    obtain hb | hb := cs.encode_other c hc _ hmem
    · omega
    · rw [hb] at hval
      exact hq (Char.toNat_inj.mp hval.symm)

/-! ### UTF-8 -/

/-- A decoder of UTF-8 that puts replacement characters for bytes that are no UTF-8, one for each or
one for several of them. A byte of ASCII is never a part of these. -/
structure UTF8Decoder where
  /-- The text of a sequence of bytes. -/
  decode : List UInt8 → List Char
  decode_nil : decode [] = []
  decode_char : ∀ (c : Char) (bs : List UInt8),
    decode (String.utf8EncodeChar c ++ bs) = c :: decode bs
  decode_ascii : ∀ (w : List UInt8) (b : UInt8) (bs : List UInt8), b.toNat < 128 →
    decode (w ++ b :: bs) = decode w ++ byteChar b :: decode bs
  decode_other : ∀ w : List UInt8, (∀ b ∈ w, 128 ≤ b.toNat) → ∀ c ∈ decode w, 128 ≤ c.toNat

namespace UTF8Decoder

variable {dec : UTF8Decoder} {d : Char}

/-- The text of what is written in UTF-8. -/
theorem decode_utf8 (dec : UTF8Decoder) (s : List Char) :
    dec.decode (Charset.utf8.bytes s) = s := by
  induction s with
  | nil => exact dec.decode_nil
  | cons c s ih =>
    have hsplit : Charset.utf8.bytes (c :: s) =
        String.utf8EncodeChar c ++ Charset.utf8.bytes s := List.flatMap_cons
    rw [hsplit, dec.decode_char, ih]

/-- Bytes outside ASCII have no ASCII character in their text, whatever bytes follow. -/
theorem count_decode_append (dec : UTF8Decoder) (hd : d.toNat < 128) {w : List UInt8}
    (hw : ∀ b ∈ w, 128 ≤ b.toNat) (bs : List UInt8) :
    (dec.decode (w ++ bs)).count d = bs.count (UInt8.ofNat d.toNat) := by
  induction bs generalizing w with
  | nil =>
    rw [List.append_nil, List.count_nil, List.count_eq_zero]
    intro hmem
    have := dec.decode_other w hw d hmem
    omega
  | cons b bs ih =>
    obtain hb | hb := Nat.lt_or_ge b.toNat 128
    · have hhead : (dec.decode w).count d = 0 := by
        simpa using List.count_eq_zero.mpr fun hmem =>
          absurd (dec.decode_other w hw d hmem) (by omega)
      have hrest : (dec.decode bs).count d = bs.count (UInt8.ofNat d.toNat) :=
        ih (w := []) (by simp)
      have hiff : byteChar b = d ↔ b = UInt8.ofNat d.toNat := by
        constructor
        · rintro rfl
          rw [toNat_byteChar, UInt8.ofNat_toNat]
        · rintro rfl
          exact byteChar_ofNat hd
      rw [dec.decode_ascii w b bs hb, List.count_append, hhead, List.count_cons, List.count_cons,
        hrest, Nat.zero_add]
      simp only [beq_iff_eq, hiff]
    · have hne : b ≠ UInt8.ofNat d.toNat := by
        rintro rfl
        rw [← toNat_byteChar, byteChar_ofNat hd] at hb
        omega
      have hw' : ∀ x ∈ w ++ [b], 128 ≤ x.toNat := by
        intro x hx
        obtain hx | hx := List.mem_append.mp hx
        · exact hw x hx
        · rwa [List.mem_singleton.mp hx]
      rw [List.append_cons, ih hw', List.count_cons_of_ne hne]

/-- **An ASCII character is read as often as its byte is there.** -/
theorem count_decode (dec : UTF8Decoder) (hd : d.toNat < 128) (bs : List UInt8) :
    (dec.decode bs).count d = bs.count (UInt8.ofNat d.toNat) :=
  dec.count_decode_append hd (w := []) (by simp) bs

end UTF8Decoder

/-! ### Decoding byte by byte -/

/-- The text of bytes begins with the character that they begin with, or else with a replacement
character for the first of them. -/
theorem utf8Text_cases (b : UInt8) (bs : List UInt8) :
    (∃ c rest, b :: bs = String.utf8EncodeChar c ++ rest ∧
        utf8Text (b :: bs) = c :: utf8Text rest) ∨
      (∀ c rest, b :: bs ≠ String.utf8EncodeChar c ++ rest) ∧
        utf8Text (b :: bs) = '\uFFFD' :: utf8Text bs := by
  cases hdec : (b :: bs).toByteArray.utf8DecodeChar? 0 with
  | some c =>
    obtain ⟨rest, hrest⟩ := ByteArray.exists_of_utf8DecodeChar?_eq_some hdec
    have hlist : b :: bs = String.utf8EncodeChar c ++ rest.data.toList := by
      simpa using congrArg (fun x => x.data.toList) hrest
    exact Or.inl ⟨c, rest.data.toList, hlist, by rw [hlist, utf8Text_encodeChar]⟩
  | none =>
    refine Or.inr ⟨fun c rest heq => ?_, ?_⟩
    · rw [heq, List.toByteArray_append, ByteArray.utf8DecodeChar?_utf8EncodeChar_append] at hdec
      cases hdec
    · rw [utf8Text, hdec]

/-- A byte of ASCII ends what comes before it. -/
theorem utf8Text_ascii (w : List UInt8) {b : UInt8} (bs : List UInt8) (hb : b.toNat < 128) :
    utf8Text (w ++ b :: bs) = utf8Text w ++ byteChar b :: utf8Text bs := by
  induction hn : w.length using Nat.strongRecOn generalizing w with
  | _ n ih =>
    have hchar : String.utf8EncodeChar (byteChar b) = [b] := by
      have hascii := Charset.utf8.encode_ascii (byteChar b) (by rwa [toNat_byteChar])
      rwa [toNat_byteChar, UInt8.ofNat_toNat] at hascii
    cases w with
    | nil =>
      have hread := utf8Text_encodeChar (byteChar b) bs
      rw [hchar, List.singleton_append] at hread
      rw [List.nil_append, hread, utf8Text, List.nil_append]
    | cons x w =>
      obtain ⟨c, rest, heq, htext⟩ | ⟨hno, htext⟩ := utf8Text_cases x (w ++ b :: bs)
      · obtain ⟨w', hw, rfl⟩ : ∃ w', x :: w = String.utf8EncodeChar c ++ w' ∧
            rest = w' ++ b :: bs := by
          obtain ⟨t, henc, hrest⟩ | ⟨w', hw, rfl⟩ :=
            List.append_eq_append_iff.mp (List.cons_append ▸ heq)
          · cases t with
            | nil => exact ⟨[], by rw [henc, List.append_nil, List.append_nil], hrest.symm⟩
            | cons y t =>
              obtain rfl := (List.cons.inj hrest).1
              obtain hc | hc := Nat.lt_or_ge c.toNat 128
              · have hlen := congrArg List.length henc
                have hone : (String.utf8EncodeChar c).length = 1 :=
                  congrArg List.length (Charset.utf8.encode_ascii c hc)
                simp only [hone, List.length_append, List.length_cons] at hlen
                omega
              · have := Charset.le_toNat_of_mem_utf8EncodeChar hc (b := b) (by simp [henc])
                omega
          · exact ⟨w', hw, rfl⟩
        rw [List.cons_append, htext, hw, utf8Text_encodeChar, List.cons_append]
        refine congrArg (c :: ·) (ih w'.length ?_ w' rfl)
        have hlen := congrArg List.length hw
        rw [List.length_append, String.length_utf8EncodeChar] at hlen
        have := c.utf8Size_pos
        omega
      · have hno' (c : Char) (rest : List UInt8) : x :: w ≠ String.utf8EncodeChar c ++ rest := by
          intro heq
          refine hno c (rest ++ b :: bs) ?_
          rw [← List.append_assoc, ← heq, List.cons_append]
        obtain ⟨c, rest, heq, -⟩ | ⟨-, htext'⟩ := utf8Text_cases x w
        · exact absurd heq (hno' c rest)
        · rw [List.cons_append, htext, htext', ih w.length (by simp [← hn]) w rfl, List.cons_append]

/-- Bytes outside ASCII have no ASCII character in their text. -/
theorem le_toNat_of_mem_utf8Text {w : List UInt8} (hw : ∀ b ∈ w, 128 ≤ b.toNat) :
    ∀ c ∈ utf8Text w, 128 ≤ c.toNat := by
  induction hn : w.length using Nat.strongRecOn generalizing w with
  | _ n ih =>
    cases w with
    | nil => simp [utf8Text]
    | cons x w =>
      obtain ⟨c, rest, heq, htext⟩ | ⟨-, htext⟩ := utf8Text_cases x w
      · rw [htext, List.forall_mem_cons]
        constructor
        · by_contra hc
          have hx : x :: w = UInt8.ofNat c.toNat :: rest := by
            rw [heq, ← List.singleton_append]
            exact congrArg (· ++ rest) (Charset.utf8.encode_ascii c (by omega))
          have := hw x List.mem_cons_self
          rw [(List.cons.inj hx).1, ← toNat_byteChar, byteChar_ofNat (by omega)] at this
          omega
        · have hlen := congrArg List.length heq
          rw [List.length_append, String.length_utf8EncodeChar, hn] at hlen
          have := c.utf8Size_pos
          exact ih rest.length (by omega)
            (fun b hb => hw b (heq ▸ List.mem_append_right _ hb)) rfl
      · rw [htext, List.forall_mem_cons]
        refine ⟨by decide, ih w.length (by simp [← hn]) (fun b hb => ?_) rfl⟩
        exact hw b (List.mem_cons_of_mem _ hb)

/-- The decoder with a replacement character for each byte. -/
def UTF8Decoder.bytewise : UTF8Decoder where
  decode := utf8Text
  decode_nil := by rw [utf8Text]
  decode_char := utf8Text_encodeChar
  decode_ascii w _ bs hb := utf8Text_ascii w bs hb
  decode_other _ := le_toNat_of_mem_utf8Text

/-! ### Delimiters -/

namespace DelimitedCharset

variable {d : Char} {cs : DelimitedCharset d} {s t : List Char}

/-- The bytes of a text. -/
def bytes (cs : DelimitedCharset d) (s : List Char) : List UInt8 :=
  s.flatMap cs.encode

theorem bytes_append (cs : DelimitedCharset d) (s t : List Char) :
    cs.bytes (s ++ t) = cs.bytes s ++ cs.bytes t :=
  List.flatMap_append

theorem bytes_cons (cs : DelimitedCharset d) (c : Char) (s : List Char) :
    cs.bytes (c :: s) = cs.encode c ++ cs.bytes s :=
  List.flatMap_cons

/-- An ASCII character between two texts is read between them. -/
theorem decode_ascii (dec : UTF8Decoder) (cs : DelimitedCharset d) {c : Char} (hc : c.toNat < 128)
    (w bs : List UInt8) :
    dec.decode (w ++ (cs.encode c ++ bs)) = dec.decode w ++ c :: dec.decode bs := by
  have hval : (UInt8.ofNat c.toNat).toNat = c.toNat := by
    rw [← toNat_byteChar, byteChar_ofNat hc]
  rw [cs.encode_ascii c hc, List.singleton_append, dec.decode_ascii _ _ _ (by omega),
    byteChar_ofNat hc]

/-- ASCII is read back. -/
theorem decode_bytes_of_ascii (dec : UTF8Decoder) (cs : DelimitedCharset d)
    (h : ∀ c ∈ s, c.toNat < 128) : dec.decode (cs.bytes s) = s := by
  induction s with
  | nil => exact dec.decode_nil
  | cons c s ih =>
    rw [List.forall_mem_cons] at h
    have hread := cs.decode_ascii dec h.1 [] (cs.bytes s)
    rw [List.nil_append, dec.decode_nil, List.nil_append, ih h.2] at hread
    rw [bytes_cons, hread]

theorem count_bytes (cs : DelimitedCharset d) (hd : d.toNat < 128) (s : List Char) :
    (cs.bytes s).count (UInt8.ofNat d.toNat) = s.count d := by
  induction s with
  | nil => rfl
  | cons c s ih =>
    rw [bytes_cons, List.count_append, ih, List.count_cons, Nat.add_comm]
    congr 1
    obtain hc | hc := Nat.lt_or_ge c.toNat 128
    · have hiff : UInt8.ofNat c.toNat = UInt8.ofNat d.toNat ↔ c = d := by
        constructor
        · intro h
          rw [← byteChar_ofNat hc, h, byteChar_ofNat hd]
        · rintro rfl
          rfl
      rw [cs.encode_ascii c hc, List.count_singleton]
      simp only [beq_iff_eq, hiff]
    · have hne : c ≠ d := by
        rintro rfl
        omega
      rw [List.count_eq_zero.mpr (cs.encode_other c hc), if_neg (by simpa using hne)]

/-- **The delimiter is read as often as it was written.** -/
theorem count_decode_bytes (dec : UTF8Decoder) (cs : DelimitedCharset d) (hd : d.toNat < 128)
    (s : List Char) : (dec.decode (cs.bytes s)).count d = s.count d := by
  rw [dec.count_decode hd, count_bytes cs hd]

end DelimitedCharset

end Shabdiz
