import Shabdiz.Host.KeyValues
import Shabdiz.Text.Charset

/-!
# The properties of a bootstrap, from its output

A bootstrap prints its properties on a line of its own, its class name and the entries in braces,
and the launcher reads the output of the process for that line. The process encodes what it prints
with its platform's charset, whatever that is; the launcher reads bytes, and takes each byte for a
character. The line is found when the class name reads the same either way, as one in ASCII does.
Of the entries, only those are found again whose key and value are not empty.

## Main definitions

* `printProperties` — what the bootstrap prints
* `readLine`, `propertiesPattern`, `newProcessOutputScannerTask` — the launcher's side
* `IsPropertiesLine` — the line looked for

## Main results

* `fullMatch_propertiesPattern` — the text in the braces of a properties line
* `scannerTask_lines` — the task reads over other lines
* `scannerTask_printProperties`, `scannerTask_notReadBack` — what it makes of the printed line
* `scannerTask_printProperties_iff` — exactly the properties that are handed over
* `not_handed_over` — an empty value takes the next entry with it
-/

namespace Shabdiz

/-! ### The bootstrap -/

/-- The key of the property every bootstrap has. -/
def pidPropertyKey : List Char := ['p', 'i', 'd']

/-- The constructor's own call of `setProperty`, with the PID or with `null`. -/
def defaultProperty (pid : Option ℤ) : List Char × List Char :=
  (pidPropertyKey, match pid with
    | some n => (toString n).toList
    | none => ['n', 'u', 'l', 'l'])

/-- The class name and what `Properties.toString` prints, with the entries in the order of its
iteration. -/
def getPropertiesAsString (id : List Char) (es : List (List Char × List Char)) : List Char :=
  id ++ '{' :: (entriesText es ++ ['}'])

/-- The bytes `printProperties` writes. -/
def printProperties (cs : Charset) (sep : LineSeparator) (id : List Char)
    (es : List (List Char × List Char)) : List UInt8 :=
  cs.bytes (getPropertiesAsString id es) ++ cs.bytes sep.chars

/-! ### The launcher -/

/-- Read to the end of a line, which is a line feed or a carriage return; at the end of the input,
also in the middle of a line, there is none, and the method throws. -/
def readLine : List UInt8 → Option (List Char × List UInt8)
  | [] => none
  | b :: input =>
    if byteChar b = '\n' ∨ byteChar b = '\r' then some ([], input)
    else (readLine input).map fun x => (byteChar b :: x.1, x.2)

theorem length_lt_of_readLine {input rest : List UInt8} {line : List Char}
    (h : readLine input = some (line, rest)) : rest.length < input.length := by
  induction input generalizing line with
  | nil => exact absurd h (by simp [readLine])
  | cons b input ih =>
    rw [readLine] at h
    split at h
    · obtain ⟨-, rfl⟩ := Prod.mk.inj (Option.some.inj h)
      exact Nat.lt_succ_self _
    · obtain ⟨⟨l, r⟩, hr, hx⟩ := Option.map_eq_some_iff.mp h
      obtain ⟨-, rfl⟩ := Prod.mk.inj hx
      exact Nat.lt_succ_of_lt (ih hr)

/-- The expression of the line looked for: the quoted class name, then `\{(.*)?\}`. -/
def propertiesPattern (id : List Char) : Regex Char :=
  .seq (.lit id) (.seq (.lit ['{']) (.seq (.opt (.group 1 (.star dot))) (.lit ['}'])))

/-- The task: read lines until one matches as a whole, and parse what is in its braces. The answer
to its `n`-th check whether it is interrupted is `interrupted n`. -/
def newProcessOutputScannerTask (id : List Char) (interrupted : ℕ → Bool) (n : ℕ)
    (input : List UInt8) : Except BootstrapException (Option Properties) :=
  if interrupted n then .error .interrupted
  else
    match _h : readLine input with
    | none => .error .eof
    | some (line, rest) =>
      match (propertiesPattern id).fullMatch line with
      | some cs => parseProperties (cs.lookup 1)
      | none => newProcessOutputScannerTask id interrupted (n + 1) rest
termination_by input.length
decreasing_by exact length_lt_of_readLine _h

/-- A line of the form `id{...}`. -/
def IsPropertiesLine (id line : List Char) : Prop :=
  ∃ text, line = id ++ '{' :: (text ++ ['}'])

/-! ### What is printed -/

section Printed

variable {cs : Charset} {sep : LineSeparator} {id : List Char}
  {calls es : List (List Char × List Char)}

/-- The characters of printed entries. -/
def isPlain (c : Char) : Bool :=
  URLEncoder.isEncoded c || c = '=' || c = ',' || c = ' '

theorem toNat_lt_of_isSafe {c : Char} (h : URLEncoder.isSafe c = true) : c.toNat < 128 := by
  simp only [URLEncoder.isSafe, Bool.or_eq_true, Bool.and_eq_true, decide_eq_true_eq, Char.le_def,
    UInt32.le_iff_toNat_le, or_assoc] at h
  have hz : 'z'.val.toNat = 122 := rfl
  have hZ : 'Z'.val.toNat = 90 := rfl
  have h9 : '9'.val.toNat = 57 := rfl
  change c.val.toNat < 128
  obtain h | h | h | rfl | rfl | rfl | rfl := h
  all_goals first | omega | decide

theorem toNat_lt_of_isPlain {c : Char} (h : isPlain c = true) : c.toNat < 128 := by
  simp only [isPlain, URLEncoder.isEncoded, Bool.or_eq_true, decide_eq_true_eq, or_assoc] at h
  obtain h | rfl | rfl | rfl | rfl | rfl := h
  · exact toNat_lt_of_isSafe h
  all_goals decide

/-- Printed entries have no brace and no line separator. -/
theorem isPlain_ne {c : Char} (h : isPlain c = true) : c ≠ '{' ∧ dot c = true := by
  have hall : ∀ n < 128, isPlain (Char.ofNat n) = true →
      Char.ofNat n ≠ '{' ∧ dot (Char.ofNat n) = true := by
    decide
  have hc := hall c.toNat (toNat_lt_of_isPlain h)
  rw [Char.ofNat_toNat] at hc
  exact hc h

theorem mem_intercalate {c : Char} {s : List Char} {ls : List (List Char)}
    (h : c ∈ s.intercalate ls) : c ∈ s ∨ ∃ l ∈ ls, c ∈ l := by
  induction ls with
  | nil => exact absurd h List.not_mem_nil
  | cons l ls ih =>
    obtain rfl | hne := eq_or_ne ls []
    · rw [List.intercalate_singleton] at h
      exact Or.inr ⟨l, List.mem_singleton_self l, h⟩
    · rw [List.intercalate_cons_of_ne_nil hne, List.append_assoc, List.mem_append,
        List.mem_append] at h
      obtain h | h | h := h
      · exact Or.inr ⟨l, List.mem_cons_self, h⟩
      · exact Or.inl h
      · obtain h | ⟨m, hm, h⟩ := ih h
        · exact Or.inl h
        · exact Or.inr ⟨m, List.mem_cons_of_mem _ hm, h⟩

theorem isPlain_of_mem_entriesText (h : (setProperties calls).ListedBy es) {c : Char}
    (hc : c ∈ entriesText es) : isPlain c = true := by
  obtain hc | ⟨l, hl, hc⟩ := mem_intercalate hc
  · simp only [List.mem_cons, List.not_mem_nil, or_false] at hc
    obtain rfl | rfl := hc <;> rfl
  · obtain ⟨⟨k, v⟩, he, rfl⟩ := List.mem_map.mp hl
    obtain ⟨a, b, -, hab⟩ := exists_of_lookup_setProperties ((h.mem_iff k v).mp he)
    obtain ⟨rfl, rfl⟩ := Prod.mk.inj hab
    have hencoded {s : List Char} (hs : c ∈ URLEncoder.encode s) : isPlain c = true := by
      rw [isPlain, URLEncoder.isEncoded_of_mem_encode hs]
      rfl
    obtain hc | hc := List.mem_append.mp hc
    · exact hencoded hc
    · obtain rfl | hc := List.mem_cons.mp hc
      · rfl
      · exact hencoded hc

/-- Texts that go on the same after the last of a character are the same up to it. -/
theorem eq_of_append_cons_eq {d : Char} {a b x y : List Char} (hx : d ∉ x) (hy : d ∉ y)
    (h : a ++ d :: x = b ++ d :: y) : a = b := by
  have hpieces (w z : List Char) (hz : d ∉ z) :
      (w ++ d :: z).splitOnP (· == d) = w.splitOnP (· == d) ++ [z] := by
    have hlast : z.splitOnP (· == d) = [z] :=
      List.splitOnP_eq_singleton fun c hc => beq_false_of_ne (ne_of_mem_of_not_mem hc hz)
    rw [List.splitOnP_append_cons (p := (· == d)) _ _ (beq_self_eq_true d), hlast]
  have hsplit := congrArg (List.splitOnP (· == d)) h
  rw [hpieces a x hx, hpieces b y hy] at hsplit
  obtain rfl : x = y := List.singleton_inj.mp (List.append_inj' hsplit rfl).2
  exact List.append_cancel_right h

/-- The printed line, read back, has the form of a properties line only if the class name is read
back. -/
theorem readsBack_of_isPropertiesLine (h : (setProperties calls).ListedBy es)
    (hline : IsPropertiesLine id
      ((cs.bytes id).map byteChar ++ '{' :: (entriesText es ++ ['}']))) :
    cs.ReadsBack id := by
  obtain ⟨text, htext⟩ := hline
  have hentries : '{' ∉ entriesText es ++ ['}'] := by
    intro hmem
    obtain hmem | hmem := List.mem_append.mp hmem
    · exact (isPlain_ne (isPlain_of_mem_entriesText h hmem)).1 rfl
    · exact absurd hmem (by decide)
  -- Both sides have the brace as often, and the class name has it as often as its bytes.
  have hcount := congrArg (List.count '{') htext
  rw [List.count_append, List.count_append, List.count_cons_self, List.count_cons_self,
    List.count_eq_zero.mpr hentries, cs.count_map_byteChar (by decide) (by decide)] at hcount
  have hno : '{' ∉ text ++ ['}'] := List.count_eq_zero.mp (by omega)
  exact eq_of_append_cons_eq hentries hno htext

theorem isPropertiesLine_of_mem_lang {line : List Char}
    (h : line ∈ (propertiesPattern id).lang) : IsPropertiesLine id line := by
  obtain ⟨_, rfl, _, ⟨_, rfl, _, ⟨x, -, _, rfl, rfl⟩, rfl⟩, rfl⟩ := h
  exact ⟨x, rfl⟩

/-- The text in the braces of a properties line is what the expression's group has. -/
theorem fullMatch_propertiesPattern {text : List Char} (h : ∀ c ∈ text, dot c = true) :
    (propertiesPattern id).fullMatch (id ++ '{' :: (text ++ ['}'])) = some [(1, text)] := by
  have hbrace : '{' :: (text ++ ['}']) = ['{'] ++ (text ++ ['}']) := rfl
  have hmem : text ++ ['}'] ∈ (Regex.seq (.group 1 (.star dot)) (.lit ['}'])).lang :=
    ⟨text, h, ['}'], rfl, rfl⟩
  rw [propertiesPattern, Regex.fullMatch_seq_lit, hbrace, Regex.fullMatch_seq_lit,
    Regex.fullMatch_seq_opt hmem]
  obtain ⟨cs, hcs⟩ :=
    Option.ne_none_iff_exists'.mp (mt Regex.fullMatch_eq_none_iff.mp (not_not_intro hmem))
  obtain ⟨⟨t, cu⟩, hu, hlit⟩ := Regex.mem_ways_seq.mp (Regex.mem_ways_of_fullMatch hcs)
  obtain ⟨ht, rfl⟩ := Regex.mem_ways_lit.mp hlit
  obtain ⟨w, -, cv, hv, hw, rfl⟩ := Regex.mem_ways_group hu
  obtain rfl : ['}'] = t := ht
  obtain rfl : w = text := List.append_cancel_right hw
  obtain ⟨u, -, hcv⟩ := List.mem_map.mp hv
  rw [hcs, ← (Prod.mk.inj hcv).2]

end Printed

/-! ### The task -/

section Task

variable {cs : Charset} {sep : LineSeparator} {id line : List Char} {n : ℕ}
  {w rest input : List UInt8}

/-- Bytes that have no line break. -/
def UnbrokenBytes (w : List UInt8) : Prop :=
  ∀ b ∈ w, byteChar b ≠ '\n' ∧ byteChar b ≠ '\r'

instance (w : List UInt8) : Decidable (UnbrokenBytes w) :=
  decidable_of_iff (w.all (fun b => byteChar b ≠ '\n' && byteChar b ≠ '\r') = true)
    (by simp [UnbrokenBytes])

theorem readLine_append (hw : UnbrokenBytes w) {b : UInt8}
    (hb : byteChar b = '\n' ∨ byteChar b = '\r') (rest : List UInt8) :
    readLine (w ++ b :: rest) = some (w.map byteChar, rest) := by
  induction w with
  | nil => rw [List.nil_append, readLine, if_pos hb, List.map_nil]
  | cons a w ih =>
    obtain ⟨ha, hw⟩ := List.forall_mem_cons.mp hw
    rw [List.cons_append, readLine, if_neg (not_or.mpr ha), ih hw, Option.map_some, List.map_cons]

theorem scannerTask_eof :
    newProcessOutputScannerTask id (fun _ => false) n [] = .error .eof := by
  rw [newProcessOutputScannerTask]
  rfl

/-- What the task makes of a line that is read. -/
theorem scannerTask_line (h : readLine input = some (line, rest)) :
    newProcessOutputScannerTask id (fun _ => false) n input =
      match (propertiesPattern id).fullMatch line with
      | some cs => parseProperties (cs.lookup 1)
      | none => newProcessOutputScannerTask id (fun _ => false) (n + 1) rest := by
  rw [newProcessOutputScannerTask, if_neg Bool.false_ne_true]
  split
  · next hread => exact absurd (h.symm.trans hread) (by simp)
  · next hread =>
    obtain ⟨rfl, rfl⟩ := Prod.mk.inj (Option.some.inj (h.symm.trans hread))
    rfl

theorem scannerTask_other (h : readLine input = some (line, rest))
    (hline : ¬ IsPropertiesLine id line) :
    newProcessOutputScannerTask id (fun _ => false) n input =
      newProcessOutputScannerTask id (fun _ => false) (n + 1) rest := by
  rw [scannerTask_line h,
    Regex.fullMatch_eq_none_iff.mpr (mt isPropertiesLine_of_mem_lang hline)]

theorem not_isPropertiesLine_nil : ¬ IsPropertiesLine id [] := by
  rintro ⟨text, h⟩
  exact absurd h (by simp)

/-- What `readLine` leaves of the separator a line ends with. -/
def LineSeparator.unread : LineSeparator → List UInt8
  | .lf => []
  | .crlf => [10]

/-- A printed line is read up to the first character of its separator. -/
theorem readLine_line (hw : UnbrokenBytes w) (cs : Charset) (sep : LineSeparator)
    (rest : List UInt8) :
    readLine (w ++ cs.bytes sep.chars ++ rest) = some (w.map byteChar, sep.unread ++ rest) := by
  cases sep with
  | lf =>
    rw [LineSeparator.chars, Charset.bytes, List.flatMap_singleton,
      cs.encode_ascii _ (by decide), List.append_assoc, List.singleton_append,
      readLine_append hw (Or.inl rfl)]
    rfl
  | crlf =>
    rw [LineSeparator.chars, Charset.bytes, List.flatMap_cons, List.flatMap_singleton,
      cs.encode_ascii _ (by decide), cs.encode_ascii _ (by decide), List.append_assoc,
      List.singleton_append, List.cons_append, readLine_append hw (Or.inr rfl)]
    rfl

/-- What is left of a separator is at most an empty line. -/
theorem scannerTask_unread (id : List Char) (sep : LineSeparator) (n : ℕ) (rest : List UInt8) :
    ∃ m, newProcessOutputScannerTask id (fun _ => false) n (sep.unread ++ rest) =
      newProcessOutputScannerTask id (fun _ => false) m rest := by
  cases sep with
  | lf => exact ⟨n, rfl⟩
  | crlf =>
    have hempty : readLine (10 :: rest) = some ([], rest) := if_pos (Or.inl rfl)
    exact ⟨n + 1, scannerTask_other hempty not_isPropertiesLine_nil⟩

/-- A line that is no properties line is read over, with its separator. -/
theorem scannerTask_skip (hw : UnbrokenBytes w) (hline : ¬ IsPropertiesLine id (w.map byteChar))
    (cs : Charset) (sep : LineSeparator) (n : ℕ) (rest : List UInt8) :
    ∃ m, newProcessOutputScannerTask id (fun _ => false) n (w ++ cs.bytes sep.chars ++ rest) =
      newProcessOutputScannerTask id (fun _ => false) m rest := by
  rw [scannerTask_other (readLine_line hw cs sep rest) hline]
  exact scannerTask_unread id sep (n + 1) rest

/-- **The task reads over other lines**, however many they are. -/
theorem scannerTask_lines {lines : List (List UInt8)} (hl : ∀ l ∈ lines, UnbrokenBytes l)
    (hline : ∀ l ∈ lines, ¬ IsPropertiesLine id (l.map byteChar)) (cs : Charset)
    (sep : LineSeparator) (n : ℕ) (rest : List UInt8) :
    ∃ m, newProcessOutputScannerTask id (fun _ => false) n
        (lines.flatMap (· ++ cs.bytes sep.chars) ++ rest) =
      newProcessOutputScannerTask id (fun _ => false) m rest := by
  induction lines generalizing n with
  | nil => exact ⟨n, rfl⟩
  | cons l lines ih =>
    rw [List.forall_mem_cons] at hl hline
    obtain ⟨m, hm⟩ := scannerTask_skip hl.1 hline.1 cs sep n
      (lines.flatMap (· ++ cs.bytes sep.chars) ++ rest)
    obtain ⟨k, hk⟩ := ih hl.2 hline.2 m
    rw [List.flatMap_cons, List.append_assoc, hm, hk]
    exact ⟨k, rfl⟩

end Task

/-! ### The handshake -/

section Handshake

variable {cs : Charset} {sep : LineSeparator} {id : List Char}
  {calls es : List (List Char × List Char)} {lines : List (List UInt8)}

/-- A class name has no line break, and printed entries have none. -/
theorem unbrokenBytes_printed (cs : Charset) (hid : ∀ c ∈ id, c ≠ '\n' ∧ c ≠ '\r')
    (h : (setProperties calls).ListedBy es) :
    UnbrokenBytes (cs.bytes (getPropertiesAsString id es)) := by
  have hchars : ∀ c ∈ getPropertiesAsString id es, c ≠ '\n' ∧ c ≠ '\r' := by
    intro c hc
    obtain hc | hc := List.mem_append.mp hc
    · exact hid c hc
    · obtain rfl | hc := List.mem_cons.mp hc
      · decide
      · obtain hc | hc := List.mem_append.mp hc
        · have hdot := (isPlain_ne (isPlain_of_mem_entriesText h hc)).2
          constructor <;> rintro rfl <;> exact absurd hdot (by decide)
        · obtain rfl := List.mem_singleton.mp hc
          decide
  intro b hb
  constructor
  · exact cs.byteChar_ne_of_mem_bytes (by decide) (by decide) (fun hc => (hchars _ hc).1 rfl) hb
  · exact cs.byteChar_ne_of_mem_bytes (by decide) (by decide) (fun hc => (hchars _ hc).2 rfl) hb

/-- The printed line as it is read: only the class name can read differently. -/
theorem map_byteChar_printed (cs : Charset) (id : List Char)
    (h : (setProperties calls).ListedBy es) :
    (cs.bytes (getPropertiesAsString id es)).map byteChar =
      (cs.bytes id).map byteChar ++ '{' :: (entriesText es ++ ['}']) := by
  have hascii : cs.ReadsBack ('{' :: (entriesText es ++ ['}'])) := by
    refine cs.readsBack_of_ascii ?_
    intro c hc
    obtain rfl | hc := List.mem_cons.mp hc
    · decide
    · obtain hc | hc := List.mem_append.mp hc
      · exact toNat_lt_of_isPlain (isPlain_of_mem_entriesText h hc)
      · obtain rfl := List.mem_singleton.mp hc
        decide
  rw [getPropertiesAsString, cs.bytes_append, List.map_append, hascii]

/-- With a class name that reads back, the task parses the printed entries. -/
theorem scannerTask_printProperties (hid : ∀ c ∈ id, c ≠ '\n' ∧ c ≠ '\r')
    (hback : cs.ReadsBack id) (h : (setProperties calls).ListedBy es)
    (hl : ∀ l ∈ lines, UnbrokenBytes l)
    (hline : ∀ l ∈ lines, ¬ IsPropertiesLine id (l.map byteChar)) (sep : LineSeparator) :
    newProcessOutputScannerTask id (fun _ => false) 0
        (lines.flatMap (· ++ cs.bytes sep.chars) ++ printProperties cs sep id es) =
      parseProperties (some (entriesText es)) := by
  obtain ⟨m, hm⟩ := scannerTask_lines hl hline cs sep 0 (printProperties cs sep id es)
  have hread := readLine_line (unbrokenBytes_printed cs hid h) cs sep []
  rw [List.append_nil, map_byteChar_printed cs id h, hback] at hread
  rw [hm, printProperties, scannerTask_line hread, fullMatch_propertiesPattern fun c hc =>
    (isPlain_ne (isPlain_of_mem_entriesText h hc)).2]
  rfl

/-- With a class name that does not read back, the task reads on to the end. -/
theorem scannerTask_notReadBack (hid : ∀ c ∈ id, c ≠ '\n' ∧ c ≠ '\r')
    (hback : ¬ cs.ReadsBack id) (h : (setProperties calls).ListedBy es)
    (hl : ∀ l ∈ lines, UnbrokenBytes l)
    (hline : ∀ l ∈ lines, ¬ IsPropertiesLine id (l.map byteChar)) (sep : LineSeparator) :
    newProcessOutputScannerTask id (fun _ => false) 0
        (lines.flatMap (· ++ cs.bytes sep.chars) ++ printProperties cs sep id es) =
      .error .eof := by
  obtain ⟨m, hm⟩ := scannerTask_lines hl hline cs sep 0 (printProperties cs sep id es)
  have hother : ¬ IsPropertiesLine id ((cs.bytes (getPropertiesAsString id es)).map byteChar) := by
    rw [map_byteChar_printed cs id h]
    exact mt (readsBack_of_isPropertiesLine h) hback
  obtain ⟨k, hk⟩ := scannerTask_skip (unbrokenBytes_printed cs hid h) hother cs sep m []
  rw [List.append_nil] at hk
  rw [hm, printProperties, hk, scannerTask_eof]

/-- **Exactly these properties are handed over.** Whatever was set, in whatever order the entries
are printed, and whatever other lines come before, the task returns what was set if and only if
the class name reads back and no key and no value is empty. -/
theorem scannerTask_printProperties_iff (cs : Charset) (sep : LineSeparator)
    (hid : ∀ c ∈ id, c ≠ '\n' ∧ c ≠ '\r') (h : (setProperties calls).ListedBy es)
    (hl : ∀ l ∈ lines, UnbrokenBytes l)
    (hline : ∀ l ∈ lines, ¬ IsPropertiesLine id (l.map byteChar)) :
    newProcessOutputScannerTask id (fun _ => false) 0
        (lines.flatMap (· ++ cs.bytes sep.chars) ++ printProperties cs sep id es) =
      .ok (some (Properties.putAll ∅ calls)) ↔
    cs.ReadsBack id ∧ (Properties.putAll ∅ calls).NoEmpty := by
  constructor
  · intro hreturned
    by_cases hback : cs.ReadsBack id
    · rw [scannerTask_printProperties hid hback h hl hline] at hreturned
      exact ⟨hback, noEmpty_of_parseProperties hreturned⟩
    · rw [scannerTask_notReadBack hid hback h hl hline] at hreturned
      exact absurd hreturned (by simp)
  · rintro ⟨hback, hne⟩
    rw [scannerTask_printProperties hid hback h hl hline, parseProperties_entriesText h hne]

/-- A PID and an address are handed over, after a line of other output. -/
theorem handed_over_address :
    newProcessOutputScannerTask ['A', 'p', 'p'] (fun _ => false) 0
        ([['g', 'o'].map fun c => UInt8.ofNat c.toNat].flatMap
            (· ++ Charset.utf8.bytes LineSeparator.lf.chars) ++
          printProperties .utf8 .lf ['A', 'p', 'p']
            ([defaultProperty (some 42), (['a'], ['h', ':', '8', '0'])].map
              (Prod.map URLEncoder.encode URLEncoder.encode))) =
      .ok (some (Properties.putAll ∅
        [defaultProperty (some 42), (['a'], ['h', ':', '8', '0'])])) := by
  refine (scannerTask_printProperties_iff .utf8 .lf (by simp)
    (listedBy_setProperties (by decide)) ?_ ?_).mpr ⟨?_, ?_⟩
  · rw [List.forall_mem_singleton]
    decide
  · rw [List.forall_mem_singleton]
    rintro ⟨text, h⟩
    exact absurd (List.cons.inj h).1 (by decide)
  · exact Charset.utf8.readsBack_of_ascii (by simp)
  · have hset := Properties.noEmpty_empty.insert (k := pidPropertyKey) (v := ['4', '2'])
      (by decide) (by decide)
    exact hset.insert (by decide) (by decide)

/-- **An empty value takes the next entry with it.** With a property `a` set to the empty value,
and printed before the PID, the launcher has `, pid` for `a` and no PID. -/
theorem not_handed_over :
    (setProperties [defaultProperty (some 42), (['a'], [])]).ListedBy
        [(['a'], []), (['p', 'i', 'd'], ['4', '2'])] ∧
      newProcessOutputScannerTask ['A', 'p', 'p'] (fun _ => false) 0
          (printProperties .utf8 .lf ['A', 'p', 'p']
            [(['a'], []), (['p', 'i', 'd'], ['4', '2'])]) =
        .ok (some (Properties.putAll ∅ [(['a'], [',', ' ', 'p', 'i', 'd'])])) ∧
      Properties.putAll ∅ [(['a'], [',', ' ', 'p', 'i', 'd'])] ≠
        Properties.putAll ∅ [defaultProperty (some 42), (['a'], [])] := by
  have hlisted : (setProperties [defaultProperty (some 42), (['a'], [])]).ListedBy
      [(['a'], []), (['p', 'i', 'd'], ['4', '2'])] :=
    (listedBy_setProperties (by decide)).perm (List.Perm.swap _ _ [])
  refine ⟨hlisted, ?_, ?_⟩
  · have hfound : keyValues (entriesText [(['a'], []), (['p', 'i', 'd'], ['4', '2'])]) =
        [(['a'], [',', ' ', 'p', 'i', 'd'])] := by
      decide
    have hback : Charset.utf8.ReadsBack ['A', 'p', 'p'] :=
      Charset.utf8.readsBack_of_ascii (by simp)
    have htask := scannerTask_printProperties (by simp) hback hlisted
      (List.forall_mem_nil UnbrokenBytes) (List.forall_mem_nil _) .lf
    rw [List.flatMap_nil, List.nil_append] at htask
    rw [htask, parseProperties, hfound]
    simp [parseProperty, URLDecoder.decodeOrThrow, URLDecoder.decode, URLDecoder.decodeFrom,
      utf8Text, Properties.putAll]
  · intro heq
    have hset : (Properties.putAll ∅ [defaultProperty (some 42), (['a'], [])]).lookup
        pidPropertyKey = some ['4', '2'] :=
      Properties.lookup_putAll_of_mem (by decide) List.mem_cons_self
    rw [← heq, Properties.lookup_putAll_of_notMem (by decide), Finmap.lookup_empty] at hset
    exact absurd hset (by simp)

end Handshake

end Shabdiz
