import Shabdiz.Text.Charset
import Shabdiz.Text.Lines

/-!
# Values in a process's output

A process hands a value to its parent as a line `key=value` of its output, which `printKeyValue`
prints in the charset of the process. The parent's scan task reads the output as UTF-8, line by line
until a line starts with the key and the delimiter, splits that line at the delimiter, and returns
its second field. The delimiter is nowhere escaped: a value that has it is cut there, a key that has
it gives its own second field in place of the value, and where there is no second field the access
is out of bounds and the task throws. Where the two charsets differ, key and value may not be read
as they were printed, and may even be read as several lines.

## Main definitions

* `printKeyValue` — the printed line
* `findValueInLine`, `scanTask`, `processOutputScanTask` — the parent's side
* `ReadBack` — the keys and values that survive it

## Main results

* `scanTask_printed` — the task decides on the line that the delimiter is read in
* `scanTask_printKeyValue_iff` — exactly the values that are read back
* `readBack_utf8_iff`, `readBack_ascii_iff` — where the charset makes no difference
* `not_scanned_back` — a padded value is cut, an empty one makes the task throw, and one outside
  ASCII may not be found
-/

namespace Shabdiz

/-- The `DELIMITER` of keys and values. -/
def delimiter : Char := '='

/-- What `printKeyValue` prints, in the charset `cs` and on a platform that ends lines with
`sep`. -/
def printKeyValue (cs : DelimitedCharset delimiter) (sep : LineSeparator) (key value : List Char) :
    List UInt8 :=
  cs.bytes (key ++ delimiter :: value) ++ cs.bytes sep.chars

/-- How the scan task can throw. -/
inductive ScanException where
  /-- The output has ended before a line was read. -/
  | noSuchElement
  /-- The line that was found has no second field. -/
  | arrayIndexOutOfBounds
deriving DecidableEq

/-- The second field of a line that starts with the key and the delimiter; the line's own value
is `none` when it does not. -/
def findValueInLine (line key : List Char) : Except ScanException (Option (List Char)) :=
  if key ++ [delimiter] <+: line then
    match (splitFields delimiter line)[1]? with
    | some field => .ok (some field)
    | none => .error .arrayIndexOutOfBounds
  else .ok none

/-- The scan task: read lines until one has a value, unless interrupted. The answer to its `n`-th
check whether it is interrupted is `interrupted n`. -/
def scanTask (key : List Char) (interrupted : ℕ → Bool) (n : ℕ) (output : List Char) :
    Except ScanException (Option (List Char)) :=
  match _h : nextLine output with
  | none => .error .noSuchElement
  | some (line, rest) =>
    match findValueInLine line key with
    | .error e => .error e
    | .ok none => if interrupted n then .ok none else scanTask key interrupted (n + 1) rest
    | .ok (some value) => .ok (some value)
termination_by output.length
decreasing_by exact length_lt_of_nextLine _h

/-- The scan task on the output of a process, which is not interrupted. -/
def processOutputScanTask (dec : UTF8Decoder) (key : List Char) (output : List UInt8) :
    Except ScanException (Option (List Char)) :=
  scanTask key (fun _ => false) 0 (dec.decode output)

/-- The key's text after its first delimiter. -/
def afterDelimiter (key : List Char) : List Char :=
  (key.dropWhile (· ≠ delimiter)).tail

/-- The value is the second field of the line that is printed. With a key that has no delimiter it
has to be nonempty and without one. With a key that has one, the line's second field is the key's
own, so the value has to be that; and something other than delimiters has to follow the key's
first. -/
def IsSecondField (key value : List Char) : Prop :=
  if delimiter ∈ key then
    value = (afterDelimiter key).takeWhile (· ≠ delimiter) ∧
      ∃ c ∈ afterDelimiter key, c ≠ delimiter
  else value ≠ [] ∧ delimiter ∉ value

/-- The keys and values that are read back as they were printed. The key has to be there, at the
end of what is read of it, and the value has to be the second field, and to be there at the
beginning of what is read of it, unless it is the key's own. -/
def ReadBack (dec : UTF8Decoder) (cs : DelimitedCharset delimiter) (key value : List Char) : Prop :=
  lastLine (dec.decode (cs.bytes key)) = key ∧ IsSecondField key value ∧
    (delimiter ∉ key → firstLine (dec.decode (cs.bytes value)) = value)

/-! ### Keys at the beginning of a line -/

section Key

variable {s k v key : List Char} {d : Char}

/-- A line that has the key and the delimiter has the delimiter more often than the key. -/
theorem not_prefix_of_count (h : s.count d ≤ key.count d) : ¬ key ++ [d] <+: s := by
  intro hprefix
  have hcount := hprefix.sublist.count_le d
  rw [List.count_append, List.count_singleton_self] at hcount
  omega

/-- Where the delimiter comes last after `k`, and is not more often in `k` than in the key, nothing
but the key itself is followed by it. -/
theorem key_eq_of_begins (hk : k.count d ≤ key.count d) (hv : d ∉ v)
    (h : key ++ [d] <+: k ++ d :: v) : key = k := by
  obtain ⟨t, ht⟩ := h
  have hcount := congrArg (List.count d) ht
  simp only [List.count_append, List.count_cons_self, List.count_nil,
    List.count_eq_zero.mpr hv] at hcount
  have htd : d ∉ t := List.count_eq_zero.mp (by omega)
  rw [List.append_assoc, List.singleton_append] at ht
  obtain ⟨a, rfl, ha⟩ | ⟨a, rfl, ha⟩ := List.append_eq_append_iff.mp ht
  · cases a with
    | nil => rw [List.append_nil]
    | cons x a => exact absurd ((List.cons.inj ha).2 ▸ by simp) htd
  · cases a with
    | nil => rw [List.append_nil]
    | cons x a => exact absurd ((List.cons.inj ha).2 ▸ by simp) hv

end Key

/-! ### The task on a line -/

section Line

variable {s line rest key value : List Char}

theorem findValueInLine_other (h : ¬ key ++ [delimiter] <+: line) :
    findValueInLine line key = .ok none :=
  if_neg h

/-- A line with nothing of the key is read over. -/
theorem scanTask_skip (hs : nextLine s = some (line, rest)) (h : ¬ key ++ [delimiter] <+: line)
    (n : ℕ) :
    scanTask key (fun _ => false) n s = scanTask key (fun _ => false) (n + 1) rest := by
  rw [scanTask]
  split
  · next hnext => cases hs.symm.trans hnext
  · next hnext =>
    obtain ⟨rfl, rfl⟩ := Prod.mk.inj (Option.some.inj (hs.symm.trans hnext))
    rw [findValueInLine_other h]
    rfl

/-- A line that starts with the key and the delimiter ends the task. -/
theorem scanTask_found (hs : nextLine s = some (line, rest)) (h : key ++ [delimiter] <+: line)
    (n : ℕ) : scanTask key (fun _ => false) n s = findValueInLine line key := by
  rw [scanTask]
  split
  · next hnext => cases hs.symm.trans hnext
  · next hnext =>
    obtain ⟨rfl, rfl⟩ := Prod.mk.inj (Option.some.inj (hs.symm.trans hnext))
    rw [findValueInLine, if_pos h]
    cases (splitFields delimiter line)[1]? <;> rfl

/-- Lines with nothing of the key are read over, however many they are. -/
theorem scanTask_lines {lines : List (List Char)} (hl : ∀ l ∈ lines, Unbroken l)
    (hkey : ∀ l ∈ lines, ¬ key ++ [delimiter] <+: l) (sep : LineSeparator) (n : ℕ)
    (rest : List Char) :
    scanTask key (fun _ => false) n (lines.flatMap (· ++ sep.chars) ++ rest) =
      scanTask key (fun _ => false) (n + lines.length) rest := by
  induction lines generalizing n with
  | nil => rfl
  | cons l lines ih =>
    rw [List.forall_mem_cons] at hl hkey
    rw [List.flatMap_cons, List.append_assoc,
      scanTask_skip (nextLine_terminated hl.1 sep _) hkey.1, ih hl.2 hkey.2, List.length_cons]
    congr 1
    omega

/-- In a text that has the delimiter no more often than the key the task comes to the end. -/
theorem scanTask_of_count (h : s.count delimiter ≤ key.count delimiter) (n : ℕ) :
    scanTask key (fun _ => false) n s = .error .noSuchElement := by
  induction hlen : s.length using Nat.strongRecOn generalizing s n with
  | _ m ih =>
    cases hs : nextLine s with
    | none =>
      rw [scanTask]
      split
      · rfl
      · next hnext => cases hs.symm.trans hnext
    | some p =>
      obtain ⟨line, rest⟩ := p
      have hcount := count_nextLine hs delimiter
      rw [scanTask_skip hs (not_prefix_of_count (by omega)),
        ih rest.length (hlen ▸ length_lt_of_nextLine hs) (by omega) (n + 1) rfl]

/-- What comes before the delimiter is read over up to its last line. -/
theorem exists_scanTask_lastLine (k w : List Char)
    (h : k.count delimiter ≤ key.count delimiter) (n : ℕ) :
    ∃ m, scanTask key (fun _ => false) n (k ++ delimiter :: w) =
      scanTask key (fun _ => false) m (lastLine k ++ delimiter :: w) := by
  induction hlen : k.length using Nat.strongRecOn generalizing k n with
  | _ l ih =>
    by_cases hk : Unbroken k
    · exact ⟨n, by rw [lastLine_of_unbroken hk]⟩
    · -- The first line of `k` is read over.
      obtain ⟨a, c, b, rfl, ha, hc⟩ := exists_of_not_unbroken hk
      rw [List.count_append] at h
      have hline : nextLine (a ++ c :: b ++ delimiter :: w) =
          some (a, dropSeparator (c :: b) ++ delimiter :: w) := by
        rw [List.append_assoc, List.cons_append, nextLine_append_cons ha hc,
          dropSeparator_append_cons c b (by decide)]
      have hrest := (dropSeparator_suffix (c :: b)).sublist
      have hlt := length_dropSeparator_lt (List.cons_ne_nil c b)
      rw [List.length_append] at hlen
      obtain ⟨m, hm⟩ := ih (dropSeparator (c :: b)).length (by omega) (dropSeparator (c :: b))
        ((hrest.count_le _).trans (by omega)) (n + 1) rfl
      refine ⟨m, ?_⟩
      rw [scanTask_skip hline (not_prefix_of_count (by omega)), hm, lastLine_dropSeparator,
        lastLine_append_cons hc]

end Line

/-! ### The printed line -/

section Printed

variable {key value : List Char}

/-- A key that has the delimiter is its text up to the first, the delimiter, and the text after
it. -/
theorem takeWhile_append_afterDelimiter (h : delimiter ∈ key) :
    key.takeWhile (· ≠ delimiter) ++ delimiter :: afterDelimiter key = key := by
  have hne : key.dropWhile (· ≠ delimiter) ≠ [] := by
    intro hnil
    have := List.dropWhile_eq_nil_iff.mp hnil delimiter h
    simp at this
  have hhead : (key.dropWhile (· ≠ delimiter)).head hne = delimiter := by
    simpa using List.head_dropWhile_not (· ≠ delimiter) hne
  rw [afterDelimiter]
  conv_rhs => rw [← List.takeWhile_append_dropWhile (p := (· ≠ delimiter)) (l := key)]
  rw [← List.cons_head_tail hne, hhead, List.tail_cons]

/-- What is found in a line that starts with the key, from what comes before and after its first
delimiter. -/
theorem findValueInLine_split {k v : List Char} (hk : delimiter ∉ k)
    (hkey : key ++ [delimiter] <+: k ++ delimiter :: v) :
    findValueInLine (k ++ delimiter :: v) key =
      if v.any (· ≠ delimiter) then .ok (some (v.takeWhile (· ≠ delimiter)))
      else .error .arrayIndexOutOfBounds := by
  rw [findValueInLine, if_pos hkey, getElem?_one_splitFields hk]
  by_cases h : v.any (· ≠ delimiter)
  · rw [if_pos h, if_pos h]
  · rw [if_neg h, if_neg h]

/-- What is found in the printed line when the key has no delimiter. -/
theorem findValueInLine_of_notMem (h : delimiter ∉ key) :
    findValueInLine (key ++ delimiter :: value) key =
      if value.any (· ≠ delimiter) then .ok (some (value.takeWhile (· ≠ delimiter)))
      else .error .arrayIndexOutOfBounds :=
  findValueInLine_split h ⟨value, by simp⟩

/-- What is found in the printed line when the key has a delimiter: the key's own second field. -/
theorem findValueInLine_of_mem (h : delimiter ∈ key) :
    findValueInLine (key ++ delimiter :: value) key =
      if (afterDelimiter key ++ value).any (· ≠ delimiter) then
        .ok (some ((afterDelimiter key).takeWhile (· ≠ delimiter)))
      else .error .arrayIndexOutOfBounds := by
  have hsplit : key ++ delimiter :: value =
      key.takeWhile (· ≠ delimiter) ++
        delimiter :: (afterDelimiter key ++ delimiter :: value) := by
    conv_lhs => rw [← takeWhile_append_afterDelimiter h]
    simp
  have hpre : delimiter ∉ key.takeWhile (· ≠ delimiter) := by
    intro hmem
    have := List.mem_takeWhile_imp hmem
    simp at this
  have hany : (afterDelimiter key ++ delimiter :: value).any (· ≠ delimiter) =
      (afterDelimiter key ++ value).any (· ≠ delimiter) := by
    simp
  rw [hsplit, findValueInLine_split hpre (hsplit ▸ ⟨value, by simp⟩),
    takeWhile_append_cons (by simp), hany]

/-- A value is its own first field when it has no delimiter. -/
theorem takeWhile_eq_self : value.takeWhile (· ≠ delimiter) = value ↔ delimiter ∉ value := by
  rw [List.takeWhile_eq_self_iff]
  constructor
  · intro h hmem
    simpa using h delimiter hmem
  · intro h c hc
    simpa using ne_of_mem_of_not_mem hc h

/-- What is found in the line of the key and the text `first` is the value exactly when key and
value are such, if `first` is what is read of the value on its first line. -/
theorem findValueInLine_eq_iff {first : List Char} (hnil : value = [] → first = [])
    (hmem : delimiter ∉ value → delimiter ∉ first) :
    findValueInLine (key ++ delimiter :: first) key = .ok (some value) ↔
      IsSecondField key value ∧ (delimiter ∉ key → first = value) := by
  unfold IsSecondField
  by_cases h : delimiter ∈ key
  · rw [findValueInLine_of_mem h, if_pos h, and_iff_left (fun hnot => absurd h hnot)]
    constructor
    · intro hfound
      split at hfound
      · next hsome =>
        have hvalue := (Option.some.inj (Except.ok.inj hfound)).symm
        refine ⟨hvalue, ?_⟩
        obtain ⟨c, hc, hne⟩ := List.any_eq_true.mp hsome
        rw [decide_eq_true_eq] at hne
        obtain hempty | hvne := eq_or_ne value []
        · rw [hnil hempty, List.append_nil] at hc
          exact ⟨c, hc, hne⟩
        · obtain ⟨e, he⟩ := List.exists_mem_of_ne_nil value hvne
          rw [hvalue] at he
          exact ⟨e, (List.takeWhile_subset _) he, by simpa using List.mem_takeWhile_imp he⟩
      · exact absurd hfound (by simp)
    · rintro ⟨hvalue, c, hc, hne⟩
      rw [if_pos (List.any_eq_true.mpr ⟨c, List.mem_append_left _ hc, decide_eq_true hne⟩),
        ← hvalue]
  · rw [findValueInLine_of_notMem h, if_neg h]
    constructor
    · intro hfound
      split at hfound
      · next hsome =>
        have hvalue := Option.some.inj (Except.ok.inj hfound)
        have hnot : delimiter ∉ value := by
          intro hd
          rw [← hvalue] at hd
          simpa using List.mem_takeWhile_imp hd
        rw [takeWhile_eq_self.mpr (hmem hnot)] at hvalue
        obtain ⟨c, hc, -⟩ := List.any_eq_true.mp hsome
        exact ⟨⟨hvalue ▸ List.ne_nil_of_mem hc, hnot⟩, fun _ => hvalue⟩
      · exact absurd hfound (by simp)
    · rintro ⟨⟨hne, hvalue⟩, hfirst⟩
      obtain rfl := hfirst h
      obtain ⟨c, hc⟩ := List.exists_mem_of_ne_nil first hne
      have hc' : decide (c ≠ delimiter) = true := decide_eq_true (ne_of_mem_of_not_mem hc hvalue)
      rw [if_pos (List.any_eq_true.mpr ⟨c, hc, hc'⟩), takeWhile_eq_self.mpr hvalue]

/-- What is found has no delimiter. -/
theorem notMem_of_findValueInLine {line : List Char}
    (h : findValueInLine line key = .ok (some value)) : delimiter ∉ value := by
  by_cases hkey : key ++ [delimiter] <+: line
  · have hmem : delimiter ∈ line := hkey.subset (by simp)
    have hpre : delimiter ∉ line.takeWhile (· ≠ delimiter) := by
      intro hd
      simpa using List.mem_takeWhile_imp hd
    rw [← takeWhile_append_afterDelimiter hmem] at h hkey
    rw [findValueInLine_split hpre hkey] at h
    split at h
    · rw [← Option.some.inj (Except.ok.inj h)]
      intro hd
      simpa using List.mem_takeWhile_imp hd
    · cases h
  · rw [findValueInLine_other hkey] at h
    cases h

/-- The task returns no text with the delimiter. -/
theorem notMem_of_scanTask {s : List Char} {n : ℕ}
    (h : scanTask key (fun _ => false) n s = .ok (some value)) : delimiter ∉ value := by
  induction hlen : s.length using Nat.strongRecOn generalizing s n with
  | _ m ih =>
    cases hs : nextLine s with
    | none =>
      rw [scanTask] at h
      split at h
      · cases h
      · next hnext => cases hs.symm.trans hnext
    | some p =>
      obtain ⟨line, rest⟩ := p
      by_cases hkey : key ++ [delimiter] <+: line
      · rw [scanTask_found hs hkey] at h
        exact notMem_of_findValueInLine h
      · rw [scanTask_skip hs hkey] at h
        exact ih rest.length (hlen ▸ length_lt_of_nextLine hs) h rfl

/-- The first line of a text whose second part is printed. -/
theorem exists_nextLine {k : List Char} (hk : Unbroken k) (v : List Char) (sep : LineSeparator)
    (rest : List Char) :
    ∃ r, nextLine (k ++ delimiter :: (v ++ sep.chars ++ rest)) =
      some (k ++ delimiter :: firstLine v, r) := by
  have hp : ∀ c ∈ k, (!isLineSeparator c) = true := fun c hc => by rw [hk c hc]; rfl
  have hv : (v ++ sep.chars ++ rest).takeWhile (!isLineSeparator ·) = firstLine v := by
    rw [List.append_assoc]
    cases sep <;> exact takeWhile_append_cons rfl _ _
  have hline : (k ++ delimiter :: (v ++ sep.chars ++ rest)).takeWhile (!isLineSeparator ·) =
      k ++ delimiter :: firstLine v := by
    rw [List.takeWhile_append_of_pos hp, List.takeWhile_cons_of_pos (by decide), hv]
  exact ⟨_, by rw [nextLine, if_neg (by simp), hline]⟩

/-- **The task decides on the line that the delimiter is read in.** -/
theorem scanTask_printed {k : List Char} (hk : k.count delimiter ≤ key.count delimiter)
    (hlast : lastLine k = key) (v : List Char) (sep : LineSeparator) (n : ℕ) (rest : List Char) :
    scanTask key (fun _ => false) n (k ++ delimiter :: (v ++ sep.chars ++ rest)) =
      findValueInLine (key ++ delimiter :: firstLine v) key := by
  obtain ⟨m, hm⟩ := exists_scanTask_lastLine k (v ++ sep.chars ++ rest) hk n
  obtain ⟨r, hr⟩ := exists_nextLine (hlast ▸ unbroken_lastLine k) v sep rest
  rw [hm, hlast, scanTask_found hr ⟨firstLine v, by simp⟩]

/-- A line that is not the key's is read over with all that follows it. -/
theorem scanTask_not_printed {k v : List Char} (hk : k.count delimiter ≤ key.count delimiter)
    (hlast : lastLine k ≠ key) (hv : delimiter ∉ v) (sep : LineSeparator) (n : ℕ) :
    scanTask key (fun _ => false) n (k ++ delimiter :: (v ++ sep.chars ++ [])) =
      .error .noSuchElement := by
  obtain ⟨m, hm⟩ := exists_scanTask_lastLine k (v ++ sep.chars ++ []) hk n
  obtain ⟨r, hr⟩ := exists_nextLine (unbroken_lastLine k) v sep []
  have hle : (lastLine k).count delimiter ≤ key.count delimiter :=
    ((List.rtakeWhile_suffix _ k).sublist.count_le _).trans hk
  have hfirst : delimiter ∉ firstLine v := fun h => hv ((List.takeWhile_subset _) h)
  have hsep : sep.chars.count delimiter = 0 := by cases sep <;> rfl
  have hcount := count_nextLine hr delimiter
  simp only [List.count_append, List.count_cons_self, List.count_nil,
    List.count_eq_zero.mpr hv, hsep] at hcount
  rw [hm, scanTask_skip hr (fun h => hlast (key_eq_of_begins hle hfirst h).symm),
    scanTask_of_count (by omega)]

variable {dec : UTF8Decoder} {cs : DelimitedCharset delimiter}

/-- A line's end is read as it was printed. -/
theorem decode_line (dec : UTF8Decoder) (cs : DelimitedCharset delimiter) (w : List UInt8)
    (sep : LineSeparator) (bs : List UInt8) :
    dec.decode (w ++ cs.bytes sep.chars ++ bs) = dec.decode w ++ sep.chars ++ dec.decode bs := by
  rw [List.append_assoc, List.append_assoc]
  cases sep with
  | lf =>
    have hlf := cs.decode_ascii dec (c := '\n') (by decide) w bs
    simpa [LineSeparator.chars, DelimitedCharset.bytes] using hlf
  | crlf =>
    have hlf := cs.decode_ascii dec (c := '\n') (by decide) [] bs
    rw [List.nil_append, dec.decode_nil, List.nil_append] at hlf
    have hcr := cs.decode_ascii dec (c := '\r') (by decide) w (cs.encode '\n' ++ bs)
    rw [hlf] at hcr
    simpa [LineSeparator.chars, DelimitedCharset.bytes] using hcr

/-- The text of the lines of an output, and of what follows them. -/
theorem decode_lines (dec : UTF8Decoder) (cs : DelimitedCharset delimiter)
    (lines : List (List UInt8)) (sep : LineSeparator) (bs : List UInt8) :
    dec.decode (lines.flatMap (· ++ cs.bytes sep.chars) ++ bs) =
      (lines.map dec.decode).flatMap (· ++ sep.chars) ++ dec.decode bs := by
  induction lines with
  | nil => rfl
  | cons l lines ih =>
    rw [List.flatMap_cons, List.append_assoc, decode_line, ih, List.map_cons, List.flatMap_cons,
      List.append_assoc _ _ (dec.decode bs)]

/-- The text of the printed line: that of the key, the delimiter, and that of the value. -/
theorem decode_printKeyValue (dec : UTF8Decoder) (cs : DelimitedCharset delimiter)
    (sep : LineSeparator) (key value : List Char) (bs : List UInt8) :
    dec.decode (printKeyValue cs sep key value ++ bs) =
      dec.decode (cs.bytes key) ++
        delimiter :: (dec.decode (cs.bytes value) ++ sep.chars ++ dec.decode bs) := by
  rw [printKeyValue, cs.bytes_append, cs.bytes_cons, List.append_assoc, List.append_assoc,
    List.append_assoc, cs.decode_ascii dec (by decide), ← List.append_assoc, decode_line]

/-- Lines with nothing of the key come before the printed one. -/
theorem exists_processOutputScanTask {lines : List (List UInt8)}
    (hl : ∀ l ∈ lines, Unbroken (dec.decode l))
    (hkey : ∀ l ∈ lines, ¬ key ++ [delimiter] <+: dec.decode l) (cs : DelimitedCharset delimiter)
    (sep : LineSeparator) (value : List Char) (bs : List UInt8) :
    ∃ n, processOutputScanTask dec key
        (lines.flatMap (· ++ cs.bytes sep.chars) ++ (printKeyValue cs sep key value ++ bs)) =
      scanTask key (fun _ => false) n (dec.decode (cs.bytes key) ++
        delimiter :: (dec.decode (cs.bytes value) ++ sep.chars ++ dec.decode bs)) := by
  refine ⟨0 + (lines.map dec.decode).length, ?_⟩
  rw [processOutputScanTask, decode_lines, scanTask_lines (by simpa using hl) (by simpa using hkey),
    decode_printKeyValue]

theorem count_read (dec : UTF8Decoder) (cs : DelimitedCharset delimiter) (s : List Char) :
    (dec.decode (cs.bytes s)).count delimiter = s.count delimiter :=
  cs.count_decode_bytes dec (by decide) s

/-- What is found in the line of the key. -/
theorem findValueInLine_firstLine (dec : UTF8Decoder) (cs : DelimitedCharset delimiter)
    (hlast : lastLine (dec.decode (cs.bytes key)) = key) :
    findValueInLine (key ++ delimiter :: firstLine (dec.decode (cs.bytes value))) key =
      .ok (some value) ↔ ReadBack dec cs key value := by
  rw [findValueInLine_eq_iff, ReadBack, and_iff_right hlast]
  · rintro rfl
    simp [DelimitedCharset.bytes, dec.decode_nil, firstLine]
  · intro hv hmem
    have hzero := (count_read dec cs value).trans (List.count_eq_zero.mpr hv)
    exact List.count_eq_zero.mp hzero ((List.takeWhile_subset _) hmem)

/-- **Exactly these values are scanned back.** Whatever lines with nothing of the key come before
the printed line, the task returns the printed value if and only if key and value are such; and then
it does so whatever output follows. -/
theorem scanTask_printKeyValue_iff (dec : UTF8Decoder) (cs : DelimitedCharset delimiter)
    (sep : LineSeparator) (key value : List Char) (lines : List (List UInt8))
    (hl : ∀ l ∈ lines, Unbroken (dec.decode l))
    (hkey : ∀ l ∈ lines, ¬ key ++ [delimiter] <+: dec.decode l) :
    (processOutputScanTask dec key
        (lines.flatMap (· ++ cs.bytes sep.chars) ++ printKeyValue cs sep key value) =
      .ok (some value) ↔ ReadBack dec cs key value) ∧
    (ReadBack dec cs key value → ∀ rest, processOutputScanTask dec key
        (lines.flatMap (· ++ cs.bytes sep.chars) ++ (printKeyValue cs sep key value ++ rest)) =
      .ok (some value)) := by
  have hcount := (count_read dec cs key).le
  have hback (hread : ReadBack dec cs key value) (rest : List UInt8) :
      processOutputScanTask dec key (lines.flatMap (· ++ cs.bytes sep.chars) ++
        (printKeyValue cs sep key value ++ rest)) = .ok (some value) := by
    obtain ⟨n, hn⟩ := exists_processOutputScanTask hl hkey cs sep value rest
    rw [hn, scanTask_printed hcount hread.1]
    exact (findValueInLine_firstLine dec cs hread.1).mpr hread
  rw [← List.append_nil (printKeyValue cs sep key value)]
  refine ⟨⟨fun h => ?_, fun hread => hback hread []⟩, fun hread rest => ?_⟩
  · obtain ⟨n, hn⟩ := exists_processOutputScanTask hl hkey cs sep value []
    rw [hn, dec.decode_nil] at h
    by_cases hlast : lastLine (dec.decode (cs.bytes key)) = key
    · rw [scanTask_printed hcount hlast] at h
      exact (findValueInLine_firstLine dec cs hlast).mp h
    · have hv : delimiter ∉ dec.decode (cs.bytes value) := by
        have hzero := List.count_eq_zero.mpr (notMem_of_scanTask h)
        exact List.count_eq_zero.mp ((count_read dec cs value).trans hzero)
      rw [scanTask_not_printed hcount hlast hv] at h
      cases h
  · rw [List.append_nil]
    exact hback hread rest

/-- A key and a value that are read as they were printed. -/
theorem readBack_iff_of_read (hkey : dec.decode (cs.bytes key) = key)
    (hvalue : dec.decode (cs.bytes value) = value) (hk : Unbroken key) (hv : Unbroken value) :
    ReadBack dec cs key value ↔ IsSecondField key value := by
  have hfirst : firstLine value = value :=
    List.takeWhile_eq_self_iff.mpr fun c hc => by rw [hv c hc]; rfl
  rw [ReadBack, hkey, hvalue, and_iff_right (lastLine_of_unbroken hk),
    and_iff_left (fun _ => hfirst)]

/-- Between platforms with UTF-8, only the delimiter matters. -/
theorem readBack_utf8_iff (dec : UTF8Decoder) (hk : Unbroken key) (hv : Unbroken value) :
    ReadBack dec (Charset.utf8.delimited delimiter (by decide) (by decide)) key value ↔
      IsSecondField key value :=
  readBack_iff_of_read (dec.decode_utf8 key) (dec.decode_utf8 value) hk hv

/-- In ASCII, as base64 is, only the delimiter matters. -/
theorem readBack_ascii_iff (dec : UTF8Decoder) (cs : DelimitedCharset delimiter)
    (hkey : ∀ c ∈ key, c.toNat < 128) (hvalue : ∀ c ∈ value, c.toNat < 128) (hk : Unbroken key)
    (hv : Unbroken value) : ReadBack dec cs key value ↔ IsSecondField key value :=
  readBack_iff_of_read (cs.decode_bytes_of_ascii dec hkey) (cs.decode_bytes_of_ascii dec hvalue)
    hk hv

end Printed

/-! ### Values of an experiment -/

section Example

/-- A process that prints in ISO 8859-1. -/
def latin1Process : DelimitedCharset delimiter :=
  Charset.latin1.delimited delimiter (by decide) (by decide)

/-- A base64 result without padding is read back, after a line of another key. -/
theorem scanTask_unpadded :
    processOutputScanTask .bytewise ['k', 'e', 'y']
        ([latin1Process.bytes ['k', 'e', 'y', 's', '=', '0']].flatMap
            (· ++ latin1Process.bytes LineSeparator.lf.chars) ++
          printKeyValue latin1Process .lf ['k', 'e', 'y'] ['Y', 'W', 'J', 'j']) =
      .ok (some ['Y', 'W', 'J', 'j']) := by
  have hread : UTF8Decoder.bytewise.decode (latin1Process.bytes ['k', 'e', 'y', 's', '=', '0']) =
      ['k', 'e', 'y', 's', '=', '0'] :=
    latin1Process.decode_bytes_of_ascii .bytewise (by simp)
  refine (scanTask_printKeyValue_iff .bytewise latin1Process .lf ['k', 'e', 'y']
    ['Y', 'W', 'J', 'j'] _ ?_ ?_).1.mpr ?_
  · rw [List.forall_mem_singleton, hread]
    decide
  · rw [List.forall_mem_singleton, hread]
    decide
  · rw [readBack_ascii_iff .bytewise latin1Process (by simp) (by simp) (by decide) (by decide),
      IsSecondField, if_neg (by decide)]
    exact ⟨by decide, by decide⟩

/-- **A padded value is cut at its padding**, an empty one makes the task throw, and one outside
ASCII is not found as it was printed where the process does not print in UTF-8. -/
theorem not_scanned_back :
    processOutputScanTask .bytewise ['k', 'e', 'y']
        (printKeyValue latin1Process .lf ['k', 'e', 'y'] ['Y', 'Q', '=', '=']) =
      .ok (some ['Y', 'Q']) ∧
    processOutputScanTask .bytewise ['k', 'e', 'y']
        (printKeyValue latin1Process .lf ['k', 'e', 'y'] []) = .error .arrayIndexOutOfBounds ∧
    processOutputScanTask .bytewise ['k', 'e', 'y']
        (printKeyValue latin1Process .lf ['k', 'e', 'y'] ['\u00E9']) = .ok (some ['\uFFFD']) := by
  have hkey : UTF8Decoder.bytewise.decode (latin1Process.bytes ['k', 'e', 'y']) =
      ['k', 'e', 'y'] :=
    latin1Process.decode_bytes_of_ascii .bytewise (by simp)
  have hscan (value : List Char) :
      processOutputScanTask .bytewise ['k', 'e', 'y']
        (printKeyValue latin1Process .lf ['k', 'e', 'y'] value) =
      findValueInLine (['k', 'e', 'y'] ++ delimiter ::
        firstLine (UTF8Decoder.bytewise.decode (latin1Process.bytes value))) ['k', 'e', 'y'] := by
    rw [processOutputScanTask, ← List.append_nil (printKeyValue _ _ _ _), decode_printKeyValue,
      hkey, scanTask_printed le_rfl (lastLine_of_unbroken (by decide))]
  have hpadded : UTF8Decoder.bytewise.decode (latin1Process.bytes ['Y', 'Q', '=', '=']) =
      ['Y', 'Q', '=', '='] :=
    latin1Process.decode_bytes_of_ascii .bytewise (by simp)
  have hempty : UTF8Decoder.bytewise.decode (latin1Process.bytes []) = [] :=
    UTF8Decoder.bytewise.decode_nil
  have hother : UTF8Decoder.bytewise.decode (latin1Process.bytes ['\u00E9']) = ['\uFFFD'] := by
    have hnone : ([0xE9] : List UInt8).toByteArray.utf8DecodeChar? 0 = none := by decide
    change utf8Text [0xE9] = _
    rw [utf8Text, hnone]
    simp only [utf8Text]
  rw [hscan, hscan, hscan, hpadded, hempty, hother]
  decide

end Example

end Shabdiz
