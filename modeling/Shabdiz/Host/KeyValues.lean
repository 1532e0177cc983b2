import Shabdiz.Text.Lines
import Shabdiz.Text.Regex
import Shabdiz.Text.URLCodec
import Shabdiz.Util.Loops
import Mathlib.Data.Finmap
import Mathlib.Data.Set.List

/-!
# Key-value texts of properties

A bootstrap keeps its properties encoded and prints them with `Properties.toString`, the entries
as `key=value` with `, ` between them. The launcher takes the text apart with a loop over `find()`
of a regular expression and decodes what it finds. The expression asks for at least one character
of a key and of a value: entries are found again where keys and values are not empty, and no entry
with an empty key or value is found anywhere.

## Main definitions

* `Properties`, `setProperty` — a bootstrap's properties
* `entriesText` — the printed entries
* `keyValuePattern`, `keyValues`, `parseProperties` — the launcher's side

## Main results

* `keyValues_entriesText` — entries that are not empty are found again, in their order
* `ne_nil_of_mem_keyValues` — what is found is never empty
* `parseProperties_entriesText` — what was set is what is parsed
* `noEmpty_of_parseProperties` — the parsed properties have no empty key or value
-/

namespace Shabdiz

/-! ### Properties -/

/-- A `Properties` object. -/
abbrev Properties := Finmap fun _ : List Char => List Char

/-- An order in which the entries of a `Properties` object are gone through. -/
structure Properties.ListedBy (p : Properties) (es : List (List Char × List Char)) : Prop where
  nodup : (es.map Prod.fst).Nodup
  mem_iff : ∀ k v, (k, v) ∈ es ↔ p.lookup k = some v

/-- The properties after setting keys to values one after the other. -/
def Properties.putAll (p : Properties) (kvs : List (List Char × List Char)) : Properties :=
  kvs.foldl (fun p kv => p.insert kv.1 kv.2) p

/-- A bootstrap's `setProperty`: key and value are kept encoded. -/
def setProperty (p : Properties) (key value : List Char) : Properties :=
  p.insert (URLEncoder.encode key) (URLEncoder.encode value)

/-- The properties a bootstrap keeps after calls of `setProperty`. -/
def setProperties (calls : List (List Char × List Char)) : Properties :=
  calls.foldl (fun p kv => setProperty p kv.1 kv.2) ∅

/-- The properties with no empty key and no empty value. -/
def Properties.NoEmpty (p : Properties) : Prop :=
  ∀ key value, p.lookup key = some value → key ≠ [] ∧ value ≠ []

namespace Properties

variable {p q : Properties} {kvs : List (List Char × List Char)} {k v : List Char}

theorem putAll_cons (p : Properties) (kv : List Char × List Char)
    (kvs : List (List Char × List Char)) :
    p.putAll (kv :: kvs) = putAll (p.insert kv.1 kv.2) kvs := rfl

theorem noEmpty_empty : NoEmpty ∅ := by
  intro k v h
  rw [Finmap.lookup_empty] at h
  exact absurd h (by simp)

theorem NoEmpty.insert (hp : NoEmpty p) (hk : k ≠ []) (hv : v ≠ []) :
    NoEmpty (p.insert k v) := by
  intro a b h
  obtain rfl | ha := eq_or_ne a k
  · rw [Finmap.lookup_insert] at h
    exact ⟨hk, Option.some.inj h ▸ hv⟩
  · rw [Finmap.lookup_insert_of_ne _ ha] at h
    exact hp a b h

theorem lookup_putAll_of_notMem (h : k ∉ kvs.map Prod.fst) :
    (p.putAll kvs).lookup k = p.lookup k := by
  induction kvs generalizing p with
  | nil => rfl
  | cons kv kvs ih =>
    rw [List.map_cons, List.mem_cons, not_or] at h
    rw [putAll_cons, ih h.2, Finmap.lookup_insert_of_ne _ h.1]

/-- With distinct keys, every key has its value. -/
theorem lookup_putAll_of_mem (hkeys : (kvs.map Prod.fst).Nodup) (h : (k, v) ∈ kvs) :
    (p.putAll kvs).lookup k = some v := by
  induction kvs generalizing p with
  | nil => exact absurd h List.not_mem_nil
  | cons kv kvs ih =>
    rw [List.map_cons, List.nodup_cons] at hkeys
    rw [putAll_cons]
    obtain rfl | h := List.mem_cons.mp h
    · rw [lookup_putAll_of_notMem hkeys.1, Finmap.lookup_insert]
    · exact ih hkeys.2 h

/-- Keys and values that are mapped one to one can be looked up by the mapped keys. -/
theorem lookup_putAll_map {f g : List Char → List Char} (hf : Function.Injective f)
    (hpq : ∀ k, q.lookup (f k) = (p.lookup k).map g) (k : List Char) :
    (q.putAll (kvs.map (Prod.map f g))).lookup (f k) = ((p.putAll kvs).lookup k).map g := by
  induction kvs generalizing p q with
  | nil => exact hpq k
  | cons kv kvs ih =>
    rw [List.map_cons, putAll_cons, putAll_cons]
    refine ih ?_
    intro a
    obtain rfl | ha := eq_or_ne a kv.1
    · rw [Prod.map_fst, Prod.map_snd, Finmap.lookup_insert, Finmap.lookup_insert, Option.map_some]
    · rw [Prod.map_fst, Finmap.lookup_insert_of_ne _ (hf.ne ha), Finmap.lookup_insert_of_ne _ ha,
        hpq]

theorem mem_keys_of_lookup_putAll (h : (putAll ∅ kvs).lookup k = some v) :
    k ∈ kvs.map Prod.fst := by
  by_contra hno
  rw [lookup_putAll_of_notMem hno, Finmap.lookup_empty] at h
  exact absurd h (by simp)

/-- With distinct keys, the keys and values that were put are those that are there. -/
theorem lookup_putAll_eq_some_iff (hkeys : (kvs.map Prod.fst).Nodup) :
    (putAll ∅ kvs).lookup k = some v ↔ (k, v) ∈ kvs := by
  constructor
  · intro h
    obtain ⟨⟨k, w⟩, hkw, rfl⟩ := List.mem_map.mp (mem_keys_of_lookup_putAll h)
    rw [lookup_putAll_of_mem hkeys hkw] at h
    exact Option.some.inj h ▸ hkw
  · exact lookup_putAll_of_mem hkeys

end Properties

/-- The entries may be gone through in any order. -/
theorem Properties.ListedBy.perm {p : Properties} {es es' : List (List Char × List Char)}
    (h : p.ListedBy es) (hperm : es.Perm es') : p.ListedBy es' where
  nodup := (hperm.map Prod.fst).nodup_iff.mp h.nodup
  mem_iff k v := hperm.mem_iff.symm.trans (h.mem_iff k v)

theorem setProperties_eq_putAll (calls : List (List Char × List Char)) :
    setProperties calls =
      Properties.putAll ∅ (calls.map (Prod.map URLEncoder.encode URLEncoder.encode)) := by
  rw [setProperties, Properties.putAll, List.foldl_map]
  rfl

/-- With distinct keys, the encoded entries are listed as they were set. -/
theorem listedBy_setProperties {calls : List (List Char × List Char)}
    (h : (calls.map Prod.fst).Nodup) :
    (setProperties calls).ListedBy
      (calls.map (Prod.map URLEncoder.encode URLEncoder.encode)) := by
  have hnodup :
      ((calls.map (Prod.map URLEncoder.encode URLEncoder.encode)).map Prod.fst).Nodup := by
    have hmap := h.map URLEncoder.encode_injective
    rwa [List.map_map] at hmap ⊢
  refine ⟨hnodup, fun k v => ?_⟩
  rw [setProperties_eq_putAll, Properties.lookup_putAll_eq_some_iff hnodup]

/-- What a bootstrap keeps for an encoded key is the encoded value. -/
theorem lookup_setProperties (calls : List (List Char × List Char)) (k : List Char) :
    (setProperties calls).lookup (URLEncoder.encode k) =
      ((Properties.putAll ∅ calls).lookup k).map URLEncoder.encode := by
  rw [setProperties_eq_putAll]
  exact Properties.lookup_putAll_map URLEncoder.encode_injective (fun _ => rfl) k

/-- The properties a bootstrap keeps are the encoded ones. -/
theorem exists_of_lookup_setProperties {calls : List (List Char × List Char)}
    {k v : List Char} (h : (setProperties calls).lookup k = some v) :
    ∃ a b, (Properties.putAll ∅ calls).lookup a = some b ∧
      (URLEncoder.encode a, URLEncoder.encode b) = (k, v) := by
  have hmem : k ∈ (calls.map (Prod.map URLEncoder.encode URLEncoder.encode)).map Prod.fst := by
    rw [setProperties_eq_putAll] at h
    exact Properties.mem_keys_of_lookup_putAll h
  obtain ⟨e, he, rfl⟩ := List.mem_map.mp hmem
  obtain ⟨c, -, rfl⟩ := List.mem_map.mp he
  rw [Prod.map_fst, lookup_setProperties] at h
  obtain ⟨b, hb, rfl⟩ := Option.map_eq_some_iff.mp h
  exact ⟨c.1, b, hb, rfl⟩

/-! ### The printed entries -/

/-- An entry as `Properties.toString` prints it. -/
def entryText (e : List Char × List Char) : List Char :=
  e.1 ++ '=' :: e.2

/-- The entries as `Properties.toString` prints them, in the order of its iteration. -/
def entriesText (es : List (List Char × List Char)) : List Char :=
  [',', ' '].intercalate (es.map entryText)

/-! ### The key-value expression -/

/-- The characters of `.`. -/
def dot (c : Char) : Bool := !isLineSeparator c

/-- The characters of `\s`. -/
def isSpace (c : Char) : Bool :=
  c = ' ' || c = '\t' || c = '\n' || c = '\x0b' || c = '\x0c' || c = '\r'

/-- The class `[^=]`. -/
def isKeyChar (c : Char) : Bool := c ≠ '='

/-- The class `[^=,]`. -/
def isValueChar (c : Char) : Bool := c ≠ '=' && c ≠ ','

/-- `KEY_VALUE_PATTERN`, which is `(.?[^=]+)=(.?[^=,]+)(,\s)?`. -/
def keyValuePattern : Regex Char :=
  .seq (.group 1 (.seq (.opt (.cls dot)) (.plus isKeyChar)))
    (.seq (.lit ['='])
      (.seq (.group 2 (.seq (.opt (.cls dot)) (.plus isValueChar)))
        (.opt (.group 3 (.seq (.lit [',']) (.cls isSpace))))))

/-- What `group(1)` and `group(2)` are for every match that `find()` reports; both groups take part
in every match. -/
def keyValues (text : List Char) : List (List Char × List Char) :=
  (keyValuePattern.findAll text).map fun cs => ((cs.lookup 1).getD [], (cs.lookup 2).getD [])

/-- How the scanner task can throw. -/
inductive BootstrapException where
  /-- The output has ended before a line did. -/
  | eof
  /-- An encoded key or value is not one. -/
  | illegalArgument
  | interrupted
deriving DecidableEq

/-- The decoding, whose failure the caller does not catch. -/
def URLDecoder.decodeOrThrow (s : List Char) : Except BootstrapException (List Char) :=
  match URLDecoder.decode s with
  | some t => .ok t
  | none => .error .illegalArgument

/-- One round of the loop: decode a key and a value, and set them. -/
def parseProperty (p : Properties) (kv : List Char × List Char) :
    Except BootstrapException Properties :=
  match URLDecoder.decodeOrThrow kv.1, URLDecoder.decodeOrThrow kv.2 with
  | .ok key, .ok value => .ok (p.insert key value)
  | .error e, _ => .error e
  | _, .error e => .error e

/-- `parseProperties`, of a text or of `null`. -/
def parseProperties : Option (List Char) → Except BootstrapException (Option Properties)
  | some text => some <$> (keyValues text).foldlM parseProperty ∅
  | none => .ok none

/-! ### What is found -/

section Found

variable {k v t u : List Char} {cs : Captures Char}

/-- A run of a class after an optional character is not empty. -/
theorem ne_nil_of_mem_lang_opt_plus {o p : Char → Bool} {w : List Char}
    (h : w ∈ (Regex.seq (.opt (.cls o)) (.plus p)).lang) : w ≠ [] := by
  obtain ⟨x, -, y, hy, rfl⟩ := Regex.mem_lang_seq.mp h
  exact List.append_ne_nil_of_right_ne_nil x (Regex.ne_nil_of_mem_lang_plus hy)

/-- Key and value of a match are not empty. -/
theorem lookup_keyValuePattern {s : List Char} (h : (t, cs) ∈ keyValuePattern.ways s []) :
    ∃ k v, k ≠ [] ∧ v ≠ [] ∧ cs.lookup 1 = some k ∧ cs.lookup 2 = some v := by
  obtain ⟨⟨t₁, c₁⟩, h₁, h⟩ := Regex.mem_ways_seq.mp h
  obtain ⟨⟨t₂, c₂⟩, h₂, h⟩ := Regex.mem_ways_seq.mp h
  obtain ⟨⟨t₃, c₃⟩, h₃, h⟩ := Regex.mem_ways_seq.mp h
  -- The groups after a group leave what it has captured.
  have hkey : cs.lookup 1 = c₁.lookup 1 := by
    rw [Regex.lookup_of_mem_ways (by decide) h, Regex.lookup_of_mem_ways (by decide) h₃,
      Regex.lookup_of_mem_ways (by decide) h₂]
  have hvalue : cs.lookup 2 = c₃.lookup 2 := Regex.lookup_of_mem_ways (by decide) h
  obtain ⟨k, hk, _, -, -, rfl⟩ := Regex.mem_ways_group h₁
  obtain ⟨v, hv, _, -, -, rfl⟩ := Regex.mem_ways_group h₃
  exact ⟨k, v, ne_nil_of_mem_lang_opt_plus hk, ne_nil_of_mem_lang_opt_plus hv,
    hkey.trans List.lookup_cons_self, hvalue.trans List.lookup_cons_self⟩

/-- **What is found is never empty**, neither key nor value, in whatever text. -/
theorem ne_nil_of_mem_keyValues {text : List Char} {kv : List Char × List Char}
    (h : kv ∈ keyValues text) : kv.1 ≠ [] ∧ kv.2 ≠ [] := by
  obtain ⟨cs, hcs, rfl⟩ := List.mem_map.mp h
  obtain ⟨s, t, hst⟩ := Regex.exists_mem_ways_of_mem_findAll hcs
  obtain ⟨k, v, hk, hv, h₁, h₂⟩ := lookup_keyValuePattern hst
  rw [h₁, h₂]
  exact ⟨hk, hv⟩

/-- The first match at an entry, up to what follows its value. -/
theorem head?_ways_entry {x : List Char × Captures Char} (hk : k ≠ [])
    (hkey : ∀ c ∈ k, isKeyChar c = true) (hv : v ≠ []) (hval : ∀ c ∈ v, isValueChar c = true)
    (hu : Regex.Stops isValueChar u)
    (hx : ((Regex.opt (.group 3 (.seq (.lit [',']) (.cls isSpace)))).ways u
      [(2, v), (1, k)]).head? = some x) :
    (keyValuePattern.ways (entryText (k, v) ++ u) []).head? = some x := by
  have htext : entryText (k, v) ++ u = k ++ '=' :: (v ++ u) := by
    rw [entryText, List.append_assoc, List.cons_append]
  rw [htext]
  refine Regex.head?_ways_seq (x := ('=' :: (v ++ u), [(1, k)])) ?_ ?_
  · exact Regex.head?_ways_group 1
      (Regex.head?_ways_opt_plus hk hkey (Regex.stops_cons (by decide)))
  refine Regex.head?_ways_seq (x := (v ++ u, [(1, k)])) ?_ ?_
  · exact Regex.head?_ways_lit ['='] (v ++ u) _
  refine Regex.head?_ways_seq (x := (u, [(2, v), (1, k)])) ?_ hx
  exact Regex.head?_ways_group 2 (Regex.head?_ways_opt_plus hv hval hu)

theorem keyValuePattern_findAll_nil : keyValuePattern.findAll [] = [] := by
  decide

/-- The last entry of a text is found. -/
theorem keyValues_entry (hk : k ≠ []) (hkey : ∀ c ∈ k, isKeyChar c = true) (hv : v ≠ [])
    (hval : ∀ c ∈ v, isValueChar c = true) : keyValues (entryText (k, v)) = [(k, v)] := by
  have hfirst := head?_ways_entry (u := []) hk hkey hv hval Regex.stops_nil
    (Regex.head?_ways_opt_of_nil (by rfl))
  have hne : entryText (k, v) ≠ [] := List.append_ne_nil_of_left_ne_nil hk _
  have hfind := Regex.findAll_append hne hfirst
  rw [List.append_nil, keyValuePattern_findAll_nil] at hfind
  rw [keyValues, hfind]
  rfl

/-- An entry before another is found, and the search goes on at the other. -/
theorem keyValues_entry_append (hk : k ≠ []) (hkey : ∀ c ∈ k, isKeyChar c = true) (hv : v ≠ [])
    (hval : ∀ c ∈ v, isValueChar c = true) (t : List Char) :
    keyValues (entryText (k, v) ++ ([',', ' '] ++ t)) = (k, v) :: keyValues t := by
  have hcomma : ((Regex.group 3 (.seq (.lit [',']) (.cls isSpace))).ways ([',', ' '] ++ t)
      [(2, v), (1, k)]).head? = some (t, [(3, [',', ' ']), (2, v), (1, k)]) := by
    refine Regex.head?_ways_group 3 ?_
    exact Regex.head?_ways_seq (Regex.head?_ways_lit [','] (' ' :: t) _)
      (Regex.head?_ways_cls (by decide) t _)
  have hfirst := head?_ways_entry (u := [',', ' '] ++ t) hk hkey hv hval
    (Regex.stops_cons (by decide)) (Regex.head?_ways_opt hcomma)
  rw [← List.append_assoc] at hfirst ⊢
  have hne : entryText (k, v) ++ [',', ' '] ≠ [] := List.append_ne_nil_of_left_ne_nil
    (List.append_ne_nil_of_left_ne_nil hk _) _
  rw [keyValues, Regex.findAll_append hne hfirst]
  rfl

/-- **Entries that are not empty are found again**, all of them and in their order. -/
theorem keyValues_entriesText {es : List (List Char × List Char)}
    (hne : ∀ e ∈ es, e.1 ≠ [] ∧ e.2 ≠ [])
    (hkey : ∀ e ∈ es, ∀ c ∈ e.1, isKeyChar c = true)
    (hval : ∀ e ∈ es, ∀ c ∈ e.2, isValueChar c = true) :
    keyValues (entriesText es) = es := by
  induction es with
  | nil => exact congrArg _ keyValuePattern_findAll_nil
  | cons e es ih =>
    rw [List.forall_mem_cons] at hne hkey hval
    obtain rfl | hes := eq_or_ne es []
    · rw [entriesText, List.map_singleton, List.intercalate_singleton]
      exact keyValues_entry hne.1.1 hkey.1 hne.1.2 hval.1
    · rw [entriesText, List.map_cons, List.intercalate_cons_of_ne_nil (by simpa using hes),
        List.append_assoc, keyValues_entry_append hne.1.1 hkey.1 hne.1.2 hval.1]
      exact congrArg _ (ih hne.2 hkey.2 hval.2)

end Found

/-! ### What is parsed -/

section Parsed

variable {calls es : List (List Char × List Char)} {p q : Properties}

theorem isKeyChar_of_isEncoded {c : Char} (h : URLEncoder.isEncoded c = true) :
    isKeyChar c = true := by
  rw [isKeyChar, decide_eq_true_eq]
  rintro rfl
  exact absurd h (by decide)

theorem isValueChar_of_isEncoded {c : Char} (h : URLEncoder.isEncoded c = true) :
    isValueChar c = true := by
  rw [isValueChar, Bool.and_eq_true, decide_eq_true_eq, decide_eq_true_eq]
  constructor
  · rintro rfl
    exact absurd h (by decide)
  · rintro rfl
    exact absurd h (by decide)

theorem URLDecoder.decodeOrThrow_encode (s : List Char) :
    URLDecoder.decodeOrThrow (URLEncoder.encode s) = .ok s := by
  rw [decodeOrThrow, URLDecoder.decode_encoded]

theorem URLDecoder.ne_nil_of_decodeOrThrow {s t : List Char}
    (h : URLDecoder.decodeOrThrow s = .ok t) (hs : s ≠ []) : t ≠ [] := by
  rw [decodeOrThrow] at h
  split at h
  · next u hu =>
    obtain rfl := Except.ok.inj h
    rintro rfl
    exact hs (URLDecoder.eq_nil_of_decode hu)
  · exact absurd h (by simp)

/-- Encoded keys and values are decoded and put. -/
theorem foldlM_parseProperty (kvs : List (List Char × List Char)) (p : Properties) :
    (kvs.map (Prod.map URLEncoder.encode URLEncoder.encode)).foldlM parseProperty p =
      .ok (p.putAll kvs) := by
  induction kvs generalizing p with
  | nil => rfl
  | cons kv kvs ih =>
    have hstep : parseProperty p (Prod.map URLEncoder.encode URLEncoder.encode kv) =
        .ok (p.insert kv.1 kv.2) := by
      rw [parseProperty, Prod.map_fst, Prod.map_snd, URLDecoder.decodeOrThrow_encode,
        URLDecoder.decodeOrThrow_encode]
    rw [List.map_cons, List.foldlM_cons, hstep, Properties.putAll_cons, ← ih]
    rfl

/-- The entries a bootstrap prints are encodings. -/
theorem exists_map_of_listedBy (h : (setProperties calls).ListedBy es) :
    ∃ kvs : List (List Char × List Char),
      kvs.map (Prod.map URLEncoder.encode URLEncoder.encode) = es := by
  have hes : ∀ e ∈ es, ∃ kv, Prod.map URLEncoder.encode URLEncoder.encode kv = e := by
    intro e he
    obtain ⟨a, b, -, hab⟩ := exists_of_lookup_setProperties ((h.mem_iff e.1 e.2).mp he)
    exact ⟨(a, b), hab⟩
  rw [← Set.mem_range, Set.range_list_map]
  exact hes

/-- The entries a bootstrap prints, decoded and put in whatever order, are what was set. -/
theorem putAll_of_listedBy {kvs : List (List Char × List Char)}
    (h : (setProperties calls).ListedBy
      (kvs.map (Prod.map URLEncoder.encode URLEncoder.encode))) :
    Properties.putAll ∅ kvs = Properties.putAll ∅ calls := by
  have hkeys : (kvs.map Prod.fst).Nodup := by
    have := h.nodup
    rw [List.map_map] at this
    exact List.Nodup.of_map URLEncoder.encode (by rwa [List.map_map])
  refine Finmap.ext_lookup fun k => Option.ext fun v => ?_
  calc (Properties.putAll ∅ kvs).lookup k = some v
      ↔ (k, v) ∈ kvs := Properties.lookup_putAll_eq_some_iff hkeys
    _ ↔ (URLEncoder.encode k, URLEncoder.encode v) ∈
          kvs.map (Prod.map URLEncoder.encode URLEncoder.encode) :=
        (List.mem_map_of_injective
          (URLEncoder.encode_injective.prodMap URLEncoder.encode_injective)).symm
    _ ↔ (setProperties calls).lookup (URLEncoder.encode k) = some (URLEncoder.encode v) :=
        h.mem_iff _ _
    _ ↔ (Properties.putAll ∅ calls).lookup k = some v := by
        rw [lookup_setProperties, Option.map_eq_some_iff]
        constructor
        · rintro ⟨w, hw, heq⟩
          rw [hw, URLEncoder.encode_injective heq]
        · intro hv
          exact ⟨v, hv, rfl⟩

/-- **What was set is what is parsed**, if no key and no value of it is empty. -/
theorem parseProperties_entriesText (h : (setProperties calls).ListedBy es)
    (hne : (Properties.putAll ∅ calls).NoEmpty) :
    parseProperties (some (entriesText es)) = .ok (some (Properties.putAll ∅ calls)) := by
  have hfound : keyValues (entriesText es) = es := by
    have hencoded : ∀ e ∈ es, ∃ a b, (a ≠ [] ∧ b ≠ []) ∧
        (URLEncoder.encode a, URLEncoder.encode b) = e := by
      intro e he
      obtain ⟨a, b, hab, heq⟩ := exists_of_lookup_setProperties ((h.mem_iff e.1 e.2).mp he)
      exact ⟨a, b, hne a b hab, heq⟩
    refine keyValues_entriesText ?_ ?_ ?_
    · intro e he
      obtain ⟨a, b, ⟨ha, hb⟩, rfl⟩ := hencoded e he
      exact ⟨mt URLEncoder.encode_eq_nil.mp ha, mt URLEncoder.encode_eq_nil.mp hb⟩
    · intro e he c hc
      obtain ⟨a, b, -, rfl⟩ := hencoded e he
      exact isKeyChar_of_isEncoded (URLEncoder.isEncoded_of_mem_encode hc)
    · intro e he c hc
      obtain ⟨a, b, -, rfl⟩ := hencoded e he
      exact isValueChar_of_isEncoded (URLEncoder.isEncoded_of_mem_encode hc)
  obtain ⟨kvs, rfl⟩ := exists_map_of_listedBy h
  rw [parseProperties, hfound, foldlM_parseProperty, putAll_of_listedBy h]
  rfl

/-- A round of the loop keeps empty keys and values out. -/
theorem noEmpty_of_parseProperty {kv : List Char × List Char} (hp : p.NoEmpty)
    (hkv : kv.1 ≠ [] ∧ kv.2 ≠ []) (h : parseProperty p kv = .ok q) : q.NoEmpty := by
  rw [parseProperty] at h
  split at h
  · next key value hkey hvalue =>
    obtain rfl := Except.ok.inj h
    exact hp.insert (URLDecoder.ne_nil_of_decodeOrThrow hkey hkv.1)
      (URLDecoder.ne_nil_of_decodeOrThrow hvalue hkv.2)
  · exact absurd h (by simp)
  · exact absurd h (by simp)

theorem noEmpty_of_foldlM {kvs : List (List Char × List Char)} (hp : p.NoEmpty)
    (hkvs : ∀ kv ∈ kvs, kv.1 ≠ [] ∧ kv.2 ≠ []) (h : kvs.foldlM parseProperty p = .ok q) :
    q.NoEmpty :=
  (rounds_of_foldlM_eq_ok h).invariant
    (fun _ kv _ hkv hp h => noEmpty_of_parseProperty hp (hkvs kv hkv) h) hp

/-- **What is parsed has no empty key and no empty value**, whatever the text. -/
theorem noEmpty_of_parseProperties {text : Option (List Char)}
    (h : parseProperties text = .ok (some p)) : p.NoEmpty := by
  cases text with
  | none => exact absurd (Except.ok.inj h) (by simp)
  | some text =>
    rw [parseProperties] at h
    cases hfold : (keyValues text).foldlM parseProperty ∅ with
    | error e =>
      rw [hfold] at h
      exact absurd h (by simp)
    | ok r =>
      rw [hfold] at h
      obtain rfl : r = p := Option.some.inj (Except.ok.inj h)
      exact noEmpty_of_foldlM Properties.noEmpty_empty (fun _ => ne_nil_of_mem_keyValues) hfold

end Parsed

end Shabdiz
