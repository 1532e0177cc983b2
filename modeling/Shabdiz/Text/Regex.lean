import Mathlib.Computability.Language

/-!
# Backtracking regular expressions

The regular expressions of a backtracking matcher: literals, character classes, sequence, greedy
options and repetitions, and groups that capture what they match. `ways` lists the ways an
expression matches at the beginning of a text in the order the matcher tries them, so that the
first of the list is the match it reports.

## Main definitions

* `Regex`, `Regex.lang` — the expressions, and the texts they stand for
* `Regex.ways` — the ways to match, in the order of the matcher
* `Regex.fullMatch`, `Regex.findAll` — `matches()` on a whole text, and the loop over `find()`

## Main results

* `Regex.exists_mem_ways_iff` — the matcher finds exactly the texts of the language
* `Regex.mem_ways_group`, `Regex.lookup_of_mem_ways` — a group captures what its expression
  consumes, and nothing else changes
* `Regex.fullMatch_eq_none_iff`, `Regex.mem_ways_of_fullMatch` — what `matches()` tells
* `Regex.findAll_append`, `Regex.exists_mem_ways_of_mem_findAll` — what the loop finds
* `Regex.head?_ways_opt_plus` — a greedy repetition takes the whole run
-/

namespace Shabdiz

/-- Regular expressions over an alphabet. A repetition is that of a class. -/
inductive Regex (α : Type) where
  | lit (w : List α)
  | cls (p : α → Bool)
  | seq (r q : Regex α)
  | opt (r : Regex α)
  | star (p : α → Bool)
  | group (n : ℕ) (r : Regex α)

/-- The texts the groups have captured, the latest first. -/
abbrev Captures (α : Type) := List (ℕ × List α)

namespace Regex

variable {α : Type}

/-- One or more of a class. -/
def plus (p : α → Bool) : Regex α := .seq (.cls p) (.star p)

/-- The texts an expression stands for. -/
def lang : Regex α → Language α
  | lit w => {w}
  | cls p => {w | ∃ c, p c = true ∧ w = [c]}
  | seq r q => r.lang * q.lang
  | opt r => 1 + r.lang
  | star p => {w | ∀ c ∈ w, p c = true}
  | group _ r => r.lang

@[simp] theorem mem_lang_lit {w v : List α} : v ∈ (lit w).lang ↔ v = w := Iff.rfl

@[simp] theorem mem_lang_cls {p : α → Bool} {v : List α} :
    v ∈ (cls p).lang ↔ ∃ c, p c = true ∧ v = [c] := Iff.rfl

@[simp] theorem mem_lang_seq {r q : Regex α} {v : List α} :
    v ∈ (seq r q).lang ↔ ∃ x ∈ r.lang, ∃ y ∈ q.lang, x ++ y = v := Language.mem_mul

@[simp] theorem mem_lang_opt {r : Regex α} {v : List α} :
    v ∈ (opt r).lang ↔ v = [] ∨ v ∈ r.lang := by
  rw [lang, Language.mem_add, Language.mem_one]

@[simp] theorem mem_lang_star {p : α → Bool} {v : List α} :
    v ∈ (star p).lang ↔ ∀ c ∈ v, p c = true := Iff.rfl

@[simp] theorem mem_lang_group {n : ℕ} {r : Regex α} {v : List α} :
    v ∈ (group n r).lang ↔ v ∈ r.lang := Iff.rfl

theorem ne_nil_of_mem_lang_plus {p : α → Bool} {v : List α} (h : v ∈ (plus p).lang) :
    v ≠ [] := by
  obtain ⟨x, ⟨c, -, rfl⟩, y, -, rfl⟩ := mem_lang_seq.mp h
  exact List.cons_ne_nil _ _

/-- The numbers of an expression's groups. -/
def groups : Regex α → List ℕ
  | lit _ => []
  | cls _ => []
  | seq r q => r.groups ++ q.groups
  | opt r => r.groups
  | star _ => []
  | group n r => n :: r.groups

/-! ### Runs of a class -/

/-- What can be left after a run of a class, the longest run first. -/
def runs (p : α → Bool) : List α → List (List α)
  | [] => [[]]
  | c :: s => if p c then runs p s ++ [c :: s] else [c :: s]

section Runs

variable {p : α → Bool} {s t w : List α}

/-- What is left after a run is what some run of the class leaves. -/
theorem mem_runs_iff : t ∈ runs p s ↔ ∃ w, (∀ c ∈ w, p c = true) ∧ w ++ t = s := by
  induction s generalizing t with
  | nil =>
    rw [runs, List.mem_singleton]
    constructor
    · rintro rfl
      exact ⟨[], by simp, rfl⟩
    · rintro ⟨w, -, h⟩
      exact (List.append_eq_nil_iff.mp h).2
  | cons a s ih =>
    rw [runs]
    constructor
    · intro h
      split at h
      · next ha =>
        obtain h | h := List.mem_append.mp h
        · obtain ⟨w, hw, rfl⟩ := ih.mp h
          exact ⟨a :: w, List.forall_mem_cons.mpr ⟨ha, hw⟩, rfl⟩
        · exact ⟨[], by simp, List.mem_singleton.mp h⟩
      · exact ⟨[], by simp, List.mem_singleton.mp h⟩
    · rintro ⟨w, hw, h⟩
      cases w with
      | nil =>
        obtain rfl : t = a :: s := h
        split <;> simp
      | cons b w =>
        obtain ⟨rfl, rfl⟩ := List.cons.inj h
        rw [List.forall_mem_cons] at hw
        rw [if_pos hw.1]
        exact List.mem_append_left _ (ih.mpr ⟨w, hw.2, rfl⟩)

/-- A text that does not go on with the class. -/
def Stops (p : α → Bool) (t : List α) : Prop :=
  ∀ c ∈ t.head?, p c = false

theorem stops_nil : Stops p ([] : List α) := by
  rintro c ⟨⟩

theorem stops_cons {c : α} (h : p c = false) : Stops p (c :: t) := by
  intro b hb
  obtain rfl : c = b := Option.some.inj hb
  exact h

theorem head?_runs (hw : ∀ c ∈ w, p c = true) (ht : Stops p t) :
    (runs p (w ++ t)).head? = some t := by
  induction w with
  | nil =>
    cases t with
    | nil => rfl
    | cons c t =>
      rw [List.nil_append, runs, ht c rfl]
      rfl
  | cons c w ih =>
    rw [List.forall_mem_cons] at hw
    rw [List.cons_append, runs, if_pos hw.1, List.head?_append, ih hw.2, Option.some_or]

end Runs

/-! ### The matcher -/

section Matcher

variable [DecidableEq α]

/-- The ways to match at the beginning of a text: what they leave of it, and what the groups have
captured. -/
def ways : Regex α → List α → Captures α → List (List α × Captures α)
  | lit w, s, cs => if w <+: s then [(s.drop w.length, cs)] else []
  | cls _, [], _ => []
  | cls p, c :: s, cs => if p c then [(s, cs)] else []
  | seq r q, s, cs => (r.ways s cs).flatMap fun x => q.ways x.1 x.2
  | opt r, s, cs => r.ways s cs ++ [(s, cs)]
  | star p, s, cs => (runs p s).map fun t => (t, cs)
  | group n r, s, cs =>
    (r.ways s cs).map fun x => (x.1, (n, s.take (s.length - x.1.length)) :: x.2)

section Ways

variable {r q : Regex α} {p : α → Bool} {s w : List α} {cs : Captures α}

theorem ways_lit : (lit w).ways s cs = if w <+: s then [(s.drop w.length, cs)] else [] := rfl

theorem ways_cls_nil : (cls p).ways [] cs = [] := rfl

theorem ways_cls_cons {c : α} : (cls p).ways (c :: s) cs = if p c then [(s, cs)] else [] := rfl

theorem ways_seq : (seq r q).ways s cs = (r.ways s cs).flatMap fun x => q.ways x.1 x.2 := rfl

theorem ways_opt : (opt r).ways s cs = r.ways s cs ++ [(s, cs)] := rfl

theorem ways_star : (star p).ways s cs = (runs p s).map fun t => (t, cs) := rfl

theorem ways_group {n : ℕ} : (group n r).ways s cs =
    (r.ways s cs).map fun x => (x.1, (n, s.take (s.length - x.1.length)) :: x.2) := rfl

end Ways

/-- `matches()`: the captures of the first way that leaves nothing. -/
def fullMatch (r : Regex α) (s : List α) : Option (Captures α) :=
  ((r.ways s []).find? (·.1.isEmpty)).map (·.2)

/-- The captures of the matches that `find()` reports, with the first `skip` characters of the text
passed over. The search goes on where a match has ended, or one character further where that is
empty. -/
def findFrom (r : Regex α) : (skip : ℕ) → List α → List (Captures α)
  | 0, [] => ((r.ways [] []).head?.map (·.2)).toList
  | _ + 1, [] => []
  | 0, c :: s =>
    match (r.ways (c :: s) []).head? with
    | none => findFrom r 0 s
    | some (t, cs) => cs :: findFrom r (s.length - t.length) s
  | k + 1, _ :: s => findFrom r k s

/-- The captures of the matches a loop over `find()` sees in a text. -/
def findAll (r : Regex α) (s : List α) : List (Captures α) :=
  findFrom r 0 s

/-! ### What is matched -/

variable {r q : Regex α} {p : α → Bool} {s t w : List α} {cs cs' : Captures α}

theorem mem_ways_seq {x : List α × Captures α} :
    x ∈ (seq r q).ways s cs ↔ ∃ y ∈ r.ways s cs, x ∈ q.ways y.1 y.2 :=
  List.mem_flatMap

theorem mem_ways_lit {x : List α × Captures α} :
    x ∈ (lit w).ways s cs ↔ w ++ x.1 = s ∧ x.2 = cs := by
  rw [ways_lit]
  split
  · next h =>
    obtain ⟨t, rfl⟩ := h
    rw [List.drop_left, List.mem_singleton, Prod.ext_iff, List.append_cancel_left_eq]
  · next h =>
    constructor
    · intro hx
      exact absurd hx List.not_mem_nil
    · rintro ⟨rfl, -⟩
      exact absurd (List.prefix_append _ _) h

theorem mem_ways_cls {x : List α × Captures α} :
    x ∈ (cls p).ways s cs ↔ ∃ c, p c = true ∧ c :: x.1 = s ∧ x.2 = cs := by
  cases s with
  | nil => simp [ways_cls_nil]
  | cons a s =>
    rw [ways_cls_cons]
    split
    · next ha =>
      rw [List.mem_singleton, Prod.ext_iff]
      constructor
      · rintro ⟨rfl, rfl⟩
        exact ⟨a, ha, rfl, rfl⟩
      · rintro ⟨c, -, h, rfl⟩
        exact ⟨(List.cons.inj h).2, rfl⟩
    · next ha =>
      constructor
      · intro hx
        exact absurd hx List.not_mem_nil
      · rintro ⟨c, hc, h, -⟩
        exact absurd ((List.cons.inj h).1 ▸ hc) ha

/-- **What the matcher finds.** There is a way to match that leaves a given rest exactly when what
it consumes is in the language, whatever was captured before. -/
theorem exists_mem_ways_iff :
    (∃ cs', (t, cs') ∈ r.ways s cs) ↔ ∃ w ∈ r.lang, w ++ t = s := by
  induction r generalizing s t cs with
  | lit w => simp [mem_ways_lit]
  | cls p =>
    simp only [mem_ways_cls, mem_lang_cls]
    constructor
    · rintro ⟨_, c, hc, h, -⟩
      exact ⟨[c], ⟨c, hc, rfl⟩, h⟩
    · rintro ⟨_, ⟨c, hc, rfl⟩, h⟩
      exact ⟨cs, c, hc, h, rfl⟩
  | seq r q ihr ihq =>
    simp only [mem_ways_seq, mem_lang_seq]
    constructor
    · rintro ⟨cs', ⟨u, cu⟩, hu, ht⟩
      obtain ⟨x, hx, rfl⟩ := ihr.mp ⟨cu, hu⟩
      obtain ⟨y, hy, rfl⟩ := ihq.mp ⟨cs', ht⟩
      exact ⟨x ++ y, ⟨x, hx, y, hy, rfl⟩, List.append_assoc ..⟩
    · rintro ⟨_, ⟨x, hx, y, hy, rfl⟩, h⟩
      obtain ⟨cu, hu⟩ := ihr.mpr ⟨x, hx, (List.append_assoc ..).symm.trans h⟩
      obtain ⟨cs', ht⟩ := ihq.mpr ⟨y, hy, rfl⟩
      exact ⟨cs', _, hu, ht⟩
  | opt r ih =>
    simp only [ways_opt, List.mem_append, List.mem_singleton, mem_lang_opt, exists_or, ih]
    constructor
    · rintro (⟨w, hw, h⟩ | ⟨cs', h⟩)
      · exact ⟨w, Or.inr hw, h⟩
      · exact ⟨[], Or.inl rfl, (Prod.mk.inj h).1⟩
    · rintro ⟨w, rfl | hw, h⟩
      · exact Or.inr ⟨cs, Prod.ext h rfl⟩
      · exact Or.inl ⟨w, hw, h⟩
  | star p =>
    simp only [ways_star, List.mem_map, mem_lang_star]
    constructor
    · rintro ⟨cs', u, hu, h⟩
      obtain ⟨rfl, -⟩ := Prod.mk.inj h
      exact mem_runs_iff.mp hu
    · intro h
      exact ⟨cs, t, mem_runs_iff.mpr h, rfl⟩
  | group n r ih =>
    simp only [ways_group, List.mem_map, mem_lang_group]
    constructor
    · rintro ⟨_, ⟨u, cu⟩, hu, h⟩
      obtain ⟨rfl, -⟩ := Prod.mk.inj h
      exact ih.mp ⟨cu, hu⟩
    · intro h
      obtain ⟨cu, hu⟩ := ih.mpr h
      exact ⟨_, (t, cu), hu, rfl⟩

/-- What a way to match consumes is in the language. -/
theorem exists_mem_lang_of_mem_ways (h : (t, cs') ∈ r.ways s cs) :
    ∃ w ∈ r.lang, w ++ t = s :=
  exists_mem_ways_iff.mp ⟨cs', h⟩

/-- **A group captures what its expression consumes**, which is in the language. -/
theorem mem_ways_group {n : ℕ} (h : (t, cs') ∈ (group n r).ways s cs) :
    ∃ w ∈ r.lang, ∃ cu, (t, cu) ∈ r.ways s cs ∧ w ++ t = s ∧ cs' = (n, w) :: cu := by
  obtain ⟨⟨u, cu⟩, hu, h⟩ := List.mem_map.mp h
  obtain ⟨rfl, rfl⟩ := Prod.mk.inj h
  obtain ⟨w, hw, rfl⟩ := exists_mem_lang_of_mem_ways hu
  refine ⟨w, hw, cu, hu, rfl, ?_⟩
  simp only [List.length_append, Nat.add_sub_cancel, List.take_left]

/-- An expression captures for its own groups only. -/
theorem lookup_of_mem_ways {n : ℕ} (hn : n ∉ r.groups) (h : (t, cs') ∈ r.ways s cs) :
    cs'.lookup n = cs.lookup n := by
  induction r generalizing s t cs cs' with
  | lit w =>
    obtain rfl : cs' = cs := (mem_ways_lit.mp h).2
    rfl
  | cls p =>
    obtain ⟨c, -, -, rfl⟩ := mem_ways_cls.mp h
    rfl
  | seq r q ihr ihq =>
    rw [groups, List.mem_append, not_or] at hn
    obtain ⟨⟨u, cu⟩, hu, ht⟩ := mem_ways_seq.mp h
    rw [ihq hn.2 ht, ihr hn.1 hu]
  | opt r ih =>
    obtain h | h := List.mem_append.mp h
    · exact ih hn h
    · rw [(Prod.mk.inj (List.mem_singleton.mp h)).2]
  | star p =>
    obtain ⟨u, -, h⟩ := List.mem_map.mp h
    rw [(Prod.mk.inj h).2]
  | group m r ih =>
    rw [groups, List.mem_cons, not_or] at hn
    obtain ⟨w, -, cu, hu, -, rfl⟩ := mem_ways_group h
    rw [List.lookup_cons, beq_false_of_ne hn.1]
    exact ih hn.2 hu

/-! ### The first way -/

theorem head?_flatMap_of_head? {β γ : Type} {l : List β} {f : β → List γ} {x : β} {y : γ}
    (hx : l.head? = some x) (hy : (f x).head? = some y) : (l.flatMap f).head? = some y := by
  obtain ⟨l, rfl⟩ := List.head?_eq_some_iff.mp hx
  rw [List.flatMap_cons, List.head?_append, hy, Option.some_or]

theorem head?_ways_seq {x y : List α × Captures α} (hx : (r.ways s cs).head? = some x)
    (hy : (q.ways x.1 x.2).head? = some y) : ((seq r q).ways s cs).head? = some y :=
  head?_flatMap_of_head? hx hy

theorem head?_ways_lit (w t : List α) (cs : Captures α) :
    ((lit w).ways (w ++ t) cs).head? = some (t, cs) := by
  rw [ways_lit, if_pos (List.prefix_append w t), List.drop_left, List.head?_cons]

theorem head?_ways_cls {c : α} (hc : p c = true) (t : List α) (cs : Captures α) :
    ((cls p).ways (c :: t) cs).head? = some (t, cs) := by
  rw [ways_cls_cons, if_pos hc, List.head?_cons]

theorem head?_ways_group (n : ℕ) (h : (r.ways (w ++ t) cs).head? = some (t, cs')) :
    ((group n r).ways (w ++ t) cs).head? = some (t, (n, w) :: cs') := by
  rw [ways_group, List.head?_map, h, Option.map_some, List.length_append, Nat.add_sub_cancel,
    List.take_left]

/-- An option that can be taken is taken. -/
theorem head?_ways_opt {x : List α × Captures α} (h : (r.ways s cs).head? = some x) :
    ((opt r).ways s cs).head? = some x := by
  rw [ways_opt, List.head?_append, h, Option.some_or]

theorem head?_ways_opt_of_nil (h : r.ways s cs = []) :
    ((opt r).ways s cs).head? = some (s, cs) := by
  rw [ways_opt, h, List.nil_append, List.head?_cons]

/-- A greedy repetition takes the whole run. -/
theorem head?_ways_plus (hne : w ≠ []) (hw : ∀ c ∈ w, p c = true) (ht : Stops p t) :
    ((plus p).ways (w ++ t) cs).head? = some (t, cs) := by
  obtain ⟨c, w, rfl⟩ := List.exists_cons_of_ne_nil hne
  rw [List.forall_mem_cons] at hw
  refine head?_ways_seq (x := (w ++ t, cs)) ?_ ?_
  · exact head?_ways_cls hw.1 _ _
  · rw [ways_star, List.head?_map, head?_runs hw.2 ht, Option.map_some]

/-- There is no repetition where the run does not go on. -/
theorem ways_plus_of_stops (ht : Stops p t) : (plus p).ways t cs = [] := by
  cases t with
  | nil => rfl
  | cons c t =>
    rw [plus, ways_seq, ways_cls_cons, ht c rfl]
    rfl

/-- **An optional character before a greedy repetition** leaves the run to it: whether the option
takes the first character or, with a run of one character, has to give it back, the whole run is
taken. -/
theorem head?_ways_opt_plus {o : α → Bool} (hne : w ≠ []) (hw : ∀ c ∈ w, p c = true)
    (ht : Stops p t) :
    ((seq (opt (cls o)) (plus p)).ways (w ++ t) cs).head? = some (t, cs) := by
  have hplus : ((plus p).ways (w ++ t) cs).head? = some (t, cs) := head?_ways_plus hne hw ht
  obtain ⟨c, w, rfl⟩ := List.exists_cons_of_ne_nil hne
  rw [List.forall_mem_cons] at hw
  by_cases hc : o c = true
  · have hopt : (opt (cls o)).ways (c :: w ++ t) cs = [(w ++ t, cs), (c :: w ++ t, cs)] := by
      simp [ways_opt, ways_cls_cons, hc]
    rw [ways_seq, hopt, List.flatMap_cons, List.head?_append, List.flatMap_singleton, hplus]
    obtain rfl | hnil := eq_or_ne w []
    · rw [List.nil_append, ways_plus_of_stops ht]
      rfl
    · rw [head?_ways_plus hnil hw.2 ht, Option.some_or]
  · have hopt : (opt (cls o)).ways (c :: w ++ t) cs = [(c :: w ++ t, cs)] := by
      simp [ways_opt, ways_cls_cons, hc]
    rw [ways_seq, hopt, List.flatMap_singleton, hplus]

/-! ### Whole texts, and searches -/

/-- What `matches()` reports is a way to match the whole text. -/
theorem mem_ways_of_fullMatch (h : r.fullMatch s = some cs) : ([], cs) ∈ r.ways s [] := by
  obtain ⟨⟨t, cs⟩, hfind, rfl⟩ := Option.map_eq_some_iff.mp h
  have ht : t = [] := List.isEmpty_iff.mp (List.find?_some hfind :)
  rw [ht] at hfind
  exact List.mem_of_find?_eq_some hfind

/-- `matches()` fails exactly on the texts outside the language. -/
theorem fullMatch_eq_none_iff : r.fullMatch s = none ↔ s ∉ r.lang := by
  rw [fullMatch, Option.map_eq_none_iff, List.find?_eq_none]
  constructor
  · intro h hs
    obtain ⟨cs, hcs⟩ := exists_mem_ways_iff.mpr ⟨s, hs, List.append_nil s⟩
    exact h _ hcs rfl
  · rintro h ⟨t, cs⟩ hx ht
    obtain rfl : t = [] := List.isEmpty_iff.mp ht
    obtain ⟨w, hw, rfl⟩ := exists_mem_lang_of_mem_ways hx
    rw [List.append_nil] at h
    exact h hw

/-- A literal at the beginning is passed over. -/
theorem fullMatch_seq_lit (w t : List α) (q : Regex α) :
    (seq (lit w) q).fullMatch (w ++ t) = q.fullMatch t := by
  rw [fullMatch, ways_seq, ways_lit, if_pos (List.prefix_append w t), List.drop_left,
    List.flatMap_singleton, fullMatch]

/-- An option at the beginning is taken where a text can be matched with it. -/
theorem fullMatch_seq_opt (h : s ∈ (seq r q).lang) :
    (seq (opt r) q).fullMatch s = (seq r q).fullMatch s := by
  have hsplit : (seq (opt r) q).ways s [] = (seq r q).ways s [] ++ q.ways s [] := by
    simp only [ways_seq, ways_opt, List.flatMap_append, List.flatMap_singleton]
  have hsome := mt fullMatch_eq_none_iff.mp (not_not_intro h)
  rw [fullMatch, Option.map_eq_none_iff] at hsome
  obtain ⟨x, hx⟩ := Option.ne_none_iff_exists'.mp hsome
  rw [fullMatch, fullMatch, hsplit, List.find?_append, hx, Option.some_or]

theorem findFrom_append (r : Regex α) (w t : List α) :
    r.findFrom w.length (w ++ t) = r.findFrom 0 t := by
  induction w with
  | nil => rfl
  | cons c w ih => rw [List.length_cons, List.cons_append, findFrom, ih]

/-- A search for the rest of a text goes on where a match that is not empty has ended. -/
theorem findAll_append (hne : w ≠ []) (h : (r.ways (w ++ t) []).head? = some (t, cs)) :
    r.findAll (w ++ t) = cs :: r.findAll t := by
  obtain ⟨c, w, rfl⟩ := List.exists_cons_of_ne_nil hne
  rw [List.cons_append] at h
  rw [findAll, List.cons_append, findFrom, h]
  simp only [List.length_append, Nat.add_sub_cancel]
  rw [findFrom_append, findAll]

theorem exists_mem_ways_of_mem_findFrom {k : ℕ} (h : cs ∈ r.findFrom k s) :
    ∃ s t, (t, cs) ∈ r.ways s [] := by
  fun_induction findFrom r k s with
  | case1 =>
    obtain ⟨⟨t, cs⟩, hx, rfl⟩ := Option.map_eq_some_iff.mp (Option.mem_toList.mp h)
    exact ⟨[], t, List.mem_of_head? hx⟩
  | case2 => exact absurd h List.not_mem_nil
  | case3 c s _ ih => exact ih h
  | case4 c s t cs' hx ih =>
    obtain rfl | h := List.mem_cons.mp h
    · exact ⟨c :: s, t, List.mem_of_head? hx⟩
    · exact ih h
  | case5 k c s ih => exact ih h

/-- Whatever a search reports, it is a way to match somewhere. -/
theorem exists_mem_ways_of_mem_findAll (h : cs ∈ r.findAll s) :
    ∃ s t, (t, cs) ∈ r.ways s [] :=
  exists_mem_ways_of_mem_findFrom h

end Matcher

end Regex

end Shabdiz
