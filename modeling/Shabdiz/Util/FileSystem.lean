import Mathlib.Data.List.Induction
import Mathlib.Data.List.AList

/-!
# Directories, files and links

A file system as `java.io.File` meets it on a system with symbolic links. An entry is found under
its real path, the names from the root directory down. A path that a program uses may also go up,
and through links: it is resolved one component at a time, and a link is replaced by its target. The
system goes on from a directory only if the program may search it, follows a bounded number of links
in one resolution, and gives up after that.

`exists`, `isDirectory`, `isFile`, `listFiles` and `getCanonicalFile` resolve the whole path;
`delete` resolves all but the last component, and removes what it finds there, be it a link.

## Main definitions

* `FileEntry`, `FileSystem` — entries by their real paths
* `FileSystem.walk`, `FileSystem.Walks` — the resolution of a path, computed and as a relation
* `FileSystem.Within`, `FileSystem.write` — a file system after deletions, and with a file written
* `FileAccess` — what the system allows, and the order in which it lists
* `FileAccess.canonical`, `FileAccess.listFiles`, `FileAccess.delete`, … — `java.io.File`

## Main results

* `FileSystem.walk_eq_some_iff` — the relation is what is computed
* `FileSystem.Walks.append_iff` — paths are resolved piece by piece
* `FileSystem.Walks.mono` — what is resolved after deletions was resolved before
-/

namespace Shabdiz

/-- A component of a path. -/
inductive PathComponent (ν : Type) where
  /-- `..`. -/
  | up
  | name (n : ν)
deriving DecidableEq

/-- The text of a link. -/
structure LinkTarget (ν : Type) where
  absolute : Bool
  components : List (PathComponent ν)
deriving DecidableEq

/-- What a path leads to. -/
inductive FileEntry (ν γ : Type) where
  | directory
  | file (content : γ)
  | link (target : LinkTarget ν)
deriving DecidableEq

/-- Entries by their real paths. The root directory is no entry; every other entry is in a
directory. -/
structure FileSystem (ν γ : Type) where
  entries : AList fun _ : List ν => FileEntry ν γ
  root : [] ∉ entries
  closed : ∀ p n, p ++ [n] ∈ entries → p = [] ∨ ⟨p, .directory⟩ ∈ entries.entries

/-- Every entry is in a directory, if what its path begins with is one. -/
theorem FileSystem.closed_of_forall_mem {ν γ : Type}
    {entries : AList fun _ : List ν => FileEntry ν γ}
    (h : ∀ q ∈ entries.keys, q.dropLast = [] ∨ ⟨q.dropLast, .directory⟩ ∈ entries.entries) :
    ∀ p n, p ++ [n] ∈ entries → p = [] ∨ ⟨p, .directory⟩ ∈ entries.entries := by
  intro p n hmem
  have hdropLast := h (p ++ [n]) (AList.mem_keys.mp hmem)
  rwa [List.dropLast_concat] at hdropLast

/-- Where the target of a link in the directory `p` begins. -/
def LinkTarget.start {ν : Type} (target : LinkTarget ν) (p : List ν) : List ν :=
  if target.absolute then [] else p

namespace FileSystem

variable {ν γ : Type} [DecidableEq ν] {fs fs' : FileSystem ν γ}

/-- What is at a path, no link being followed. -/
def entryOf (fs : FileSystem ν γ) (p : List ν) : Option (FileEntry ν γ) := fs.entries.lookup p

/-- Whether there is a directory at a real path. -/
def isDirectoryAt (fs : FileSystem ν γ) (p : List ν) : Bool :=
  p = [] || match fs.entryOf p with
    | some .directory => true
    | _ => false

/-- The names in a directory. -/
def children (fs : FileSystem ν γ) (p : List ν) : List ν :=
  fs.entries.keys.filterMap fun q => if q.dropLast = p then q.getLast? else none

theorem isDirectoryAt_iff {p : List ν} :
    fs.isDirectoryAt p = true ↔ p = [] ∨ fs.entryOf p = some .directory := by
  rw [isDirectoryAt, Bool.or_eq_true, decide_eq_true_eq]
  refine or_congr_right ?_
  split <;> simp_all

theorem isDirectoryAt_of_entryOf {p : List ν} {n : ν} {e : FileEntry ν γ}
    (h : fs.entryOf (p ++ [n]) = some e) : fs.isDirectoryAt p = true := by
  rw [isDirectoryAt_iff]
  refine (fs.closed p n ?_).imp id AList.mem_lookup_iff.mpr
  exact AList.lookup_isSome.mp (by rw [← entryOf, h]; rfl)

theorem mem_children_iff {p : List ν} {n : ν} :
    n ∈ fs.children p ↔ ∃ e, fs.entryOf (p ++ [n]) = some e := by
  rw [children, List.mem_filterMap, ← Option.isSome_iff_exists, entryOf, AList.lookup_isSome,
    AList.mem_keys]
  constructor
  · rintro ⟨q, hq, h⟩
    obtain ⟨rfl, hlast⟩ := Option.ite_none_right_eq_some.mp h
    rwa [List.dropLast_append_getLast? n hlast]
  · intro h
    exact ⟨p ++ [n], h, by simp⟩

/-- The file system without an entry that has nothing in it. -/
def remove (fs : FileSystem ν γ) (q : List ν) (hq : fs.children q = []) : FileSystem ν γ where
  entries := fs.entries.erase q
  root := fun h => fs.root (AList.mem_erase.mp h).2
  closed := by
    intro p n h
    obtain ⟨-, hmem⟩ := AList.mem_erase.mp h
    refine (fs.closed p n hmem).imp id fun hdir => ?_
    have hne : p ≠ q := by
      rintro rfl
      have hchild : n ∈ fs.children p :=
        mem_children_iff.mpr (Option.isSome_iff_exists.mp (AList.lookup_isSome.mpr hmem))
      rw [hq] at hchild
      exact List.not_mem_nil hchild
    rw [← AList.mem_lookup_iff, AList.lookup_erase_ne hne]
    exact AList.mem_lookup_iff.mpr hdir

theorem entryOf_remove_self {q : List ν} (hq : fs.children q = []) :
    (fs.remove q hq).entryOf q = none :=
  AList.lookup_erase q fs.entries

theorem entryOf_remove_of_ne {p q : List ν} (hq : fs.children q = []) (h : p ≠ q) :
    (fs.remove q hq).entryOf p = fs.entryOf p :=
  AList.lookup_erase_ne h

/-- Whether a file can be written at a real path: there is one, or nothing in a directory. -/
def isWritableAt (fs : FileSystem ν γ) (q : List ν) : Bool :=
  q ≠ [] && fs.isDirectoryAt q.dropLast && match fs.entryOf q with
    | none => true
    | some (.file _) => true
    | _ => false

theorem isDirectoryAt_of_isWritableAt {q : List ν} (h : fs.isWritableAt q = true) :
    q ≠ [] ∧ fs.isDirectoryAt q.dropLast = true ∧ fs.isDirectoryAt q = false ∧
      ∀ target, fs.entryOf q ≠ some (.link target) := by
  obtain ⟨h, hfile⟩ := Bool.and_eq_true_iff.mp h
  obtain ⟨hne, hdir⟩ := Bool.and_eq_true_iff.mp h
  have hne := of_decide_eq_true hne
  refine ⟨hne, hdir, ?_, fun target htarget => ?_⟩
  · rw [Bool.eq_false_iff, Ne, isDirectoryAt_iff]
    rintro (hnil | hdirectory)
    · exact hne hnil
    · rw [hdirectory] at hfile
      cases hfile
  · rw [htarget] at hfile
    cases hfile

/-- The file system with a file that was written. -/
def write (fs : FileSystem ν γ) (q : List ν) (content : γ) (h : fs.isWritableAt q = true) :
    FileSystem ν γ where
  entries := fs.entries.insert q (.file content)
  root hmem := by
    obtain hq | hmem := AList.mem_insert _ |>.mp hmem
    · exact (isDirectoryAt_of_isWritableAt h).1 hq.symm
    · exact fs.root hmem
  closed p n hmem := by
    obtain ⟨-, hparent, hfile, -⟩ := isDirectoryAt_of_isWritableAt h
    have hdir : fs.isDirectoryAt p = true := by
      obtain rfl | hmem := AList.mem_insert _ |>.mp hmem
      · rwa [List.dropLast_concat] at hparent
      · exact isDirectoryAt_iff.mpr ((fs.closed p n hmem).imp id AList.mem_lookup_iff.mpr)
    refine (isDirectoryAt_iff.mp hdir).imp id fun hentry => ?_
    have hne : p ≠ q := by
      rintro rfl
      rw [hdir] at hfile
      cases hfile
    rw [← AList.mem_lookup_iff, AList.lookup_insert_ne hne]
    exact hentry

section Write

variable {q : List ν} {content : γ} {h : fs.isWritableAt q = true}

theorem entryOf_write_self : (fs.write q content h).entryOf q = some (.file content) :=
  AList.lookup_insert _

theorem entryOf_write_of_ne {p : List ν} (hp : p ≠ q) :
    (fs.write q content h).entryOf p = fs.entryOf p :=
  AList.lookup_insert_ne hp

/-- No directory is written. -/
theorem isDirectoryAt_write (p : List ν) :
    (fs.write q content h).isDirectoryAt p = fs.isDirectoryAt p := by
  obtain ⟨hne, -, hfile, -⟩ := isDirectoryAt_of_isWritableAt h
  obtain rfl | hp := eq_or_ne p q
  · rw [hfile, Bool.eq_false_iff, Ne, isDirectoryAt_iff, entryOf_write_self]
    simp [hne]
  · rw [Bool.eq_iff_iff, isDirectoryAt_iff, isDirectoryAt_iff, entryOf_write_of_ne hp]

/-- No link is written. -/
theorem entryOf_write_link {p : List ν} {target : LinkTarget ν} :
    (fs.write q content h).entryOf p = some (.link target) ↔
      fs.entryOf p = some (.link target) := by
  obtain rfl | hp := eq_or_ne p q
  · rw [entryOf_write_self]
    simp [(isDirectoryAt_of_isWritableAt h).2.2.2 target]
  · rw [entryOf_write_of_ne hp]

end Write

/-! ### Resolving a path -/

/-- The components from the directory `cur` on. What a link leads to is left to `follow`. -/
def walkFrom (fs : FileSystem ν γ) (searches : List ν → Bool)
    (follow : List ν → LinkTarget ν → List (PathComponent ν) → Option (ℕ × List ν)) (links : ℕ) :
    List ν → List (PathComponent ν) → Option (ℕ × List ν)
  | cur, [] => some (links, cur)
  | cur, c :: rest =>
    if fs.isDirectoryAt cur && searches cur then
      match c with
      | .up => walkFrom fs searches follow links cur.dropLast rest
      | .name n =>
        match fs.entryOf (cur ++ [n]) with
        | none => none
        | some (.link target) => follow cur target rest
        | some _ => walkFrom fs searches follow links (cur ++ [n]) rest
    else none

/-- The real path that is found from the directory `cur` on, with the number of links that may still
be followed. `searches` are the directories that the system goes on from. -/
def walk (fs : FileSystem ν γ) (searches : List ν → Bool) :
    ℕ → List ν → List (PathComponent ν) → Option (ℕ × List ν)
  | 0 => fs.walkFrom searches (fun _ _ _ => none) 0
  | links + 1 => fs.walkFrom searches (fun cur target rest =>
      walk fs searches links (target.start cur) (target.components ++ rest)) (links + 1)

/-- The resolution of a path, from where to where, with the number of links that may be followed
before and after. -/
inductive Walks (fs : FileSystem ν γ) (searches : List ν → Bool) :
    ℕ × List ν → List (PathComponent ν) → ℕ × List ν → Prop where
  | done {x} : Walks fs searches x [] x
  | up {links cur rest y} (hdir : fs.isDirectoryAt cur = true) (hsearch : searches cur = true)
      (h : Walks fs searches (links, cur.dropLast) rest y) :
      Walks fs searches (links, cur) (.up :: rest) y
  | enter {links cur n rest e y} (hdir : fs.isDirectoryAt cur = true)
      (hsearch : searches cur = true) (hentry : fs.entryOf (cur ++ [n]) = some e)
      (hlink : ∀ target, e ≠ .link target) (h : Walks fs searches (links, cur ++ [n]) rest y) :
      Walks fs searches (links, cur) (.name n :: rest) y
  | follow {links cur n rest target y} (hdir : fs.isDirectoryAt cur = true)
      (hsearch : searches cur = true) (hentry : fs.entryOf (cur ++ [n]) = some (.link target))
      (h : Walks fs searches (links, target.start cur) (target.components ++ rest) y) :
      Walks fs searches (links + 1, cur) (.name n :: rest) y

section Walk

variable {searches : List ν → Bool} {links : ℕ} {cur : List ν}
  {path rest : List (PathComponent ν)} {x y z : ℕ × List ν}

theorem walk_nil : fs.walk searches links cur [] = some (links, cur) := by
  cases links <;> rfl

theorem walk_up (hdir : fs.isDirectoryAt cur = true) (hsearch : searches cur = true) :
    fs.walk searches links cur (.up :: rest) = fs.walk searches links cur.dropLast rest := by
  cases links <;> simp [walk, walkFrom, hdir, hsearch]

theorem walk_enter {n : ν} {e : FileEntry ν γ} (hdir : fs.isDirectoryAt cur = true)
    (hsearch : searches cur = true) (hentry : fs.entryOf (cur ++ [n]) = some e)
    (hlink : ∀ target, e ≠ .link target) :
    fs.walk searches links cur (.name n :: rest) =
      fs.walk searches links (cur ++ [n]) rest := by
  cases e with
  | link target => exact absurd rfl (hlink target)
  | _ => cases links <;> simp [walk, walkFrom, hdir, hsearch, hentry]

theorem walk_follow {n : ν} {target : LinkTarget ν} (hdir : fs.isDirectoryAt cur = true)
    (hsearch : searches cur = true) (hentry : fs.entryOf (cur ++ [n]) = some (.link target)) :
    fs.walk searches (links + 1) cur (.name n :: rest) =
      fs.walk searches links (target.start cur) (target.components ++ rest) := by
  simp [walk, walkFrom, hdir, hsearch, hentry]

theorem walk_zero_link {n : ν} {target : LinkTarget ν}
    (hentry : fs.entryOf (cur ++ [n]) = some (.link target)) :
    fs.walk searches 0 cur (.name n :: rest) = none := by
  simp only [walk, walkFrom, hentry, ite_self]

theorem walk_of_not_passable {c : PathComponent ν}
    (h : ¬ (fs.isDirectoryAt cur && searches cur) = true) :
    fs.walk searches links cur (c :: rest) = none := by
  cases links <;> simp only [walk, walkFrom, if_neg h]

theorem walk_of_entryOf_eq_none {n : ν} (hentry : fs.entryOf (cur ++ [n]) = none) :
    fs.walk searches links cur (.name n :: rest) = none := by
  cases links <;> simp only [walk, walkFrom, hentry, ite_self]

theorem Walks.walk_eq (h : fs.Walks searches x path y) :
    fs.walk searches x.1 x.2 path = some y := by
  induction h with
  | done => exact walk_nil
  | up hdir hsearch _ ih => rwa [walk_up hdir hsearch]
  | enter hdir hsearch hentry hlink _ ih => rwa [walk_enter hdir hsearch hentry hlink]
  | follow hdir hsearch hentry _ ih => rwa [walk_follow hdir hsearch hentry]

/-- A link makes the path longer, but takes one of the links that may be followed. -/
theorem walks_of_walk_eq_step
    (hfollow : ∀ k cur path, links = k + 1 → fs.walk searches k cur path = some y →
      fs.Walks searches (k, cur) path y)
    (h : fs.walk searches links cur path = some y) : fs.Walks searches (links, cur) path y := by
  induction path generalizing cur with
  | nil =>
    rw [walk_nil] at h
    exact Option.some.inj h ▸ .done
  | cons c rest ih =>
    by_cases hpass : (fs.isDirectoryAt cur && searches cur) = true
    · obtain ⟨hdir, hsearch⟩ := Bool.and_eq_true_iff.mp hpass
      cases c with
      | up => exact .up hdir hsearch (ih (by rwa [walk_up hdir hsearch] at h))
      | name n =>
        cases hentry : fs.entryOf (cur ++ [n]) with
        | none => exact absurd h (by simp [walk_of_entryOf_eq_none hentry])
        | some e =>
          by_cases hlink : ∃ target, e = .link target
          · obtain ⟨target, rfl⟩ := hlink
            cases links with
            | zero => exact absurd h (by simp [walk_zero_link hentry])
            | succ k =>
              rw [walk_follow hdir hsearch hentry] at h
              exact .follow hdir hsearch hentry (hfollow k _ _ rfl h)
          · have hlink := not_exists.mp hlink
            exact .enter hdir hsearch hentry hlink
              (ih (by rwa [walk_enter hdir hsearch hentry hlink] at h))
    · exact absurd h (by simp [walk_of_not_passable hpass])

theorem walks_of_walk_eq (h : fs.walk searches links cur path = some y) :
    fs.Walks searches (links, cur) path y := by
  induction links generalizing cur path with
  | zero => exact walks_of_walk_eq_step (fun k _ _ hk => absurd hk (by omega)) h
  | succ links ih =>
    refine walks_of_walk_eq_step (fun k _ _ hk hwalk => ?_) h
    obtain rfl := Nat.succ.inj hk
    exact ih hwalk

/-- **The relation is what is computed.** -/
theorem walk_eq_some_iff :
    fs.walk searches links cur path = some y ↔ fs.Walks searches (links, cur) path y :=
  ⟨walks_of_walk_eq, Walks.walk_eq⟩

theorem Walks.unique (h : fs.Walks searches x path y) (h' : fs.Walks searches x path z) : y = z :=
  Option.some.inj (h.walk_eq.symm.trans h'.walk_eq)

/-- A resolution does not gain links. -/
theorem Walks.links_le (h : fs.Walks searches x path y) : y.1 ≤ x.1 := by
  induction h with
  | done => exact Nat.le_refl _
  | up _ _ _ ih => exact ih
  | enter _ _ _ _ _ ih => exact ih
  | follow _ _ _ _ ih => exact Nat.le_succ_of_le ih

theorem Walks.append (h : fs.Walks searches x path y) (h' : fs.Walks searches y rest z) :
    fs.Walks searches x (path ++ rest) z := by
  induction h with
  | done => exact h'
  | up hdir hsearch _ ih => exact .up hdir hsearch (ih h')
  | enter hdir hsearch hentry hlink _ ih => exact .enter hdir hsearch hentry hlink (ih h')
  | follow hdir hsearch hentry _ ih =>
    have hrest := ih h'
    rw [List.append_assoc] at hrest
    exact .follow hdir hsearch hentry hrest

/-- **Paths are resolved piece by piece.** -/
theorem Walks.append_iff :
    fs.Walks searches x (path ++ rest) z ↔
      ∃ y, fs.Walks searches x path y ∧ fs.Walks searches y rest z := by
  refine ⟨fun h => ?_, fun ⟨y, h, h'⟩ => h.append h'⟩
  generalize hp : path ++ rest = p at h
  induction h generalizing path with
  | done =>
    obtain ⟨rfl, rfl⟩ := List.append_eq_nil_iff.mp hp
    exact ⟨_, .done, .done⟩
  | up hdir hsearch h ih =>
    obtain ⟨rfl, rfl⟩ | ⟨path', rfl, hrest⟩ := List.append_eq_cons_iff.mp hp
    · exact ⟨_, .done, .up hdir hsearch h⟩
    · obtain ⟨y, hy, hz⟩ := ih hrest.symm
      exact ⟨y, .up hdir hsearch hy, hz⟩
  | enter hdir hsearch hentry hlink h ih =>
    obtain ⟨rfl, rfl⟩ | ⟨path', rfl, hrest⟩ := List.append_eq_cons_iff.mp hp
    · exact ⟨_, .done, .enter hdir hsearch hentry hlink h⟩
    · obtain ⟨y, hy, hz⟩ := ih hrest.symm
      exact ⟨y, .enter hdir hsearch hentry hlink hy, hz⟩
  | @follow links cur n rest' target y hdir hsearch hentry h ih =>
    obtain ⟨rfl, rfl⟩ | ⟨path', rfl, hrest⟩ := List.append_eq_cons_iff.mp hp
    · exact ⟨_, .done, .follow hdir hsearch hentry h⟩
    · have hsplit : (target.components ++ path') ++ rest = target.components ++ rest' := by
        rw [hrest, List.append_assoc]
      obtain ⟨y, hy, hz⟩ := ih hsplit
      exact ⟨y, .follow hdir hsearch hentry hy, hz⟩

/-! ### How deep a path is -/

theorem exists_length_le (fs : FileSystem ν γ) :
    ∃ depth, ∀ p e, fs.entryOf p = some e → p.length ≤ depth := by
  refine ⟨fs.entries.keys.flatten.length, fun p e h => ?_⟩
  have hmem : p ∈ fs.entries.keys :=
    AList.mem_keys.mp (AList.lookup_isSome.mp (Option.isSome_iff_exists.mpr ⟨e, h⟩))
  exact (List.sublist_flatten_of_mem hmem).length_le

/-- What is found in a directory is deeper, or a link was followed. -/
theorem depth_of_walks {depth links rest : ℕ} {p q : List ν} {n : ν}
    (hdepth : ∀ p e, fs.entryOf p = some e → p.length ≤ depth)
    (h : fs.Walks searches (links, p) [.name n] (rest, q)) :
    rest * (depth + 1) + (depth - q.length) < links * (depth + 1) + (depth - p.length) := by
  cases h with
  | enter _ _ hentry _ h =>
    cases h
    have := hdepth _ _ hentry
    rw [List.length_append, List.length_singleton] at this ⊢
    omega
  | @follow k _ _ _ _ _ _ _ _ h =>
    have hle : rest * (depth + 1) ≤ k * (depth + 1) := Nat.mul_le_mul_right _ h.links_le
    have hsucc : (k + 1) * (depth + 1) = k * (depth + 1) + (depth + 1) := Nat.succ_mul _ _
    omega

end Walk

/-! ### After deletions -/

/-- Every entry of `fs'` is one of `fs`. -/
def Within (fs' fs : FileSystem ν γ) : Prop :=
  ∀ p e, fs'.entryOf p = some e → fs.entryOf p = some e

section Within

variable {searches : List ν → Bool} {path : List (PathComponent ν)} {x y : ℕ × List ν}

theorem Within.refl (fs : FileSystem ν γ) : Within fs fs := fun _ _ h => h

theorem Within.trans {fs'' : FileSystem ν γ} (h : Within fs'' fs') (h' : Within fs' fs) :
    Within fs'' fs := fun p e he => h' p e (h p e he)

theorem within_remove {q : List ν} (hq : fs.children q = []) : Within (fs.remove q hq) fs := by
  intro p e h
  obtain rfl | hne := eq_or_ne p q
  · rw [entryOf_remove_self] at h
    exact absurd h (by simp)
  · rwa [entryOf_remove_of_ne hq hne] at h

theorem Within.isDirectoryAt (h : Within fs' fs) {p : List ν} (hdir : fs'.isDirectoryAt p = true) :
    fs.isDirectoryAt p = true := by
  rw [isDirectoryAt_iff] at hdir ⊢
  exact hdir.imp id (h p _)

theorem Within.mem_children (h : Within fs' fs) {p : List ν} {n : ν} (hn : n ∈ fs'.children p) :
    n ∈ fs.children p := by
  obtain ⟨e, he⟩ := mem_children_iff.mp hn
  exact mem_children_iff.mpr ⟨e, h _ e he⟩

theorem Within.entryOf_eq_none (h : Within fs' fs) {p : List ν} (hp : fs.entryOf p = none) :
    fs'.entryOf p = none := by
  refine Option.eq_none_iff_forall_ne_some.mpr fun e he => ?_
  rw [h p e he] at hp
  exact absurd hp (by simp)

/-- **What is resolved after deletions was resolved before**, to the same. -/
theorem Walks.mono (hw : Within fs' fs) (h : fs'.Walks searches x path y) :
    fs.Walks searches x path y := by
  induction h with
  | done => exact .done
  | up hdir hsearch _ ih => exact .up (hw.isDirectoryAt hdir) hsearch ih
  | enter hdir hsearch hentry hlink _ ih =>
    exact .enter (hw.isDirectoryAt hdir) hsearch (hw _ _ hentry) hlink ih
  | follow hdir hsearch hentry _ ih =>
    exact .follow (hw.isDirectoryAt hdir) hsearch (hw _ _ hentry) ih

/-- What is resolved before a file is written is resolved after it, to the same. -/
theorem Walks.write {q : List ν} {content : γ} {hq : fs.isWritableAt q = true}
    (h : fs.Walks searches x path y) : (fs.write q content hq).Walks searches x path y := by
  induction h with
  | done => exact .done
  | up hdir hsearch _ ih => exact .up (by rwa [isDirectoryAt_write]) hsearch ih
  | @enter links cur n rest e y hdir hsearch hentry hlink _ ih =>
    have hdir : (fs.write q content hq).isDirectoryAt cur = true := by
      rwa [isDirectoryAt_write]
    by_cases hcur : cur ++ [n] = q
    · have hentry : (fs.write q content hq).entryOf (cur ++ [n]) = some (.file content) := by
        rw [hcur, entryOf_write_self]
      exact .enter hdir hsearch hentry (by simp) ih
    · exact .enter hdir hsearch ((entryOf_write_of_ne hcur).trans hentry) hlink ih
  | follow hdir hsearch hentry _ ih =>
    exact .follow (by rwa [isDirectoryAt_write]) hsearch (entryOf_write_link.mpr hentry) ih

end Within

end FileSystem

/-! ### `java.io.File` -/

/-- What the system allows a program, and the order in which it lists a directory. -/
structure FileAccess (ν : Type) where
  /-- How many links are followed in one resolution. -/
  maxLinks : ℕ
  /-- The directories that a path may go on from. -/
  searches : List ν → Bool
  lists : List ν → Bool
  reads : List ν → Bool
  /-- The files that may be written, or made. -/
  writes : List ν → Bool
  deletes : List ν → Bool
  /-- The order of the names in a directory. -/
  arrange : List ν → List ν → List ν
  perm : ∀ p names, (arrange p names).Perm names

namespace FileAccess

variable {ν γ : Type} [DecidableEq ν]

/-- `getCanonicalFile`, for a file that exists. -/
def canonical (a : FileAccess ν) (fs : FileSystem ν γ) (path : List (PathComponent ν)) :
    Option (List ν) :=
  (fs.walk a.searches a.maxLinks [] path).map Prod.snd

/-- `exists`. -/
def fileExists (a : FileAccess ν) (fs : FileSystem ν γ) (path : List (PathComponent ν)) : Bool :=
  (a.canonical fs path).isSome

/-- `isDirectory()`, which follows links. -/
def isDirectory (a : FileAccess ν) (fs : FileSystem ν γ) (path : List (PathComponent ν)) : Bool :=
  (a.canonical fs path).any fs.isDirectoryAt

/-- The files in a directory, or `null`. -/
def listFiles (a : FileAccess ν) (fs : FileSystem ν γ) (path : List (PathComponent ν)) :
    Option (List (List (PathComponent ν))) :=
  (a.canonical fs path).bind fun p =>
    if fs.isDirectoryAt p && a.lists p then
      some ((a.arrange p (fs.children p)).map fun n => path ++ [.name n])
    else none

/-- The real path of what a path names, which may be a link. -/
def denoted (a : FileAccess ν) (fs : FileSystem ν γ) (path : List (PathComponent ν)) :
    Option (List ν) :=
  match path.getLast? with
  | some (.name n) => (a.canonical fs path.dropLast).map (· ++ [n])
  | _ => a.canonical fs path

/-- Whether the entry is deleted, and the file system. -/
def delete (a : FileAccess ν) (fs : FileSystem ν γ) (path : List (PathComponent ν)) :
    Bool × FileSystem ν γ :=
  match a.denoted fs path with
  | none => (false, fs)
  | some q =>
    if h : fs.children q = [] ∧ (fs.entryOf q).isSome = true ∧ a.deletes q = true then
      (true, fs.remove q h.1)
    else (false, fs)

variable {a : FileAccess ν} {fs fs' : FileSystem ν γ} {path : List (PathComponent ν)} {p : List ν}

theorem canonical_eq_some_iff :
    a.canonical fs path = some p ↔
      ∃ links, fs.Walks a.searches (a.maxLinks, []) path (links, p) := by
  rw [canonical, Option.map_eq_some_iff]
  constructor
  · rintro ⟨⟨links, q⟩, hwalk, rfl⟩
    exact ⟨links, FileSystem.walk_eq_some_iff.mp hwalk⟩
  · rintro ⟨links, h⟩
    exact ⟨(links, p), FileSystem.walk_eq_some_iff.mpr h, rfl⟩

/-- What is in a directory is found there, if it is no link and the directory may be searched. -/
theorem canonical_append {n : ν} {e : FileEntry ν γ} (h : a.canonical fs path = some p)
    (hsearch : a.searches p = true) (hentry : fs.entryOf (p ++ [n]) = some e)
    (hlink : ∀ target, e ≠ .link target) :
    a.canonical fs (path ++ [.name n]) = some (p ++ [n]) := by
  obtain ⟨links, hwalks⟩ := canonical_eq_some_iff.mp h
  refine canonical_eq_some_iff.mpr ⟨links, hwalks.append ?_⟩
  exact .enter (FileSystem.isDirectoryAt_of_entryOf hentry) hsearch hentry hlink .done

/-- What is found in a directory is found where the directory may be searched. -/
theorem searches_of_canonical_append {n : ν} {q : List ν} (h : a.canonical fs path = some p)
    (hq : a.canonical fs (path ++ [.name n]) = some q) : a.searches p = true := by
  obtain ⟨links, hwalks⟩ := canonical_eq_some_iff.mp h
  obtain ⟨k, hwalks'⟩ := canonical_eq_some_iff.mp hq
  obtain ⟨y, hy, hlast⟩ := FileSystem.Walks.append_iff.mp hwalks'
  obtain rfl := hwalks.unique hy
  cases hlast with
  | enter _ hsearch _ _ _ => exact hsearch
  | follow _ hsearch _ _ => exact hsearch

theorem canonical_mono (hw : fs'.Within fs) (h : a.canonical fs' path = some p) :
    a.canonical fs path = some p := by
  obtain ⟨links, hwalk⟩ := canonical_eq_some_iff.mp h
  exact canonical_eq_some_iff.mpr ⟨links, hwalk.mono hw⟩

theorem canonical_write {q : List ν} {content : γ} {hq : fs.isWritableAt q = true}
    (h : a.canonical fs path = some p) :
    a.canonical (fs.write q content hq) path = some p := by
  obtain ⟨links, hwalk⟩ := canonical_eq_some_iff.mp h
  exact canonical_eq_some_iff.mpr ⟨links, hwalk.write⟩

theorem denoted_append (n : ν) :
    a.denoted fs (path ++ [.name n]) = (a.canonical fs path).map (· ++ [n]) := by
  simp [denoted]

theorem denoted_mono (hw : fs'.Within fs) (h : a.denoted fs' path = some p) :
    a.denoted fs path = some p := by
  rw [denoted] at h ⊢
  split at h
  · obtain ⟨q, hq, rfl⟩ := Option.map_eq_some_iff.mp h
    exact Option.map_eq_some_iff.mpr ⟨q, canonical_mono hw hq, rfl⟩
  · exact canonical_mono hw h

/-- **What a deletion changes**: nothing but what the path names. -/
theorem delete_within (a : FileAccess ν) (fs : FileSystem ν γ) (path : List (PathComponent ν)) :
    (a.delete fs path).2.Within fs ∧ ∀ q e, fs.entryOf q = some e →
      (a.delete fs path).2.entryOf q = some e ∨ a.denoted fs path = some q := by
  rw [delete]
  split
  · exact ⟨.refl fs, fun q e he => Or.inl he⟩
  · next q hq =>
    split
    · next h =>
      refine ⟨FileSystem.within_remove h.1, fun p e he => ?_⟩
      obtain rfl | hne := eq_or_ne p q
      · exact Or.inr hq
      · exact Or.inl (by rwa [FileSystem.entryOf_remove_of_ne h.1 hne])
    · exact ⟨.refl fs, fun q e he => Or.inl he⟩

theorem entryOf_delete_eq_none {q : List ν} (hq : a.denoted fs path = some q)
    (hempty : fs.children q = []) (hdeletes : a.deletes q = true) :
    (a.delete fs path).2.entryOf q = none := by
  rw [delete, hq]
  dsimp only
  split
  · exact FileSystem.entryOf_remove_self hempty
  · next hnot =>
    refine Option.not_isSome_iff_eq_none.mp fun hsome => hnot ⟨hempty, hsome, hdeletes⟩

theorem listFiles_eq_none (h : ¬ a.isDirectory fs path = true) : a.listFiles fs path = none := by
  rw [isDirectory, Option.any_eq_true] at h
  refine Option.bind_eq_none_iff.mpr fun p hp => if_neg fun hlists => h ⟨p, hp, ?_⟩
  exact (Bool.and_eq_true_iff.mp hlists).1

theorem isDirectoryAt_of_listFiles {subFiles : List (List (PathComponent ν))}
    (h : a.listFiles fs path = some subFiles) :
    ∃ p, a.canonical fs path = some p ∧ fs.isDirectoryAt p = true := by
  obtain ⟨p, hp, h⟩ := Option.bind_eq_some_iff.mp h
  obtain ⟨hlists, -⟩ := Option.ite_none_right_eq_some.mp h
  exact ⟨p, hp, (Bool.and_eq_true_iff.mp hlists).1⟩

theorem mem_listFiles_iff {p : List ν} (hp : a.canonical fs path = some p)
    {subFiles : List (List (PathComponent ν))} (h : a.listFiles fs path = some subFiles)
    {subFile : List (PathComponent ν)} :
    subFile ∈ subFiles ↔ a.lists p = true ∧ ∃ n ∈ fs.children p, path ++ [.name n] = subFile := by
  rw [listFiles, hp, Option.bind_some] at h
  obtain ⟨hlists, h⟩ := Option.ite_none_right_eq_some.mp h
  obtain rfl := Option.some.inj h
  rw [List.mem_map, and_iff_right (Bool.and_eq_true_iff.mp hlists).2]
  exact exists_congr fun n => and_congr_left' (a.perm p _).mem_iff

theorem mem_listFiles {subFiles : List (List (PathComponent ν))}
    {subFile : List (PathComponent ν)} (h : a.listFiles fs path = some subFiles)
    (hmem : subFile ∈ subFiles) :
    ∃ p n, a.canonical fs path = some p ∧ a.lists p = true ∧ n ∈ fs.children p ∧
      subFile = path ++ [.name n] := by
  obtain ⟨p, hp, -⟩ := Option.bind_eq_some_iff.mp h
  obtain ⟨hlists, n, hn, rfl⟩ := (mem_listFiles_iff hp h).mp hmem
  exact ⟨p, n, hp, hlists, hn, rfl⟩

/-- A path names where it leads to, or a link. -/
theorem denoted_of_canonical (h : a.canonical fs path = some p) :
    ∃ q, a.denoted fs path = some q ∧
      (q = p ∨ ∃ target, fs.entryOf q = some (.link target)) := by
  rw [denoted]
  split
  · next m hlast =>
    obtain ⟨links, hwalks⟩ := canonical_eq_some_iff.mp h
    rw [← List.dropLast_append_getLast? _ hlast] at hwalks
    obtain ⟨⟨k, d⟩, hparent, hwalk⟩ := FileSystem.Walks.append_iff.mp hwalks
    refine ⟨d ++ [m], ?_, ?_⟩
    · rw [canonical_eq_some_iff.mpr ⟨k, hparent⟩]
      rfl
    · cases hwalk with
      | enter _ _ _ _ h =>
        cases h
        exact Or.inl rfl
      | follow _ _ hentry _ => exact Or.inr ⟨_, hentry⟩
  · exact ⟨p, h, Or.inl rfl⟩

end FileAccess

end Shabdiz
