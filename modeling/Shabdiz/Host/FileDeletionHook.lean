import Shabdiz.Util.FileSystem
import Shabdiz.Util.Loops

/-!
# What the exit hook deletes

At its exit a bootstrap deletes files and directories, with everything in them. A file that is a
directory is emptied first, and `isDirectory` and `listFiles` follow links: what a link leads to is
emptied too, wherever it is, and only then the link itself is deleted. A link that leads back up is
followed again and again, until the system follows no further.

So the hook always comes to an end, but it deletes only what is in the directories it is given if
none of its calls comes to a link that leads to a directory elsewhere and finds something there. A
call finds the files as the calls before it have left them. A path is given by its components from
the root directory on.

## Main definitions

* `FileDeletionHook.deleteRecursively`, `FileDeletionHook.run` — the code
* `ReachedFrom` — what is reached from the given files through directories, and not through links
* `CallOf` — the calls of a run, each with the files that it finds
* `LinksStayInside` — what a call finds in a directory that a link leads to is reached
* `DeletesOnlyReached` — the hook comes to an end, and deletes only what is reached

## Main results

* `FileDeletionHook.exists_run` — the hook comes to an end
* `CallOf.keepsOthers` — what is deleted is what a call was for
* `deletesOnlyReached_of_linksStayInside` — where no link leads elsewhere, only what is reached is
  deleted
* `CallOf.not_deletesOnlyReached` — what a call comes to is deleted, reached or not
* `not_deletesOnlyReached_linked` — a file outside is deleted through a link
-/

namespace Shabdiz

/-! ### The code -/

/-- The files, and those that were reported because they could not be deleted. -/
structure Deletion (ν γ : Type) where
  files : FileSystem ν γ
  failed : List (List (PathComponent ν))

variable {ν γ : Type} [DecidableEq ν]

/-- `File.delete`, with the report. -/
def Deletion.delete (a : FileAccess ν) (file : List (PathComponent ν)) (s : Deletion ν γ) :
    Deletion ν γ where
  files := (a.delete s.files file).2
  failed := if (a.delete s.files file).1 then s.failed else s.failed ++ [file]

namespace FileDeletionHook

/-- `none` if the fuel does not suffice. -/
def deleteRecursively (a : FileAccess ν) :
    ℕ → List (PathComponent ν) → Deletion ν γ → Option (Deletion ν γ)
  | 0, _, _ => none
  | fuel + 1, file, s =>
    if a.fileExists s.files file then
      let emptied :=
        if a.isDirectory s.files file then
          match a.listFiles s.files file with
          | some subFiles =>
            subFiles.foldlM (fun s subFile => deleteRecursively a fuel subFile s) s
          | none => some s
        else some s
      emptied.map fun s => s.delete a file
    else some s

/-- The run of the hook: delete one file after the other. -/
def run (a : FileAccess ν) (fuel : ℕ) (files : List (List (PathComponent ν))) (s : Deletion ν γ) :
    Option (Deletion ν γ) :=
  files.foldlM (fun s file => deleteRecursively a fuel file s) s

end FileDeletionHook

open FileDeletionHook

/-! ### Inside and outside -/

/-- What is reached from the given files: what they name, be it a link, and what is in a directory
that is reached. -/
inductive ReachedFrom (a : FileAccess ν) (fs : FileSystem ν γ)
    (files : List (List (PathComponent ν))) : List ν → Prop where
  | root {file p} (h : file ∈ files) (hp : a.denoted fs file = some p) : ReachedFrom a fs files p
  | child {p} (n : ν) (h : ReachedFrom a fs files p) (hdir : fs.isDirectoryAt p = true) :
      ReachedFrom a fs files (p ++ [n])

/-- The hook comes to an end, and every entry that is not there any more then was reached. -/
structure DeletesOnlyReached (a : FileAccess ν) (fs : FileSystem ν γ)
    (files : List (List (PathComponent ν))) : Prop where
  ends : ∃ fuel, (run a fuel files ⟨fs, []⟩).isSome = true
  reached : ∀ fuel s, run a fuel files ⟨fs, []⟩ = some s → ∀ q e, fs.entryOf q = some e →
    s.files.entryOf q = some e ∨ ReachedFrom a fs files q

/-- The calls of a run, each with the files that it finds: those of the loop over the given files,
and those of the loops over what is listed. -/
inductive CallOf (a : FileAccess ν) (files : List (List (PathComponent ν))) (s₀ : Deletion ν γ) :
    List (PathComponent ν) → Deletion ν γ → Prop where
  | root {before file after fuel s} (hfiles : files = before ++ file :: after)
      (hrun : run a fuel before s₀ = some s) : CallOf a files s₀ file s
  | sub {file s subFiles before subFile after fuel s₁} (h : CallOf a files s₀ file s)
      (hlist : a.listFiles s.files file = some subFiles)
      (hsub : subFiles = before ++ subFile :: after) (hrun : run a fuel before s = some s₁) :
      CallOf a files s₀ subFile s₁

/-- Where a call comes to a link that leads to a directory that can be listed, what is in the
directory then is reached. -/
def LinksStayInside (a : FileAccess ν) (fs : FileSystem ν γ)
    (files : List (List (PathComponent ν))) : Prop :=
  ∀ file s q target p, CallOf a files ⟨fs, []⟩ file s → a.denoted s.files file = some q →
    s.files.entryOf q = some (.link target) → a.canonical s.files file = some p →
      a.lists p = true → ∀ n ∈ s.files.children p, ReachedFrom a fs files (p ++ [n])

/-! ### One call -/

section Call

variable {a : FileAccess ν} {fs : FileSystem ν γ} {file : List (PathComponent ν)}
  {files : List (List (PathComponent ν))} {fuel : ℕ} {s s' : Deletion ν γ}

/-- **What a call does**: nothing, or the calls for what is listed, and a deletion. -/
theorem deleteRecursively_cases (h : deleteRecursively a (fuel + 1) file s = some s') :
    a.fileExists s.files file = false ∧ s' = s ∨
      a.fileExists s.files file = true ∧ ∃ s₁, s' = s₁.delete a file ∧
        (a.listFiles s.files file = none ∧ s₁ = s ∨
          ∃ subFiles, a.listFiles s.files file = some subFiles ∧
            run a fuel subFiles s = some s₁) := by
  rw [deleteRecursively] at h
  split at h
  · next hexists =>
    obtain ⟨s₁, hs₁, rfl⟩ := Option.map_eq_some_iff.mp h
    refine Or.inr ⟨hexists, s₁, rfl, ?_⟩
    split at hs₁
    · split at hs₁
      · next subFiles hlist => exact Or.inr ⟨subFiles, hlist, hs₁⟩
      · next hlist => exact Or.inl ⟨hlist, (Option.some.inj hs₁).symm⟩
    · next hdir =>
      exact Or.inl ⟨FileAccess.listFiles_eq_none hdir, (Option.some.inj hs₁).symm⟩
  · next hexists =>
    exact Or.inl ⟨Bool.eq_false_iff.mpr hexists, (Option.some.inj h).symm⟩

/-! ### The end -/

theorem exists_deleteRecursively {depth : ℕ}
    (hdepth : ∀ p e, fs.entryOf p = some e → p.length ≤ depth) (hs : s.files.Within fs)
    (hpos : 0 < fuel)
    (hfuel : ∀ links p, fs.Walks a.searches (a.maxLinks, []) file (links, p) →
      links * (depth + 1) + (depth - p.length) < fuel) :
    ∃ s', deleteRecursively a fuel file s = some s' ∧ s'.files.Within fs := by
  induction fuel generalizing file s with
  | zero => exact absurd hpos (by omega)
  | succ fuel ih =>
    have hdelete (s₁ : Deletion ν γ) (h₁ : s₁.files.Within fs) :
        (s₁.delete a file).files.Within fs :=
      (a.delete_within s₁.files file).1.trans h₁
    rw [deleteRecursively]
    split
    · split
      · split
        · next subFiles hlist =>
          -- the rounds of the loop: every file listed needs less fuel
          obtain ⟨s₁, hloop, h₁⟩ := exists_foldlM (I := fun s : Deletion ν γ => s.files.Within fs)
            (f := fun s subFile => deleteRecursively a fuel subFile s) (l := subFiles)
            (fun t subFile hsub ht => by
              obtain ⟨p, n, hp, -, hn, rfl⟩ := FileAccess.mem_listFiles hlist hsub
              obtain ⟨links, hwalks⟩ :=
                FileAccess.canonical_eq_some_iff.mp (FileAccess.canonical_mono hs hp)
              obtain ⟨e, he⟩ := FileSystem.mem_children_iff.mp (hs.mem_children hn)
              have hlength := hdepth _ _ he
              rw [List.length_append, List.length_singleton] at hlength
              have hparent := hfuel links p hwalks
              refine ih ht (by omega) fun rest q hq => ?_
              obtain ⟨y, hy, hlast⟩ := FileSystem.Walks.append_iff.mp hq
              obtain rfl := hwalks.unique hy
              have := FileSystem.depth_of_walks hdepth hlast
              omega) hs
          exact ⟨s₁.delete a file, by rw [hloop]; rfl, hdelete s₁ h₁⟩
        · exact ⟨s.delete a file, rfl, hdelete s hs⟩
      · exact ⟨s.delete a file, rfl, hdelete s hs⟩
    · exact ⟨s, rfl, hs⟩

/-- **The hook comes to an end**, also where links lead in a circle. -/
theorem FileDeletionHook.exists_run (a : FileAccess ν) (fs : FileSystem ν γ)
    (files : List (List (PathComponent ν))) :
    ∃ fuel, (run a fuel files ⟨fs, []⟩).isSome = true := by
  obtain ⟨depth, hdepth⟩ := fs.exists_length_le
  refine ⟨a.maxLinks * (depth + 1) + depth + 1, ?_⟩
  obtain ⟨s', hs', -⟩ := exists_foldlM (I := fun s : Deletion ν γ => s.files.Within fs)
    (f := fun s file => deleteRecursively a (a.maxLinks * (depth + 1) + depth + 1) file s)
    (l := files) (s := ⟨fs, []⟩) (fun s file _ hs => by
      refine exists_deleteRecursively hdepth hs (by omega) fun links p hwalks => ?_
      have hle : links * (depth + 1) ≤ a.maxLinks * (depth + 1) :=
        Nat.mul_le_mul_right _ hwalks.links_le
      omega) (FileSystem.Within.refl fs)
  rw [run, hs']
  rfl

/-! ### The calls of a run -/

theorem run_append_cons {before after : List (List (PathComponent ν))} :
    run a fuel (before ++ file :: after) s = some s' ↔ ∃ t u, run a fuel before s = some t ∧
      deleteRecursively a fuel file t = some u ∧ run a fuel after u = some s' := by
  simp only [run, List.foldlM_append, List.foldlM_cons, Option.bind_eq_bind,
    Option.bind_eq_some_iff]
  constructor
  · rintro ⟨t, ht, u, hu, h⟩
    exact ⟨t, u, ht, hu, h⟩
  · rintro ⟨t, u, ht, hu, h⟩
    exact ⟨t, ht, u, hu, h⟩

/-- **What every deletion keeps**, a call keeps. -/
theorem deleteRecursively_invariant {I : Deletion ν γ → Prop}
    (hdelete : ∀ s file, I s → I (s.delete a file)) (hs : I s)
    (h : deleteRecursively a fuel file s = some s') : I s' := by
  induction fuel generalizing file s s' with
  | zero => exact absurd h (by simp [deleteRecursively])
  | succ fuel ih =>
    obtain ⟨-, rfl⟩ | ⟨-, s₁, rfl, ⟨-, rfl⟩ | ⟨subFiles, -, hloop⟩⟩ := deleteRecursively_cases h
    · exact hs
    · exact hdelete _ _ hs
    · exact hdelete _ _ ((rounds_of_foldlM_eq_some hloop).invariant
        (fun _ _ _ _ ht ht' => ih ht ht') hs)

theorem run_invariant {I : Deletion ν γ → Prop} (hdelete : ∀ s file, I s → I (s.delete a file))
    (hs : I s) (h : run a fuel files s = some s') : I s' :=
  (rounds_of_foldlM_eq_some h).invariant
    (fun _ _ _ _ ht ht' => deleteRecursively_invariant hdelete ht ht') hs

theorem within_of_run (h : run a fuel files s = some s') : s'.files.Within s.files :=
  run_invariant (I := fun t => t.files.Within s.files)
    (fun t file ht => (a.delete_within t.files file).1.trans ht) (.refl s.files) h

theorem CallOf.within {s₀ : Deletion ν γ} (h : CallOf a files s₀ file s) :
    s.files.Within s₀.files := by
  induction h with
  | root _ hrun => exact within_of_run hrun
  | sub _ _ _ hrun ih => exact (within_of_run hrun).trans ih

/-- Every entry is still there, or a call was for it. -/
def KeepsOthers (a : FileAccess ν) (files : List (List (PathComponent ν)))
    (s₀ s s' : Deletion ν γ) : Prop :=
  ∀ q e, s.files.entryOf q = some e → s'.files.entryOf q = some e ∨
    ∃ file t, CallOf a files s₀ file t ∧ a.denoted t.files file = some q

theorem KeepsOthers.trans {s₀ s'' : Deletion ν γ} (h : KeepsOthers a files s₀ s s')
    (h' : KeepsOthers a files s₀ s' s'') : KeepsOthers a files s₀ s s'' :=
  fun q e he => (h q e he).elim (h' q e) Or.inr

/-- The deletion at the end of a call is of what the call was for. -/
theorem CallOf.keepsOthers_delete {s₀ : Deletion ν γ} (h : CallOf a files s₀ file s)
    (hw : s'.files.Within s.files) : KeepsOthers a files s₀ s' (s'.delete a file) :=
  fun q e he => ((a.delete_within s'.files file).2 q e he).imp id fun hq =>
    ⟨file, s, h, FileAccess.denoted_mono hw hq⟩

/-- What the calls of a loop delete. -/
theorem keepsOthers_of_run {s₀ : Deletion ν γ} {l : List (List (PathComponent ν))}
    (hcall : ∀ before file after t t', l = before ++ file :: after → run a fuel before s = some t →
      deleteRecursively a fuel file t = some t' → KeepsOthers a files s₀ t t')
    (h : run a fuel l s = some s') : KeepsOthers a files s₀ s s' := by
  refine invariant_of_foldlM h ?_ fun q e he => Or.inl he
  intro before file after t t' hl hbefore ht hfile
  exact ht.trans (hcall before file after t t' hl hbefore hfile)

/-- **A call deletes nothing but what it and the calls in it are for.** -/
theorem CallOf.keepsOthers {s₀ : Deletion ν γ} (h : CallOf a files s₀ file s)
    (hs' : deleteRecursively a fuel file s = some s') : KeepsOthers a files s₀ s s' := by
  induction fuel generalizing file s s' with
  | zero => exact absurd hs' (by simp [deleteRecursively])
  | succ fuel ih =>
    obtain ⟨-, rfl⟩ | ⟨-, s₁, rfl, ⟨-, rfl⟩ | ⟨subFiles, hlist, hloop⟩⟩ :=
      deleteRecursively_cases hs'
    · exact fun q e he => Or.inl he
    · exact h.keepsOthers_delete (.refl _)
    · refine (keepsOthers_of_run (fun before subFile after t t' hsub hrun hcall => ?_) hloop).trans
        (h.keepsOthers_delete (within_of_run hloop))
      exact ih (h.sub hlist hsub hrun) hcall

/-- Where the links stay inside, every call is for what is reached. -/
theorem CallOf.reachedFrom (hlinks : LinksStayInside a fs files)
    (h : CallOf a files ⟨fs, []⟩ file s) {q : List ν} (hq : a.denoted s.files file = some q) :
    ReachedFrom a fs files q := by
  induction h generalizing q with
  | root hfiles hrun =>
    exact .root (hfiles ▸ by simp) (FileAccess.denoted_mono (within_of_run hrun) hq)
  | @sub file s subFiles before subFile after fuel s₁ hcall hlist hsub hrun ih =>
    have hmem : subFile ∈ subFiles := hsub ▸ by simp
    obtain ⟨p, n, hp, hlists, hn, rfl⟩ := FileAccess.mem_listFiles hlist hmem
    have hparent := FileAccess.denoted_mono (within_of_run hrun) hq
    rw [FileAccess.denoted_append, hp] at hparent
    obtain rfl := Option.some.inj hparent
    obtain ⟨r, hr, rfl | ⟨target, hlink⟩⟩ := FileAccess.denoted_of_canonical hp
    · obtain ⟨e, he⟩ := FileSystem.mem_children_iff.mp (hcall.within.mem_children hn)
      exact (ih hr).child n (FileSystem.isDirectoryAt_of_entryOf he)
    · exact hlinks file s r target p hcall hr hlink hp hlists n hn

/-! ### All that a call comes to -/

/-- More fuel changes nothing. -/
theorem deleteRecursively_mono (h : deleteRecursively a fuel file s = some s') {fuel' : ℕ}
    (hle : fuel ≤ fuel') : deleteRecursively a fuel' file s = some s' := by
  induction fuel generalizing file s s' fuel' with
  | zero => exact absurd h (by simp [deleteRecursively])
  | succ fuel ih =>
    obtain ⟨fuel', rfl⟩ : ∃ k, fuel' = k + 1 := ⟨fuel' - 1, by omega⟩
    rw [deleteRecursively] at h ⊢
    split at h
    · next hexists =>
      obtain ⟨s₁, hs₁, rfl⟩ := Option.map_eq_some_iff.mp h
      refine (if_pos hexists).trans (Option.map_eq_some_iff.mpr ⟨s₁, ?_, rfl⟩)
      split at hs₁
      · next hdir =>
        rw [if_pos hdir]
        split at hs₁
        · exact foldlM_mono (fun _ _ _ ht => ih ht (by omega)) hs₁
        · exact hs₁
      · next hdir => exact (if_neg hdir).trans hs₁
    · next hexists => exact (if_neg hexists).trans h

theorem run_mono {l : List (List (PathComponent ν))} (h : run a fuel l s = some s') {fuel' : ℕ}
    (hle : fuel ≤ fuel') : run a fuel' l s = some s' :=
  foldlM_mono (fun _ _ _ ht => deleteRecursively_mono ht hle) h

theorem run_unique {l : List (List (PathComponent ν))} {fuel' : ℕ} {t : Deletion ν γ}
    (h : run a fuel l s = some s') (h' : run a fuel' l s = some t) : s' = t :=
  Option.some.inj ((run_mono h (Nat.le_max_left fuel fuel')).symm.trans
    (run_mono h' (Nat.le_max_right fuel fuel')))

/-- **Every call is made**, and what it deletes stays deleted. -/
theorem CallOf.exists_call {s₀ : Deletion ν γ} (h : CallOf a files s₀ file s)
    (hrun : run a fuel files s₀ = some s') :
    ∃ fuel t, deleteRecursively a fuel file s = some t ∧ s'.files.Within t.files := by
  induction h generalizing fuel with
  | root hfiles hbefore =>
    obtain ⟨t, u, ht, hu, hafter⟩ := run_append_cons.mp (hfiles ▸ hrun)
    obtain rfl := run_unique hbefore ht
    exact ⟨fuel, u, hu, within_of_run hafter⟩
  | @sub file s subFiles before subFile after k s₁ hcall hlist hsub hbefore ih =>
    obtain ⟨fuel, t, ht, hw⟩ := ih hrun
    cases fuel with
    | zero => exact absurd ht (by simp [deleteRecursively])
    | succ fuel =>
      obtain ⟨hno, -⟩ | ⟨-, u, rfl, ⟨hnone, -⟩ | ⟨subFiles', hlist', hloop⟩⟩ :=
        deleteRecursively_cases ht
      · obtain ⟨p, hp, -⟩ := FileAccess.isDirectoryAt_of_listFiles hlist
        rw [FileAccess.fileExists, hp] at hno
        cases hno
      · cases hlist.symm.trans hnone
      · obtain rfl := Option.some.inj (hlist.symm.trans hlist')
        obtain ⟨v, v', hv, hv', hafter⟩ := run_append_cons.mp (hsub ▸ hloop)
        obtain rfl := run_unique hbefore hv
        refine ⟨fuel, v', hv', hw.trans ?_⟩
        exact (a.delete_within u.files file).1.trans (within_of_run hafter)

/-- A call that comes to a file, or to a directory with nothing in it, deletes it if it may. -/
theorem entryOf_deleteRecursively_eq_none {q : List ν}
    (hcanonical : a.canonical s.files file = some q)
    (hdenoted : a.denoted s.files file = some q) (hempty : s.files.children q = [])
    (hdeletes : a.deletes q = true) (h : deleteRecursively a fuel file s = some s') :
    s'.files.entryOf q = none := by
  have hgone : (s.delete a file).files.entryOf q = none :=
    FileAccess.entryOf_delete_eq_none hdenoted hempty hdeletes
  cases fuel with
  | zero => exact absurd h (by simp [deleteRecursively])
  | succ fuel =>
    obtain ⟨hno, -⟩ | ⟨-, s₁, rfl, ⟨-, rfl⟩ | ⟨subFiles, hlist, hloop⟩⟩ := deleteRecursively_cases h
    · rw [FileAccess.fileExists, hcanonical] at hno
      cases hno
    · exact hgone
    · have hnil : subFiles = [] := by
        refine List.eq_nil_iff_forall_not_mem.mpr fun subFile hmem => ?_
        obtain ⟨-, n, hn, -⟩ := (FileAccess.mem_listFiles_iff hcanonical hlist).mp hmem
        rw [hempty] at hn
        exact List.not_mem_nil hn
      subst hnil
      rwa [← Option.some.inj hloop]

/-- **What a call comes to is deleted**, reached or not: a file, or a directory with nothing in it,
that may be deleted. -/
theorem CallOf.not_deletesOnlyReached (h : CallOf a files ⟨fs, []⟩ file s) {q : List ν}
    (hcanonical : a.canonical s.files file = some q) (hdenoted : a.denoted s.files file = some q)
    {e : FileEntry ν γ} (hentry : s.files.entryOf q = some e) (hempty : s.files.children q = [])
    (hdeletes : a.deletes q = true) (hnot : ¬ ReachedFrom a fs files q) :
    ¬ DeletesOnlyReached a fs files := by
  rintro ⟨⟨fuel, hends⟩, hreached⟩
  obtain ⟨s', hs'⟩ := Option.isSome_iff_exists.mp hends
  obtain ⟨k, t, ht, hw⟩ := h.exists_call hs'
  have hgone := hw.entryOf_eq_none
    (entryOf_deleteRecursively_eq_none hcanonical hdenoted hempty hdeletes ht)
  obtain hkept | hreached := hreached fuel s' hs' q e (h.within q e hentry)
  · rw [hgone] at hkept
    cases hkept
  · exact hnot hreached

end Call

/-- **What the exit hook deletes.** It comes to an end, and if what its calls find through links is
reached, it deletes only what is reached. -/
theorem deletesOnlyReached_of_linksStayInside (a : FileAccess ν) (fs : FileSystem ν γ)
    (files : List (List (PathComponent ν))) (h : LinksStayInside a fs files) :
    DeletesOnlyReached a fs files where
  ends := FileDeletionHook.exists_run a fs files
  reached := by
    intro fuel s hrun q e he
    have hothers : KeepsOthers a files ⟨fs, []⟩ ⟨fs, []⟩ s :=
      keepsOthers_of_run (fun _ _ _ _ _ hfiles hbefore hcall =>
        (CallOf.root hfiles hbefore).keepsOthers hcall) hrun
    refine (hothers q e he).imp id ?_
    rintro ⟨file, t, hcall, hq⟩
    exact hcall.reachedFrom h hq

/-! ### Links that stay inside, and one that does not -/

section Example

/-- Everything is allowed, and forty links are followed. -/
def fullAccess : FileAccess ℕ where
  maxLinks := 40
  searches _ := true
  lists _ := true
  reads _ := true
  writes _ := true
  deletes _ := true
  arrange _ names := names
  perm _ _ := List.Perm.refl _

/-- A directory `0` with a file `1` and a link `2` back to it. -/
def circle : FileSystem ℕ Unit where
  entries := ⟨[⟨[0], .directory⟩, ⟨[0, 1], .file ()⟩, ⟨[0, 2], .link ⟨false, [.up, .name 0]⟩⟩],
    List.nodup_iff_pairwise_ne.mpr (by decide)⟩
  root := by decide
  closed := FileSystem.closed_of_forall_mem (by decide)

/-- A directory `0` with a link `1` to a directory `2` outside, in which there is a file `3`. -/
def linkedOutside : FileSystem ℕ Unit where
  entries := ⟨[⟨[0], .directory⟩, ⟨[0, 1], .link ⟨true, [.name 2]⟩⟩, ⟨[2], .directory⟩,
    ⟨[2, 3], .file ()⟩], List.nodup_iff_pairwise_ne.mpr (by decide)⟩
  root := by decide
  closed := FileSystem.closed_of_forall_mem (by decide)

/-- Everything there is in the directory that is given, so the link leads to what is reached. -/
theorem deletesOnlyReached_circle : DeletesOnlyReached fullAccess circle [[.name 0]] := by
  refine deletesOnlyReached_of_linksStayInside fullAccess circle [[.name 0]] ?_
  have hroot : ReachedFrom fullAccess circle [[.name 0]] [0] :=
    .root List.mem_cons_self (by decide)
  have hdir : circle.isDirectoryAt [0] = true := by decide
  intro file s q target p hcall _ _ _ _ n hn
  obtain ⟨e, he⟩ := FileSystem.mem_children_iff.mp (hcall.within.mem_children hn)
  have hmem : p ++ [n] ∈ circle.entries.keys :=
    AList.mem_keys.mp (AList.lookup_isSome.mp (Option.isSome_iff_exists.mpr ⟨e, he⟩))
  have hkeys : circle.entries.keys = [[0], [0, 1], [0, 2]] := rfl
  rw [hkeys] at hmem
  obtain h | h | h := by simpa only [List.mem_cons, List.not_mem_nil, or_false] using hmem
  · rwa [h]
  · rw [h]
    exact hroot.child 1 hdir
  · rw [h]
    exact hroot.child 2 hdir

/-- The file `3` of the directory outside is deleted. -/
theorem not_deletesOnlyReached_linked :
    ¬ DeletesOnlyReached fullAccess linkedOutside [[.name 0]] := by
  intro h
  have hlost : ((run fullAccess 5 [[.name 0]] ⟨linkedOutside, []⟩).map fun s =>
      s.files.entryOf [2, 3]) = some none := by decide
  obtain ⟨s, hs, hnone⟩ := Option.map_eq_some_iff.mp hlost
  obtain hkept | hreached := h.reached 5 s hs [2, 3] (.file ()) (by decide)
  · rw [hnone] at hkept
    exact absurd hkept (by simp)
  · have hinside : ∀ p, ReachedFrom fullAccess linkedOutside [[.name 0]] p → p.head? = some 0 := by
      intro p hp
      induction hp with
      | root hmem hp =>
        obtain rfl := List.mem_singleton.mp hmem
        have hdenoted : fullAccess.denoted linkedOutside [.name 0] = some [0] := by decide
        rw [hdenoted] at hp
        obtain rfl := Option.some.inj hp
        rfl
      | child n _ _ ih =>
        rw [List.head?_append, ih]
        rfl
    exact absurd (hinside [2, 3] hreached) (by decide)

end Example

end Shabdiz
