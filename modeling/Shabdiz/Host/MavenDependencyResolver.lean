import Mathlib.Data.List.Basic
import Mathlib.Tactic.Common

/-!
# The remote URLs of dependencies

For every dependency the first of its repositories that answers is looked for, and the URL of the
artifact there is added. The URL is put together by hand: it has no classifier, and always a dot
before the extension. The search does not get past a repository whose URL cannot be used: `new URL`
throws a `MalformedURLException`, and `ping` catches nothing but an `IOException`. It throws a
`ClassCastException` for an URL of another protocol, and an `IllegalArgumentException` for an HTTP
URL that has no host, or a port that is out of range.

Whether an URL is well formed, of which protocol, and with which host and port, is decided by what
it begins with, which is the URL of the repository.

## Main definitions

* `MavenDependencyResolver.getRemoteURLs` — the code
* `MavenDependencyResolver.layoutURL` — where an artifact is in a repository
* `MavenDependencyResolver.firstAnswering` — its URL in the first repository that answers
* `ResolvesRemotely` — the URLs are these, and an `IOException` is thrown if there are none
* `MavenDependencyResolver.addedURL` — the URL the code adds

## Main results

* `MavenDependencyResolver.remoteURL_eq_layoutURL_iff` — for which artifacts the URL is right
* `MavenDependencyResolver.addFirst_cases`, `MavenDependencyResolver.getRemoteURLs_cases` — what is
  returned
* `MavenDependencyResolver.quiet_getRemoteURLs` — no ping after an answer
* `resolvesRemotely_iff` — the dependencies for which the URLs are right
-/

namespace Shabdiz

/-- An artifact. Its classifier is empty if it has none. -/
structure Artifact where
  groupId : List Char
  artifactId : List Char
  version : List Char
  baseVersion : List Char
  extension : List Char
  classifier : List Char

/-- An artifact, and the URLs of the repositories it may be in. -/
structure DependencyNode where
  artifact : Artifact
  repositories : List (List Char)

/-- What an URL is: `new URL` throws, a ping finds whether it answers, or a ping throws an unchecked
exception. -/
inductive URLKind where
  | malformed
  | http
  | throwing
deriving DecidableEq

/-- A ping of a repository of a dependency. -/
structure Ping where
  node : ℕ
  repository : ℕ
  url : List Char
  answered : Bool

/-- How the resolution of an artifact ends when it throws. -/
inductive RemoteURLFailure where
  /-- The `MalformedURLException`, an `IOException`. -/
  | malformedURL
  /-- The `IOException` of an artifact that no repository answers for. -/
  | unresolved (artifact : Artifact)
  /-- The `ClassCastException` or the `IllegalArgumentException` of a ping. -/
  | unchecked

/-- The exception is of the class that the resolver declares. -/
def RemoteURLFailure.isIOException : RemoteURLFailure → Bool
  | .unchecked => false
  | _ => true

/-- The variables of `getRemoteURLs`, and the pings so far. -/
structure RemoteURLs where
  urls : List (List Char)
  added : Bool
  pings : List Ping

namespace MavenDependencyResolver

/-! ### The code -/

/-- What `constructRemoteURL` puts together. -/
def remoteURL (artifact : Artifact) (repository : List Char) : List Char :=
  (if ['/'] <:+ repository then repository else repository ++ ['/']) ++
    artifact.groupId.map (fun c => if c = '.' then '/' else c) ++ ['/'] ++
    artifact.artifactId ++ ['/'] ++ artifact.baseVersion ++ ['/'] ++
    artifact.artifactId ++ ['-'] ++ artifact.version ++ ['.'] ++ artifact.extension

/-- `none` is the `MalformedURLException`. -/
def constructRemoteURL (kind : List Char → URLKind) (artifact : Artifact)
    (repository : List Char) : Option (List Char) :=
  if kind repository = .malformed then none else some (remoteURL artifact repository)

/-- The loop over the repositories of the dependency `i`, from the repository `j` on. -/
def addFirst (kind : List Char → URLKind) (answers : ℕ → List Char → Bool) (i : ℕ)
    (artifact : Artifact) : ℕ → List (List Char) → RemoteURLs →
      Except (RemoteURLFailure × List Ping) RemoteURLs
  | _, [], s => .ok s
  | j, repository :: repositories, s =>
    if s.added then addFirst kind answers i artifact (j + 1) repositories s
    else
      match constructRemoteURL kind artifact repository with
      | none => .error (.malformedURL, s.pings)
      | some url =>
        if kind repository = .throwing then .error (.unchecked, s.pings)
        else
          addFirst kind answers i artifact (j + 1) repositories
            { urls := if answers j url then s.urls ++ [url] else s.urls
              added := answers j url
              pings := s.pings ++ [⟨i, j, url, answers j url⟩] }

/-- The loop over the dependencies, from the dependency `i` on. -/
def addURLs (kind : List Char → URLKind) (answers : ℕ → ℕ → List Char → Bool) :
    ℕ → List DependencyNode → RemoteURLs → Except (RemoteURLFailure × List Ping) RemoteURLs
  | _, [], s => .ok s
  | i, node :: nodes, s =>
    match
      addFirst kind (answers i) i node.artifact 0 node.repositories { s with added := false } with
    | .error e => .error e
    | .ok s =>
      if s.added then addURLs kind answers (i + 1) nodes s
      else .error (.unresolved node.artifact, s.pings)

/-- `answers i j url` is what a ping of the URL finds, for the repository `j` of the dependency
`i`. -/
def getRemoteURLs (kind : List Char → URLKind) (answers : ℕ → ℕ → List Char → Bool)
    (nodes : List DependencyNode) : Except (RemoteURLFailure × List Ping) RemoteURLs :=
  addURLs kind answers 0 nodes ⟨[], false, []⟩

/-- The pings, also if an exception is thrown. -/
def pingsOf : Except (RemoteURLFailure × List Ping) RemoteURLs → List Ping
  | .ok s => s.pings
  | .error e => e.2

/-! ### What it is for -/

/-- The Maven 2 layout. -/
def layoutURL (artifact : Artifact) (repository : List Char) : List Char :=
  (if ['/'] <:+ repository then repository else repository ++ ['/']) ++
    artifact.groupId.map (fun c => if c = '.' then '/' else c) ++ ['/'] ++
    artifact.artifactId ++ ['/'] ++ artifact.baseVersion ++ ['/'] ++
    artifact.artifactId ++ ['-'] ++ artifact.version ++
    (if artifact.classifier = [] then [] else '-' :: artifact.classifier) ++
    (if artifact.extension = [] then [] else '.' :: artifact.extension)

/-- The URL in the first repository that answers, from the repository `j` on. -/
def firstAnswering (kind : List Char → URLKind) (answers : ℕ → List Char → Bool)
    (artifact : Artifact) : ℕ → List (List Char) → Option (List Char)
  | _, [] => none
  | j, repository :: repositories =>
    if kind repository = .http ∧ answers j (layoutURL artifact repository) = true then
      some (layoutURL artifact repository)
    else firstAnswering kind answers artifact (j + 1) repositories

/-- No ping of a repository of the dependency follows one that was answered. -/
def Quiet (pings : List Ping) : Prop :=
  pings.Pairwise fun p q => p.node = q.node → p.answered = false

end MavenDependencyResolver

open MavenDependencyResolver

/-- The URLs are those in the first repositories that answer, and if there are none for some
dependency, an `IOException` is thrown. In both cases there is no ping after an answer. -/
structure ResolvesRemotely (kind : List Char → URLKind) (answers : ℕ → ℕ → List Char → Bool)
    (nodes : List DependencyNode) : Prop where
  returns :
    (∀ i node, nodes[i]? = some node →
      (firstAnswering kind (answers i) node.artifact 0 node.repositories).isSome = true) →
    ∃ s, getRemoteURLs kind answers nodes = .ok s ∧
      s.urls.map some = nodes.mapIdx fun i node =>
        firstAnswering kind (answers i) node.artifact 0 node.repositories
  throws :
    (∃ i node, nodes[i]? = some node ∧
      firstAnswering kind (answers i) node.artifact 0 node.repositories = none) →
    ∃ e, getRemoteURLs kind answers nodes = .error e ∧ e.1.isIOException = true
  quiet : Quiet (pingsOf (getRemoteURLs kind answers nodes))

namespace MavenDependencyResolver

/-! ### The URL -/

/-- **For which artifacts the URL is right**: those without a classifier, but with an extension. -/
theorem remoteURL_eq_layoutURL_iff {artifact : Artifact} {repository : List Char} :
    remoteURL artifact repository = layoutURL artifact repository ↔
      artifact.classifier = [] ∧ artifact.extension ≠ [] := by
  rw [remoteURL, layoutURL, List.append_assoc, List.append_assoc (_ ++ artifact.version),
    List.append_cancel_left_eq]
  by_cases hclass : artifact.classifier = []
  · by_cases hext : artifact.extension = []
    · simp [hclass, hext]
    · simp [hclass, hext]
  · simp [hclass]

/-! ### What is added for a dependency -/

/-- The URL that is added for a dependency, if one is. -/
def addedURL (kind : List Char → URLKind) (answers : ℕ → List Char → Bool)
    (artifact : Artifact) : ℕ → List (List Char) → Option (List Char)
  | _, [] => none
  | j, repository :: repositories =>
    if kind repository = .http then
      if answers j (remoteURL artifact repository) then some (remoteURL artifact repository)
      else addedURL kind answers artifact (j + 1) repositories
    else none

/-- The search may get to a repository whose ping throws. -/
def MayThrow (kind : List Char → URLKind) (repositories : List (List Char)) : Prop :=
  ∃ before repository after, repositories = before ++ repository :: after ∧
    (∀ r ∈ before, kind r = .http) ∧ kind repository = .throwing

/-- Repositories that can be used come first. -/
def UsableFirst (kind : List Char → URLKind) (repositories : List (List Char)) : Prop :=
  repositories.Pairwise fun r r' => kind r' = .http → kind r = .http

section Node

variable {kind : List Char → URLKind} {answers : ℕ → List Char → Bool} {artifact : Artifact}
  {i j : ℕ} {repositories : List (List Char)} {s : RemoteURLs}

theorem addFirst_of_added (h : s.added = true) :
    addFirst kind answers i artifact j repositories s = .ok s := by
  induction repositories generalizing j with
  | nil => rfl
  | cons repository repositories ih =>
    rw [addFirst, if_pos h]
    exact ih

theorem firstAnswering_eq_none (h : ∀ r ∈ repositories, kind r ≠ .http) :
    firstAnswering kind answers artifact j repositories = none := by
  induction repositories generalizing j with
  | nil => rfl
  | cons repository repositories ih =>
    obtain ⟨hhead, h⟩ := List.forall_mem_cons.mp h
    rw [firstAnswering, if_neg (fun h => hhead h.1)]
    exact ih h

theorem mayThrow_cons {repository : List Char} (h : kind repository = .http)
    (hthrow : MayThrow kind repositories) : MayThrow kind (repository :: repositories) := by
  obtain ⟨before, r, after, rfl, hbefore, hr⟩ := hthrow
  exact ⟨repository :: before, r, after, rfl, List.forall_mem_cons.mpr ⟨h, hbefore⟩, hr⟩

/-- **What the search for one dependency does.** -/
theorem addFirst_cases (hs : s.added = false) :
    (∃ url pings, addedURL kind answers artifact j repositories = some url ∧
      addFirst kind answers i artifact j repositories s = .ok ⟨s.urls ++ [url], true, pings⟩) ∨
    addedURL kind answers artifact j repositories = none ∧
      ((∃ pings,
          addFirst kind answers i artifact j repositories s = .ok ⟨s.urls, false, pings⟩) ∨
        (∃ pings,
          addFirst kind answers i artifact j repositories s = .error (.malformedURL, pings)) ∨
        MayThrow kind repositories ∧ ∃ pings,
          addFirst kind answers i artifact j repositories s = .error (.unchecked, pings)) := by
  induction repositories generalizing j s with
  | nil =>
    refine Or.inr ⟨rfl, Or.inl ⟨s.pings, ?_⟩⟩
    rw [← hs]
    rfl
  | cons repository repositories ih =>
    rw [addFirst, if_neg (by simp [hs]), constructRemoteURL, addedURL]
    cases hkind : kind repository with
    | malformed => exact Or.inr ⟨by simp, Or.inr (Or.inl ⟨s.pings, by simp⟩)⟩
    | throwing =>
      refine Or.inr ⟨by simp, Or.inr (Or.inr ⟨?_, s.pings, by simp⟩)⟩
      exact ⟨[], repository, repositories, rfl, List.forall_mem_nil _, hkind⟩
    | http =>
      simp only [reduceCtorEq, if_false, if_true]
      cases hanswer : answers j (remoteURL artifact repository) with
      | true =>
        exact Or.inl ⟨remoteURL artifact repository,
          s.pings ++ [⟨i, j, remoteURL artifact repository, true⟩], by simp, addFirst_of_added rfl⟩
      | false =>
        simp only [Bool.false_eq_true, if_false]
        obtain hadded | ⟨hnone, h | h | ⟨hthrow, h⟩⟩ := ih (j := j + 1)
          (s := ⟨s.urls, false, s.pings ++ [⟨i, j, remoteURL artifact repository, false⟩]⟩) rfl
        · exact Or.inl hadded
        · exact Or.inr ⟨hnone, Or.inl h⟩
        · exact Or.inr ⟨hnone, Or.inr (Or.inl h)⟩
        · exact Or.inr ⟨hnone, Or.inr (Or.inr ⟨mayThrow_cons hkind hthrow, h⟩)⟩

/-- A search pings one repository after the other, until one answers. -/
theorem quiet_addFirst (hs : s.added = false) (hquiet : Quiet s.pings)
    (hle : ∀ p ∈ s.pings, p.node ≤ i) (hopen : ∀ p ∈ s.pings, p.node = i → p.answered = false) :
    Quiet (pingsOf (addFirst kind answers i artifact j repositories s)) ∧
      ∀ p ∈ pingsOf (addFirst kind answers i artifact j repositories s), p.node ≤ i := by
  induction repositories generalizing j s with
  | nil => exact ⟨hquiet, hle⟩
  | cons repository repositories ih =>
    rw [addFirst, if_neg (by simp [hs]), constructRemoteURL]
    by_cases hmalformed : kind repository = .malformed
    · rw [if_pos hmalformed]
      exact ⟨hquiet, hle⟩
    · rw [if_neg hmalformed]
      by_cases hthrowing : kind repository = .throwing
      · simp only [hthrowing, if_true]
        exact ⟨hquiet, hle⟩
      · simp only [hthrowing, if_false]
        have hquiet' : Quiet (s.pings ++ [⟨i, j, remoteURL artifact repository,
            answers j (remoteURL artifact repository)⟩]) := by
          refine List.pairwise_append.mpr ⟨hquiet, List.pairwise_singleton _ _, ?_⟩
          intro p hp q hq hnode
          obtain rfl := List.mem_singleton.mp hq
          exact hopen p hp hnode
        have hle' : ∀ p ∈ s.pings ++ [(⟨i, j, remoteURL artifact repository,
            answers j (remoteURL artifact repository)⟩ : Ping)], p.node ≤ i :=
          List.forall_mem_append.mpr ⟨hle, List.forall_mem_singleton.mpr (Nat.le_refl i)⟩
        cases hanswer : answers j (remoteURL artifact repository) with
        | true =>
          rw [hanswer] at hquiet' hle'
          rw [addFirst_of_added rfl]
          exact ⟨hquiet', hle'⟩
        | false =>
          rw [hanswer] at hquiet' hle'
          refine ih rfl hquiet' hle' ?_
          exact List.forall_mem_append.mpr ⟨hopen, List.forall_mem_singleton.mpr fun _ => rfl⟩

/-- The URL that is added is in a repository that answers, and what comes before it can be used. -/
theorem exists_of_addedURL_eq_some {url : List Char}
    (h : addedURL kind answers artifact j repositories = some url) :
    ∃ k, (∃ r, repositories[k]? = some r ∧ answers (j + k) (remoteURL artifact r) = true) ∧
      ∀ k' ≤ k, ∀ r, repositories[k']? = some r → kind r = .http := by
  induction repositories generalizing j with
  | nil => exact absurd h (by simp [addedURL])
  | cons repository repositories ih =>
    rw [addedURL] at h
    obtain ⟨hkind, h⟩ := Option.ite_none_right_eq_some.mp h
    by_cases hanswer : answers j (remoteURL artifact repository) = true
    · refine ⟨0, ⟨repository, rfl, hanswer⟩, fun k' hk' r hr => ?_⟩
      obtain rfl : k' = 0 := by omega
      exact Option.some.inj hr ▸ hkind
    · rw [if_neg hanswer] at h
      obtain ⟨k, ⟨r, hr, hanswered⟩, hbefore⟩ := ih h
      refine ⟨k + 1, ⟨r, hr, ?_⟩, fun k' hk' r' hr' => ?_⟩
      · rwa [show j + (k + 1) = j + 1 + k by omega]
      · cases k' with
        | zero => exact Option.some.inj hr' ▸ hkind
        | succ k' => exact hbefore k' (by omega) r' hr'

theorem firstAnswering_isSome {k : ℕ} {r : List Char} (hr : repositories[k]? = some r)
    (hkind : kind r = .http) (hanswer : answers (j + k) (layoutURL artifact r) = true) :
    (firstAnswering kind answers artifact j repositories).isSome = true := by
  induction repositories generalizing j k with
  | nil => exact absurd hr (by simp)
  | cons repository repositories ih =>
    rw [firstAnswering]
    split
    · rfl
    · next hnot =>
      cases k with
      | zero =>
        obtain rfl := Option.some.inj hr
        exact absurd ⟨hkind, hanswer⟩ hnot
      | succ k => exact ih hr (by rwa [show j + 1 + k = j + (k + 1) by omega])

/-- For a right artifact and repositories that can be used first, the URL that is added is in the
first repository that answers. -/
theorem addedURL_eq_firstAnswering (hclass : artifact.classifier = [])
    (hext : artifact.extension ≠ []) (husable : UsableFirst kind repositories) :
    addedURL kind answers artifact j repositories =
      firstAnswering kind answers artifact j repositories := by
  induction repositories generalizing j with
  | nil => rfl
  | cons repository repositories ih =>
    obtain ⟨hhead, husable⟩ := List.pairwise_cons.mp husable
    rw [addedURL, firstAnswering, ih husable,
      remoteURL_eq_layoutURL_iff.mpr ⟨hclass, hext⟩]
    by_cases hkind : kind repository = .http
    · simp only [hkind, if_true, true_and]
    · rw [if_neg hkind, if_neg (fun h => hkind h.1)]
      refine (firstAnswering_eq_none fun r hr hhttp => ?_).symm
      exact hkind (hhead r hr hhttp)

/-- If nothing answers, the search gets to the repository whose ping throws. -/
theorem addFirst_of_mayThrow (hanswers : ∀ j url, answers j url = false)
    (hthrow : MayThrow kind repositories) (hs : s.added = false) :
    ∃ pings, addFirst kind answers i artifact j repositories s = .error (.unchecked, pings) := by
  obtain ⟨before, repository, after, rfl, hbefore, hkind⟩ := hthrow
  induction before generalizing j s with
  | nil =>
    refine ⟨s.pings, ?_⟩
    rw [List.nil_append, addFirst, if_neg (by simp [hs]), constructRemoteURL]
    simp [hkind]
  | cons r before ih =>
    obtain ⟨hr, hbefore⟩ := List.forall_mem_cons.mp hbefore
    rw [List.cons_append, addFirst, if_neg (by simp [hs]), constructRemoteURL]
    simp only [hr, hanswers, reduceCtorEq, Bool.false_eq_true, if_false]
    exact ih rfl hbefore

end Node

/-! ### All dependencies -/

/-- The search may get to a dependency for which it may get to a repository whose ping throws. -/
def ThrowReachable (kind : List Char → URLKind) (nodes : List DependencyNode) : Prop :=
  ∃ before node after, nodes = before ++ node :: after ∧
    (∀ n ∈ before, n.repositories.head?.map kind = some .http) ∧ MayThrow kind node.repositories

section Nodes

variable {kind : List Char → URLKind} {answers : ℕ → ℕ → List Char → Bool} {i : ℕ}
  {nodes : List DependencyNode} {s : RemoteURLs}

theorem throwReachable_cons {node : DependencyNode}
    (h : node.repositories.head?.map kind = some .http) (hthrow : ThrowReachable kind nodes) :
    ThrowReachable kind (node :: nodes) := by
  obtain ⟨before, n, after, rfl, hbefore, hn⟩ := hthrow
  exact ⟨node :: before, n, after, rfl, List.forall_mem_cons.mpr ⟨h, hbefore⟩, hn⟩

theorem head_of_addedURL_eq_some {answers : ℕ → List Char → Bool} {artifact : Artifact} {j : ℕ}
    {repositories : List (List Char)} {url : List Char}
    (h : addedURL kind answers artifact j repositories = some url) :
    repositories.head?.map kind = some .http := by
  obtain ⟨k, ⟨r, hr, -⟩, hbefore⟩ := exists_of_addedURL_eq_some h
  cases repositories with
  | nil => exact absurd hr (by simp)
  | cons repository repositories =>
    exact congrArg some (hbefore 0 (Nat.zero_le k) repository rfl)

/-- **What the search does**, from a dependency on: it returns what is added for all of them, or
throws because nothing is added for one. -/
theorem addURLs_cases :
    (∃ s', addURLs kind answers i nodes s = .ok s' ∧
      s'.urls.map some = s.urls.map some ++ nodes.mapIdx fun k node =>
        addedURL kind (answers (i + k)) node.artifact 0 node.repositories) ∨
    ∃ e, addURLs kind answers i nodes s = .error e ∧
      (∃ k node, nodes[k]? = some node ∧
        addedURL kind (answers (i + k)) node.artifact 0 node.repositories = none) ∧
      (e.1.isIOException = false → ThrowReachable kind nodes) := by
  induction nodes generalizing i s with
  | nil => exact Or.inl ⟨s, rfl, by simp⟩
  | cons node nodes ih =>
    have hnone (h : addedURL kind (answers i) node.artifact 0 node.repositories = none) :
        ∃ k n, (node :: nodes)[k]? = some n ∧
          addedURL kind (answers (i + k)) n.artifact 0 n.repositories = none := ⟨0, node, rfl, h⟩
    have hcases := @addFirst_cases kind (answers i) node.artifact i 0 node.repositories
      { s with added := false } rfl
    rw [addURLs]
    obtain ⟨url, pings, hadded, h⟩ | ⟨hmissing, ⟨pings, h⟩ | ⟨pings, h⟩ | ⟨hthrow, pings, h⟩⟩ :=
      hcases
    · rw [h]
      obtain ⟨s', hs', hurls⟩ | ⟨e, he, ⟨k, n, hn, hmissing⟩, hthrow⟩ :=
        ih (i := i + 1) (s := ⟨s.urls ++ [url], true, pings⟩)
      · refine Or.inl ⟨s', hs', ?_⟩
        have hadded : addedURL kind (answers (i + 0)) node.artifact 0 node.repositories =
          some url := hadded
        rw [hurls, List.mapIdx_cons, hadded, List.map_append, List.append_assoc]
        refine congrArg _ (congrArg (some url :: ·) ?_)
        refine congrArg (List.mapIdx · nodes) (funext fun k => funext fun n => ?_)
        rw [show i + 1 + k = i + (k + 1) by omega]
      · refine Or.inr ⟨e, he, ⟨k + 1, n, hn, ?_⟩, fun h => ?_⟩
        · rwa [show i + (k + 1) = i + 1 + k by omega]
        · exact throwReachable_cons (head_of_addedURL_eq_some hadded) (hthrow h)
    · rw [h]
      exact Or.inr ⟨_, rfl, hnone hmissing, fun h => Bool.noConfusion h⟩
    · rw [h]
      exact Or.inr ⟨_, rfl, hnone hmissing, fun h => Bool.noConfusion h⟩
    · rw [h]
      refine Or.inr ⟨_, rfl, hnone hmissing, fun _ => ?_⟩
      exact ⟨[], node, nodes, rfl, List.forall_mem_nil _, hthrow⟩

/-- **No ping after an answer.** -/
theorem quiet_addURLs (hquiet : Quiet s.pings) (hlt : ∀ p ∈ s.pings, p.node < i) :
    Quiet (pingsOf (addURLs kind answers i nodes s)) := by
  induction nodes generalizing i s with
  | nil => exact hquiet
  | cons node nodes ih =>
    have hnode := @quiet_addFirst kind (answers i) node.artifact i 0 node.repositories
      { s with added := false } rfl hquiet (fun p hp => Nat.le_of_lt (hlt p hp))
      (fun p hp h => absurd h (Nat.ne_of_lt (hlt p hp)))
    rw [addURLs]
    split
    · next e he =>
      rw [he] at hnode
      exact hnode.1
    · next s' hs' =>
      rw [hs'] at hnode
      split
      · exact ih hnode.1 fun p hp => Nat.lt_succ_of_le (hnode.2 p hp)
      · exact hnode.1

/-- Dependencies whose first repositories answer are passed. -/
theorem exists_addURLs_append {before : List DependencyNode}
    (hbefore : ∀ n ∈ before, n.repositories.head?.map kind = some .http)
    (hanswers : ∀ k < before.length, ∀ j url, answers (i + k) j url = true) :
    ∃ s', addURLs kind answers i (before ++ nodes) s =
      addURLs kind answers (i + before.length) nodes s' := by
  induction before generalizing i s with
  | nil => exact ⟨s, rfl⟩
  | cons node before ih =>
    obtain ⟨hnode, hbefore⟩ := List.forall_mem_cons.mp hbefore
    have hcases := @addFirst_cases kind (answers i) node.artifact i 0 node.repositories
      { s with added := false } rfl
    obtain ⟨r, hr, hkind⟩ := Option.map_eq_some_iff.mp hnode
    obtain ⟨rest, hrest⟩ := List.head?_eq_some_iff.mp hr
    have hadded : addedURL kind (answers i) node.artifact 0 node.repositories =
        some (remoteURL node.artifact r) := by
      have hanswer : answers i 0 (remoteURL node.artifact r) = true :=
        hanswers 0 (Nat.succ_pos _) 0 _
      rw [hrest, addedURL, if_pos hkind, if_pos hanswer]
    obtain ⟨url, pings, -, h⟩ | ⟨hmissing, -⟩ := hcases
    · obtain ⟨s', hs'⟩ := ih (i := i + 1) (s := ⟨s.urls ++ [url], true, pings⟩) hbefore
        (fun k hk j url => by
          rw [show i + 1 + k = i + (k + 1) by omega]
          exact hanswers (k + 1) (Nat.succ_lt_succ hk) j url)
      refine ⟨s', ?_⟩
      rw [List.cons_append, addURLs, h, List.length_cons,
        show i + (before.length + 1) = i + 1 + before.length by omega]
      exact hs'
    · exact absurd (hmissing.symm.trans hadded) (by simp)

/-- The ping that may throw does throw, if the right repositories answer. -/
theorem exists_getRemoteURLs_eq_unchecked (hthrow : ThrowReachable kind nodes) :
    ∃ answers pings, getRemoteURLs kind answers nodes = .error (.unchecked, pings) := by
  obtain ⟨before, node, after, rfl, hbefore, hthrow⟩ := hthrow
  let answers : ℕ → ℕ → List Char → Bool := fun i _ _ => decide (i < before.length)
  obtain ⟨s', hs'⟩ := @exists_addURLs_append kind answers 0 (node :: after) ⟨[], false, []⟩ before
    hbefore (fun k hk j url => decide_eq_true (show 0 + k < before.length by omega))
  obtain ⟨pings, h⟩ := @addFirst_of_mayThrow kind (answers (0 + before.length)) node.artifact
    (0 + before.length) 0 node.repositories { s' with added := false }
    (fun _ _ => decide_eq_false (show ¬ 0 + before.length < before.length by omega)) hthrow rfl
  refine ⟨answers, pings, ?_⟩
  rw [getRemoteURLs, hs', addURLs, h]

end Nodes

end MavenDependencyResolver

/-! ### When the URLs are right -/

section Main

variable {kind : List Char → URLKind} {answers : ℕ → ℕ → List Char → Bool}
  {nodes : List DependencyNode}

/-- **What is returned**: what is added for every dependency, or an exception because nothing is
added for one. -/
theorem MavenDependencyResolver.getRemoteURLs_cases (kind : List Char → URLKind)
    (answers : ℕ → ℕ → List Char → Bool) (nodes : List DependencyNode) :
    (∃ s, getRemoteURLs kind answers nodes = .ok s ∧
      (s.urls.map some = nodes.mapIdx fun i node =>
        addedURL kind (answers i) node.artifact 0 node.repositories) ∧
      ∀ i node, nodes[i]? = some node →
        (addedURL kind (answers i) node.artifact 0 node.repositories).isSome = true) ∨
    ∃ e, getRemoteURLs kind answers nodes = .error e ∧
      (∃ i node, nodes[i]? = some node ∧
        addedURL kind (answers i) node.artifact 0 node.repositories = none) ∧
      (e.1.isIOException = false → ThrowReachable kind nodes) := by
  have hcases := @addURLs_cases kind answers 0 nodes ⟨[], false, []⟩
  simp only [Nat.zero_add] at hcases
  obtain ⟨s, hs, hurls⟩ | herror := hcases
  · refine Or.inl ⟨s, hs, hurls, fun i node hi => ?_⟩
    have hget := congrArg (·[i]?) hurls
    simp only [List.map_nil, List.nil_append, List.getElem?_mapIdx, List.getElem?_map, hi,
      Option.map_some] at hget
    obtain ⟨url, -, hurl⟩ := Option.map_eq_some_iff.mp hget
    rw [← hurl]
    rfl
  · exact Or.inr herror

/-- Where every dependency has a repository that answers, what is added is what is asked for. -/
theorem ResolvesRemotely.addedURL_eq (h : ResolvesRemotely kind answers nodes)
    (hsome : ∀ i node, nodes[i]? = some node →
      (firstAnswering kind (answers i) node.artifact 0 node.repositories).isSome = true)
    {i : ℕ} {node : DependencyNode} (hnode : nodes[i]? = some node) :
    addedURL kind (answers i) node.artifact 0 node.repositories =
      firstAnswering kind (answers i) node.artifact 0 node.repositories := by
  obtain ⟨s, hs, hurls⟩ := h.returns hsome
  obtain ⟨s', hs', hadded, -⟩ | ⟨e, he, -⟩ := getRemoteURLs_cases kind answers nodes
  · obtain rfl := Except.ok.inj (hs.symm.trans hs')
    have hget := congrArg (·[i]?) (hurls.symm.trans hadded)
    simpa [List.getElem?_mapIdx, hnode] using hget.symm
  · exact absurd (hs.symm.trans he) (by simp)

theorem addedURL_eq_none {answers : ℕ → List Char → Bool} {artifact : Artifact}
    {repositories : List (List Char)} (h : ∀ r ∈ repositories, kind r ≠ .http) :
    addedURL kind answers artifact 0 repositories = none := by
  refine Option.eq_none_iff_forall_ne_some.mpr fun url hurl => ?_
  obtain ⟨k, ⟨r, hr, -⟩, hbefore⟩ := exists_of_addedURL_eq_some hurl
  exact h r (List.mem_of_getElem? hr) (hbefore k (Nat.le_refl k) r hr)

/-- If all answer, a right URL is one of a right artifact. -/
theorem artifact_of_addedURL_eq {artifact : Artifact} {repositories : List (List Char)}
    (hsome : (firstAnswering kind (fun _ _ => true) artifact 0 repositories).isSome = true)
    (h : addedURL kind (fun _ _ => true) artifact 0 repositories =
      firstAnswering kind (fun _ _ => true) artifact 0 repositories) :
    artifact.classifier = [] ∧ artifact.extension ≠ [] := by
  obtain ⟨url, hurl⟩ := Option.isSome_iff_exists.mp hsome
  obtain ⟨r, hr, hkind⟩ := Option.map_eq_some_iff.mp (head_of_addedURL_eq_some (h.trans hurl))
  obtain ⟨rest, rfl⟩ := List.head?_eq_some_iff.mp hr
  rw [addedURL, firstAnswering, if_pos hkind, if_pos rfl, if_pos ⟨hkind, rfl⟩] at h
  exact remoteURL_eq_layoutURL_iff.mp (Option.some.inj h)

/-- If only one repository that can be used answers, everything before it can be used. -/
theorem kind_of_addedURL_isSome {answers : ℕ → List Char → Bool} {artifact : Artifact}
    {repositories : List (List Char)} {l : ℕ} (honly : ∀ j url, answers j url = true → j = l)
    (h : (addedURL kind answers artifact 0 repositories).isSome = true) {k : ℕ} (hk : k ≤ l)
    {r : List Char} (hr : repositories[k]? = some r) : kind r = .http := by
  obtain ⟨url, hurl⟩ := Option.isSome_iff_exists.mp h
  obtain ⟨m, ⟨r', -, hanswer⟩, hbefore⟩ := exists_of_addedURL_eq_some hurl
  have hm : 0 + m = l := honly _ _ hanswer
  exact hbefore k (by omega) r hr

theorem usable_of_resolvesRemotely (h : ∀ answers, ResolvesRemotely kind answers nodes)
    (hhttp : ∀ node ∈ nodes, ∃ r ∈ node.repositories, kind r = .http) {node : DependencyNode}
    (hnode : node ∈ nodes) :
    node.artifact.classifier = [] ∧ node.artifact.extension ≠ [] ∧
      UsableFirst kind node.repositories := by
  have hsome (answers : ℕ → List Char → Bool) {node} (hnode : node ∈ nodes)
      (hanswers : ∀ j url, answers j url = true) :
      (firstAnswering kind answers node.artifact 0 node.repositories).isSome = true := by
    obtain ⟨r, hr, hkind⟩ := hhttp node hnode
    obtain ⟨k, hk⟩ := List.getElem?_of_mem hr
    exact firstAnswering_isSome hk hkind (hanswers _ _)
  obtain ⟨i, hi⟩ := List.getElem?_of_mem hnode
  rw [← and_assoc]
  constructor
  · have hall := (h fun _ _ _ => true).addedURL_eq
      (fun i node hi => hsome _ (List.mem_of_getElem? hi) fun _ _ => rfl) hi
    exact artifact_of_addedURL_eq (hsome _ hnode fun _ _ => rfl) hall
  · refine List.pairwise_iff_getElem.mpr fun k l hk hl hlt hkind => ?_
    -- the other dependencies are answered for, and this one by the repository `l` only
    let answers : ℕ → ℕ → List Char → Bool := fun i' j _ => decide (i' ≠ i ∨ j = l)
    have hanswered : ∀ i' node', nodes[i']? = some node' →
        (firstAnswering kind (answers i') node'.artifact 0 node'.repositories).isSome = true := by
      intro i' node' hi'
      by_cases heq : i' = i
      · subst heq
        obtain rfl := Option.some.inj (hi.symm.trans hi')
        exact firstAnswering_isSome (List.getElem?_eq_getElem hl) hkind
          (decide_eq_true (Or.inr (Nat.zero_add l)))
      · exact hsome _ (List.mem_of_getElem? hi') fun _ _ => decide_eq_true (Or.inl heq)
    have hadded := (h answers).addedURL_eq hanswered hi
    have honly : ∀ j url, answers i j url = true → j = l := fun j url hanswer =>
      (of_decide_eq_true hanswer).resolve_left fun hne => hne rfl
    exact kind_of_addedURL_isSome honly (hadded ▸ hanswered i node hi) (Nat.le_of_lt hlt)
      (List.getElem?_eq_getElem hk)

/-- What is added is what is asked for, or nothing is added for some dependency. -/
theorem addedURL_cases (answers : ℕ → ℕ → List Char → Bool)
    (h : (∃ node ∈ nodes, ∀ r ∈ node.repositories, kind r ≠ .http) ∨
      ∀ node ∈ nodes, node.artifact.classifier = [] ∧ node.artifact.extension ≠ [] ∧
        UsableFirst kind node.repositories) :
    (∃ i node, nodes[i]? = some node ∧
        firstAnswering kind (answers i) node.artifact 0 node.repositories = none ∧
        addedURL kind (answers i) node.artifact 0 node.repositories = none) ∨
      ∀ i node, nodes[i]? = some node →
        addedURL kind (answers i) node.artifact 0 node.repositories =
          firstAnswering kind (answers i) node.artifact 0 node.repositories := by
  obtain ⟨node, hnode, hno⟩ | hgood := h
  · obtain ⟨i, hi⟩ := List.getElem?_of_mem hnode
    exact Or.inl ⟨i, node, hi, firstAnswering_eq_none hno, addedURL_eq_none hno⟩
  · refine Or.inr fun i node hi => ?_
    obtain ⟨hclass, hext, husable⟩ := hgood node (List.mem_of_getElem? hi)
    exact addedURL_eq_firstAnswering hclass hext husable

/-- **The dependencies for which the URLs are right**, whatever answers: no repository is got to
whose ping throws, and either there is a dependency that no repository can answer for, or all
artifacts have an extension and no classifier, and their repositories that can be used come
first. -/
theorem resolvesRemotely_iff (kind : List Char → URLKind) (nodes : List DependencyNode) :
    (∀ answers, ResolvesRemotely kind answers nodes) ↔
      ¬ ThrowReachable kind nodes ∧
        ((∃ node ∈ nodes, ∀ r ∈ node.repositories, kind r ≠ .http) ∨
          ∀ node ∈ nodes, node.artifact.classifier = [] ∧ node.artifact.extension ≠ [] ∧
            UsableFirst kind node.repositories) := by
  constructor
  · intro h
    constructor
    · intro hthrow
      obtain ⟨answers, pings, hfail⟩ := exists_getRemoteURLs_eq_unchecked hthrow
      by_cases hsome : ∀ i node, nodes[i]? = some node →
          (firstAnswering kind (answers i) node.artifact 0 node.repositories).isSome = true
      · obtain ⟨s, hs, -⟩ := (h answers).returns hsome
        exact absurd (hs.symm.trans hfail) (by simp)
      · simp only [not_forall, Option.not_isSome_iff_eq_none] at hsome
        obtain ⟨i, node, hi, hnone⟩ := hsome
        obtain ⟨e, he, hio⟩ := (h answers).throws ⟨i, node, hi, hnone⟩
        obtain rfl := Except.error.inj (he.symm.trans hfail)
        exact Bool.noConfusion hio
    · by_cases hhttp : ∀ node ∈ nodes, ∃ r ∈ node.repositories, kind r = .http
      · exact Or.inr fun node hnode => usable_of_resolvesRemotely h hhttp hnode
      · push Not at hhttp
        exact Or.inl hhttp
  · rintro ⟨hthrow, hnodes⟩ answers
    have hquiet : Quiet (pingsOf (getRemoteURLs kind answers nodes)) :=
      quiet_addURLs List.Pairwise.nil (List.forall_mem_nil _)
    obtain ⟨s, hs, hurls, hadded⟩ | ⟨e, he, ⟨i, node, hi, hmissing⟩, hio⟩ :=
      getRemoteURLs_cases kind answers nodes
    · obtain ⟨i, node, hi, -, hmissing⟩ | hequal := addedURL_cases answers hnodes
      · have hsome := hadded i node hi
        rw [hmissing] at hsome
        exact Bool.noConfusion hsome
      · refine ⟨fun _ => ⟨s, hs, ?_⟩, ?_, hquiet⟩
        · rw [hurls]
          exact List.mapIdx_eq_mapIdx_iff.mpr fun i hi => hequal i _ (List.getElem?_eq_getElem hi)
        · rintro ⟨i, node, hi, hnone⟩
          have hsome := hadded i node hi
          rw [hequal i node hi, hnone] at hsome
          exact Bool.noConfusion hsome
    · refine ⟨fun hsome => ?_, fun _ => ⟨e, he, ?_⟩, hquiet⟩
      · obtain ⟨i, node, hi, hnone, -⟩ | hequal := addedURL_cases answers hnodes
        · have hsome := hsome i node hi
          rw [hnone] at hsome
          exact Bool.noConfusion hsome
        · have hsome := hsome i node hi
          rw [← hequal i node hi, hmissing] at hsome
          exact Bool.noConfusion hsome
      · exact (Bool.eq_false_or_eq_true _).resolve_right fun h => hthrow (hio h)

/-- The sources of an artifact, in a repository. -/
def sourcesNode : DependencyNode where
  artifact :=
    { groupId := "a.b".toList
      artifactId := "c".toList
      version := "1".toList
      baseVersion := "1".toList
      extension := "jar".toList
      classifier := "sources".toList }
  repositories := ["http://d/".toList]

/-- The URL of the artifact without its classifier is returned, `http://d/a/b/c/1/c-1.jar`. -/
theorem not_resolvesRemotely_classifier :
    ¬ ResolvesRemotely (fun _ => .http) (fun _ _ _ => true) [sourcesNode] := by
  intro h
  have hfirst : firstAnswering (fun _ => .http) (fun _ _ => true) sourcesNode.artifact 0
      sourcesNode.repositories = some "http://d/a/b/c/1/c-1-sources.jar".toList := by decide
  have hadded : addedURL (fun _ => .http) (fun _ _ => true) sourcesNode.artifact 0
      sourcesNode.repositories = some "http://d/a/b/c/1/c-1.jar".toList := by decide
  have heq := h.addedURL_eq (i := 0) (fun i node hi => ?_) rfl
  · rw [hfirst, hadded] at heq
    exact absurd heq (by decide)
  · obtain rfl := List.mem_singleton.mp (List.mem_of_getElem? hi)
    rw [hfirst]
    rfl

end Main

end Shabdiz
