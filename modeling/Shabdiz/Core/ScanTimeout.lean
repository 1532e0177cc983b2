import Shabdiz.Util.Duration
import Mathlib.Tactic.Linarith
import Mathlib.Tactic.Ring

/-!
# How long a scan cycle waits

`awaitScanCompletionUntilTimeoutIsElapsed` waits for the scans of a cycle one after another, each
time for what remains of the scan timeout. What remains is the timeout less the time elapsed, and
`subtract` converts that time, a number of nanoseconds, to the unit of the timeout. The conversion
truncates, so up to one unit of the time elapsed is not counted.

Time advances only while a scan is waited for. A list of scans is given by when each of them is
done, in nanoseconds since the cycle began; a scan that fails or is cancelled is done as well,
since the loop goes on in either case. The clock is a `long` that overflows.

## Main definitions

* `getRemainingTime`, `futureGet`, `awaitScanCompletionUntilTimeoutIsElapsed` — the loop, with the
  waits it makes
* `KeepsTimeout` — no wait is given more than what remains, and the cycle waits no longer than
  its timeout
* `Precise`, `AwaitsPrecisely` — when the conversion loses nothing, for one wait and for all

## Main results

* `remaining_le_iff` — the remaining time is not too long exactly when nothing is lost
* `keepsTimeout_iff` — when a cycle keeps its timeout
* `keepsTimeout_of_nanoseconds` — with a timeout in nanoseconds it always does
* `elapsed_lt_add_nanos` — the timeout is exceeded by less than one of its units
-/

namespace Shabdiz

/-! ### The loop -/

/-- `System.nanoTime()` when `t` nanoseconds have passed since it was `cycleStartTime`. -/
def nanoTime (cycleStartTime : Int64) (t : ℕ) : Int64 := cycleStartTime + .ofNat t

/-- What remains of the timeout, for a scanner that is or is not enabled. -/
def getRemainingTime (isEnabled : Bool) (scanTimeout : Duration) (cycleStartTime now : Int64) :
    Duration :=
  if isEnabled then scanTimeout.subtract (.elapsed cycleStartTime now .nanoseconds) else .zero

/-- A wait that the loop makes: when it begins, and how long it may take. -/
structure BoundedWait where
  elapsed : ℕ
  remaining : Duration

/-- The longest that a wait lasts, in nanoseconds: no time at all if none remains. -/
def BoundedWait.nanos (wait : BoundedWait) : ℕ :=
  (wait.remaining.unit.toNanos wait.remaining.length).toInt.toNat

/-- `Future.get` of a scan that is done at the given time, or never. It returns, or throws a
`TimeoutException`, and the time is then the one it ends with. -/
def futureGet (scan : Option ℕ) (wait : BoundedWait) : Except ℕ ℕ :=
  match scan with
  | none => .error (wait.elapsed + wait.nanos)
  | some done =>
    if done ≤ wait.elapsed then .ok wait.elapsed
    else if done ≤ wait.elapsed + wait.nanos then .ok done
    else .error (wait.elapsed + wait.nanos)

/-- The loop over the scheduled scans, from the time `t` on. -/
def awaitScans (isEnabled : Bool) (scanTimeout : Duration) (cycleStartTime : Int64) :
    ℕ → List (Option ℕ) → List BoundedWait × ℕ
  | t, [] => ([], t)
  | t, scan :: rest =>
    let remaining :=
      getRemainingTime isEnabled scanTimeout cycleStartTime (nanoTime cycleStartTime t)
    match futureGet scan ⟨t, remaining⟩ with
    | .ok t' =>
      let (waits, stop) := awaitScans isEnabled scanTimeout cycleStartTime t' rest
      (⟨t, remaining⟩ :: waits, stop)
    | .error t' => ([⟨t, remaining⟩], t')

/-- The waits of a cycle, and the time they take together. -/
def awaitScanCompletionUntilTimeoutIsElapsed (isEnabled : Bool) (scanTimeout : Duration)
    (cycleStartTime : Int64) (scheduledScans : List (Option ℕ)) : List BoundedWait × ℕ :=
  awaitScans isEnabled scanTimeout cycleStartTime 0 scheduledScans

/-! ### The timeout -/

/-- A wait whose remaining time ends within the timeout, unless that is exceeded already. -/
def BoundedWait.EndsWithin (wait : BoundedWait) (timeout : Duration) : Prop :=
  (wait.elapsed : ℤ) ≤ timeout.nanos → wait.elapsed + wait.remaining.nanos ≤ timeout.nanos

/-- The cycle of an enabled scanner waits no longer than its timeout, and no wait is given more
than what remains of it. -/
def KeepsTimeout (timeout : Duration) (cycleStartTime : Int64) (scans : List (Option ℕ)) : Prop :=
  let (waits, stop) := awaitScanCompletionUntilTimeoutIsElapsed true timeout cycleStartTime scans
  (stop : ℤ) ≤ timeout.nanos ∧ ∀ wait ∈ waits, wait.EndsWithin timeout

/-- Whether nothing of the time elapsed is lost when it is subtracted from the timeout: it is a
number of the timeout's units. The time may also be so long that the clock has overflowed, and
then the subtraction has to overflow too. -/
def Precise (timeout : Duration) (t : ℕ) : Prop :=
  (t < 2 ^ 63 ∧ timeout.unit.nanos ∣ t) ∨
    (2 ^ 63 ≤ t ∧
      2 ^ 63 ≤ timeout.length.toInt - (Int64.ofNat t).toInt.tdiv timeout.unit.nanos)

/-- Whether a scan that is awaited at `t` is waited for until it is done: it is done already, or
before the timeout and before the longest time there is. -/
def IsAwaited (timeout : Duration) (t done : ℕ) : Prop :=
  done ≤ t ∨ (t < 2 ^ 63 ∧ (done : ℤ) ≤ timeout.nanos ∧ done ≤ t + (2 ^ 63 - 1))

/-- Whether nothing is lost at any time at which a scan is awaited, the first one at `t`. The next
one is awaited when this one is done. -/
def AwaitsPrecisely (timeout : Duration) : ℕ → List (Option ℕ) → Prop
  | _, [] => True
  | t, scan :: rest =>
    Precise timeout t ∧
      ∀ done, scan = some done → IsAwaited timeout t done →
        AwaitsPrecisely timeout (max t done) rest

section Remaining

variable {timeout : Duration} {cycleStartTime : Int64} {t : ℕ}

/-- The time that remains, of an enabled scanner. -/
def remainingAt (timeout : Duration) (t : ℕ) : Duration :=
  ⟨timeout.length - timeout.unit.convert (.ofNat t) .nanoseconds, timeout.unit⟩

/-- Where the clock started makes no difference. -/
theorem getRemainingTime_nanoTime :
    getRemainingTime true timeout cycleStartTime (nanoTime cycleStartTime t) =
      remainingAt timeout t := by
  have helapsed : cycleStartTime + Int64.ofNat t - cycleStartTime = .ofNat t := by
    rw [Int64.add_comm, Int64.add_sub_cancel]
  simp [getRemainingTime, nanoTime, Duration.elapsed, Duration.subtract, Duration.getLength,
    remainingAt, helapsed]

theorem toInt_remainingAt :
    (remainingAt timeout t).length.toInt =
      (timeout.length.toInt - (Int64.ofNat t).toInt.tdiv timeout.unit.nanos).bmod (2 ^ 64) := by
  rw [remainingAt, Int64.toInt_sub, TimeUnit.toInt_convert_nanoseconds]

theorem length_nonneg (h0 : 0 ≤ timeout.nanos) : 0 ≤ timeout.length.toInt :=
  nonneg_of_mul_nonneg_left h0 timeout.unit.nanos_pos

/-- As long as the clock has not overflowed, the remaining time counts the whole units that have
passed. -/
theorem toInt_remainingAt_of_lt (h0 : 0 ≤ timeout.nanos) (hlt : t < 2 ^ 63) :
    (remainingAt timeout t).length.toInt = timeout.length.toInt - t / timeout.unit.nanos := by
  have hu := timeout.unit.nanos_pos
  have hlength := timeout.length.toInt_lt
  have hlength0 := length_nonneg h0
  have hq : (t : ℤ) / timeout.unit.nanos ≤ t := Int.ediv_le_self _ (by omega)
  have hq0 : (0 : ℤ) ≤ t / timeout.unit.nanos := Int.ediv_nonneg (by omega) hu.le
  rw [toInt_remainingAt, Int64.toInt_ofNat_of_lt hlt, Int.tdiv_eq_ediv_of_nonneg (by omega)]
  exact Int.bmod_eq_of_le (by omega) (by omega)

/-- When the clock has overflowed, the remaining time may have overflowed too. -/
theorem toInt_remainingAt_of_le
    (h : 2 ^ 63 ≤ timeout.length.toInt - (Int64.ofNat t).toInt.tdiv timeout.unit.nanos) :
    (remainingAt timeout t).length.toInt =
      timeout.length.toInt - (Int64.ofNat t).toInt.tdiv timeout.unit.nanos - 2 ^ 64 := by
  have hlength := timeout.length.toInt_lt
  have hq := TimeUnit.tdiv_bounds timeout.unit.nanos_pos (Int64.ofNat t).le_toInt
    (Int64.ofNat t).toInt_lt
  rw [toInt_remainingAt, ← Int.sub_bmod_right]
  exact Int.bmod_eq_of_le (by omega) (by omega)

/-- What truncation makes of a number is no larger than the number, or than zero. -/
theorem tdiv_mul_le {x u : ℤ} (hu : 0 < u) : x.tdiv u * u ≤ max x 0 := by
  rcases le_total 0 x with hx | hx
  · rw [Int.tdiv_eq_ediv_of_nonneg hx, max_eq_left hx]
    exact Int.ediv_mul_le x hu.ne'
  · have hnonpos : 0 ≤ (-x).tdiv u := Int.tdiv_nonneg (neg_nonneg.mpr hx) hu.le
    rw [Int.neg_tdiv] at hnonpos
    rw [max_eq_right hx]
    exact mul_nonpos_of_nonpos_of_nonneg (by omega) hu.le

/-- **The remaining time is not too long exactly when nothing is lost.** -/
theorem remaining_le_iff (h0 : 0 ≤ timeout.nanos) (ht : (t : ℤ) ≤ timeout.nanos) :
    t + (remainingAt timeout t).nanos ≤ timeout.nanos ↔ Precise timeout t := by
  have hu := timeout.unit.nanos_pos
  have hnanos : (remainingAt timeout t).nanos =
      (remainingAt timeout t).length.toInt * timeout.unit.nanos := rfl
  rw [hnanos, Duration.nanos, Precise]
  rcases lt_or_ge t (2 ^ 63) with hlt | hge
  · -- The whole units that have passed make up the time exactly if it is a multiple of the unit.
    rw [toInt_remainingAt_of_lt h0 hlt, sub_mul]
    have hdiv := Int.ediv_mul_add_emod (t : ℤ) timeout.unit.nanos
    have hmod := Int.emod_nonneg (t : ℤ) hu.ne'
    rw [Int.dvd_iff_emod_eq_zero]
    omega
  · -- What the clock reads is less than the time, so too much remains unless that overflows.
    have hq := TimeUnit.tdiv_bounds hu (Int64.ofNat t).le_toInt (Int64.ofNat t).toInt_lt
    by_cases hover :
        2 ^ 63 ≤ timeout.length.toInt - (Int64.ofNat t).toInt.tdiv timeout.unit.nanos
    · refine iff_of_true ?_ (.inr ⟨hge, hover⟩)
      have hlength := timeout.length.toInt_lt
      have hle : timeout.nanos ≤
          ((Int64.ofNat t).toInt.tdiv timeout.unit.nanos + 2 ^ 64) * timeout.unit.nanos :=
        mul_le_mul_of_nonneg_right (by omega) hu.le
      rw [toInt_remainingAt_of_le hover]
      linarith
    · refine iff_of_false ?_ (by omega)
      have hread := tdiv_mul_le (x := (Int64.ofNat t).toInt) hu
      have hlt := (Int64.ofNat t).toInt_lt
      have hlength0 := length_nonneg h0
      rw [toInt_remainingAt, Int.bmod_eq_of_le (by omega) (by omega), sub_mul]
      omega

end Remaining

/-! ### The waits -/

section Waits

variable {timeout : Duration} {cycleStartTime : Int64} {t t' : ℕ} {scan : Option ℕ}

theorem nanos_boundedWait (timeout : Duration) (t : ℕ) :
    (⟨t, remainingAt timeout t⟩ : BoundedWait).nanos =
      (max (-2 ^ 63) (min (remainingAt timeout t).nanos (2 ^ 63 - 1))).toNat := by
  rw [BoundedWait.nanos, TimeUnit.toInt_toNanos]
  rfl

/-- A wait from which nothing is lost lasts until the timeout at the latest. -/
theorem nanos_of_dvd (h0 : 0 ≤ timeout.nanos) (ht : (t : ℤ) ≤ timeout.nanos) (hlt : t < 2 ^ 63)
    (h : timeout.unit.nanos ∣ t) :
    ((⟨t, remainingAt timeout t⟩ : BoundedWait).nanos : ℤ) =
      min (timeout.nanos - t) (2 ^ 63 - 1) := by
  have hremaining : (remainingAt timeout t).nanos = timeout.nanos - t := by
    rw [Duration.nanos, toInt_remainingAt_of_lt h0 hlt]
    exact (sub_mul _ _ _).trans (congrArg _ (Int.ediv_mul_cancel h))
  rw [nanos_boundedWait, hremaining]
  omega

/-- A wait whose remaining time has overflowed is over at once. -/
theorem nanos_of_overflow
    (h : 2 ^ 63 ≤ timeout.length.toInt - (Int64.ofNat t).toInt.tdiv timeout.unit.nanos) :
    (⟨t, remainingAt timeout t⟩ : BoundedWait).nanos = 0 := by
  have hq := TimeUnit.tdiv_bounds timeout.unit.nanos_pos (Int64.ofNat t).le_toInt
    (Int64.ofNat t).toInt_lt
  have hlength := timeout.length.toInt_lt
  have hnonpos : (remainingAt timeout t).nanos ≤ 0 := by
    refine mul_nonpos_of_nonpos_of_nonneg ?_ timeout.unit.nanos_pos.le
    rw [toInt_remainingAt_of_le h]
    omega
  rw [nanos_boundedWait]
  omega

/-- A precise wait ends by the timeout. -/
theorem add_nanos_le (h0 : 0 ≤ timeout.nanos) (ht : (t : ℤ) ≤ timeout.nanos)
    (h : Precise timeout t) :
    ((t + (⟨t, remainingAt timeout t⟩ : BoundedWait).nanos : ℕ) : ℤ) ≤ timeout.nanos := by
  obtain ⟨hlt, hdvd⟩ | ⟨-, hover⟩ := h
  · have := nanos_of_dvd h0 ht hlt hdvd
    omega
  · rw [nanos_of_overflow hover]
    exact ht

/-- A scan that is awaited precisely is waited for until it is done, and the time is then the
later of the two. -/
theorem futureGet_eq_ok_iff (h0 : 0 ≤ timeout.nanos) (ht : (t : ℤ) ≤ timeout.nanos)
    (h : Precise timeout t) :
    futureGet scan ⟨t, remainingAt timeout t⟩ = .ok t' ↔
      ∃ done, scan = some done ∧ IsAwaited timeout t done ∧ t' = max t done := by
  have hawaited : ∀ done, IsAwaited timeout t done ↔
      done ≤ t + (⟨t, remainingAt timeout t⟩ : BoundedWait).nanos := by
    intro done
    obtain ⟨hlt, hdvd⟩ | ⟨hge, hover⟩ := h
    · have := nanos_of_dvd h0 ht hlt hdvd
      simp only [IsAwaited, hlt, true_and]
      omega
    · rw [nanos_of_overflow hover, IsAwaited]
      omega
  cases scan with
  | none => simp [futureGet]
  | some done =>
    simp only [futureGet, Option.some.injEq, exists_eq_left', hawaited done]
    split
    · rename_i hle
      rw [max_eq_left hle, Except.ok.injEq]
      omega
    · split
      · rw [max_eq_right (by omega), Except.ok.injEq]
        omega
      · simp
        omega

theorem le_timeout_of_isAwaited {done : ℕ} (ht : (t : ℤ) ≤ timeout.nanos)
    (h : IsAwaited timeout t done) : ((max t done : ℕ) : ℤ) ≤ timeout.nanos := by
  rcases h with hle | ⟨-, hle, -⟩ <;> omega

/-- No wait lasts longer than it may. -/
theorem futureGet_le (h : futureGet scan ⟨t, remainingAt timeout t⟩ = .ok t') :
    t' ≤ t + (⟨t, remainingAt timeout t⟩ : BoundedWait).nanos := by
  simp only [futureGet] at h
  split at h
  · cases h
  · split at h
    · obtain rfl := Except.ok.inj h
      omega
    · split at h
      · obtain rfl := Except.ok.inj h
        assumption
      · cases h

theorem futureGet_eq_error (h : futureGet scan ⟨t, remainingAt timeout t⟩ = .error t') :
    t' = t + (⟨t, remainingAt timeout t⟩ : BoundedWait).nanos := by
  simp only [futureGet] at h
  split at h
  · exact (Except.error.inj h).symm
  · split at h
    · cases h
    · split at h
      · cases h
      · exact (Except.error.inj h).symm

end Waits

/-! ### The cycle -/

section Cycle

variable {timeout : Duration} {cycleStartTime : Int64} {t : ℕ} {scans : List (Option ℕ)}

/-- After a wait that returned, the loop goes on. -/
theorem awaitScans_of_ok {t' : ℕ} {scan : Option ℕ} (rest : List (Option ℕ))
    (h : futureGet scan ⟨t, remainingAt timeout t⟩ = .ok t') :
    awaitScans true timeout cycleStartTime t (scan :: rest) =
      (⟨t, remainingAt timeout t⟩ :: (awaitScans true timeout cycleStartTime t' rest).1,
        (awaitScans true timeout cycleStartTime t' rest).2) := by
  simp [awaitScans, getRemainingTime_nanoTime, h]

/-- After a wait that timed out, it does not. -/
theorem awaitScans_of_error {t' : ℕ} {scan : Option ℕ} (rest : List (Option ℕ))
    (h : futureGet scan ⟨t, remainingAt timeout t⟩ = .error t') :
    awaitScans true timeout cycleStartTime t (scan :: rest) =
      ([⟨t, remainingAt timeout t⟩], t') := by
  simp [awaitScans, getRemainingTime_nanoTime, h]

/-- A loop that begins by the timeout gives no wait more than what remains exactly if every scan
is awaited precisely. -/
theorem forall_endsWithin_iff (h0 : 0 ≤ timeout.nanos) (ht : (t : ℤ) ≤ timeout.nanos) :
    (∀ wait ∈ (awaitScans true timeout cycleStartTime t scans).1, wait.EndsWithin timeout) ↔
      AwaitsPrecisely timeout t scans := by
  induction scans generalizing t with
  | nil => simp [awaitScans, AwaitsPrecisely]
  | cons scan rest ih =>
    have hhead : BoundedWait.EndsWithin ⟨t, remainingAt timeout t⟩ timeout ↔ Precise timeout t := by
      rw [← remaining_le_iff h0 ht]
      exact ⟨fun h => h ht, fun h _ => h⟩
    rw [AwaitsPrecisely]
    -- Only after a precise wait is it known when the next one begins.
    by_cases hprecise : Precise timeout t
    · simp only [hprecise, true_and]
      cases hget : futureGet scan ⟨t, remainingAt timeout t⟩ with
      | ok t' =>
        obtain ⟨done, rfl, hawaited, rfl⟩ := (futureGet_eq_ok_iff h0 ht hprecise).mp hget
        rw [awaitScans_of_ok rest hget, List.forall_mem_cons, hhead,
          ih (le_timeout_of_isAwaited ht hawaited)]
        simp [hprecise, hawaited]
      | error t' =>
        rw [awaitScans_of_error rest hget, List.forall_mem_singleton, hhead]
        refine iff_of_true hprecise fun done hdone hawaited => ?_
        have hok := (futureGet_eq_ok_iff h0 ht hprecise).mpr ⟨done, hdone, hawaited, rfl⟩
        simp [hget] at hok
    · refine iff_of_false (fun h => hprecise (hhead.mp (h _ ?_))) fun h => hprecise h.1
      cases hget : futureGet scan ⟨t, remainingAt timeout t⟩ with
      | ok t' => simp [awaitScans_of_ok rest hget]
      | error t' => simp [awaitScans_of_error rest hget]

/-- A loop that awaits every scan precisely ends by the timeout. -/
theorem elapsed_le_of_awaitsPrecisely (h0 : 0 ≤ timeout.nanos) (ht : (t : ℤ) ≤ timeout.nanos)
    (h : AwaitsPrecisely timeout t scans) :
    ((awaitScans true timeout cycleStartTime t scans).2 : ℤ) ≤ timeout.nanos := by
  induction scans generalizing t with
  | nil => exact ht
  | cons scan rest ih =>
    obtain ⟨hprecise, hrest⟩ := h
    cases hget : futureGet scan ⟨t, remainingAt timeout t⟩ with
    | ok t' =>
      obtain ⟨done, rfl, hawaited, rfl⟩ := (futureGet_eq_ok_iff h0 ht hprecise).mp hget
      rw [awaitScans_of_ok rest hget]
      exact ih (le_timeout_of_isAwaited ht hawaited) (hrest done rfl hawaited)
    | error t' =>
      rw [awaitScans_of_error rest hget, futureGet_eq_error hget]
      exact add_nanos_le h0 ht hprecise

theorem keepsTimeout_of_awaitsPrecisely (h0 : 0 ≤ timeout.nanos)
    (h : AwaitsPrecisely timeout 0 scans) : KeepsTimeout timeout cycleStartTime scans :=
  ⟨elapsed_le_of_awaitsPrecisely h0 h0 h, (forall_endsWithin_iff h0 h0).mpr h⟩

/-- **When a cycle keeps its timeout**: when the timeout is not negative, and each scan that is
awaited is awaited at a time that is a number of the timeout's units. -/
theorem keepsTimeout_iff (timeout : Duration) (cycleStartTime : Int64) (scans : List (Option ℕ)) :
    KeepsTimeout timeout cycleStartTime scans ↔
      0 ≤ timeout.nanos ∧ AwaitsPrecisely timeout 0 scans := by
  constructor
  · rintro ⟨hstop, hwaits⟩
    have h0 : 0 ≤ timeout.nanos := le_trans (Int.natCast_nonneg _) hstop
    exact ⟨h0, (forall_endsWithin_iff h0 h0).mp hwaits⟩
  · rintro ⟨h0, hprecisely⟩
    exact keepsTimeout_of_awaitsPrecisely h0 hprecisely

/-- `StatusScanner.DEFAULT_STATUS_CHECK_TIMEOUT`. -/
def defaultStatusCheckTimeout : Duration := ⟨5, .minutes⟩

/-- The default timeout of a status scan, with a scan that is done after 59 seconds and one that is
never done: the second is waited for another five minutes. -/
theorem not_keepsTimeout_default :
    ¬ KeepsTimeout defaultStatusCheckTimeout 0 [some 59000000000, none] := by
  rintro ⟨hstop, -⟩
  revert hstop
  decide

/-! ### How much is lost -/

/-- Nothing is lost of a time in nanoseconds, which is what the code measures. -/
theorem awaitsPrecisely_of_nanoseconds (h : timeout.unit = .nanoseconds)
    (ht : (t : ℤ) ≤ timeout.nanos) : AwaitsPrecisely timeout t scans := by
  induction scans generalizing t with
  | nil => trivial
  | cons scan rest ih =>
    have hnanos : timeout.nanos = timeout.length.toInt := by
      rw [Duration.nanos, h, TimeUnit.nanos, mul_one]
    have hlength := timeout.length.toInt_lt
    refine ⟨.inl ⟨by omega, ?_⟩, fun done _ hawaited => ih (le_timeout_of_isAwaited ht hawaited)⟩
    rw [h]
    exact one_dvd _

/-- **With a timeout in nanoseconds**, every cycle keeps it. -/
theorem keepsTimeout_of_nanoseconds (h : timeout.unit = .nanoseconds) (h0 : 0 ≤ timeout.nanos) :
    KeepsTimeout timeout cycleStartTime scans :=
  keepsTimeout_of_awaitsPrecisely h0 (awaitsPrecisely_of_nanoseconds h h0)

/-- A wait ends less than a unit after the timeout. -/
theorem add_nanos_lt (h0 : 0 ≤ timeout.nanos) (hlt : t < 2 ^ 63)
    (ht : (t : ℤ) < timeout.nanos + timeout.unit.nanos) :
    ((t + (⟨t, remainingAt timeout t⟩ : BoundedWait).nanos : ℕ) : ℤ) <
      timeout.nanos + timeout.unit.nanos := by
  have hremaining : (remainingAt timeout t).nanos =
      timeout.nanos - t / timeout.unit.nanos * timeout.unit.nanos := by
    rw [Duration.nanos, toInt_remainingAt_of_lt h0 hlt]
    exact sub_mul _ _ _
  have hdiv := Int.ediv_mul_add_emod (t : ℤ) timeout.unit.nanos
  have hmod := Int.emod_lt_of_pos (t : ℤ) timeout.unit.nanos_pos
  rw [nanos_boundedWait, hremaining]
  omega

/-- The timeout is exceeded by less than one of its units, whatever the scans do. -/
theorem elapsed_lt_add_nanos (h0 : 0 ≤ timeout.nanos)
    (hclock : timeout.nanos + timeout.unit.nanos ≤ 2 ^ 63)
    (ht : (t : ℤ) < timeout.nanos + timeout.unit.nanos) :
    ((awaitScans true timeout cycleStartTime t scans).2 : ℤ) <
      timeout.nanos + timeout.unit.nanos := by
  induction scans generalizing t with
  | nil => exact ht
  | cons scan rest ih =>
    have hwait := add_nanos_lt h0 (by omega) ht
    cases hget : futureGet scan ⟨t, remainingAt timeout t⟩ with
    | ok t' =>
      rw [awaitScans_of_ok rest hget]
      have hle := futureGet_le hget
      exact ih (by omega)
    | error t' =>
      rw [awaitScans_of_error rest hget, futureGet_eq_error hget]
      exact hwait

end Cycle

end Shabdiz
