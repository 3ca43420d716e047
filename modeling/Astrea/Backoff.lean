/-
# The backoff and its cap

The waits of `pollForConfirmation` under any configuration, before any deadline and behind any
sequence of inconclusive answers.  As long as the first wait is within the cap and no wait reaches
`2^62` nanoseconds, the waits are the first one doubled up to the cap.  Two things break this.  A
cap below a first wait of more than five seconds is replaced by five seconds, and a wait of `2^62`
nanoseconds and more doubles to a negative duration.
-/
import Mathlib.Algebra.BigOperators.Group.List.Basic
import Mathlib.Algebra.Order.Ring.Int
import Astrea.Submission

namespace Service

/-! ## Doubling up to a cap -/

/-- The wait behind poll `n`, when the first is doubled up to the cap. -/
def doubling (first cap : ℤ) (n : ℕ) : ℤ := min (2 ^ n * first) cap

/-- The first `n` waits. -/
def schedule (first cap : ℤ) (n : ℕ) : List ℤ := (List.range n).map (doubling first cap)

section Doubling

variable {first cap : ℤ}

theorem doubling_zero (h : first ≤ cap) : doubling first cap 0 = first := by
  rw [doubling, pow_zero, one_mul, min_eq_left h]

theorem doubling_succ (hcap : 0 ≤ cap) (n : ℕ) :
    doubling first cap (n + 1) = min (2 * doubling first cap n) cap := by
  rw [doubling, doubling, pow_succ', mul_assoc]
  omega

theorem doubling_pos (hfirst : 0 < first) (hcap : 0 < cap) (n : ℕ) : 0 < doubling first cap n :=
  lt_min (mul_pos (pow_pos two_pos n) hfirst) hcap

/-- No interval is above the cap. -/
theorem doubling_le_cap (n : ℕ) : doubling first cap n ≤ cap := min_le_right _ _

/-- Intervals do not shrink. -/
theorem doubling_mono (hfirst : 0 < first) (hcap : 0 < cap) {m n : ℕ} (h : m ≤ n) :
    doubling first cap m ≤ doubling first cap n := by
  induction h with
  | refl => exact le_rfl
  | @step n _ ih =>
      have hpos := doubling_pos hfirst hcap n
      have hle : doubling first cap n ≤ cap := doubling_le_cap n
      rw [doubling_succ hcap.le]
      omega

theorem schedule_succ (n : ℕ) :
    schedule first cap (n + 1) = schedule first cap n ++ [doubling first cap n] := by
  rw [schedule, List.range_succ, List.map_append, List.map_singleton, schedule]

theorem sum_schedule_succ (n : ℕ) :
    (schedule first cap (n + 1)).sum = (schedule first cap n).sum + doubling first cap n := by
  rw [schedule_succ, List.sum_append, List.sum_singleton]

/-- More polls take longer. -/
theorem sum_schedule_mono (hfirst : 0 < first) (hcap : 0 < cap) {m n : ℕ} (h : m ≤ n) :
    (schedule first cap m).sum ≤ (schedule first cap n).sum := by
  induction h with
  | refl => exact le_rfl
  | @step n _ ih =>
      have hpos := doubling_pos hfirst hcap n
      rw [sum_schedule_succ]
      omega

/-- A wait that reaches `2^62` would be over within `limit`. -/
def Wraps (first cap limit : ℤ) : Prop :=
  ∃ n, 2 ^ 62 ≤ doubling first cap n ∧ (schedule first cap (n + 1)).sum ≤ limit

/-- Only a huge cap lets an interval wrap. -/
theorem Wraps.cap_large {limit : ℤ} (h : Wraps first cap limit) : 2 ^ 62 ≤ cap := by
  obtain ⟨n, hn, -⟩ := h
  exact hn.trans (doubling_le_cap n)

/-- Only a huge time limit does. -/
theorem Wraps.limit_large {limit : ℤ} (h : Wraps first cap limit) (hfirst : 0 < first)
    (hcap : 0 < cap) : 2 ^ 62 ≤ limit := by
  obtain ⟨n, hn, hsum⟩ := h
  have hbefore := sum_schedule_mono hfirst hcap (Nat.zero_le n)
  rw [sum_schedule_succ] at hsum
  have hnonneg : 0 ≤ (schedule first cap n).sum := hbefore
  omega

/-- The first wait that reaches `2^62`. -/
theorem Wraps.exists_first {limit : ℤ} (h : Wraps first cap limit) (hfirst : 0 < first)
    (hcap : 0 < cap) :
    ∃ n, 2 ^ 62 ≤ doubling first cap n ∧ (schedule first cap (n + 1)).sum ≤ limit ∧
      ∀ j < n, doubling first cap j < 2 ^ 62 := by
  obtain ⟨n, hn, hsum⟩ := h
  have hexists : ∃ n, 2 ^ 62 ≤ doubling first cap n := ⟨n, hn⟩
  have hle : Nat.find hexists ≤ n := Nat.find_le hn
  refine ⟨Nat.find hexists, Nat.find_spec hexists, ?_, ?_⟩
  · exact le_trans (sum_schedule_mono hfirst hcap (Nat.succ_le_succ hle)) hsum
  · intro j hj
    exact not_le.mp (Nat.find_min hexists hj)

end Doubling

/-- A backoff that respects its cap: it starts at `first`, doubles, and stays at the cap. -/
structure Capped (first cap : ℤ) (waits : List ℤ) : Prop where
  head : ∀ w ∈ waits.head?, w = first
  next : ∀ (k : ℕ) (h : k + 1 < waits.length), waits[k + 1] = min (2 * waits[k]) cap
  nondecreasing : waits.Pairwise (· ≤ ·)
  le_cap : ∀ w ∈ waits, w ≤ cap

/-- The schedule doubles up to its cap. -/
theorem capped_schedule {first cap : ℤ} (hfirst : 0 < first) (hle : first ≤ cap) (n : ℕ) :
    Capped first cap (schedule first cap n) where
  head := by
    cases n with
    | zero => exact fun w hw => (Option.not_mem_none w hw).elim
    | succ n =>
        intro w hw
        rw [schedule, List.range_succ_eq_map, List.map_cons, List.head?_cons,
          Option.mem_some_iff] at hw
        rw [← hw, doubling_zero hle]
  next := by
    intro k hk
    simp only [schedule, List.getElem_map, List.getElem_range]
    exact doubling_succ (by omega) k
  nondecreasing := by
    apply List.pairwise_map.mpr
    exact List.pairwise_lt_range.imp fun hlt => doubling_mono hfirst (by omega) hlt.le
  le_cap := by
    intro w hw
    obtain ⟨k, -, rfl⟩ := List.mem_map.mp hw
    exact doubling_le_cap k

/-! ## The waits of the loop -/

/-- The waits behind the inconclusive polls so far, and the loop before the next poll. -/
inductive Waits (t : Timeline) (hash : TxHash) (deadline maxPollInterval : ℤ) (s₀ : Poll) :
    List ℤ → Poll → Prop
  | start : Waits t hash deadline maxPollInterval s₀ [] s₀
  | wait {waits : List ℤ} {s s' : Poll} (before : Waits t hash deadline maxPollInterval s₀ waits s)
      (h : t.turn hash deadline maxPollInterval s = .again s') :
      Waits t hash deadline maxPollInterval s₀ (waits ++ [s.interval]) s'

section Loop

variable {t : Timeline} {hash : TxHash} {deadline maxPollInterval : ℤ} {s₀ s : Poll}
  {waits : List ℤ}

/-- Without a wrap, the waits are the first one doubled up to the cap, and the clock has passed
them all. -/
theorem Waits.eq_schedule {first limit : ℤ}
    (h : Waits t hash deadline maxPollInterval s₀ waits s) (hs₀ : s₀.interval = first)
    (hdeadline : deadline = s₀.now + limit) (hfirst : 0 < first) (hle : first ≤ maxPollInterval)
    (hwraps : ¬ Wraps first maxPollInterval limit) :
    ∃ n, waits = schedule first maxPollInterval n ∧ s.interval = doubling first maxPollInterval n ∧
      s₀.now + waits.sum ≤ s.now := by
  induction h with
  | start => exact ⟨0, rfl, by rw [hs₀, doubling_zero hle], (add_zero _).le⟩
  | @wait waits s s' before h ih =>
      obtain ⟨n, rfl, hinterval, hnow⟩ := ih
      obtain ⟨-, hintime, rfl⟩ := Timeline.turn_again.mp h
      have hget := t.getTime_nonneg s.made
      have hslack := t.slack_nonneg (s.made + 1)
      have hsum : (schedule first maxPollInterval (n + 1)).sum ≤ limit := by
        rw [sum_schedule_succ, ← hinterval]
        omega
      have hsmall : doubling first maxPollInterval n < 2 ^ 62 := by
        by_contra hlarge
        exact hwraps ⟨n, not_lt.mp hlarge, hsum⟩
      refine ⟨n + 1, by rw [hinterval, schedule_succ], ?_, ?_⟩
      · simp only
        rw [hinterval, nextInterval_eq (doubling_pos hfirst (by omega) n).le hsmall,
          doubling_succ (by omega)]
      · simp only
        rw [List.sum_append, List.sum_singleton]
        omega

end Loop

/-! ## A transaction that stays pending -/

/-- Every answer is inconclusive, and nothing but the waits takes time.  The wait before poll `late`
takes `2^64` nanoseconds more than was asked for, so that a negative one there is no step back. -/
def Timeline.pending (late : ℕ) : Timeline where
  start := 0
  send := .error ""
  sendTime := 0
  get := fun _ => .ok .notFound
  getTime := fun _ => 0
  slack := fun k => if k = late then 2 ^ 64 else 0
  sendTime_nonneg := le_rfl
  getTime_nonneg := fun _ => le_rfl
  slack_nonneg := fun k => by split <;> decide

section Pending

variable {late : ℕ} {hash : TxHash} {first cap limit : ℤ}

/-- The polls of a pending transaction go on as long as the waits fit in. -/
theorem Timeline.pending_turn (s : Poll) (h : s.now + s.interval ≤ limit) :
    (Timeline.pending late).turn hash limit cap s
      = .again ⟨s.made + 1, s.now + s.interval + (if s.made + 1 = late then 2 ^ 64 else 0),
        nextInterval s.interval cap⟩ := by
  rw [Timeline.turn_again]
  refine ⟨rfl, ?_, ?_⟩
  · show s.now + 0 + s.interval ≤ limit
    omega
  · show Poll.mk _ _ _ = Poll.mk _ (s.now + 0 + s.interval + _) _
    rw [add_zero]
    rfl

/-- A poll that is early and in time is followed by another. -/
theorem Timeline.pending_turn_ontime (s : Poll) (h : s.now + s.interval ≤ limit)
    (hearly : s.made + 1 < late) :
    (Timeline.pending late).turn hash limit cap s
      = .again ⟨s.made + 1, s.now + s.interval, nextInterval s.interval cap⟩ := by
  rw [Timeline.pending_turn s h, if_neg hearly.ne, add_zero]

/-- Up to the first wait of `2^62`, the waits of a pending transaction are doubled. -/
theorem Waits.pending (hfirst : 0 < first) (hle : first ≤ cap) (n : ℕ)
    (hearly : n < late) (hsum : (schedule first cap n).sum ≤ limit)
    (hsmall : ∀ j < n, doubling first cap j < 2 ^ 62) :
    Waits (Timeline.pending late) hash limit cap ⟨0, 0, first⟩ (schedule first cap n)
      ⟨n, (schedule first cap n).sum, doubling first cap n⟩ := by
  induction n with
  | zero =>
      rw [doubling_zero hle]
      exact .start
  | succ n ih =>
      have hpos := doubling_pos hfirst (by omega : 0 < cap) n
      have hbefore := ih (by omega)
        (le_trans (sum_schedule_mono hfirst (by omega) (Nat.le_succ n)) hsum)
        fun j hj => hsmall j (Nat.lt_succ_of_lt hj)
      rw [sum_schedule_succ] at hsum ⊢
      rw [schedule_succ, doubling_succ (by omega),
        ← nextInterval_eq hpos.le (hsmall n (Nat.lt_succ_self n))]
      exact .wait hbefore (Timeline.pending_turn_ontime _ hsum hearly)

/-- A wait of `2^62` and more is doubled to a negative one. -/
theorem nextInterval_wraps {interval cap : ℤ} (hlarge : 2 ^ 62 ≤ interval)
    (hle : interval ≤ cap) (hcap : cap < 2 ^ 63) :
    nextInterval interval cap = 2 * interval - 2 ^ 64 := by
  have hwrapped : (2 * interval).bmod (2 ^ 64) = 2 * interval - 2 ^ 64 := by
    rw [Int.bmod_def]
    omega
  show (if cap < (2 * interval).bmod (2 ^ 64) then cap else (2 * interval).bmod (2 ^ 64)) = _
  rw [hwrapped, if_neg (by omega)]

/-- Where a wait reaches `2^62`, a shorter one follows it. -/
theorem Wraps.not_capped (h : Wraps first cap limit) (hfirst : 0 < first) (hle : first ≤ cap)
    (hcap : cap < 2 ^ 63) (hash : TxHash) :
    ∃ late waits s, Waits (Timeline.pending late) hash limit cap ⟨0, 0, first⟩ waits s ∧
      ¬ Capped first cap waits := by
  obtain ⟨n, hlarge, hsum, hsmall⟩ := h.exists_first hfirst (by omega)
  rw [sum_schedule_succ] at hsum
  have hle_cap : doubling first cap n ≤ cap := doubling_le_cap n
  have hnext : nextInterval (doubling first cap n) cap = 2 * doubling first cap n - 2 ^ 64 :=
    nextInterval_wraps hlarge hle_cap hcap
  have hfit : (schedule first cap n).sum ≤ limit := by omega
  have hreached : Waits (Timeline.pending (n + 2)) hash limit cap ⟨0, 0, first⟩
      (schedule first cap n ++ [doubling first cap n])
      ⟨n + 1, (schedule first cap n).sum + doubling first cap n,
        2 * doubling first cap n - 2 ^ 64⟩ := by
    rw [← hnext]
    exact .wait (Waits.pending hfirst hle n (by omega) hfit hsmall)
      (Timeline.pending_turn_ontime _ hsum (Nat.lt_succ_self _))
  -- the negative wait passes no deadline, so it is performed
  refine ⟨n + 2, _, _, .wait hreached (Timeline.pending_turn _ (by simp only; omega)), ?_⟩
  intro hcapped
  have hpair := hcapped.nondecreasing
  rw [List.append_assoc] at hpair
  have hlast := (List.pairwise_append.mp hpair).2.1
  rw [List.singleton_append, List.pairwise_pair] at hlast
  have hbad : doubling first cap n ≤ 2 * doubling first cap n - 2 ^ 64 := hlast
  omega

end Pending

/-! ## The configuration -/

/-- A configuration, as the code gets it. -/
def durations (txTimeout pollTimeout pollInterval maxPollInterval : Int64) : Config where
  txTimeout := txTimeout.toInt
  pollTimeout := pollTimeout.toInt
  pollInterval := pollInterval.toInt
  maxPollInterval := maxPollInterval.toInt

/-- The backoff of a configuration respects its cap. -/
structure Backoff (cfg : Config) : Prop where
  positive : 0 < cfg.withDefaults.txTimeout ∧ 0 < cfg.withDefaults.pollTimeout ∧
    0 < cfg.withDefaults.pollInterval ∧ 0 < cfg.withDefaults.maxPollInterval
  ordered : cfg.withDefaults.pollInterval ≤ cfg.withDefaults.maxPollInterval
  /-- A cap that was set is kept, unless it is below the first wait. -/
  kept : cfg.withDefaults.pollInterval ≤ cfg.maxPollInterval →
    cfg.withDefaults.maxPollInterval = cfg.maxPollInterval
  /-- The waits behind any sequence of inconclusive answers. -/
  waits : ∀ (t : Timeline) (hash : TxHash) (waits : List ℤ) (s : Poll),
    Waits t hash (t.deadline cfg) cfg.withDefaults.maxPollInterval
      ⟨0, t.start + t.sendTime, cfg.withDefaults.pollInterval⟩ waits s →
    Capped cfg.withDefaults.pollInterval cfg.withDefaults.maxPollInterval waits

section WithDefaults

variable (cfg : Config)

/-- A duration that was set, or a positive default, is positive. -/
theorem orDefault_pos {d default : ℤ} (h : 0 < default) : (0 : ℤ) < orDefault d default := by
  show 0 < if d ≤ 0 then default else d
  split <;> omega

/-- A duration above the default was set. -/
theorem orDefault_eq {d default : ℤ} (h : default < orDefault d default) :
    orDefault d default = d := by
  have hset : (if d ≤ 0 then default else d) = d := by
    by_cases hunset : d ≤ 0
    · exact absurd (if_pos hunset) (ne_of_gt h)
    · exact if_neg hunset
  exact hset

/-- A cap that is absent or below the first interval becomes five seconds. -/
theorem Config.withDefaults_cap :
    cfg.withDefaults.maxPollInterval =
      if cfg.maxPollInterval ≤ 0 ∨ cfg.maxPollInterval < cfg.withDefaults.pollInterval then
        5 * second
      else cfg.maxPollInterval := rfl

/-- The defaults are positive. -/
theorem Config.withDefaults_pos :
    0 < cfg.withDefaults.txTimeout ∧ 0 < cfg.withDefaults.pollTimeout ∧
      0 < cfg.withDefaults.pollInterval ∧ 0 < cfg.withDefaults.maxPollInterval := by
  refine ⟨orDefault_pos (by decide), orDefault_pos (by decide), orDefault_pos (by decide), ?_⟩
  rw [cfg.withDefaults_cap]
  split
  · decide
  · rename_i hset
    exact not_le.mp fun hle => hset (.inl hle)

/-- A cap from the first interval on is kept. -/
theorem Config.withDefaults_kept
    (h : cfg.withDefaults.pollInterval ≤ cfg.maxPollInterval) :
    cfg.withDefaults.maxPollInterval = cfg.maxPollInterval := by
  have hpos := cfg.withDefaults_pos.2.2.1
  rw [cfg.withDefaults_cap, if_neg]
  rintro (hle | hlt)
  · exact absurd (lt_of_lt_of_le hpos h) (not_lt.mpr hle)
  · exact absurd h (not_le.mpr hlt)

/-- The cap is below the first wait when that is above the default cap, and above what was set. -/
theorem Config.withDefaults_ordered :
    cfg.withDefaults.pollInterval ≤ cfg.withDefaults.maxPollInterval ↔
      cfg.pollInterval ≤ 5 * second ∨ cfg.pollInterval ≤ cfg.maxPollInterval := by
  have hordered : ∀ interval cap : ℤ,
      ((if interval ≤ 0 then 1000000000 else interval) ≤
          if cap ≤ 0 ∨ cap < (if interval ≤ 0 then 1000000000 else interval) then 5000000000
          else cap) ↔
        interval ≤ 5000000000 ∨ interval ≤ cap := by
    intro interval cap
    by_cases hunset : interval ≤ 0
    · rw [if_pos hunset]
      split <;> omega
    · rw [if_neg hunset]
      split <;> omega
  exact hordered cfg.pollInterval cfg.maxPollInterval

/-- Whether a wait reaches `2^62` can be read off what was set: the defaults are below. -/
theorem Config.withDefaults_wraps
    (hordered : cfg.withDefaults.pollInterval ≤ cfg.withDefaults.maxPollInterval) :
    Wraps cfg.withDefaults.pollInterval cfg.withDefaults.maxPollInterval
        cfg.withDefaults.pollTimeout ↔
      Wraps cfg.withDefaults.pollInterval cfg.maxPollInterval cfg.pollTimeout := by
  obtain ⟨-, -, hfirst, hcap⟩ := cfg.withDefaults_pos
  constructor
  · intro h
    have hcap_large := h.cap_large
    have hlimit_large := h.limit_large hfirst hcap
    have hcap_eq : cfg.withDefaults.maxPollInterval = cfg.maxPollInterval := by
      rw [cfg.withDefaults_cap] at hcap_large ⊢
      split at hcap_large
      · exact absurd hcap_large (by decide)
      · rename_i hset
        exact if_neg hset
    have hlimit_eq : cfg.withDefaults.pollTimeout = cfg.pollTimeout :=
      orDefault_eq (lt_of_lt_of_le (by decide) hlimit_large)
    rwa [hcap_eq, hlimit_eq] at h
  · intro h
    have hcap_large := h.cap_large
    have hcap_eq : cfg.withDefaults.maxPollInterval = cfg.maxPollInterval := by
      apply cfg.withDefaults_kept
      rw [cfg.withDefaults_cap] at hordered
      split at hordered
      · have hfive : (5 * second : ℤ) < 2 ^ 62 := by decide
        exact hordered.trans (hfive.le.trans hcap_large)
      · exact hordered
    have hlimit_large := h.limit_large hfirst (lt_of_lt_of_le (by decide) hcap_large)
    have hlimit_eq : cfg.withDefaults.pollTimeout = cfg.pollTimeout :=
      if_neg (not_le.mpr (lt_of_lt_of_le (by decide) hlimit_large))
    rwa [hcap_eq, hlimit_eq]

end WithDefaults

section Durations

variable {txTimeout pollTimeout pollInterval maxPollInterval : Int64}

theorem durations_cap_lt :
    (durations txTimeout pollTimeout pollInterval maxPollInterval).withDefaults.maxPollInterval
      < (2 ^ 63 : ℤ) := by
  rw [Config.withDefaults_cap]
  split
  · decide
  · exact Int64.toInt_lt maxPollInterval

theorem Timeline.pending_deadline (late : ℕ) (cfg : Config) :
    (Timeline.pending late).deadline cfg = cfg.withDefaults.pollTimeout :=
  zero_add _

end Durations

/-- The backoff respects its cap exactly for the configurations that either ask for a first wait of
at most five seconds or set a cap that is not below it, and whose waits stay below `2^62`
nanoseconds until the deadline. -/
theorem backoff_iff (txTimeout pollTimeout pollInterval maxPollInterval : Int64) :
    Backoff (durations txTimeout pollTimeout pollInterval maxPollInterval) ↔
      (pollInterval.toInt ≤ 5 * second ∨ pollInterval.toInt ≤ maxPollInterval.toInt) ∧
        ¬ Wraps (orDefault pollInterval.toInt second) maxPollInterval.toInt pollTimeout.toInt := by
  let cfg := durations txTimeout pollTimeout pollInterval maxPollInterval
  obtain ⟨-, -, hfirst, -⟩ := cfg.withDefaults_pos
  constructor
  · intro h
    refine ⟨cfg.withDefaults_ordered.mp h.ordered, ?_⟩
    intro hwraps
    obtain ⟨late, waits, s, hwaits, hbad⟩ := ((cfg.withDefaults_wraps h.ordered).mpr hwraps).not_capped
      hfirst h.ordered durations_cap_lt Sample.sentTx
    refine hbad (h.waits (Timeline.pending late) Sample.sentTx waits s ?_)
    rw [Timeline.pending_deadline]
    exact hwaits
  · rintro ⟨hset, hwraps⟩
    have hordered := cfg.withDefaults_ordered.mpr hset
    refine ⟨cfg.withDefaults_pos, hordered, cfg.withDefaults_kept, ?_⟩
    intro t hash waits s hwaits
    have hnot := fun h => hwraps ((cfg.withDefaults_wraps hordered).mp h)
    obtain ⟨n, rfl, -⟩ := hwaits.eq_schedule rfl rfl hfirst hordered hnot
    exact capped_schedule hfirst hordered n

/-- Only the first wait is configured, to ten seconds: the cap becomes five. -/
theorem backoff_uncapped : ¬ Backoff (durations 0 0 10000000000 0) := by
  intro h
  exact absurd h.ordered (by decide)

end Service
