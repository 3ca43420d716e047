/-
# The verdict of a submission

`SubmitSigned` on a virtual clock, where every call to the RPC takes some time and every wait at
least what was asked for.  The loop has no counter: it ends because each wait takes a positive
amount out of what is left to the deadline.  What it then reports is what the polls it made were
answered.
-/
import Astrea.Pipeline

open Interleave

namespace Service

/-! ## The loop on a clock -/

/-- What a submission meets: the answers it is given and the time that everything takes, in
nanoseconds. -/
structure Timeline where
  start : ℤ
  send : Except String SendResponse
  sendTime : ℤ
  get : ℕ → Except String GetResponse
  getTime : ℕ → ℤ
  /-- What the wait behind the polls made so far takes beyond what was asked for. -/
  slack : ℕ → ℤ
  sendTime_nonneg : 0 ≤ sendTime
  getTime_nonneg : ∀ k, 0 ≤ getTime k
  slack_nonneg : ∀ k, 0 ≤ slack k

/-- The loop before a poll: the polls made, the clock, and the wait that would follow. -/
structure Poll where
  made : ℕ
  now : ℤ
  interval : ℤ

/-- How a turn of the loop ends. -/
inductive Turn where
  | ended (r : Except SubmitError Unit)
  | again (s : Poll)

/-- One turn of the loop. -/
def Timeline.turn (t : Timeline) (hash : TxHash) (deadline maxPollInterval : ℤ) (s : Poll) :
    Turn :=
  match t.get s.made with
  | .error _ => .ended (.error .other)
  | .ok .success => .ended (.ok ())
  | .ok (.failed resultXDR) => .ended (.error (.onChain hash resultXDR))
  | .ok .notFound =>
      let now := s.now + t.getTime s.made
      if deadline < now + s.interval then .ended (.error (.timeout hash))
      else .again ⟨s.made + 1, now + s.interval + t.slack (s.made + 1),
        nextInterval s.interval maxPollInterval⟩

/-- The loop from a state on: the polls it waited behind, the last poll, and the result. -/
inductive Polls (t : Timeline) (hash : TxHash) (deadline maxPollInterval : ℤ) :
    Poll → List Poll → Poll → Except SubmitError Unit → Prop
  | ended {s : Poll} {r : Except SubmitError Unit}
      (h : t.turn hash deadline maxPollInterval s = .ended r) :
      Polls t hash deadline maxPollInterval s [] s r
  | again {s s' last : Poll} {waited : List Poll} {r : Except SubmitError Unit}
      (h : t.turn hash deadline maxPollInterval s = .again s')
      (rest : Polls t hash deadline maxPollInterval s' waited last r) :
      Polls t hash deadline maxPollInterval s (s :: waited) last r

section Loop

variable {t : Timeline} {hash : TxHash} {deadline maxPollInterval : ℤ} {s s' last : Poll}
  {waited : List Poll} {r : Except SubmitError Unit}

/-- The loop goes on after an inconclusive poll whose wait ends in time. -/
theorem Timeline.turn_again :
    t.turn hash deadline maxPollInterval s = .again s' ↔
      t.get s.made = .ok .notFound ∧ s.now + t.getTime s.made + s.interval ≤ deadline ∧
        s' = ⟨s.made + 1, s.now + t.getTime s.made + s.interval + t.slack (s.made + 1),
          nextInterval s.interval maxPollInterval⟩ := by
  unfold Timeline.turn
  split
  · simp_all
  · simp_all
  · simp_all
  · rename_i hget
    rw [hget]
    dsimp only
    split
    · rename_i hlate
      simp only [reduceCtorEq, true_and, false_iff, not_and]
      intro hle
      omega
    · rename_i hearly
      simp only [Turn.again.injEq, true_and]
      exact ⟨fun heq => ⟨by omega, heq.symm⟩, fun h => h.2.symm⟩

/-- A doubling of less than `2^62` does not wrap. -/
theorem nextInterval_eq {interval : ℤ} (hpos : 0 ≤ interval) (hlt : interval < 2 ^ 62) :
    nextInterval interval maxPollInterval = min (2 * interval) maxPollInterval := by
  have hexact : (2 * interval).bmod (2 ^ 64) = 2 * interval :=
    Int.bmod_eq_of_le (by norm_num; omega) (by norm_num; omega)
  show (if maxPollInterval < (2 * interval).bmod (2 ^ 64) then maxPollInterval
    else (2 * interval).bmod (2 ^ 64)) = _
  rw [hexact]
  split <;> omega

/-- Durations that the loop keeps between: the least wait, and what does not wrap. -/
def Waiting (least : ℤ) (interval : ℤ) : Prop := least ≤ interval ∧ interval ≤ 2 ^ 61

theorem Waiting.next {least interval : ℤ} (h : Waiting least interval) (hpos : 0 < least)
    (hmax : Waiting least maxPollInterval) :
    Waiting least (nextInterval interval maxPollInterval) := by
  obtain ⟨hlow, hhigh⟩ := h
  obtain ⟨hlow', hhigh'⟩ := hmax
  rw [nextInterval_eq (by omega) (by omega)]
  exact ⟨by omega, by omega⟩

/-- A turn that goes on has used up at least the least wait. -/
theorem Timeline.turn_progress {least : ℤ} (hs : Waiting least s.interval)
    (h : t.turn hash deadline maxPollInterval s = .again s') :
    s.now + least ≤ s'.now ∧ s.now + least ≤ deadline := by
  obtain ⟨-, hle, rfl⟩ := Timeline.turn_again.mp h
  have hget := t.getTime_nonneg s.made
  have hslack := t.slack_nonneg (s.made + 1)
  have hlow := hs.1
  exact ⟨by simp only; omega, by omega⟩

/-- The loop ends: each turn that goes on takes the least wait out of what is left. -/
theorem Polls.exists {least : ℤ} (hpos : 0 < least) (hmax : Waiting least maxPollInterval)
    (n : ℕ) (hs : Waiting least s.interval) (hn : deadline < s.now + n * least) :
    ∃ waited last r, Polls t hash deadline maxPollInterval s waited last r := by
  induction n generalizing s with
  | zero =>
      cases hturn : t.turn hash deadline maxPollInterval s with
      | ended r => exact ⟨_, _, r, .ended hturn⟩
      | again s' =>
          have hprogress := (Timeline.turn_progress hs hturn).2
          rw [Nat.cast_zero, zero_mul, add_zero] at hn
          omega
  | succ n ih =>
      cases hturn : t.turn hash deadline maxPollInterval s with
      | ended r => exact ⟨_, _, r, .ended hturn⟩
      | again s' =>
          obtain ⟨hget, hle, hs'⟩ := Timeline.turn_again.mp hturn
          have hprogress := (Timeline.turn_progress hs hturn).1
          have hinterval : Waiting least s'.interval := by
            rw [hs']
            exact hs.next hpos hmax
          have hleft : deadline < s'.now + n * least := by
            rw [Nat.cast_succ, add_mul, one_mul] at hn
            omega
          obtain ⟨waited, last, r, hrest⟩ := ih hinterval hleft
          exact ⟨_, _, _, .again hturn hrest⟩

/-- What the polls of a loop were answered, when its waits were to end, and how it ended. -/
theorem Polls.spec (h : Polls t hash deadline maxPollInterval s waited last r) :
    last.made = s.made + waited.length ∧
      (∀ k < waited.length, t.get (s.made + k) = .ok .notFound) ∧
      (∀ p ∈ waited, p.now + t.getTime p.made + p.interval ≤ deadline) ∧
      t.turn hash deadline maxPollInterval last = .ended r := by
  induction h with
  | ended h =>
      exact ⟨rfl, fun k hk => absurd hk (Nat.not_lt_zero k), fun p hp => absurd hp List.not_mem_nil,
        h⟩
  | @again s s' last waited r h rest ih =>
      obtain ⟨hmade, hget, hwaits, hturn⟩ := ih
      obtain ⟨hnot, hle, rfl⟩ := Timeline.turn_again.mp h
      refine ⟨by rw [hmade, List.length_cons]; simp only; omega, ?_, ?_, hturn⟩
      · intro k hk
        cases k with
        | zero => exact hnot
        | succ k =>
            have hrest := hget k (by simpa using hk)
            rwa [show s.made + (k + 1) = s.made + 1 + k by omega]
      · exact List.forall_mem_cons.mpr ⟨hle, hwaits⟩

/-- The waits of a loop fit into what was left. -/
theorem Polls.length_le {least : ℤ} (hpos : 0 < least) (hmax : Waiting least maxPollInterval)
    (h : Polls t hash deadline maxPollInterval s waited last r) (hs : Waiting least s.interval)
    (hwaited : waited ≠ []) : s.now + waited.length * least ≤ deadline := by
  induction h with
  | ended h => exact absurd rfl hwaited
  | @again s s' last waited r h rest ih =>
      obtain ⟨hprogress, hle⟩ := Timeline.turn_progress hs h
      have hinterval : Waiting least s'.interval := by
        rw [(Timeline.turn_again.mp h).2.2]
        exact hs.next hpos hmax
      by_cases hrest : waited = []
      · rw [hrest, List.length_singleton, Nat.cast_one, one_mul]
        exact hle
      · have hothers := ih hinterval hrest
        rw [List.length_cons, Nat.cast_succ, add_mul, one_mul]
        omega

/-- The loop has one course. -/
theorem Polls.unique {waited' : List Poll} {last' : Poll} {r' : Except SubmitError Unit}
    (h : Polls t hash deadline maxPollInterval s waited last r)
    (h' : Polls t hash deadline maxPollInterval s waited' last' r') :
    waited = waited' ∧ last = last' ∧ r = r' := by
  induction h generalizing waited' with
  | ended h =>
      cases h' with
      | ended h' =>
          rw [h] at h'
          exact ⟨rfl, rfl, Turn.ended.inj h'⟩
      | again h' rest' =>
          rw [h] at h'
          cases h'
  | again h rest ih =>
      cases h' with
      | ended h' =>
          rw [h] at h'
          cases h'
      | again h' rest' =>
          rw [h] at h'
          obtain rfl := Turn.again.inj h'
          obtain ⟨rfl, rfl, rfl⟩ := ih rest'
          exact ⟨rfl, rfl, rfl⟩

end Loop

/-! ## A submission on a clock -/

/-- The deadline of a submission's polls. -/
def Timeline.deadline (t : Timeline) (cfg : Config) : ℤ :=
  t.start + t.sendTime + cfg.withDefaults.pollTimeout

/-- A submission: the polls it waited behind, the last poll if it polled, and the result. -/
inductive Submission (t : Timeline) (cfg : Config) :
    List Poll → Option Poll → Except SubmitError TxHash → Prop
  | sendFailed {e : String} (h : t.send = .error e) : Submission t cfg [] none (.error .other)
  | refused {response : SendResponse} (h : t.send = .ok response)
      (status_eq : response.status = .error) :
      Submission t cfg [] none (.error (.submission response.errorResultXDR))
  | polled {response : SendResponse} {waited : List Poll} {last : Poll}
      {r : Except SubmitError Unit} (h : t.send = .ok response)
      (status_ne : response.status ≠ .error)
      (polls : Polls t response.hash (t.deadline cfg) cfg.withDefaults.maxPollInterval
        ⟨0, t.start + t.sendTime, cfg.withDefaults.pollInterval⟩ waited last r) :
      Submission t cfg waited (some last) (r.map fun _ => response.hash)

/-- No duration of a configuration is above `2^61` nanoseconds. -/
structure Config.Bounded (cfg : Config) : Prop where
  pollTimeout : cfg.pollTimeout ≤ (2 ^ 61 : ℤ)
  pollInterval : cfg.pollInterval ≤ (2 ^ 61 : ℤ)
  maxPollInterval : cfg.maxPollInterval ≤ (2 ^ 61 : ℤ)

/-- The least wait of a configuration. -/
def Config.leastWait (cfg : Config) : ℤ :=
  min cfg.withDefaults.pollInterval cfg.withDefaults.maxPollInterval

/-- The defaults fill in positive durations. -/
theorem Config.Bounded.waiting {cfg : Config} (h : cfg.Bounded) :
    0 < cfg.leastWait ∧ (0 : ℤ) < cfg.withDefaults.pollTimeout ∧
      Waiting cfg.leastWait cfg.withDefaults.pollInterval ∧
      Waiting cfg.leastWait cfg.withDefaults.maxPollInterval := by
  obtain ⟨htimeout, hinterval, hmax⟩ := h
  have hdefault : ∀ d default : ℤ, 0 < default → default ≤ 2 ^ 61 → d ≤ 2 ^ 61 →
      0 < (orDefault d default : ℤ) ∧ (orDefault d default : ℤ) ≤ 2 ^ 61 := by
    intro d default hpos hle hd
    show 0 < (if d ≤ 0 then default else d) ∧ (if d ≤ 0 then default else d) ≤ 2 ^ 61
    split <;> omega
  have hcap : ∀ d i : ℤ, d ≤ 2 ^ 61 → 0 < (if d ≤ 0 ∨ d < i then 5000000000 else d) ∧
      (if d ≤ 0 ∨ d < i then 5000000000 else d) ≤ 2 ^ 61 := by
    intro d i hd
    split <;> omega
  obtain ⟨hinterval₀, hinterval₁⟩ : (0 : ℤ) < cfg.withDefaults.pollInterval ∧
      cfg.withDefaults.pollInterval ≤ (2 ^ 61 : ℤ) :=
    hdefault cfg.pollInterval 1000000000 (by decide) (by decide) hinterval
  obtain ⟨hmax₀, hmax₁⟩ : (0 : ℤ) < cfg.withDefaults.maxPollInterval ∧
      cfg.withDefaults.maxPollInterval ≤ (2 ^ 61 : ℤ) :=
    hcap cfg.maxPollInterval cfg.withDefaults.pollInterval hmax
  refine ⟨lt_min hinterval₀ hmax₀, (hdefault cfg.pollTimeout 30000000000 (by decide) (by decide)
    htimeout).1, ⟨min_le_left _ _, hinterval₁⟩, ⟨min_le_right _ _, hmax₁⟩⟩

/-- The answer `a` is the first that is not inconclusive, among the first `n` polls. -/
def Timeline.FirstConclusive (t : Timeline) (n : ℕ) (a : Except String GetResponse) : Prop :=
  ∃ k < n, t.get k = a ∧ a ≠ .ok .notFound ∧ ∀ j < k, t.get j = .ok .notFound

/-- What a submission is to report.  `waited.length + 1` polls were made if any was. -/
structure Truthful (t : Timeline) (cfg : Config) (waited : List Poll) (last : Option Poll)
    (r : Except SubmitError TxHash) : Prop where
  /-- No wait was to end after the deadline. -/
  waits : ∀ p ∈ waited, p.now + t.getTime p.made + p.interval ≤ t.deadline cfg
  submission : (∃ errorResultXDR, r = .error (.submission errorResultXDR)) ↔
    ∃ response, t.send = .ok response ∧ response.status = .error
  success : ∀ response, t.send = .ok response → response.status ≠ .error →
    (r = .ok response.hash ↔ t.FirstConclusive (waited.length + 1) (.ok .success))
  onChain : ∀ response, t.send = .ok response → response.status ≠ .error → ∀ resultXDR,
    (r = .error (.onChain response.hash resultXDR) ↔
      t.FirstConclusive (waited.length + 1) (.ok (.failed resultXDR)))
  timeout : ∀ response, t.send = .ok response → response.status ≠ .error →
    (r = .error (.timeout response.hash) ↔
      (∀ k < waited.length + 1, t.get k = .ok .notFound) ∧
      ∃ p, last = some p ∧ t.deadline cfg < p.now + t.getTime p.made + p.interval)
  /-- Every verdict names the transaction that was sent. -/
  named : ∀ response, t.send = .ok response → ∀ hash,
    (r = .ok hash ∨ r = .error (.timeout hash) ∨ ∃ resultXDR, r = .error (.onChain hash resultXDR)) →
    hash = response.hash

/-- How the last turn of a loop ends: on a conclusive answer, or on an inconclusive one when the
next wait would pass the deadline. -/
theorem Timeline.turn_ended {t : Timeline} {hash : TxHash} {deadline maxPollInterval : ℤ}
    {s : Poll} {r : Except SubmitError Unit}
    (h : t.turn hash deadline maxPollInterval s = .ended r) :
    (r = .ok () ↔ t.get s.made = .ok .success) ∧
      (∀ x, r = .error (.onChain hash x) ↔ t.get s.made = .ok (.failed x)) ∧
      (r = .error (.timeout hash) ↔ t.get s.made = .ok .notFound ∧
        deadline < s.now + t.getTime s.made + s.interval) ∧
      (∀ e, r = .error e → e = .other ∨ e = .timeout hash ∨ ∃ x, e = .onChain hash x) := by
  unfold Timeline.turn at h
  split at h
  · rename_i e hget
    obtain rfl := Turn.ended.inj h
    simp [hget]
  · rename_i hget
    obtain rfl := Turn.ended.inj h
    simp [hget]
  · rename_i x hget
    obtain rfl := Turn.ended.inj h
    simp [hget]
  · rename_i hget
    dsimp only at h
    split at h
    · rename_i hlate
      obtain rfl := Turn.ended.inj h
      simp [hget, hlate]
    · cases h

/-- Behind inconclusive polls, the first conclusive answer is that of the next. -/
theorem Timeline.firstConclusive_iff {t : Timeline} {n : ℕ} {a : Except String GetResponse}
    (h : ∀ k < n, t.get k = .ok .notFound) (ha : a ≠ .ok .notFound) :
    t.FirstConclusive (n + 1) a ↔ t.get n = a := by
  constructor
  · rintro ⟨k, hk, hget, -, -⟩
    rcases Nat.lt_succ_iff_lt_or_eq.mp hk with hlt | rfl
    · exact absurd (hget.symm.trans (h k hlt)) ha
    · exact hget
  · intro hget
    exact ⟨n, Nat.lt_succ_self n, hget, ha, h⟩

/-- The verdict of the loop is the truth about what it was answered. -/
theorem Polls.truthful {t : Timeline} {cfg : Config} {response : SendResponse} {waited : List Poll}
    {last : Poll} {r : Except SubmitError Unit} (h : t.send = .ok response)
    (status_ne : response.status ≠ .error)
    (polls : Polls t response.hash (t.deadline cfg) cfg.withDefaults.maxPollInterval
      ⟨0, t.start + t.sendTime, cfg.withDefaults.pollInterval⟩ waited last r) :
    Truthful t cfg waited (some last) (r.map fun _ => response.hash) := by
  obtain ⟨hmade, hget, hwaits, hturn⟩ := polls.spec
  obtain ⟨hsuccess, hfailed, htimeout, herror⟩ := Timeline.turn_ended hturn
  simp only [Nat.zero_add] at hmade hget
  rw [hmade] at hsuccess hfailed htimeout
  have hsame : ∀ {response' : SendResponse}, t.send = .ok response' → response' = response :=
    fun hsend => Except.ok.inj (hsend.symm.trans h)
  -- the verdict is that of the loop
  have hok : ∀ hash, (r.map fun _ => response.hash) = .ok hash ↔
      r = .ok () ∧ response.hash = hash := by
    intro hash
    cases r <;> simp [Except.map]
  have hbad : ∀ e, (r.map fun _ => response.hash) = .error e ↔ r = .error e := by
    intro e
    cases r <;> simp [Except.map]
  refine ⟨hwaits, ?_, ?_, ?_, ?_, ?_⟩
  · constructor
    · rintro ⟨x, hr⟩
      rcases herror _ ((hbad _).mp hr) with heq | heq | ⟨y, heq⟩ <;> cases heq
    · rintro ⟨response', hsend, hrefused⟩
      rw [hsame hsend] at hrefused
      exact absurd hrefused status_ne
  · intro response' hsend _
    rw [hsame hsend, hok, and_iff_left rfl, hsuccess,
      Timeline.firstConclusive_iff hget (by simp)]
  · intro response' hsend _ x
    rw [hsame hsend, hbad, hfailed, Timeline.firstConclusive_iff hget (by simp)]
  · intro response' hsend _
    rw [hsame hsend, hbad, htimeout]
    constructor
    · rintro ⟨hlast, hlate⟩
      refine ⟨fun k hk => ?_, last, rfl, hmade ▸ hlate⟩
      rcases Nat.lt_succ_iff_lt_or_eq.mp hk with hlt | rfl
      · exact hget k hlt
      · exact hlast
    · rintro ⟨hall, p, hp, hlate⟩
      obtain rfl := Option.some_inj.mp hp
      exact ⟨hall _ (Nat.lt_succ_self _), hmade ▸ hlate⟩
  · intro response' hsend hash hr
    rw [hsame hsend]
    rcases hr with hr | hr | ⟨x, hr⟩
    · exact ((hok hash).mp hr).2.symm
    · rcases herror _ ((hbad _).mp hr) with heq | heq | ⟨y, heq⟩
      · cases heq
      · exact SubmitError.timeout.inj heq
      · cases heq
    · rcases herror _ ((hbad _).mp hr) with heq | heq | ⟨y, heq⟩
      · cases heq
      · cases heq
      · exact (SubmitError.onChain.inj heq).1

/-- Every submission that ends reports the truth. -/
theorem Submission.truthful {t : Timeline} {cfg : Config} {waited : List Poll}
    {last : Option Poll} {r : Except SubmitError TxHash} (h : Submission t cfg waited last r) :
    Truthful t cfg waited last r := by
  cases h with
  | @sendFailed e h =>
      have hnone : ∀ {response : SendResponse}, t.send ≠ .ok response := by
        intro response hsend
        rw [h] at hsend
        cases hsend
      exact ⟨fun p hp => absurd hp List.not_mem_nil,
        ⟨fun ⟨_, hr⟩ => (nomatch hr), fun ⟨_, hsend, _⟩ => absurd hsend hnone⟩,
        fun _ hsend => absurd hsend hnone, fun _ hsend => absurd hsend hnone,
        fun _ hsend => absurd hsend hnone, fun _ hsend => absurd hsend hnone⟩
  | @refused response h status_eq =>
      have hrefused : ∀ {response' : SendResponse}, t.send = .ok response' →
          response'.status = .error := by
        intro response' hsend
        rw [h] at hsend
        obtain rfl := Except.ok.inj hsend
        exact status_eq
      refine ⟨fun p hp => absurd hp List.not_mem_nil,
        ⟨fun _ => ⟨response, h, status_eq⟩, fun _ => ⟨_, rfl⟩⟩,
        fun _ hsend hne => absurd (hrefused hsend) hne,
        fun _ hsend hne => absurd (hrefused hsend) hne,
        fun _ hsend hne => absurd (hrefused hsend) hne, ?_⟩
      rintro _ _ hash (hr | hr | ⟨x, hr⟩) <;> cases hr
  | polled h status_ne polls => exact polls.truthful h status_ne

/-- Every submission ends. -/
theorem Submission.exists (t : Timeline) {cfg : Config} (hcfg : cfg.Bounded) :
    ∃ waited last r, Submission t cfg waited last r := by
  obtain ⟨hpos, htimeout, hinterval, hmax⟩ := hcfg.waiting
  cases hsend : t.send with
  | error e => exact ⟨_, _, _, .sendFailed hsend⟩
  | ok response =>
      by_cases hstatus : response.status = .error
      · exact ⟨_, _, _, .refused hsend hstatus⟩
      · have hleft : t.deadline cfg < t.start + t.sendTime
            + ((cfg.withDefaults.pollTimeout / cfg.leastWait).toNat + 1 : ℕ) * cfg.leastWait := by
          have hlt := Int.lt_ediv_add_one_mul_self (cfg.withDefaults.pollTimeout : ℤ) hpos
          have hnonneg := Int.ediv_nonneg htimeout.le hpos.le
          rw [Nat.cast_succ, Int.toNat_of_nonneg hnonneg, Timeline.deadline]
          exact Int.add_lt_add_left hlt _
        have hends : ∃ waited last r, Polls t response.hash (t.deadline cfg)
            cfg.withDefaults.maxPollInterval ⟨0, t.start + t.sendTime, cfg.withDefaults.pollInterval⟩
            waited last r := Polls.exists hpos hmax _ hinterval hleft
        obtain ⟨waited, last, r, hpolls⟩ := hends
        exact ⟨_, _, _, .polled hsend hstatus hpolls⟩

theorem Submission.unique {t : Timeline} {cfg : Config} {waited waited' : List Poll}
    {last last' : Option Poll} {r r' : Except SubmitError TxHash}
    (h : Submission t cfg waited last r) (h' : Submission t cfg waited' last' r') :
    waited = waited' ∧ last = last' ∧ r = r' := by
  cases h with
  | sendFailed h =>
      cases h' with
      | sendFailed => exact ⟨rfl, rfl, rfl⟩
      | refused h' => cases h.symm.trans h'
      | polled h' => cases h.symm.trans h'
  | refused h status_eq =>
      cases h' with
      | sendFailed h' => cases h.symm.trans h'
      | refused h' =>
          cases h.symm.trans h'
          exact ⟨rfl, rfl, rfl⟩
      | polled h' status_ne =>
          cases h.symm.trans h'
          exact absurd status_eq status_ne
  | polled h status_ne polls =>
      cases h' with
      | sendFailed h' => cases h.symm.trans h'
      | refused h' status_eq =>
          cases h.symm.trans h'
          exact absurd status_eq status_ne
      | polled h' status_ne' polls' =>
          cases h.symm.trans h'
          obtain ⟨rfl, rfl, rfl⟩ := polls.unique polls'
          exact ⟨rfl, rfl, rfl⟩

/-! ## The program of the pipeline -/

/-- A clock, and the polls that were answered. -/
structure Clock where
  now : ℤ
  polls : ℕ

/-- The answers of a timeline to the calls of a submission. -/
def Timeline.respond (t : Timeline) (c : Clock) : (op : Op) → Option (op.Res × Clock)
  | .sendTransaction _ => some (t.send, ⟨c.now + t.sendTime, c.polls⟩)
  | .getTransaction _ => some (t.get c.polls, ⟨c.now + t.getTime c.polls, c.polls + 1⟩)
  | .now => some (c.now, c)
  | .sleep interval => some ((), ⟨c.now + interval + t.slack c.polls, c.polls⟩)
  | _ => none

/-- A call, and then the rest. -/
theorem against_call {α : Type} {t : Timeline} {c : Clock} {op : Op} {f : op.Res → Handler α} :
    Prog.against t.respond c (call op >>= f).run
      = (t.respond c op).bind fun r => Prog.against t.respond r.2 (f r.1).run := rfl

/-- A part of the program that goes on, and then the rest. -/
theorem against_then {α β : Type} {t : Timeline} {c c' : Clock} {p : Handler α} {a : α}
    {f : α → Handler β} (h : Prog.against t.respond c p.run = some (.ok a, c')) :
    Prog.against t.respond c (p >>= f).run = Prog.against t.respond c' (f a).run := by
  have hbind : (p >>= f).run = p.run.bind fun r =>
      match r with
      | .ok a => (f a).run
      | .error e => .ret (.error e) :=
    congrArg p.run.bind (funext fun r => by cases r <;> rfl)
  rw [hbind, Prog.against_bind, h]
  rfl

/-- With polls to spare, the program's loop does what the loop does. -/
theorem Polls.against {t : Timeline} {hash : TxHash} {deadline maxPollInterval : ℤ} {s last : Poll}
    {waited : List Poll} {r : Except SubmitError Unit} {polls : ℕ}
    (h : Polls t hash deadline maxPollInterval s waited last r) (hpolls : waited.length < polls) :
    ∃ c, Prog.against t.respond ⟨s.now, s.made⟩
      (pollFrom hash deadline maxPollInterval polls s.interval).run = some (.ok r, c) := by
  induction h generalizing polls with
  | @ended s r h =>
      cases polls with
      | zero => exact absurd hpolls (Nat.not_lt_zero _)
      | succ polls =>
          rw [pollFrom, against_call]
          simp only [Timeline.respond, Option.bind_some]
          unfold Timeline.turn at h
          cases hget : t.get s.made with
          | error e =>
              rw [hget] at h
              rw [← Turn.ended.inj h]
              exact ⟨_, rfl⟩
          | ok response =>
              rw [hget] at h
              cases response with
              | success =>
                  rw [← Turn.ended.inj h]
                  exact ⟨_, rfl⟩
              | failed x =>
                  rw [← Turn.ended.inj h]
                  exact ⟨_, rfl⟩
              | notFound =>
                  dsimp only at h ⊢
                  split at h
                  · rename_i hlate
                    rw [← Turn.ended.inj h, against_call]
                    simp only [Timeline.respond, Option.bind_some]
                    rw [if_pos hlate]
                    exact ⟨_, rfl⟩
                  · cases h
  | @again s s' last waited r h rest ih =>
      cases polls with
      | zero => exact absurd hpolls (Nat.not_lt_zero _)
      | succ polls =>
          obtain ⟨hget, hle, rfl⟩ := Timeline.turn_again.mp h
          have hfew : waited.length < polls := by simpa using hpolls
          obtain ⟨c, hc⟩ := ih hfew
          refine ⟨c, ?_⟩
          rw [pollFrom, against_call]
          simp only [Timeline.respond, Option.bind_some]
          rw [hget]
          dsimp only
          rw [against_call]
          simp only [Timeline.respond, Option.bind_some]
          rw [if_neg (not_lt.mpr hle), against_call]
          exact hc

/-- The program of the pipeline has the course of the submission: its bound on the polls is not
reached. -/
theorem Submission.against {t : Timeline} {cfg : Config} {waited : List Poll} {last : Option Poll}
    {r : Except SubmitError TxHash} (h : Submission t cfg waited last r) (hcfg : cfg.Bounded)
    (signedXDR : SignedXDR) :
    ∃ c, Prog.against t.respond ⟨t.start, 0⟩ (submitSigned signedXDR cfg).run
      = some (.ok r, c) := by
  obtain ⟨hpos, htimeout, hinterval, hmax⟩ := hcfg.waiting
  rw [submitSigned, against_call]
  simp only [Timeline.respond, Option.bind_some]
  cases h with
  | sendFailed h =>
      rw [h]
      exact ⟨_, rfl⟩
  | refused h status_eq =>
      rw [h]
      dsimp only
      rw [if_pos status_eq]
      exact ⟨_, rfl⟩
  | @polled response waited last r h status_ne polls =>
      have hfew : waited.length
          < (cfg.withDefaults.pollTimeout / cfg.leastWait : ℤ).toNat + 2 := by
        by_cases hnil : waited = []
        · rw [hnil]
          exact Nat.succ_pos _
        · have hfit := polls.length_le hpos hmax hinterval hnil
          have hmul : (waited.length : ℤ) * cfg.leastWait ≤ cfg.withDefaults.pollTimeout := by
            rw [Timeline.deadline] at hfit
            exact Int.le_of_add_le_add_left hfit
          have hle := Int.le_ediv_of_mul_le hpos hmul
          omega
      obtain ⟨c, hc⟩ := polls.against hfew
      have hpolls : Prog.against t.respond ⟨t.start + t.sendTime, 0⟩
          (pollForConfirmation response.hash cfg.withDefaults).run = some (.ok r, c) := by
        rw [pollForConfirmation, against_call]
        exact hc
      refine ⟨c, ?_⟩
      rw [h]
      dsimp only
      rw [if_neg status_ne, against_then hpolls]
      cases r <;> rfl

/-- A submission ends, in one way; it waits past its deadline for nothing, reports the truth, and
this is what the program of the pipeline does. -/
theorem submission_verdict (t : Timeline) (signedXDR : SignedXDR) {cfg : Config}
    (hcfg : cfg.Bounded) :
    (∃ waited last r, Submission t cfg waited last r) ∧
      ∀ waited last r, Submission t cfg waited last r → Truthful t cfg waited last r ∧
        (∀ waited' last' r', Submission t cfg waited' last' r' →
          waited = waited' ∧ last = last' ∧ r = r') ∧
        ∃ c, Prog.against t.respond ⟨t.start, 0⟩ (submitSigned signedXDR cfg).run
          = some (.ok r, c) :=
  ⟨Submission.exists t hcfg, fun _ _ _ h =>
    ⟨h.truthful, fun _ _ _ h' => h.unique h', h.against hcfg signedXDR⟩⟩

namespace Sample

def sentTx : Transaction where
  sourceAccount := .ed25519 3
  seqNum := 41
  fee := 100
  timeBounds := none
  operations := []
  ext := 0

/-- The second poll, a second and a half after the first, finds the transaction. -/
def confirmed : Timeline where
  start := 0
  send := .ok ⟨sentTx, .pending, ""⟩
  sendTime := 20000000
  get := fun k => if k = 0 then .ok .notFound else .ok .success
  getTime := fun _ => 10000000
  slack := fun _ => 490000000
  sendTime_nonneg := by decide
  getTime_nonneg := fun _ => by decide
  slack_nonneg := fun _ => by decide

/-- Nothing is configured. -/
def defaults : Config := ⟨0, 0, 0, 0⟩

end Sample

/-- The submission of the sample is confirmed after one wait. -/
theorem submission_verdict_confirmed :
    Submission Sample.confirmed Sample.defaults [⟨0, 20000000, 1000000000⟩]
        (some ⟨1, 1520000000, 2000000000⟩) (.ok Sample.sentTx) ∧
      Sample.confirmed.FirstConclusive 2 (.ok .success) ∧
      ∃ c, Prog.against Sample.confirmed.respond ⟨0, 0⟩
        (submitSigned (.envelope (.v1 Sample.sentTx [])) Sample.defaults).run
          = some (.ok (.ok Sample.sentTx), c) := by
  have hpolls : Polls Sample.confirmed Sample.sentTx (Sample.confirmed.deadline Sample.defaults)
      Sample.defaults.withDefaults.maxPollInterval ⟨0, 20000000, 1000000000⟩
      [⟨0, 20000000, 1000000000⟩] ⟨1, 1520000000, 2000000000⟩ (.ok ()) :=
    .again rfl (.ended rfl)
  have hsubmission : Submission Sample.confirmed Sample.defaults [⟨0, 20000000, 1000000000⟩]
      (some ⟨1, 1520000000, 2000000000⟩) (.ok Sample.sentTx) :=
    @Submission.polled Sample.confirmed Sample.defaults ⟨Sample.sentTx, .pending, ""⟩ _ _ (.ok ())
      rfl (by decide) hpolls
  have hbounded : Sample.defaults.Bounded := ⟨by decide, by decide, by decide⟩
  obtain ⟨htruthful, -, hprogram⟩ := (submission_verdict Sample.confirmed
    (.envelope (.v1 Sample.sentTx [])) hbounded).2 _ _ _ hsubmission
  exact ⟨hsubmission, (htruthful.success _ rfl (by decide)).mp rfl, hprogram⟩

end Service
