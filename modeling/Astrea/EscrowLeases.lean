/-
# How long the contract's entries live

Runs of the contract on a ledger that counts, with the lease of every storage key.  Anyone may
extend an entry from outside the contract, and an archived one is restored before it is used; the
contract itself extends exactly what it sets.  So an entry outlives its last write by at least
thirty days, and what is written only once is never extended again.

`extend_ttl` is the host's: the runs are over any host, and what is said about the length of a
lease rests on `Host.Lawful`.
-/
import Astrea.EscrowLifetime

open Lifetime

namespace Escrow

variable {own : Address} {host : Host}

/-- The contract's state, the number of the current ledger and the leases of the storage keys. -/
structure Leased where
  state : State
  sequence : ℕ
  leases : KeyTable DataKey ℕ

/-- What a step of the ledger is. -/
inductive LeaseLabel (own : Address) where
  | call (env : Env own) (call : Call)
  | reverted (env : Env own) (call : Call)
  | close
  | renewed (k : DataKey)

/-- One step: a call in the current ledger, with its accesses to the storage; a later ledger; or an
extension or a restoration from outside. -/
inductive LeaseStep (host : Host) (own : Address) : Leased → LeaseLabel own → Leased → Prop
  | call {s : Leased} {s' : State} {env : Env own} {call : Call}
      (ok : exec env s.state call = .ok s') :
      LeaseStep host own s (.call env call)
        ⟨s', s.sequence, accessAll host s.sequence (accesses s.state call) s.leases⟩
  | reverted {s : Leased} {env : Env own} {call : Call} {trap : Trap}
      (error : exec env s.state call = .error trap) : LeaseStep host own s (.reverted env call) s
  | close {s : Leased} {b : Balances} {n : ℕ} (later : s.sequence ≤ n)
      (grows : ∀ token, s.state.balances token own ≤ b token own) :
      LeaseStep host own s .close ⟨s.state.setBalances b, n, s.leases⟩
  | renewed {s : Leased} {k : DataKey} {u v : ℕ} (lease_eq : s.leases.lookup k = some u)
      (le : u ≤ v) : LeaseStep host own s (.renewed k) ⟨s.state, s.sequence, s.leases.insert k v⟩

/-- A fresh deployment at ledger `n`. -/
def leasedGenesis (b : Balances) (n : ℕ) : Leased := ⟨genesis b, n, ∅⟩

/-- A run from a fresh deployment, with leases. -/
abbrev LeasedRun (host : Host) (own : Address) (b : Balances) (n : ℕ)
    (tr : List (Transition Leased (LeaseLabel own))) (s : Leased) : Prop :=
  Run (LeaseStep host own) (leasedGenesis b n) tr s

/-! ## The contract underneath -/

/-- Without the leases, a step is one of the contract, or none. -/
theorem LeaseStep.contract {s s' : Leased} {l : LeaseLabel own} (h : LeaseStep host own s l s') :
    (∃ l', Step own s.state l' s'.state) ∨ s'.state = s.state := by
  cases h with
  | call ok => exact .inl ⟨_, .call ok⟩
  | reverted error => exact .inl ⟨_, .reverted error⟩
  | close later grows => exact .inl ⟨_, .ledger grows⟩
  | renewed lease_eq le => exact .inr rfl

/-- Without the leases, a run is one of the contract. -/
theorem LeasedRun.contract {b : Balances} {n : ℕ} {tr : List (Transition Leased (LeaseLabel own))}
    {s : Leased} (hr : LeasedRun host own b n tr s) : ∃ tr', EscrowRun own b tr' s.state := by
  refine hr.invariant (I := fun s => ∃ tr', EscrowRun own b tr' s.state) ⟨[], .nil⟩ ?_
  rintro s l s' ⟨tr', hrun⟩ hstep
  rcases hstep.contract with ⟨l', hstep'⟩ | heq
  · exact ⟨_, hrun.snoc hstep'⟩
  · exact ⟨tr', heq ▸ hrun⟩

/-! ## One step -/

/-- The lease of a key that a call sets is extended on the terms of its kind. -/
theorem lookup_accesses_of_mem {now : ℕ} {s : State} {call : Call} {leases : KeyTable DataKey ℕ}
    {k : DataKey} (hk : k ∈ sets s call) :
    (accessAll host now (accesses s call) leases).lookup k
      = some (host.extendTtl k.terms now ((leases.lookup k).getD (now + host.initial))) := by
  obtain ⟨heq, hnodup⟩ := setsExtended_accesses s call
  rw [heq]
  exact lookup_setAndExtend_of_mem hnodup hk

/-- The lease of a key that a call does not set stays. -/
theorem lookup_accesses_of_not_mem {now : ℕ} {s : State} {call : Call}
    {leases : KeyTable DataKey ℕ} {k : DataKey} (hk : k ∉ sets s call) :
    (accessAll host now (accesses s call) leases).lookup k = leases.lookup k := by
  rw [(setsExtended_accesses s call).1]
  exact lookup_setAndExtend_of_not_mem hk

/-- No step ends a lease early. -/
theorem LeaseStep.lease_le {s s' : Leased} {l : LeaseLabel own} (hhost : host.Lawful)
    (h : LeaseStep host own s l s') {k : DataKey} {u : ℕ} (hu : s.leases.lookup k = some u) :
    ∃ v, s'.leases.lookup k = some v ∧ u ≤ v := by
  cases h with
  | @call _ env call ok =>
      dsimp only
      by_cases hk : k ∈ sets s.state call
      · rw [lookup_accesses_of_mem hk, hu, Option.getD_some]
        exact ⟨_, rfl, le_extendTtl hhost⟩
      · rw [lookup_accesses_of_not_mem hk]
        exact ⟨u, hu, le_refl u⟩
  | reverted error => exact ⟨u, hu, le_refl u⟩
  | close later grows => exact ⟨u, hu, le_refl u⟩
  | @renewed k' u' v lease_eq le =>
      dsimp only
      by_cases hk : k = k'
      · subst hk
        rw [AList.lookup_insert]
        exact ⟨v, rfl, by rw [Option.some_inj.mp (hu.symm.trans lease_eq)]; exact le⟩
      · rw [AList.lookup_insert_ne hk]
        exact ⟨u, hu, le_refl u⟩

/-- A key has a lease when something is stored under it, and only then. -/
def LeasesStored (s : Leased) : Prop :=
  ∀ k, (s.leases.lookup k).isSome = (s.state.stored k).isSome

/-- Every step keeps leases and values together. -/
theorem LeaseStep.leasesStored {s s' : Leased} {l : LeaseLabel own}
    (h : LeaseStep host own s l s') (hs : LeasesStored s) : LeasesStored s' := by
  intro k
  cases h with
  | @call _ env call ok =>
      have hwrites := exec_writes ok
      dsimp only
      by_cases hk : k ∈ sets s.state call
      · rw [lookup_accesses_of_mem hk, hwrites.stored k hk]
        rfl
      · rw [lookup_accesses_of_not_mem hk, hs k, hwrites.frame k hk]
  | reverted error => exact hs k
  | @close b n later grows =>
      have hsame := ((Writes.refl s.state).setBalances b).frame k List.not_mem_nil
      exact (hs k).trans (congrArg Option.isSome hsame.symm)
  | @renewed k' u v lease_eq le =>
      dsimp only
      by_cases hk : k = k'
      · subst hk
        rw [AList.lookup_insert, ← hs k, lease_eq]
        rfl
      · rw [AList.lookup_insert_ne hk]
        exact hs k

theorem LeasedRun.leasesStored {b : Balances} {n : ℕ}
    {tr : List (Transition Leased (LeaseLabel own))} {s : Leased}
    (hr : LeasedRun host own b n tr s) : LeasesStored s := by
  refine hr.invariant (I := LeasesStored) ?_ fun _ _ _ hI hstep => hstep.leasesStored hI
  intro k
  cases k <;> rfl

/-- No run ends a lease early. -/
theorem lease_le_of_run {s s' : Leased} {tr : List (Transition Leased (LeaseLabel own))}
    (hhost : host.Lawful) (hr : Run (LeaseStep host own) s tr s') {k : DataKey} {u : ℕ}
    (hu : s.leases.lookup k = some u) : ∃ v, s'.leases.lookup k = some v ∧ u ≤ v := by
  refine hr.invariant (I := fun t => ∃ v, t.leases.lookup k = some v ∧ u ≤ v)
    ⟨u, hu, le_refl u⟩ ?_
  rintro t l t' ⟨v, hv, hle⟩ hstep
  obtain ⟨w, hw, hle'⟩ := hstep.lease_le hhost hv
  exact ⟨w, hw, hle.trans hle'⟩

/-! ## What is written lives on -/

/-- The call of the transition has written `k`: a value is stored under it, the lease it had, or a
first one, has been extended on the terms of that kind of key, and in the later state `s` it is
still leased for thirty days from the ledger of the call, or for as long as the host allows. -/
structure WrittenAndKept (host : Host) (k : DataKey) (t : Transition Leased (LeaseLabel own))
    (s : Leased) : Prop where
  stored : t.post.state.stored k ≠ none
  lease : t.post.leases.lookup k = some (host.extendTtl k.terms t.pre.sequence
    ((t.pre.leases.lookup k).getD (t.pre.sequence + host.initial)))
  lives : ∃ u, s.leases.lookup k = some u ∧
    t.pre.sequence + min (30 * dayInLedgers) host.longest ≤ u

/-- The call of the transition has left the value and the lease of `k` as they were. -/
structure Untouched (k : DataKey) (t : Transition Leased (LeaseLabel own)) : Prop where
  stored : t.post.state.stored k = t.pre.state.stored k
  lease : t.post.leases.lookup k = t.pre.leases.lookup k

/-- Along every run from the deployment, over any lawful host: a key has a lease exactly when
something is stored under it; and every call writes each key it sets, extends its lease and keeps
it for thirty days, whatever happens later, and changes the value and the lease of no other key. -/
theorem written_keys_live {b : Balances} {n : ℕ} {tr : List (Transition Leased (LeaseLabel own))}
    {s : Leased} (hhost : host.Lawful) (hr : LeasedRun host own b n tr s) :
    LeasesStored s ∧
    ∀ t ∈ tr, ∀ env call, t.label = .call env call → ∀ k,
      (k ∈ sets t.pre.state call → WrittenAndKept host k t s) ∧
      (k ∉ sets t.pre.state call → Untouched k t) := by
  refine ⟨hr.leasesStored, ?_⟩
  intro t ht env call hlabel k
  obtain ⟨before, after, rfl⟩ := List.mem_iff_append.mp ht
  obtain ⟨-, hstep, hrest⟩ := hr.split
  obtain ⟨pre, label, post⟩ := t
  dsimp only at hlabel hstep hrest ⊢
  subst hlabel
  cases hstep with
  | call ok =>
      have hwrites := exec_writes ok
      refine ⟨fun hk => ?_, fun hk => ?_⟩
      · have hlease : (accessAll host pre.sequence (accesses pre.state call) pre.leases).lookup k =
            some (host.extendTtl k.terms pre.sequence
              ((pre.leases.lookup k).getD (pre.sequence + host.initial))) :=
          lookup_accesses_of_mem hk
        obtain ⟨u, hu, hle⟩ := lease_le_of_run hhost hrest hlease
        have hthreshold : k.terms.threshold = 30 * dayInLedgers := by cases k <;> rfl
        refine ⟨?_, hlease, u, hu, hthreshold ▸ (threshold_le_extendTtl hhost).trans hle⟩
        exact Option.isSome_iff_ne_none.mp (hwrites.stored k hk)
      · exact ⟨hwrites.frame k hk, lookup_accesses_of_not_mem hk⟩

/-! ### A sample -/

namespace Sample

/-- A network that keeps a new entry for 4095 ledgers and any entry for 6311999 at most, and extends
a lease of which the threshold or less remains. -/
def network : Host where
  initial := 4095
  longest := 6311999
  extendTtl := fun terms now liveUntil =>
    if liveUntil - now ≤ terms.threshold then max liveUntil (now + min terms.extendTo 6311999)
    else liveUntil

theorem lawful_network : network.Lawful where
  kept_or_extended terms now liveUntil := by
    dsimp only [network]
    split_ifs
    · exact .inr rfl
    · exact .inl rfl
  extended terms now liveUntil hbelow := by
    dsimp only [network]
    rw [if_pos (by omega)]

/-- The first call. -/
def found : Call := .initializeEmergencyAdmin emergencyAdmin

/-- The sample contract after its first call, at ledger 100. -/
def founded : Leased :=
  ⟨okOf (exec (env 1 [emergencyAdmin]) (genesis balances) found) (by decide +kernel), 100,
    accessAll network 100 (accesses (genesis balances) found) ∅⟩

/-- Its deployment and its first call. -/
def founding : List (Transition Leased (LeaseLabel escrow)) :=
  [⟨leasedGenesis balances 100, .call (env 1 [emergencyAdmin]) found, founded⟩]

theorem leasedRun_founded : LeasedRun network escrow balances 100 founding founded :=
  Run.single (.call (okOf_eq _))

end Sample

/-- The sample contract keeps its emergency admin for at least thirty days. -/
theorem written_keys_live_founded : ∃ u, Sample.founded.leases.lookup .emergencyAdmin = some u ∧
    100 + min (30 * dayInLedgers) Sample.network.longest ≤ u :=
  (((written_keys_live Sample.lawful_network Sample.leasedRun_founded).2 _
    (List.mem_singleton_self _) _ _ rfl .emergencyAdmin).1 (List.mem_singleton_self _)).lives

/-! ## What is written once lapses -/

/-- The keys that are written once: the governance singletons and the entries of the index. -/
def DataKey.writtenOnce : DataKey → Bool
  | .emergencyAdmin | .defaultResolver | .treasury | .eventIndex _ _ => true
  | _ => false

/-- The index of an organizer has no entry from the count on. -/
def IndexBelowCount (s : State) : Prop :=
  ∀ a n i, s.eventIndex.lookup (a, n) = some i → n.toNat < (getEventsByAdminCount s a).toNat

/-- Every step keeps the index below the count. -/
theorem Step.indexBelowCount {s s' : State} {l : Label own} (h : Step own s l s')
    (hs : IndexBelowCount s) : IndexBelowCount s' := by
  cases h with
  | @call _ env call ok =>
      intro a n i hi
      cases hc : call.creation? with
      | none =>
          obtain ⟨hcount, hindex⟩ := (exec_effect ok).index_eq hc
          rw [getEventsByAdminCount, hcount]
          exact hs a n i (hindex ▸ hi)
      | some c =>
          obtain ⟨-, next, e, -, hnext, -, hcount, hindex⟩ := exec_creation hc ok
          have hsucc := checkedSucc_eq_some hnext
          rw [hindex, KeyTable.lookup_insert_eq_some] at hi
          rw [getEventsByAdminCount, hcount]
          rcases hi with ⟨heq, rfl⟩ | ⟨-, hi⟩
          · cases heq
            rw [AList.lookup_insert, Option.getD_some]
            omega
          · have hbelow := hs a n i hi
            by_cases ha : a = c.admin
            · subst ha
              rw [AList.lookup_insert, Option.getD_some]
              omega
            · rw [AList.lookup_insert_ne ha]
              exact hbelow
  | reverted error => exact hs
  | ledger grows => exact hs

theorem EscrowRun.indexBelowCount {b : Balances} {tr : List (Transition State (Label own))}
    {s : State} (hr : EscrowRun own b tr s) : IndexBelowCount s := by
  refine hr.invariant (I := IndexBelowCount) ?_ fun _ _ _ hI hstep => hstep.indexBelowCount hI
  intro a n i hi
  cases hi

/-- A key that is written once has no value before the call that writes it. -/
theorem exec_writesOnce {env : Env own} {s s' : State} {call : Call} {k : DataKey}
    (h : exec env s call = .ok s') (hs : IndexBelowCount s) (honce : k.writtenOnce = true)
    (hk : k ∈ sets s call) : s.stored k = none := by
  have hone : ∀ {k₁ : DataKey}, k₁.writtenOnce = false → k ∉ [k₁] := by
    intro k₁ h₁ hmem
    rw [List.mem_singleton.mp hmem, h₁] at honce
    cases honce
  have htwo : ∀ {k₁ k₂ : DataKey}, k₁.writtenOnce = false → k₂.writtenOnce = false →
      k ∉ [k₁, k₂] := by
    intro k₁ k₂ h₁ h₂ hmem
    rcases List.mem_cons.mp hmem with rfl | hmem
    · exact hone h₁ (List.mem_singleton_self k)
    · exact hone h₂ hmem
  -- the new index entry stands at the count
  have hcreate : ∀ {admin eventId},
      k ∈ [DataKey.wallet admin, .event eventId,
        .eventIndex admin ((s.eventsCount.lookup admin).getD 0), .eventsCount admin] →
      s.stored k = none := by
    intro admin eventId hmem
    simp only [List.mem_cons, List.not_mem_nil, or_false] at hmem
    rcases hmem with rfl | rfl | rfl | rfl
    · cases honce
    · cases honce
    · cases hi : s.eventIndex.lookup (admin, (s.eventsCount.lookup admin).getD 0) with
      | none =>
          show Option.map StoredValue.eventId _ = none
          rw [hi]
          rfl
      | some i => exact absurd (hs _ _ _ hi) (lt_irrefl _)
    · cases honce
  cases call with
  | createEvent => exact hcreate hk
  | createEventWithDeadline => exact hcreate hk
  | initializeEmergencyAdmin a =>
      obtain rfl := List.mem_singleton.mp hk
      obtain ⟨-, hunset, -⟩ := initializeEmergencyAdmin_eq_ok.mp h
      show Option.map StoredValue.address _ = none
      rw [hunset]
      rfl
  | initializeDefaultResolver caller a =>
      obtain rfl := List.mem_singleton.mp hk
      obtain ⟨-, hunset, -⟩ := initializeDefaultResolver_eq_ok.mp h
      show Option.map StoredValue.address _ = none
      rw [hunset]
      rfl
  | initializeTreasury caller a =>
      obtain rfl := List.mem_singleton.mp hk
      obtain ⟨-, hunset, -⟩ := initializeTreasury_eq_ok.mp h
      show Option.map StoredValue.address _ = none
      rw [hunset]
      rfl
  | expireEvent eventId =>
      have hmem : k ∈ (expireAccesses s eventId).filterMap Access.setKey := hk
      obtain ⟨e, d, w, b, he, -⟩ := expireEvent_eq_ok.mp h
      simp only [expireAccesses, he] at hmem
      exact absurd hmem (htwo rfl rfl)
  | setEventInProgress admin eventId judgingDeadline =>
      have hmem : k ∈ (inProgressAccesses s admin eventId).filterMap Access.setKey := hk
      obtain ⟨-, -, e, fee, he, -, -, -, hfee, -⟩ := setEventInProgress_eq_ok.mp h
      simp only [inProgressAccesses, he, hfee] at hmem
      split_ifs at hmem
      · exact absurd hmem (htwo rfl rfl)
      · exact absurd hmem (hone rfl)
  | setEventCancelled | emergencyWithdraw | releaseCompensation =>
      exact absurd hk (htwo rfl rfl)
  | depositFunds | withdrawFunds | setEventWaitingForStart | releaseReward | resolveDispute
  | setPaused | setAdminPaused | setTokenWhitelistEnabled | setTokenAllowed | setFeeBps =>
      exact absurd hk (hone rfl)
  | _ => exact absurd hk List.not_mem_nil

/-- No step extends a key that is written once and has a lease, but one from outside. -/
theorem LeaseStep.writtenOnce {s s' : Leased} {l : LeaseLabel own} {k : DataKey} {u : ℕ}
    (h : LeaseStep host own s l s') (hstored : LeasesStored s)
    (hcount : IndexBelowCount s.state) (honce : k.writtenOnce = true)
    (hl : l ≠ .renewed k) (hu : s.leases.lookup k = some u) : s'.leases.lookup k = some u := by
  cases h with
  | @call _ env call ok =>
      have hunset : k ∉ sets s.state call := by
        intro hk
        have hsome := hstored k
        rw [hu, exec_writesOnce ok hcount honce hk] at hsome
        cases hsome
      exact (lookup_accesses_of_not_mem hunset).trans hu
  | reverted error => exact hu
  | close later grows => exact hu
  | @renewed k' u' v lease_eq le =>
      have hne : k ≠ k' := fun heq => hl (heq ▸ rfl)
      dsimp only
      rw [AList.lookup_insert_ne hne]
      exact hu

/-- The lease of `k` that ends at `u` begins with this transition: a call that sets the key, under
which nothing was stored and which had no lease, stores a value and gives it this lease, the first
one extended once. -/
structure Begins (host : Host) (k : DataKey) (u : ℕ) (t : Transition Leased (LeaseLabel own)) :
    Prop where
  sets : ∃ env call, t.label = .call env call ∧ k ∈ sets t.pre.state call
  unstored : t.pre.state.stored k = none
  unleased : t.pre.leases.lookup k = none
  stored : t.post.state.stored k ≠ none
  leased : t.post.leases.lookup k = some u
  lease_eq : u = host.extendTtl k.terms t.pre.sequence (t.pre.sequence + host.initial)

/-- A lease ends with the first one or with the full extension from the ledger in which it
begins. -/
theorem Begins.le {k : DataKey} {u : ℕ} {t : Transition Leased (LeaseLabel own)}
    (hhost : host.Lawful) (h : Begins host k u t) :
    u ≤ t.pre.sequence + max host.initial k.terms.extendTo := by
  rw [h.lease_eq, ← Nat.add_max_add_left]
  exact extendTtl_le hhost

/-- A step from a state in which the key has no lease begins one. -/
theorem LeaseStep.begins {s s' : Leased} {l : LeaseLabel own} {k : DataKey} {u : ℕ}
    (h : LeaseStep host own s l s') (hstored : LeasesStored s)
    (hnone : s.leases.lookup k = none) (hu : s'.leases.lookup k = some u) :
    Begins host k u ⟨s, l, s'⟩ := by
  cases h with
  | @call _ env call ok =>
      have hset : k ∈ sets s.state call := by
        by_contra hk
        have hsame := (lookup_accesses_of_not_mem hk).symm.trans hu
        exact absurd (hnone.symm.trans hsame) (Option.some_ne_none u).symm
      have hlease := (lookup_accesses_of_mem hset).symm.trans hu
      rw [hnone, Option.getD_none] at hlease
      have hunstored := hstored k
      rw [hnone] at hunstored
      exact {
        sets := ⟨env, call, rfl, hset⟩
        unstored := Option.not_isSome_iff_eq_none.mp (Bool.eq_false_iff.mp hunstored.symm)
        unleased := hnone
        stored := Option.isSome_iff_ne_none.mp ((exec_writes ok).stored k hset)
        leased := hu
        lease_eq := (Option.some_inj.mp hlease).symm }
  | reverted error => exact absurd (hnone.symm.trans hu) (Option.some_ne_none u).symm
  | close later grows => exact absurd (hnone.symm.trans hu) (Option.some_ne_none u).symm
  | @renewed k' u' v lease_eq le =>
      dsimp only at hu
      by_cases hk : k = k'
      · subst hk
        exact absurd (hnone.symm.trans lease_eq) (Option.some_ne_none u').symm
      · rw [AList.lookup_insert_ne hk] at hu
        exact absurd (hnone.symm.trans hu) (Option.some_ne_none u).symm

/-- The governance singletons and the entries of the event index are never extended by the
contract: along every run in which nobody extends such a key from outside, its lease is the one it
got from the call that stored it, and it lapses by the end of its first extension, however much the
contract is used. -/
theorem written_once_lapses {b : Balances} {n : ℕ}
    {tr : List (Transition Leased (LeaseLabel own))} {s : Leased} (hhost : host.Lawful)
    (hr : LeasedRun host own b n tr s) {k : DataKey} {u : ℕ} (honce : k.writtenOnce = true)
    (houtside : ∀ t ∈ tr, t.label ≠ .renewed k) (hu : s.leases.lookup k = some u) :
    ∃ t ∈ tr, Begins host k u t ∧
      u ≤ t.pre.sequence + max host.initial k.terms.extendTo := by
  suffices hbegins : ∃ t ∈ tr, Begins host k u t by
    obtain ⟨t, ht, hbegin⟩ := hbegins
    exact ⟨t, ht, hbegin, hbegin.le hhost⟩
  refine hr.history (H := fun tr s => (∀ t ∈ tr, t.label ≠ .renewed k) →
    s.leases.lookup k = some u → ∃ t ∈ tr, Begins host k u t) ?_ ?_ houtside hu
  · intro _ hnone
    cases hnone
  · intro tr s l s' hrun ih hstep hout hu'
    have hlast : l ≠ .renewed k := hout _ (List.mem_append_right _ (List.mem_singleton_self _))
    have hstored := LeasedRun.leasesStored hrun
    cases hbefore : s.leases.lookup k with
    | none =>
        exact ⟨_, List.mem_append_right _ (List.mem_singleton_self _),
          hstep.begins hstored hbefore hu'⟩
    | some v =>
        -- the lease was there before, and this step has left it
        obtain ⟨tr', hcontract⟩ := LeasedRun.contract hrun
        have hkept := hstep.writtenOnce hstored hcontract.indexBelowCount honce hlast hbefore
        have hv : s.leases.lookup k = some u := hbefore.trans (hkept.symm.trans hu')
        obtain ⟨t, ht, hbegin⟩ := ih (fun t ht => hout t (List.mem_append_left _ ht)) hv
        exact ⟨t, List.mem_append_left _ ht, hbegin⟩

/-- The emergency admin of the sample contract lapses after 180 days. -/
theorem written_once_lapses_founded :
    Sample.founded.leases.lookup .emergencyAdmin = some (100 + 180 * dayInLedgers) ∧
    ∃ t ∈ Sample.founding, Begins Sample.network .emergencyAdmin (100 + 180 * dayInLedgers) t ∧
        100 + 180 * dayInLedgers
          ≤ t.pre.sequence + max Sample.network.initial governanceTtl.extendTo := by
  have hlease : Sample.founded.leases.lookup .emergencyAdmin = some (100 + 180 * dayInLedgers) := by
    decide +kernel
  refine ⟨hlease, written_once_lapses Sample.lawful_network Sample.leasedRun_founded rfl ?_ hlease⟩
  intro t ht heq
  rw [List.mem_singleton.mp ht] at heq
  cases heq

end Escrow
