/-
# Leases of stored entries

A store in which every entry has a lease: the last moment at which it is live.  A value stored
under a new key gets a first lease, and a program extends the lease of a key on terms.  What an
extension makes of a lease is the host's; the results need two facts about it, which
`Host.Lawful` names.
-/
import Astrea.KeyTable

namespace Lifetime

/-- On which terms a lease is extended: when less than the threshold remains, to the full
extension. -/
structure Terms where
  threshold : ℕ
  extendTo : ℕ
  threshold_pos : 0 < threshold
  threshold_le : threshold ≤ extendTo
  deriving DecidableEq

/-- A store that archives: how long it keeps what nobody extends, how long it keeps anything at
most, and until when an entry is live that is extended at `now` and was live until `liveUntil`. -/
structure Host where
  initial : ℕ
  longest : ℕ
  extendTtl : Terms → (now liveUntil : ℕ) → ℕ

/-- What a host documents of an extension: it leaves a lease alone or makes it last for the full
extension, or for as much of it as the store allows; and below the threshold it does the latter. -/
structure Host.Lawful (host : Host) : Prop where
  kept_or_extended : ∀ terms now liveUntil, host.extendTtl terms now liveUntil = liveUntil ∨
    host.extendTtl terms now liveUntil = max liveUntil (now + min terms.extendTo host.longest)
  extended : ∀ terms now liveUntil, liveUntil < now + terms.threshold →
    host.extendTtl terms now liveUntil = max liveUntil (now + min terms.extendTo host.longest)

section Extend

variable {host : Host} {terms : Terms} {now liveUntil : ℕ}

/-- No extension shortens a lease. -/
theorem le_extendTtl (hhost : host.Lawful) :
    liveUntil ≤ host.extendTtl terms now liveUntil := by
  rcases hhost.kept_or_extended terms now liveUntil with h | h
  · exact le_of_eq h.symm
  · rw [h]
    exact le_max_left _ _

/-- After an extension the threshold remains, or as much of it as the store allows. -/
theorem threshold_le_extendTtl (hhost : host.Lawful) :
    now + min terms.threshold host.longest ≤ host.extendTtl terms now liveUntil := by
  have hterms := terms.threshold_le
  rcases lt_or_ge liveUntil (now + terms.threshold) with hbelow | habove
  · rw [hhost.extended terms now liveUntil hbelow]
    refine le_trans ?_ (le_max_right _ _)
    omega
  · refine le_trans ?_ (le_extendTtl hhost)
    omega

/-- An extension ends with the lease there was or with the full extension. -/
theorem extendTtl_le (hhost : host.Lawful) :
    host.extendTtl terms now liveUntil ≤ max liveUntil (now + terms.extendTo) := by
  rcases hhost.kept_or_extended terms now liveUntil with h | h
  · rw [h]
    exact le_max_left _ _
  · rw [h]
    omega

end Extend

/-! ## Tables of leases -/

/-- What a program does to an entry: it stores a value under the key, or extends the lease. -/
inductive Access (κ : Type) where
  | set (k : κ)
  | extendTtl (k : κ) (terms : Terms)

/-- The key under which a value is stored. -/
def Access.setKey {κ : Type} : Access κ → Option κ
  | .set k => some k
  | .extendTtl _ _ => none

variable {κ : Type} [DecidableEq κ]

/-- The leases after one access at `now`. -/
def access (host : Host) (now : ℕ) (leases : KeyTable κ ℕ) : Access κ → KeyTable κ ℕ
  | .set k => leases.insert k ((leases.lookup k).getD (now + host.initial))
  | .extendTtl k terms =>
      match leases.lookup k with
      | some liveUntil => leases.insert k (host.extendTtl terms now liveUntil)
      | none => leases

/-- The leases after several, one after the other. -/
def accessAll (host : Host) (now : ℕ) (accesses : List (Access κ)) (leases : KeyTable κ ℕ) :
    KeyTable κ ℕ :=
  accesses.foldl (access host now) leases

/-- Each of the keys is set, and then extended on its own terms. -/
def setAndExtend (terms : κ → Terms) (keys : List κ) : List (Access κ) :=
  keys.flatMap fun k => [.set k, .extendTtl k (terms k)]

section Tables

variable {host : Host} {now : ℕ} {leases : KeyTable κ ℕ} {terms : κ → Terms} {keys : List κ} {k : κ}

theorem accessAll_setAndExtend_cons (k' : κ) :
    accessAll host now (setAndExtend terms (k' :: keys)) leases
      = accessAll host now (setAndExtend terms keys)
          (access host now (access host now leases (.set k')) (.extendTtl k' (terms k'))) := rfl

/-- A key that is set and then extended has the lease it had, or a first one, extended once. -/
theorem lookup_set_extend :
    (access host now (access host now leases (.set k)) (.extendTtl k (terms k))).lookup k
      = some (host.extendTtl (terms k) now ((leases.lookup k).getD (now + host.initial))) := by
  simp only [access, AList.lookup_insert]

/-- No other key has another lease. -/
theorem lookup_set_extend_ne {k' : κ} (hne : k ≠ k') :
    (access host now (access host now leases (.set k')) (.extendTtl k' (terms k'))).lookup k
      = leases.lookup k := by
  simp only [access, AList.lookup_insert, AList.lookup_insert_ne hne]

/-- The lease of a key that is none of those stays. -/
theorem lookup_setAndExtend_of_not_mem (h : k ∉ keys) :
    (accessAll host now (setAndExtend terms keys) leases).lookup k = leases.lookup k := by
  induction keys generalizing leases with
  | nil => rfl
  | cons k' keys ih =>
      have hne : k ≠ k' := List.ne_of_not_mem_cons h
      have hkeys : k ∉ keys := List.not_mem_of_not_mem_cons h
      rw [accessAll_setAndExtend_cons, ih hkeys, lookup_set_extend_ne hne]

/-- The lease of a key that is one of those, each set once: it is extended once, from the lease it
had or from a first one. -/
theorem lookup_setAndExtend_of_mem (hnodup : keys.Nodup) (h : k ∈ keys) :
    (accessAll host now (setAndExtend terms keys) leases).lookup k
      = some (host.extendTtl (terms k) now ((leases.lookup k).getD (now + host.initial))) := by
  induction keys generalizing leases with
  | nil => exact absurd h List.not_mem_nil
  | cons k' keys ih =>
      obtain ⟨hnew, hrest⟩ := List.nodup_cons.mp hnodup
      rw [accessAll_setAndExtend_cons]
      rcases List.mem_cons.mp h with rfl | hmem
      · rw [lookup_setAndExtend_of_not_mem hnew, lookup_set_extend]
      · have hne : k ≠ k' := fun heq => hnew (heq ▸ hmem)
        rw [ih hrest hmem, lookup_set_extend_ne hne]

end Tables

end Lifetime
