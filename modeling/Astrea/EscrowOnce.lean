/-
# Calls that succeed once

Creating an event, starting it and releasing its reward each leave the event in a state in
which the same call traps, and nothing leads back.  So of the transactions that carry one
such call at most one ever succeeds, and that it did can be read off the contract at any
later time.
-/
import Astrea.EscrowDisposition

namespace Escrow

variable {own : Address}

/-- The calls this is about. -/
def Call.OneShot : Call → Prop
  | .createEvent .. | .setEventInProgress .. | .releaseReward .. => True
  | _ => False

/-- What a successful call leaves behind: the event exists, has been started with this
judging deadline, or has ended. -/
def Effected (s : State) : Call → Prop
  | .createEvent _ _ _ _ _ i => ∃ e, s.event.lookup i = some e
  | .setEventInProgress _ i judgingDeadline => ∃ e, s.event.lookup i = some e ∧
      (e.state = .inProgress ∨ e.state = .ended) ∧ e.judgingDeadline = some judgingDeadline
  | .releaseReward _ i _ => ∃ e, s.event.lookup i = some e ∧ e.state = .ended
  | _ => True

/-- A started event stays started and keeps its judging deadline and its reward. -/
theorem EventMove.started {env : Env own} {s s' : State} {i : EventId} {call : Call}
    {e : Event} {o : Option Event} (h : EventMove env s s' i call (some e) o)
    (hst : e.state = .inProgress ∨ e.state = .ended) :
    ∃ e', o = some e' ∧ (e'.state = .inProgress ∨ e'.state = .ended) ∧
      e'.judgingDeadline = e.judgingDeadline ∧ e'.reward = e.reward := by
  have hlaunched : ¬ PreLaunch e.state := by
    rcases hst with h | h <;> rw [h] <;> decide
  cases h with
  | untouched h => exact ⟨e, rfl, hst, rfl, rfl⟩
  | expire state_eq => exact absurd state_eq hlaunched
  | wait auth state_eq => exact absurd (.inl state_eq) hlaunched
  | goLive auth state_eq => exact absurd state_eq hlaunched
  | cancel auth state_eq => exact absurd state_eq hlaunched
  | emergency auth resolver_auth pos state_eq => exact absurd state_eq hlaunched
  | compensate auth state_eq =>
      rw [state_eq] at hst
      exact absurd hst (by decide)
  | release => exact ⟨_, rfl, .inr rfl, rfl, rfl⟩
  | resolve => exact ⟨_, rfl, .inr rfl, rfl, rfl⟩

theorem Step.started {s s' : State} {l : Label own} (h : Step own s l s') {i : EventId}
    {e : Event} (he : s.event.lookup i = some e)
    (hst : e.state = .inProgress ∨ e.state = .ended) :
    ∃ e', s'.event.lookup i = some e' ∧ (e'.state = .inProgress ∨ e'.state = .ended) ∧
      e'.judgingDeadline = e.judgingDeadline ∧ e'.reward = e.reward := by
  cases h with
  | call ok =>
      have hmove := (exec_effect ok).eventMove i
      rw [he] at hmove
      exact hmove.started hst
  | reverted error => exact ⟨e, he, hst, rfl, rfl⟩
  | ledger grows => exact ⟨e, he, hst, rfl, rfl⟩

/-- Nothing undoes what a call left behind. -/
theorem Step.effected {s s' : State} {l : Label own} (h : Step own s l s') {call : Call}
    (hc : Effected s call) : Effected s' call := by
  cases call with
  | createEvent _ _ _ _ _ i =>
      obtain ⟨e, he⟩ := hc
      obtain ⟨e', he', -⟩ := h.follows he
      exact ⟨e', he'⟩
  | setEventInProgress _ i judgingDeadline =>
      obtain ⟨e, he, hst, hd⟩ := hc
      obtain ⟨e', he', hst', hd', -⟩ := h.started he hst
      exact ⟨e', he', hst', hd'.trans hd⟩
  | releaseReward _ i _ =>
      obtain ⟨e, he, hst⟩ := hc
      obtain ⟨e', he', hfollows⟩ := h.follows he
      obtain rfl := hfollows.2.2 (.inl hst)
      exact ⟨e', he', hst⟩
  | _ => trivial

section Inversion

variable {env : Env own} {s s' : State} {i : EventId} {o o' : Option Event}

/-- An event is created where there was none. -/
theorem EventMove.of_createEvent {admin judge token : Address} {resolver : Option Address}
    {reward : I128}
    (h : EventMove env s s' i (.createEvent admin judge resolver token reward i) o o') :
    o = none ∧ ∃ e, o' = some e := by
  cases h with
  | untouched h => exact absurd rfl h
  | create => exact ⟨rfl, _, rfl⟩

/-- An event is started before it was. -/
theorem EventMove.of_setEventInProgress {admin : Address} {judgingDeadline : UInt64}
    (h : EventMove env s s' i (.setEventInProgress admin i judgingDeadline) o o') :
    ∃ e, o = some e ∧ PreLaunch e.state ∧
      o' = some { e with state := .inProgress, judgingDeadline := some judgingDeadline } := by
  cases h with
  | untouched h => exact absurd rfl h
  | create call_eq => exact nomatch call_eq
  | goLive auth state_eq => exact ⟨_, rfl, state_eq, rfl⟩

/-- A reward is released while the event runs. -/
theorem EventMove.of_releaseReward {judge : Address} {winners : List Winner}
    (h : EventMove env s s' i (.releaseReward judge i winners) o o') :
    ∃ e, o = some e ∧ e.state = .inProgress ∧ o' = some { e with state := .ended } := by
  cases h with
  | untouched h => exact absurd rfl h
  | create call_eq => exact nomatch call_eq
  | release auth state_eq => exact ⟨_, rfl, state_eq, rfl⟩

/-- A call that succeeds leaves it behind. -/
theorem exec_effected {call : Call} (h : exec env s call = .ok s') : Effected s' call := by
  cases call with
  | createEvent admin judge resolver token reward i =>
      exact ((exec_effect h).eventMove i).of_createEvent.2
  | setEventInProgress admin i judgingDeadline =>
      obtain ⟨e, -, -, he'⟩ := ((exec_effect h).eventMove i).of_setEventInProgress
      exact ⟨_, he', .inl rfl, rfl⟩
  | releaseReward judge i winners =>
      obtain ⟨e, -, -, he'⟩ := ((exec_effect h).eventMove i).of_releaseReward
      exact ⟨_, he', rfl⟩
  | _ => trivial

/-- Where it was left behind, the call traps. -/
theorem not_exec_of_effected {call : Call} (hone : call.OneShot) (hc : Effected s call) :
    exec env s call ≠ .ok s' := by
  intro h
  cases call with
  | createEvent admin judge resolver token reward i =>
      obtain ⟨e, he⟩ := hc
      exact nomatch he.symm.trans ((exec_effect h).eventMove i).of_createEvent.1
  | setEventInProgress admin i judgingDeadline =>
      obtain ⟨e, he, hst, -⟩ := hc
      obtain ⟨e', he', hpre, -⟩ := ((exec_effect h).eventMove i).of_setEventInProgress
      obtain rfl := Option.some_inj.mp (he.symm.trans he')
      rcases hst with hst | hst <;> exact absurd (hst ▸ hpre) (by decide)
  | releaseReward judge i winners =>
      obtain ⟨e, he, hst⟩ := hc
      obtain ⟨e', he', hrunning, -⟩ := ((exec_effect h).eventMove i).of_releaseReward
      obtain rfl := Option.some_inj.mp (he.symm.trans he')
      exact nomatch hst.symm.trans hrunning
  | _ => exact hone

end Inversion

end Escrow
