import Beyond.EventLoop.RunStop

/-!
# Waking up a loop that is asked to stop

A `StopLoop` that finds the loop started also writes a message to the control socket, because the
loop may be waiting in `epoll_pwait`.  The messages are read by `CtrlEventHandler`, which
`WaitEpoll` invokes for one event of the batch that it got.  This module looks into `WaitEpoll`, which
is one step of `RunStop`, and counts the messages.
-/

namespace Beyond
namespace EventLoop
namespace WakeUp

open Errno RunStop

variable {ι : Type*}

/-! ## Who has the loop -/

/-- The `ThreadMain` that goes on. -/
def mover : RunStop.Act ι → Option Nat
  | .thread j _ => some j
  | _ => none

/-- What one step of `RunStop` can do to those who have the loop in hand, and to its state. -/
inductive Change [DecidableEq ι] (b b' : RunStop.State ι) : Option Nat → Prop
  /-- A call goes on, or requests a stop. -/
  | call (i : ι) (pc : CallPc) (hcaller : b'.caller = Function.update b.caller i pc)
      (hthread : b'.thread = b.thread) (hcreated : b'.created = b.created)
      (hlaunches : pc.launches = (b.caller i).launches)
      (hstate : b'.state = b.state ∨ b'.state = .stopRequested) : Change b b' none
  /-- `Run` takes a loop that is stopped. -/
  | take (i : ι) (pc : CallPc) (hcaller : b'.caller = Function.update b.caller i pc)
      (hthread : b'.thread = b.thread) (hcreated : b'.created = b.created)
      (hlaunches : pc.launches = true) (hstopped : b.state = .stopped)
      (hstate : b'.state = .startRequested) : Change b b' none
  /-- `Run` fails. -/
  | drop (i : ι) (pc : CallPc) (hcaller : b'.caller = Function.update b.caller i pc)
      (hthread : b'.thread = b.thread) (hcreated : b'.created = b.created)
      (hbefore : (b.caller i).launches = true) (hlaunches : pc.launches = false)
      (hstate : b'.state = b.state) : Change b b' none
  /-- `Run` starts a `ThreadMain`. -/
  | spawn (i : ι) (pc : CallPc) (hcaller : b'.caller = Function.update b.caller i pc)
      (hthread : b'.thread = Function.update b.thread b.created .entry)
      (hcreated : b'.created = b.created + 1) (hbefore : (b.caller i).launches = true)
      (hlaunches : pc.launches = false) (hstate : b'.state = b.state) : Change b b' none
  /-- A `ThreadMain` goes on. -/
  | move (j : Nat) (pc : ThreadPc) (hcaller : b'.caller = b.caller)
      (hthread : b'.thread = Function.update b.thread j pc) (hcreated : b'.created = b.created)
      (hactive : pc.active = (b.thread j).active) (habsent : b.thread j ≠ .absent)
      (hpolling : pc = .polling → b.state = .started)
      (hstate : b'.state = b.state ∨
        (b.state = .startRequested ∧ b'.state = .started ∧ pc.active = true)) :
      Change b b' (some j)
  /-- A `ThreadMain` writes `STOPPED`. -/
  | release (j : Nat) (pc : ThreadPc) (hcaller : b'.caller = b.caller)
      (hthread : b'.thread = Function.update b.thread j pc) (hcreated : b'.created = b.created)
      (hbefore : (b.thread j).active = true) (hactive : pc.active = false)
      (hstate : b'.state = .stopped) : Change b b' (some j)

theorem change_threadStep [DecidableEq ι] {b b' : RunStop.State ι} {j : Nat} {ret : Int}
    (h : threadStep b j ret = some b') : Change b b' (some j) := by
  cases hpc : b.thread j with
  | absent => simp [threadStep, hpc] at h
  | ended r => simp [threadStep, hpc] at h
  | entry =>
      simp only [threadStep, hpc] at h
      split at h <;> cases h
      · exact .move j _ rfl rfl rfl (by rw [hpc]; rfl) (by simp [hpc]) (fun h => by cases h) (.inl rfl)
      · exact .move j _ rfl rfl rfl (by rw [hpc]; rfl) (by simp [hpc]) (fun h => by cases h) (.inl rfl)
  | prepare =>
      simp only [threadStep, hpc] at h
      split at h <;> cases h
      · exact .move j _ rfl rfl rfl (by rw [hpc]; rfl) (by simp [hpc]) (fun h => by cases h) (.inl rfl)
      · exact .move j _ rfl rfl rfl (by rw [hpc]; rfl) (by simp [hpc]) (fun h => by cases h) (.inl rfl)
  | abort r =>
      simp only [threadStep, hpc] at h
      cases h
      exact .release j _ rfl rfl rfl (by rw [hpc]; rfl) rfl rfl
  | starting =>
      simp only [threadStep, hpc] at h
      split at h
      · rename_i hstate
        cases h
        exact .move j _ rfl rfl rfl (by rw [hpc]; rfl) (by simp [hpc]) (fun h => by cases h)
          (.inr ⟨hstate, rfl, rfl⟩)
      · cases h
        exact .move j _ rfl rfl rfl (by rw [hpc]; rfl) (by simp [hpc]) (fun h => by cases h) (.inl rfl)
  | looping =>
      simp only [threadStep, hpc] at h
      split at h
      · rename_i htest
        cases h
        exact .move j _ rfl rfl rfl (by rw [hpc]; rfl) (by simp [hpc]) (fun _ => htest.1) (.inl rfl)
      · cases h
        exact .move j _ rfl rfl rfl (by rw [hpc]; rfl) (by simp [hpc]) (fun h => by cases h) (.inl rfl)
  | polling =>
      simp only [threadStep, hpc] at h
      split at h <;> cases h
      · exact .move j _ rfl rfl rfl (by rw [hpc]; rfl) (by simp [hpc]) (fun h => by cases h) (.inl rfl)
      · exact .move j _ rfl rfl rfl (by rw [hpc]; rfl) (by simp [hpc]) (fun h => by cases h) (.inl rfl)
  | finishing r =>
      simp only [threadStep, hpc] at h
      cases h
      exact .release j _ rfl rfl rfl (by rw [hpc]; rfl) rfl rfl
  | cleanup r =>
      simp only [threadStep, hpc] at h
      cases h
      exact .move j _ rfl rfl rfl (by rw [hpc]; rfl) (by simp [hpc]) (fun h => by cases h) (.inl rfl)

theorem leaves_polling {b b' : RunStop.State ι} {j : Nat} {ret : Int}
    (h : threadStep b j ret = some b') (hpc : b.thread j = .polling) : b'.thread j ≠ .polling := by
  simp only [threadStep, hpc] at h
  split at h <;> cases h <;> simp [RunStop.State.setThread]

/-- One party at most has the loop in hand.  A `ThreadMain` that has it is the last one, and only one
of them sets `STARTED`. -/
structure Held (b : RunStop.State ι) : Prop where
  owner : ∃ o : Option (ι ⊕ Nat), (∀ p, Active b.caller b.thread p ↔ o = some p) ∧
    (b.state = .stopped → o = none)
  fresh : ∀ j, b.created ≤ j → b.thread j = .absent
  last : ∀ j, (b.thread j).active = true → b.created = j + 1
  started : b.state = .started → ∃ j, (b.thread j).active = true

/-- A `ThreadMain` keeps its part of the invariant when another one, or itself, goes on. -/
theorem active_update {thread : Nat → ThreadPc} {j k : Nat} {pc : ThreadPc}
    (hpc : pc.active = (thread j).active) :
    (Function.update thread j pc k).active = (thread k).active := by
  by_cases hk : k = j
  · subst hk
    rw [Function.update_self, hpc]
  · rw [Function.update_of_ne hk]

theorem fresh_update {b : RunStop.State ι} (hb : Held b) {j : Nat} {pc : ThreadPc}
    (hj : b.thread j ≠ .absent) (k : Nat) (hk : b.created ≤ k) :
    Function.update b.thread j pc k = .absent := by
  have hkj : k ≠ j := fun heq => hj (heq ▸ hb.fresh k hk)
  rw [Function.update_of_ne hkj]
  exact hb.fresh k hk

theorem not_active_of_stopped {b : RunStop.State ι} (hb : Held b) (hstate : b.state = .stopped)
    (j : Nat) : (b.thread j).active = false := by
  rcases hb.owner with ⟨o, howner, hstopped⟩
  have ho := hstopped hstate
  subst ho
  rw [← Bool.not_eq_true]
  intro hactive
  cases (howner (.inr j)).1 hactive

/-- Beside a call that launches `ThreadMain` there is no active one. -/
theorem not_active_of_launches {b : RunStop.State ι} (hb : Held b) {i : ι}
    (hi : (b.caller i).launches = true) (j : Nat) : (b.thread j).active = false := by
  rcases hb.owner with ⟨o, howner, -⟩
  have ho := (howner (.inl i)).1 hi
  subst ho
  rw [← Bool.not_eq_true]
  intro hactive
  cases (howner (.inr j)).1 hactive

/-- The `ThreadMain` is asked to stop, unless it has stopped already. -/
def Asked (b : RunStop.State ι) (j : Nat) : Prop :=
  j < b.created ∧ ((b.thread j).active = true → b.state = .stopRequested)

section Owner

variable [DecidableEq ι]

/-- A call that leaves every caller where it is. -/
theorem change_stay {b b' : RunStop.State ι} (i : ι) (hcaller : b'.caller = b.caller)
    (hthread : b'.thread = b.thread) (hcreated : b'.created = b.created)
    (hstate : b'.state = b.state ∨ b'.state = .stopRequested) : Change b b' none :=
  .call i (b.caller i) (by rw [hcaller, Function.update_eq_self]) hthread hcreated rfl hstate

theorem change_callStep {enableThread : Bool} {b b' : RunStop.State ι} {i : ι} {ret : Int}
    (h : callStep enableThread b i ret = some b') : Change b b' none := by
  cases hpc : b.caller i with
  | idle => simp [callStep, hpc] at h
  | started epollWaitSize loopCount timeoutInMS =>
      simp only [callStep, hpc] at h
      cases h
      exact .call i _ rfl rfl rfl (by rw [hpc]; rfl) (.inl rfl)
  | launching =>
      simp only [callStep, hpc] at h
      split at h
      · cases h
        exact .spawn i _ rfl rfl rfl (by rw [hpc]; rfl) rfl rfl
      · split at h <;> cases h
        · exact .drop i _ rfl rfl rfl (by rw [hpc]; rfl) rfl rfl
        · exact .call i _ rfl rfl rfl (by rw [hpc]; rfl) (.inl rfl)
  | creating =>
      simp only [callStep, hpc] at h
      split at h <;> cases h
      · exact .drop i _ rfl rfl rfl (by rw [hpc]; rfl) rfl rfl
      · exact .spawn i _ rfl rfl rfl (by rw [hpc]; rfl) rfl rfl
  | destroyingAttr status =>
      simp only [callStep, hpc] at h
      cases h
      exact .call i _ rfl rfl rfl (by rw [hpc]; rfl) (.inl rfl)
  | inline j =>
      simp only [callStep, hpc] at h
      split at h
      · cases h
        exact .call i _ rfl rfl rfl (by rw [hpc]; rfl) (.inl rfl)
      · cases h
  | writing before =>
      simp only [callStep, hpc] at h
      cases h
      exact .call i _ rfl rfl rfl (by rw [hpc]; rfl) (.inl rfl)

theorem change_step {enableThread : Bool} {b b' : RunStop.State ι} {a : RunStop.Act ι}
    (h : RunStop.step enableThread b a = some b') : Change b b' (mover a) := by
  cases a with
  | run i epollWaitSize loopCount timeoutInMS =>
      simp only [RunStop.step, runCall] at h
      split at h
      · cases h
      · split at h
        · cases h
          exact change_stay i rfl rfl rfl (.inl rfl)
        · rename_i hstate
          cases h
          exact .take i _ rfl rfl rfl rfl (not_not.1 hstate) rfl
  | stop i =>
      simp only [RunStop.step, stopCall] at h
      split at h
      · cases h
      · rename_i hidle
        split at h
        · cases h
          exact change_stay i rfl rfl rfl (.inl rfl)
        · split at h
          · cases h
            exact .call i _ rfl rfl rfl (by rw [not_not.1 hidle]; rfl) (.inr rfl)
          · cases h
            exact change_stay i rfl rfl rfl (.inr rfl)
  | call i ret => exact change_callStep h
  | thread j ret => exact change_threadStep h

/-- A `Run` that fails leaves the loop to nobody. -/
theorem active_drop {caller : ι → CallPc} {thread : Nat → ThreadPc} {i : ι} {pc : CallPc}
    (h : ∀ p, Active caller thread p ↔ some (.inl i) = some p) (hpc : pc.launches = false)
    (p : ι ⊕ Nat) : Active (Function.update caller i pc) thread p ↔ none = some p := by
  cases p with
  | inl k =>
      by_cases hk : k = i
      · subst hk
        simp [Active, hpc]
      · have hk' : ¬ Active caller thread (.inl k) := by
          rw [h]
          simpa using fun heq => hk heq.symm
        simpa [Active, Function.update_of_ne hk] using hk'
  | inr j =>
      have hj : ¬ Active caller thread (.inr j) := by
        rw [h]
        simp
      exact iff_of_false hj (by simp)

section Held

variable {b b' : RunStop.State ι} {who : Option Nat}

theorem owner_step (hb : Held b) (h : Change b b' who) :
    ∃ o : Option (ι ⊕ Nat), (∀ p, Active b'.caller b'.thread p ↔ o = some p) ∧
      (b'.state = .stopped → o = none) := by
  rcases hb.owner with ⟨o, howner, hstopped⟩
  cases h with
  | call i pc hcaller hthread _ hlaunches hstate =>
      rw [hcaller, hthread]
      refine ⟨o, active_setCaller howner hlaunches, fun h => ?_⟩
      rcases hstate with hsame | hstop
      · exact hstopped (hsame.symm.trans h)
      · rw [hstop] at h
        cases h
  | take i pc hcaller hthread _ hlaunches hstop hstate =>
      -- A loop that is stopped has no owner.
      have ho := hstopped hstop
      subst ho
      rw [hcaller, hthread]
      exact ⟨some (.inl i), active_take howner hlaunches, by simp [hstate]⟩
  | drop i pc hcaller hthread _ hbefore hlaunches _ =>
      have ho := (howner (.inl i)).1 hbefore
      subst ho
      rw [hcaller, hthread]
      exact ⟨none, active_drop howner hlaunches, fun _ => rfl⟩
  | spawn i pc hcaller hthread _ hbefore hlaunches hstate =>
      rw [hcaller, hthread]
      refine ⟨some (.inr b.created), active_handOver howner hbefore hlaunches rfl, fun h => ?_⟩
      have ho := (howner (.inl i)).1 hbefore
      rw [hstopped (hstate.symm.trans h)] at ho
      cases ho
  | move j pc hcaller hthread _ hactive _ _ hstate =>
      rw [hcaller, hthread]
      refine ⟨o, active_setThread howner hactive, fun h => ?_⟩
      rcases hstate with hsame | ⟨-, hstarted, -⟩
      · exact hstopped (hsame.symm.trans h)
      · rw [hstarted] at h
        cases h
  | release j pc hcaller hthread _ hbefore hactive _ =>
      rw [hcaller, hthread]
      exact ⟨none, active_release howner hbefore hactive, fun _ => rfl⟩

theorem fresh_step (hb : Held b) (h : Change b b' who) (k : Nat) (hk : b'.created ≤ k) :
    b'.thread k = .absent := by
  cases h with
  | call i pc _ hthread hcreated _ _ => exact hthread ▸ hb.fresh k (hcreated ▸ hk)
  | take i pc _ hthread hcreated _ _ _ => exact hthread ▸ hb.fresh k (hcreated ▸ hk)
  | drop i pc _ hthread hcreated _ _ _ => exact hthread ▸ hb.fresh k (hcreated ▸ hk)
  | spawn i pc _ hthread hcreated _ _ _ =>
      rw [hcreated] at hk
      rw [hthread, Function.update_of_ne (Nat.ne_of_gt hk)]
      exact hb.fresh k (Nat.le_of_succ_le hk)
  | move j pc _ hthread hcreated _ habsent _ _ =>
      rw [hthread]
      exact fresh_update hb habsent k (hcreated ▸ hk)
  | release j pc _ hthread hcreated hbefore _ _ =>
      rw [hthread]
      exact fresh_update hb (fun h => by simp [h, ThreadPc.active] at hbefore) k (hcreated ▸ hk)

theorem last_step (hb : Held b) (h : Change b b' who) (k : Nat)
    (hk : (b'.thread k).active = true) : b'.created = k + 1 := by
  cases h with
  | call i pc _ hthread hcreated _ _ => exact hcreated.trans (hb.last k (hthread ▸ hk))
  | take i pc _ hthread hcreated _ _ _ => exact hcreated.trans (hb.last k (hthread ▸ hk))
  | drop i pc _ hthread hcreated _ _ _ => exact hcreated.trans (hb.last k (hthread ▸ hk))
  | spawn i pc _ hthread hcreated hbefore _ _ =>
      -- The caller had the loop, so the new `ThreadMain` is the only active one.
      by_cases hkb : k = b.created
      · rw [hcreated, hkb]
      · rw [hthread, Function.update_of_ne hkb, not_active_of_launches hb hbefore] at hk
        cases hk
  | move j pc _ hthread hcreated hactive _ _ _ =>
      rw [hthread, active_update hactive] at hk
      exact hcreated.trans (hb.last k hk)
  | release j pc _ hthread hcreated hbefore hactive _ =>
      rw [hthread] at hk
      by_cases hkj : k = j
      · subst hkj
        exact hcreated.trans (hb.last k hbefore)
      · rw [Function.update_of_ne hkj] at hk
        exact hcreated.trans (hb.last k hk)

theorem started_step (hb : Held b) (h : Change b b' who) (hstarted : b'.state = .started) :
    ∃ k, (b'.thread k).active = true := by
  cases h with
  | call i pc _ hthread _ _ hstate =>
      rw [hthread]
      rcases hstate with hsame | hstop
      · exact hb.started (hsame.symm.trans hstarted)
      · rw [hstop] at hstarted
        cases hstarted
  | take i pc _ _ _ _ _ hstate =>
      rw [hstate] at hstarted
      cases hstarted
  | drop i pc _ hthread _ _ _ hstate =>
      rw [hthread]
      exact hb.started (hstate.symm.trans hstarted)
  | spawn i pc _ hthread _ _ _ _ =>
      exact ⟨b.created, by rw [hthread, Function.update_self]; rfl⟩
  | move j pc _ hthread _ hactive _ _ hstate =>
      rcases hstate with hsame | ⟨-, -, hpc⟩
      · rcases hb.started (hsame.symm.trans hstarted) with ⟨k, hk⟩
        exact ⟨k, by rw [hthread, active_update hactive]; exact hk⟩
      · exact ⟨j, by rw [hthread, Function.update_self]; exact hpc⟩
  | release j pc _ _ _ _ _ hstate =>
      rw [hstate] at hstarted
      cases hstarted

theorem held_step (hb : Held b) (h : Change b b' who) : Held b' :=
  ⟨owner_step hb h, fresh_step hb h, last_step hb h, started_step hb h⟩

end Held

/-- A `ThreadMain` of before that is still active has been, and a stop that was requested of it
still is. -/
theorem request_kept {b b' : RunStop.State ι} {who : Option Nat} (hb : Held b)
    (h : Change b b' who) {j : Nat} (hj : j < b.created) (hactive : (b'.thread j).active = true) :
    (b.thread j).active = true ∧ (b.state = .stopRequested → b'.state = .stopRequested) := by
  cases h with
  | call i pc _ hthread _ _ hstate =>
      rw [hthread] at hactive
      exact ⟨hactive, fun h => hstate.elim (·.trans h) id⟩
  | take i pc _ hthread _ _ hstopped _ =>
      rw [hthread, not_active_of_stopped hb hstopped] at hactive
      cases hactive
  | drop i pc _ hthread _ _ _ hstate =>
      rw [hthread] at hactive
      exact ⟨hactive, fun h => hstate.trans h⟩
  | spawn i pc _ hthread _ hbefore _ _ =>
      rw [hthread, Function.update_of_ne (Nat.ne_of_lt hj), not_active_of_launches hb hbefore]
        at hactive
      cases hactive
  | move k pc _ hthread _ hpc _ _ hstate =>
      rw [hthread, active_update hpc] at hactive
      refine ⟨hactive, fun h => ?_⟩
      rcases hstate with hsame | ⟨hstart, -, -⟩
      · exact hsame.trans h
      · rw [hstart] at h
        cases h
  | release k pc _ hthread _ hbefore hpc _ =>
      rw [hthread] at hactive
      have hk := hb.last k hbefore
      by_cases hjk : j = k
      · subst hjk
        rw [Function.update_self, hpc] at hactive
        cases hactive
      · rw [Function.update_of_ne hjk] at hactive
        exact absurd (Nat.succ.inj ((hb.last j hactive).symm.trans hk)) hjk

/-- A `ThreadMain` gets to `WaitEpoll` only by itself, behind a test that found the loop started. -/
theorem started_of_polls {b b' : RunStop.State ι} {who : Option Nat} (h : Change b b' who) {j : Nat}
    (hbefore : b.thread j ≠ .polling) (hafter : b'.thread j = .polling) :
    who = some j ∧ b.state = .started := by
  cases h with
  | call i pc _ hthread _ _ _ => exact absurd (hthread ▸ hafter) hbefore
  | take i pc _ hthread _ _ _ _ => exact absurd (hthread ▸ hafter) hbefore
  | drop i pc _ hthread _ _ _ _ => exact absurd (hthread ▸ hafter) hbefore
  | spawn i pc _ hthread _ _ _ _ =>
      rw [hthread] at hafter
      by_cases hj : j = b.created
      · subst hj
        simp at hafter
      · rw [Function.update_of_ne hj] at hafter
        exact absurd hafter hbefore
  | move k pc _ hthread _ _ _ hpolling _ =>
      rw [hthread] at hafter
      by_cases hj : j = k
      · subst hj
        rw [Function.update_self] at hafter
        exact ⟨rfl, hpolling hafter⟩
      · rw [Function.update_of_ne hj] at hafter
        exact absurd hafter hbefore
  | release k pc _ hthread _ _ hpc _ =>
      rw [hthread] at hafter
      by_cases hj : j = k
      · subst hj
        rw [Function.update_self] at hafter
        rw [hafter] at hpc
        cases hpc
      · rw [Function.update_of_ne hj] at hafter
        exact absurd hafter hbefore

theorem created_le {b b' : RunStop.State ι} {who : Option Nat} (h : Change b b' who) :
    b.created ≤ b'.created := by
  cases h with
  | call i pc _ _ hcreated _ _ => exact Nat.le_of_eq hcreated.symm
  | take i pc _ _ hcreated _ _ _ => exact Nat.le_of_eq hcreated.symm
  | drop i pc _ _ hcreated _ _ _ => exact Nat.le_of_eq hcreated.symm
  | spawn i pc _ _ hcreated _ _ _ => exact hcreated ▸ Nat.le_succ _
  | move j pc _ _ hcreated _ _ _ _ => exact Nat.le_of_eq hcreated.symm
  | release j pc _ _ hcreated _ _ _ => exact Nat.le_of_eq hcreated.symm

theorem asked_step {b b' : RunStop.State ι} {who : Option Nat} (hb : Held b)
    (h : Change b b' who) {j : Nat} (hj : Asked b j) : Asked b' j := by
  refine ⟨Nat.lt_of_lt_of_le hj.1 (created_le h), fun hactive => ?_⟩
  have hkept := request_kept hb h hj.1 hactive
  exact hkept.2 (hj.2 hkept.1)

theorem callStep_caller {enableThread : Bool} {b b' : RunStop.State ι} {i : ι} {ret : Int}
    (h : callStep enableThread b i ret = some b') :
    ∃ pc, b'.caller = Function.update b.caller i pc ∧ ∀ before, pc ≠ .writing before := by
  cases hpc : b.caller i with
  | idle => simp [callStep, hpc] at h
  | started epollWaitSize loopCount timeoutInMS =>
      simp only [callStep, hpc] at h
      cases h
      exact ⟨_, rfl, fun _ => by simp⟩
  | launching =>
      simp only [callStep, hpc] at h
      split at h
      · cases h
        exact ⟨_, rfl, fun _ => by simp⟩
      · split at h <;> cases h <;> exact ⟨_, rfl, fun _ => by simp⟩
  | creating =>
      simp only [callStep, hpc] at h
      split at h <;> cases h <;> exact ⟨_, rfl, fun _ => by simp⟩
  | destroyingAttr status =>
      simp only [callStep, hpc] at h
      cases h
      exact ⟨_, rfl, fun _ => by simp⟩
  | inline j =>
      simp only [callStep, hpc] at h
      split at h
      · cases h
        exact ⟨_, rfl, fun _ => by simp⟩
      · cases h
  | writing before =>
      simp only [callStep, hpc] at h
      cases h
      exact ⟨_, rfl, fun _ => by simp⟩

/-- Only a `StopLoop` that finds the loop started gets to its write. -/
theorem writing_of_step {enableThread : Bool} {b b' : RunStop.State ι} {a : RunStop.Act ι}
    (h : RunStop.step enableThread b a = some b') {i : ι} {before : LoopState}
    (hw : b'.caller i = .writing before) :
    (b.caller i = .writing before ∧ a ≠ .stop i) ∨
      (a = .stop i ∧ b.state = .started ∧ b'.state = .stopRequested ∧ b'.created = b.created) := by
  cases a with
  | run k epollWaitSize loopCount timeoutInMS =>
      refine .inl ⟨?_, by simp⟩
      simp only [RunStop.step, runCall] at h
      split at h
      · cases h
      · split at h <;> cases h
        · exact hw
        · by_cases hk : i = k
          · subst hk
            simp [RunStop.State.setCaller] at hw
          · simpa [RunStop.State.setCaller, Function.update_of_ne hk] using hw
  | stop k =>
      simp only [RunStop.step, stopCall] at h
      split at h
      · cases h
      · rename_i hidle
        have hne : b.caller i = .writing before → (RunStop.Act.stop k : RunStop.Act ι) ≠ .stop i := by
          intro hi heq
          cases heq
          exact hidle (by simp [hi])
        split at h
        · cases h
          exact .inl ⟨hw, hne hw⟩
        · split at h
          · rename_i hstarted
            cases h
            by_cases hk : i = k
            · subst hk
              exact .inr ⟨rfl, hstarted, rfl, rfl⟩
            · have hi : b.caller i = .writing before := by
                simpa [RunStop.State.setCaller, Function.update_of_ne hk] using hw
              exact .inl ⟨hi, hne hi⟩
          · cases h
            exact .inl ⟨hw, hne hw⟩
  | call k ret =>
      refine .inl ⟨?_, by simp⟩
      rcases callStep_caller h with ⟨pc, hcaller, hpc⟩
      rw [hcaller] at hw
      by_cases hk : i = k
      · subst hk
        rw [Function.update_self] at hw
        exact absurd hw (hpc before)
      · rwa [Function.update_of_ne hk] at hw
  | thread k ret =>
      refine .inl ⟨?_, by simp⟩
      have hchange : Change b b' (some k) := change_threadStep h
      cases hchange with
      | move _ pc hcaller _ _ _ _ _ _ => exact hcaller ▸ hw
      | release _ pc hcaller _ _ _ _ _ => exact hcaller ▸ hw

end Owner

/-! ## The control socket -/

/-- Inside `WaitEpoll`. -/
inductive Wait
  /-- In `epoll_pwait`, or right before it. -/
  | blocked
  /-- The events that are still to be handled; `true` stands for the one of the control socket. -/
  | batch (events : List Bool)
  deriving DecidableEq, Repr

structure State (ι : Type*) where
  base : RunStop.State ι
  /-- The messages in the control socket. -/
  unread : Nat
  wait : Nat → Wait
  /-- The `ThreadMain` that had set `STARTED` when the call moved the state to `STOP_REQUESTED`. -/
  target : ι → Nat
  /-- A call that did so for this `ThreadMain` has finished its write. -/
  woken : Nat → Bool

inductive Act (ι : Type*)
  | base (a : RunStop.Act ι)
  /-- `epoll_pwait` returns: nothing when it failed, timed out or was interrupted. -/
  | epoll (j : Nat) (ready : List Bool)
  /-- `WaitEpoll` handles the next event. -/
  | handle (j : Nat)

namespace State

/-- The messages that earlier cycles left behind are still there. -/
def start (stale : Nat) : State ι :=
  { base := .start
    unread := stale
    wait := fun _ => .blocked
    target := fun _ => 0
    woken := fun _ => false }

/-- `WaitEpoll` returns behind the last event of its batch. -/
def returned (s : State ι) : RunStop.Act ι → Bool
  | .thread j _ => s.base.thread j ≠ .polling || s.wait j == .batch []
  | _ => true

/-- What a step of the loop means for the control socket. -/
def follow [DecidableEq ι] (s : State ι) (a : RunStop.Act ι) (b' : RunStop.State ι) : State ι :=
  match a with
  | .thread j _ =>
      if b'.thread j = .polling then
        { s with base := b', wait := Function.update s.wait j .blocked }
      else { s with base := b' }
  | .stop i =>
      if s.base.state = .started then
        { s with base := b', target := Function.update s.target i (s.base.created - 1) }
      else { s with base := b' }
  | .call i ret =>
      match s.base.caller i with
      | .writing _ =>
          if ret = 0 then
            { s with
              base := b'
              unread := s.unread + 1
              woken := Function.update s.woken (s.target i) true }
          else { s with base := b' }
      | _ => { s with base := b' }
  | .run _ _ _ _ => { s with base := b' }

end State

/-- The control socket is in a batch once at most, and only when it is readable. -/
def polled (unread : Nat) (ready : List Bool) : Prop :=
  ready.count true ≤ 1 ∧ (true ∈ ready → 0 < unread)

instance (unread : Nat) (ready : List Bool) : Decidable (polled unread ready) :=
  inferInstanceAs (Decidable (_ ∧ _))

def epollStep (s : State ι) (j : Nat) (ready : List Bool) : Option (State ι) :=
  if s.base.thread j = .polling ∧ s.wait j = .blocked ∧
      (ready.length : Int) ≤ s.base.epollWaitSize ∧ polled s.unread ready then
    some { s with wait := Function.update s.wait j (.batch ready) }
  else none

def handleStep (s : State ι) (j : Nat) : Option (State ι) :=
  if s.base.thread j = .polling then
    match s.wait j with
    | .batch (false :: rest) => some { s with wait := Function.update s.wait j (.batch rest) }
    | .batch (true :: rest) =>
        -- `CtrlEventHandler` reads one message, and blocks when there is none.
        if 0 < s.unread then
          some { s with unread := s.unread - 1, wait := Function.update s.wait j (.batch rest) }
        else none
    | _ => none
  else none

def step [DecidableEq ι] (enableThread : Bool) (s : State ι) : Act ι → Option (State ι)
  | .base a =>
      if s.returned a then (RunStop.step enableThread s.base a).map (s.follow a) else none
  | .epoll j ready => epollStep s j ready
  | .handle j => handleStep s j

/-! ## The property -/

/-- The `ThreadMain` is not in `epoll_pwait`, and nothing that can block is left in its batch. -/
def TestsAgain (s : State ι) (j : Nat) : Prop :=
  s.base.thread j = .polling → ∃ events, s.wait j = .batch events ∧ true ∉ events

/-- A `ThreadMain` that was asked to stop, and that has not set `STOPPED` yet, finds a message or
tests the state before it blocks. -/
def NoLostWakeUp (s : State ι) : Prop :=
  ∀ j, s.woken j = true → (s.base.thread j).active = true → 0 < s.unread ∨ TestsAgain s j

/-! ## The invariant -/

structure Inv (s : State ι) : Prop where
  held : Held s.base
  aimed : ∀ i before, s.base.caller i = .writing before → Asked s.base (s.target i)
  asked : ∀ j, s.woken j = true → Asked s.base j
  /-- The message that woke a `ThreadMain` up is not read before it is out of `epoll_pwait`. -/
  readable : ∀ j, s.woken j = true → s.base.thread j = .polling → s.wait j = .blocked → 0 < s.unread
  polled : ∀ j events, s.base.thread j = .polling → s.wait j = .batch events →
    polled s.unread events

theorem inv_start (stale : Nat) : Inv (State.start stale : State ι) := by
  refine ⟨⟨⟨none, ?_, fun _ => rfl⟩, fun _ _ => rfl, ?_, ?_⟩, ?_, ?_, ?_, ?_⟩
  · intro p
    cases p with
    | inl i => simp [Active, State.start, RunStop.State.start, CallPc.launches]
    | inr j => simp [Active, State.start, RunStop.State.start, ThreadPc.active]
  · intro j hj
    cases hj
  · intro h
    cases h
  · intro i before h
    cases h
  · intro j h
    cases h
  · intro j h
    cases h
  · intro j events h
    cases h

theorem Inv.noLostWakeUp {s : State ι} (hs : Inv s) : NoLostWakeUp s := by
  intro j hwoken _
  by_cases hunread : 0 < s.unread
  · exact .inl hunread
  · refine .inr fun hpolling => ?_
    cases hwait : s.wait j with
    | blocked => exact absurd (hs.readable j hwoken hpolling hwait) hunread
    | batch events =>
        exact ⟨events, rfl, fun hmem => hunread ((hs.polled j events hpolling hwait).2 hmem)⟩

/-- Two `ThreadMain`s are not in `WaitEpoll` at once. -/
theorem polling_unique {b : RunStop.State ι} (hb : Held b) {j k : Nat}
    (hj : b.thread j = .polling) (hk : b.thread k = .polling) : j = k := by
  have hj' := hb.last j (by rw [hj]; rfl)
  have hk' := hb.last k (by rw [hk]; rfl)
  exact Nat.succ.inj (hj'.symm.trans hk')

theorem polled_mono {unread unread' : Nat} {events : List Bool} (h : polled unread events)
    (hle : unread ≤ unread') : polled unread' events :=
  ⟨h.1, fun hmem => Nat.lt_of_lt_of_le (h.2 hmem) hle⟩

/-! ## Steps -/

/-- A `ThreadMain` moves on inside `WaitEpoll`, and reads from the control socket at most. -/
theorem inv_wait {s : State ι} (hs : Inv s) {j : Nat} (hj : s.base.thread j = .polling)
    {unread : Nat} {events : List Bool} (hpolled : polled unread events) :
    Inv { s with unread := unread, wait := Function.update s.wait j (.batch events) } := by
  refine ⟨hs.held, hs.aimed, hs.asked, ?_, ?_⟩
  · intro k _ hk hblocked
    have hkj := polling_unique hs.held hk hj
    subst hkj
    simp at hblocked
  · intro k events' hk hwait
    have hkj := polling_unique hs.held hk hj
    subst hkj
    simp only [Function.update_self, Wait.batch.injEq] at hwait
    exact hwait ▸ hpolled

theorem inv_epollStep {s s' : State ι} {j : Nat} {ready : List Bool} (hs : Inv s)
    (h : epollStep s j ready = some s') : Inv s' := by
  unfold epollStep at h
  split at h
  · rename_i hready
    cases h
    exact inv_wait hs hready.1 hready.2.2.2
  · cases h

/-- A batch has one event of the control socket at most. -/
theorem polled_read {unread : Nat} {rest : List Bool} (h : polled unread (true :: rest)) :
    polled (unread - 1) rest := by
  have hcount : rest.count true = 0 := by
    have hle := h.1
    rw [List.count_cons_self] at hle
    exact Nat.le_zero.1 (Nat.le_of_succ_le_succ hle)
  refine ⟨by rw [hcount]; exact Nat.zero_le 1, fun hmem => ?_⟩
  exact absurd hmem (List.count_eq_zero.1 hcount)

theorem polled_skip {unread : Nat} {rest : List Bool} (h : polled unread (false :: rest)) :
    polled unread rest := by
  refine ⟨?_, fun hmem => h.2 (List.mem_cons_of_mem _ hmem)⟩
  have hle := h.1
  rwa [List.count_cons_of_ne (by decide)] at hle

theorem inv_handleStep {s s' : State ι} {j : Nat} (hs : Inv s) (h : handleStep s j = some s') :
    Inv s' := by
  unfold handleStep at h
  split at h
  · rename_i hj
    split at h
    · rename_i rest hwait
      cases h
      exact inv_wait hs hj (polled_skip (hs.polled j _ hj hwait))
    · rename_i rest hwait
      split at h
      · cases h
        exact inv_wait hs hj (polled_read (hs.polled j _ hj hwait))
      · cases h
    · cases h
  · cases h

section Follow

variable [DecidableEq ι] (s : State ι) (a : RunStop.Act ι) (b' : RunStop.State ι)

@[simp] theorem follow_base : (s.follow a b').base = b' := by
  unfold State.follow
  repeat' split
  all_goals rfl

theorem le_follow_unread : s.unread ≤ (s.follow a b').unread := by
  unfold State.follow
  repeat' split
  all_goals first | exact Nat.le_refl _ | exact Nat.le_succ _

theorem follow_wait (j : Nat) :
    ((s.follow a b').wait j = s.wait j ∧ (mover a = some j → b'.thread j ≠ .polling)) ∨
      ((s.follow a b').wait j = .blocked ∧ mover a = some j ∧ b'.thread j = .polling) := by
  cases a with
  | thread k ret =>
      by_cases hk : b'.thread k = .polling
      · by_cases hj : j = k
        · subst hj
          exact .inr ⟨by simp [State.follow, hk], rfl, hk⟩
        · refine .inl ⟨by simp [State.follow, hk, Function.update_of_ne hj], fun h => ?_⟩
          cases h
          exact absurd rfl hj
      · refine .inl ⟨by simp [State.follow, hk], fun h => ?_⟩
        cases h
        exact hk
  | stop i =>
      refine .inl ⟨?_, nofun⟩
      by_cases hstarted : s.base.state = .started <;> simp [State.follow, hstarted]
  | call i ret =>
      refine .inl ⟨?_, nofun⟩
      unfold State.follow
      split
      · rename_i h
        cases h
      · rename_i h
        cases h
      · repeat' split
        all_goals rfl
      · rfl
  | run i epollWaitSize loopCount timeoutInMS => exact .inl ⟨rfl, nofun⟩

theorem follow_target (i : ι) (hstop : a ≠ .stop i) : (s.follow a b').target i = s.target i := by
  cases a with
  | thread k ret =>
      by_cases hk : b'.thread k = .polling <;> simp [State.follow, hk]
  | stop k =>
      have hik : i ≠ k := fun heq => hstop (by rw [heq])
      by_cases hstarted : s.base.state = .started <;>
        simp [State.follow, hstarted, Function.update_of_ne hik]
  | call k ret =>
      unfold State.follow
      dsimp only
      repeat' split
      all_goals rfl
  | run i epollWaitSize loopCount timeoutInMS => rfl

/-- A finished write leaves a message behind. -/
theorem follow_woken (j : Nat) (hj : (s.follow a b').woken j = true) :
    s.woken j = true ∨
      (0 < (s.follow a b').unread ∧ ∃ i before, s.base.caller i = .writing before ∧ s.target i = j) := by
  cases a with
  | thread k ret =>
      by_cases hk : b'.thread k = .polling <;> exact .inl (by simpa [State.follow, hk] using hj)
  | stop k =>
      by_cases hstarted : s.base.state = .started <;>
        exact .inl (by simpa [State.follow, hstarted] using hj)
  | call i ret =>
      cases hpc : s.base.caller i with
      | writing before =>
          by_cases hret : ret = 0
          · by_cases hji : j = s.target i
            · exact .inr ⟨by simp [State.follow, hpc, hret], i, before, hpc, hji.symm⟩
            · exact .inl (by simpa [State.follow, hpc, hret, Function.update_of_ne hji] using hj)
          · exact .inl (by simpa [State.follow, hpc, hret] using hj)
      | _ => exact .inl (by simpa [State.follow, hpc] using hj)
  | run i epollWaitSize loopCount timeoutInMS => exact .inl hj

end Follow

variable [DecidableEq ι]

theorem inv_follow {enableThread : Bool} {s : State ι} {a : RunStop.Act ι} {b' : RunStop.State ι}
    (hs : Inv s) (h : RunStop.step enableThread s.base a = some b') : Inv (s.follow a b') := by
  have hchange := change_step h
  have hunread := le_follow_unread s a b'
  refine ⟨?_, ?_, ?_, ?_, ?_⟩
  · rw [follow_base]
    exact held_step hs.held hchange
  · intro i before hw
    rw [follow_base] at hw ⊢
    rcases writing_of_step h hw with ⟨hi, hstop⟩ | ⟨ha, hstarted, hrequested, hcreated⟩
    · rw [follow_target s a b' i hstop]
      exact asked_step hs.held hchange (hs.aimed i before hi)
    · -- The last `ThreadMain` is the one that has set `STARTED`.
      subst ha
      rcases hs.held.started hstarted with ⟨j, hj⟩
      have htarget : (s.follow (.stop i) b').target i = j := by
        simp [State.follow, hstarted, hs.held.last j hj]
      rw [htarget]
      refine ⟨?_, fun _ => hrequested⟩
      rw [hcreated, hs.held.last j hj]
      exact Nat.lt_succ_self j
  · intro j hj
    rw [follow_base]
    rcases follow_woken s a b' j hj with hwoken | ⟨-, i, before, hw, htarget⟩
    · exact asked_step hs.held hchange (hs.asked j hwoken)
    · exact asked_step hs.held hchange (htarget ▸ hs.aimed i before hw)
  · intro j hj hpolling hblocked
    rw [follow_base] at hpolling
    rcases follow_woken s a b' j hj with hwoken | ⟨hpos, -⟩
    · by_cases hbefore : s.base.thread j = .polling
      · rcases follow_wait s a b' j with ⟨hwait, -⟩ | ⟨-, hmover, -⟩
        · exact Nat.lt_of_lt_of_le (hs.readable j hwoken hbefore (hwait ▸ hblocked)) hunread
        · -- It has just returned from `WaitEpoll`.
          cases a with
          | thread k ret =>
              cases hmover
              exact absurd hpolling (leaves_polling h hbefore)
          | _ => cases hmover
      · -- The test that let it through found the loop started, so nobody had asked it to stop.
        have hstarted := (started_of_polls hchange hbefore hpolling).2
        have hactive : (b'.thread j).active = true := by rw [hpolling]; rfl
        have hkept := request_kept hs.held hchange (hs.asked j hwoken).1 hactive
        rw [(hs.asked j hwoken).2 hkept.1] at hstarted
        cases hstarted
    · exact hpos
  · intro j events hpolling hwait'
    rw [follow_base] at hpolling
    rcases follow_wait s a b' j with ⟨hwait, hmoves⟩ | ⟨hblocked, -⟩
    · rw [hwait] at hwait'
      by_cases hbefore : s.base.thread j = .polling
      · exact polled_mono (hs.polled j events hbefore hwait') hunread
      · exact absurd hpolling (hmoves (started_of_polls hchange hbefore hpolling).1)
    · rw [hblocked] at hwait'
      cases hwait'

theorem inv_step {enableThread : Bool} {s s' : State ι} {a : Act ι} (hs : Inv s)
    (h : step enableThread s a = some s') : Inv s' := by
  cases a with
  | base a =>
      simp only [step] at h
      split at h
      · rcases Option.map_eq_some_iff.1 h with ⟨b', hb, rfl⟩
        exact inv_follow hs hb
      · cases h
  | epoll j ready => exact inv_epollStep hs h
  | handle j => exact inv_handleStep hs h

/-! ## Runs -/

/-- However the stop calls and the cycles of the loop are interleaved, no wake-up is lost. -/
theorem no_lost_wakeup (enableThread : Bool) (stale : Nat) (as : List (Act ι)) (s : State ι)
    (hexec : Run.exec (step enableThread) (State.start stale) as = some s) : NoLostWakeUp s :=
  (Run.exec_preserved (fun _ _ _ hs h => inv_step hs h) (inv_start stale) hexec).noLostWakeUp

/-- The stop is requested, and its message written, between the test of the loop and its
`epoll_pwait`. -/
def lateStopRun : List (Act Unit) :=
  [.base (.run () 10 (-1) (-1)), .base (.call () 0), .base (.call () 0), .base (.call () 0),
    .base (.call () 0), .base (.thread 0 0), .base (.thread 0 0), .base (.thread 0 0),
    .base (.thread 0 0), .base (.stop ()), .base (.call () 0)]

theorem lateStopRun_wakes :
    ∃ s, Run.exec (step true) (State.start 0) lateStopRun = some s ∧ s.woken 0 = true ∧
      s.base.thread 0 = .polling ∧ s.wait 0 = .blocked ∧ NoLostWakeUp s :=
  ⟨_, rfl, rfl, rfl, rfl, no_lost_wakeup true 0 lateStopRun _ rfl⟩

end WakeUp
end EventLoop
end Beyond
