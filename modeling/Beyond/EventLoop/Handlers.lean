import Mathlib.Data.Fintype.Option
import Mathlib.Logic.Function.Basic
import Beyond.Base.Run

/-!
# Lifetime of event handlers

`EventLoop::impl::WaitEpoll` works through a batch of raw pointers to `HandlerObjectImpl`s, while
`RemoveEventHandler` deletes such objects, from other threads or from inside a callback of the batch.
The two agree on who deletes an object by the flag `in_use` and by `state`.

This module interleaves the loop with any number of removals, one atomic access at a time.  An object
stays in place after its deletion, marked as not alive; every later access to it is recorded.
-/

namespace Beyond
namespace EventLoop

/-! ## Handler objects -/

/-- The three `beyond_event_type` flags, also for what epoll reports. -/
structure EventTypes where
  read : Bool
  write : Bool
  error : Bool
  deriving DecidableEq, Repr

namespace EventTypes

def any (t : EventTypes) : Bool := t.read || t.write || t.error

def inter (t u : EventTypes) : EventTypes :=
  ⟨t.read && u.read, t.write && u.write, t.error && u.error⟩

end EventTypes

/-- `HandlerObjectImpl::State`. -/
inductive HandlerState
  | init
  | delete
  | deleted
  deriving DecidableEq, Repr

structure HandlerObject where
  type : EventTypes
  state : HandlerState
  inUse : Bool
  deriving DecidableEq, Repr

inductive HandlerReturn
  | renew
  | cancel
  deriving DecidableEq, Repr

/-- An entry of a batch; the signal descriptor has a null pointer for data. -/
inductive Entry (ρ : Type*)
  | signal
  | handler (item : ρ) (events : EventTypes)
  deriving DecidableEq, Repr

/-! ## Where the parties are -/

/-- Inside `RemoveEventHandler`; what `private` removes begins at `checked`. -/
inductive Removal (ρ : Type*)
  | idle
  | entered (item : ρ)
  | checked (item : ρ)
  /-- `in_use` was set: someone else has to delete the object. -/
  | marking (item : ρ)
  | unlinking (item : ρ)
  | clearing (item : ρ)
  | deleting (item : ρ)
  deriving DecidableEq, Repr

/-- Inside `WaitEpoll`; `rest` is what is left of the batch. -/
inductive Stage (ρ : Type*)
  | waiting
  | batch (rest : List (Entry ρ))
  | claim (item : ρ) (rest : List (Entry ρ))
  | claimed (item : ρ) (rest : List (Entry ρ))
  /-- In the event handler. -/
  | calling (item : ρ) (rest : List (Entry ρ))
  /-- The event handler returned `RENEW`. -/
  | returned (item : ρ) (rest : List (Entry ρ))
  | cancelling (item : ρ) (rest : List (Entry ρ))
  | copying (item : ρ) (rest : List (Entry ρ))
  | releasing (item : ρ) (rest : List (Entry ρ))
  /-- In the private `RemoveEventHandler`. -/
  | removing (rest : List (Entry ρ))
  /-- In the cancel handler. -/
  | cancelled (rest : List (Entry ρ))
  | renewing (item : ρ) (rest : List (Entry ρ))
  deriving DecidableEq, Repr

/-- An access to an object that was deleted before. -/
inductive Violation (ρ : Type*)
  | usedDeleted (item : ρ)
  | deletedTwice (item : ρ)
  deriving DecidableEq, Repr

/-- The objects, the epoll set, the loop, and the removals: `removal none` is the one that runs on
the thread of the loop, inside a callback or for the loop itself; `removal (some i)` runs on another
thread. -/
structure State (ι ρ : Type*) where
  obj : ρ → HandlerObject
  alive : ρ → Bool
  watched : ρ → Bool
  stage : Stage ρ
  removal : Option ι → Removal ρ
  violations : List (Violation ρ)

inductive Act (ι ρ : Type*)
  /-- `epoll_pwait` returns a batch. -/
  | deliver (batch : List (Entry ρ))
  /-- The loop makes its next step. -/
  | loop
  /-- The event handler returns. -/
  | handlerReturns (opt : HandlerReturn)
  /-- A thread calls the public `RemoveEventHandler`. -/
  | remove (k : Option ι) (item : ρ)
  /-- A removal makes its next step; `ok` is the result of `epoll_ctl`. -/
  | proceed (k : Option ι) (ok : Bool)

variable {ι ρ : Type*}

namespace State

/-- A read or a write of the object. -/
def touch (s : State ι ρ) (r : ρ) : State ι ρ :=
  if s.alive r then s else { s with violations := s.violations ++ [.usedDeleted r] }

/-- `delete` of the object. -/
def free [DecidableEq ρ] (s : State ι ρ) (r : ρ) : State ι ρ :=
  if s.alive r then { s with alive := Function.update s.alive r false }
  else { s with violations := s.violations ++ [.deletedTwice r] }

/-- A write of the object. -/
def setObj [DecidableEq ρ] (s : State ι ρ) (r : ρ) (o : HandlerObject) : State ι ρ :=
  { s.touch r with obj := Function.update s.obj r o }

def goto (s : State ι ρ) (stage : Stage ρ) : State ι ρ := { s with stage := stage }

def setRemoval [DecidableEq ι] (s : State ι ρ) (k : Option ι) (pc : Removal ρ) : State ι ρ :=
  { s with removal := Function.update s.removal k pc }

end State

/-! ## Steps -/

/-- Epoll reports only what was added and not deleted again. -/
def deliverable (watched : ρ → Bool) : Entry ρ → Bool
  | .signal => true
  | .handler r _ => watched r

/-- One step of `WaitEpoll` on its own thread. -/
def loopStep [DecidableEq ι] [DecidableEq ρ] (s : State ι ρ) : Option (State ι ρ) :=
  match s.stage with
  | .waiting => none
  | .batch [] => some (s.goto .waiting)
  -- A signal sets `ret`, which is also the bound of the loop: the rest of the batch is dropped.
  | .batch (.signal :: _) => some (s.goto .waiting)
  | .batch (.handler r events :: rest) =>
      -- `item->type` is read only for flags that epoll reports.
      if events.any = false then some (s.goto (.batch rest))
      else if (events.inter (s.obj r).type).any then some ((s.touch r).goto (.claim r rest))
      else some ((s.touch r).goto (.batch rest))
  | .claim r rest =>
      -- The exchange of `in_use` is one access; an object that is in use is skipped.
      if (s.obj r).inUse then some ((s.touch r).goto (.batch rest))
      else some ((s.setObj r { s.obj r with inUse := true }).goto (.claimed r rest))
  | .claimed r rest => some ((s.touch r).goto (.calling r rest))
  | .calling _ _ => none
  | .returned r rest =>
      -- Whoever removed the object while its callback ran has only marked it.
      if (s.obj r).state = .delete then some ((s.touch r).goto (.cancelling r rest))
      else some ((s.touch r).goto (.renewing r rest))
  | .cancelling r rest =>
      some ((s.setObj r { s.obj r with state := .delete }).goto (.copying r rest))
  | .copying r rest => some ((s.touch r).goto (.releasing r rest))
  | .releasing r rest =>
      some (((s.setObj r { s.obj r with inUse := false }).setRemoval none (.checked r)).goto
        (.removing rest))
  | .removing rest => some (s.goto (.cancelled rest))
  | .cancelled rest => some (s.goto (.batch rest))
  | .renewing r rest =>
      some ((s.setObj r { s.obj r with inUse := false }).goto (.batch rest))

/-- One step of `RemoveEventHandler` on thread `k`. -/
def removalStep [DecidableEq ι] [DecidableEq ρ] (s : State ι ρ) (k : Option ι) (ok : Bool) :
    Option (State ι ρ) :=
  match s.removal k with
  | .idle => none
  | .entered r =>
      if (s.obj r).state ≠ .init then some ((s.touch r).setRemoval k .idle)
      else some ((s.touch r).setRemoval k (.checked r))
  | .checked r =>
      -- `in_use` does not tell whether a batch still holds the object.
      if (s.obj r).inUse then some ((s.touch r).setRemoval k (.marking r))
      else some ((s.setObj r { s.obj r with inUse := true }).setRemoval k (.unlinking r))
  | .marking r => some ((s.setObj r { s.obj r with state := .delete }).setRemoval k .idle)
  -- A failure of `epoll_ctl` is only logged.
  | .unlinking r =>
      some ({ s.touch r with watched := Function.update s.watched r (s.watched r && !ok) }.setRemoval
        k (.clearing r))
  | .clearing r => some ((s.setObj r { s.obj r with state := .deleted }).setRemoval k (.deleting r))
  | .deleting r => some ((s.free r).setRemoval k .idle)

/-- The stages in which the thread of the loop runs code of the user. -/
def Stage.inCallback : Stage ρ → Bool
  | .calling _ _ => true
  | .cancelled _ => true
  | _ => false

/-- The thread of the loop can do nothing else while a removal runs on it. -/
def step [DecidableEq ι] [DecidableEq ρ] (s : State ι ρ) : Act ι ρ → Option (State ι ρ)
  | .deliver batch =>
      if s.stage = .waiting ∧ batch.all (deliverable s.watched) then some (s.goto (.batch batch))
      else none
  | .loop => if s.removal none = .idle then loopStep s else none
  | .handlerReturns opt =>
      if s.removal none = .idle then
        match s.stage, opt with
        | .calling r rest, .cancel => some (s.goto (.cancelling r rest))
        | .calling r rest, .renew => some (s.goto (.returned r rest))
        | _, _ => none
      else none
  | .remove k r =>
      if s.removal k = .idle ∧ (k = none → s.stage.inCallback = true) then
        some (s.setRemoval k (.entered r))
      else none
  | .proceed k ok => removalStep s k ok

/-- Any set of registered handlers. -/
def State.start (registered : ρ → Bool) (type : ρ → EventTypes) : State ι ρ :=
  { obj := fun r => ⟨type r, .init, false⟩
    alive := registered
    watched := registered
    stage := .waiting
    removal := fun _ => .idle
    violations := [] }

/-! ## Who still holds an object -/

def Removal.item : Removal ρ → Option ρ
  | .idle => none
  | .entered r => some r
  | .checked r => some r
  | .marking r => some r
  | .unlinking r => some r
  | .clearing r => some r
  | .deleting r => some r

/-- The object is out of the epoll set. -/
def Removal.unlinked : Removal ρ → Option ρ
  | .clearing r => some r
  | .deleting r => some r
  | _ => none

/-- The objects that the loop will look at in the rest of a batch, unless it skips them. -/
def pending : List (Entry ρ) → List ρ
  | [] => []
  | .signal :: _ => []
  | .handler r events :: rest => if events.any then r :: pending rest else pending rest

/-- The objects that the loop still holds, apart from a removal on its thread. -/
def Stage.items : Stage ρ → List ρ
  | .waiting => []
  | .batch rest => pending rest
  | .claim r rest => r :: pending rest
  | .claimed r rest => r :: pending rest
  | .calling r rest => r :: pending rest
  | .returned r rest => r :: pending rest
  | .cancelling r rest => r :: pending rest
  | .copying r rest => r :: pending rest
  | .releasing r rest => r :: pending rest
  | .removing rest => pending rest
  | .cancelled rest => pending rest
  | .renewing r rest => r :: pending rest

/-- `RemoveEventHandler` is called for an object that is still there, `epoll_ctl` does not fail, and
an object is deleted only when neither the loop nor another removal holds it. -/
def Exclusive (s : State ι ρ) : Act ι ρ → Prop
  | .remove _ r => s.alive r = true
  | .proceed k ok =>
      match s.removal k with
      | .unlinking _ => ok = true
      | .deleting r => (∀ j, j ≠ k → (s.removal j).item ≠ some r) ∧ r ∉ s.stage.items
      | _ => True
  | _ => True

instance Exclusive.decidable [Fintype ι] [DecidableEq ι] [DecidableEq ρ] (s : State ι ρ) :
    ∀ a, Decidable (Exclusive s a)
  | .deliver _ => inferInstanceAs (Decidable True)
  | .loop => inferInstanceAs (Decidable True)
  | .handlerReturns _ => inferInstanceAs (Decidable True)
  | .remove _ r => inferInstanceAs (Decidable (s.alive r = true))
  | .proceed k ok =>
      match h : s.removal k with
      | .unlinking _ => decidable_of_iff (ok = true) (by simp [Exclusive, h])
      | .deleting r =>
          decidable_of_iff ((∀ j, j ≠ k → (s.removal j).item ≠ some r) ∧ r ∉ s.stage.items)
            (by simp [Exclusive, h])
      | .idle | .entered _ | .checked _ | .marking _ | .clearing _ =>
          isTrue (by simp [Exclusive, h])

/-- Everything that a party holds is alive. -/
structure Inv (s : State ι ρ) : Prop where
  violations : s.violations = []
  stage : ∀ r ∈ s.stage.items, s.alive r = true
  removal : ∀ k r, (s.removal k).item = some r → s.alive r = true
  watched : ∀ r, s.watched r = true → s.alive r = true
  unlinked : ∀ k r, (s.removal k).unlinked = some r → s.watched r = false

theorem inv_start (registered : ρ → Bool) (type : ρ → EventTypes) :
    Inv (State.start registered type : State ι ρ) := by
  refine ⟨rfl, ?_, ?_, fun _ h => h, ?_⟩
  · intro r hr
    cases hr
  · intro k r h
    cases h
  · intro k r h
    cases h

/-! ## Steps of the loop -/

theorem pending_deliver {alive watched : ρ → Bool} (hw : ∀ r, watched r = true → alive r = true)
    {batch : List (Entry ρ)} (h : batch.all (deliverable watched) = true) :
    ∀ r ∈ pending batch, alive r = true := by
  induction batch with
  | nil => simp [pending]
  | cons e rest ih =>
      rw [List.all_cons, Bool.and_eq_true] at h
      cases e with
      | signal => simp [pending]
      | handler item events =>
          intro r hr
          -- Epoll has reported it, so it is watched.
          unfold pending at hr
          split at hr
          · rcases List.mem_cons.1 hr with rfl | hr
            · exact hw _ h.1
            · exact ih h.2 r hr
          · exact ih h.2 r hr

theorem touch_of_alive {s : State ι ρ} {r : ρ} (h : s.alive r = true) : s.touch r = s := by
  simp [State.touch, h]

theorem setObj_of_alive [DecidableEq ρ] {s : State ι ρ} {r : ρ} (h : s.alive r = true)
    (o : HandlerObject) : s.setObj r o = { s with obj := Function.update s.obj r o } := by
  rw [State.setObj, touch_of_alive h]

/-- A move of the loop to objects that it already holds keeps the invariant. -/
theorem inv_goto {s : State ι ρ} (hs : Inv s) (obj : ρ → HandlerObject) {stage : Stage ρ}
    (h : ∀ r ∈ stage.items, r ∈ s.stage.items) : Inv ({ s with obj := obj }.goto stage) :=
  ⟨hs.violations, fun r hr => hs.stage r (h r hr), hs.removal, hs.watched, hs.unlinked⟩

/-- A removal that goes on with an object that is alive keeps the invariant. -/
theorem inv_setRemoval [DecidableEq ι] {s : State ι ρ} (hs : Inv s) (obj : ρ → HandlerObject)
    (k : Option ι) {pc : Removal ρ} (hitem : ∀ r, pc.item = some r → s.alive r = true)
    (hunlinked : ∀ r, pc.unlinked = some r → s.watched r = false) :
    Inv ({ s with obj := obj }.setRemoval k pc) := by
  refine ⟨hs.violations, hs.stage, ?_, hs.watched, ?_⟩
  · intro j r h
    by_cases hj : j = k
    · subst hj
      exact hitem r (by simpa [State.setRemoval] using h)
    · exact hs.removal j r (by simpa [State.setRemoval, Function.update_of_ne hj] using h)
  · intro j r h
    by_cases hj : j = k
    · subst hj
      exact hunlinked r (by simpa [State.setRemoval] using h)
    · exact hs.unlinked j r (by simpa [State.setRemoval, Function.update_of_ne hj] using h)

variable [DecidableEq ι] [DecidableEq ρ]

theorem inv_loopStep {s s' : State ι ρ} (hs : Inv s) (h : loopStep s = some s') : Inv s' := by
  have halive : ∀ {r : ρ}, r ∈ s.stage.items → s.alive r = true := fun hr => hs.stage _ hr
  have hrest : ∀ {r : ρ} {rest : List (Entry ρ)}, s.stage.items = r :: pending rest →
      ∀ x ∈ pending rest, x ∈ s.stage.items := by
    intro r rest heq x hx
    rw [heq]
    exact List.mem_cons_of_mem r hx
  cases hpc : s.stage with
  | waiting => simp [loopStep, hpc] at h
  | batch batch =>
      cases batch with
      | nil =>
          simp only [loopStep, hpc, Option.some.injEq] at h
          exact h ▸ inv_goto hs s.obj (by simp [Stage.items])
      | cons e rest =>
          cases e with
          | signal =>
              simp only [loopStep, hpc, Option.some.injEq] at h
              exact h ▸ inv_goto hs s.obj (by simp [Stage.items])
          | handler r events =>
              -- The loop gets hold of the object only if epoll reports a flag that it looks at.
              by_cases hany : events.any = false
              · simp only [loopStep, hpc, hany, if_true, Option.some.injEq] at h
                exact h ▸ inv_goto hs s.obj (by simp [hpc, Stage.items, pending, hany])
              · have hitems : s.stage.items = r :: pending rest := by
                  simp [hpc, Stage.items, pending, hany]
                have hr : s.alive r = true := halive (by rw [hitems]; exact List.mem_cons_self)
                simp only [loopStep, hpc, if_neg hany, touch_of_alive hr] at h
                split at h
                · cases h
                  exact inv_goto hs s.obj (by rw [hitems]; exact fun _ hx => hx)
                · cases h
                  exact inv_goto hs s.obj (hrest hitems)
  | claim r rest =>
      have hr : s.alive r = true := halive (by simp [hpc, Stage.items])
      simp only [loopStep, hpc, touch_of_alive hr, setObj_of_alive hr] at h
      split at h
      · cases h
        exact inv_goto hs s.obj (hrest (by rw [hpc]; rfl))
      · cases h
        exact inv_goto hs _ (by simp [hpc, Stage.items])
  | claimed r rest =>
      have hr : s.alive r = true := halive (by simp [hpc, Stage.items])
      simp only [loopStep, hpc, touch_of_alive hr, Option.some.injEq] at h
      exact h ▸ inv_goto hs s.obj (by simp [hpc, Stage.items])
  | calling r rest => simp [loopStep, hpc] at h
  | returned r rest =>
      have hr : s.alive r = true := halive (by simp [hpc, Stage.items])
      simp only [loopStep, hpc, touch_of_alive hr] at h
      split at h
      · cases h
        exact inv_goto hs s.obj (by simp [hpc, Stage.items])
      · cases h
        exact inv_goto hs s.obj (by simp [hpc, Stage.items])
  | cancelling r rest =>
      have hr : s.alive r = true := halive (by simp [hpc, Stage.items])
      simp only [loopStep, hpc, setObj_of_alive hr, Option.some.injEq] at h
      exact h ▸ inv_goto hs _ (by simp [hpc, Stage.items])
  | copying r rest =>
      have hr : s.alive r = true := halive (by simp [hpc, Stage.items])
      simp only [loopStep, hpc, touch_of_alive hr, Option.some.injEq] at h
      exact h ▸ inv_goto hs s.obj (by simp [hpc, Stage.items])
  | releasing r rest =>
      have hr : s.alive r = true := halive (by simp [hpc, Stage.items])
      simp only [loopStep, hpc, setObj_of_alive hr, Option.some.injEq] at h
      -- The loop hands its own hold on the object over to the private removal.
      have hremoval : ∀ obj, Inv ({ s with obj := obj }.setRemoval none (.checked r)) := fun obj =>
        inv_setRemoval hs obj none (fun x hx => Option.some.inj hx ▸ hr) (fun x hx => by cases hx)
      exact h ▸ inv_goto (hremoval _) _ (hrest (by rw [hpc]; rfl))
  | removing rest =>
      simp only [loopStep, hpc, Option.some.injEq] at h
      exact h ▸ inv_goto hs s.obj (by simp [hpc, Stage.items])
  | cancelled rest =>
      simp only [loopStep, hpc, Option.some.injEq] at h
      exact h ▸ inv_goto hs s.obj (by simp [hpc, Stage.items])
  | renewing r rest =>
      have hr : s.alive r = true := halive (by simp [hpc, Stage.items])
      simp only [loopStep, hpc, setObj_of_alive hr, Option.some.injEq] at h
      exact h ▸ inv_goto hs _ (hrest (by rw [hpc]; rfl))

/-! ## Steps of the removals -/

/-- The object leaves the epoll set. -/
theorem inv_unlink {s : State ι ρ} (hs : Inv s) {k : Option ι} {r : ρ} (hr : s.alive r = true) :
    Inv ({ s with watched := Function.update s.watched r false }.setRemoval k (.clearing r)) := by
  have hwatched : ∀ x, Function.update s.watched r false x = true → s.watched x = true := by
    intro x hx
    by_cases hxr : x = r
    · subst hxr
      simp at hx
    · rwa [Function.update_of_ne hxr] at hx
  have hout : ∀ x, s.watched x = false → Function.update s.watched r false x = false := by
    intro x hx
    by_cases hxr : x = r
    · subst hxr
      simp
    · rwa [Function.update_of_ne hxr]
  have hs' : Inv { s with watched := Function.update s.watched r false } :=
    ⟨hs.violations, hs.stage, hs.removal, fun x hx => hs.watched x (hwatched x hx),
      fun j x hx => hout x (hs.unlinked j x hx)⟩
  refine inv_setRemoval hs' s.obj k (fun x hx => Option.some.inj hx ▸ hr) (fun x hx => ?_)
  cases Option.some.inj hx
  exact Function.update_self _ _ _

/-- Nobody else holds the object that is deleted. -/
theorem inv_free {s : State ι ρ} (hs : Inv s) {k : Option ι} {r : ρ}
    (hpc : s.removal k = .deleting r) (hother : ∀ j, j ≠ k → (s.removal j).item ≠ some r)
    (hstage : r ∉ s.stage.items) : Inv ((s.free r).setRemoval k .idle) := by
  have hr : s.alive r = true := hs.removal k r (by rw [hpc]; rfl)
  have hwatched : s.watched r = false := hs.unlinked k r (by rw [hpc]; rfl)
  have hfree : s.free r = { s with alive := Function.update s.alive r false } := by
    simp [State.free, hr]
  rw [hfree]
  -- Whoever holds an object holds another one, and epoll does not report this one any more.
  refine ⟨hs.violations, ?_, ?_, ?_, ?_⟩
  · intro x hx
    have hxr : x ≠ r := fun h => hstage (h ▸ hx)
    simpa [State.setRemoval, Function.update_of_ne hxr] using hs.stage x hx
  · intro j x hx
    by_cases hj : j = k
    · subst hj
      simp [State.setRemoval, Removal.item] at hx
    · have hitem : (s.removal j).item = some x := by
        simpa [State.setRemoval, Function.update_of_ne hj] using hx
      have hxr : x ≠ r := fun h => hother j hj (h ▸ hitem)
      simpa [State.setRemoval, Function.update_of_ne hxr] using hs.removal j x hitem
  · intro x hx
    have hxr : x ≠ r := by
      intro h
      subst h
      rw [show s.watched x = true from hx] at hwatched
      cases hwatched
    simpa [State.setRemoval, Function.update_of_ne hxr] using hs.watched x hx
  · intro j x hx
    by_cases hj : j = k
    · subst hj
      simp [State.setRemoval, Removal.unlinked] at hx
    · exact hs.unlinked j x (by simpa [State.setRemoval, Function.update_of_ne hj] using hx)

theorem inv_removalStep {s s' : State ι ρ} {k : Option ι} {ok : Bool} (hs : Inv s)
    (hex : Exclusive s (.proceed k ok)) (h : removalStep s k ok = some s') : Inv s' := by
  have halive : ∀ {r : ρ}, (s.removal k).item = some r → s.alive r = true :=
    fun hr => hs.removal k _ hr
  cases hpc : s.removal k with
  | idle => simp [removalStep, hpc] at h
  | entered r =>
      have hr : s.alive r = true := halive (by rw [hpc]; rfl)
      simp only [removalStep, hpc, touch_of_alive hr] at h
      split at h
      · cases h
        exact inv_setRemoval hs s.obj k (fun x hx => by cases hx) (fun x hx => by cases hx)
      · cases h
        exact inv_setRemoval hs s.obj k (fun x hx => Option.some.inj hx ▸ hr)
          (fun x hx => by cases hx)
  | checked r =>
      have hr : s.alive r = true := halive (by rw [hpc]; rfl)
      simp only [removalStep, hpc, touch_of_alive hr, setObj_of_alive hr] at h
      split at h
      · cases h
        exact inv_setRemoval hs s.obj k (fun x hx => Option.some.inj hx ▸ hr)
          (fun x hx => by cases hx)
      · cases h
        exact inv_setRemoval hs _ k (fun x hx => Option.some.inj hx ▸ hr)
          (fun x hx => by cases hx)
  | marking r =>
      have hr : s.alive r = true := halive (by rw [hpc]; rfl)
      simp only [removalStep, hpc, setObj_of_alive hr, Option.some.injEq] at h
      exact h ▸ inv_setRemoval hs _ k (fun x hx => by cases hx) (fun x hx => by cases hx)
  | unlinking r =>
      have hr : s.alive r = true := halive (by rw [hpc]; rfl)
      simp only [Exclusive, hpc] at hex
      subst hex
      simp only [removalStep, hpc, touch_of_alive hr, Bool.not_true, Bool.and_false,
        Option.some.injEq] at h
      exact h ▸ inv_unlink hs hr
  | clearing r =>
      have hr : s.alive r = true := halive (by rw [hpc]; rfl)
      have hout : s.watched r = false := hs.unlinked k r (by rw [hpc]; rfl)
      simp only [removalStep, hpc, setObj_of_alive hr, Option.some.injEq] at h
      exact h ▸ inv_setRemoval hs _ k (fun x hx => Option.some.inj hx ▸ hr)
        (fun x hx => Option.some.inj hx ▸ hout)
  | deleting r =>
      simp only [Exclusive, hpc] at hex
      simp only [removalStep, hpc, Option.some.injEq] at h
      exact h ▸ inv_free hs hpc hex.1 hex.2

/-! ## Runs -/

theorem inv_step {s s' : State ι ρ} {a : Act ι ρ} (hs : Inv s) (hex : Exclusive s a)
    (h : step s a = some s') : Inv s' := by
  unfold step at h
  split at h
  · split at h
    · rename_i hdeliver
      cases h
      exact ⟨hs.violations, pending_deliver hs.watched hdeliver.2, hs.removal, hs.watched,
        hs.unlinked⟩
    · cases h
  · split at h
    · exact inv_loopStep hs h
    · cases h
  · split at h
    · split at h
      · rename_i hpc
        cases h
        exact inv_goto hs s.obj (by simp [hpc, Stage.items])
      · rename_i hpc
        cases h
        exact inv_goto hs s.obj (by simp [hpc, Stage.items])
      · cases h
    · cases h
  · split at h
    · cases h
      exact inv_setRemoval hs s.obj _ (fun x hx => Option.some.inj hx ▸ hex)
        (fun x hx => by cases hx)
    · cases h
  · exact inv_removalStep hs hex h

/-- As long as objects are deleted only when nobody else holds them, no deleted object is touched
and none is deleted twice, in every state of every run. -/
theorem handlers_safe (registered : ρ → Bool) (type : ρ → EventTypes) (as : List (Act ι ρ))
    (s : State ι ρ) (hex : Run.Along step Exclusive (State.start registered type) as)
    (hexec : Run.exec step (State.start registered type) as = some s) : s.violations = [] :=
  (Run.exec_invariant (fun _ _ _ hs hG h => inv_step hs hG h) (inv_start registered type) hex
    hexec).violations

/-! ## Two handlers in one batch -/

inductive Item
  | first
  | second
  deriving DecidableEq, Repr

def readable : EventTypes := ⟨true, false, false⟩

def twoHandlers : State Unit Item := State.start (fun _ => true) fun _ => readable

/-- The callback of the first handler removes the second one, whose event is behind it in the
batch. -/
theorem removed_in_batch :
    ∃ s, Run.exec step twoHandlers
        [.deliver [.handler .first readable, .handler .second readable], .loop, .loop, .loop,
          .remove none .second, .proceed none true, .proceed none true, .proceed none true,
          .proceed none true, .proceed none true, .handlerReturns .renew, .loop, .loop, .loop] =
        some s ∧ s.violations = [.usedDeleted .second] :=
  ⟨_, rfl, rfl⟩

/-- The callback of a handler removes the handler, and the loop deletes it. -/
def removesItself : List (Act Unit Item) :=
  [.deliver [.handler .first readable], .loop, .loop, .loop, .remove none .first,
    .proceed none true, .proceed none true, .proceed none true, .handlerReturns .renew, .loop, .loop,
    .loop, .loop, .proceed none true, .proceed none true, .proceed none true, .proceed none true]

theorem removesItself_safe :
    ∃ s, Run.exec step twoHandlers removesItself = some s ∧ s.alive .first = false ∧
      s.violations = [] :=
  ⟨_, rfl, rfl, handlers_safe (fun _ => true) (fun _ => readable) removesItself _ (by decide) rfl⟩

end EventLoop
end Beyond
