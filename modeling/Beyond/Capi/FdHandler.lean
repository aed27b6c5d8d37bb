import Beyond.Base.Run
import Beyond.EventLoop.Batch

/-!
# Descriptor handlers of a session

`beyond_session_add_fd_handler` allocates an `EventObject` for a descriptor and registers it in the
event loop; `beyond_session_remove_fd_handler` calls `RemoveEventHandler` and deletes the
`EventObject`.  The event loop uses the `EventObject` as well: it hands it to the callback and to the
cancel handler, and asks it for the descriptor when it takes the handler out of epoll.

The handler objects, the loop and the removals are those of `Beyond.EventLoop.Handlers`.  A descriptor
handler and its `EventObject` have the same name `r`.
-/

namespace Beyond
namespace Capi
namespace FdHandler

open EventLoop (EventTypes HandlerReturn Entry Stage Removal)

variable {ι ρ : Type*}

/-! ## State -/

inductive Violation (ρ : Type*)
  | usedDeleted (r : ρ)
  | deletedTwice (r : ρ)
  /-- Its descriptor was in epoll when it was deleted. -/
  | deletedRegistered (r : ρ)
  deriving DecidableEq, Repr

structure State (ι ρ : Type*) where
  base : EventLoop.State ι ρ
  /-- The `EventObject`s that were allocated. -/
  born : ρ → Bool
  /-- Those in memory. -/
  object : ρ → Bool
  deletes : ρ → Nat
  /-- The handlers that the application has got. -/
  added : ρ → Bool
  /-- The threads inside `beyond_session_remove_fd_handler`. -/
  session : Option ι → Option ρ
  /-- The loop's copy of the pointer, for the cancel handler. -/
  copied : Option ρ
  violations : List (Violation ρ)

inductive Act (ι ρ : Type*)
  | deliver (batch : List (Entry ρ))
  | loop
  | handlerReturns (opt : HandlerReturn)
  | proceed (k : Option ι) (ok : Bool)
  /-- `beyond_session_add_fd_handler`; `allocated` and `ok` tell whether the handler object is
  allocated and `epoll_ctl` works. -/
  | add (r : ρ) (type : EventTypes) (allocated ok : Bool)
  /-- A thread calls `beyond_session_remove_fd_handler`. -/
  | removeFd (k : Option ι) (r : ρ)
  /-- `RemoveEventHandler` has returned to it. -/
  | deleteObject (k : Option ι)

namespace State

/-- An access to the `EventObject`. -/
def access (s : State ι ρ) (r : ρ) : State ι ρ :=
  if s.object r then s else { s with violations := s.violations ++ [.usedDeleted r] }

/-- `delete` of the `EventObject`. -/
def delete [DecidableEq ρ] (s : State ι ρ) (r : ρ) : State ι ρ :=
  { s with
    object := Function.update s.object r false
    deletes := Function.update s.deletes r (s.deletes r + 1)
    violations := s.violations ++ (if s.object r then [] else [.deletedTwice r]) ++
      if s.base.watched r then [.deletedRegistered r] else [] }

end State

/-! ## Steps -/

section Steps

variable [DecidableEq ι] [DecidableEq ρ]

def addFdHandler (s : State ι ρ) (r : ρ) (type : EventTypes) (allocated ok : Bool) : State ι ρ :=
  let t : State ι ρ :=
    { s with born := Function.update s.born r true, object := Function.update s.object r true }
  -- `AddEventHandler` returns null, and the object is deleted at once.
  if allocated = false ∨ type.any = false ∨ ok = false then t.delete r
  else
    { t with
      added := Function.update t.added r true
      base := { t.base with
        obj := Function.update t.base.obj r ⟨type, .init, false⟩
        alive := Function.update t.base.alive r true
        watched := Function.update t.base.watched r true } }

/-- What a step of the loop does to the `EventObject`s. -/
def loopUses (s : State ι ρ) : State ι ρ :=
  match s.base.stage, s.copied with
  -- `item->eventHandler(item->eventObject, ..)`
  | .claimed r _, _ => s.access r
  | .copying r _, _ => { s with copied := some r }
  -- `cancelHandler(eventObject, ..)`
  | .removing _, some r => { s.access r with copied := none }
  | _, _ => s

/-- `RemoveEventHandler` calls `eventObject->GetHandle()`. -/
def removalUses (s : State ι ρ) (k : Option ι) : State ι ρ :=
  match s.base.removal k with
  | .unlinking r => s.access r
  | _ => s

def step (s : State ι ρ) : Act ι ρ → Option (State ι ρ)
  | .deliver batch => (EventLoop.step s.base (.deliver batch)).map fun b => { s with base := b }
  | .loop =>
      if s.session none = none then
        (EventLoop.step s.base .loop).map fun b => { loopUses s with base := b }
      else none
  | .handlerReturns opt =>
      if s.session none = none then
        (EventLoop.step s.base (.handlerReturns opt)).map fun b => { s with base := b }
      else none
  | .proceed k ok =>
      (EventLoop.step s.base (.proceed k ok)).map fun b => { removalUses s k with base := b }
  | .add r type allocated ok =>
      if s.born r then none else some (addFdHandler s r type allocated ok)
  | .removeFd k r =>
      -- It reads `handlerObject->eventObject` and casts it.
      if s.session k = none ∧ s.added r = true then
        (EventLoop.step (s.base.touch r) (.remove k r)).map fun b =>
          { s.access r with base := b, session := Function.update s.session k (some r) }
      else none
  | .deleteObject k =>
      match s.session k, s.base.removal k with
      | some r, .idle => some { s.delete r with session := Function.update s.session k none }
      | _, _ => none

end Steps

/-- An event loop without handlers. -/
def State.start : State ι ρ where
  base := EventLoop.State.start (fun _ => false) fun _ => ⟨false, false, false⟩
  born _ := false
  object _ := false
  deletes _ := 0
  added _ := false
  session _ := none
  copied := none
  violations := []

/-! ## Specification -/

structure Correct (s : State ι ρ) : Prop where
  /-- No `EventObject` is used after it was deleted, deleted twice, or deleted in epoll. -/
  safe : s.violations = []
  handlers : s.base.violations = []
  once : ∀ r, s.deletes r ≤ 1
  /-- The loop cannot come to a deleted one any more. -/
  after : ∀ r, s.deletes r ≠ 0 → s.base.alive r = false ∧ s.base.watched r = false
  /-- When its handler is gone and nobody is still removing it, it is deleted. -/
  gone : ∀ r, s.born r = true → s.base.alive r = false → (∀ k, s.session k ≠ some r) →
    s.copied ≠ some r → s.deletes r = 1

/-- The removal on thread `k` finds the handler neither in use nor removed already. -/
def Unclaimed (b : EventLoop.State ι ρ) (k : Option ι) : Prop :=
  match b.removal k with
  | .entered r => (b.obj r).state = .init
  | .checked r => (b.obj r).inUse = false
  | _ => True

instance Unclaimed.decidable (b : EventLoop.State ι ρ) (k : Option ι) :
    Decidable (Unclaimed b k) :=
  match h : b.removal k with
  | .entered r => decidable_of_iff ((b.obj r).state = .init) (by simp [Unclaimed, h])
  | .checked r => decidable_of_iff ((b.obj r).inUse = false) (by simp [Unclaimed, h])
  | .idle | .marking _ | .unlinking _ | .clearing _ | .deleting _ =>
      isTrue (by simp [Unclaimed, h])

/-- Callbacks return `RENEW`, and a handler is removed once, while it is not in use and no batch holds
it. -/
def Sound (s : State ι ρ) : Act ι ρ → Prop
  | .handlerReturns opt => opt = .renew
  | .removeFd _ r => s.base.alive r = true
  | .proceed k ok => EventLoop.Exclusive s.base (.proceed k ok) ∧ Unclaimed s.base k
  | _ => True

instance Sound.decidable [Fintype ι] [DecidableEq ι] [DecidableEq ρ] (s : State ι ρ) :
    ∀ a, Decidable (Sound s a)
  | .handlerReturns opt => inferInstanceAs (Decidable (opt = .renew))
  | .removeFd _ r => inferInstanceAs (Decidable (s.base.alive r = true))
  | .proceed k ok =>
      inferInstanceAs (Decidable (EventLoop.Exclusive s.base (.proceed k ok) ∧ Unclaimed s.base k))
  | .deliver _ | .loop | .add .. | .deleteObject _ => isTrue trivial

/-! ## Invariant -/

/-- The loop is removing a handler itself. -/
def removes : Stage ρ → Bool
  | .cancelling _ _ => true
  | .copying _ _ => true
  | .releasing _ _ => true
  | .removing _ => true
  | .cancelled _ => true
  | _ => false

structure Inv (s : State ι ρ) : Prop where
  safe : s.violations = []
  base : EventLoop.Inv s.base
  /-- No handler is marked for the loop to remove. -/
  state : ∀ r, (s.base.obj r).state ≠ .delete
  stage : removes s.base.stage = false
  marking : ∀ k r, s.base.removal k ≠ .marking r
  copied : s.copied = none
  session : ∀ k r, (s.base.removal k).item = some r → s.session k = some r
  alive : ∀ r, s.base.alive r = true → s.born r = true ∧ s.object r = true ∧ s.deletes r = 0
  /-- `RemoveEventHandler` has returned. -/
  returned : ∀ k r, s.session k = some r → s.base.removal k = .idle →
    s.base.alive r = false ∧ s.object r = true ∧ s.deletes r = 0 ∧
      ∀ j, s.session j = some r → j = k
  gone : ∀ r, s.born r = true → s.base.alive r = false → (∀ k, s.session k ≠ some r) →
    s.deletes r = 1
  unborn : ∀ r, s.born r = false → s.base.alive r = false ∧ s.deletes r = 0 ∧
    ∀ k, s.session k ≠ some r

theorem inv_start : Inv (State.start : State ι ρ) where
  safe := rfl
  base := EventLoop.inv_start _ _
  state _ := nofun
  stage := rfl
  marking _ _ := nofun
  copied := rfl
  session _ _ := nofun
  alive _ := nofun
  returned _ _ := nofun
  gone _ := nofun
  unborn _ _ := ⟨rfl, rfl, fun _ => nofun⟩

namespace Inv

variable {s : State ι ρ}

/-- A thread that is inside the session function is either in `RemoveEventHandler` or has returned
from it. -/
theorem item_or_idle (hs : Inv s) {k : Option ι} {r : ρ} (hk : s.session k = some r) :
    (s.base.removal k).item = some r ∨ s.base.removal k = .idle := by
  cases hpc : s.base.removal k with
  | idle => exact .inr rfl
  | _ x =>
      have hx := hs.session k x (by rw [hpc]; rfl)
      cases Option.some.inj (hx.symm.trans hk)
      exact .inl rfl

theorem correct (hs : Inv s) : Correct s where
  safe := hs.safe
  handlers := hs.base.violations
  once r := by
    by_cases hborn : s.born r = true
    · cases halive : s.base.alive r with
      | true => exact (hs.alive r halive).2.2 ▸ Nat.zero_le 1
      | false =>
          by_cases hsession : ∃ k, s.session k = some r
          · rcases hsession with ⟨k, hk⟩
            rcases hs.item_or_idle hk with hitem | hidle
            · exact absurd (hs.base.removal k r hitem) (by simp [halive])
            · exact (hs.returned k r hk hidle).2.2.1 ▸ Nat.zero_le 1
          · exact (hs.gone r hborn halive fun k hk => hsession ⟨k, hk⟩).le
    · exact (hs.unborn r (by simpa using hborn)).2.1 ▸ Nat.zero_le 1
  after r hr := by
    have halive : s.base.alive r = false := by
      by_contra hne
      exact hr (hs.alive r (by simpa using hne)).2.2
    refine ⟨halive, ?_⟩
    by_contra hne
    have hwatched := hs.base.watched r (by simpa using hne)
    simp [halive] at hwatched
  gone r hborn halive hsession _ := hs.gone r hborn halive hsession

end Inv

/-! ## Steps -/

section Preservation

variable {s : State ι ρ}

theorem access_of_object {r : ρ} (h : s.object r = true) : s.access r = s := by
  simp [State.access, h]

/-- Only the place of the loop changes, and handler objects that it has in hand. -/
theorem inv_rebase (hs : Inv s) {b : EventLoop.State ι ρ} (hbase : EventLoop.Inv b)
    (hstate : ∀ r, (b.obj r).state ≠ .delete) (hstage : removes b.stage = false)
    (halive : b.alive = s.base.alive) (hremoval : b.removal = s.base.removal) :
    Inv { s with base := b } where
  safe := hs.safe
  base := hbase
  state := hstate
  stage := hstage
  marking k r := by simpa [hremoval] using hs.marking k r
  copied := hs.copied
  session k r hr := hs.session k r (by simpa [hremoval] using hr)
  alive r hr := hs.alive r (by simpa [halive] using hr)
  returned k r hk hidle := by
    simpa [halive] using hs.returned k r hk (by simpa [hremoval] using hidle)
  gone r hborn hr := hs.gone r hborn (by simpa [halive] using hr)
  unborn r hr := by simpa [halive] using hs.unborn r hr

variable [DecidableEq ι] [DecidableEq ρ]

/-- A loop that is not removing a handler does not begin to, as long as none is marked. -/
theorem loop_keeps {b b' : EventLoop.State ι ρ} (h : EventLoop.loopStep b = some b')
    (hstage : removes b.stage = false) (hstate : ∀ r, (b.obj r).state ≠ .delete) :
    removes b'.stage = false := by
  cases hpc : b.stage with
  | batch batch =>
      cases batch with
      | nil =>
          simp only [EventLoop.loopStep, hpc] at h
          cases h
          rfl
      | cons e rest =>
          cases e with
          | signal =>
              simp only [EventLoop.loopStep, hpc] at h
              cases h
              rfl
          | handler x events =>
              simp only [EventLoop.loopStep, hpc] at h
              repeat' split at h
              all_goals cases h
              all_goals rfl
  | returned x rest =>
      simp only [EventLoop.loopStep, hpc, if_neg (hstate x)] at h
      cases h
      rfl
  | claim x rest =>
      simp only [EventLoop.loopStep, hpc] at h
      split at h
      · cases h
        rfl
      · cases h
        rfl
  | waiting => simp [EventLoop.loopStep, hpc] at h
  | calling x rest => simp [EventLoop.loopStep, hpc] at h
  | claimed x rest =>
      simp only [EventLoop.loopStep, hpc] at h
      cases h
      rfl
  | renewing x rest =>
      simp only [EventLoop.loopStep, hpc] at h
      cases h
      rfl
  | _ => simp [removes, hpc] at hstage

theorem inv_loop (hs : Inv s) {b : EventLoop.State ι ρ}
    (h : EventLoop.step s.base .loop = some b) : Inv { loopUses s with base := b } := by
  have hbase := EventLoop.inv_step (a := .loop) hs.base trivial h
  simp only [EventLoop.step] at h
  split at h
  swap
  · cases h
  rcases EventLoop.RemovalEffect.loop_change h with ⟨halive, -, hchange⟩
  have hremoval : b.removal = s.base.removal := by
    rcases hchange with ⟨hsame, -⟩ | ⟨r, rest, hreleasing, -⟩
    · exact hsame
    · have hstage := hs.stage
      simp [hreleasing, removes] at hstage
  have hstate : ∀ r, (b.obj r).state ≠ .delete := by
    intro r
    rcases (EventLoop.loop_object h r).1 with hsame | hdiscards
    · exact hsame ▸ hs.state r
    · have hstage := hs.stage
      cases hpc : s.base.stage with
      | cancelling _ _ => simp [hpc, removes] at hstage
      | copying _ _ => simp [hpc, removes] at hstage
      | releasing _ _ => simp [hpc, removes] at hstage
      | _ => simp [hpc, EventLoop.Stage.discards] at hdiscards
  have huses : loopUses s = s := by
    have hstage := hs.stage
    cases hpc : s.base.stage with
    | claimed r rest =>
        have hr := hs.base.stage r (by simp [hpc, EventLoop.Stage.items])
        simp only [loopUses, hpc]
        exact access_of_object (hs.alive r hr).2.1
    | copying r rest => simp [hpc, removes] at hstage
    | removing rest => simp [hpc, removes] at hstage
    | _ => simp [loopUses, hpc]
  rw [huses]
  exact inv_rebase hs hbase hstate (loop_keeps h hs.stage hs.state) halive hremoval

omit [DecidableEq ρ] in
theorem session_of_begun {k j : Option ι} {r x : ρ} (hxr : x ≠ r)
    (hj : Function.update s.session k (some r) j = some x) : s.session j = some x := by
  by_cases hjk : j = k
  · subst hjk
    rw [Function.update_self] at hj
    exact absurd (Option.some.inj hj).symm hxr
  · rwa [Function.update_of_ne hjk] at hj

theorem inv_removeFd (hs : Inv s) {k : Option ι} {r : ρ} {b : EventLoop.State ι ρ}
    (hk : s.session k = none) (halive : s.base.alive r = true)
    (h : EventLoop.step (s.base.touch r) (.remove k r) = some b) :
    Inv { s.access r with base := b, session := Function.update s.session k (some r) } := by
  rw [EventLoop.touch_of_alive halive] at h
  have hbase := EventLoop.inv_step (a := .remove k r) hs.base halive h
  rw [access_of_object (hs.alive r halive).2.1]
  simp only [EventLoop.step] at h
  split at h
  swap
  · cases h
  cases h
  refine
    { safe := hs.safe
      base := hbase
      state := hs.state
      stage := hs.stage
      marking := fun j x => ?_
      copied := hs.copied
      session := fun j x hx => ?_
      alive := hs.alive
      returned := fun j x hj hidle => ?_
      gone := fun x hborn hx hsession => hs.gone x hborn hx fun j hj => ?_
      unborn := fun x hx => ⟨(hs.unborn x hx).1, (hs.unborn x hx).2.1, fun j hj => ?_⟩ }
  · by_cases hjk : j = k
    · subst hjk
      simp [EventLoop.State.setRemoval]
    · simpa [EventLoop.State.setRemoval, Function.update_of_ne hjk] using hs.marking j x
  · by_cases hjk : j = k
    · subst hjk
      simpa [EventLoop.State.setRemoval, EventLoop.Removal.item] using hx
    · simp only [EventLoop.State.setRemoval, Function.update_of_ne hjk] at hx ⊢
      exact hs.session j x hx
  · have hjk : j ≠ k := by
      rintro rfl
      simp [EventLoop.State.setRemoval] at hidle
    simp only [EventLoop.State.setRemoval, Function.update_of_ne hjk] at hj hidle
    rcases hs.returned j x hj hidle with ⟨hdead, hobject, hdeletes, honly⟩
    have hxr : x ≠ r := fun heq => by simp [heq, halive] at hdead
    exact ⟨hdead, hobject, hdeletes, fun i hi => honly i (session_of_begun hxr hi)⟩
  · have hjk : j ≠ k := fun heq => by simp [heq, hk] at hj
    exact hsession j (by simpa [Function.update_of_ne hjk] using hj)
  · have hxr : x ≠ r := fun heq => by
      have hdead := (hs.unborn x hx).1
      simp [heq, halive] at hdead
    exact (hs.unborn x hx).2.2 j (session_of_begun hxr hj)

/-! ## Removals -/

/-- A removal deletes no handler but its own. -/
theorem alive_proceed {b b' : EventLoop.State ι ρ} {k : Option ι} {ok : Bool} {x : ρ}
    (h : EventLoop.removalStep b k ok = some b') (hitem : (b.removal k).item ≠ some x) :
    b'.alive x = b.alive x := by
  cases hpc : b.removal k with
  | deleting r =>
      simp only [EventLoop.removalStep, hpc] at h
      cases h
      have hne : x ≠ r := fun heq => hitem (by rw [hpc, heq]; rfl)
      unfold EventLoop.State.free
      split
      · exact Function.update_of_ne hne _ _
      · rfl
  | _ =>
      simp only [EventLoop.removalStep, hpc] at h
      all_goals repeat' split at h
      all_goals cases h
      all_goals simp [EventLoop.State.setRemoval]

/-- A removal of a handler that nobody else has claimed marks nothing, and does not end before the
handler is deleted. -/
theorem unclaimed_proceed {b b' : EventLoop.State ι ρ} {k : Option ι} {ok : Bool}
    (h : EventLoop.removalStep b k ok = some b') (hunclaimed : Unclaimed b k)
    (hmarking : ∀ r, b.removal k ≠ .marking r) (hstate : ∀ r, (b.obj r).state ≠ .delete) :
    (∀ r, (b'.obj r).state ≠ .delete) ∧ (∀ r, b'.removal k ≠ .marking r) ∧
      (b'.removal k = .idle → ∃ r, b.removal k = .deleting r) := by
  have hset : ∀ {r : ρ} {o : EventLoop.HandlerObject}, o.state ≠ .delete →
      ∀ x, (Function.update b.obj r o x).state ≠ .delete := by
    intro r o ho x
    by_cases hx : x = r
    · subst hx
      simpa using ho
    · simpa [Function.update_of_ne hx] using hstate x
  cases hpc : b.removal k with
  | idle => simp [EventLoop.removalStep, hpc] at h
  | marking r => exact absurd hpc (hmarking r)
  | entered r =>
      simp only [Unclaimed, hpc] at hunclaimed
      simp only [EventLoop.removalStep, hpc, hunclaimed, ne_eq, not_true_eq_false, if_false] at h
      cases h
      simpa [EventLoop.State.setRemoval] using hstate
  | checked r =>
      simp only [Unclaimed, hpc] at hunclaimed
      simp only [EventLoop.removalStep, hpc, hunclaimed, Bool.false_eq_true, if_false] at h
      cases h
      have hclaimed := hset (r := r) (o := { b.obj r with inUse := true }) (hstate r)
      simpa [EventLoop.State.setRemoval] using hclaimed
  | unlinking r =>
      simp only [EventLoop.removalStep, hpc] at h
      cases h
      simpa [EventLoop.State.setRemoval] using hstate
  | clearing r =>
      simp only [EventLoop.removalStep, hpc] at h
      cases h
      simpa [EventLoop.State.setRemoval] using hset (by simp)
  | deleting r =>
      simp only [EventLoop.removalStep, hpc] at h
      cases h
      refine ⟨fun x => ?_, by simp [EventLoop.State.setRemoval], fun _ => ⟨r, rfl⟩⟩
      unfold EventLoop.State.free
      split
      · exact hstate x
      · exact hstate x

theorem inv_proceed (hs : Inv s) {k : Option ι} {ok : Bool} {b : EventLoop.State ι ρ}
    (hex : EventLoop.Exclusive s.base (.proceed k ok)) (hunclaimed : Unclaimed s.base k)
    (h : EventLoop.step s.base (.proceed k ok) = some b) :
    Inv { removalUses s k with base := b } := by
  have hbase := EventLoop.inv_step (a := .proceed k ok) hs.base hex h
  have hproceeded := EventLoop.RemovalEffect.proceeded h
  rcases unclaimed_proceed h hunclaimed (hs.marking k) hs.state with ⟨hstate, hmarking, hidle⟩
  have huses : removalUses s k = s := by
    cases hpc : s.base.removal k with
    | unlinking r =>
        have hr := hs.base.removal k r (by rw [hpc]; rfl)
        simp only [removalUses, hpc]
        exact access_of_object (hs.alive r hr).2.1
    | _ => simp [removalUses, hpc]
  have hlives : ∀ r, b.alive r = true → s.base.alive r = true := by
    intro r hr
    by_contra hne
    have hdead := hproceeded.alive r (by simpa using hne)
    simp [hr] at hdead
  rw [huses]
  refine
    { safe := hs.safe
      base := hbase
      state := hstate
      stage := by simpa [hproceeded.stage] using hs.stage
      marking := fun j x => ?_
      copied := hs.copied
      session := fun j x hx => ?_
      alive := fun x hx => hs.alive x (hlives x hx)
      returned := fun j x hj hjidle => ?_
      gone := fun x hborn hx hsession => ?_
      unborn := fun x hx => ⟨hproceeded.alive x (hs.unborn x hx).1, (hs.unborn x hx).2⟩ }
  · by_cases hjk : j = k
    · exact hjk ▸ hmarking x
    · exact hproceeded.others j hjk ▸ hs.marking j x
  · by_cases hjk : j = k
    · subst hjk
      rcases hproceeded.item with hnone | hsame
      · cases hnone.symm.trans hx
      · exact hs.session j x (hsame ▸ hx)
    · exact hs.session j x (hproceeded.others j hjk ▸ hx)
  · by_cases hjk : j = k
    · subst hjk
      -- `RemoveEventHandler` returns with the handler deleted, which nobody else has in hand.
      rcases hidle hjidle with ⟨r, hpc⟩
      have hr : s.session j = some r := hs.session j r (by rw [hpc]; rfl)
      have hxr : x = r := Option.some.inj (hj.symm.trans hr)
      subst hxr
      have halive : s.base.alive x = true := hs.base.removal j x (by rw [hpc]; rfl)
      have hother : ∀ i, i ≠ j → (s.base.removal i).item ≠ some x := by
        simp only [EventLoop.Exclusive, hpc] at hex
        exact hex.1
      refine ⟨(EventLoop.RemovalEffect.dead_of_deleting hs.base hpc h).1, (hs.alive x halive).2.1,
        (hs.alive x halive).2.2, fun i hi => ?_⟩
      by_contra hij
      rcases hs.item_or_idle hi with hitem | hiidle
      · exact hother i hij hitem
      · have hdead := (hs.returned i x hi hiidle).1
        simp [halive] at hdead
    · rcases hs.returned j x hj (hproceeded.others j hjk ▸ hjidle) with ⟨hdead, hrest⟩
      exact ⟨hproceeded.alive x hdead, hrest⟩
  · refine hs.gone x hborn ?_ hsession
    rw [← hx]
    exact (alive_proceed h fun hitem => hsession k (hs.session k x hitem)).symm

/-! ## EventObjects -/

theorem inv_deleteObject (hs : Inv s) {k : Option ι} {r : ρ} (hk : s.session k = some r)
    (hidle : s.base.removal k = .idle) :
    Inv { s.delete r with session := Function.update s.session k none } := by
  rcases hs.returned k r hk hidle with ⟨hdead, hobject, hdeletes, honly⟩
  have hwatched : s.base.watched r = false := by
    by_contra hne
    have halive := hs.base.watched r (by simpa using hne)
    simp [hdead] at halive
  have hborn : s.born r = true := by
    by_contra hne
    exact (hs.unborn r (by simpa using hne)).2.2 k hk
  refine
    { safe := by simp [State.delete, hobject, hwatched, hs.safe]
      base := hs.base
      state := hs.state
      stage := hs.stage
      marking := hs.marking
      copied := hs.copied
      session := fun j x hx => ?_
      alive := fun x hx => ?_
      returned := fun j x hj hjidle => ?_
      gone := fun x hxborn hx hsession => ?_
      unborn := fun x hx => ?_ }
  · have hitem : (s.base.removal j).item = some x := hx
    have hjk : j ≠ k := by
      rintro rfl
      simp [hidle, EventLoop.Removal.item] at hitem
    simpa [Function.update_of_ne hjk] using hs.session j x hitem
  · have halive : s.base.alive x = true := hx
    have hxr : x ≠ r := fun heq => by simp [heq, hdead] at halive
    simpa [State.delete, Function.update_of_ne hxr] using hs.alive x hx
  · have hjk : j ≠ k := by
      rintro rfl
      simp at hj
    simp only [Function.update_of_ne hjk] at hj
    have hxr : x ≠ r := fun heq => hjk (honly j (heq ▸ hj))
    rcases hs.returned j x hj hjidle with ⟨hxdead, hxobject, hxdeletes, hxonly⟩
    refine ⟨hxdead, by simpa [State.delete, Function.update_of_ne hxr] using hxobject,
      by simpa [State.delete, Function.update_of_ne hxr] using hxdeletes, fun i hi => ?_⟩
    by_cases hik : i = k
    · subst hik
      simp at hi
    · exact hxonly i (by simpa [Function.update_of_ne hik] using hi)
  · by_cases hxr : x = r
    · subst hxr
      simp [State.delete, hdeletes]
    · simp only [State.delete, Function.update_of_ne hxr]
      refine hs.gone x hxborn hx fun j hj => ?_
      by_cases hjk : j = k
      · subst hjk
        exact hxr (Option.some.inj (hj.symm.trans hk))
      · exact hsession j (by simpa [Function.update_of_ne hjk] using hj)
  · have hxr : x ≠ r := fun heq => by simp [State.delete, heq, hborn] at hx
    refine ⟨(hs.unborn x hx).1, ?_, fun j hj => ?_⟩
    · simpa [State.delete, Function.update_of_ne hxr] using (hs.unborn x hx).2.1
    · by_cases hjk : j = k
      · subst hjk
        simp at hj
      · exact (hs.unborn x hx).2.2 j (by simpa [Function.update_of_ne hjk] using hj)

omit [DecidableEq ι] in
/-- A new handler object. -/
theorem inv_register {b : EventLoop.State ι ρ} (hb : EventLoop.Inv b) {r : ρ}
    (hr : b.alive r = false) (type : EventTypes) :
    EventLoop.Inv { b with
      obj := Function.update b.obj r ⟨type, .init, false⟩
      alive := Function.update b.alive r true
      watched := Function.update b.watched r true } := by
  have hlives : ∀ x, b.alive x = true → Function.update b.alive r true x = true := by
    intro x hx
    by_cases hxr : x = r
    · simp [hxr]
    · rwa [Function.update_of_ne hxr]
  refine ⟨hb.violations, fun x hx => hlives x (hb.stage x hx),
    fun k x hx => hlives x (hb.removal k x hx), fun x hx => ?_, fun k x hx => ?_⟩
  · by_cases hxr : x = r
    · simp [hxr]
    · simp only [Function.update_of_ne hxr] at hx ⊢
      exact hb.watched x hx
  · have hitem : (b.removal k).item = some x := by
      cases hpc : b.removal k with
      | clearing y => simpa [hpc, EventLoop.Removal.unlinked, EventLoop.Removal.item] using hx
      | deleting y => simpa [hpc, EventLoop.Removal.unlinked, EventLoop.Removal.item] using hx
      | _ => simp [hpc, EventLoop.Removal.unlinked] at hx
    have hxr : x ≠ r := fun heq => by
      have halive := hb.removal k x hitem
      simp [heq, hr] at halive
    simpa [Function.update_of_ne hxr] using hb.unlinked k x hx

omit [DecidableEq ι] in
theorem inv_add (hs : Inv s) {r : ρ} (hr : s.born r = false) (type : EventTypes)
    (allocated ok : Bool) : Inv (addFdHandler s r type allocated ok) := by
  rcases hs.unborn r hr with ⟨hdead, hdeletes, hsession⟩
  have hwatched : s.base.watched r = false := by
    by_contra hne
    have halive := hs.base.watched r (by simpa using hne)
    simp [hdead] at halive
  have hborn : ∀ x, x ≠ r → Function.update s.born r true x = s.born x :=
    fun x hx => Function.update_of_ne hx _ _
  unfold addFdHandler
  simp only
  split
  · -- The registration fails.
    refine
      { safe := by simp [State.delete, hwatched, hs.safe]
        base := hs.base
        state := hs.state
        stage := hs.stage
        marking := hs.marking
        copied := hs.copied
        session := hs.session
        alive := fun x hx => ?_
        returned := fun k x hk hidle => ?_
        gone := fun x hxborn hx hxsession => ?_
        unborn := fun x hx => ?_ }
    · have halive : s.base.alive x = true := hx
      have hxr : x ≠ r := fun heq => by simp [heq, hdead] at halive
      simpa [State.delete, Function.update_of_ne hxr] using hs.alive x halive
    · have hxr : x ≠ r := fun heq => hsession k (heq ▸ hk)
      simpa [State.delete, Function.update_of_ne hxr] using hs.returned k x hk hidle
    · by_cases hxr : x = r
      · subst hxr
        simp [State.delete, hdeletes]
      · simp only [State.delete, Function.update_of_ne hxr] at hxborn ⊢
        exact hs.gone x hxborn hx hxsession
    · have hxr : x ≠ r := fun heq => by simp [State.delete, heq] at hx
      simp only [State.delete, Function.update_of_ne hxr] at hx ⊢
      exact hs.unborn x hx
  · refine
      { safe := hs.safe
        base := inv_register hs.base hdead type
        state := fun x => ?_
        stage := hs.stage
        marking := hs.marking
        copied := hs.copied
        session := hs.session
        alive := fun x hx => ?_
        returned := fun k x hk hidle => ?_
        gone := fun x hxborn hx hxsession => ?_
        unborn := fun x hx => ?_ }
    · by_cases hxr : x = r
      · simp [hxr]
      · simpa [Function.update_of_ne hxr] using hs.state x
    · by_cases hxr : x = r
      · subst hxr
        simp [hdeletes]
      · simp only [Function.update_of_ne hxr] at hx ⊢
        exact hs.alive x hx
    · have hxr : x ≠ r := fun heq => hsession k (heq ▸ hk)
      simpa [Function.update_of_ne hxr] using hs.returned k x hk hidle
    · have hxr : x ≠ r := fun heq => by simp [heq] at hx
      simp only [Function.update_of_ne hxr] at hxborn hx
      exact hs.gone x hxborn hx hxsession
    · have hxr : x ≠ r := fun heq => by simp [heq] at hx
      simp only [Function.update_of_ne hxr] at hx ⊢
      exact hs.unborn x hx

/-! ## Runs -/

theorem inv_step {s' : State ι ρ} {a : Act ι ρ} (hs : Inv s) (hsound : Sound s a)
    (h : step s a = some s') : Inv s' := by
  cases a with
  | deliver batch =>
      rcases Option.map_eq_some_iff.1 h with ⟨b, hb, rfl⟩
      have hbase := EventLoop.inv_step (a := .deliver batch) hs.base trivial hb
      simp only [EventLoop.step] at hb
      split at hb
      · cases hb
        exact inv_rebase hs hbase hs.state rfl rfl rfl
      · cases hb
  | loop =>
      simp only [step] at h
      split_ifs at h
      rcases Option.map_eq_some_iff.1 h with ⟨b, hb, rfl⟩
      exact inv_loop hs hb
  | handlerReturns opt =>
      simp only [step] at h
      split_ifs at h
      rcases Option.map_eq_some_iff.1 h with ⟨b, hb, rfl⟩
      have hbase := EventLoop.inv_step (a := .handlerReturns opt) hs.base trivial hb
      cases (show opt = .renew from hsound)
      simp only [EventLoop.step] at hb
      split at hb
      · split at hb
        · rename_i hopt
          cases hopt
        · cases hb
          exact inv_rebase hs hbase hs.state rfl rfl rfl
        · cases hb
      · cases hb
  | proceed k ok =>
      rcases Option.map_eq_some_iff.1 h with ⟨b, hb, rfl⟩
      exact inv_proceed hs hsound.1 hsound.2 hb
  | add r type allocated ok =>
      simp only [step] at h
      split_ifs at h with hr
      cases h
      exact inv_add hs (by simpa using hr) type allocated ok
  | removeFd k r =>
      simp only [step] at h
      split_ifs at h with hk
      rcases Option.map_eq_some_iff.1 h with ⟨b, hb, rfl⟩
      exact inv_removeFd hs hk.1 hsound hb
  | deleteObject k =>
      simp only [step] at h
      split at h
      · rename_i r hk hidle
        cases h
        exact inv_deleteObject hs hk hidle
      · cases h

/-- In every state of every run in which callbacks return `RENEW` and each handler is removed once,
while nobody else has it in hand, every `EventObject` is deleted exactly once, behind its last use and
out of epoll. -/
theorem fd_handlers_owned (as : List (Act ι ρ)) (s : State ι ρ)
    (hsound : Run.Along step Sound .start as) (hexec : Run.exec step .start as = some s) :
    Correct s :=
  (Run.exec_invariant (fun _ _ _ => inv_step) inv_start hsound hexec).correct

end Preservation

/-! ## Fixed runs -/

open EventLoop (readable)

/-- A callback that removes its own handler: the loop goes on with the deleted `EventObject`.  A
callback that returns `CANCEL`: nobody deletes it. -/
theorem removed_in_callback :
    (∃ s, Run.exec step (.start : State Unit Nat)
        [.add 0 readable true true, .deliver [.handler 0 readable], .loop, .loop, .loop,
          .removeFd none 0, .proceed none true, .proceed none true, .proceed none true,
          .deleteObject none, .handlerReturns .renew, .loop, .loop, .loop, .loop,
          .proceed none true, .proceed none true, .proceed none true, .proceed none true, .loop] =
        some s ∧ s.violations = [.deletedRegistered 0, .usedDeleted 0, .usedDeleted 0] ∧
      ¬ Correct s) ∧
    ∃ s, Run.exec step (.start : State Unit Nat)
        [.add 0 readable true true, .deliver [.handler 0 readable], .loop, .loop, .loop,
          .handlerReturns .cancel, .loop, .loop, .loop, .proceed none true, .proceed none true,
          .proceed none true, .proceed none true, .loop, .loop, .loop] = some s ∧
      s.base.stage = .waiting ∧ s.deletes 0 = 0 ∧ ¬ Correct s :=
  ⟨⟨_, rfl, rfl, fun h => by cases h.safe⟩,
    ⟨_, rfl, rfl, rfl, fun h => absurd (h.gone 0 rfl rfl (fun _ => nofun) nofun) (by decide)⟩⟩

/-- One handler removes another from its callback, a third is removed from outside, and a fourth
cannot be registered. -/
def removals : List (Act Unit Nat) :=
  [.add 0 readable true true, .add 1 readable true true, .add 2 readable true true,
    .add 3 readable true false, .deliver [.handler 0 readable], .loop, .loop, .loop,
    .removeFd none 1, .removeFd (some ()) 2, .proceed none true, .proceed (some ()) true,
    .proceed none true, .proceed none true, .proceed none true, .proceed none true,
    .deleteObject none, .handlerReturns .renew, .proceed (some ()) true, .proceed (some ()) true,
    .proceed (some ()) true, .proceed (some ()) true, .loop, .loop, .loop, .deleteObject (some ())]

theorem removals_owned :
    ∃ s, Run.exec step .start removals = some s ∧ s.base.stage = .waiting ∧ Correct s :=
  ⟨_, rfl, rfl, fd_handlers_owned removals _ (by decide) rfl⟩

end FdHandler
end Capi
end Beyond
