import Beyond.EventLoop.Handlers

/-!
# Whether a removed handler is gone

`RemoveEventHandler` deletes a handler object itself, unless it finds the object in use; then it only
sets the state `DELETE` and leaves the rest to `WaitEpoll`.  The loop tests the state behind the event
handler and clears `in_use` in two steps.  This module follows one call of `RemoveEventHandler` for
each handler until it has returned 0, and what the loop does with the handler after that.
-/

namespace Beyond
namespace EventLoop
namespace RemovalEffect

variable {ι ρ : Type*}

/-! ## State -/

structure State (ι ρ : Type*) where
  base : EventLoop.State ι ρ
  /-- `RemoveEventHandler` was called for it. -/
  called : ρ → Bool
  /-- The call has returned 0. -/
  gone : ρ → Bool
  /-- The handler functions that were started after that. -/
  late : List ρ

/-- The removal on the thread is a call of `RemoveEventHandler`, not the one that the loop makes. -/
def isPublic (b : EventLoop.State ι ρ) (k : Option ι) : Bool := k.isSome || b.stage.inCallback

/-- What a call that returns 0 with its next step has removed. -/
def returning : Removal ρ → Option ρ
  | .marking r => some r
  | .deleting r => some r
  | _ => none

section Steps

variable [DecidableEq ι] [DecidableEq ρ]

/-- What a step of the loop or of a removal means for the calls. -/
def State.follow (s : State ι ρ) (a : Act ι ρ) (b' : EventLoop.State ι ρ) : State ι ρ :=
  match a with
  | .remove _ r => { s with base := b', called := Function.update s.called r true }
  | .proceed k _ =>
      match isPublic s.base k, returning (s.base.removal k) with
      | true, some r => { s with base := b', gone := Function.update s.gone r true }
      | _, _ => { s with base := b' }
  | .loop =>
      match s.base.stage with
      | .claimed r _ => { s with base := b', late := if s.gone r then s.late ++ [r] else s.late }
      | _ => { s with base := b' }
  | _ => { s with base := b' }

/-- `RemoveEventHandler` is called once for each handler. -/
def State.repeats (s : State ι ρ) : Act ι ρ → Bool
  | .remove _ r => s.called r
  | _ => false

def step (s : State ι ρ) (a : Act ι ρ) : Option (State ι ρ) :=
  if s.repeats a then none else (EventLoop.step s.base a).map (s.follow a)

/-- Any set of registered handlers. -/
def State.start (registered : ρ → Bool) (type : ρ → EventTypes) : State ι ρ :=
  { base := .start registered type
    called := fun _ => false
    gone := fun _ => false
    late := [] }

end Steps

/-! ## The property -/

/-- The descriptor is unregistered and the object deleted. -/
def Dead (b : EventLoop.State ι ρ) (r : ρ) : Prop := b.alive r = false ∧ b.watched r = false

/-- What a removal deletes when it goes on. -/
def deletes : Removal ρ → Option ρ
  | .checked r => some r
  | .unlinking r => some r
  | .clearing r => some r
  | .deleting r => some r
  | _ => none

/-- The loop has started the handler and not yet tested whether it is to be removed, or it removes
the handler anyway. -/
def Awaited (b : EventLoop.State ι ρ) (r : ρ) : Prop :=
  match b.stage with
  | .calling x _ => x = r
  | .returned x _ => x = r
  | .cancelling x _ => x = r
  | .copying x _ => x = r
  | .releasing x _ => x = r
  | .removing _ => deletes (b.removal none) = some r
  | _ => False

/-- What is asked of every state. -/
structure TakesEffect (s : State ι ρ) : Prop where
  /-- No handler function was started after its removal. -/
  never : s.late = []
  /-- What was removed is gone, or the loop has it in hand. -/
  effective : ∀ r, s.gone r = true → Dead s.base r ∨ Awaited s.base r
  /-- At the end of a round everything that was removed is gone. -/
  round : s.base.stage = .waiting → ∀ r, s.gone r = true → Dead s.base r

/-- A call that has found the object in use sets `DELETE` while the loop will still see it.  Objects
are deleted as `Exclusive` demands. -/
def Prompt (s : State ι ρ) (a : Act ι ρ) : Prop :=
  Exclusive s.base a ∧
    match a with
    | .proceed k _ => ∀ r, s.base.removal k = .marking r → isPublic s.base k = true →
        Awaited s.base r
    | _ => True

instance Awaited.decidable [DecidableEq ρ] (b : EventLoop.State ι ρ) (r : ρ) :
    Decidable (Awaited b r) :=
  match h : b.stage with
  | .calling x _ | .returned x _ | .cancelling x _ | .copying x _ | .releasing x _ =>
      decidable_of_iff (x = r) (by simp [Awaited, h])
  | .removing _ => decidable_of_iff (deletes (b.removal none) = some r) (by simp [Awaited, h])
  | .waiting | .batch _ | .claim _ _ | .claimed _ _ | .cancelled _ | .renewing _ _ =>
      isFalse (by simp [Awaited, h])

instance Prompt.decidable [Fintype ι] [DecidableEq ι] [DecidableEq ρ] (s : State ι ρ) :
    ∀ a, Decidable (Prompt s a)
  | .proceed k ok =>
      match h : s.base.removal k with
      | .marking r =>
          decidable_of_iff (Exclusive s.base (.proceed k ok) ∧
            (isPublic s.base k = true → Awaited s.base r)) (by simp [Prompt, h])
      | .idle | .entered _ | .checked _ | .unlinking _ | .clearing _ | .deleting _ =>
          decidable_of_iff (Exclusive s.base (.proceed k ok)) (by simp [Prompt, h])
  | .deliver batch => decidable_of_iff (Exclusive s.base (.deliver batch)) (by simp [Prompt])
  | .loop => decidable_of_iff (Exclusive s.base .loop) (by simp [Prompt])
  | .handlerReturns opt => decidable_of_iff (Exclusive s.base (.handlerReturns opt)) (by simp [Prompt])
  | .remove k r => decidable_of_iff (Exclusive s.base (.remove k r)) (by simp [Prompt])

/-! ## The invariant -/

/-- What the call on the thread removes. -/
def publicItem (b : EventLoop.State ι ρ) (k : Option ι) : Option ρ :=
  if isPublic b k then (b.removal k).item else none

/-- The loop will find the request, or it removes the object anyway. -/
def Handled (b : EventLoop.State ι ρ) (r : ρ) : Prop :=
  match b.stage with
  | .calling x _ => x = r ∧ (b.obj r).state = .delete
  | .returned x _ => x = r ∧ (b.obj r).state = .delete
  | .cancelling x _ => x = r
  | .copying x _ => x = r
  | .releasing x _ => x = r
  | .removing _ => deletes (b.removal none) = some r ∧
      (b.removal none = .checked r → (b.obj r).inUse = false)
  | _ => False

/-- A removal behind its exchange of `in_use`. -/
def holds : Removal ρ → Option ρ
  | .unlinking r => some r
  | .clearing r => some r
  | .deleting r => some r
  | _ => none

/-- Beside the callbacks, the thread of the loop removes only what the loop itself removes. -/
def Quiet (b : EventLoop.State ι ρ) : Prop :=
  b.stage.inCallback = true ∨ b.removal none = .idle ∨
    ∃ rest, b.stage = .removing rest ∧ ∀ x, b.removal none ≠ .entered x

structure Inv (s : State ι ρ) : Prop where
  base : EventLoop.Inv s.base
  quiet : Quiet s.base
  late : s.late = []
  called : ∀ r, s.gone r = true → s.called r = true
  pending : ∀ k r, publicItem s.base k = some r → s.called r = true ∧ s.gone r = false
  single : ∀ j k r, publicItem s.base j = some r → publicItem s.base k = some r → j = k
  /-- The loop has cleared `in_use`, so only a call can have set it again. -/
  released : ∀ rest r, s.base.stage = .removing rest → s.base.removal none = .checked r →
    (s.base.obj r).inUse = false ∨ ∃ i, holds (s.base.removal (some i)) = some r
  effective : ∀ r, s.gone r = true → Dead s.base r ∨ Handled s.base r

theorem inv_start (registered : ρ → Bool) (type : ρ → EventTypes) :
    Inv (State.start registered type : State ι ρ) := by
  have hnone : ∀ k, publicItem (EventLoop.State.start registered type : EventLoop.State ι ρ) k =
      none := by
    intro k
    unfold publicItem
    split <;> rfl
  refine ⟨EventLoop.inv_start registered type, .inr (.inl rfl), rfl, fun r h => ?_, fun k r h => ?_,
    fun j k r h => ?_, fun rest r h => ?_, fun r h => ?_⟩
  · cases h
  · exact absurd ((hnone k).symm.trans h) nofun
  · exact absurd ((hnone j).symm.trans h) nofun
  · cases h
  · cases h

theorem awaited_of_handled {b : EventLoop.State ι ρ} {r : ρ} (h : Handled b r) : Awaited b r := by
  unfold Handled at h
  unfold Awaited
  split at h <;> simp_all

theorem Inv.takesEffect {s : State ι ρ} (hs : Inv s) : TakesEffect s := by
  refine ⟨hs.late, fun r hr => ?_, fun hstage r hr => ?_⟩
  · exact (hs.effective r hr).imp_right awaited_of_handled
  · rcases hs.effective r hr with hdead | hhandled
    · exact hdead
    · simp [Handled, hstage] at hhandled

theorem isPublic_of_stage {b b' : EventLoop.State ι ρ} (h : b'.stage = b.stage) (k : Option ι) :
    isPublic b' k = isPublic b k := by
  rw [isPublic, isPublic, h]

theorem item_of_returning {pc : Removal ρ} {r : ρ} (h : returning pc = some r) :
    pc.item = some r := by
  cases pc with
  | marking x => exact h
  | deleting x => exact h
  | _ => cases h

theorem item_of_holds {pc : Removal ρ} {r : ρ} (h : holds pc = some r) : pc.item = some r := by
  cases pc <;> simp_all [holds, Removal.item]

theorem dead_of_same {b b' : EventLoop.State ι ρ} (halive : b'.alive = b.alive)
    (hwatched : b'.watched = b.watched) {r : ρ} (h : Dead b r) : Dead b' r :=
  ⟨by rw [halive]; exact h.1, by rw [hwatched]; exact h.2⟩

/-- A step that neither calls nor finishes a removal. -/
theorem inv_rebase {s : State ι ρ} (hs : Inv s) {b' : EventLoop.State ι ρ}
    (hbase : EventLoop.Inv b') (hquiet : Quiet b')
    (hitems : ∀ k r, publicItem b' k = some r → publicItem s.base k = some r)
    (hreleased : ∀ rest r, b'.stage = .removing rest → b'.removal none = .checked r →
      (b'.obj r).inUse = false ∨ ∃ i, holds (b'.removal (some i)) = some r)
    (heffective : ∀ r, s.gone r = true → Dead b' r ∨ Handled b' r) :
    Inv { s with base := b' } :=
  ⟨hbase, hquiet, hs.late, hs.called, fun k r hk => hs.pending k r (hitems k r hk),
    fun j k r hj hk => hs.single j k r (hitems j r hj) (hitems k r hk), hreleased, heffective⟩

/-! ## What the steps of the loop and of the removals change -/

section Frames

variable (s : EventLoop.State ι ρ) (r : ρ)

@[simp] theorem touch_obj : (s.touch r).obj = s.obj := by
  unfold EventLoop.State.touch
  split <;> rfl

@[simp] theorem touch_alive : (s.touch r).alive = s.alive := by
  unfold EventLoop.State.touch
  split <;> rfl

@[simp] theorem touch_watched : (s.touch r).watched = s.watched := by
  unfold EventLoop.State.touch
  split <;> rfl

@[simp] theorem touch_stage : (s.touch r).stage = s.stage := by
  unfold EventLoop.State.touch
  split <;> rfl

@[simp] theorem touch_removal : (s.touch r).removal = s.removal := by
  unfold EventLoop.State.touch
  split <;> rfl

variable [DecidableEq ρ] (o : HandlerObject)

@[simp] theorem setObj_obj : (s.setObj r o).obj = Function.update s.obj r o := rfl

@[simp] theorem setObj_alive : (s.setObj r o).alive = s.alive := touch_alive s r

@[simp] theorem setObj_watched : (s.setObj r o).watched = s.watched := touch_watched s r

@[simp] theorem setObj_stage : (s.setObj r o).stage = s.stage := touch_stage s r

@[simp] theorem setObj_removal : (s.setObj r o).removal = s.removal := touch_removal s r

end Frames

/-- A step of a removal changes the object that it removes, and nobody else's place. -/
structure Proceeded (b b' : EventLoop.State ι ρ) (k : Option ι) : Prop where
  stage : b'.stage = b.stage
  others : ∀ j, j ≠ k → b'.removal j = b.removal j
  item : (b'.removal k).item = none ∨ (b'.removal k).item = (b.removal k).item
  entered : ∀ x, b'.removal k ≠ .entered x
  obj : ∀ x, (b.removal k).item ≠ some x → b'.obj x = b.obj x
  alive : ∀ x, b.alive x = false → b'.alive x = false
  watched : ∀ x, b.watched x = false → b'.watched x = false

theorem proceeded_setRemoval [DecidableEq ι] {b c : EventLoop.State ι ρ} {k : Option ι}
    {pc : Removal ρ} (hstage : c.stage = b.stage) (hremoval : c.removal = b.removal)
    (hitem : pc.item = none ∨ pc.item = (b.removal k).item) (hentered : ∀ x, pc ≠ .entered x)
    (hobj : ∀ x, (b.removal k).item ≠ some x → c.obj x = b.obj x)
    (halive : ∀ x, b.alive x = false → c.alive x = false)
    (hwatched : ∀ x, b.watched x = false → c.watched x = false) :
    Proceeded b (c.setRemoval k pc) k := by
  refine ⟨hstage, fun j hj => ?_, ?_, ?_, hobj, halive, hwatched⟩
  · simp [EventLoop.State.setRemoval, Function.update_of_ne hj, hremoval]
  · simpa [EventLoop.State.setRemoval] using hitem
  · simpa [EventLoop.State.setRemoval] using hentered

theorem update_obj_of_item {b : EventLoop.State ι ρ} [DecidableEq ρ] {k : Option ι} {r : ρ}
    (hitem : (b.removal k).item = some r) (o : HandlerObject) (x : ρ)
    (hx : (b.removal k).item ≠ some x) : Function.update b.obj r o x = b.obj x := by
  have hne : x ≠ r := fun heq => hx (by rw [heq, hitem])
  exact Function.update_of_ne hne _ _

section Calls

variable [DecidableEq ι]

/-- A call begins. -/
theorem publicItem_remove {b : EventLoop.State ι ρ} {k j : Option ι} {x r : ρ}
    (h : publicItem (b.setRemoval k (.entered x)) j = some r) :
    (j = k ∧ r = x) ∨ (j ≠ k ∧ publicItem b j = some r) := by
  by_cases hj : j = k
  · subst hj
    refine .inl ⟨rfl, ?_⟩
    unfold publicItem at h
    split at h
    · simpa [EventLoop.State.setRemoval, Removal.item, eq_comm] using h
    · cases h
  · refine .inr ⟨hj, ?_⟩
    simpa [publicItem, isPublic, EventLoop.State.setRemoval, Function.update_of_ne hj] using h

theorem removal_remove {b : EventLoop.State ι ρ} {k : Option ι} (x : ρ) (hk : k ≠ none) :
    (b.setRemoval k (.entered x)).removal none = b.removal none := by
  simp [EventLoop.State.setRemoval, Function.update_of_ne (Ne.symm hk)]

theorem quiet_remove {b : EventLoop.State ι ρ} {k : Option ι} (x : ρ)
    (hcallback : k = none → b.stage.inCallback = true) (hb : Quiet b) :
    Quiet (b.setRemoval k (.entered x)) := by
  by_cases hk : k = none
  · exact .inl (hcallback hk)
  · have hsame := removal_remove (b := b) x hk
    rcases hb with hcallback | hidle | ⟨rest, hremoving, hentered⟩
    · exact .inl hcallback
    · exact .inr (.inl (hsame.trans hidle))
    · exact .inr (.inr ⟨rest, hremoving, fun y => by rw [hsame]; exact hentered y⟩)

theorem handled_remove {b : EventLoop.State ι ρ} {k : Option ι} (x : ρ) {r : ρ}
    (hcallback : k = none → b.stage.inCallback = true) (hr : Handled b r) :
    Handled (b.setRemoval k (.entered x)) r := by
  cases hstage : b.stage with
  | removing rest =>
      have hk : k ≠ none := by
        intro heq
        have hinside := hcallback heq
        simp [hstage, Stage.inCallback] at hinside
      have hsame := removal_remove (b := b) x hk
      simp only [Handled, hstage] at hr
      simp only [Handled, show (b.setRemoval k (.entered x)).stage = b.stage from rfl, hstage, hsame]
      exact hr
  | calling y rest => simpa only [Handled, EventLoop.State.setRemoval, hstage] using hr
  | returned y rest => simpa only [Handled, EventLoop.State.setRemoval, hstage] using hr
  | cancelling y rest => simpa only [Handled, EventLoop.State.setRemoval, hstage] using hr
  | copying y rest => simpa only [Handled, EventLoop.State.setRemoval, hstage] using hr
  | releasing y rest => simpa only [Handled, EventLoop.State.setRemoval, hstage] using hr
  | _ => simp [Handled, hstage] at hr

end Calls

variable [DecidableEq ι] [DecidableEq ρ]

/-- A step of the loop leaves the epoll set and the removals alone, unless it starts one itself. -/
theorem loop_change {b b' : EventLoop.State ι ρ} (h : loopStep b = some b') :
    b'.alive = b.alive ∧ b'.watched = b.watched ∧
      ((b'.removal = b.removal ∧ ∀ rest, b'.stage ≠ .removing rest) ∨
        ∃ r rest, b.stage = .releasing r rest ∧ b'.stage = .removing rest ∧
          b'.removal = Function.update b.removal none (.checked r) ∧ (b'.obj r).inUse = false) := by
  cases hpc : b.stage with
  | releasing r rest =>
      simp only [loopStep, hpc] at h
      cases h
      exact ⟨by simp [EventLoop.State.goto, EventLoop.State.setObj, EventLoop.State.setRemoval],
        by simp [EventLoop.State.goto, EventLoop.State.setObj, EventLoop.State.setRemoval],
        .inr ⟨r, rest, rfl, rfl, by
          simp [EventLoop.State.goto, EventLoop.State.setObj, EventLoop.State.setRemoval],
          by simp [EventLoop.State.goto, EventLoop.State.setRemoval, EventLoop.State.setObj]⟩⟩
  | batch batch =>
      cases batch with
      | nil =>
          simp only [loopStep, hpc] at h
          cases h
          simp [EventLoop.State.goto]
      | cons e rest =>
          cases e with
          | signal =>
              simp only [loopStep, hpc] at h
              cases h
              simp [EventLoop.State.goto]
          | handler r events =>
              simp only [loopStep, hpc] at h
              repeat' split at h
              all_goals cases h
              all_goals simp [EventLoop.State.goto]
  | _ =>
      simp only [loopStep, hpc] at h
      all_goals repeat' split at h
      all_goals cases h
      all_goals simp [EventLoop.State.goto, EventLoop.State.setObj]

/-- The loop goes on with a handler that is to be removed. -/
theorem handled_loop {b b' : EventLoop.State ι ρ} {r : ρ} (hidle : b.removal none = .idle)
    (hr : Handled b r) (h : loopStep b = some b') : Handled b' r := by
  cases hpc : b.stage with
  | calling x rest => simp [loopStep, hpc] at h
  | returned x rest =>
      simp only [Handled, hpc] at hr
      simp only [loopStep, hpc, hr.1, hr.2, if_true] at h
      cases h
      exact rfl
  | cancelling x rest =>
      simp only [Handled, hpc] at hr
      simp only [loopStep, hpc] at h
      cases h
      exact hr
  | copying x rest =>
      simp only [Handled, hpc] at hr
      simp only [loopStep, hpc] at h
      cases h
      exact hr
  | releasing x rest =>
      simp only [Handled, hpc] at hr
      subst hr
      simp only [loopStep, hpc] at h
      cases h
      refine ⟨?_, fun _ => ?_⟩
      · simp [EventLoop.State.goto, EventLoop.State.setRemoval, deletes]
      · simp [EventLoop.State.goto, EventLoop.State.setRemoval, EventLoop.State.setObj]
  | removing rest =>
      simp only [Handled, hpc, hidle] at hr
      cases hr.1
  | _ => simp [Handled, hpc] at hr

theorem proceeded {b b' : EventLoop.State ι ρ} {k : Option ι} {ok : Bool}
    (h : removalStep b k ok = some b') : Proceeded b b' k := by
  cases hpc : b.removal k with
  | idle => simp [removalStep, hpc] at h
  | entered r =>
      simp only [removalStep, hpc] at h
      split at h
      · cases h
        exact proceeded_setRemoval (by simp) (by simp) (.inl rfl) (fun _ => by simp) (by simp)
          (by simp) (by simp)
      · cases h
        exact proceeded_setRemoval (by simp) (by simp) (.inr (by rw [hpc]; rfl)) (fun _ => by simp)
          (by simp) (by simp) (by simp)
  | checked r =>
      simp only [removalStep, hpc] at h
      split at h
      · cases h
        exact proceeded_setRemoval (by simp) (by simp) (.inr (by rw [hpc]; rfl)) (fun _ => by simp)
          (by simp) (by simp) (by simp)
      · cases h
        exact proceeded_setRemoval (by simp) (by simp) (.inr (by rw [hpc]; rfl)) (fun _ => by simp)
          (update_obj_of_item (by rw [hpc]; rfl) _) (by simp) (by simp)
  | marking r =>
      simp only [removalStep, hpc] at h
      cases h
      exact proceeded_setRemoval (by simp) (by simp) (.inl rfl) (fun _ => by simp)
        (update_obj_of_item (by rw [hpc]; rfl) _) (by simp) (by simp)
  | unlinking r =>
      simp only [removalStep, hpc] at h
      cases h
      refine proceeded_setRemoval (by simp) (by simp) (.inr (by rw [hpc]; rfl)) (fun _ => by simp)
        (by simp) (by simp) fun x hx => ?_
      by_cases hxr : x = r
      · subst hxr
        simp [hx]
      · simpa [Function.update_of_ne hxr] using hx
  | clearing r =>
      simp only [removalStep, hpc] at h
      cases h
      exact proceeded_setRemoval (by simp) (by simp) (.inr (by rw [hpc]; rfl)) (fun _ => by simp)
        (update_obj_of_item (by rw [hpc]; rfl) _) (by simp) (by simp)
  | deleting r =>
      simp only [removalStep, hpc] at h
      cases h
      unfold EventLoop.State.free
      split
      · refine proceeded_setRemoval rfl rfl (.inl rfl) (fun _ => by simp) (fun _ _ => rfl)
          (fun x hx => ?_) (fun _ hx => hx)
        by_cases hxr : x = r
        · subst hxr
          simp
        · simpa [Function.update_of_ne hxr] using hx
      · exact proceeded_setRemoval rfl rfl (.inl rfl) (fun _ => by simp) (fun _ _ => rfl)
          (fun _ hx => hx) (fun _ hx => hx)

/-- The object that is deleted is out of the epoll set by then. -/
theorem dead_of_deleting {b b' : EventLoop.State ι ρ} {k : Option ι} {ok : Bool} {r : ρ}
    (hb : EventLoop.Inv b) (hpc : b.removal k = .deleting r)
    (h : removalStep b k ok = some b') : Dead b' r := by
  have hwatched : b.watched r = false := hb.unlinked k r (by rw [hpc]; rfl)
  refine ⟨?_, (proceeded h).watched r hwatched⟩
  have halive : b.alive r = true := hb.removal k r (by rw [hpc]; rfl)
  simp only [removalStep, hpc, EventLoop.State.free, halive, if_true] at h
  cases h
  simp [EventLoop.State.setRemoval]

/-- A removal that found the flag clear goes on until the object is gone. -/
theorem deletes_proceed {b b' : EventLoop.State ι ρ} {k : Option ι} {ok : Bool} {r : ρ}
    (hb : EventLoop.Inv b) (hr : deletes (b.removal k) = some r)
    (hfree : b.removal k = .checked r → (b.obj r).inUse = false)
    (h : removalStep b k ok = some b') :
    Dead b' r ∨ (deletes (b'.removal k) = some r ∧ b'.removal k ≠ .checked r) := by
  cases hpc : b.removal k with
  | checked x =>
      rw [hpc] at hr
      cases hr
      simp only [removalStep, hpc, hfree hpc] at h
      cases h
      exact .inr (by simp [EventLoop.State.setRemoval, deletes])
  | unlinking x =>
      rw [hpc] at hr
      simp only [removalStep, hpc] at h
      cases h
      exact .inr (by simpa [EventLoop.State.setRemoval, deletes] using hr)
  | clearing x =>
      rw [hpc] at hr
      simp only [removalStep, hpc] at h
      cases h
      exact .inr (by simpa [EventLoop.State.setRemoval, deletes] using hr)
  | deleting x =>
      rw [hpc] at hr
      cases hr
      exact .inl (dead_of_deleting hb hpc h)
  | _ =>
      rw [hpc] at hr
      cases hr

/-- A removal that is not a call goes on with a handler that is to be removed until it is gone. -/
theorem handled_proceed {b b' : EventLoop.State ι ρ} {k : Option ι} {ok : Bool} {r : ρ}
    (hb : EventLoop.Inv b) (hquiet : Quiet b) (hpublic : ∀ j, publicItem b j ≠ some r)
    (hr : Handled b r) (h : removalStep b k ok = some b') : Dead b' r ∨ Handled b' r := by
  have hp := proceeded h
  have hcalls : isPublic b k = true → (b.removal k).item ≠ some r := by
    intro hk hitem
    exact hpublic k (by simp [publicItem, hk, hitem])
  cases hstage : b.stage with
  | calling x rest =>
      have hitem := hcalls (by simp [isPublic, hstage, Stage.inCallback])
      simp only [Handled, hstage] at hr
      exact .inr (by simpa [Handled, hp.stage, hstage, hp.obj r hitem] using hr)
  | returned x rest =>
      simp only [Handled, hstage] at hr
      have hitem : (b.removal k).item ≠ some r := by
        cases k with
        | some i => exact hcalls rfl
        | none =>
            -- Nothing runs on the thread of the loop.
            rcases hquiet with hcallback | hidle | ⟨rest', hremoving, -⟩
            · simp [hstage, Stage.inCallback] at hcallback
            · simp [hidle, Removal.item]
            · rw [hstage] at hremoving
              cases hremoving
      exact .inr (by simpa [Handled, hp.stage, hstage, hp.obj r hitem] using hr)
  | cancelling x rest =>
      simp only [Handled, hstage] at hr
      exact .inr (by simpa [Handled, hp.stage, hstage] using hr)
  | copying x rest =>
      simp only [Handled, hstage] at hr
      exact .inr (by simpa [Handled, hp.stage, hstage] using hr)
  | releasing x rest =>
      simp only [Handled, hstage] at hr
      exact .inr (by simpa [Handled, hp.stage, hstage] using hr)
  | removing rest =>
      simp only [Handled, hstage] at hr
      simp only [Handled, hp.stage, hstage]
      cases k with
      | some i =>
          rw [hp.others none (by simp), hp.obj r (hcalls rfl)]
          exact .inr hr
      | none =>
          exact (deletes_proceed hb hr.1 hr.2 h).imp_right fun hdeletes =>
            ⟨hdeletes.1, fun hchecked => absurd hchecked hdeletes.2⟩
  | _ => simp [Handled, hstage] at hr

/-! ## The parts of the invariant -/

theorem quiet_loop {b b' : EventLoop.State ι ρ} (hidle : b.removal none = .idle)
    (h : loopStep b = some b') : Quiet b' := by
  rcases (loop_change h).2.2 with ⟨hremoval, -⟩ | ⟨r, rest, -, hstage, hremoval, -⟩
  · exact .inr (.inl (by rw [hremoval, hidle]))
  · refine .inr (.inr ⟨rest, hstage, fun x => ?_⟩)
    simp [hremoval]

theorem quiet_proceed {b b' : EventLoop.State ι ρ} {k : Option ι} {ok : Bool} (hb : Quiet b)
    (h : removalStep b k ok = some b') : Quiet b' := by
  have hp := proceeded h
  rcases hb with hcallback | hidle | ⟨rest, hstage, hentered⟩
  · exact .inl (by rw [hp.stage]; exact hcallback)
  · cases k with
    | none => simp [removalStep, hidle] at h
    | some i => exact .inr (.inl (by rw [hp.others none (by simp)]; exact hidle))
  · refine .inr (.inr ⟨rest, by rw [hp.stage]; exact hstage, fun x => ?_⟩)
    cases k with
    | none => exact hp.entered x
    | some i => rw [hp.others none (by simp)]; exact hentered x

theorem publicItem_loop {b b' : EventLoop.State ι ρ} (hidle : b.removal none = .idle)
    (h : loopStep b = some b') (k : Option ι) : publicItem b' k = publicItem b k := by
  cases k with
  | none =>
      have hbefore : publicItem b none = none := by simp [publicItem, hidle, Removal.item]
      rcases (loop_change h).2.2 with ⟨hremoval, -⟩ | ⟨r, rest, -, hstage, -, -⟩
      · rw [hbefore]
        simp [publicItem, hremoval, hidle, Removal.item]
      · rw [hbefore]
        simp [publicItem, isPublic, hstage, Stage.inCallback]
  | some i =>
      rcases (loop_change h).2.2 with ⟨hremoval, -⟩ | ⟨r, rest, -, -, hremoval, -⟩
      · simp [publicItem, isPublic, hremoval]
      · simp [publicItem, isPublic, hremoval]

/-- A call goes on with what it removes, or it is over. -/
theorem publicItem_proceed {b b' : EventLoop.State ι ρ} {k : Option ι} {ok : Bool}
    (h : removalStep b k ok = some b') {j : Option ι} {r : ρ} (hj : publicItem b' j = some r) :
    publicItem b j = some r := by
  have hp := proceeded h
  unfold publicItem at hj ⊢
  rw [isPublic_of_stage hp.stage] at hj
  split at hj
  · rename_i hpublic
    rw [if_pos hpublic]
    by_cases hjk : j = k
    · subst hjk
      rcases hp.item with hnone | hsame
      · rw [hnone] at hj
        cases hj
      · rwa [hsame] at hj
    · rwa [hp.others j hjk] at hj
  · cases hj

/-- Only the public entry leads to the exchange. -/
theorem checked_of_entered {b b' : EventLoop.State ι ρ} {k : Option ι} {ok : Bool} {r : ρ}
    (h : removalStep b k ok = some b') (hchecked : b'.removal k = .checked r) :
    ∃ x, b.removal k = .entered x := by
  cases hpc : b.removal k with
  | entered x => exact ⟨x, rfl⟩
  | idle => simp [removalStep, hpc] at h
  | checked x =>
      simp only [removalStep, hpc] at h
      split at h
      · cases h
        simp [EventLoop.State.setRemoval] at hchecked
      · cases h
        simp [EventLoop.State.setRemoval] at hchecked
  | _ =>
      simp only [removalStep, hpc] at h
      cases h
      simp [EventLoop.State.setRemoval] at hchecked

/-- A removal has the object in hand from the exchange that found its flag clear up to the deletion;
outside of that it leaves the flag alone. -/
theorem holds_proceed {b b' : EventLoop.State ι ρ} {k : Option ι} {ok : Bool} {r : ρ}
    (hdeleting : b.removal k ≠ .deleting r) (h : removalStep b k ok = some b') :
    holds (b'.removal k) = some r ∨
      (holds (b.removal k) ≠ some r ∧ (b'.obj r).inUse = (b.obj r).inUse) := by
  by_cases hitem : (b.removal k).item = some r
  · cases hpc : b.removal k with
    | idle => simp [removalStep, hpc] at h
    | entered x =>
        simp only [removalStep, hpc] at h
        split at h
        · cases h
          refine .inr ⟨?_, by simp [EventLoop.State.setRemoval]⟩
          rintro ⟨⟩
        · cases h
          refine .inr ⟨?_, by simp [EventLoop.State.setRemoval]⟩
          rintro ⟨⟩
    | checked x =>
        rw [hpc] at hitem
        cases hitem
        simp only [removalStep, hpc] at h
        split at h
        · cases h
          refine .inr ⟨?_, by simp [EventLoop.State.setRemoval]⟩
          rintro ⟨⟩
        · cases h
          exact .inl (by simp [EventLoop.State.setRemoval, holds])
    | marking x =>
        rw [hpc] at hitem
        cases hitem
        simp only [removalStep, hpc] at h
        cases h
        refine .inr ⟨?_, by simp [EventLoop.State.setRemoval]⟩
        rintro ⟨⟩
    | unlinking x =>
        rw [hpc] at hitem
        simp only [removalStep, hpc] at h
        cases h
        exact .inl (by simpa [EventLoop.State.setRemoval, holds, Removal.item] using hitem)
    | clearing x =>
        rw [hpc] at hitem
        simp only [removalStep, hpc] at h
        cases h
        exact .inl (by simpa [EventLoop.State.setRemoval, holds, Removal.item] using hitem)
    | deleting x =>
        rw [hpc] at hitem
        cases hitem
        exact absurd hpc hdeleting
  · exact .inr ⟨fun hholds => hitem (item_of_holds hholds), by rw [(proceeded h).obj r hitem]⟩

/-- Behind the release of the object its flag is clear until a call takes it. -/
theorem released_proceed {b b' : EventLoop.State ι ρ} {k : Option ι} {ok : Bool} {r : ρ}
    (hquiet : Quiet b) (hex : Exclusive b (.proceed k ok))
    (hreleased : b.removal none = .checked r →
      (b.obj r).inUse = false ∨ ∃ i, holds (b.removal (some i)) = some r)
    {rest : List (Entry ρ)} (hstage : b.stage = .removing rest)
    (h : removalStep b k ok = some b') (hchecked : b'.removal none = .checked r) :
    (b'.obj r).inUse = false ∨ ∃ i, holds (b'.removal (some i)) = some r := by
  have hp := proceeded h
  cases k with
  | none =>
      -- What the loop removes begins at the exchange, which is behind it now.
      exfalso
      rcases checked_of_entered h hchecked with ⟨x, hx⟩
      rcases hquiet with hcallback | hidle | ⟨_, _, hentered⟩
      · simp [hstage, Stage.inCallback] at hcallback
      · rw [hx] at hidle
        cases hidle
      · exact hentered x hx
  | some i =>
      have hbefore : b.removal none = .checked r := by rw [← hp.others none nofun]; exact hchecked
      -- The loop has it, so the call on the other thread does not delete it.
      have hdeleting : b.removal (some i) ≠ .deleting r := by
        intro hpc
        simp only [Exclusive, hpc] at hex
        exact absurd (by rw [hbefore]; rfl) (hex.1 none nofun)
      rcases holds_proceed hdeleting h with hholds | ⟨hnot, hsame⟩
      · exact .inr ⟨i, hholds⟩
      · rw [hsame]
        refine (hreleased hbefore).imp_right fun ⟨j, hj⟩ => ⟨j, ?_⟩
        have hji : some j ≠ some i := fun heq => hnot (heq ▸ hj)
        rw [hp.others (some j) hji]
        exact hj

/-! ## Steps -/

theorem inv_deliver {s : State ι ρ} {b' : EventLoop.State ι ρ} {batch : List (Entry ρ)} (hs : Inv s)
    (h : EventLoop.step s.base (.deliver batch) = some b') : Inv { s with base := b' } := by
  have hbase := EventLoop.inv_step (a := .deliver batch) hs.base trivial h
  simp only [EventLoop.step] at h
  split at h
  · rename_i hdeliver
    cases h
    have hidle : s.base.removal none = .idle := by
      rcases hs.quiet with hcallback | hidle | ⟨rest, hremoving, -⟩
      · simp [hdeliver.1, Stage.inCallback] at hcallback
      · exact hidle
      · simp [hdeliver.1] at hremoving
    refine inv_rebase hs hbase (.inr (.inl hidle)) (fun k r hk => ?_) nofun fun r hr => ?_
    · cases k with
      | none => simp [publicItem, isPublic, EventLoop.State.goto, Stage.inCallback] at hk
      | some i => exact hk
    · rcases hs.effective r hr with hdead | hhandled
      · exact .inl hdead
      · simp [Handled, hdeliver.1] at hhandled
  · cases h

theorem inv_handlerReturns {s : State ι ρ} {b' : EventLoop.State ι ρ} {opt : HandlerReturn}
    (hs : Inv s) (h : EventLoop.step s.base (.handlerReturns opt) = some b') :
    Inv { s with base := b' } := by
  have hbase := EventLoop.inv_step (a := .handlerReturns opt) hs.base trivial h
  simp only [EventLoop.step] at h
  split at h
  · rename_i hidle
    have hitems : ∀ stage k r, publicItem (s.base.goto stage) k = some r →
        publicItem s.base k = some r := by
      intro stage k r hk
      cases k with
      | none => simp [publicItem, EventLoop.State.goto, hidle, Removal.item] at hk
      | some i => exact hk
    split at h
    · rename_i x rest hstage
      cases h
      refine inv_rebase hs hbase (.inr (.inl hidle)) (hitems _) (fun _ _ h => by cases h) fun r hr => ?_
      refine (hs.effective r hr).imp_right fun hhandled => ?_
      simp only [Handled, hstage] at hhandled
      exact hhandled.1
    · rename_i x rest hstage
      cases h
      refine inv_rebase hs hbase (.inr (.inl hidle)) (hitems _) (fun _ _ h => by cases h) fun r hr => ?_
      refine (hs.effective r hr).imp_right fun hhandled => ?_
      simp only [Handled, hstage] at hhandled
      exact hhandled
    · cases h
  · cases h

theorem inv_loop {s : State ι ρ} {b' : EventLoop.State ι ρ} (hs : Inv s)
    (h : EventLoop.step s.base .loop = some b') : Inv (s.follow .loop b') := by
  have hbase := EventLoop.inv_step (a := .loop) hs.base trivial h
  simp only [EventLoop.step] at h
  split at h
  · rename_i hidle
    have hchange := loop_change h
    have hrebased : Inv { s with base := b' } := by
      refine inv_rebase hs hbase (quiet_loop hidle h)
        (fun k r hk => (publicItem_loop hidle h k).symm.trans hk) (fun rest r hstage hchecked => ?_)
        fun r hr => ?_
      · rcases hchange.2.2 with ⟨-, hnot⟩ | ⟨x, rest', -, -, hremoval, hflag⟩
        · exact absurd hstage (hnot rest)
        · have hx : x = r := by simpa [hremoval] using hchecked
          subst hx
          exact .inl hflag
      · rcases hs.effective r hr with hdead | hhandled
        · exact .inl (dead_of_same hchange.1 hchange.2.1 hdead)
        · exact .inr (handled_loop hidle hhandled h)
    unfold State.follow
    dsimp only
    split
    · rename_i r rest hstage
      -- A handler that is gone has left the batch.
      have hfresh : s.gone r = false := by
        rw [← Bool.not_eq_true]
        intro hr
        rcases hs.effective r hr with hdead | hhandled
        · have halive := hs.base.stage r (by simp [hstage, Stage.items])
          rw [hdead.1] at halive
          cases halive
        · simp [Handled, hstage] at hhandled
      simpa [hfresh] using hrebased
    · exact hrebased
  · cases h

theorem inv_remove {s : State ι ρ} {b' : EventLoop.State ι ρ} {k : Option ι} {x : ρ} (hs : Inv s)
    (hex : Exclusive s.base (.remove k x)) (hcalled : s.called x = false)
    (h : EventLoop.step s.base (.remove k x) = some b') : Inv (s.follow (.remove k x) b') := by
  have hbase := EventLoop.inv_step hs.base hex h
  simp only [EventLoop.step] at h
  split at h
  · rename_i hfree
    cases h
    have hnone : ∀ j, publicItem s.base j ≠ some x := by
      intro j hj
      rw [(hs.pending j x hj).1] at hcalled
      cases hcalled
    have hgone : s.gone x = false := by
      rw [← Bool.not_eq_true]
      intro hgone
      rw [hs.called x hgone] at hcalled
      cases hcalled
    have hstill : ∀ r, s.called r = true → Function.update s.called x true r = true := by
      intro r hr
      by_cases hrx : r = x
      · subst hrx
        exact Function.update_self ..
      · rwa [Function.update_of_ne hrx]
    refine ⟨hbase, quiet_remove x hfree.2 hs.quiet, hs.late, fun r hr => hstill r (hs.called r hr),
      fun j r hj => ?_, fun i j r hi hj => ?_, fun rest r hstage hchecked => ?_,
      fun r hr => (hs.effective r hr).imp_right (handled_remove x hfree.2)⟩
    · rcases publicItem_remove hj with ⟨-, rfl⟩ | ⟨-, hj'⟩
      · exact ⟨Function.update_self .., hgone⟩
      · exact ⟨hstill r (hs.pending j r hj').1, (hs.pending j r hj').2⟩
    · rcases publicItem_remove hi with ⟨rfl, rfl⟩ | ⟨-, hi'⟩
      · rcases publicItem_remove hj with ⟨rfl, -⟩ | ⟨-, hj'⟩
        · rfl
        · exact absurd hj' (hnone j)
      · rcases publicItem_remove hj with ⟨rfl, rfl⟩ | ⟨-, hj'⟩
        · exact absurd hi' (hnone i)
        · exact hs.single i j r hi' hj'
    · have hk : k ≠ none := by
        intro heq
        have hinside := hfree.2 heq
        rw [show s.base.stage = .removing rest from hstage] at hinside
        cases hinside
      have hbefore : s.base.removal none = .checked r := (removal_remove x hk).symm.trans hchecked
      refine (hs.released rest r hstage hbefore).imp_right fun ⟨i, hi⟩ => ⟨i, ?_⟩
      have hik : some i ≠ k := by
        intro heq
        rw [heq, hfree.1] at hi
        cases hi
      simpa [State.follow, EventLoop.State.setRemoval, Function.update_of_ne hik] using hi
  · cases h

/-- A call that finds the object in use leaves the handler to the loop. -/
theorem handled_of_marking {s : State ι ρ} {b' : EventLoop.State ι ρ} {k : Option ι} {ok : Bool}
    {r : ρ} (hs : Inv s) (hpc : s.base.removal k = .marking r) (hpublic : isPublic s.base k = true)
    (hawaited : Awaited s.base r) (h : removalStep s.base k ok = some b') : Handled b' r := by
  have hp := proceeded h
  have hobj : b'.obj r = { s.base.obj r with state := .delete } := by
    simp only [removalStep, hpc] at h
    cases h
    simp [EventLoop.State.setRemoval]
  cases hstage : s.base.stage with
  | removing rest =>
      have hk : none ≠ k := by
        intro heq
        subst heq
        simp [isPublic, hstage, Stage.inCallback] at hpublic
      have hsame := hp.others none hk
      simp only [Awaited, hstage] at hawaited
      simp only [Handled, hp.stage, hstage, hsame, hobj]
      refine ⟨hawaited, fun hchecked => ?_⟩
      rcases hs.released rest r hstage hchecked with hfree | ⟨i, hi⟩
      · exact hfree
      · -- Only one call removes the handler, and this one does not hold it.
        have hitem : publicItem s.base (some i) = some r := by
          simp [publicItem, isPublic, item_of_holds hi]
        have hself : publicItem s.base k = some r := by
          simp [publicItem, hpublic, hpc, Removal.item]
        rw [hs.single (some i) k r hitem hself, hpc] at hi
        cases hi
  | calling x rest =>
      simp only [Awaited, hstage] at hawaited
      simpa [Handled, hp.stage, hstage, hobj] using hawaited
  | returned x rest =>
      simp only [Awaited, hstage] at hawaited
      simpa [Handled, hp.stage, hstage, hobj] using hawaited
  | cancelling x rest => simpa only [Awaited, Handled, hp.stage, hstage] using hawaited
  | copying x rest => simpa only [Awaited, Handled, hp.stage, hstage] using hawaited
  | releasing x rest => simpa only [Awaited, Handled, hp.stage, hstage] using hawaited
  | _ => simp [Awaited, hstage] at hawaited

theorem idle_of_returning {b b' : EventLoop.State ι ρ} {k : Option ι} {ok : Bool} {r : ρ}
    (hr : returning (b.removal k) = some r) (h : removalStep b k ok = some b') :
    b'.removal k = .idle := by
  cases hpc : b.removal k with
  | marking x =>
      simp only [removalStep, hpc] at h
      cases h
      simp [EventLoop.State.setRemoval]
  | deleting x =>
      simp only [removalStep, hpc] at h
      cases h
      simp [EventLoop.State.setRemoval]
  | _ =>
      rw [hpc] at hr
      cases hr

/-- A call that returns has removed the handler, or the loop will. -/
theorem handled_of_returning {s : State ι ρ} {b' : EventLoop.State ι ρ} {k : Option ι} {ok : Bool}
    {r : ρ} (hs : Inv s) (hprompt : Prompt s (.proceed k ok)) (hpublic : isPublic s.base k = true)
    (hr : returning (s.base.removal k) = some r) (h : removalStep s.base k ok = some b') :
    Dead b' r ∨ Handled b' r := by
  cases hpc : s.base.removal k with
  | marking x =>
      rw [hpc] at hr
      cases hr
      exact .inr (handled_of_marking hs hpc hpublic (hprompt.2 r hpc hpublic) h)
  | deleting x =>
      rw [hpc] at hr
      cases hr
      exact .inl (dead_of_deleting hs.base hpc h)
  | _ =>
      rw [hpc] at hr
      cases hr

/-- A removal goes on, whether it returns or not. -/
theorem inv_proceed_base {s : State ι ρ} {b' : EventLoop.State ι ρ} {k : Option ι} {ok : Bool}
    (hs : Inv s) (hex : Exclusive s.base (.proceed k ok)) (h : removalStep s.base k ok = some b') :
    Inv { s with base := b' } := by
  have hp := proceeded h
  have hbase : EventLoop.Inv b' := EventLoop.inv_step (a := .proceed k ok) hs.base hex h
  refine inv_rebase hs hbase (quiet_proceed hs.quiet h) (fun j r hj => publicItem_proceed h hj)
    (fun rest r hstage hchecked => ?_) fun r hr => ?_
  · rw [hp.stage] at hstage
    exact released_proceed hs.quiet hex (hs.released rest r hstage) hstage h hchecked
  · rcases hs.effective r hr with hdead | hhandled
    · exact .inl ⟨hp.alive r hdead.1, hp.watched r hdead.2⟩
    · refine handled_proceed hs.base hs.quiet (fun j hj => ?_) hhandled h
      rw [(hs.pending j r hj).2] at hr
      cases hr

theorem inv_proceed {s : State ι ρ} {b' : EventLoop.State ι ρ} {k : Option ι} {ok : Bool}
    (hs : Inv s) (hprompt : Prompt s (.proceed k ok))
    (h : EventLoop.step s.base (.proceed k ok) = some b') : Inv (s.follow (.proceed k ok) b') := by
  have hrebased := inv_proceed_base hs hprompt.1 h
  unfold State.follow
  dsimp only
  split
  · rename_i r hpublic hreturning
    have hself : publicItem s.base k = some r := by
      simp [publicItem, hpublic, item_of_returning hreturning]
    have hover : publicItem b' k = none := by
      simp [publicItem, idle_of_returning hreturning h, Removal.item]
    refine ⟨hrebased.base, hrebased.quiet, hs.late, fun x hx => ?_, fun j x hj => ?_,
      hrebased.single, hrebased.released, fun x hx => ?_⟩
    · by_cases hxr : x = r
      · subst hxr
        exact (hs.pending k x hself).1
      · exact hs.called x (by simpa [Function.update_of_ne hxr] using hx)
    · have hj' := publicItem_proceed h hj
      refine ⟨(hs.pending j x hj').1, ?_⟩
      have hxr : x ≠ r := by
        intro heq
        subst heq
        have hjk := hs.single j k x hj' hself
        subst hjk
        rw [hover] at hj
        cases hj
      simpa [Function.update_of_ne hxr] using (hs.pending j x hj').2
    · by_cases hxr : x = r
      · subst hxr
        exact handled_of_returning hs hprompt hpublic hreturning h
      · exact hrebased.effective x (by simpa [Function.update_of_ne hxr] using hx)
  · exact hrebased

theorem inv_step {s s' : State ι ρ} {a : Act ι ρ} (hs : Inv s) (hprompt : Prompt s a)
    (h : step s a = some s') : Inv s' := by
  unfold step at h
  split at h
  · cases h
  · rename_i hfirst
    rcases Option.map_eq_some_iff.1 h with ⟨b', hb, rfl⟩
    cases a with
    | deliver batch => exact inv_deliver hs hb
    | loop => exact inv_loop hs hb
    | handlerReturns opt => exact inv_handlerReturns hs hb
    | remove k x => exact inv_remove hs hprompt.1 (by simpa [State.repeats] using hfirst) hb
    | proceed k ok => exact inv_proceed hs hprompt hb

/-! ## Runs -/

/-- As long as the requests come in time, every removal takes effect, in every state of every run. -/
theorem removals_take_effect (registered : ρ → Bool) (type : ρ → EventTypes)
    (as : List (Act ι ρ)) (s : State ι ρ)
    (hprompt : Run.Along step Prompt (State.start registered type) as)
    (hexec : Run.exec step (State.start registered type) as = some s) : TakesEffect s :=
  (Run.exec_invariant (fun _ _ _ hs hG h => inv_step hs hG h) (inv_start registered type) hprompt
    hexec).takesEffect

/-! ## One handler -/

def oneHandler : State Unit Item := State.start (fun _ => true) fun _ => readable

/-- The loop has tested the state when the request is made, and clears `in_use` after that: the
handler stays registered, and its next event starts it again. -/
theorem request_lost :
    ∃ s, Run.exec step oneHandler
        [.deliver [.handler .first readable], .loop, .loop, .loop, .remove (some ()) .first,
          .proceed (some ()) true, .handlerReturns .renew, .loop, .proceed (some ()) true, .loop,
          .proceed (some ()) true, .loop, .deliver [.handler .first readable], .loop, .loop, .loop] =
        some s ∧ s.gone .first = true ∧ s.base.alive .first = true ∧ s.late = [.first] ∧
      ¬ TakesEffect s :=
  ⟨_, rfl, rfl, rfl, rfl, fun h => nomatch h.never⟩

theorem removesItself_gone :
    ∃ s, Run.exec step oneHandler removesItself = some s ∧ s.gone .first = true ∧ TakesEffect s := by
  have hprompt : Run.Along step Prompt oneHandler removesItself := by decide
  exact ⟨_, rfl, rfl,
    removals_take_effect (fun _ => true) (fun _ => readable) removesItself _ hprompt rfl⟩

end RemovalEffect
end EventLoop
end Beyond
