import Beyond.EventLoop.RemovalEffect

/-!
# The way through a batch

What `WaitEpoll` still has to do with the batch that `epoll_pwait` gave to it becomes less with every
step that it makes, and the handler objects whose event handlers it is still going to call are among
those of the batch.  A handler object that nobody removes, and whose event handler always returns
`RENEW`, stays registered.
-/

namespace Beyond
namespace EventLoop

variable {ι ρ : Type*}

/-! ## What is left of a batch -/

/-- More steps than the loop can make before it waits again, apart from those of a removal and of the
event handlers. -/
def Stage.left : Stage ρ → Nat
  | .waiting => 0
  | .batch rest => 11 * rest.length + 1
  | .cancelled rest => 11 * rest.length + 2
  | .removing rest => 11 * rest.length + 3
  | .releasing _ rest => 11 * rest.length + 4
  | .copying _ rest => 11 * rest.length + 5
  | .cancelling _ rest => 11 * rest.length + 6
  | .renewing _ rest => 11 * rest.length + 6
  | .returned _ rest => 11 * rest.length + 7
  | .calling _ rest => 11 * rest.length + 8
  | .claimed _ rest => 11 * rest.length + 9
  | .claim _ rest => 11 * rest.length + 10

/-- The objects whose event handlers are still to be called, or are running. -/
def Stage.uncalled : Stage ρ → List ρ
  | .waiting => []
  | .batch rest => pending rest
  | .claim r rest => r :: pending rest
  | .claimed r rest => r :: pending rest
  | .calling r rest => r :: pending rest
  | .returned _ rest => pending rest
  | .cancelling _ rest => pending rest
  | .copying _ rest => pending rest
  | .releasing _ rest => pending rest
  | .removing rest => pending rest
  | .cancelled rest => pending rest
  | .renewing _ rest => pending rest

theorem entry_of_pending {batch : List (Entry ρ)} {r : ρ} (h : r ∈ pending batch) :
    ∃ events, .handler r events ∈ batch := by
  induction batch with
  | nil => cases h
  | cons e rest ih =>
      cases e with
      | signal => cases h
      | handler x events =>
          unfold pending at h
          split at h
          · rcases List.mem_cons.1 h with rfl | h
            · exact ⟨events, List.mem_cons_self⟩
            · rcases ih h with ⟨events', hmem⟩
              exact ⟨events', List.mem_cons_of_mem _ hmem⟩
          · rcases ih h with ⟨events', hmem⟩
            exact ⟨events', List.mem_cons_of_mem _ hmem⟩

/-- The stage that a step of the loop leads to. -/
theorem loop_stage [DecidableEq ι] [DecidableEq ρ] {b b' : State ι ρ} (h : loopStep b = some b') :
    b'.stage.left < b.stage.left ∧ b'.stage.uncalled.Sublist b.stage.uncalled := by
  cases hpc : b.stage with
  | waiting => simp [loopStep, hpc] at h
  | calling r rest => simp [loopStep, hpc] at h
  | batch batch =>
      cases batch with
      | nil =>
          simp only [loopStep, hpc] at h
          cases h
          simp [State.goto, Stage.left, Stage.uncalled]
      | cons e rest =>
          cases e with
          | signal =>
              simp only [loopStep, hpc] at h
              cases h
              simp [State.goto, Stage.left, Stage.uncalled]
          | handler r events =>
              simp only [loopStep, hpc] at h
              -- An entry that is skipped was not pending, one that is looked at was.
              split at h
              · rename_i hany
                cases h
                exact ⟨by simp only [State.goto, Stage.left, List.length_cons]; omega,
                  by simp [State.goto, Stage.uncalled, pending, hany]⟩
              · rename_i hany
                split at h
                · cases h
                  exact ⟨by simp only [State.goto, Stage.left, List.length_cons]; omega,
                    by simp [State.goto, Stage.uncalled, pending, hany]⟩
                · cases h
                  exact ⟨by simp only [State.goto, Stage.left, List.length_cons]; omega,
                    by simp [State.goto, Stage.uncalled, pending, hany]⟩
  | claim r rest =>
      simp only [loopStep, hpc] at h
      split at h
      · cases h
        simp [State.goto, Stage.left, Stage.uncalled]
      · cases h
        simp [State.goto, Stage.left, Stage.uncalled]
  | returned r rest =>
      simp only [loopStep, hpc] at h
      split at h
      · cases h
        simp [State.goto, Stage.left, Stage.uncalled]
      · cases h
        simp [State.goto, Stage.left, Stage.uncalled]
  | _ =>
      simp only [loopStep, hpc] at h
      cases h
      simp [State.goto, Stage.left, Stage.uncalled]

/-- Only in the event handlers the loop depends on others. -/
theorem loopStep_enabled [DecidableEq ι] [DecidableEq ρ] {b : State ι ρ}
    (hwaiting : b.stage ≠ .waiting) (hcalling : ∀ r rest, b.stage ≠ .calling r rest) :
    ∃ b', loopStep b = some b' := by
  cases hpc : b.stage with
  | waiting => exact absurd hpc hwaiting
  | calling r rest => exact absurd hpc (hcalling r rest)
  | batch batch =>
      cases batch with
      | nil => exact ⟨_, by simp only [loopStep, hpc]; rfl⟩
      | cons e rest =>
          cases e with
          | signal => exact ⟨_, by simp only [loopStep, hpc]; rfl⟩
          | handler r events =>
              simp only [loopStep, hpc]
              repeat' split
              all_goals exact ⟨_, rfl⟩
  | _ =>
      simp only [loopStep, hpc]
      all_goals repeat' split
      all_goals exact ⟨_, rfl⟩

/-! ## A handler that nobody removes -/

/-- The object that the loop is about to remove. -/
def Stage.discards : Stage ρ → Option ρ
  | .cancelling r _ => some r
  | .copying r _ => some r
  | .releasing r _ => some r
  | _ => none

/-- The object is registered, and neither the loop nor another thread is removing it. -/
structure Lasting (b : State ι ρ) (r : ρ) : Prop where
  watched : b.watched r = true
  state : (b.obj r).state = .init
  stage : b.stage.discards ≠ some r
  removal : ∀ k, (b.removal k).item ≠ some r

theorem lasting_start (registered : ρ → Bool) (type : ρ → EventTypes) {r : ρ}
    (hr : registered r = true) : Lasting (State.start registered type : State ι ρ) r :=
  ⟨hr, rfl, nofun, nofun⟩

theorem setObj_state [DecidableEq ρ] {b : State ι ρ} {x : ρ} {o : HandlerObject} {r : ρ}
    (h : x = r → o.state = (b.obj r).state) : ((b.setObj x o).obj r).state = (b.obj r).state := by
  by_cases hx : r = x
  · subst hx
    simpa [State.setObj] using h rfl
  · simp [State.setObj, Function.update_of_ne hx]

variable [DecidableEq ι] [DecidableEq ρ]

/-- A step of the loop marks no object but the one that it removes, and it removes only what was
marked. -/
theorem loop_object {b b' : State ι ρ} (h : loopStep b = some b') (r : ρ) :
    ((b'.obj r).state = (b.obj r).state ∨ b.stage.discards = some r) ∧
      (b'.stage.discards = some r → b.stage.discards = some r ∨ (b.obj r).state = .delete) := by
  cases hpc : b.stage with
  | waiting => simp [loopStep, hpc] at h
  | calling x rest => simp [loopStep, hpc] at h
  | batch batch =>
      cases batch with
      | nil =>
          simp only [loopStep, hpc] at h
          cases h
          exact ⟨.inl rfl, fun hr => by cases hr⟩
      | cons e rest =>
          cases e with
          | signal =>
              simp only [loopStep, hpc] at h
              cases h
              exact ⟨.inl rfl, fun hr => by cases hr⟩
          | handler x events =>
              simp only [loopStep, hpc] at h
              repeat' split at h
              all_goals cases h
              all_goals exact ⟨.inl (by simp [State.goto]), fun hr => by cases hr⟩
  | claim x rest =>
      simp only [loopStep, hpc] at h
      split at h
      · cases h
        exact ⟨.inl (by simp [State.goto]), fun hr => by cases hr⟩
      · cases h
        exact ⟨.inl (setObj_state fun hx => by rw [hx]), fun hr => by cases hr⟩
  | returned x rest =>
      -- The one place where the loop looks for the mark.
      simp only [loopStep, hpc] at h
      split at h
      · rename_i hdelete
        cases h
        exact ⟨.inl (by simp [State.goto]), fun hr => .inr (Option.some.inj hr ▸ hdelete)⟩
      · cases h
        exact ⟨.inl (by simp [State.goto]), fun hr => by cases hr⟩
  | cancelling x rest =>
      simp only [loopStep, hpc] at h
      cases h
      refine ⟨?_, .inl⟩
      by_cases hx : x = r
      · exact .inr (congrArg some hx)
      · exact .inl (setObj_state fun heq => absurd heq hx)
  | copying x rest =>
      simp only [loopStep, hpc] at h
      cases h
      exact ⟨.inl (by simp [State.goto]), .inl⟩
  | releasing x rest =>
      simp only [loopStep, hpc] at h
      cases h
      exact ⟨.inl (setObj_state fun hx => by rw [hx]), fun hr => by cases hr⟩
  | renewing x rest =>
      simp only [loopStep, hpc] at h
      cases h
      exact ⟨.inl (setObj_state fun hx => by rw [hx]), fun hr => by cases hr⟩
  | _ =>
      simp only [loopStep, hpc] at h
      cases h
      exact ⟨.inl (by simp [State.goto]), fun hr => by cases hr⟩

theorem lasting_loop {b b' : State ι ρ} {r : ρ} (hr : Lasting b r) (h : loopStep b = some b') :
    Lasting b' r := by
  rcases RemovalEffect.loop_change h with ⟨-, hwatched, hremoval⟩
  rcases loop_object h r with ⟨hstate, hdiscards⟩
  refine ⟨by rw [hwatched]; exact hr.watched, ?_, fun hafter => ?_, ?_⟩
  · exact (hstate.resolve_right hr.stage).trans hr.state
  · rcases hdiscards hafter with hbefore | hdelete
    · exact hr.stage hbefore
    · rw [hr.state] at hdelete
      cases hdelete
  · intro k
    rcases hremoval with ⟨hsame, -⟩ | ⟨x, rest, hreleasing, -, hupdate, -⟩
    · rw [hsame]
      exact hr.removal k
    · -- It starts to remove what it had in hand.
      have hne : x ≠ r := fun heq => hr.stage (by rw [hreleasing, heq]; rfl)
      rw [hupdate]
      by_cases hk : k = none
      · subst hk
        simpa [Removal.item] using hne
      · rw [Function.update_of_ne hk]
        exact hr.removal k

/-- A removal unlinks no object but its own. -/
theorem watched_proceed {b b' : State ι ρ} {k : Option ι} {ok : Bool} {r : ρ}
    (hitem : (b.removal k).item ≠ some r) (h : removalStep b k ok = some b') :
    b'.watched r = b.watched r := by
  cases hpc : b.removal k with
  | unlinking x =>
      simp only [removalStep, hpc] at h
      cases h
      have hne : r ≠ x := fun heq => hitem (by rw [hpc, heq]; rfl)
      exact Function.update_of_ne hne _ _
  | deleting x =>
      simp only [removalStep, hpc] at h
      cases h
      unfold State.free
      split
      · rfl
      · rfl
  | _ =>
      simp only [removalStep, hpc] at h
      all_goals repeat' split at h
      all_goals cases h
      all_goals simp [State.setRemoval]

theorem lasting_step {b b' : State ι ρ} {a : Act ι ρ} {r : ρ} (hr : Lasting b r)
    (hremove : ∀ k, a ≠ .remove k r) (hrenew : a ≠ .handlerReturns .cancel)
    (h : step b a = some b') : Lasting b' r := by
  cases a with
  | deliver batch =>
      simp only [step] at h
      split at h
      · cases h
        refine ⟨hr.watched, hr.state, ?_, hr.removal⟩
        rintro ⟨⟩
      · cases h
  | loop =>
      simp only [step] at h
      split at h
      · exact lasting_loop hr h
      · cases h
  | handlerReturns opt =>
      simp only [step] at h
      split at h
      · split at h
        · exact absurd rfl hrenew
        · cases h
          refine ⟨hr.watched, hr.state, ?_, hr.removal⟩
          rintro ⟨⟩
        · cases h
      · cases h
  | remove k x =>
      simp only [step] at h
      split at h
      · cases h
        refine ⟨hr.watched, hr.state, hr.stage, fun j => ?_⟩
        have hne : x ≠ r := fun heq => hremove k (heq ▸ rfl)
        by_cases hj : j = k
        · subst hj
          simpa [State.setRemoval, Removal.item] using hne
        · simpa [State.setRemoval, Function.update_of_ne hj] using hr.removal j
      · cases h
  | proceed k ok =>
      have hp := RemovalEffect.proceeded h
      refine ⟨(watched_proceed (hr.removal k) h).trans hr.watched, ?_, ?_, fun j => ?_⟩
      · rw [hp.obj r (hr.removal k)]
        exact hr.state
      · rw [hp.stage]
        exact hr.stage
      · by_cases hj : j = k
        · subst hj
          rcases hp.item with hnone | hsame
          · rw [hnone]
            exact fun h => by cases h
          · rw [hsame]
            exact hr.removal j
        · rw [hp.others j hj]
          exact hr.removal j

end EventLoop
end Beyond
