import Beyond.EventLoop.RunStop

/-!
# The stop handler

`SetStopHandler` puts a record with the handler into the atomic `stopEventObject`; a `ThreadMain` that
comes to its end exchanges it with null, invokes the handler and deletes the record.  The exits of
`ThreadMain` before its loop do none of this.

Calls and `ThreadMain`s are those of `Beyond.EventLoop.RunStop`; what a `ThreadMain` does behind its
last access to the state is split here into the exchange, the invocation and the deletion, so that
calls of any thread, and of the handler itself, come in between.
-/

namespace Beyond
namespace EventLoop
namespace StopHandler

open RunStop
open Errno

/-! ## State -/

/-- `EventLoop::impl::Event`. -/
structure Event (η δ : Type*) where
  loop : Nat
  handler : η
  callbackData : δ
  deriving DecidableEq, Repr

/-- The local variable of a `ThreadMain`. -/
inductive Local
  | idle
  | taken (n : Nat)
  /-- The handler has returned. -/
  | invoked (n : Nat)
  deriving DecidableEq, Repr

/-- A `ThreadMain` has come to its end: the record that was set then, and the one it has taken. -/
structure End where
  thread : Nat
  set : Option Nat
  took : Option Nat
  deriving DecidableEq, Repr

structure Invocation (η δ : Type*) where
  thread : Nat
  record : Nat
  /-- What the handler was and was invoked with. -/
  event : Event η δ
  deriving DecidableEq, Repr

/-- Records are numbered as they are allocated. -/
structure State (ι η δ : Type*) where
  base : RunStop.State ι
  stopEventObject : Option Nat
  event : Nat → Option (Event η δ)
  made : Nat
  /-- What `SetStopHandler` was called with. -/
  registered : Nat → Option (Event η δ)
  replaced : Nat → Bool
  thread : Nat → Local
  ends : List End
  invocations : List (Invocation η δ)
  deletes : Nat → Nat
  /-- A record was used after its deletion. -/
  fault : Bool

inductive Act (ι η δ : Type*)
  /-- `handler` is `none` for a null handler; `allocated` tells whether the record is allocated. -/
  | setStopHandler (handler : Option (η × δ)) (allocated : Bool)
  | base (a : RunStop.Act ι)
  /-- `stopEventObject.exchange(nullptr)` at the end of a `ThreadMain`. -/
  | take (j : Nat)
  | invoke (j : Nat)
  | delete (j : Nat)

variable {ι η δ : Type*}

/-! ## Steps -/

/-- `delete` of a record. -/
def State.free (s : State ι η δ) (n : Nat) : State ι η δ :=
  { s with
    event := Function.update s.event n none
    deletes := Function.update s.deletes n (s.deletes n + 1)
    fault := s.fault || (s.event n).isNone }

/-- The record that the exchange brings out is deleted. -/
def State.replace (s : State ι η δ) (new : Option Nat) : State ι η δ :=
  match s.stopEventObject with
  | none => { s with stopEventObject := new }
  | some old =>
      { s.free old with
        stopEventObject := new
        replaced := Function.update s.replaced old true }

/-- `SetStopHandler` of loop `this`. -/
def setStopHandler (this : Nat) (s : State ι η δ) (handler : Option (η × δ)) (allocated : Bool) :
    State ι η δ × Int :=
  match handler with
  | none => (s.replace none, 0)
  | some (handler, callbackData) =>
      if allocated = false then (s, -ENOMEM)
      else
        let event : Event η δ := ⟨this, handler, callbackData⟩
        (({ s with
            event := Function.update s.event s.made (some event)
            registered := Function.update s.registered s.made (some event)
            made := s.made + 1 }).replace (some s.made), 0)

section Steps

variable [DecidableEq ι]

/-- A step of a call, or of a `ThreadMain` up to its last access to the state. -/
def baseStep (enableThread : Bool) (s : State ι η δ) (a : RunStop.Act ι) :
    Option (State ι η δ) :=
  (RunStop.step enableThread s.base a).bind fun b =>
    match a with
    | .thread j _ =>
        match s.base.thread j with
        | .cleanup _ => none
        -- Only the state is set, and `ThreadMain` returns.
        | .abort _ => some { s with base := b, ends := s.ends ++ [⟨j, s.stopEventObject, none⟩] }
        | _ => some { s with base := b }
    | _ => some { s with base := b }

/-- `ThreadMain` returns. -/
def State.finish (s : State ι η δ) (j : Nat) (r : Int) : State ι η δ :=
  { s with base := s.base.setThread j (.ended r) }

def take (s : State ι η δ) (j : Nat) : Option (State ι η δ) :=
  match s.base.thread j, s.thread j with
  | .cleanup r, .idle =>
      let t : State ι η δ := { s with
        stopEventObject := none
        ends := s.ends ++ [⟨j, s.stopEventObject, s.stopEventObject⟩] }
      match s.stopEventObject with
      | none => some (t.finish j r)
      | some n => some { t with thread := Function.update s.thread j (.taken n) }
  | _, _ => none

def invoke (s : State ι η δ) (j : Nat) : Option (State ι η δ) :=
  match s.thread j with
  | .taken n =>
      match s.event n with
      | none => some { s with thread := Function.update s.thread j (.invoked n), fault := true }
      | some event =>
          some { s with
            thread := Function.update s.thread j (.invoked n)
            invocations := s.invocations ++ [⟨j, n, event⟩] }
  | _ => none

def delete (s : State ι η δ) (j : Nat) : Option (State ι η δ) :=
  match s.base.thread j, s.thread j with
  | .cleanup r, .invoked n =>
      some ({ s.free n with thread := Function.update s.thread j .idle }.finish j r)
  | _, _ => none

def step (this : Nat) (enableThread : Bool) (s : State ι η δ) : Act ι η δ → Option (State ι η δ)
  | .setStopHandler handler allocated => some (setStopHandler this s handler allocated).1
  | .base a => baseStep enableThread s a
  | .take j => take s j
  | .invoke j => invoke s j
  | .delete j => delete s j

end Steps

def State.start : State ι η δ where
  base := .start
  stopEventObject := none
  event _ := none
  made := 0
  registered _ := none
  replaced _ := false
  thread _ := .idle
  ends := []
  invocations := []
  deletes _ := 0
  fault := false

/-! ## Specification -/

/-- The ends that have found record `n` set. -/
def endsOf (ends : List End) (n : Nat) : List End := ends.filter fun e => e.set == some n

def invocationsOf (invocations : List (Invocation η δ)) (n : Nat) : List (Invocation η δ) :=
  invocations.filter fun i => i.record == n

def State.inHand (s : State ι η δ) (n j : Nat) : Prop :=
  s.thread j = .taken n ∨ s.thread j = .invoked n

structure Correct (this : Nat) (s : State ι η δ) : Prop where
  safe : s.fault = false
  /-- An end of `ThreadMain` takes what is set. -/
  taken : ∀ e ∈ s.ends, e.took = e.set
  own : ∀ n event, s.registered n = some event → event.loop = this
  waiting : ∀ n, s.stopEventObject = some n →
    endsOf s.ends n = [] ∧ invocationsOf s.invocations n = [] ∧ s.deletes n = 0
  replaced : ∀ n, s.replaced n = true →
    endsOf s.ends n = [] ∧ invocationsOf s.invocations n = [] ∧ s.deletes n = 1
  /-- A record that is not replaced meets one end, which invokes its handler, and is deleted. -/
  invoked : ∀ n event, s.registered n = some event → s.stopEventObject ≠ some n →
    s.replaced n = false → (∀ j, ¬ s.inHand n j) → ∃ j,
      endsOf s.ends n = [⟨j, some n, some n⟩] ∧
      invocationsOf s.invocations n = [⟨j, n, event⟩] ∧ s.deletes n = 1

/-- A `ThreadMain` leaves before its loop only when no handler is set. -/
def Clean (s : State ι η δ) : Act ι η δ → Prop
  | .base (.thread j _) =>
      match s.base.thread j with
      | .abort _ => s.stopEventObject = none
      | _ => True
  | _ => True

instance Clean.decidable (s : State ι η δ) : ∀ a, Decidable (Clean s a)
  | .base (.thread j _) =>
      match h : s.base.thread j with
      | .abort _ => decidable_of_iff (s.stopEventObject = none) (by simp [Clean, h])
      | .absent | .entry | .prepare | .starting | .looping | .polling | .finishing _ | .cleanup _
      | .ended _ => isTrue (by simp [Clean, h])
  | .base (.run ..) | .base (.stop _) | .base (.call ..) | .setStopHandler .. | .take _ | .invoke _
  | .delete _ => isTrue trivial

/-! ## Invariant -/

/-- Where a record is. -/
inductive Place
  | unmade
  | current
  | replaced
  | taken (j : Nat)
  | invoked (j : Nat)
  | done (j : Nat)
  deriving DecidableEq, Repr

/-- Whether the record is in memory. -/
def Place.live : Place → Bool
  | .current => true
  | .taken _ => true
  | .invoked _ => true
  | _ => false

/-- How often the record was deleted. -/
def Place.deletes : Place → Nat
  | .replaced => 1
  | .done _ => 1
  | _ => 0

/-- The ends that the record has met. -/
def Place.ends (n : Nat) : Place → List End
  | .taken j => [⟨j, some n, some n⟩]
  | .invoked j => [⟨j, some n, some n⟩]
  | .done j => [⟨j, some n, some n⟩]
  | _ => []

def Place.invocations (n : Nat) (event : Event η δ) : Place → List (Invocation η δ)
  | .invoked j => [⟨j, n, event⟩]
  | .done j => [⟨j, n, event⟩]
  | _ => []

/-- What is known of a record by its place. -/
structure Record (this : Nat) (s : State ι η δ) (n : Nat) (p : Place) : Prop where
  unmade : p = .unmade ↔ s.made ≤ n
  current : p = .current ↔ s.stopEventObject = some n
  replaced : p = .replaced ↔ s.replaced n = true
  taken : ∀ j, p = .taken j ↔ s.thread j = .taken n
  invoked : ∀ j, p = .invoked j ↔ s.thread j = .invoked n
  registered : s.registered n = none ↔ p = .unmade
  event : s.event n = if p.live then s.registered n else none
  deletes : s.deletes n = p.deletes
  ends : endsOf s.ends n = p.ends n
  invocations : ∀ event, s.registered n = some event →
    event.loop = this ∧ invocationsOf s.invocations n = p.invocations n event
  before : s.registered n = none → invocationsOf s.invocations n = []

structure Inv (this : Nat) (s : State ι η δ) : Prop where
  safe : s.fault = false
  taken : ∀ e ∈ s.ends, e.took = e.set
  records : ∀ n, ∃ p, Record this s n p

theorem inv_start (this : Nat) : Inv this (.start : State ι η δ) where
  safe := rfl
  taken := by simp [State.start]
  records n := ⟨.unmade, by simp [State.start], by simp [State.start], by simp [State.start],
    by simp [State.start], by simp [State.start], by simp [State.start], rfl, rfl, rfl,
    by simp [State.start], fun _ => rfl⟩

theorem Inv.correct {this : Nat} {s : State ι η δ} (hs : Inv this s) : Correct this s where
  safe := hs.safe
  taken := hs.taken
  own n event hevent := by
    rcases hs.records n with ⟨p, hp⟩
    exact (hp.invocations event hevent).1
  waiting n hn := by
    rcases hs.records n with ⟨p, hp⟩
    have hplace := hp.current.2 hn
    subst hplace
    cases hregistered : s.registered n with
    | none => exact absurd (hp.registered.1 hregistered) (by simp)
    | some event => exact ⟨hp.ends, (hp.invocations event hregistered).2, hp.deletes⟩
  replaced n hn := by
    rcases hs.records n with ⟨p, hp⟩
    have hplace := hp.replaced.2 hn
    subst hplace
    cases hregistered : s.registered n with
    | none => exact absurd (hp.registered.1 hregistered) (by simp)
    | some event => exact ⟨hp.ends, (hp.invocations event hregistered).2, hp.deletes⟩
  invoked n event hevent hcurrent hreplaced hhand := by
    rcases hs.records n with ⟨p, hp⟩
    cases hplace : p with
    | unmade =>
        have hnone := hp.registered.2 hplace
        simp [hevent] at hnone
    | current => exact absurd (hp.current.1 hplace) hcurrent
    | replaced => simp [hp.replaced.1 hplace] at hreplaced
    | taken j => exact absurd (.inl ((hp.taken j).1 hplace)) (hhand j)
    | invoked j => exact absurd (.inr ((hp.invoked j).1 hplace)) (hhand j)
    | done j =>
        subst hplace
        exact ⟨j, hp.ends, (hp.invocations event hevent).2, hp.deletes⟩

/-! ## Records that a step leaves alone -/

section Records

variable {this : Nat} {s s' : State ι η δ} {n : Nat} {p : Place}

theorem Record.same (h : Record this s n p) (hmade : s'.made ≤ n ↔ s.made ≤ n)
    (hcurrent : s'.stopEventObject = some n ↔ s.stopEventObject = some n)
    (hreplaced : s'.replaced n = s.replaced n)
    (htaken : ∀ j, s'.thread j = .taken n ↔ s.thread j = .taken n)
    (hinvoked : ∀ j, s'.thread j = .invoked n ↔ s.thread j = .invoked n)
    (hregistered : s'.registered n = s.registered n) (hevent : s'.event n = s.event n)
    (hdeletes : s'.deletes n = s.deletes n) (hends : endsOf s'.ends n = endsOf s.ends n)
    (hinvocations : invocationsOf s'.invocations n = invocationsOf s.invocations n) :
    Record this s' n p where
  unmade := h.unmade.trans hmade.symm
  current := h.current.trans hcurrent.symm
  replaced := by rw [hreplaced]; exact h.replaced
  taken j := (h.taken j).trans (htaken j).symm
  invoked j := (h.invoked j).trans (hinvoked j).symm
  registered := by rw [hregistered]; exact h.registered
  event := by rw [hevent, hregistered]; exact h.event
  deletes := hdeletes.trans h.deletes
  ends := hends.trans h.ends
  invocations event hr := by rw [hinvocations]; exact h.invocations event (hregistered ▸ hr)
  before hr := by rw [hinvocations]; exact h.before (hregistered ▸ hr)

theorem endsOf_append_other (ends : List End) {e : End} (he : e.set ≠ some n) :
    endsOf (ends ++ [e]) n = endsOf ends n := by
  simp [endsOf, he]

theorem thread_update_of_ne {j i : Nat} {l l' : Local} (hold : s.thread j ≠ l) (hnew : l' ≠ l) :
    Function.update s.thread j l' i = l ↔ s.thread i = l := by
  by_cases hij : i = j
  · subst hij
    simp [hold, hnew]
  · rw [Function.update_of_ne hij]

/-- The record that is taken out of `stopEventObject` by `SetStopHandler` is deleted. -/
theorem Record.replace (h : Record this s n p) {new : Option Nat} (hnew : new ≠ some n) :
    Record this (s.replace new) n (if p = .current then .replaced else p) := by
  unfold State.replace
  cases hstop : s.stopEventObject with
  | none =>
      have hp : p ≠ .current := fun heq => by simp [h.current.1 heq] at hstop
      rw [if_neg hp]
      exact h.same Iff.rfl (by simp [hnew, hstop]) rfl (fun _ => Iff.rfl) (fun _ => Iff.rfl) rfl rfl
        rfl rfl rfl
  | some old =>
      by_cases hold : old = n
      · subst hold
        have hp := h.current.2 hstop
        subst hp
        rw [if_pos rfl]
        exact
          { unmade := by simpa [State.free] using h.unmade
            current := by simpa using hnew
            replaced := by simp
            taken := fun j => by simpa [State.free] using h.taken j
            invoked := fun j => by simpa [State.free] using h.invoked j
            registered := by simpa [State.free] using h.registered
            event := by simp [State.free, Place.live]
            deletes := by simpa [State.free, Place.deletes] using h.deletes
            ends := h.ends
            invocations := h.invocations
            before := h.before }
      · have hp : p ≠ .current := fun heq => hold (Option.some.inj (hstop.symm.trans (h.current.1 heq)))
        have hne : n ≠ old := fun heq => hold heq.symm
        rw [if_neg hp]
        exact h.same Iff.rfl (by simp [hnew, hstop, hold]) (Function.update_of_ne hne _ _)
          (fun _ => Iff.rfl) (fun _ => Iff.rfl) rfl (Function.update_of_ne hne _ _)
          (Function.update_of_ne hne _ _) rfl rfl

/-- What the exchange takes out was in memory. -/
theorem replace_safe (hs : s.fault = false)
    (hlive : ∀ old, s.stopEventObject = some old → (s.event old).isSome = true)
    (new : Option Nat) : (s.replace new).fault = false := by
  unfold State.replace
  cases hstop : s.stopEventObject with
  | none => exact hs
  | some old =>
      have hold := hlive old hstop
      cases hevent : s.event old with
      | none => simp [hevent] at hold
      | some event => simp [State.free, hs, hevent]

theorem Record.isSome_of_live (h : Record this s n p) (hp : p.live = true) :
    ∃ event, s.event n = some event ∧ s.registered n = some event := by
  have hevent := h.event
  rw [if_pos hp] at hevent
  cases hregistered : s.registered n with
  | none =>
      have hunmade := h.registered.1 hregistered
      simp [hunmade, Place.live] at hp
  | some event => exact ⟨event, hevent.trans hregistered, rfl⟩

theorem Inv.current_live (hs : Inv this s) {old : Nat} (hold : s.stopEventObject = some old) :
    (s.event old).isSome = true := by
  rcases hs.records old with ⟨p, hp⟩
  have hplace := hp.current.2 hold
  subst hplace
  rcases hp.isSome_of_live rfl with ⟨event, hevent, -⟩
  simp [hevent]

theorem replace_ends (s : State ι η δ) (new : Option Nat) : (s.replace new).ends = s.ends := by
  unfold State.replace
  cases s.stopEventObject with
  | none => rfl
  | some old => rfl

end Records

/-! ## Steps -/

section Steps

variable {this : Nat} {s s' : State ι η δ}

/-- A record is put in; what was there is not this one. -/
theorem replace_own {n : Nat} (hn : s.stopEventObject ≠ some n) :
    (s.replace (some n)).stopEventObject = some n ∧
      (s.replace (some n)).replaced n = s.replaced n ∧ (s.replace (some n)).event n = s.event n ∧
      (s.replace (some n)).deletes n = s.deletes n ∧
      (s.replace (some n)).registered = s.registered ∧ (s.replace (some n)).made = s.made ∧
      (s.replace (some n)).thread = s.thread ∧
      (s.replace (some n)).invocations = s.invocations := by
  unfold State.replace
  cases hstop : s.stopEventObject with
  | none => simp
  | some old =>
      have hne : n ≠ old := fun heq => hn (heq ▸ hstop)
      simp [State.free, Function.update_of_ne hne]

/-- A new record. -/
def State.alloc (s : State ι η δ) (event : Event η δ) : State ι η δ :=
  { s with
    event := Function.update s.event s.made (some event)
    registered := Function.update s.registered s.made (some event)
    made := s.made + 1 }

theorem Record.alloc {n : Nat} {p : Place} (h : Record this s n p) (hn : n ≠ s.made)
    (event : Event η δ) : Record this (s.alloc event) n p :=
  h.same (by simp only [State.alloc]; omega) Iff.rfl rfl (fun _ => Iff.rfl) (fun _ => Iff.rfl)
    (Function.update_of_ne hn _ _) (Function.update_of_ne hn _ _) rfl rfl rfl

/-- The new record is the current one. -/
theorem Record.set (h : Record this s s.made .unmade) (event : Event η δ)
    (hloop : event.loop = this) :
    Record this ((s.alloc event).replace (some s.made)) s.made .current := by
  have hstop : (s.alloc event).stopEventObject ≠ some s.made := fun heq => by
    have hcurrent := h.current.2 heq
    cases hcurrent
  rcases replace_own hstop with ⟨hset, hreplaced, hevent, hdeletes, hregistered, hmade, hthread,
    hinvocations⟩
  exact
    { unmade := by
        rw [hmade]
        simp [State.alloc]
      current := by simp [hset]
      replaced := by
        rw [hreplaced]
        simpa [State.alloc] using h.replaced
      taken := fun j => by
        rw [hthread]
        simpa [State.alloc] using h.taken j
      invoked := fun j => by
        rw [hthread]
        simpa [State.alloc] using h.invoked j
      registered := by
        rw [hregistered]
        simp [State.alloc]
      event := by
        rw [hevent, hregistered]
        simp [State.alloc, Place.live]
      deletes := by
        rw [hdeletes]
        exact h.deletes
      ends := by
        rw [replace_ends]
        exact h.ends
      invocations := fun event' hevent' => by
        rw [hregistered] at hevent'
        simp only [State.alloc, Function.update_self, Option.some.injEq] at hevent'
        subst hevent'
        rw [hinvocations]
        exact ⟨hloop, h.before (h.registered.2 rfl)⟩
      before := fun hnone => by
        rw [hregistered] at hnone
        simp [State.alloc] at hnone }

theorem inv_setStopHandler (hs : Inv this s) (handler : Option (η × δ)) (allocated : Bool) :
    Inv this (setStopHandler this s handler allocated).1 := by
  cases handler with
  | none =>
      refine ⟨replace_safe hs.safe (fun _ => hs.current_live) none, ?_, fun n => ?_⟩
      · simpa [setStopHandler, replace_ends] using hs.taken
      · rcases hs.records n with ⟨p, hp⟩
        exact ⟨_, hp.replace (by simp)⟩
  | some registration =>
      rcases registration with ⟨handler, callbackData⟩
      simp only [setStopHandler]
      split
      · exact hs
      change Inv this ((s.alloc ⟨this, handler, callbackData⟩).replace (some s.made))
      rcases hs.records s.made with ⟨p, hnew⟩
      have hplace := hnew.unmade.2 (Nat.le_refl _)
      subst hplace
      have hlive : ∀ old, s.stopEventObject = some old →
          ((s.alloc ⟨this, handler, callbackData⟩).event old).isSome = true := by
        intro old hold
        have hne : old ≠ s.made := by
          rintro rfl
          cases hnew.current.2 hold
        simpa [State.alloc, Function.update_of_ne hne] using hs.current_live hold
      refine ⟨replace_safe (s := s.alloc _) hs.safe hlive _, ?_, fun n => ?_⟩
      · rw [replace_ends]
        exact hs.taken
      · by_cases hn : n = s.made
        · subst hn
          exact ⟨.current, hnew.set _ rfl⟩
        · rcases hs.records n with ⟨p, hp⟩
          exact ⟨_, (hp.alloc hn _).replace fun heq => hn (Option.some.inj heq).symm⟩

/-- An end of `ThreadMain` at which nothing is set. -/
theorem inv_end (hs : Inv this s) {b : RunStop.State ι} {j : Nat} (hstop : s.stopEventObject = none) :
    Inv this { s with base := b, ends := s.ends ++ [⟨j, s.stopEventObject, none⟩] } := by
  refine ⟨hs.safe, fun e he => ?_, fun n => ?_⟩
  · rcases List.mem_append.1 he with he | he
    · exact hs.taken e he
    · rw [List.mem_singleton.1 he, hstop]
  · rcases hs.records n with ⟨p, hp⟩
    refine ⟨p, hp.same Iff.rfl Iff.rfl rfl (fun _ => Iff.rfl) (fun _ => Iff.rfl) rfl rfl rfl ?_ rfl⟩
    exact endsOf_append_other _ (by simp [hstop])

theorem inv_base (hs : Inv this s) (b : RunStop.State ι) : Inv this { s with base := b } := by
  refine ⟨hs.safe, hs.taken, fun n => ?_⟩
  rcases hs.records n with ⟨p, hp⟩
  exact ⟨p, hp.same Iff.rfl Iff.rfl rfl (fun _ => Iff.rfl) (fun _ => Iff.rfl) rfl rfl rfl rfl rfl⟩

theorem inv_baseStep [DecidableEq ι] {enableThread : Bool} {a : RunStop.Act ι} (hs : Inv this s)
    (hclean : Clean s (.base a)) (h : baseStep enableThread s a = some s') : Inv this s' := by
  rcases Option.bind_eq_some_iff.1 h with ⟨b, -, hb⟩
  cases a with
  | run i epollWaitSize loopCount timeoutInMS =>
      cases hb
      exact inv_base hs b
  | stop i =>
      cases hb
      exact inv_base hs b
  | call i ret =>
      cases hb
      exact inv_base hs b
  | thread j ret =>
      cases hpc : s.base.thread j with
      | cleanup r => simp [hpc] at hb
      | abort r =>
          simp only [hpc] at hb
          simp only [Clean, hpc] at hclean
          cases hb
          exact inv_end hs hclean
      | _ =>
          simp only [hpc] at hb
          cases hb
          exact inv_base hs b

theorem thread_update_iff {thread : Nat → Local} {i j : Nat} {l l' : Local}
    (hother : ∀ k, thread k ≠ l) : Function.update thread j l' i = l ↔ i = j ∧ l' = l := by
  by_cases hij : i = j
  · subst hij
    simp
  · simp [hij, hother i]

theorem Record.take {n j : Nat} (h : Record this s n .current) :
    Record this { s with
      stopEventObject := none
      ends := s.ends ++ [⟨j, some n, some n⟩]
      thread := Function.update s.thread j (.taken n) } n (.taken j) where
  unmade := by simpa using h.unmade
  current := by simp
  replaced := by simpa using h.replaced
  taken i := by
    rw [thread_update_iff fun k hk => by cases (h.taken k).2 hk]
    simp [eq_comm]
  invoked i := by
    rw [thread_update_iff fun k hk => by cases (h.invoked k).2 hk]
    simp
  registered := by simpa using h.registered
  event := h.event
  deletes := h.deletes
  ends := by simpa [endsOf, Place.ends] using h.ends
  invocations := h.invocations
  before := h.before

theorem Record.invoke {n j : Nat} {event : Event η δ} (h : Record this s n (.taken j))
    (hevent : s.registered n = some event) :
    Record this { s with
      thread := Function.update s.thread j (.invoked n)
      invocations := s.invocations ++ [⟨j, n, event⟩] } n (.invoked j) where
  unmade := by simpa using h.unmade
  current := by simpa using h.current
  replaced := by simpa using h.replaced
  taken i := by
    by_cases hij : i = j
    · subst hij
      simp
    · have hi : s.thread i ≠ .taken n := fun heq => hij (by simpa using ((h.taken i).2 heq).symm)
      simp [Function.update_of_ne hij, hi]
  invoked i := by
    rw [thread_update_iff fun k hk => by cases (h.invoked k).2 hk]
    simp [eq_comm]
  registered := by simpa using h.registered
  event := h.event
  deletes := h.deletes
  ends := h.ends
  invocations event' hevent' := by
    cases Option.some.inj (hevent.symm.trans hevent')
    have hold := h.invocations event hevent
    exact ⟨hold.1, by simpa [invocationsOf, Place.invocations] using hold.2⟩
  before hnone := by simp [hevent] at hnone

theorem Record.delete {n j : Nat} (h : Record this s n (.invoked j)) :
    Record this { s.free n with thread := Function.update s.thread j .idle } n (.done j) where
  unmade := by simpa [State.free] using h.unmade
  current := by simpa [State.free] using h.current
  replaced := by simpa [State.free] using h.replaced
  taken i := by
    rw [thread_update_iff fun k hk => by cases (h.taken k).2 hk]
    simp
  invoked i := by
    by_cases hij : i = j
    · subst hij
      simp
    · have hi : s.thread i ≠ .invoked n :=
        fun heq => hij (by simpa using ((h.invoked i).2 heq).symm)
      simp [Function.update_of_ne hij, hi]
  registered := by simpa [State.free] using h.registered
  event := by simp [State.free, Place.live]
  deletes := by simpa [State.free, Place.deletes] using h.deletes
  ends := h.ends
  invocations := h.invocations
  before := h.before

/-- A `ThreadMain` takes what is set. -/
theorem inv_take (hs : Inv this s) {j : Nat} (h : take s j = some s') : Inv this s' := by
  unfold take at h
  split at h
  swap
  · cases h
  rename_i r hpc hlocal
  cases hstop : s.stopEventObject with
  | none =>
      simp only [hstop, Option.some.injEq] at h
      subst h
      have hend := inv_base (inv_end (j := j) (b := s.base) hs hstop) (s.base.setThread j (.ended r))
      simpa [hstop, State.finish] using hend
  | some n =>
      simp only [hstop, Option.some.injEq] at h
      subst h
      refine ⟨hs.safe, fun e he => ?_, fun m => ?_⟩
      · rcases List.mem_append.1 he with he | he
        · exact hs.taken e he
        · rw [List.mem_singleton.1 he]
      · rcases hs.records m with ⟨p, hp⟩
        by_cases hmn : m = n
        · subst hmn
          have hplace := hp.current.2 hstop
          subst hplace
          exact ⟨.taken j, hp.take⟩
        · refine ⟨p, hp.same Iff.rfl ?_ rfl (fun i => ?_) (fun i => ?_) rfl rfl rfl ?_ rfl⟩
          · have hne : n ≠ m := fun heq => hmn heq.symm
            simp [hstop, hne]
          · have hne : n ≠ m := fun heq => hmn heq.symm
            exact thread_update_of_ne (by simp [hlocal]) (by simp [hne])
          · exact thread_update_of_ne (by simp [hlocal]) (by simp)
          · have hne : n ≠ m := fun heq => hmn heq.symm
            exact endsOf_append_other _ (by simp [hne])

/-- It invokes the handler. -/
theorem inv_invoke (hs : Inv this s) {j : Nat} (h : invoke s j = some s') : Inv this s' := by
  unfold invoke at h
  split at h
  swap
  · cases h
  rename_i n hlocal
  rcases hs.records n with ⟨p, hn⟩
  have hplace := (hn.taken j).2 hlocal
  subst hplace
  rcases hn.isSome_of_live rfl with ⟨event, hevent, hregistered⟩
  simp only [hevent, Option.some.injEq] at h
  subst h
  refine ⟨hs.safe, hs.taken, fun m => ?_⟩
  by_cases hmn : m = n
  · subst hmn
    exact ⟨.invoked j, hn.invoke hregistered⟩
  · have hne : n ≠ m := fun heq => hmn heq.symm
    rcases hs.records m with ⟨p, hp⟩
    refine ⟨p, hp.same Iff.rfl Iff.rfl rfl (fun i => ?_) (fun i => ?_) rfl rfl rfl rfl ?_⟩
    · exact thread_update_of_ne (by simp [hlocal, hne]) (by simp)
    · exact thread_update_of_ne (by simp [hlocal]) (by simp [hne])
    · simp [invocationsOf, hne]

/-- It deletes the record and returns. -/
theorem inv_delete (hs : Inv this s) {j : Nat} (h : delete s j = some s') : Inv this s' := by
  unfold delete at h
  split at h
  swap
  · cases h
  rename_i r n hpc hlocal
  cases h
  rcases hs.records n with ⟨p, hn⟩
  have hplace := (hn.invoked j).2 hlocal
  subst hplace
  rcases hn.isSome_of_live rfl with ⟨event, hevent, -⟩
  have hfree : Inv this { s.free n with thread := Function.update s.thread j .idle } := by
    refine ⟨by simp [State.free, hs.safe, hevent], hs.taken, fun m => ?_⟩
    by_cases hmn : m = n
    · subst hmn
      exact ⟨.done j, hn.delete⟩
    · have hne : n ≠ m := fun heq => hmn heq.symm
      rcases hs.records m with ⟨p, hp⟩
      refine ⟨p, hp.same Iff.rfl Iff.rfl rfl (fun i => ?_) (fun i => ?_) rfl
        (Function.update_of_ne hmn _ _) (Function.update_of_ne hmn _ _) rfl rfl⟩
      · exact thread_update_of_ne (by simp [hlocal]) (by simp)
      · exact thread_update_of_ne (by simp [hlocal, hne]) (by simp)
  exact inv_base hfree _

theorem inv_step [DecidableEq ι] {enableThread : Bool} {a : Act ι η δ} (hs : Inv this s)
    (hclean : Clean s a) (h : step this enableThread s a = some s') : Inv this s' := by
  cases a with
  | setStopHandler handler allocated =>
      cases h
      exact inv_setStopHandler hs handler allocated
  | base a => exact inv_baseStep hs hclean h
  | take j => exact inv_take hs h
  | invoke j => exact inv_invoke hs h
  | delete j => exact inv_delete hs h

/-- A `ThreadMain` goes on in the loop, and only an early exit is an end of it. -/
theorem baseStep_thread [DecidableEq ι] {enableThread : Bool} {j : Nat} {ret : Int}
    (h : baseStep enableThread s (.thread j ret) = some s') :
    ∃ b, RunStop.threadStep s.base j ret = some b ∧ (∀ r, s.base.thread j ≠ .cleanup r) ∧
      ((∃ r, s.base.thread j = .abort r ∧
          s' = { s with base := b, ends := s.ends ++ [⟨j, s.stopEventObject, none⟩] }) ∨
        ((∀ r, s.base.thread j ≠ .abort r) ∧ s' = { s with base := b })) := by
  rcases Option.bind_eq_some_iff.1 h with ⟨b, hb, hb'⟩
  refine ⟨b, hb, ?_⟩
  cases hpc : s.base.thread j with
  | cleanup r => simp [hpc] at hb'
  | abort r =>
      simp only [hpc, Option.some.injEq] at hb'
      exact ⟨by simp, .inl ⟨r, rfl, hb'.symm⟩⟩
  | _ =>
      simp only [hpc, Option.some.injEq] at hb'
      exact ⟨by simp, .inr ⟨by simp, hb'.symm⟩⟩

/-! ## An end that takes nothing -/

/-- An end of `ThreadMain` has passed over a handler that was set. -/
def Passed (s : State ι η δ) : Prop := ∃ e ∈ s.ends, e.took ≠ e.set

theorem passed_of_grow (hs : Passed s) (h : s.ends <+: s'.ends) : Passed s' := by
  rcases hs with ⟨e, he, hne⟩
  exact ⟨e, h.subset he, hne⟩

/-- Ends are only added. -/
theorem ends_grow [DecidableEq ι] {enableThread : Bool} {a : Act ι η δ}
    (h : step this enableThread s a = some s') : s.ends <+: s'.ends := by
  cases a with
  | setStopHandler handler allocated =>
      cases h
      cases handler with
      | none => simp [setStopHandler, replace_ends]
      | some registration =>
          simp only [setStopHandler]
          split
          · exact List.prefix_rfl
          · simp [replace_ends]
  | base a =>
      rcases Option.bind_eq_some_iff.1 h with ⟨b, -, hb⟩
      cases a with
      | thread j ret =>
          cases hpc : s.base.thread j <;> simp only [hpc] at hb <;> cases hb
          all_goals simp
      | _ =>
          cases hb
          exact List.prefix_rfl
  | take j =>
      simp only [step, take] at h
      repeat' split at h
      all_goals cases h
      all_goals simp [State.finish]
  | invoke j =>
      simp only [step, invoke] at h
      repeat' split at h
      all_goals cases h
      all_goals simp
  | delete j =>
      simp only [step, delete] at h
      repeat' split at h
      all_goals cases h
      all_goals simp [State.finish, State.free]

theorem passed_of_unclean [DecidableEq ι] {enableThread : Bool} {a : Act ι η δ}
    (hunclean : ¬ Clean s a) (h : step this enableThread s a = some s') : Passed s' := by
  cases a with
  | base a =>
      rcases Option.bind_eq_some_iff.1 h with ⟨b, -, hb⟩
      cases a with
      | thread j ret =>
          cases hpc : s.base.thread j with
          | abort r =>
              simp only [hpc] at hb
              cases hb
              simp only [Clean, hpc] at hunclean
              exact ⟨⟨j, s.stopEventObject, none⟩, by simp, fun heq => hunclean heq.symm⟩
          | _ => exact absurd (by simp [Clean, hpc]) hunclean
      | _ => exact absurd trivial hunclean
  | _ => exact absurd trivial hunclean

end Steps

/-- Over any number of cycles, calls and threads: each stop handler is invoked once, at the first end of
`ThreadMain` behind its registration, exactly as long as no `ThreadMain` leaves before its loop while a
handler is set. -/
theorem stop_handler_once_iff [DecidableEq ι] (this : Nat) (enableThread : Bool)
    (as : List (Act ι η δ)) (s : State ι η δ)
    (hexec : Run.exec (step this enableThread) .start as = some s) :
    Correct this s ↔ Run.Along (step this enableThread) Clean .start as :=
  Run.holds_iff_along (D := Passed) (fun _ _ _ => inv_step)
    (fun _ _ _ _ => passed_of_unclean) (fun _ _ _ hs h => passed_of_grow hs (ends_grow h))
    (fun _ => Inv.correct) (fun _ hs hcorrect => by
      rcases hs with ⟨e, he, hne⟩
      exact hne (hcorrect.taken e he))
    (inv_start this) hexec

/-! ## Fixed runs -/

/-- A handler is set, and `Run` is called with a loop count of 0: `ThreadMain` comes to its end, and
the handler is neither invoked nor deleted. -/
theorem passed_over : ∃ s : State Unit Unit Unit,
    Run.exec (step 0 true) .start
      ([.setStopHandler (some ((), ())) true] ++
        List.map Act.base [.run () 10 0 (-1), .call () 0, .call () 0, .call () 0, .call () 0,
          .thread 0 0, .thread 0 0]) = some s ∧
      s.base.thread 0 = .ended (-EINVAL) ∧ s.invocations = [] ∧ s.deletes 0 = 0 ∧
      ¬ Correct 0 s := by
  refine ⟨_, rfl, rfl, rfl, rfl, fun hcorrect => ?_⟩
  exact absurd (hcorrect.taken ⟨0, some 0, none⟩ (List.mem_singleton.2 rfl)) (by decide)

/-- The actions of `Run`, then of its `ThreadMain` up to the last access to the state: one event,
then a timeout. -/
def cycle (j : Nat) : List (Act Unit Nat Nat) :=
  List.map Act.base
    ([.run () 10 (-1) 100] ++ List.replicate 4 (.call () 0) ++
      [.thread j 0, .thread j 0, .thread j 0, .thread j 0, .thread j 0, .thread j 0,
        .thread j (-ETIMEDOUT), .thread j 0])

/-- A cycle without a handler; a handler that is replaced, and whose successor is invoked and sets
another one, which the third cycle invokes; a cycle that fails without a handler. -/
def cycles : List (Act Unit Nat Nat) :=
  cycle 0 ++ [.take 0, .setStopHandler (some (1, 5)) true, .setStopHandler (some (2, 6)) true] ++
    cycle 1 ++ [.take 1, .invoke 1, .setStopHandler (some (3, 7)) true,
      .setStopHandler (some (4, 8)) false, .delete 1] ++
    cycle 2 ++ [.take 2, .invoke 2, .delete 2, .base (.run () 0 1 1)] ++
    List.replicate 4 (.base (.call () 0)) ++ [.base (.thread 3 0), .base (.thread 3 0)]

set_option maxRecDepth 4000 in
theorem cycles_correct : ∃ s, Run.exec (step 9 true) .start cycles = some s ∧ Correct 9 s ∧
    s.invocations = [⟨1, 1, ⟨9, 2, 6⟩⟩, ⟨2, 2, ⟨9, 3, 7⟩⟩] :=
  ⟨_, rfl, (stop_handler_once_iff 9 true cycles _ rfl).2 (by decide), rfl⟩

end StopHandler
end EventLoop
end Beyond
