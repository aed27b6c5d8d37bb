import Mathlib.Data.List.Nodup
import Mathlib.Data.List.Range
import Beyond.Base.Platform
import Beyond.EventLoop.Handlers

/-!
# Dispatch of an event to handlers that change the handlers

`EventObject::FetchEventData` iterates over the vector `handlers` and invokes those that match the
event.  An invoked handler may call `AddHandler` and `RemoveHandler`, which change the vector under
the iterator.  As for any `std::vector`, `erase` invalidates the iterators at and behind the erased
position, and `push_back` invalidates all of them when there is no capacity left.

What the invoked handlers do is part of the actions.
-/

namespace Beyond
namespace EventObject

open Errno EventLoop

/-! ## State -/

/-- What a handler is registered with. -/
structure Registration (η δ : Type*) where
  handler : η
  type : BitVec 32
  data : δ
  deriving DecidableEq, Repr

instance {η δ : Type*} [DecidableEq η] [DecidableEq δ] : LawfulBEq (Registration η δ) :=
  inferInstance

/-- `HandlerData`. -/
structure HandlerData (η δ : Type*) extends Registration η δ where
  inUse : Bool
  isDeleted : Bool
  deriving DecidableEq, Repr

/-- Inside the loop of `FetchEventData`. -/
inductive Pc
  | scanning
  /-- In the handler of `info`. -/
  | calling (info : Nat)
  | done
  /-- An invalidated iterator or a deleted `HandlerData` was used. -/
  | fault
  deriving DecidableEq, Repr

inductive Entry
  | invoked (info : Nat)
  /-- A `RemoveHandler` for it returned 0. -/
  | removed (info : Nat)
  /-- Its handler returned `CANCEL`. -/
  | cancelled (info : Nat)
  deriving DecidableEq, Repr

/-- `HandlerData`s are numbered in the order of their registration; `heap` has those that are not
deleted. -/
structure State (η δ : Type*) where
  handlers : List Nat
  /-- The capacity of the vector. -/
  capacity : Nat
  heap : Nat → Option (HandlerData η δ)
  /-- The position of the iterator; `none` once it is invalidated. -/
  it : Option Nat
  pc : Pc
  /-- Everything that was ever registered. -/
  registrations : List (Registration η δ)
  log : List Entry

inductive Act (η δ : Type*)
  /-- The loop looks at its next handler. -/
  | next
  /-- The handler returns. -/
  | handlerReturns (ret : HandlerReturn)
  /-- The handler calls `AddHandler`; `allocated` tells whether there was memory, and `spare` how
  much more than needed the vector takes if it grows. -/
  | add (registration : Registration η δ) (allocated : Bool) (spare : Nat)
  /-- The handler calls `RemoveHandler`. -/
  | remove (registration : Registration η δ)

variable {η δ : Type*}

/-! ## AddHandler and RemoveHandler -/

/-- What a loop over `handlers` finds. -/
inductive Search (η δ : Type*)
  /-- It has read a deleted `HandlerData`. -/
  | deleted
  | absent
  | found (i : Nat) (info : Nat) (d : HandlerData η δ)

/-- The first `HandlerData` that satisfies `p`; `i` is the position of the first of the list. -/
def search (heap : Nat → Option (HandlerData η δ)) (p : HandlerData η δ → Bool) (i : Nat) :
    List Nat → Search η δ
  | [] => .absent
  | info :: rest =>
      match heap info with
      | none => .deleted
      | some d => if p d = true then .found i info d else search heap p (i + 1) rest

section Calls

variable [DecidableEq η] [DecidableEq δ]

/-- What `AddHandler` refuses as already added. -/
def overlaps (registration : Registration η δ) (d : HandlerData η δ) : Bool :=
  d.handler = registration.handler ∧ d.type &&& registration.type ≠ 0 ∧
    d.data = registration.data

/-- What `RemoveHandler` looks for. -/
def isFor (registration : Registration η δ) (d : HandlerData η δ) : Bool :=
  d.toRegistration = registration

def State.fault (s : State η δ) : State η δ := { s with pc := .fault }

def addHandler (s : State η δ) (registration : Registration η δ) (allocated : Bool)
    (spare : Nat) : Int × State η δ :=
  match search s.heap (overlaps registration) 0 s.handlers with
  | .deleted => (-EFAULT, s.fault)
  | .found _ _ _ => (-EALREADY, s)
  | .absent =>
      if allocated = false then (-ENOMEM, s)
      else
        (0, { s with
          heap := Function.update s.heap s.registrations.length (some ⟨registration, false, false⟩)
          registrations := s.registrations ++ [registration]
          -- `push_back`
          handlers := s.handlers ++ [s.registrations.length]
          it := if s.handlers.length < s.capacity then s.it else none
          capacity :=
            if s.handlers.length < s.capacity then s.capacity else s.handlers.length + 1 + spare })

def removeHandler (s : State η δ) (registration : Registration η δ) : Int × State η δ :=
  match search s.heap (isFor registration) 0 s.handlers with
  | .deleted => (-EFAULT, s.fault)
  | .absent => (-ENOENT, s)
  | .found i info d =>
      if d.isDeleted = true then (-EALREADY, s)
      else if d.inUse = true then
        (0, { s with
          heap := Function.update s.heap info (some { d with isDeleted := true })
          log := s.log ++ [.removed info] })
      else
        (0, { s with
          handlers := s.handlers.eraseIdx i
          it := s.it.filter fun pos => pos < i
          heap := Function.update s.heap info none
          log := s.log ++ [.removed info] })

end Calls

/-! ## FetchEventData -/

section Steps

-- `data->type`.
variable (event : BitVec 32)

def Registration.matches (registration : Registration η δ) : Prop :=
  registration.type &&& event ≠ 0

instance (registration : Registration η δ) : Decidable (registration.matches event) :=
  inferInstanceAs (Decidable (registration.type &&& event ≠ 0))

def next (s : State η δ) : State η δ :=
  match s.it with
  | none => s.fault
  | some pos =>
      match s.handlers[pos]? with
      | none => { s with pc := .done }
      | some info =>
          match s.heap info with
          | none => s.fault
          | some d =>
              if d.matches event then
                { s with
                  heap := Function.update s.heap info (some { d with inUse := true })
                  pc := .calling info
                  log := s.log ++ [.invoked info] }
              else { s with it := some (pos + 1) }

/-- The handler of `info` has returned. -/
def handlerReturns (s : State η δ) (info : Nat) (ret : HandlerReturn) : State η δ :=
  match s.heap info, s.it with
  | some d, some pos =>
      if ret = .cancel ∨ d.isDeleted = true then
        { s with
          handlers := s.handlers.eraseIdx pos
          heap := Function.update s.heap info none
          pc := .scanning
          log := s.log ++ if ret = .cancel then [.cancelled info] else [] }
      else
        { s with
          heap := Function.update s.heap info (some { d with inUse := false })
          it := some (pos + 1)
          pc := .scanning }
  | _, _ => s.fault

/-- Only the handler that is invoked calls anything. -/
def step [DecidableEq η] [DecidableEq δ] (s : State η δ) (a : Act η δ) : Option (State η δ) :=
  match s.pc, a with
  | .scanning, .next => some (next event s)
  | .calling info, .handlerReturns ret => some (handlerReturns s info ret)
  | .calling _, .add registration allocated spare =>
      some (addHandler s registration allocated spare).2
  | .calling _, .remove registration => some (removeHandler s registration).2
  | _, _ => none

end Steps

/-- Any list of handlers when the dispatch starts. -/
def State.start (registered : List (Registration η δ)) (capacity : Nat) : State η δ :=
  { handlers := List.range registered.length
    capacity
    heap := fun info => registered[info]?.map fun registration => ⟨registration, false, false⟩
    it := some 0
    pc := .scanning
    registrations := registered
    log := [] }

/-! ## The property -/

namespace Entry

def invocation : Entry → Option Nat
  | invoked info => some info
  | _ => none

/-- The registration ends with this. -/
def removal : Entry → Option Nat
  | removed info => some info
  | _ => none

def ending : Entry → Option Nat
  | removed info => some info
  | cancelled info => some info
  | invoked _ => none

end Entry

namespace State

variable (s : State η δ)

/-- The invocations, in order. -/
def invoked : List Nat := s.log.filterMap Entry.invocation

/-- What `RemoveHandler` was successfully called for. -/
def removed : List Nat := s.log.filterMap Entry.removal

/-- What was removed or cancelled. -/
def ended : List Nat := s.log.filterMap Entry.ending

/-- The initial registrations and the added ones, in order, without those that have ended. -/
def kept : List Nat := (List.range s.registrations.length).filter fun info => info ∉ s.ended

end State

/-- A step of the loop, or the return of the handler to it. -/
def Act.byLoop : Act η δ → Bool
  | .next => true
  | .handlerReturns _ => true
  | _ => false

/-- The steps of the loop until its end, if nothing is added. -/
def State.remaining (s : State η δ) : Nat :=
  let ahead := s.handlers.length - s.it.getD 0
  match s.pc with
  | .scanning => 2 * ahead + 1
  | .calling _ => 2 * ahead
  | _ => 0

section Property

variable [DecidableEq η] [DecidableEq δ] (event : BitVec 32)

/-- What is asked of every state of a dispatch to the handlers `registered`. -/
structure Dispatched (registered : List (Registration η δ)) (s : State η δ) : Prop where
  intact : s.pc ≠ .fault
  registrations : registered <+: s.registrations
  /-- No handler is invoked twice, and none that does not match. -/
  once : s.invoked.Nodup
  matching : ∀ info ∈ s.invoked, ∃ registration,
    s.registrations[info]? = some registration ∧ registration.matches event
  /-- No handler is invoked after it was removed or cancelled. -/
  ended : s.log.Pairwise fun earlier later =>
    ∀ info, earlier.ending = some info → later.invocation ≠ some info
  /-- At the end every initial handler that matches was invoked, unless it was removed instead. -/
  invoked : s.pc = .done → ∀ (info : Nat) registration, registered[info]? = some registration →
    registration.matches event → info ∈ s.invoked ∨ info ∈ s.removed
  /-- At the end the list is the initial one and what was added, without what has ended. -/
  handlers : s.pc = .done → s.handlers = s.kept
  heap : s.pc = .done → ∀ info ∈ s.handlers, ∃ registration,
    s.registrations[info]? = some registration ∧ s.heap info = some ⟨registration, false, false⟩
  /-- The loop is never stuck, and only an addition defers its end. -/
  enabled : s.pc ≠ .done → ∃ a : Act η δ, a.byLoop = true ∧ (step event s a).isSome = true
  progress : ∀ (a : Act η δ) s', a.byLoop = true → step event s a = some s' →
    s'.remaining < s.remaining

/-- There is capacity left for what is added, and what is removed at once stands behind the handler
that is invoked. -/
def Sound (s : State η δ) : Act η δ → Prop
  | .add registration allocated _ =>
      (∀ info ∈ s.handlers, ∀ d, s.heap info = some d → overlaps registration d = false) →
        allocated = true → s.handlers.length < s.capacity
  | .remove registration => ∀ i info d,
      search s.heap (isFor registration) 0 s.handlers = .found i info d → d.inUse = false →
        ∀ pos, s.it = some pos → pos < i
  | _ => True

end Property

/-! ## Lists -/

/-- Without duplicates a position can be erased by its content. -/
theorem eraseIdx_eq_filter {l : List Nat} (hl : l.Nodup) {i info : Nat} (hi : l[i]? = some info) :
    l.eraseIdx i = l.filter fun other => other ≠ info := by
  induction l generalizing i with
  | nil => simp at hi
  | cons a l ih =>
      rcases List.nodup_cons.1 hl with ⟨ha, hl'⟩
      cases i with
      | zero =>
          have heq : a = info := by simpa using hi
          subst heq
          have hne : ∀ other ∈ l, decide (other ≠ a) = true := by
            intro other hother
            have : other ≠ a := fun h => ha (h ▸ hother)
            simpa using this
          rw [List.eraseIdx_cons_zero, List.filter_cons_of_neg (by simp), List.filter_eq_self.2 hne]
      | succ i =>
          have hi' : l[i]? = some info := by simpa using hi
          have hne : a ≠ info := fun h => ha (h ▸ List.mem_of_getElem? hi')
          rw [List.eraseIdx_cons_succ, ih hl' hi', List.filter_cons_of_pos (by simpa using hne)]

section Search

variable {heap : Nat → Option (HandlerData η δ)} {p : HandlerData η δ → Bool} {i : Nat}
  {l : List Nat}

theorem search_found {j info : Nat} {d : HandlerData η δ}
    (h : search heap p i l = .found j info d) :
    i ≤ j ∧ l[j - i]? = some info ∧ heap info = some d := by
  induction l generalizing i with
  | nil => cases h
  | cons a l ih =>
      unfold search at h
      split at h
      · cases h
      · rename_i d' hd
        split at h
        · cases h
          exact ⟨le_refl _, by simp, hd⟩
        · rcases ih h with ⟨hle, hj, hheap⟩
          have hsub : j - i = j - (i + 1) + 1 := by omega
          exact ⟨by omega, by simpa [hsub] using hj, hheap⟩

theorem search_ne_deleted (hl : ∀ info ∈ l, heap info ≠ none) : search heap p i l ≠ .deleted := by
  induction l generalizing i with
  | nil => nofun
  | cons a l ih =>
      unfold search
      split
      · rename_i hnone
        exact absurd hnone (hl a (List.mem_cons_self ..))
      · split
        · nofun
        · exact ih fun info hinfo => hl info (List.mem_cons_of_mem _ hinfo)

theorem search_absent (h : search heap p i l = .absent) :
    ∀ info ∈ l, ∀ d, heap info = some d → p d = false := by
  induction l generalizing i with
  | nil => nofun
  | cons a l ih =>
      unfold search at h
      split at h
      · cases h
      · rename_i d' hd
        split at h
        · cases h
        · rename_i hp
          intro info hinfo d hheap
          rcases List.mem_cons.1 hinfo with heq | hmem
          · rw [heq, hd] at hheap
            cases hheap
            simpa using hp
          · exact ih h info hmem d hheap

/-- Where nothing is deleted and nothing satisfies `p`, nothing is found. -/
theorem search_eq_absent (hl : ∀ info ∈ l, ∃ d, heap info = some d ∧ p d = false) :
    search heap p i l = .absent := by
  induction l generalizing i with
  | nil => rfl
  | cons a l ih =>
      rcases hl a (List.mem_cons_self ..) with ⟨d, hd, hp⟩
      unfold search
      simp only [hd, hp]
      exact ih fun info hinfo => hl info (List.mem_cons_of_mem _ hinfo)

end Search

/-! ## The log -/

namespace State

variable {s : State η δ} {info : Nat}

theorem mem_ended_of_removed (h : info ∈ s.removed) : info ∈ s.ended := by
  rcases List.mem_filterMap.1 h with ⟨e, he, hremoval⟩
  refine List.mem_filterMap.2 ⟨e, he, ?_⟩
  cases e with
  | removed other => exact hremoval
  | invoked other => cases hremoval
  | cancelled other => cases hremoval

end State

/-! ## The invariant -/

/-- Where the loop is: `rest` are the handlers that it has still to look at. -/
def At (s : State η δ) (rest : List Nat) : Prop :=
  match s.pc with
  | .scanning => ∃ front, s.handlers = front ++ rest ∧ s.it = some front.length
  | .calling info => ∃ front, s.handlers = front ++ info :: rest ∧ s.it = some front.length
  | .done => rest = []
  | .fault => False

/-- The handler that is being invoked stays in the list, also if it is removed meanwhile. -/
def State.stays (s : State η δ) (info : Nat) : Prop := info ∉ s.ended ∨ s.pc = .calling info

instance (s : State η δ) (info : Nat) : Decidable (s.stays info) :=
  inferInstanceAs (Decidable (info ∉ s.ended ∨ s.pc = .calling info))

structure Inv (event : BitVec 32) (registered : List (Registration η δ)) (s : State η δ)
    (rest : List Nat) : Prop where
  position : At s rest
  handlers : s.handlers = (List.range s.registrations.length).filter fun info => s.stays info
  heap : ∀ info ∈ s.handlers, ∃ registration, s.registrations[info]? = some registration ∧
    s.heap info =
      some ⟨registration, decide (s.pc = .calling info), decide (info ∈ s.removed)⟩
  registrations : registered <+: s.registrations
  once : s.invoked.Nodup
  matching : ∀ info ∈ s.invoked, ∃ registration,
    s.registrations[info]? = some registration ∧ registration.matches event
  ended : s.log.Pairwise fun earlier later =>
    ∀ info, earlier.ending = some info → later.invocation ≠ some info
  known : ∀ info ∈ s.ended, info < s.registrations.length
  /-- What is cancelled leaves the list at once. -/
  cancelled : ∀ info ∈ s.handlers, info ∈ s.ended → info ∈ s.removed
  fresh : ∀ info ∈ rest, info ∉ s.invoked
  reached : ∀ (info : Nat) registration, s.registrations[info]? = some registration →
    registration.matches event → info ∈ s.invoked ∨ info ∈ s.removed ∨ info ∈ rest

section Invariant

variable {event : BitVec 32} {registered : List (Registration η δ)} {s s' : State η δ}
  {rest : List Nat}

theorem Inv.nodup (hs : Inv event registered s rest) : s.handlers.Nodup := by
  rw [hs.handlers]
  exact List.nodup_range.filter _

theorem Inv.alive (hs : Inv event registered s rest) : ∀ info ∈ s.handlers, s.heap info ≠ none := by
  intro info hinfo
  rcases hs.heap info hinfo with ⟨registration, -, hheap⟩
  rw [hheap]
  nofun

theorem inv_start (event : BitVec 32) (registered : List (Registration η δ)) (capacity : Nat) :
    Inv event registered (State.start registered capacity) (List.range registered.length) := by
  constructor
  case position => exact ⟨[], rfl, rfl⟩
  case handlers => simp [State.start, State.stays, State.ended]
  case heap =>
    intro info hinfo
    have hlt : info < registered.length := List.mem_range.1 hinfo
    exact ⟨registered[info], by simp [State.start, hlt], by simp [State.start, State.removed, hlt]⟩
  case registrations => exact List.prefix_refl _
  case reached =>
    intro info registration h _
    exact .inr (.inr (List.mem_range.2 (List.getElem?_eq_some_iff.1 h).1))
  all_goals simp [State.start, State.invoked, State.ended]

theorem Inv.stays_of_mem (hs : Inv event registered s rest) {info : Nat} (h : info ∈ s.handlers) :
    info < s.registrations.length ∧ s.stays info := by
  rw [hs.handlers] at h
  simpa using h

/-- What is not an invocation may follow anything. -/
theorem Inv.log (hs : Inv event registered s rest) {entries : List Entry}
    (h : ∀ e ∈ entries, e.invocation = none) :
    (s.log ++ entries).Pairwise fun earlier later =>
      ∀ info, earlier.ending = some info → later.invocation ≠ some info := by
  have hnone : ∀ (earlier : Entry) later, later ∈ entries → ∀ info,
      earlier.ending = some info → later.invocation ≠ some info := by
    intro earlier later hlater info _
    rw [h later hlater]
    nofun
  rw [List.pairwise_append]
  refine ⟨hs.ended, ?_, fun earlier _ later hlater => hnone earlier later hlater⟩
  exact List.Pairwise.imp_of_mem (fun _ hlater _ => hnone _ _ hlater)
    (List.pairwise_of_forall (R := fun _ _ => True) fun _ _ => trivial)

/-- What was to be looked at is invoked or removed now, or still to be looked at. -/
theorem Inv.reached_log (hs : Inv event registered s rest) {entries : List Entry}
    {rest' : List Nat}
    (h : ∀ info ∈ rest, info ∈ entries.filterMap Entry.invocation ∨
      info ∈ entries.filterMap Entry.removal ∨ info ∈ rest') :
    ∀ (info : Nat) registration, s.registrations[info]? = some registration →
      registration.matches event →
        info ∈ (s.log ++ entries).filterMap Entry.invocation ∨
          info ∈ (s.log ++ entries).filterMap Entry.removal ∨ info ∈ rest' := by
  intro info registration hregistration hmatches
  rw [List.filterMap_append, List.filterMap_append, List.mem_append, List.mem_append]
  rcases hs.reached info registration hregistration hmatches with hinvoked | hremoved | hmem
  · exact .inl (.inl hinvoked)
  · exact .inr (.inl (.inl hremoved))
  · rcases h info hmem with hinvoked | hremoved | hahead
    · exact .inl (.inr hinvoked)
    · exact .inr (.inl (.inr hremoved))
    · exact .inr (.inr hahead)

/-! ## The loop -/

/-- The loop has come to the end of the list. -/
theorem inv_next_nil (hs : Inv event registered s []) (hpc : s.pc = .scanning) :
    next event s = { s with pc := .done } ∧ Inv event registered { s with pc := .done } [] := by
  have hat := hs.position
  simp only [At, hpc] at hat
  rcases hat with ⟨front, hfront, hit⟩
  have hlist := hs.handlers
  have hheap := hs.heap
  simp only [State.stays, hpc] at hlist hheap
  constructor
  · simp [next, hit, hfront]
  · refine ⟨rfl, ?_, ?_, hs.registrations, hs.once, hs.matching, hs.ended, hs.known, hs.cancelled,
      hs.fresh, hs.reached⟩
    · simpa [State.stays, State.ended] using hlist
    · intro info hinfo
      rcases hheap info hinfo with ⟨registration, hregistration, hcell⟩
      exact ⟨registration, hregistration, by simpa [State.removed] using hcell⟩

/-- A handler that matches is invoked. -/
theorem inv_invoke {info : Nat} {registration : Registration η δ}
    (hs : Inv event registered s (info :: rest)) (hpc : s.pc = .scanning)
    (hregistration : s.registrations[info]? = some registration)
    (hmatches : registration.matches event) :
    Inv event registered
      { s with
        heap := Function.update s.heap info
          (some ⟨registration, true, decide (info ∈ s.removed)⟩)
        pc := .calling info
        log := s.log ++ [.invoked info] } rest := by
  have hat := hs.position
  simp only [At, hpc] at hat
  rcases hat with ⟨front, hfront, hit⟩
  have hmem : info ∈ s.handlers := by simp [hfront]
  have hnotended : info ∉ s.ended := by
    have hstays := (hs.stays_of_mem hmem).2
    simpa [State.stays, hpc] using hstays
  have hlist := hs.handlers
  have hheap := hs.heap
  simp only [State.stays, hpc] at hlist hheap
  have hinvoked : ∀ other, other ∈ s.invoked ++ [info] → other ∈ s.invoked ∨ other = info := by
    simp
  constructor
  case position => exact ⟨front, hfront, hit⟩
  case registrations => exact hs.registrations
  case handlers =>
    show s.handlers = _
    rw [hlist]
    apply List.filter_congr
    intro other _
    by_cases heq : info = other
    · subst heq
      simp [State.stays, hnotended]
    · simp [State.stays, State.ended, Entry.ending, heq]
  case heap =>
    intro other hother
    rcases hheap other hother with ⟨registration', hregistration', hcell'⟩
    refine ⟨registration', hregistration', ?_⟩
    by_cases heq : other = info
    · subst heq
      rw [hregistration] at hregistration'
      cases hregistration'
      simp [State.removed, Entry.removal]
    · have hne : ¬ info = other := fun h => heq h.symm
      simp [State.removed, Entry.removal, Function.update_of_ne heq, hcell', hne]
  case once =>
    have hfresh := hs.fresh info (List.mem_cons_self ..)
    have honce := hs.once
    simp only [State.invoked] at hfresh honce
    simp only [State.invoked, List.filterMap_append]
    exact honce.append (List.nodup_singleton _) (by simpa [Entry.invocation] using hfresh)
  case matching =>
    intro other hother
    -- The new entry of the log is the only invocation that was not there.
    rcases hinvoked other (by simpa [State.invoked, Entry.invocation] using hother) with
      hold | heq
    · exact hs.matching other hold
    · subst heq
      exact ⟨registration, hregistration, hmatches⟩
  case ended =>
    rw [List.pairwise_append]
    refine ⟨hs.ended, List.pairwise_singleton _ _, fun earlier hearlier later hlater => ?_⟩
    intro other hending hinvocation
    rw [List.mem_singleton.1 hlater] at hinvocation
    cases hinvocation
    exact hnotended (List.mem_filterMap.2 ⟨earlier, hearlier, hending⟩)
  case known => simpa [State.ended, Entry.ending] using hs.known
  case cancelled =>
    simpa [State.ended, State.removed, Entry.ending, Entry.removal] using hs.cancelled
  case fresh =>
    intro other hother hmem
    rcases hinvoked other (by simpa [State.invoked, Entry.invocation] using hmem) with hold | heq
    · exact hs.fresh other (List.mem_cons_of_mem _ hother) hold
    · -- No handler is twice in the list.
      have hnodup := hs.nodup
      rw [hfront, List.nodup_append] at hnodup
      exact (List.nodup_cons.1 hnodup.2.1).1 (heq ▸ hother)
  case reached =>
    apply hs.reached_log
    intro other hother
    rcases List.mem_cons.1 hother with heq | hahead
    · exact .inl (by simp [heq, Entry.invocation])
    · exact .inr (.inr hahead)

/-- A handler that does not match is skipped. -/
theorem inv_skip {info : Nat} {registration : Registration η δ} {front : List Nat}
    (hs : Inv event registered s (info :: rest)) (hpc : s.pc = .scanning)
    (hfront : s.handlers = front ++ info :: rest)
    (hregistration : s.registrations[info]? = some registration)
    (hmatches : ¬ registration.matches event) :
    Inv event registered { s with it := some (front.length + 1) } rest := by
  refine ⟨?_, hs.handlers, hs.heap, hs.registrations, hs.once, hs.matching, hs.ended, hs.known,
    hs.cancelled, fun other hother => hs.fresh other (List.mem_cons_of_mem _ hother), ?_⟩
  · simp only [At, hpc]
    exact ⟨front ++ [info], by simp [hfront], by simp⟩
  · intro other registration' h hmatches'
    rcases hs.reached other registration' h hmatches' with hinvoked | hremoved | hmem
    · exact .inl hinvoked
    · exact .inr (.inl hremoved)
    · rcases List.mem_cons.1 hmem with heq | hahead
      · subst heq
        rw [hregistration] at h
        cases h
        exact absurd hmatches' hmatches
      · exact .inr (.inr hahead)

/-- The loop invokes the next handler, or skips it. -/
theorem inv_next_cons {info : Nat} (hs : Inv event registered s (info :: rest))
    (hpc : s.pc = .scanning) : Inv event registered (next event s) rest := by
  have hat := hs.position
  simp only [At, hpc] at hat
  rcases hat with ⟨front, hfront, hit⟩
  have hget : s.handlers[front.length]? = some info := by simp [hfront]
  rcases hs.heap info (by simp [hfront]) with ⟨registration, hregistration, hcell⟩
  unfold next
  simp only [hit, hget, hcell]
  split
  · rename_i hmatches
    have hinvoke := inv_invoke hs hpc hregistration hmatches
    rwa [hit] at hinvoke
  · rename_i hmatches
    exact inv_skip hs hpc hfront hregistration hmatches

/-- What has ended is erased from the list, and deleted. -/
theorem inv_erase {i info : Nat} {it : Option Nat} {pc : Pc} {entries : List Entry}
    {rest' : List Nat} (hs : Inv event registered s rest) (hi : s.handlers[i]? = some info)
    (hposition : At { s with handlers := s.handlers.eraseIdx i, it := it, pc := pc } rest')
    (hpc : pc ≠ .calling info)
    (hcalling : ∀ other, other ≠ info → (pc = .calling other ↔ s.pc = .calling other))
    (hinvocation : ∀ e ∈ entries, e.invocation = none)
    (hending : ∀ other ∈ entries.filterMap Entry.ending, other = info)
    (hinfo : info ∈ s.ended ∨ info ∈ entries.filterMap Entry.ending)
    (hremoval : ∀ other ∈ entries.filterMap Entry.removal, other = info)
    (hrest : ∀ other ∈ rest', other ∈ rest)
    (hrest' : ∀ other ∈ rest, other ∈ rest' ∨ other ∈ entries.filterMap Entry.removal) :
    Inv event registered
      { s with
        handlers := s.handlers.eraseIdx i
        heap := Function.update s.heap info none
        it := it
        pc := pc
        log := s.log ++ entries } rest' := by
  have hfilter : s.handlers.eraseIdx i = s.handlers.filter fun other => other ≠ info :=
    eraseIdx_eq_filter hs.nodup hi
  have hother : ∀ other ∈ s.handlers.eraseIdx i, other ∈ s.handlers ∧ other ≠ info := by
    rw [hfilter]
    intro other hmem
    simpa using List.mem_filter.1 hmem
  have hinvoked : entries.filterMap Entry.invocation = [] :=
    List.filterMap_eq_nil_iff.2 hinvocation
  constructor
  case position => exact hposition
  case registrations => exact hs.registrations
  case ended => exact hs.log hinvocation
  case handlers =>
    show s.handlers.eraseIdx i = _
    rw [hfilter, hs.handlers, List.filter_filter]
    apply List.filter_congr
    intro other _
    by_cases heq : other = info
    · subst heq
      -- The end of the erased handler is in the log already, or among the new entries.
      rcases hinfo with hold | hnew
      · simp only [State.ended] at hold
        simp [State.stays, State.ended, hold, hpc]
      · simp [State.stays, State.ended, hnew, hpc]
    · have hnot : other ∉ entries.filterMap Entry.ending := fun h => heq (hending other h)
      simp [State.stays, State.ended, heq, hnot, hcalling other heq]
  case heap =>
    intro other hmem
    rcases hother other hmem with ⟨hold, hne⟩
    rcases hs.heap other hold with ⟨registration, hregistration, hcell⟩
    have hnot : other ∉ entries.filterMap Entry.removal := fun h => hne (hremoval other h)
    refine ⟨registration, hregistration, ?_⟩
    simp only [State.removed] at hcell
    simp [State.removed, hnot, Function.update_of_ne hne, hcell, hcalling other hne]
  case once => simpa [State.invoked, hinvoked] using hs.once
  case matching => simpa [State.invoked, hinvoked] using hs.matching
  case known =>
    intro other hmem
    rcases List.mem_append.1 (by simpa only [State.ended, List.filterMap_append] using hmem)
      with hold | hnew
    · exact hs.known other hold
    · rw [hending other hnew]
      exact (hs.stays_of_mem (List.mem_of_getElem? hi)).1
  case cancelled =>
    intro other hmem hended
    rcases hother other hmem with ⟨hold, hne⟩
    rcases List.mem_append.1 (by simpa only [State.ended, List.filterMap_append] using hended)
      with hold' | hnew
    · have hremoved := hs.cancelled other hold hold'
      simp only [State.removed] at hremoved
      simp only [State.removed, List.filterMap_append]
      exact List.mem_append_left _ hremoved
    · exact absurd (hending other hnew) hne
  case fresh =>
    intro other hmem
    have hfresh := hs.fresh other (hrest other hmem)
    simpa [State.invoked, hinvoked] using hfresh
  case reached =>
    apply hs.reached_log
    intro other hmem
    rcases hrest' other hmem with hahead | hremoved
    · exact .inr (.inr hahead)
    · exact .inr (.inl hremoved)

/-- The handler is cancelled, or was removed while it ran. -/
theorem inv_handlerReturns_erase {info : Nat} {ret : HandlerReturn}
    (hs : Inv event registered s rest) (hpc : s.pc = .calling info)
    (hends : ret = .cancel ∨ info ∈ s.removed) :
    Inv event registered (handlerReturns s info ret) rest := by
  have hat := hs.position
  simp only [At, hpc] at hat
  rcases hat with ⟨front, hfront, hit⟩
  rcases hs.heap info (by simp [hfront]) with ⟨registration, -, hcell⟩
  have herase : s.handlers.eraseIdx front.length = front ++ rest := by
    rw [hfront, List.eraseIdx_append_of_length_le (le_refl _)]
    simp
  have hif : ret = .cancel ∨ decide (info ∈ s.removed) = true := by simpa using hends
  have hstep : handlerReturns s info ret =
      { s with
        handlers := s.handlers.eraseIdx front.length
        heap := Function.update s.heap info none
        pc := .scanning
        log := s.log ++ if ret = .cancel then [.cancelled info] else [] } := by
    unfold handlerReturns
    simp only [hcell, hit]
    rw [if_pos hif]
  rw [hstep]
  apply inv_erase hs
  case hi => simp [hfront]
  case hposition => exact ⟨front, herase, hit⟩
  case hpc => nofun
  case hcalling =>
    intro other hne
    have hne' : ¬ info = other := fun h => hne h.symm
    simp [hpc, hne']
  case hrest => exact fun other hmem => hmem
  case hrest' => exact fun other hmem => .inl hmem
  case hinfo =>
    by_cases hcancel : ret = .cancel
    · simp [hcancel, Entry.ending]
    · exact .inl (State.mem_ended_of_removed (hends.resolve_left hcancel))
  all_goals by_cases hcancel : ret = .cancel
  all_goals simp [hcancel, Entry.invocation, Entry.ending, Entry.removal]

/-- The handler stays registered. -/
theorem inv_handlerReturns_renew {info : Nat} {ret : HandlerReturn}
    (hs : Inv event registered s rest) (hpc : s.pc = .calling info)
    (hret : ret ≠ .cancel) (hremoved : info ∉ s.removed) :
    Inv event registered (handlerReturns s info ret) rest := by
  have hat := hs.position
  simp only [At, hpc] at hat
  rcases hat with ⟨front, hfront, hit⟩
  have hmem : info ∈ s.handlers := by simp [hfront]
  have hended : info ∉ s.ended := fun h => hremoved (hs.cancelled info hmem h)
  have hlist := hs.handlers
  have hheap := hs.heap
  simp only [State.stays, hpc] at hlist hheap
  rcases hheap info hmem with ⟨registration, hregistration, hcell⟩
  have hstep : handlerReturns s info ret =
      { s with
        heap := Function.update s.heap info (some ⟨registration, false, false⟩)
        it := some (front.length + 1)
        pc := .scanning } := by
    simp [handlerReturns, hcell, hit, hret, hremoved]
  rw [hstep]
  refine ⟨⟨front ++ [info], by simp [hfront], by simp⟩, ?_, fun other hother => ?_,
    hs.registrations, hs.once, hs.matching, hs.ended, hs.known, hs.cancelled, hs.fresh,
    hs.reached⟩
  · show s.handlers = _
    rw [hlist]
    apply List.filter_congr
    intro other _
    by_cases heq : info = other
    · subst heq
      simp only [State.ended] at hended
      simp [State.stays, State.ended, hended]
    · simp [State.stays, State.ended, heq]
  · rcases hheap other hother with ⟨registration', hregistration', hcell'⟩
    refine ⟨registration', hregistration', ?_⟩
    by_cases heq : other = info
    · subst heq
      rw [hregistration] at hregistration'
      cases hregistration'
      simp only [State.removed] at hremoved
      simp [State.removed, hremoved]
    · have hne : ¬ info = other := fun h => heq h.symm
      simp only [State.removed] at hcell'
      simp [State.removed, Function.update_of_ne heq, hcell', hne]

theorem inv_handlerReturns {info : Nat} (ret : HandlerReturn) (hs : Inv event registered s rest)
    (hpc : s.pc = .calling info) : Inv event registered (handlerReturns s info ret) rest := by
  by_cases hends : ret = .cancel ∨ info ∈ s.removed
  · exact inv_handlerReturns_erase hs hpc hends
  · rw [not_or] at hends
    exact inv_handlerReturns_renew hs hpc hends.1 hends.2

/-! ## The calls of the handler -/

/-- What is pushed back is the last that the loop has still to look at. -/
theorem inv_push {info : Nat} (hs : Inv event registered s rest) (hpc : s.pc = .calling info)
    (registration : Registration η δ) (capacity : Nat) :
    Inv event registered
      { s with
        heap := Function.update s.heap s.registrations.length (some ⟨registration, false, false⟩)
        registrations := s.registrations ++ [registration]
        handlers := s.handlers ++ [s.registrations.length]
        capacity := capacity } (rest ++ [s.registrations.length]) := by
  have hat := hs.position
  simp only [At, hpc] at hat
  rcases hat with ⟨front, hfront, hit⟩
  have hlt : info < s.registrations.length := (hs.stays_of_mem (by simp [hfront])).1
  have hnew : s.registrations.length ∉ s.ended := fun h => lt_irrefl _ (hs.known _ h)
  have hget : ∀ {other : Nat} {registration' : Registration η δ},
      s.registrations[other]? = some registration' →
        (s.registrations ++ [registration])[other]? = some registration' := by
    intro other registration' h
    rw [List.getElem?_append_left (List.getElem?_eq_some_iff.1 h).1, h]
  constructor
  case once => exact hs.once
  case ended => exact hs.ended
  case registrations => exact hs.registrations.trans (List.prefix_append _ _)
  case position =>
    simp only [At, hpc]
    exact ⟨front, by simp [hfront], hit⟩
  case handlers =>
    show s.handlers ++ [s.registrations.length] =
      (List.range (s.registrations ++ [registration]).length).filter fun other => s.stays other
    have hstays : s.stays s.registrations.length := .inl hnew
    rw [List.length_append, List.length_singleton, List.range_succ, List.filter_append,
      List.filter_cons_of_pos (by simpa using hstays), ← hs.handlers]
    rfl
  case heap =>
    intro other hother
    rcases List.mem_append.1 hother with hold | heq
    · rcases hs.heap other hold with ⟨registration', hregistration', hcell⟩
      have hne : other ≠ s.registrations.length := ne_of_lt (hs.stays_of_mem hold).1
      exact ⟨registration', hget hregistration',
        (Function.update_of_ne hne _ _).trans hcell⟩
    · rw [List.mem_singleton.1 heq]
      have hne : ¬ info = s.registrations.length := ne_of_lt hlt
      -- A number that was not given out has not been removed.
      have hremoved : s.registrations.length ∉ s.removed :=
        fun h => hnew (State.mem_ended_of_removed h)
      simp only [State.removed] at hremoved
      exact ⟨registration, by simp, by simp [State.removed, hpc, hne, hremoved]⟩
  case matching =>
    intro other hother
    rcases hs.matching other hother with ⟨registration', hregistration', hmatches⟩
    exact ⟨registration', hget hregistration', hmatches⟩
  case known =>
    intro other hother
    rw [List.length_append]
    exact Nat.lt_add_right 1 (hs.known other hother)
  case cancelled =>
    intro other hother hended
    rcases List.mem_append.1 hother with hold | heq
    · exact hs.cancelled other hold hended
    · rw [List.mem_singleton.1 heq] at hended
      exact absurd hended hnew
  case fresh =>
    intro other hother
    rcases List.mem_append.1 hother with hold | heq
    · exact hs.fresh other hold
    · -- Only what was registered before has been invoked.
      rw [List.mem_singleton.1 heq]
      intro hinvoked
      rcases hs.matching _ hinvoked with ⟨registration', hregistration', -⟩
      exact lt_irrefl _ (List.getElem?_eq_some_iff.1 hregistration').1
  case reached =>
    intro other registration' h hmatches
    by_cases hold : other < s.registrations.length
    · have h' : s.registrations[other]? = some registration' := by
        rw [← h]
        exact (List.getElem?_append_left hold).symm
      rcases hs.reached other registration' h' hmatches with hinvoked | hremoved | hmem
      · exact .inl hinvoked
      · exact .inr (.inl hremoved)
      · exact .inr (.inr (List.mem_append_left _ hmem))
    · have hle := (List.getElem?_eq_some_iff.1 h).1
      rw [List.length_append, List.length_singleton] at hle
      have heq : other = s.registrations.length := by omega
      exact .inr (.inr (List.mem_append_right _ (by simp [heq])))

/-- The handler that is invoked is marked. -/
theorem inv_mark {info : Nat} {registration : Registration η δ} (hs : Inv event registered s rest)
    (hpc : s.pc = .calling info)
    (hcell : s.heap info = some ⟨registration, true, false⟩)
    (hregistration : s.registrations[info]? = some registration) :
    Inv event registered
      { s with
        heap := Function.update s.heap info (some ⟨registration, true, true⟩)
        log := s.log ++ [.removed info] } rest := by
  have hat := hs.position
  simp only [At, hpc] at hat
  rcases hat with ⟨front, hfront, hit⟩
  constructor
  case registrations => exact hs.registrations
  case ended => exact hs.log (by simp [Entry.invocation])
  case position =>
    simp only [At, hpc]
    exact ⟨front, hfront, hit⟩
  case handlers =>
    show s.handlers = _
    rw [hs.handlers]
    apply List.filter_congr
    intro other _
    by_cases heq : info = other
    · simp [State.stays, hpc, heq]
    · have hne : ¬ other = info := fun h => heq h.symm
      simp [State.stays, State.ended, Entry.ending, hpc, heq, hne]
  case heap =>
    intro other hother
    rcases hs.heap other hother with ⟨registration', hregistration', hcell'⟩
    refine ⟨registration', hregistration', ?_⟩
    by_cases heq : other = info
    · subst heq
      rw [hregistration] at hregistration'
      cases hregistration'
      simp [State.removed, Entry.removal, hpc]
    · have hne : ¬ info = other := fun h => heq h.symm
      simp only [State.removed, hpc] at hcell'
      simp [State.removed, Entry.removal, hcell', hpc, heq, hne]
  case once => simpa [State.invoked, Entry.invocation, List.filterMap_cons] using hs.once
  case matching => simpa [State.invoked, Entry.invocation] using hs.matching
  case known =>
    intro other hother
    have hor : other ∈ s.ended ∨ other = info := by
      simpa [State.ended, Entry.ending] using hother
    rcases hor with hold | heq
    · exact hs.known other hold
    · rw [heq]
      exact (hs.stays_of_mem (by simp [hfront])).1
  case cancelled =>
    intro other hother hended
    have hor : other ∈ s.ended ∨ other = info := by
      simpa [State.ended, Entry.ending] using hended
    rcases hor with hold | heq
    · have hremoved := hs.cancelled other hother hold
      simp only [State.removed] at hremoved
      simp [State.removed, Entry.removal, hremoved]
    · simp [State.removed, Entry.removal, heq]
  case fresh => simpa [State.invoked, Entry.invocation] using hs.fresh
  case reached => exact hs.reached_log fun other hmem => .inr (.inr hmem)

/-- A handler that stands behind the one that is invoked is erased at once. -/
theorem inv_erase_behind {info other i : Nat} (hs : Inv event registered s rest)
    (hpc : s.pc = .calling info) (hget : s.handlers[i]? = some other) (hne : other ≠ info)
    (hbehind : ∀ pos, s.it = some pos → pos < i) :
    ∃ rest', Inv event registered
      { s with
        handlers := s.handlers.eraseIdx i
        it := s.it.filter fun pos => pos < i
        heap := Function.update s.heap other none
        log := s.log ++ [.removed other] } rest' := by
  have hat := hs.position
  simp only [At, hpc] at hat
  rcases hat with ⟨front, hfront, hit⟩
  have hlt : front.length < i := hbehind front.length hit
  have hrestNodup : rest.Nodup := by
    have hnodup := hs.nodup
    rw [hfront, List.nodup_append] at hnodup
    exact (List.nodup_cons.1 hnodup.2.1).2
  -- The position in what the loop has still to look at.
  obtain ⟨k, hk⟩ : ∃ k, i = front.length + (k + 1) := ⟨i - front.length - 1, by omega⟩
  have hrestGet : rest[k]? = some other := by
    rw [hfront, hk, List.getElem?_append_right (by omega)] at hget
    simpa using hget
  have herase : s.handlers.eraseIdx i = front ++ info :: rest.eraseIdx k := by
    rw [hfront, hk, List.eraseIdx_append_of_length_le (by omega)]
    simp
  refine ⟨rest.eraseIdx k, ?_⟩
  apply inv_erase hs hget
  case hposition =>
    simp only [At, hpc]
    exact ⟨front, herase, by simp [hit, hlt]⟩
  case hpc =>
    rw [hpc]
    intro heq
    exact hne (Pc.calling.inj heq).symm
  case hcalling => exact fun _ _ => Iff.rfl
  case hinvocation => simp [Entry.invocation]
  case hending => simp [Entry.ending]
  case hinfo => simp [Entry.ending]
  case hremoval => simp [Entry.removal]
  case hrest => exact fun _ hmem => List.mem_of_mem_eraseIdx hmem
  case hrest' =>
    intro later hlater
    rw [eraseIdx_eq_filter hrestNodup hrestGet]
    by_cases heq : later = other
    · exact .inr (by simp [heq, Entry.removal])
    · exact .inl (List.mem_filter.2 ⟨hlater, by simpa using heq⟩)

section Calls

variable [DecidableEq η] [DecidableEq δ]

theorem inv_addHandler {info : Nat} {registration : Registration η δ} {allocated : Bool}
    {spare : Nat} (hs : Inv event registered s rest) (hpc : s.pc = .calling info)
    (hsound : Sound s (.add registration allocated spare)) :
    ∃ rest', Inv event registered (addHandler s registration allocated spare).2 rest' := by
  unfold addHandler
  cases hsearch : search s.heap (overlaps registration) 0 s.handlers with
  | deleted => exact absurd hsearch (search_ne_deleted hs.alive)
  | found i other d => exact ⟨rest, hs⟩
  | absent =>
      cases allocated with
      | false => exact ⟨rest, hs⟩
      | true =>
          have hcapacity : s.handlers.length < s.capacity := hsound (search_absent hsearch) rfl
          refine ⟨rest ++ [s.registrations.length], ?_⟩
          have hpush := inv_push hs hpc registration s.capacity
          simpa only [if_pos hcapacity, Bool.true_eq_false, if_false] using hpush

theorem inv_removeHandler {info : Nat} {registration : Registration η δ}
    (hs : Inv event registered s rest) (hpc : s.pc = .calling info)
    (hsound : Sound s (.remove registration)) :
    ∃ rest', Inv event registered (removeHandler s registration).2 rest' := by
  unfold removeHandler
  cases hsearch : search s.heap (isFor registration) 0 s.handlers with
  | deleted => exact absurd hsearch (search_ne_deleted hs.alive)
  | absent => exact ⟨rest, hs⟩
  | found i other d =>
      have hfound := search_found hsearch
      rw [Nat.sub_zero] at hfound
      rcases hs.heap other (List.mem_of_getElem? hfound.2.1) with ⟨registration', hget, hcell⟩
      rw [hfound.2.2, Option.some.injEq] at hcell
      have hother := (hs.stays_of_mem (List.mem_of_getElem? hfound.2.1)).2
      by_cases hdeleted : d.isDeleted = true
      · simp only [if_pos hdeleted]
        exact ⟨rest, hs⟩
      · by_cases hinUse : d.inUse = true
        · -- It is the handler that calls.
          have heq : other = info := by
            rw [hcell, hpc] at hinUse
            simpa [eq_comm] using hinUse
          have hd : d = ⟨registration', true, false⟩ := by
            rw [hcell] at hinUse hdeleted
            rw [hcell, show decide (s.pc = .calling other) = true from hinUse,
              show decide (other ∈ s.removed) = false from eq_false_of_ne_true hdeleted]
          subst heq
          simp only [if_neg hdeleted, if_pos hinUse]
          rw [hd]
          exact ⟨rest, inv_mark hs hpc (by rw [hfound.2.2, hd]) hget⟩
        · have hne : other ≠ info := by
            intro heq
            rw [hcell, hpc] at hinUse
            simp [heq] at hinUse
          simp only [if_neg hdeleted, if_neg hinUse]
          exact inv_erase_behind hs hpc hfound.2.1 hne
            (hsound i other d hsearch (by simpa using hinUse))

/-! ## Runs -/

theorem inv_step {a : Act η δ} (hs : Inv event registered s rest) (hsound : Sound s a)
    (h : step event s a = some s') : ∃ rest', Inv event registered s' rest' := by
  cases hpc : s.pc with
  | scanning =>
      cases a with
      | next =>
          simp only [step, hpc, Option.some.injEq] at h
          rw [← h]
          cases rest with
          | nil =>
              have hnext := inv_next_nil hs hpc
              rw [hnext.1]
              exact ⟨[], hnext.2⟩
          | cons info rest => exact ⟨rest, inv_next_cons hs hpc⟩
      | handlerReturns ret => simp [step, hpc] at h
      | add registration allocated spare => simp [step, hpc] at h
      | remove registration => simp [step, hpc] at h
  | calling info =>
      cases a with
      | next => simp [step, hpc] at h
      | handlerReturns ret =>
          simp only [step, hpc, Option.some.injEq] at h
          rw [← h]
          exact ⟨rest, inv_handlerReturns ret hs hpc⟩
      | add registration allocated spare =>
          simp only [step, hpc, Option.some.injEq] at h
          rw [← h]
          exact inv_addHandler hs hpc hsound
      | remove registration =>
          simp only [step, hpc, Option.some.injEq] at h
          rw [← h]
          exact inv_removeHandler hs hpc hsound
  | done => cases a <;> simp [step, hpc] at h
  | fault => cases a <;> simp [step, hpc] at h

/-! ## From the invariant to the property -/

theorem enabled_of_running (hdone : s.pc ≠ .done) (hfault : s.pc ≠ .fault) :
    ∃ a : Act η δ, a.byLoop = true ∧ (step event s a).isSome = true := by
  cases hpc : s.pc with
  | scanning => exact ⟨.next, rfl, by simp [step, hpc]⟩
  | calling info => exact ⟨.handlerReturns .renew, rfl, by simp [step, hpc]⟩
  | done => exact absurd hpc hdone
  | fault => exact absurd hpc hfault

theorem remaining_lt (hs : Inv event registered s rest) {a : Act η δ} (ha : a.byLoop = true)
    (h : step event s a = some s') : s'.remaining < s.remaining := by
  have hat := hs.position
  cases hpc : s.pc with
  | scanning =>
      simp only [At, hpc] at hat
      rcases hat with ⟨front, hfront, hit⟩
      cases a with
      | next =>
          simp only [step, hpc, Option.some.injEq] at h
          rw [← h]
          unfold next
          simp only [hit]
          split
          · simp [State.remaining, hpc]
          · rename_i info hget
            have hlt := (List.getElem?_eq_some_iff.1 hget).1
            split
            · simp [State.remaining, hpc, State.fault]
            · split
              · simp [State.remaining, hpc, hit]
              · simp only [State.remaining, hpc, hit, Option.getD_some]
                omega
      | handlerReturns ret => simp [step, hpc] at h
      | add registration allocated spare => cases ha
      | remove registration => cases ha
  | calling info =>
      simp only [At, hpc] at hat
      rcases hat with ⟨front, hfront, hit⟩
      have hlt : front.length < s.handlers.length := by
        rw [hfront]
        simp
      cases a with
      | next => simp [step, hpc] at h
      | handlerReturns ret =>
          simp only [step, hpc, Option.some.injEq] at h
          rw [← h]
          rcases hs.heap info (by simp [hfront]) with ⟨registration, -, hcell⟩
          unfold handlerReturns
          simp only [hit, hcell]
          split
          · simp only [State.remaining, hpc, hit, Option.getD_some,
              List.length_eraseIdx_of_lt hlt]
            omega
          · simp only [State.remaining, hpc, hit, Option.getD_some]
            omega
      | add registration allocated spare => cases ha
      | remove registration => cases ha
  | done => cases a <;> simp [step, hpc] at h
  | fault => cases a <;> simp [step, hpc] at h

theorem Inv.dispatched (hs : Inv event registered s rest) : Dispatched event registered s := by
  have hfault : s.pc ≠ .fault := by
    intro hpc
    have hat := hs.position
    simp [At, hpc] at hat
  refine ⟨hfault, hs.registrations, hs.once, hs.matching, hs.ended, fun hdone => ?_,
    fun hdone => ?_, fun hdone info hinfo => ?_, fun hdone => enabled_of_running hdone hfault,
    fun a s' ha h => remaining_lt hs ha h⟩
  · have hat := hs.position
    simp only [At, hdone] at hat
    intro info registration h hmatches
    have hget : s.registrations[info]? = some registration := by
      rcases hs.registrations with ⟨added, hadded⟩
      rw [← hadded, List.getElem?_append_left (List.getElem?_eq_some_iff.1 h).1, h]
    have hor := hs.reached info registration hget hmatches
    simpa [hat] using hor
  · rw [hs.handlers]
    unfold State.kept
    apply List.filter_congr
    intro info _
    simp [State.stays, hdone]
  · rcases hs.heap info hinfo with ⟨registration, hget, hcell⟩
    have hstays := (hs.stays_of_mem hinfo).2
    have hremoved : info ∉ s.removed := by
      intro hremoved
      rcases hstays with hended | hcalling
      · exact hended (State.mem_ended_of_removed hremoved)
      · rw [hdone] at hcalling
        cases hcalling
    exact ⟨registration, hget, by simpa [hdone, hremoved] using hcell⟩

/-! ## Where the condition fails -/

/-- The iterator of the loop is invalidated. -/
def Lost (s : State η δ) : Prop :=
  s.pc = .fault ∨ ((∃ info, s.pc = .calling info) ∧ s.it = none)

theorem lost_step {a : Act η δ} (hs : Lost s) (h : step event s a = some s') : Lost s' := by
  rcases hs with hfault | ⟨⟨info, hpc⟩, hit⟩
  · cases a <;> simp [step, hfault] at h
  · cases a with
    | next => simp [step, hpc] at h
    | handlerReturns ret =>
        simp only [step, hpc, Option.some.injEq] at h
        rw [← h]
        left
        unfold handlerReturns
        simp only [hit]
        cases s.heap info <;> rfl
    | add registration allocated spare =>
        simp only [step, hpc, Option.some.injEq] at h
        rw [← h]
        unfold addHandler
        split
        · exact .inl rfl
        · exact .inr ⟨⟨info, hpc⟩, hit⟩
        · split
          · exact .inr ⟨⟨info, hpc⟩, hit⟩
          · refine .inr ⟨⟨info, hpc⟩, ?_⟩
            simp [hit]
    | remove registration =>
        simp only [step, hpc, Option.some.injEq] at h
        rw [← h]
        unfold removeHandler
        split
        · exact .inl rfl
        · exact .inr ⟨⟨info, hpc⟩, hit⟩
        · split
          · exact .inr ⟨⟨info, hpc⟩, hit⟩
          · split
            · exact .inr ⟨⟨info, hpc⟩, hit⟩
            · refine .inr ⟨⟨info, hpc⟩, ?_⟩
              simp [hit]

/-- An addition without capacity, or a removal in front of the handler that is invoked. -/
theorem lost_of_unsound {a : Act η δ} (hs : Inv event registered s rest) (hsound : ¬ Sound s a)
    (h : step event s a = some s') : Lost s' := by
  cases hpc : s.pc with
  | calling info =>
      cases a with
      | next => exact absurd trivial hsound
      | handlerReturns ret => exact absurd trivial hsound
      | add registration allocated spare =>
          simp only [Sound, not_forall, not_lt] at hsound
          rcases hsound with ⟨hnone, hallocated, hfull⟩
          have habsent : search s.heap (overlaps registration) 0 s.handlers = .absent := by
            apply search_eq_absent
            intro other hother
            rcases hs.heap other hother with ⟨registration', -, hcell⟩
            exact ⟨_, hcell, hnone other hother _ hcell⟩
          simp only [step, hpc, addHandler, habsent, hallocated, Bool.true_eq_false, if_false,
            Option.some.injEq] at h
          rw [← h]
          exact .inr ⟨⟨info, rfl⟩, if_neg (not_lt.2 hfull)⟩
      | remove registration =>
          simp only [Sound, not_forall, not_lt] at hsound
          rcases hsound with ⟨i, other, d, hsearch, hinUse, pos, hit, hle⟩
          have hfound := search_found hsearch
          rw [Nat.sub_zero] at hfound
          have hother : other ∈ s.handlers := List.mem_of_getElem? hfound.2.1
          rcases hs.heap other hother with ⟨registration', -, hcell⟩
          rw [hfound.2.2, Option.some.injEq] at hcell
          -- It is not being invoked, so it was not removed before.
          have hdeleted : d.isDeleted = false := by
            rw [hcell] at hinUse ⊢
            have hne : s.pc ≠ .calling other := by simpa using hinUse
            have hended := (hs.stays_of_mem hother).2.resolve_right hne
            simpa using fun h => hended (State.mem_ended_of_removed h)
          simp only [step, hpc, removeHandler, hsearch, hdeleted, hinUse, Bool.false_eq_true,
            if_false, Option.some.injEq] at h
          rw [← h]
          refine .inr ⟨⟨info, rfl⟩, ?_⟩
          simp [hit, hle]
  | scanning =>
      cases a with
      | next => exact absurd trivial hsound
      | handlerReturns ret => exact absurd trivial hsound
      | add registration allocated spare => simp [step, hpc] at h
      | remove registration => simp [step, hpc] at h
  | done => cases a <;> simp [step, hpc] at h
  | fault => cases a <;> simp [step, hpc] at h

theorem inv_preserved (event : BitVec 32) (registered : List (Registration η δ)) :
    Run.Preserved (step event) Sound fun t : State η δ => ∃ rest, Inv event registered t rest :=
  fun _ _ _ ⟨_, ht⟩ hsound h => inv_step ht hsound h

/-- Once the iterator is invalidated, it is never valid again. -/
theorem sound_or_lost {as : List (Act η δ)} (hs : Inv event registered s rest)
    (hexec : Run.exec (step event) s as = some s') :
    (Run.Along (step event) Sound s as ∧ ∃ rest', Inv event registered s' rest') ∨ Lost s' :=
  Run.clean_or_damaged (inv_preserved event registered)
    (fun _ _ _ ⟨_, ht⟩ hsound h => lost_of_unsound ht hsound h)
    (fun _ _ _ hlost h => lost_step hlost h) ⟨rest, hs⟩ hexec

/-- A dispatch goes right in every state, as long as there is capacity for what is added and nothing
is removed in front of the handler that is invoked; and when a handler has returned, it has gone
right only then. -/
theorem dispatched_iff (event : BitVec 32) (registered : List (Registration η δ)) (capacity : Nat)
    (as : List (Act η δ)) (s : State η δ)
    (hexec : Run.exec (step event) (.start registered capacity) as = some s) :
    (Run.Along (step event) Sound (.start registered capacity) as →
      Dispatched event registered s) ∧
    ((∀ info, s.pc ≠ .calling info) → Dispatched event registered s →
      Run.Along (step event) Sound (.start registered capacity) as) := by
  rcases sound_or_lost (inv_start event registered capacity) hexec with ⟨hall, rest, hs⟩ | hlost
  · exact ⟨fun _ => hs.dispatched, fun _ _ => hall⟩
  · refine ⟨fun hall => ?_, fun hreturned hs => ?_⟩
    · rcases Run.exec_invariant (inv_preserved event registered)
        ⟨_, inv_start event registered capacity⟩ hall hexec with ⟨rest, hs⟩
      exact hs.dispatched
    · rcases hlost with hfault | ⟨⟨info, hpc⟩, -⟩
      · exact absurd hfault hs.intact
      · exact absurd hpc (hreturned info)

end Calls

end Invariant

/-! ## Fixed runs -/

/-- A handler that adds another to a full vector, and one that removes the handler before it: both
return to an iterator that was invalidated. -/
theorem changed_vector_faults :
    (∃ s, Run.exec (step 1) (.start [(⟨0, 1, 0⟩ : Registration Nat Nat)] 1)
        [.next, .add ⟨1, 1, 0⟩ true 0, .handlerReturns .renew] = some s ∧
      s.pc = .fault ∧ ¬ Dispatched 1 [⟨0, 1, 0⟩] s) ∧
    (∃ s, Run.exec (step 1) (.start [(⟨0, 1, 0⟩ : Registration Nat Nat), ⟨1, 1, 0⟩] 2)
        [.next, .handlerReturns .renew, .next, .remove ⟨0, 1, 0⟩, .handlerReturns .renew] =
          some s ∧
      s.pc = .fault ∧ ¬ Dispatched 1 [⟨0, 1, 0⟩, ⟨1, 1, 0⟩] s) :=
  ⟨⟨_, rfl, rfl, fun h => h.intact rfl⟩, ⟨_, rfl, rfl, fun h => h.intact rfl⟩⟩

def threeHandlers : List (Registration Nat Nat) := [⟨0, 1, 0⟩, ⟨1, 1, 0⟩, ⟨2, 3, 0⟩]

/-- The first handler removes the second, adds a fourth and cancels itself. -/
def mutatingRun : List (Act Nat Nat) :=
  [.next, .remove ⟨1, 1, 0⟩, .add ⟨3, 1, 0⟩ true 0, .handlerReturns .cancel,
    .next, .handlerReturns .renew, .next, .handlerReturns .renew, .next]

theorem mutatingRun_dispatched :
    ∃ s, Run.exec (step 1) (.start threeHandlers 4) mutatingRun = some s ∧ s.pc = .done ∧
      s.handlers = [2, 3] ∧ s.invoked = [0, 2, 3] ∧ Dispatched 1 threeHandlers s := by
  refine ⟨_, rfl, rfl, by decide, by decide,
    (dispatched_iff 1 threeHandlers 4 mutatingRun _ rfl).1 ?_⟩
  refine Run.along_of_step trivial rfl ?_
  refine Run.along_of_step (fun i info d hsearch _ pos hit => ?_) rfl ?_
  · cases hsearch
    cases hit
    exact Nat.zero_lt_one
  · refine Run.along_of_step (fun _ _ => by decide) rfl ?_
    apply Run.Along.of_forall
    intro a ha s
    simp only [List.mem_cons, List.not_mem_nil, or_false] at ha
    rcases ha with rfl | rfl | rfl | rfl | rfl | rfl <;> trivial

end EventObject
end Beyond
