import Mathlib.Data.Finset.Insert
import Mathlib.Data.Finset.Card
import Beyond.EventLoop.Components

/-!
# Readiness of plain event objects and of timers

`EventObject::FetchEventData` asks `select` for the readiness of its descriptor and passes the types to
a fetcher, which is to enter them into the event data.  An event object without a fetcher of its own uses
one that does nothing, also when it is a timer; the loop over the handlers then reads the event data.

What `select` and `read` give is part of the arguments, and so is what the invoked handlers return.
-/

namespace Beyond
namespace EventObject
namespace Readiness

open Errno EventLoop Components

/-! ## Descriptor sets -/

def FD_SETSIZE : Nat := 1024

/-- An `fd_set`. -/
abbrev FdSet := Finset (Fin FD_SETSIZE)

inductive Fault
  /-- `data->type` was read through a null pointer. -/
  | nullEventData
  /-- The sets have no bit for the descriptor. -/
  | outsideSets
  deriving DecidableEq, Repr

def FD_ZERO : FdSet := ∅

def FD_SET (fd : Nat) (set : FdSet) : Except Fault FdSet :=
  if h : fd < FD_SETSIZE then .ok (insert ⟨fd, h⟩ set) else .error .outsideSets

def FD_ISSET (fd : Nat) (set : FdSet) : Except Fault Bool :=
  if h : fd < FD_SETSIZE then .ok (decide (⟨fd, h⟩ ∈ set)) else .error .outsideSets

/-- The descriptors of the set below `nfds` that are ready. -/
def FdSet.ready (nfds : Nat) (ready : Nat → Bool) (set : FdSet) : FdSet :=
  set.filter fun fd => fd.val < nfds ∧ ready fd.val = true

/-- What `select` reports: an error, or the readiness of all descriptors. -/
inductive Report
  | failed (errno : Nat)
  | ready (types : Nat → EventTypes)

/-- The types that are reported for a descriptor. -/
def Report.types (report : Report) (fd : Nat) : BitVec 32 :=
  match report with
  | .failed _ => 0#32
  | .ready types => readiness (types fd)

/-! ## FetchEventData -/

/-- `EventObjectInterface::EventData`; 0 is the null pointer. -/
structure EventData where
  type : BitVec 32
  data : Nat
  deriving DecidableEq, Repr

/-- The call of a handler; `info` is the position at which it was registered. -/
structure Invocation (η δ : Type*) where
  info : Nat
  handler : η
  type : BitVec 32
  event : EventData
  data : δ
  deriving DecidableEq, Repr

/-- The effects of a call; `data` is what its out parameter holds then. -/
structure Called (η δ ω : Type*) where
  ret : Int
  invocations : List (Invocation η δ)
  handlers : List (Registration η δ)
  data : ω

/-- How `select` ends: with an early return, or with the types. -/
inductive Selected
  | returned (ret : Int)
  | types (type : BitVec 32)
  deriving DecidableEq, Repr

def selectReady (fd : Nat) (report : Report) : Except Fault Selected := do
  let rset ← FD_SET fd FD_ZERO
  let eset ← FD_SET fd FD_ZERO
  let wset ← FD_SET fd FD_ZERO
  match report with
  | .failed errno => pure (.returned (-errno))
  | .ready types =>
      let rset := FdSet.ready (fd + 1) (fun fd => (types fd).read) rset
      let wset := FdSet.ready (fd + 1) (fun fd => (types fd).write) wset
      let eset := FdSet.ready (fd + 1) (fun fd => (types fd).error) eset
      if rset.card + wset.card + eset.card = 0 then pure (.returned (-EAGAIN))
      else do
        let error ← FD_ISSET fd eset
        let read ← FD_ISSET fd rset
        let write ← FD_ISSET fd wset
        pure (.types (EventValue.none.code |||
          (bif error then EventValue.error.code else 0#32) |||
          (bif read then EventValue.read.code else 0#32) |||
          (bif write then EventValue.write.code else 0#32)))

def selectTypes (handle : Int) (report : Report) : Except Fault Selected :=
  -- Without a descriptor nothing is asked for.
  if 0 ≤ handle then selectReady handle.toNat report else pure (.types EventValue.none.code)

variable {η δ : Type*}

/-- The loop over the handlers, of which the first is at the position `info`; none of them changes the
list, other than by what it returns. -/
def loop (data : Option EventData) (returns : Nat → HandlerReturn) :
    Nat → List (Registration η δ) →
      Except Fault (List (Invocation η δ) × List (Registration η δ))
  | _, [] => pure ([], [])
  | info, registration :: rest =>
      match data with
      | none => throw .nullEventData
      | some d => do
          let (invocations, kept) ← loop data returns (info + 1) rest
          if registration.type &&& d.type ≠ 0#32 then
            pure (⟨info, registration.handler, d.type &&& registration.type, d, registration.data⟩ ::
                invocations,
              if returns info = .cancel then kept else registration :: kept)
          else pure (invocations, registration :: kept)

/-- `FetchEventData(data, eventFetcher)`. -/
def fetchEventDataWith (eventFetcher : BitVec 32 → Option EventData → HandlerReturn × Option EventData)
    (handle : Int) (report : Report) (data : Option EventData) (returns : Nat → HandlerReturn)
    (handlers : List (Registration η δ)) : Except Fault (Called η δ (Option EventData)) :=
  match selectTypes handle report with
  | .error fault => .error fault
  | .ok (.returned ret) => pure ⟨ret, [], handlers, data⟩
  | .ok (.types type) =>
      match eventFetcher type data with
      | (.cancel, data) => pure ⟨0, [], handlers, data⟩
      | (.renew, data) => do
          let (invocations, kept) ← loop data returns 0 handlers
          pure ⟨0, invocations, kept, data⟩

/-- `FetchEventData(data)`. -/
def fetchEventData (handle : Int) (report : Report) (data : Option EventData)
    (returns : Nat → HandlerReturn) (handlers : List (Registration η δ)) :
    Except Fault (Called η δ (Option EventData)) :=
  fetchEventDataWith (fun _ data => (.renew, data)) handle report data returns handlers

/-! ## Timer -/

/-- `Timer::EventData`. -/
structure TimerEventData extends EventData where
  sequenceId : Nat
  deriving DecidableEq, Repr

/-- What `read` gives of the timer. -/
inductive Reading
  | expired (count : Nat)
  | failed (errno : Nat)
  deriving DecidableEq, Repr

/-- `new Timer::EventData()`. -/
def newEventData : EventData := ⟨0#32, 0⟩

/-- `Timer::impl::FetchEventData`; `allocated` tells whether there is memory for the event data. -/
def timerFetchEventData (allocated : Bool) (handle : Int) (report : Report) (reading : Reading)
    (data : Option TimerEventData) (returns : Nat → HandlerReturn)
    (handlers : List (Registration η δ)) : Except Fault (Called η δ (Option TimerEventData)) :=
  if allocated = false then pure ⟨-ENOMEM, [], handlers, data⟩
  else do
    let called ← fetchEventData handle report (some newEventData) returns handlers
    if called.ret < 0 then pure { called with data := data }
    else
      match reading with
      | .expired count => pure { called with ret := 0, data := some ⟨newEventData, count⟩ }
      | .failed errno =>
          if (errno : Int) ≠ EAGAIN then pure { called with ret := -errno, data := data }
          else pure { called with ret := 0, data := some ⟨newEventData, 0⟩ }

/-! ## The property -/

/-- Exactly the handlers that are registered for one of the types `ready` are invoked, once each, and
these types are what they get. -/
structure Exact (ready : BitVec 32) (handlers : List (Registration η δ))
    (invocations : List (Invocation η δ)) : Prop where
  once : (invocations.map Invocation.info).Nodup
  invoked : ∀ info registration, handlers[info]? = some registration →
    ((∃ i ∈ invocations, i.info = info) ↔ registration.type &&& ready ≠ 0#32)
  passed : ∀ i ∈ invocations, ∃ registration, handlers[i.info]? = some registration ∧
    i.handler = registration.handler ∧ i.data = registration.data ∧
      i.type = ready &&& registration.type ∧ i.event.type = ready

/-- The call does not fault, and the readiness reaches the handlers. -/
def Reaches {ω : Type*} (ready : BitVec 32) (handlers : List (Registration η δ))
    (outcome : Except Fault (Called η δ ω)) : Prop :=
  ∃ called, outcome = .ok called ∧ Exact ready handlers called.invocations

/-! ## Selecting -/

theorem FD_SET_zero {fd : Nat} (h : fd < FD_SETSIZE) : FD_SET fd FD_ZERO = .ok {⟨fd, h⟩} := by
  unfold FD_SET FD_ZERO
  rw [dif_pos h]
  rfl

theorem selectTypes_outside {handle : Nat} (h : ¬ handle < FD_SETSIZE) (report : Report) :
    selectTypes handle report = .error .outsideSets := by
  have hset : FD_SET handle FD_ZERO = .error .outsideSets := dif_neg h
  unfold selectTypes selectReady
  rw [if_pos (Int.natCast_nonneg handle), Int.toNat_natCast, hset]
  rfl

theorem ready_singleton {fd : Nat} (h : fd < FD_SETSIZE) (ready : Nat → Bool) :
    FdSet.ready (fd + 1) ready {⟨fd, h⟩} = bif ready fd then {⟨fd, h⟩} else ∅ := by
  unfold FdSet.ready
  rw [Finset.filter_singleton]
  cases hready : ready fd <;> simp

theorem FD_ISSET_singleton {fd : Nat} (h : fd < FD_SETSIZE) (b : Bool) :
    FD_ISSET fd (bif b then {⟨fd, h⟩} else ∅) = .ok b := by
  unfold FD_ISSET
  rw [dif_pos h]
  cases b <;> simp

/-- An early return reports no type. -/
theorem selectTypes_inside {handle : Nat} (h : handle < FD_SETSIZE) (report : Report) :
    (∃ ret, selectTypes handle report = .ok (.returned ret) ∧ report.types handle = 0#32) ∨
      (selectTypes handle report = .ok (.types (report.types handle)) ∧
        report.types handle ≠ 0#32) := by
  unfold selectTypes selectReady
  rw [if_pos (Int.natCast_nonneg handle), Int.toNat_natCast, FD_SET_zero h]
  cases report with
  | failed errno => exact .inl ⟨-errno, rfl, rfl⟩
  | ready types =>
      dsimp only [bind, Except.bind, pure, Except.pure]
      rw [ready_singleton h, ready_singleton h, ready_singleton h, FD_ISSET_singleton h,
        FD_ISSET_singleton h, FD_ISSET_singleton h]
      dsimp only [Report.types]
      rcases types handle with ⟨read, write, error⟩
      cases read <;> cases write <;> cases error
      · -- The sets have come back empty.
        exact .inl ⟨-EAGAIN, rfl, rfl⟩
      all_goals exact .inr ⟨rfl, by decide⟩

/-! ## The loop -/

/-- What the handler at a position is called with, if it is called. -/
def called (d : EventData) : Registration η δ × Nat → Option (Invocation η δ)
  | (registration, info) =>
      if registration.type &&& d.type ≠ 0#32 then
        some ⟨info, registration.handler, d.type &&& registration.type, d, registration.data⟩
      else none

theorem loop_some (d : EventData) (returns : Nat → HandlerReturn) (info : Nat)
    (handlers : List (Registration η δ)) :
    ∃ kept, loop (some d) returns info handlers =
      .ok ((handlers.zipIdx info).filterMap (called d), kept) := by
  induction handlers generalizing info with
  | nil => exact ⟨[], rfl⟩
  | cons registration rest ih =>
      rcases ih (info + 1) with ⟨kept, hrest⟩
      rw [List.zipIdx_cons]
      by_cases hmatches : registration.type &&& d.type ≠ 0#32
      · have hcalled : called d (registration, info) = some _ := if_pos hmatches
        refine ⟨if returns info = .cancel then kept else registration :: kept, ?_⟩
        rw [loop, hrest, List.filterMap_cons_some hcalled]
        dsimp only [bind, Except.bind]
        rw [if_pos hmatches]
        rfl
      · have hcalled : called d (registration, info) = none := if_neg hmatches
        refine ⟨registration :: kept, ?_⟩
        rw [loop, hrest, List.filterMap_cons_none hcalled]
        dsimp only [bind, Except.bind]
        rw [if_neg hmatches]
        rfl

theorem loop_none {handlers : List (Registration η δ)} (hne : handlers ≠ [])
    (returns : Nat → HandlerReturn) (info : Nat) :
    loop none returns info handlers = .error .nullEventData := by
  cases handlers with
  | nil => exact absurd rfl hne
  | cons registration rest => rfl

theorem mem_called {d : EventData} {handlers : List (Registration η δ)} {i : Invocation η δ} :
    i ∈ (handlers.zipIdx 0).filterMap (called d) ↔ ∃ registration,
      handlers[i.info]? = some registration ∧ registration.type &&& d.type ≠ 0#32 ∧
        i = ⟨i.info, registration.handler, d.type &&& registration.type, d, registration.data⟩ := by
  rw [List.mem_filterMap]
  constructor
  · rintro ⟨⟨registration, info⟩, hmem, hcalled⟩
    rw [List.mem_zipIdx_iff_getElem?] at hmem
    by_cases hmatches : registration.type &&& d.type ≠ 0#32
    · rw [called, if_pos hmatches] at hcalled
      cases hcalled
      exact ⟨registration, hmem, hmatches, rfl⟩
    · rw [called, if_neg hmatches] at hcalled
      cases hcalled
  · rintro ⟨registration, hget, hmatches, hi⟩
    refine ⟨(registration, i.info), List.mem_zipIdx_iff_getElem?.2 hget, ?_⟩
    rw [called, if_pos hmatches]
    exact congrArg some hi.symm

theorem called_at {d : EventData} {handlers : List (Registration η δ)} {info : Nat}
    {registration : Registration η δ} (hget : handlers[info]? = some registration) :
    (∃ i ∈ (handlers.zipIdx 0).filterMap (called d), i.info = info) ↔
      registration.type &&& d.type ≠ 0#32 := by
  constructor
  · rintro ⟨i, hi, rfl⟩
    rcases mem_called.1 hi with ⟨other, hother, hmatches, -⟩
    rw [hget] at hother
    cases hother
    exact hmatches
  · intro hmatches
    let i : Invocation η δ :=
      ⟨info, registration.handler, d.type &&& registration.type, d, registration.data⟩
    have hi : i ∈ (handlers.zipIdx 0).filterMap (called d) :=
      mem_called.2 ⟨registration, hget, hmatches, rfl⟩
    exact ⟨i, hi, rfl⟩

theorem map_called (d : EventData) (l : List (Registration η δ × Nat)) :
    (l.filterMap (called d)).map Invocation.info =
      (l.filter fun r => r.1.type &&& d.type ≠ 0#32).map Prod.snd := by
  induction l with
  | nil => rfl
  | cons r rest ih =>
      rcases r with ⟨registration, info⟩
      by_cases hmatches : registration.type &&& d.type ≠ 0#32
      · have hcalled : called d (registration, info) = some _ := if_pos hmatches
        rw [List.filterMap_cons_some hcalled, List.filter_cons_of_pos (by simpa using hmatches),
          List.map_cons, List.map_cons, ih]
      · have hcalled : called d (registration, info) = none := if_neg hmatches
        rw [List.filterMap_cons_none hcalled, List.filter_cons_of_neg (by simpa using hmatches), ih]

theorem nodup_called (d : EventData) (handlers : List (Registration η δ)) (info : Nat) :
    (((handlers.zipIdx info).filterMap (called d)).map Invocation.info).Nodup := by
  have hpositions : ((handlers.zipIdx info).map Prod.snd).Nodup := by
    rw [List.zipIdx_map_snd]
    exact List.nodup_range'
  rw [map_called]
  exact hpositions.sublist (List.filter_sublist.map Prod.snd)

/-! ## Exactly the handlers -/

theorem exact_nil {ready : BitVec 32} {handlers : List (Registration η δ)} :
    Exact ready handlers [] ↔ ∀ registration ∈ handlers, registration.type &&& ready = 0#32 := by
  constructor
  · intro hexact registration hmem
    rcases List.mem_iff_getElem?.1 hmem with ⟨info, hget⟩
    by_contra hmatches
    rcases (hexact.invoked info registration hget).2 hmatches with ⟨i, hi, -⟩
    cases hi
  · intro hnone
    refine ⟨List.nodup_nil, fun info registration hget => ?_, nofun⟩
    refine iff_of_false nofun (not_not_intro ?_)
    exact hnone registration (List.mem_of_getElem? hget)

theorem exact_called {ready : BitVec 32} {d : EventData} {handlers : List (Registration η δ)} :
    Exact ready handlers ((handlers.zipIdx 0).filterMap (called d)) ↔
      ∀ registration ∈ handlers, registration.type &&& d.type = registration.type &&& ready ∧
        (registration.type &&& d.type ≠ 0#32 → d.type = ready) := by
  constructor
  · intro hexact registration hmem
    rcases List.mem_iff_getElem?.1 hmem with ⟨info, hget⟩
    have hsame : registration.type &&& d.type ≠ 0#32 ↔ registration.type &&& ready ≠ 0#32 :=
      (called_at hget).symm.trans (hexact.invoked info registration hget)
    have hd : registration.type &&& d.type ≠ 0#32 → d.type = ready := by
      intro hmatches
      rcases (called_at hget).2 hmatches with ⟨i, hi, -⟩
      rcases mem_called.1 hi with ⟨_, -, -, heq⟩
      rcases hexact.passed i hi with ⟨_, -, -, -, -, htype⟩
      rwa [heq] at htype
    -- A handler that is called fixes the word; for one that is not both bit masks are 0.
    by_cases hmatches : registration.type &&& d.type = 0#32
    · have hready : registration.type &&& ready = 0#32 := by
        by_contra hne
        exact hsame.2 hne hmatches
      exact ⟨hmatches.trans hready.symm, hd⟩
    · exact ⟨congrArg (registration.type &&& ·) (hd hmatches), hd⟩
  · intro hall
    refine ⟨nodup_called d handlers 0, fun info registration hget => ?_, fun i hi => ?_⟩
    · rw [called_at hget, (hall registration (List.mem_of_getElem? hget)).1]
    · rcases mem_called.1 hi with ⟨registration, hget, hmatches, heq⟩
      have hd := (hall registration (List.mem_of_getElem? hget)).2 hmatches
      rw [heq]
      exact ⟨registration, hget, rfl, rfl, congrArg (· &&& registration.type) hd, hd⟩

/-! ## The calls -/

theorem reaches_ok {ω : Type*} {ready : BitVec 32} {handlers : List (Registration η δ)}
    {outcome : Except Fault (Called η δ ω)} {c : Called η δ ω} (h : outcome = .ok c) :
    Reaches ready handlers outcome ↔ Exact ready handlers c.invocations := by
  constructor
  · rintro ⟨c', hc', hexact⟩
    rw [h] at hc'
    cases hc'
    exact hexact
  · intro hexact
    exact ⟨c, h, hexact⟩

theorem not_reaches {ω : Type*} {ready : BitVec 32} {handlers : List (Registration η δ)}
    {outcome : Except Fault (Called η δ ω)} {fault : Fault} (h : outcome = .error fault) :
    ¬ Reaches ready handlers outcome := by
  rintro ⟨c, hc, -⟩
  rw [h] at hc
  cases hc

/-- What the default fetcher leaves to the loop. -/
theorem fetchEventData_eq (handle : Int) (report : Report) (data : Option EventData)
    (returns : Nat → HandlerReturn) (handlers : List (Registration η δ)) {type : BitVec 32}
    (htypes : selectTypes handle report = .ok (.types type)) :
    fetchEventData handle report data returns handlers =
      (loop data returns 0 handlers).map fun r => ⟨0, r.1, r.2, data⟩ := by
  unfold fetchEventData fetchEventDataWith
  rw [htypes]
  dsimp only
  cases loop data returns 0 handlers <;> rfl

theorem fetchEventData_returned (handle : Int) (report : Report) (data : Option EventData)
    (returns : Nat → HandlerReturn) (handlers : List (Registration η δ)) {ret : Int}
    (hreturned : selectTypes handle report = .ok (.returned ret)) :
    fetchEventData handle report data returns handlers = .ok ⟨ret, [], handlers, data⟩ := by
  unfold fetchEventData fetchEventDataWith
  rw [hreturned]
  rfl

theorem fetchEventData_outside {handle : Nat} (h : ¬ handle < FD_SETSIZE) (report : Report)
    (data : Option EventData) (returns : Nat → HandlerReturn)
    (handlers : List (Registration η δ)) :
    fetchEventData handle report data returns handlers = .error .outsideSets := by
  unfold fetchEventData fetchEventDataWith
  rw [selectTypes_outside h report]

theorem fetchEventData_reaches_iff (handle : Nat) (report : Report) (data : Option EventData)
    (returns : Nat → HandlerReturn) (handlers : List (Registration η δ)) :
    Reaches (report.types handle) handlers (fetchEventData handle report data returns handlers) ↔
      handle < FD_SETSIZE ∧ (report.types handle = 0#32 ∨ handlers = [] ∨
        ∃ d, data = some d ∧ ∀ registration ∈ handlers,
          registration.type &&& d.type = registration.type &&& report.types handle ∧
            (registration.type &&& d.type ≠ 0#32 → d.type = report.types handle)) := by
  by_cases h : handle < FD_SETSIZE
  · rw [and_iff_right h]
    rcases selectTypes_inside h report with ⟨ret, hreturned, hzero⟩ | ⟨htypes, hne⟩
    · -- Nothing is ready, and the handlers are not looked at.
      have hcall := fetchEventData_returned handle report data returns handlers hreturned
      refine iff_of_true ((reaches_ok hcall).2 (exact_nil.2 fun registration _ => ?_)) (.inl hzero)
      rw [hzero, BitVec.and_zero]
    · have hcall := fetchEventData_eq handle report data returns handlers htypes
      rw [or_iff_right hne]
      cases data with
      | none =>
          by_cases hempty : handlers = []
          · subst hempty
            have hok : fetchEventData handle report none returns ([] : List (Registration η δ)) =
                .ok ⟨0, [], [], none⟩ := hcall
            exact iff_of_true ((reaches_ok hok).2 (exact_nil.2 nofun)) (.inl rfl)
          · -- The first handler makes the loop read through the null pointer.
            rw [loop_none hempty] at hcall
            refine iff_of_false (not_reaches hcall) ?_
            rintro (hnil | ⟨d, hd, -⟩)
            · exact hempty hnil
            · cases hd
      | some d =>
          rcases loop_some d returns 0 handlers with ⟨kept, hloop⟩
          rw [hloop] at hcall
          rw [reaches_ok hcall, exact_called]
          constructor
          · intro hall
            exact .inr ⟨d, rfl, hall⟩
          · rintro (rfl | ⟨_, hd, hall⟩)
            · exact nofun
            · cases hd
              exact hall
  · exact iff_of_false (not_reaches (fetchEventData_outside h report data returns handlers))
      fun hand => h hand.1

/-- The event data of a timer has no type, so that no handler matches it. -/
theorem newEventData_invokes_none {handle : Nat} (h : handle < FD_SETSIZE) (report : Report)
    (returns : Nat → HandlerReturn) (handlers : List (Registration η δ)) :
    ∃ c, fetchEventData handle report (some newEventData) returns handlers = .ok c ∧
      c.invocations = [] := by
  rcases selectTypes_inside h report with ⟨ret, hreturned, -⟩ | ⟨htypes, -⟩
  · exact ⟨_, fetchEventData_returned handle report _ returns handlers hreturned, rfl⟩
  · have hcall := fetchEventData_eq handle report (some newEventData) returns handlers htypes
    rcases loop_some newEventData returns 0 handlers with ⟨kept, hloop⟩
    rw [hloop] at hcall
    refine ⟨_, hcall, List.filterMap_eq_nil_iff.2 fun r _ => ?_⟩
    exact if_neg (not_not_intro (BitVec.and_zero (x := r.1.type)))

/-- What `read` gives does not matter for the handlers. -/
theorem timerFetchEventData_ok {handle : Nat} {report : Report} {returns : Nat → HandlerReturn}
    {handlers : List (Registration η δ)} {c : Called η δ (Option EventData)}
    (hcall : fetchEventData handle report (some newEventData) returns handlers = .ok c)
    (reading : Reading) (data : Option TimerEventData) :
    ∃ c', timerFetchEventData true handle report reading data returns handlers = .ok c' ∧
      c'.invocations = c.invocations := by
  unfold timerFetchEventData
  rw [if_neg nofun, hcall]
  dsimp only [bind, Except.bind]
  split
  · exact ⟨_, rfl, rfl⟩
  · cases reading with
    | expired count => exact ⟨_, rfl, rfl⟩
    | failed errno =>
        dsimp only
        split
        · exact ⟨_, rfl, rfl⟩
        · exact ⟨_, rfl, rfl⟩

theorem timer_reaches_iff (allocated : Bool) (handle : Nat) (report : Report) (reading : Reading)
    (data : Option TimerEventData) (returns : Nat → HandlerReturn)
    (handlers : List (Registration η δ)) :
    Reaches (report.types handle) handlers
        (timerFetchEventData allocated handle report reading data returns handlers) ↔
      (allocated = false ∨ handle < FD_SETSIZE) ∧
        ∀ registration ∈ handlers, registration.type &&& report.types handle = 0#32 := by
  cases allocated with
  | false =>
      -- Without memory `select` is not called.
      have hcall : timerFetchEventData false handle report reading data returns handlers =
          .ok ⟨-ENOMEM, [], handlers, data⟩ := rfl
      rw [reaches_ok hcall, exact_nil, and_iff_right (.inl rfl)]
  | true =>
      by_cases h : handle < FD_SETSIZE
      · rcases newEventData_invokes_none h report returns handlers with ⟨c, hcall, hnone⟩
        rcases timerFetchEventData_ok hcall reading data with ⟨c', hcall', hsame⟩
        rw [reaches_ok hcall', hsame, hnone, exact_nil, and_iff_right (.inr h)]
      · have hcall : timerFetchEventData true handle report reading data returns handlers =
            .error .outsideSets := by
          unfold timerFetchEventData
          rw [if_neg nofun, fetchEventData_outside h]
          rfl
        refine iff_of_false (not_reaches hcall) ?_
        rintro ⟨hallocated | hinside, -⟩
        · cases hallocated
        · exact h hinside

theorem readiness_reaches_iff (handle : Nat) (report : Report) (returns : Nat → HandlerReturn)
    (handlers : List (Registration η δ)) :
    (∀ data : Option EventData,
      Reaches (report.types handle) handlers
          (fetchEventData handle report data returns handlers) ↔
        handle < FD_SETSIZE ∧ (report.types handle = 0#32 ∨ handlers = [] ∨
          ∃ d, data = some d ∧ ∀ registration ∈ handlers,
            registration.type &&& d.type = registration.type &&& report.types handle ∧
              (registration.type &&& d.type ≠ 0#32 → d.type = report.types handle))) ∧
      ∀ (allocated : Bool) (reading : Reading) (data : Option TimerEventData),
        Reaches (report.types handle) handlers
            (timerFetchEventData allocated handle report reading data returns handlers) ↔
          (allocated = false ∨ handle < FD_SETSIZE) ∧
            ∀ registration ∈ handlers, registration.type &&& report.types handle = 0#32 :=
  ⟨fun data => fetchEventData_reaches_iff handle report data returns handlers,
    fun allocated reading data =>
      timer_reaches_iff allocated handle report reading data returns handlers⟩

/-- A timer that has expired. -/
def expired : Report := .ready fun _ => ⟨true, false, false⟩

def readHandlers : List (Registration Nat Nat) := [⟨0, EventValue.read.code, 0⟩]

theorem expired_timer_unnoticed :
    ¬ Reaches (expired.types 3) readHandlers
      (timerFetchEventData true 3 expired (.expired 1) none (fun _ => .renew) readHandlers) := by
  rintro ⟨c, hc, hexact⟩
  have hcall : timerFetchEventData true 3 expired (.expired 1) none (fun _ => .renew) readHandlers =
      .ok ⟨0, [], readHandlers, some ⟨newEventData, 1⟩⟩ := rfl
  rw [hcall] at hc
  cases hc
  have hinvoked := (hexact.invoked 0 ⟨0, EventValue.read.code, 0⟩ rfl).2 (by decide)
  rcases hinvoked with ⟨i, hi, -⟩
  cases hi

end Readiness
end EventObject
end Beyond
