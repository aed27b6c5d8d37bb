import Mathlib.Data.List.Nodup
import Mathlib.Data.List.TakeWhile
import Beyond.Base.Platform
import Beyond.EventLoop.Handlers

/-!
# One round of the event loop

`EventLoop::impl::WaitEpoll` goes through the batch that `epoll_pwait` has filled.  Its variable `ret`
is the number of the events, the bound of the loop, and what is returned: when the loop meets the entry
of the signal descriptor, it stores `-EINTR` there.

Here no other thread is at work, so the flag `in_use` of a handler object is only set while its handler
runs.  A handler may remove itself.
-/

namespace Beyond
namespace EventLoop
namespace WaitEpoll

open Errno

/-! ## Types of events -/

def BEYOND_EVENT_TYPE_READ : BitVec 32 := 0x10#32
def BEYOND_EVENT_TYPE_WRITE : BitVec 32 := 0x20#32
def BEYOND_EVENT_TYPE_ERROR : BitVec 32 := 0x40#32

def EPOLLIN : BitVec 32 := 0x01#32
def EPOLLPRI : BitVec 32 := 0x02#32
def EPOLLOUT : BitVec 32 := 0x04#32
def EPOLLERR : BitVec 32 := 0x08#32

def EINTR : Int := 4

/-- A test of bits. -/
def has (word bits : BitVec 32) : Bool := word &&& bits != 0#32

/-! ## State -/

/-- `HandlerObjectImpl`. -/
structure Item where
  type : BitVec 32
  state : HandlerState
  inUse : Bool
  deriving DecidableEq

/-- An `epoll_event`; the one of the signal descriptor has a null pointer. -/
inductive Entry (ρ : Type*)
  | signal
  | handler (item : ρ) (events : BitVec 32)
  deriving DecidableEq

namespace Entry

variable {ρ : Type*}

def isHandler : Entry ρ → Bool
  | signal => false
  | handler _ _ => true

def item : Entry ρ → Option ρ
  | signal => none
  | handler item _ => some item

end Entry

/-- What a handler does: its result, whether it calls `RemoveEventHandler` for itself, and whether it
was added with a cancel handler. -/
structure Reaction where
  opt : HandlerReturn
  removes : Bool
  cancelHandler : Bool
  deriving DecidableEq, Repr

structure State (ρ : Type*) where
  obj : ρ → Item
  alive : ρ → Bool
  /-- The handlers that the round has invoked, with the type that they were given. -/
  invoked : List (ρ × BitVec 32)
  cancelled : List ρ

section Functions

variable {ρ : Type*} [DecidableEq ρ]

def State.setObj (s : State ρ) (r : ρ) (o : Item) : State ρ :=
  { s with obj := Function.update s.obj r o }

/-- The private `RemoveEventHandler`; an error of `epoll_ctl` changes nothing. -/
def removeEventHandler (s : State ρ) (r : ρ) : State ρ :=
  if (s.obj r).inUse = true then s.setObj r { s.obj r with state := .delete }
  else
    { s.setObj r { s.obj r with inUse := true, state := .deleted } with
      alive := Function.update s.alive r false }

/-- The word `type` of the loop. -/
def typeOf (type events : BitVec 32) : BitVec 32 :=
  let readable :=
    if has events (EPOLLIN ||| EPOLLPRI) then
      if has type BEYOND_EVENT_TYPE_READ then 0#32 ||| BEYOND_EVENT_TYPE_READ else 0#32
    else 0#32
  let writable :=
    if has events EPOLLOUT then
      if has type BEYOND_EVENT_TYPE_WRITE then readable ||| BEYOND_EVENT_TYPE_WRITE else readable
    else readable
  if has events EPOLLERR then
    if has type BEYOND_EVENT_TYPE_ERROR then writable ||| BEYOND_EVENT_TYPE_ERROR else writable
  else writable

/-- The event handler runs. -/
def invoke (react : ρ → Reaction) (s : State ρ) (r : ρ) (type : BitVec 32) : State ρ :=
  let s := { s with invoked := s.invoked ++ [(r, type)] }
  if (react r).removes = true then removeEventHandler s r else s

/-- What the loop does behind the event handler. -/
def settle (react : ρ → Reaction) (s : State ρ) (r : ρ) : State ρ :=
  if (react r).opt = .cancel ∨ (s.obj r).state = .delete then
    let s := s.setObj r { s.obj r with state := .delete, inUse := false }
    let s := removeEventHandler s r
    if (react r).cancelHandler = true then { s with cancelled := s.cancelled ++ [r] } else s
  else s.setObj r { s.obj r with inUse := false }

/-- The loop on an entry of a handler. -/
def dispatch (react : ρ → Reaction) (s : State ρ) (r : ρ) (events : BitVec 32) : State ρ :=
  let type := typeOf (s.obj r).type events
  if type = 0#32 then s
  else if (s.obj r).inUse = true then s
  else settle react (invoke react (s.setObj r { s.obj r with inUse := true }) r type) r

/-- The loop at index `i`; `rest` is the array from there on. -/
def loop (react : ρ → Reaction) (i ret : Int) (s : State ρ) : List (Entry ρ) → Int × State ρ
  | [] => (ret, s)
  | e :: rest =>
      if i < ret then
        match e with
        | .signal => loop react (i + 1) (-EINTR) s rest
        | .handler r events => loop react (i + 1) ret (dispatch react s r events) rest
      else (ret, s)

/-- `WaitEpoll` behind `epoll_pwait`, which has failed or filled in a batch. -/
def waitEpoll (react : ρ → Reaction) (s : State ρ) (ready : Except Int (List (Entry ρ))) :
    Int × State ρ :=
  match ready with
  | .error errno => (-errno, s)
  | .ok [] => (-ETIMEDOUT, s)
  | .ok (e :: rest) => loop react 0 (e :: rest).length { s with invoked := [] } (e :: rest)

end Functions

/-! ## The property -/

/-- A type of the handler is among the reported events. -/
def Matching (type events : BitVec 32) : Prop :=
  (has events (EPOLLIN ||| EPOLLPRI) = true ∧ has type BEYOND_EVENT_TYPE_READ = true) ∨
    (has events EPOLLOUT = true ∧ has type BEYOND_EVENT_TYPE_WRITE = true) ∨
    (has events EPOLLERR = true ∧ has type BEYOND_EVENT_TYPE_ERROR = true)

instance (type events : BitVec 32) : Decidable (Matching type events) :=
  inferInstanceAs (Decidable (_ ∨ _ ∨ _))

/-- The word has the types of the handler that are among the reported events, and no other bit. -/
structure Exactly (word type events : BitVec 32) : Prop where
  read : has word BEYOND_EVENT_TYPE_READ = true ↔
    has events (EPOLLIN ||| EPOLLPRI) = true ∧ has type BEYOND_EVENT_TYPE_READ = true
  write : has word BEYOND_EVENT_TYPE_WRITE = true ↔
    has events EPOLLOUT = true ∧ has type BEYOND_EVENT_TYPE_WRITE = true
  error : has word BEYOND_EVENT_TYPE_ERROR = true ↔
    has events EPOLLERR = true ∧ has type BEYOND_EVENT_TYPE_ERROR = true
  other : word &&&
    ~~~(BEYOND_EVENT_TYPE_READ ||| BEYOND_EVENT_TYPE_WRITE ||| BEYOND_EVENT_TYPE_ERROR) = 0#32

/-- A batch and the objects that it points to.  `epoll_pwait` reports a registration once, and nobody
is removing one. -/
structure Batch (ρ : Type*) where
  state : State ρ
  entries : List (Entry ρ)
  nonempty : entries ≠ []
  distinct : (entries.filterMap Entry.item).Nodup
  idle : ∀ r events, .handler r events ∈ entries → (state.obj r).inUse = false

structure Complete {ρ : Type*} [DecidableEq ρ] (b : Batch ρ) (round : Int × State ρ) : Prop where
  invoked : ∀ r events, .handler r events ∈ b.entries → Matching (b.state.obj r).type events →
    ∃ word, Exactly word (b.state.obj r).type events ∧
      round.2.invoked.filter (fun call => call.1 = r) = [(r, word)]
  ret : round.1 = if .signal ∈ b.entries then -EINTR else b.entries.length

/-- Behind an entry of the signal descriptor no handler matches. -/
def SignalLast {ρ : Type*} (b : Batch ρ) : Prop :=
  ∀ r events, .handler r events ∈ b.entries.dropWhile Entry.isHandler →
    ¬ Matching (b.state.obj r).type events

/-! ## The word that a handler is given -/

theorem typeOf_eq (type events : BitVec 32) :
    typeOf type events =
      (bif has events (EPOLLIN ||| EPOLLPRI) && has type BEYOND_EVENT_TYPE_READ then
        BEYOND_EVENT_TYPE_READ else 0#32) |||
      (bif has events EPOLLOUT && has type BEYOND_EVENT_TYPE_WRITE then
        BEYOND_EVENT_TYPE_WRITE else 0#32) |||
      (bif has events EPOLLERR && has type BEYOND_EVENT_TYPE_ERROR then
        BEYOND_EVENT_TYPE_ERROR else 0#32) := by
  unfold typeOf
  cases has events (EPOLLIN ||| EPOLLPRI) <;> cases has type BEYOND_EVENT_TYPE_READ <;>
    cases has events EPOLLOUT <;> cases has type BEYOND_EVENT_TYPE_WRITE <;>
    cases has events EPOLLERR <;> cases has type BEYOND_EVENT_TYPE_ERROR <;> rfl

theorem typeOf_exactly (type events : BitVec 32) : Exactly (typeOf type events) type events := by
  rw [typeOf_eq]
  refine ⟨?_, ?_, ?_, ?_⟩ <;> try rw [← Bool.and_eq_true]
  all_goals
    generalize (has events (EPOLLIN ||| EPOLLPRI) && has type BEYOND_EVENT_TYPE_READ) = readable
    generalize (has events EPOLLOUT && has type BEYOND_EVENT_TYPE_WRITE) = writable
    generalize (has events EPOLLERR && has type BEYOND_EVENT_TYPE_ERROR) = failed
    cases readable <;> cases writable <;> cases failed <;> decide

theorem typeOf_ne_zero_iff (type events : BitVec 32) :
    typeOf type events ≠ 0#32 ↔ Matching type events := by
  rw [typeOf_eq]
  simp only [Matching, ← Bool.and_eq_true]
  generalize (has events (EPOLLIN ||| EPOLLPRI) && has type BEYOND_EVENT_TYPE_READ) = readable
  generalize (has events EPOLLOUT && has type BEYOND_EVENT_TYPE_WRITE) = writable
  generalize (has events EPOLLERR && has type BEYOND_EVENT_TYPE_ERROR) = failed
  cases readable <;> cases writable <;> cases failed <;> decide

/-! ## What an entry does -/

section Rounds

variable {ρ : Type*} [DecidableEq ρ] {react : ρ → Reaction} {s : State ρ} {r : ρ}

/-- The call that an entry leads to. -/
def call (obj : ρ → Item) : Entry ρ → Option (ρ × BitVec 32)
  | .signal => none
  | .handler r events =>
      if typeOf (obj r).type events = 0#32 then none else some (r, typeOf (obj r).type events)

/-- Only the object of the entry is touched. -/
structure Frame (s s' : State ρ) (r : ρ) : Prop where
  obj : ∀ x, x ≠ r → s'.obj x = s.obj x
  alive : ∀ x, x ≠ r → s'.alive x = s.alive x

omit [DecidableEq ρ] in
theorem Frame.trans {s₁ s₂ : State ρ} (h₁ : Frame s s₁ r) (h₂ : Frame s₁ s₂ r) : Frame s s₂ r :=
  ⟨fun x hx => (h₂.obj x hx).trans (h₁.obj x hx), fun x hx => (h₂.alive x hx).trans (h₁.alive x hx)⟩

theorem frame_setObj (s : State ρ) (r : ρ) (o : Item) : Frame s (s.setObj r o) r :=
  ⟨fun _ hx => Function.update_of_ne hx _ _, fun _ _ => rfl⟩

theorem frame_removeEventHandler (s : State ρ) (r : ρ) : Frame s (removeEventHandler s r) r := by
  unfold removeEventHandler
  split
  · exact frame_setObj s r _
  · exact ⟨fun _ hx => Function.update_of_ne hx _ _, fun _ hx => Function.update_of_ne hx _ _⟩

theorem removeEventHandler_invoked (s : State ρ) (r : ρ) :
    (removeEventHandler s r).invoked = s.invoked := by
  unfold removeEventHandler
  split
  · rfl
  · rfl

theorem frame_invoke (react : ρ → Reaction) (s : State ρ) (r : ρ) (type : BitVec 32) :
    Frame s (invoke react s r type) r ∧ (invoke react s r type).invoked = s.invoked ++ [(r, type)] := by
  unfold invoke
  split
  · exact ⟨⟨(frame_removeEventHandler _ r).obj, (frame_removeEventHandler _ r).alive⟩,
      removeEventHandler_invoked _ r⟩
  · exact ⟨⟨fun _ _ => rfl, fun _ _ => rfl⟩, rfl⟩

theorem frame_settle (react : ρ → Reaction) (s : State ρ) (r : ρ) :
    Frame s (settle react s r) r ∧ (settle react s r).invoked = s.invoked := by
  unfold settle
  split
  · have hremoved := (frame_setObj s r { s.obj r with state := .delete, inUse := false }).trans
      (frame_removeEventHandler _ r)
    dsimp only
    split
    · exact ⟨⟨hremoved.obj, hremoved.alive⟩, removeEventHandler_invoked _ r⟩
    · exact ⟨hremoved, removeEventHandler_invoked _ r⟩
  · exact ⟨frame_setObj s r _, rfl⟩

theorem frame_dispatch (react : ρ → Reaction) (s : State ρ) (r : ρ) (events : BitVec 32) :
    Frame s (dispatch react s r events) r := by
  unfold dispatch
  dsimp only
  split
  · exact ⟨fun _ _ => rfl, fun _ _ => rfl⟩
  · split
    · exact ⟨fun _ _ => rfl, fun _ _ => rfl⟩
    · exact ((frame_setObj s r _).trans (frame_invoke react _ r _).1).trans (frame_settle react _ r).1

theorem dispatch_invoked (events : BitVec 32) (hidle : (s.obj r).inUse = false) :
    (dispatch react s r events).invoked = s.invoked ++ (call s.obj (.handler r events)).toList := by
  unfold dispatch call
  dsimp only
  split
  · exact (List.append_nil _).symm
  · rw [if_neg (by simp [hidle]), (frame_settle react _ r).2, (frame_invoke react _ r _).2]
    rfl

/-! ## The loop -/

/-- Once `ret` is negative the loop is at its end. -/
theorem loop_interrupted {i : Int} (hi : 0 ≤ i) (rest : List (Entry ρ)) :
    loop react (i + 1) (-EINTR) s rest = (-EINTR, s) := by
  cases rest with
  | nil => rfl
  | cons e rest =>
      have hstop : ¬ i + 1 < -EINTR := by
        unfold EINTR
        omega
      exact if_neg hstop

/-- The loop handles the entries in front of the first signal. -/
theorem loop_spec (rest : List (Entry ρ)) {i ret : Int} (hi : 0 ≤ i) (hret : i + rest.length = ret)
    (hdistinct : (rest.filterMap Entry.item).Nodup)
    (hidle : ∀ r events, .handler r events ∈ rest → (s.obj r).inUse = false) :
    (loop react i ret s rest).1 = (if .signal ∈ rest then -EINTR else ret) ∧
      (loop react i ret s rest).2.invoked =
        s.invoked ++ (rest.takeWhile Entry.isHandler).filterMap (call s.obj) := by
  induction rest generalizing i s with
  | nil => exact ⟨rfl, (List.append_nil _).symm⟩
  | cons e rest ih =>
      rw [List.length_cons] at hret
      have hlt : i < ret := by omega
      unfold loop
      rw [if_pos hlt]
      cases e with
      | signal =>
          -- From here on `i < ret` is false.
          rw [loop_interrupted hi]
          exact ⟨(if_pos List.mem_cons_self).symm, (List.append_nil _).symm⟩
      | handler r events =>
          have hframe := frame_dispatch react s r events
          have hnew : (dispatch react s r events).invoked = _ :=
            dispatch_invoked events (hidle r events List.mem_cons_self)
          rcases List.nodup_cons.1 hdistinct with ⟨hr, hrest⟩
          -- No later entry is for the object that the handler has changed.
          have hother : ∀ x events', .handler x events' ∈ rest → x ≠ r := by
            rintro x events' hx rfl
            exact hr (List.mem_filterMap.2 ⟨_, hx, rfl⟩)
          have hidle' : ∀ x events', .handler x events' ∈ rest →
              ((dispatch react s r events).obj x).inUse = false := by
            intro x events' hx
            rw [hframe.obj x (hother x events' hx)]
            exact hidle x events' (List.mem_cons_of_mem _ hx)
          have hcalls : (rest.takeWhile Entry.isHandler).filterMap (call (dispatch react s r events).obj) =
              (rest.takeWhile Entry.isHandler).filterMap (call s.obj) := by
            refine List.filterMap_congr fun e he => ?_
            cases e with
            | signal => rfl
            | handler x events' =>
                have hx := (List.takeWhile_sublist Entry.isHandler).subset he
                simp only [call, hframe.obj x (hother x events' hx)]
          rcases ih (i := i + 1) (by omega) (by omega) hrest hidle' with ⟨hret', hinvoked⟩
          refine ⟨?_, ?_⟩
          · rw [hret']
            simp
          · rw [hinvoked, hnew, hcalls, List.takeWhile_cons_of_pos rfl, List.filterMap_cons,
              List.append_assoc]
            cases call s.obj (.handler r events) with
            | none => rfl
            | some c => rfl

theorem waitEpoll_spec (react : ρ → Reaction) (b : Batch ρ) :
    (waitEpoll react b.state (.ok b.entries)).1 =
        (if .signal ∈ b.entries then -EINTR else b.entries.length) ∧
      (waitEpoll react b.state (.ok b.entries)).2.invoked =
        (b.entries.takeWhile Entry.isHandler).filterMap (call b.state.obj) := by
  rcases b with ⟨s, entries, hnonempty, hdistinct, hidle⟩
  cases entries with
  | nil => exact absurd rfl hnonempty
  | cons e rest =>
      have hlength : (0 : Int) + (e :: rest).length = (e :: rest).length := Int.zero_add _
      exact loop_spec (s := { s with invoked := [] }) (e :: rest) (Int.le_refl 0) hlength hdistinct hidle

/-! ## Completeness -/

omit [DecidableEq ρ] in
theorem mem_calls {obj : ρ → Item} {entries : List (Entry ρ)} {word : BitVec 32}
    (h : (r, word) ∈ entries.filterMap (call obj)) : ∃ events, .handler r events ∈ entries := by
  rcases List.mem_filterMap.1 h with ⟨e, he, hcall⟩
  cases e with
  | signal => cases hcall
  | handler x events =>
      simp only [call] at hcall
      split at hcall
      · cases hcall
      · cases hcall
        exact ⟨events, he⟩

/-- An object that has one entry is called once. -/
theorem filter_calls {obj : ρ → Item} {entries : List (Entry ρ)} {events : BitVec 32}
    (hdistinct : (entries.filterMap Entry.item).Nodup) (hmem : .handler r events ∈ entries)
    (hmatching : Matching (obj r).type events) :
    (entries.filterMap (call obj)).filter (fun c => c.1 = r) =
      [(r, typeOf (obj r).type events)] := by
  induction entries with
  | nil => cases hmem
  | cons e rest ih =>
      cases e with
      | signal => exact ih hdistinct ((List.mem_cons.1 hmem).resolve_left nofun)
      | handler x events' =>
          rcases List.nodup_cons.1 hdistinct with ⟨hx, hrest⟩
          rcases List.mem_cons.1 hmem with heq | hmem
          · cases heq
            have hne := (typeOf_ne_zero_iff _ _).2 hmatching
            -- The entries behind it are for other objects.
            have hnone : (rest.filterMap (call obj)).filter (fun c => c.1 = r) = [] := by
              refine List.filter_eq_nil_iff.2 fun c hc hcr => ?_
              rcases c with ⟨y, word⟩
              cases of_decide_eq_true hcr
              rcases mem_calls hc with ⟨events', hentry⟩
              exact hx (List.mem_filterMap.2 ⟨_, hentry, rfl⟩)
            rw [List.filterMap_cons]
            simp only [call, if_neg hne]
            rw [List.filter_cons_of_pos (by simp), hnone]
          · have hne : x ≠ r := by
              rintro rfl
              exact hx (List.mem_filterMap.2 ⟨_, hmem, rfl⟩)
            have hlater := ih hrest hmem
            by_cases hzero : typeOf (obj x).type events' = 0#32
            · have hnone : call obj (.handler x events') = none := if_pos hzero
              rw [List.filterMap_cons_none hnone]
              exact hlater
            · have hsome : call obj (.handler x events') = some (x, typeOf (obj x).type events') :=
                if_neg hzero
              rw [List.filterMap_cons_some hsome, List.filter_cons_of_neg (by simpa using hne)]
              exact hlater

theorem waitEpoll_complete_iff (react : ρ → Reaction) (b : Batch ρ) :
    Complete b (waitEpoll react b.state (.ok b.entries)) ↔ SignalLast b := by
  rcases waitEpoll_spec react b with ⟨hret, hinvoked⟩
  have hfront := List.takeWhile_sublist (l := b.entries) Entry.isHandler
  have hsplit := List.takeWhile_append_dropWhile (p := Entry.isHandler) (l := b.entries)
  constructor
  · intro hcomplete r events hmem hmatching
    have hentry : .handler r events ∈ b.entries := (List.dropWhile_sublist _).subset hmem
    rcases hcomplete.invoked r events hentry hmatching with ⟨word, -, hcalls⟩
    have hcall : (r, word) ∈ (b.entries.takeWhile Entry.isHandler).filterMap (call b.state.obj) := by
      rw [← hinvoked]
      exact (List.mem_filter.1 (hcalls ▸ List.mem_singleton_self _)).1
    rcases mem_calls hcall with ⟨events', hmem'⟩
    -- The object has an entry on both sides of the signal.
    have hdistinct := b.distinct
    rw [← hsplit, List.filterMap_append] at hdistinct
    exact (List.nodup_append.1 hdistinct).2.2 r (List.mem_filterMap.2 ⟨_, hmem', rfl⟩) r
      (List.mem_filterMap.2 ⟨_, hmem, rfl⟩) rfl
  · intro hlast
    refine ⟨fun r events hmem hmatching => ?_, hret⟩
    -- What matches is not behind the signal.
    have hmem' : .handler r events ∈ b.entries.takeWhile Entry.isHandler := by
      rw [← hsplit] at hmem
      exact (List.mem_append.1 hmem).resolve_right fun hlate => hlast r events hlate hmatching
    have hdistinct := b.distinct.sublist (hfront.filterMap Entry.item)
    refine ⟨_, typeOf_exactly _ _, ?_⟩
    rw [hinvoked]
    exact filter_calls hdistinct hmem' hmatching

/-! ## Any number of rounds -/

/-- No object is in use. -/
def State.Idle (s : State ρ) : Prop := ∀ r, s.alive r = true → (s.obj r).inUse = false

/-- A handler object that survives its handler is not in use. -/
theorem settle_idle (react : ρ → Reaction) (s : State ρ) (r : ρ)
    (halive : (settle react s r).alive r = true) : ((settle react s r).obj r).inUse = false := by
  unfold settle at halive ⊢
  split
  · rename_i hdelete
    rw [if_pos hdelete] at halive
    -- The object is not in use here, so that it is deleted and not marked.
    have hgone : (removeEventHandler (s.setObj r { s.obj r with state := .delete, inUse := false })
        r).alive r = false := by
      simp [removeEventHandler, State.setObj]
    dsimp only at halive
    split at halive
    · exact absurd (hgone.symm.trans halive) Bool.false_ne_true
    · exact absurd (hgone.symm.trans halive) Bool.false_ne_true
  · simp [State.setObj]

theorem idle_dispatch (hidle : s.Idle) (events : BitVec 32) : (dispatch react s r events).Idle := by
  have hframe := frame_dispatch react s r events
  intro x halive
  by_cases hx : x = r
  · subst hx
    unfold dispatch at halive ⊢
    dsimp only at halive ⊢
    split
    · rename_i htype
      rw [if_pos htype] at halive
      exact hidle x halive
    · rename_i htype
      rw [if_neg htype] at halive
      split
      · rename_i huse
        rw [if_pos huse] at halive
        exact hidle x halive
      · rename_i huse
        rw [if_neg huse] at halive
        exact settle_idle react _ x halive
  · rw [hframe.obj x hx]
    rw [hframe.alive x hx] at halive
    exact hidle x halive

theorem idle_loop (rest : List (Entry ρ)) (hidle : s.Idle) (i ret : Int) :
    (loop react i ret s rest).2.Idle := by
  induction rest generalizing i ret s with
  | nil => exact hidle
  | cons e rest ih =>
      unfold loop
      split
      · cases e with
        | signal => exact ih hidle _ _
        | handler r events => exact ih (idle_dispatch hidle events) _ _
      · exact hidle

/-- Between two rounds no object is in use, so that the next one finds its batch as it has to be. -/
theorem idle_waitEpoll (react : ρ → Reaction) (hidle : s.Idle) (ready : Except Int (List (Entry ρ))) :
    (waitEpoll react s ready).2.Idle := by
  cases ready with
  | error errno => exact hidle
  | ok entries =>
      cases entries with
      | nil => exact hidle
      | cons e rest =>
          have hstart : State.Idle { s with invoked := [] } := hidle
          exact idle_loop (e :: rest) hstart _ _

end Rounds

/-- A handler for reading is ready behind the signal. -/
def interrupted : Batch Unit where
  state := ⟨fun _ => ⟨BEYOND_EVENT_TYPE_READ, .init, false⟩, fun _ => true, [], []⟩
  entries := [.signal, .handler () EPOLLIN]
  nonempty := nofun
  distinct := List.nodup_singleton ()
  idle := fun _ _ _ => rfl

def renews (_ : Unit) : Reaction := ⟨.renew, false, false⟩

theorem waitEpoll_skips :
    ¬ Complete interrupted (waitEpoll renews interrupted.state (.ok interrupted.entries)) := by
  intro hcomplete
  rcases hcomplete.invoked () EPOLLIN (by decide) (by decide) with ⟨word, -, hcalls⟩
  cases hcalls

end WaitEpoll
end EventLoop
end Beyond
