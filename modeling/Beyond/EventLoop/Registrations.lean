import Mathlib.Data.List.Perm.Basic
import Beyond.Base.Run
import Beyond.EventLoop.Dispatch

/-!
# The registrations of an event object

`AddHandler` and `RemoveHandler` are called between the dispatches of an event and by the handlers that a
dispatch invokes.  A registration ends when it is removed or when its handler returns `CANCEL`; its
record may stay in the vector until the handler has returned.  What is live is told from the history of
the calls here, and the vector is compared with it.

A dispatch that uses an invalidated iterator ends the run, and a handler does not fetch events itself.
-/

namespace Beyond
namespace EventObject
namespace Registrations

open Errno

variable {η δ : Type*}

/-! ## Runs -/

/-- An event object, and the event that it dispatches. -/
structure Life (η δ : Type*) where
  base : State η δ
  event : BitVec 32

inductive Act (η δ : Type*)
  /-- `FetchEventData` begins to dispatch an event. -/
  | fetch (event : BitVec 32)
  /-- A step of the dispatch, or a call of `AddHandler` or `RemoveHandler`. -/
  | act (a : EventObject.Act η δ)

/-- Calls are made by handlers or while nothing is dispatched. -/
def callable (s : State η δ) : Bool :=
  match s.pc with
  | .done => true
  | .calling _ => true
  | _ => false

section Steps

variable [DecidableEq η] [DecidableEq δ]

def step (l : Life η δ) : Act η δ → Option (Life η δ)
  | .fetch event =>
      if l.base.pc = .done then some ⟨{ l.base with it := some 0, pc := .scanning }, event⟩ else none
  | .act (.add registration allocated spare) =>
      if callable l.base then some { l with base := (addHandler l.base registration allocated spare).2 }
      else none
  | .act (.remove registration) =>
      if callable l.base then some { l with base := (removeHandler l.base registration).2 } else none
  | .act a => (EventObject.step l.event l.base a).map fun s => { l with base := s }

/-- A new event object, which has no handlers. -/
def Life.new : Life η δ where
  base :=
    { handlers := []
      capacity := 0
      heap := fun _ => none
      it := none
      pc := .done
      registrations := []
      log := [] }
  event := 0

end Steps

/-! ## The laws -/

/-- The registrations that were neither removed nor cancelled. -/
def live (s : State η δ) : List (Registration η δ) :=
  s.kept.filterMap fun info => s.registrations[info]?

/-- The same handler with the same data for one of the types. -/
def Conflict (r r' : Registration η δ) : Prop :=
  r'.handler = r.handler ∧ r'.type &&& r.type ≠ 0 ∧ r'.data = r.data

section Laws

variable [DecidableEq η] [DecidableEq δ]

instance (r r' : Registration η δ) : Decidable (Conflict r r') :=
  inferInstanceAs (Decidable (_ ∧ _ ∧ _))

/-- What is asked of a call of `AddHandler`. -/
structure AddLaws (s : State η δ) (r : Registration η δ) (allocated : Bool) (spare : Nat) : Prop where
  refused : (∃ r' ∈ live s, Conflict r r') → (addHandler s r allocated spare).1 = -EALREADY
  added : (¬ ∃ r' ∈ live s, Conflict r r') → (addHandler s r allocated spare).1 = 0
  /-- Removing what was just added restores the live registrations. -/
  restored : (addHandler s r allocated spare).1 = 0 →
    let after := removeHandler (addHandler s r allocated spare).2 r
    after.1 = 0 ∧ (live after.2).Perm (live s)

/-- What is asked of a call of `RemoveHandler`. -/
structure RemoveLaws (s : State η δ) (r : Registration η δ) : Prop where
  removed : (removeHandler s r).1 = 0 ↔ r ∈ live s
  /-- What was removed can be added again. -/
  again : (removeHandler s r).1 = 0 → ∀ spare, (addHandler (removeHandler s r).2 r true spare).1 = 0

def Laws (l : Life η δ) : Act η δ → Prop
  | .act (.add r allocated spare) => (step l (.act (.add r allocated spare))).isSome →
      AddLaws l.base r allocated spare
  | .act (.remove r) => (step l (.act (.remove r))).isSome → RemoveLaws l.base r
  | _ => True

/-- The record of a handler that was removed while it runs. -/
def Dying (s : State η δ) (d : HandlerData η δ) : Prop :=
  ∃ info ∈ s.handlers, s.heap info = some d ∧ d.isDeleted = true

/-- A handler is not removed by itself; nothing is added in its place while it is; and there is memory
for what is added. -/
def Clean (l : Life η δ) : Act η δ → Prop
  | .act (.add r allocated _) => callable l.base = true → (∃ r' ∈ live l.base, Conflict r r') ∨
      (allocated = true ∧ ¬ ∃ d, Dying l.base d ∧ Conflict r d.toRegistration)
  | .act (.remove r) => callable l.base = true → r ∈ live l.base →
      ∀ info, l.base.pc = .calling info → l.base.registrations[info]? ≠ some r
  | _ => True

end Laws

/-! ## The vector -/

/-- What holds of the vector and its records while no invalidated iterator was used. -/
structure Inv (s : State η δ) : Prop where
  nodup : s.handlers.Nodup
  known : ∀ info ∈ s.handlers, ∃ d, s.heap info = some d ∧
    s.registrations[info]? = some d.toRegistration
  kept : ∀ info, info ∈ s.kept ↔
    info ∈ s.handlers ∧ ∃ d, s.heap info = some d ∧ d.isDeleted = false
  bounded : ∀ info ∈ s.ended, info < s.registrations.length
  /-- Only the handler that is invoked is in use, and only what is in use is marked. -/
  inUse : ∀ info ∈ s.handlers, ∀ d, s.heap info = some d → d.inUse = true →
    s.pc = .calling info ∧ d.type ≠ 0
  marked : ∀ info ∈ s.handlers, ∀ d, s.heap info = some d → d.isDeleted = true → d.inUse = true
  /-- No two records are in conflict. -/
  apart : ∀ i ∈ s.handlers, ∀ j ∈ s.handlers, i ≠ j → ∀ d e, s.heap i = some d → s.heap j = some e →
    ¬ Conflict d.toRegistration e.toRegistration
  /-- The iterator points to the handler that is invoked. -/
  current : ∀ info, s.pc = .calling info → info ∈ s.handlers ∧
    (∃ d, s.heap info = some d ∧ d.inUse = true) ∧
      ∀ pos, s.it = some pos → s.handlers[pos]? = some info

theorem mem_kept {s : State η δ} {info : Nat} :
    info ∈ s.kept ↔ info < s.registrations.length ∧ info ∉ s.ended := by
  simp [State.kept]

theorem conflict_comm {r r' : Registration η δ} (h : Conflict r r') : Conflict r' r :=
  ⟨h.1.symm, by rw [BitVec.and_comm]; exact h.2.1, h.2.2.symm⟩

/-- What has a type is in conflict with itself. -/
theorem conflict_self {r : Registration η δ} (h : r.type ≠ 0) : Conflict r r :=
  ⟨rfl, by rw [BitVec.and_self]; exact h, rfl⟩

namespace Inv

variable {s : State η δ} {r : Registration η δ}

theorem lt (hs : Inv s) {info : Nat} (h : info ∈ s.handlers) : info < s.registrations.length := by
  rcases hs.known info h with ⟨d, -, hreg⟩
  exact (List.getElem?_eq_some_iff.1 hreg).1

theorem registration (hs : Inv s) {info : Nat} (h : info ∈ s.handlers) {d : HandlerData η δ}
    (hd : s.heap info = some d) : s.registrations[info]? = some d.toRegistration := by
  rcases hs.known info h with ⟨e, he, hreg⟩
  cases Option.some.inj (hd.symm.trans he)
  exact hreg

/-- The live registrations are those of the records that are not marked. -/
theorem mem_live (hs : Inv s) : r ∈ live s ↔
    ∃ info ∈ s.handlers, ∃ d, s.heap info = some d ∧ d.isDeleted = false ∧ d.toRegistration = r := by
  constructor
  · intro h
    rcases List.mem_filterMap.1 h with ⟨info, hkept, hreg⟩
    rcases (hs.kept info).1 hkept with ⟨hmem, d, hd, hnot⟩
    exact ⟨info, hmem, d, hd, hnot, Option.some.inj ((hs.registration hmem hd).symm.trans hreg)⟩
  · rintro ⟨info, hmem, d, hd, hnot, rfl⟩
    exact List.mem_filterMap.2 ⟨info, (hs.kept info).2 ⟨hmem, d, hd, hnot⟩, hs.registration hmem hd⟩

/-- Records of one registration that has a type are one record. -/
theorem unique (hs : Inv s) {i j : Nat} (hi : i ∈ s.handlers) (hj : j ∈ s.handlers)
    {d e : HandlerData η δ} (hd : s.heap i = some d) (he : s.heap j = some e)
    (htype : d.type ≠ 0) (heq : e.toRegistration = d.toRegistration) : i = j := by
  by_contra hne
  refine hs.apart i hi j hj hne d e hd he ?_
  rw [heq]
  exact conflict_self htype

/-- A registration with a marked record is not live. -/
theorem not_live_of_marked (hs : Inv s) {info : Nat} {d : HandlerData η δ} (hinfo : info ∈ s.handlers)
    (hd : s.heap info = some d) (hdeleted : d.isDeleted = true) : d.toRegistration ∉ live s := by
  intro hlive
  rcases hs.mem_live.1 hlive with ⟨x, hx, e, he, hnot, hfor⟩
  have htype := (hs.inUse info hinfo d hd (hs.marked info hinfo d hd hdeleted)).2
  have hsame := hs.unique hinfo hx hd he htype hfor
  subst hsame
  cases Option.some.inj (hd.symm.trans he)
  rw [hdeleted] at hnot
  cases hnot

end Inv

/-! ## Calls of `AddHandler` -/

section Calls

variable [DecidableEq η] [DecidableEq δ] {s : State η δ} {r : Registration η δ}

omit [DecidableEq η] [DecidableEq δ] in
theorem search_holds {heap : Nat → Option (HandlerData η δ)} {p : HandlerData η δ → Bool} {i j info : Nat}
    {l : List Nat} {d : HandlerData η δ} (h : search heap p i l = .found j info d) : p d = true := by
  induction l generalizing i with
  | nil => cases h
  | cons a l ih =>
      unfold search at h
      split at h
      · cases h
      · split at h
        · rename_i hp
          cases h
          exact hp
        · exact ih h

theorem overlaps_iff {d : HandlerData η δ} : overlaps r d = true ↔ Conflict r d.toRegistration := by
  simp [overlaps, Conflict]

theorem isFor_iff {d : HandlerData η δ} : isFor r d = true ↔ d.toRegistration = r := by
  simp [isFor]

/-- What `AddHandler` finds. -/
theorem add_cases (hs : Inv s) (r : Registration η δ) (allocated : Bool) (spare : Nat) :
    (∃ info ∈ s.handlers, ∃ d, s.heap info = some d ∧ Conflict r d.toRegistration ∧
      addHandler s r allocated spare = (-EALREADY, s)) ∨
    (∀ info ∈ s.handlers, ∀ d, s.heap info = some d → ¬ Conflict r d.toRegistration) ∧
      (search s.heap (overlaps r) 0 s.handlers = .absent) := by
  cases hsearch : search s.heap (overlaps r) 0 s.handlers with
  | deleted =>
      refine absurd hsearch (search_ne_deleted fun info hinfo => ?_)
      rcases hs.known info hinfo with ⟨d, hd, -⟩
      rw [hd]
      exact Option.some_ne_none d
  | found i info d =>
      rcases search_found hsearch with ⟨-, hi, hheap⟩
      refine .inl ⟨info, List.mem_of_getElem? hi, d, hheap, overlaps_iff.1 (search_holds hsearch), ?_⟩
      simp [addHandler, hsearch]
  | absent =>
      refine .inr ⟨fun info hinfo d hd hconflict => ?_, rfl⟩
      have hnone := search_absent hsearch info hinfo d hd
      rw [overlaps_iff.2 hconflict] at hnone
      cases hnone

theorem add_absent (hsearch : search s.heap (overlaps r) 0 s.handlers = .absent) (spare : Nat) :
    (addHandler s r false spare) = (-ENOMEM, s) ∧ (addHandler s r true spare).1 = 0 := by
  simp [addHandler, hsearch]

/-- A registration that is added is live, and the others stay so. -/
theorem live_add (hs : Inv s) (hsearch : search s.heap (overlaps r) 0 s.handlers = .absent)
    (spare : Nat) : live (addHandler s r true spare).2 = live s ++ [r] := by
  have hfresh : s.registrations.length ∉ s.log.filterMap Entry.ending :=
    fun h => Nat.lt_irrefl _ (hs.bounded _ h)
  simp only [live, addHandler, hsearch, State.kept, State.ended, Bool.true_eq_false, if_false,
    List.length_append, List.length_singleton, List.range_succ, List.filter_append,
    List.filterMap_append]
  congr 1
  · refine List.filterMap_congr fun info hinfo => ?_
    have hlt := List.mem_range.1 (List.mem_filter.1 hinfo).1
    rw [List.getElem?_append_left hlt]
  · rw [List.filter_cons, if_pos (decide_eq_true hfresh)]
    simp

/-- A record is added behind the others. -/
structure Added (s s' : State η δ) (r : Registration η δ) : Prop where
  handlers : s'.handlers = s.handlers ++ [s.registrations.length]
  heap : s'.heap = Function.update s.heap s.registrations.length (some ⟨r, false, false⟩)
  registrations : s'.registrations = s.registrations ++ [r]
  ended : s'.ended = s.ended
  pc : s'.pc = s.pc
  it : ∀ pos, s'.it = some pos → s.it = some pos

theorem added_addHandler (hsearch : search s.heap (overlaps r) 0 s.handlers = .absent) (spare : Nat) :
    Added s (addHandler s r true spare).2 r := by
  simp only [addHandler, hsearch, Bool.true_eq_false, if_false]
  constructor
  case it =>
    -- A vector that has grown has left the iterator behind.
    intro pos hpos
    dsimp only at hpos
    split at hpos
    · exact hpos
    · cases hpos
  all_goals rfl

section Added

variable {s' : State η δ}

omit [DecidableEq η] [DecidableEq δ]

theorem Added.mem (h : Added s s' r) {x : Nat} :
    x ∈ s'.handlers ↔ x ∈ s.handlers ∨ x = s.registrations.length := by
  rw [h.handlers, List.mem_append, List.mem_singleton]

theorem Added.heap_self (h : Added s s' r) :
    s'.heap s.registrations.length = some ⟨r, false, false⟩ := by
  rw [h.heap]
  exact Function.update_self ..

theorem Added.heap_eq (hs : Inv s) (h : Added s s' r) {x : Nat} (hx : x ∈ s.handlers) :
    s'.heap x = s.heap x := by
  rw [h.heap]
  exact Function.update_of_ne (Nat.ne_of_lt (hs.lt hx)) _ _

/-- A record is the new one, or one of those that were there. -/
theorem Added.record (hs : Inv s) (h : Added s s' r) {x : Nat} (hx : x ∈ s'.handlers)
    {d : HandlerData η δ} (hd : s'.heap x = some d) :
    (x = s.registrations.length ∧ d = ⟨r, false, false⟩) ∨ (x ∈ s.handlers ∧ s.heap x = some d) := by
  rcases h.mem.1 hx with hx | rfl
  · exact .inr ⟨hx, (h.heap_eq hs hx).symm.trans hd⟩
  · exact .inl ⟨rfl, Option.some.inj (hd.symm.trans h.heap_self)⟩

theorem inv_added (hs : Inv s) (h : Added s s' r)
    (hapart : ∀ info ∈ s.handlers, ∀ d, s.heap info = some d → ¬ Conflict r d.toRegistration) :
    Inv s' := by
  have hnew : s.registrations.length ∉ s.handlers := fun hmem => Nat.lt_irrefl _ (hs.lt hmem)
  constructor
  case nodup =>
    rw [h.handlers]
    refine List.nodup_append.2 ⟨hs.nodup, List.nodup_singleton _, fun i hi j hj => ?_⟩
    rw [List.mem_singleton.1 hj]
    exact Nat.ne_of_lt (hs.lt hi)
  case known =>
    intro x hx
    rw [h.registrations]
    rcases h.mem.1 hx with hx | rfl
    · rcases hs.known x hx with ⟨d, hd, hreg⟩
      refine ⟨d, (h.heap_eq hs hx).trans hd, ?_⟩
      rw [List.getElem?_append_left (hs.lt hx)]
      exact hreg
    · exact ⟨_, h.heap_self, List.getElem?_concat_length⟩
  case kept =>
    intro x
    have hkept := hs.kept x
    rw [mem_kept] at hkept
    rw [mem_kept, h.registrations, h.ended, List.length_append, List.length_singleton, h.mem]
    by_cases hx : x ∈ s.handlers
    · rw [h.heap_eq hs hx]
      constructor
      · intro hlive
        exact ⟨.inl hx, (hkept.1 ⟨hs.lt hx, hlive.2⟩).2⟩
      · intro hmem
        exact ⟨Nat.lt_succ_of_lt (hs.lt hx), (hkept.2 ⟨hx, hmem.2⟩).2⟩
    · by_cases heq : x = s.registrations.length
      · -- No entry of the log is about the new number.
        subst heq
        refine iff_of_true ⟨Nat.lt_succ_self _, fun hend => Nat.lt_irrefl _ (hs.bounded _ hend)⟩ ?_
        exact ⟨.inr rfl, _, h.heap_self, rfl⟩
      · refine iff_of_false (fun hlive => ?_) fun hmem => hmem.1.elim hx heq
        have hlt : x < s.registrations.length := by omega
        exact hx (hkept.1 ⟨hlt, hlive.2⟩).1
  case bounded =>
    intro x hx
    rw [h.ended] at hx
    rw [h.registrations, List.length_append]
    exact Nat.lt_add_right _ (hs.bounded x hx)
  case inUse =>
    intro x hx d hd huse
    rw [h.pc]
    rcases h.record hs hx hd with ⟨-, rfl⟩ | ⟨hmem, hd⟩
    · cases huse
    · exact hs.inUse x hmem d hd huse
  case marked =>
    intro x hx d hd hmarked
    rcases h.record hs hx hd with ⟨-, rfl⟩ | ⟨hmem, hd⟩
    · cases hmarked
    · exact hs.marked x hmem d hd hmarked
  case apart =>
    intro i hi j hj hne d e hd he
    rcases h.record hs hi hd with ⟨rfl, rfl⟩ | ⟨himem, hd⟩
    · rcases h.record hs hj he with ⟨rfl, -⟩ | ⟨hjmem, he⟩
      · exact absurd rfl hne
      · exact hapart j hjmem e he
    · rcases h.record hs hj he with ⟨-, rfl⟩ | ⟨hjmem, he⟩
      · exact fun hconflict => hapart i himem d hd (conflict_comm hconflict)
      · exact hs.apart i himem j hjmem hne d e hd he
  case current =>
    intro x hcalling
    rw [h.pc] at hcalling
    rcases hs.current x hcalling with ⟨hmem, huse, hpos⟩
    refine ⟨h.mem.2 (.inl hmem), ?_, fun pos hafter => ?_⟩
    · rw [h.heap_eq hs hmem]
      exact huse
    · -- Behind the others, so what the iterator points to stays in its place.
      have hbefore := hpos pos (h.it pos hafter)
      rw [h.handlers, List.getElem?_append_left (List.getElem?_eq_some_iff.1 hbefore).1]
      exact hbefore

end Added

/-- The vector behind an addition. -/
theorem inv_add (hs : Inv s) (allocated : Bool) (spare : Nat) :
    Inv (addHandler s r allocated spare).2 := by
  rcases add_cases hs r allocated spare with ⟨info, -, d, -, -, heq⟩ | ⟨hapart, hsearch⟩
  · rw [heq]
    exact hs
  cases allocated with
  | false =>
      rw [(add_absent hsearch spare).1]
      exact hs
  | true => exact inv_added hs (added_addHandler hsearch spare) hapart

end Calls

/-! ## The end of a record -/

section Endings

variable {s s' : State η δ} {info : Nat} {d : HandlerData η δ}

/-- A record is deleted: by `RemoveHandler`, or by the dispatch behind its handler. -/
structure Erased (s s' : State η δ) (info : Nat) : Prop where
  handlers : s'.handlers = s.handlers.filter fun x => x ≠ info
  heap : s'.heap = Function.update s.heap info none
  registrations : s'.registrations = s.registrations
  ended : ∀ x, x ∈ s'.ended ↔ x ∈ s.ended ∨ x = info
  pc : s'.pc = s.pc ∨ (s.pc = .calling info ∧ s'.pc = .scanning)
  it : ∀ x pos, s'.pc = .calling x → s'.it = some pos → s.handlers[pos]? = some x →
    s'.handlers[pos]? = some x
  before : ∀ pos, s'.it = some pos → s'.pc = s.pc → s.it = some pos

theorem Erased.mem (h : Erased s s' info) {x : Nat} : x ∈ s'.handlers ↔ x ∈ s.handlers ∧ x ≠ info := by
  rw [h.handlers, List.mem_filter, decide_eq_true_iff]

theorem Erased.heap_eq (h : Erased s s' info) {x : Nat} (hx : x ≠ info) : s'.heap x = s.heap x := by
  rw [h.heap]
  exact Function.update_of_ne hx _ _

theorem inv_erased (hs : Inv s) (hinfo : info ∈ s.handlers) (h : Erased s s' info)
    (huse : s'.pc = s.pc → ∀ d, s.heap info = some d → d.inUse = false) : Inv s' := by
  have hold : ∀ x ∈ s'.handlers, x ∈ s.handlers ∧ s'.heap x = s.heap x := by
    intro x hx
    rcases h.mem.1 hx with ⟨hmem, hne⟩
    exact ⟨hmem, h.heap_eq hne⟩
  constructor
  case nodup =>
    rw [h.handlers]
    exact hs.nodup.filter _
  case known =>
    intro x hx
    rcases hold x hx with ⟨hmem, hheap⟩
    rw [hheap, h.registrations]
    exact hs.known x hmem
  case kept =>
    intro x
    rw [mem_kept, h.registrations, h.ended, h.mem]
    have hkept := hs.kept x
    rw [mem_kept] at hkept
    by_cases hx : x = info
    · subst hx
      exact iff_of_false (fun hlive => hlive.2 (.inr rfl)) fun hmem => hmem.1.2 rfl
    · rw [h.heap_eq hx]
      simpa [hx] using hkept
  case bounded =>
    intro x hx
    rw [h.registrations]
    rcases (h.ended x).1 hx with hx | rfl
    · exact hs.bounded x hx
    · exact hs.lt hinfo
  case inUse =>
    intro x hx e he huse'
    rcases hold x hx with ⟨hmem, hheap⟩
    rw [hheap] at he
    rcases hs.inUse x hmem e he huse' with ⟨hpc, htype⟩
    rcases h.pc with hsame | ⟨hcalling, -⟩
    · exact ⟨hsame.trans hpc, htype⟩
    · -- Only the record that is erased was in use.
      cases hcalling.symm.trans hpc
      exact absurd rfl (h.mem.1 hx).2
  case marked =>
    intro x hx e he
    rcases hold x hx with ⟨hmem, hheap⟩
    rw [hheap] at he
    exact hs.marked x hmem e he
  case apart =>
    intro i hi j hj hne e f he hf
    rcases hold i hi with ⟨himem, hiheap⟩
    rcases hold j hj with ⟨hjmem, hjheap⟩
    rw [hiheap] at he
    rw [hjheap] at hf
    exact hs.apart i himem j hjmem hne e f he hf
  case current =>
    intro x hcalling
    rcases h.pc with hsame | ⟨-, hscanning⟩
    · rcases hs.current x (hsame.symm.trans hcalling) with ⟨hmem, ⟨e, he, huse'⟩, hpos⟩
      have hne : x ≠ info := by
        rintro rfl
        rw [huse hsame e he] at huse'
        cases huse'
      refine ⟨h.mem.2 ⟨hmem, hne⟩, ⟨e, (h.heap_eq hne).trans he, huse'⟩, fun pos hit => ?_⟩
      exact h.it x pos hcalling hit (hpos pos (h.before pos hit hsame))
    · rw [hscanning] at hcalling
      cases hcalling

/-- The record changes, but nothing is erased. -/
structure Changed (s s' : State η δ) (info : Nat) (d' : HandlerData η δ) : Prop where
  handlers : s'.handlers = s.handlers
  heap : s'.heap = Function.update s.heap info (some d')
  registrations : s'.registrations = s.registrations

theorem Changed.heap_cases {d' : HandlerData η δ} (h : Changed s s' info d') {x : Nat}
    {e : HandlerData η δ} (he : s'.heap x = some e) :
    (x = info ∧ e = d') ∨ (x ≠ info ∧ s.heap x = some e) := by
  rw [h.heap] at he
  by_cases hx : x = info
  · subst hx
    rw [Function.update_self] at he
    exact .inl ⟨rfl, (Option.some.inj he).symm⟩
  · rw [Function.update_of_ne hx] at he
    exact .inr ⟨hx, he⟩

theorem inv_changed (hs : Inv s) (hinfo : info ∈ s.handlers) (hd : s.heap info = some d)
    {d' : HandlerData η δ} (h : Changed s s' info d') (hreg : d'.toRegistration = d.toRegistration)
    (hended : ∀ x, x ∈ s'.ended ↔ x ∈ s.ended ∨ (x = info ∧ d'.isDeleted = true))
    (hdeleted : d.isDeleted = true → d'.isDeleted = true)
    (hmarked : d'.isDeleted = true → d'.inUse = true)
    (hpc : ∀ x, s'.pc = .calling x ↔ x = info ∧ d'.inUse = true)
    (htype : d'.inUse = true → d.type ≠ 0)
    (hothers : ∀ x, s.pc = .calling x → x = info)
    (hpos : d'.inUse = true → ∀ pos, s'.it = some pos → s.handlers[pos]? = some info) : Inv s' := by
  have hself : s'.heap info = some d' := by
    rw [h.heap]
    exact Function.update_self ..
  constructor
  case nodup =>
    rw [h.handlers]
    exact hs.nodup
  case known =>
    intro x hx
    rw [h.handlers] at hx
    rw [h.registrations]
    rcases hs.known x hx with ⟨e, he, hknown⟩
    by_cases heq : x = info
    · subst heq
      cases Option.some.inj (hd.symm.trans he)
      exact ⟨d', hself, by rw [hreg]; exact hknown⟩
    · exact ⟨e, by rw [h.heap, Function.update_of_ne heq]; exact he, hknown⟩
  case kept =>
    intro x
    rw [mem_kept, h.registrations, hended, h.handlers]
    have hkept := hs.kept x
    rw [mem_kept] at hkept
    by_cases heq : x = info
    · subst heq
      constructor
      · rintro ⟨hlt, hnot⟩
        refine ⟨hinfo, d', hself, ?_⟩
        rw [← Bool.not_eq_true]
        exact fun hdel => hnot (.inr ⟨rfl, hdel⟩)
      · rintro ⟨-, e, he, hnot⟩
        cases Option.some.inj (hself.symm.trans he)
        refine ⟨hs.lt hinfo, ?_⟩
        rintro (hmem | ⟨-, hdel⟩)
        · -- What had ended before was marked before.
          have hbefore : d.isDeleted = true := by
            by_contra hlive
            rw [Bool.not_eq_true] at hlive
            exact (hkept.2 ⟨hinfo, d, hd, hlive⟩).2 hmem
          rw [hdeleted hbefore] at hnot
          cases hnot
        · rw [hdel] at hnot
          cases hnot
    · rw [h.heap, Function.update_of_ne heq]
      simpa [heq] using hkept
  case bounded =>
    intro x hx
    rw [h.registrations]
    rcases (hended x).1 hx with hx | ⟨rfl, -⟩
    · exact hs.bounded x hx
    · exact hs.lt hinfo
  case inUse =>
    intro x hx e he huse
    rw [h.handlers] at hx
    rcases h.heap_cases he with ⟨rfl, rfl⟩ | ⟨hne, he⟩
    · refine ⟨(hpc x).2 ⟨rfl, huse⟩, ?_⟩
      rw [hreg]
      exact htype huse
    · exact absurd (hothers x (hs.inUse x hx e he huse).1) hne
  case marked =>
    intro x hx e he hdel
    rw [h.handlers] at hx
    rcases h.heap_cases he with ⟨rfl, rfl⟩ | ⟨hne, he⟩
    · exact hmarked hdel
    · exact hs.marked x hx e he hdel
  case apart =>
    intro i hi j hj hne e f he hf
    rw [h.handlers] at hi hj
    rcases h.heap_cases he with ⟨rfl, rfl⟩ | ⟨hine, he⟩
    · rcases h.heap_cases hf with ⟨rfl, rfl⟩ | ⟨hjne, hf⟩
      · exact absurd rfl hne
      · rw [hreg]
        exact hs.apart i hi j hj hne d f hd hf
    · rcases h.heap_cases hf with ⟨rfl, rfl⟩ | ⟨hjne, hf⟩
      · rw [hreg]
        exact hs.apart i hi j hj hne e d he hd
      · exact hs.apart i hi j hj hne e f he hf
  case current =>
    intro x hcalling
    rcases (hpc x).1 hcalling with ⟨rfl, huse⟩
    rw [h.handlers]
    exact ⟨hinfo, ⟨d', hself, huse⟩, hpos huse⟩

end Endings

/-! ## Calls of `RemoveHandler` -/

section Removals

variable [DecidableEq η] [DecidableEq δ] {s : State η δ} {r : Registration η δ}

/-- What `RemoveHandler` finds, and what it makes of it. -/
inductive Removal (s : State η δ) (r : Registration η δ) : Int × State η δ → Prop
  | absent (hnone : ∀ info ∈ s.handlers, ∀ d, s.heap info = some d → d.toRegistration ≠ r) :
      Removal s r (-ENOENT, s)
  | marked {info : Nat} {d : HandlerData η δ} (hmem : info ∈ s.handlers) (hd : s.heap info = some d)
      (hfor : d.toRegistration = r) (hdeleted : d.isDeleted = true) : Removal s r (-EALREADY, s)
  | mark {info : Nat} {d : HandlerData η δ} (hmem : info ∈ s.handlers) (hd : s.heap info = some d)
      (hfor : d.toRegistration = r) (hdeleted : d.isDeleted = false) (huse : d.inUse = true) :
      Removal s r (0, { s with
        heap := Function.update s.heap info (some { d with isDeleted := true })
        log := s.log ++ [.removed info] })
  | erase {i info : Nat} {d : HandlerData η δ} (hi : s.handlers[i]? = some info)
      (hd : s.heap info = some d) (hfor : d.toRegistration = r) (hdeleted : d.isDeleted = false)
      (huse : d.inUse = false) :
      Removal s r (0, { s with
        handlers := s.handlers.eraseIdx i
        it := s.it.filter fun pos => pos < i
        heap := Function.update s.heap info none
        log := s.log ++ [.removed info] })

theorem remove_cases (hs : Inv s) (r : Registration η δ) : Removal s r (removeHandler s r) := by
  unfold removeHandler
  cases hsearch : search s.heap (isFor r) 0 s.handlers with
  | deleted =>
      refine absurd hsearch (search_ne_deleted fun info hinfo => ?_)
      rcases hs.known info hinfo with ⟨d, hd, -⟩
      rw [hd]
      exact Option.some_ne_none d
  | absent =>
      refine .absent fun info hinfo d hd hfor => ?_
      have hnone := search_absent hsearch info hinfo d hd
      rw [isFor_iff.2 hfor] at hnone
      cases hnone
  | found i info d =>
      rcases search_found hsearch with ⟨-, hi, hd⟩
      have hfor := isFor_iff.1 (search_holds hsearch)
      have hmem := List.mem_of_getElem? hi
      dsimp only
      by_cases hdeleted : d.isDeleted = true
      · rw [if_pos hdeleted]
        exact .marked hmem hd hfor hdeleted
      · rw [if_neg hdeleted]
        rw [Bool.not_eq_true] at hdeleted
        by_cases huse : d.inUse = true
        · rw [if_pos huse]
          exact .mark hmem hd hfor hdeleted huse
        · rw [if_neg huse]
          exact .erase hi hd hfor hdeleted (by rwa [Bool.not_eq_true] at huse)

omit [DecidableEq η] [DecidableEq δ] in
theorem ended_removed (s : State η δ) (info x : Nat) :
    x ∈ (s.log ++ [Entry.removed info]).filterMap Entry.ending ↔ x ∈ s.ended ∨ x = info := by
  rw [List.filterMap_append, List.mem_append]
  simp only [List.filterMap_cons, Entry.ending, List.filterMap_nil, List.mem_singleton]
  rfl

omit [DecidableEq η] [DecidableEq δ] in
/-- What is erased at once. -/
theorem erased_remove (hs : Inv s) {i info : Nat} (hi : s.handlers[i]? = some info) :
    Erased s { s with
      handlers := s.handlers.eraseIdx i
      it := s.it.filter fun pos => pos < i
      heap := Function.update s.heap info none
      log := s.log ++ [.removed info] } info where
  handlers := eraseIdx_eq_filter hs.nodup hi
  heap := rfl
  registrations := rfl
  ended x := ended_removed s info x
  pc := .inl rfl
  it x pos _ hit hpos := by
    have hlt : pos < i := by simpa using (Option.filter_eq_some_iff.1 hit).2
    rw [List.getElem?_eraseIdx_of_lt hlt]
    exact hpos
  before pos hit _ := (Option.filter_eq_some_iff.1 hit).1

/-- The vector behind a removal. -/
theorem inv_remove (hs : Inv s) : Inv (removeHandler s r).2 := by
  have hcases := remove_cases hs r
  generalize removeHandler s r = result at hcases ⊢
  cases hcases with
  | absent hnone => exact hs
  | marked hmem hd hfor hdeleted => exact hs
  | @mark info d hmem hd hfor hdeleted huse =>
      have hcalling := (hs.inUse info hmem d hd huse).1
      have hchanged : Changed s { s with
          heap := Function.update s.heap info (some { d with isDeleted := true })
          log := s.log ++ [.removed info] } info { d with isDeleted := true } := ⟨rfl, rfl, rfl⟩
      refine inv_changed hs hmem hd hchanged rfl (fun x => ?_) (fun _ => rfl) (fun _ => huse)
        (fun x => ?_) (fun _ => (hs.inUse info hmem d hd huse).2) (fun x hx => ?_) fun _ => ?_
      · exact (ended_removed s info x).trans (or_congr_right (and_iff_left rfl).symm)
      · simp only [hcalling, Pc.calling.injEq, huse, and_true, eq_comm]
      · cases hcalling.symm.trans hx
        rfl
      · exact (hs.current info hcalling).2.2
  | erase hi hd hfor hdeleted huse =>
      refine inv_erased hs (List.mem_of_getElem? hi) (erased_remove hs hi) fun _ e he => ?_
      cases Option.some.inj (hd.symm.trans he)
      exact huse

omit [DecidableEq η] [DecidableEq δ] in
/-- What is removed was live, and the others stay so. -/
theorem live_removed {s' : State η δ} (hs : Inv s) {info : Nat} {d : HandlerData η δ}
    (hmem : info ∈ s.handlers) (hd : s.heap info = some d) (hdeleted : d.isDeleted = false)
    (hregistrations : s'.registrations = s.registrations)
    (hended : ∀ x, x ∈ s'.ended ↔ x ∈ s.ended ∨ x = info) :
    (live s).Perm (d.toRegistration :: live s') := by
  have hkept : info ∈ s.kept := (hs.kept info).2 ⟨hmem, d, hd, hdeleted⟩
  have hnodup : s.kept.Nodup := List.nodup_range.filter _
  have hrest : s'.kept = s.kept.erase info := by
    rw [hnodup.erase_eq_filter, State.kept, State.kept, List.filter_filter, hregistrations]
    refine List.filter_congr fun x _ => ?_
    by_cases hx : x = info
    · simp [hended, hx]
    · simp [hended, hx]
  calc List.Perm (live s) ((info :: s.kept.erase info).filterMap fun x => s.registrations[x]?) :=
        (List.perm_cons_erase hkept).filterMap _
      _ = d.toRegistration :: live s' := by
        rw [List.filterMap_cons_some (hs.registration hmem hd), ← hrest, live, hregistrations]

/-! ## Which calls obey the laws -/

theorem ealready_ne : -EALREADY ≠ 0 := by decide

theorem enoent_ne : -ENOENT ≠ 0 := by decide

theorem enomem_ne : -ENOMEM ≠ 0 := by decide

/-- The next addition finds nothing in the way of what was erased. -/
theorem add_erased (hs : Inv s) {s' : State η δ} (hs' : Inv s') {info : Nat} {d : HandlerData η δ}
    (hmem : info ∈ s.handlers) (hd : s.heap info = some d) (h : Erased s s' info) (spare : Nat) :
    (addHandler s' d.toRegistration true spare).1 = 0 := by
  rcases add_cases hs' d.toRegistration true spare with ⟨x, hx, e, he, hconflict, -⟩ | ⟨-, hsearch⟩
  · rcases h.mem.1 hx with ⟨hxmem, hne⟩
    rw [h.heap_eq hne] at he
    exact absurd hconflict (hs.apart info hmem x hxmem (Ne.symm hne) d e hd he)
  · exact (add_absent hsearch spare).2

theorem removeLaws_iff (hs : Inv s) :
    RemoveLaws s r ↔ (r ∈ live s → ∀ info, s.pc = .calling info → s.registrations[info]? ≠ some r) := by
  have hcases := remove_cases hs r
  have hinv := inv_remove (r := r) hs
  constructor
  · intro hlaws hlive info hcalling hreg
    have hzero := hlaws.removed.2 hlive
    -- The handler that runs has a record for `r`, which can only be marked.
    rcases hs.current info hcalling with ⟨hinfo, ⟨d, hd, huse⟩, -⟩
    have hself : d.toRegistration = r :=
      Option.some.inj ((hs.registration hinfo hd).symm.trans hreg)
    have htype := (hs.inUse info hinfo d hd huse).2
    have hagain := hlaws.again hzero 0
    generalize removeHandler s r = result at hcases hinv hzero hagain
    cases hcases with
    | absent hnone => exact hnone info hinfo d hd hself
    | marked hmem he hfor hdeleted => exact ealready_ne hzero
    | @mark x e hmem he hfor hdeleted huse' =>
        -- The record is still there when the addition looks.
        have hx := hs.unique hinfo hmem hd he htype (hfor.trans hself.symm)
        subst hx
        rcases add_cases hinv r true 0 with ⟨y, hy, f, hf, hconflict, heq⟩ | ⟨hapart, -⟩
        · rw [heq] at hagain
          exact ealready_ne hagain
        · refine hapart info hmem { e with isDeleted := true } (Function.update_self ..) ?_
          rw [← hself]
          change Conflict d.toRegistration e.toRegistration
          rw [hfor, ← hself]
          exact conflict_self htype
    | @erase i x e hi he hfor hdeleted huse' =>
        have hx := hs.unique hinfo (List.mem_of_getElem? hi) hd he htype (hfor.trans hself.symm)
        subst hx
        -- The record of the running handler is in use.
        cases Option.some.inj (hd.symm.trans he)
        rw [huse] at huse'
        cases huse'
  · intro hclean
    suffices h : ((removeHandler s r).1 = 0 ↔ r ∈ live s) ∧
        ((removeHandler s r).1 = 0 → ∀ spare, (addHandler (removeHandler s r).2 r true spare).1 = 0) from
      ⟨h.1, h.2⟩
    generalize removeHandler s r = result at hcases hinv ⊢
    cases hcases with
    | absent hnone =>
        refine ⟨iff_of_false enoent_ne fun hlive => ?_, fun hzero => absurd hzero enoent_ne⟩
        rcases hs.mem_live.1 hlive with ⟨info, hmem, d, hd, -, hfor⟩
        exact hnone info hmem d hd hfor
    | @marked info d hmem hd hfor hdeleted =>
        have hnot : r ∉ live s := hfor ▸ hs.not_live_of_marked hmem hd hdeleted
        exact ⟨iff_of_false ealready_ne hnot, fun hzero => absurd hzero ealready_ne⟩
    | @mark info d hmem hd hfor hdeleted huse =>
        have hlive : r ∈ live s := hs.mem_live.2 ⟨info, hmem, d, hd, hdeleted, hfor⟩
        have hreg := hs.registration hmem hd
        rw [hfor] at hreg
        exact absurd hreg (hclean hlive info (hs.inUse info hmem d hd huse).1)
    | @erase i info d hi hd hfor hdeleted huse =>
        have hmem := List.mem_of_getElem? hi
        refine ⟨iff_of_true rfl (hs.mem_live.2 ⟨info, hmem, d, hd, hdeleted, hfor⟩), fun _ spare => ?_⟩
        rw [← hfor]
        exact add_erased hs hinv hmem hd (erased_remove hs hi) spare

/-- What was just added can be removed, which restores the live registrations. -/
theorem restored (hs : Inv s) (hsearch : search s.heap (overlaps r) 0 s.handlers = .absent)
    (spare : Nat) :
    (removeHandler (addHandler s r true spare).2 r).1 = 0 ∧
      (live (removeHandler (addHandler s r true spare).2 r).2).Perm (live s) := by
  have hs' : Inv (addHandler s r true spare).2 := inv_add hs true spare
  have hadded := live_add hs hsearch spare
  have hmem : r ∈ live (addHandler s r true spare).2 := by
    rw [hadded]
    exact List.mem_append_right _ (List.mem_singleton_self r)
  have hcases := remove_cases hs' r
  generalize (addHandler s r true spare).2 = s₁ at hs' hadded hmem hcases
  -- The live registrations are those before and `r`, of which one `r` is taken out.
  have hlast {s₂ : State η δ} (h : (live s₁).Perm (r :: live s₂)) : (live s₂).Perm (live s) := by
    rw [hadded] at h
    exact ((List.perm_append_singleton r (live s)).symm.trans h).cons_inv.symm
  generalize removeHandler s₁ r = result at hcases
  cases hcases with
  | absent hnone =>
      rcases hs'.mem_live.1 hmem with ⟨info, hinfo, d, hd, -, hfor⟩
      exact absurd hfor (hnone info hinfo d hd)
  | marked hinfo hd hfor hdeleted =>
      exact absurd (hfor ▸ hmem) (hs'.not_live_of_marked hinfo hd hdeleted)
  | mark hinfo hd hfor hdeleted huse =>
      refine ⟨rfl, hlast ?_⟩
      rw [← hfor]
      exact live_removed hs' hinfo hd hdeleted rfl (ended_removed s₁ _)
  | erase hi hd hfor hdeleted huse =>
      refine ⟨rfl, hlast ?_⟩
      rw [← hfor]
      exact live_removed hs' (List.mem_of_getElem? hi) hd hdeleted rfl (ended_removed s₁ _)

theorem addLaws_iff (hs : Inv s) (allocated : Bool) (spare : Nat) :
    AddLaws s r allocated spare ↔ (∃ r' ∈ live s, Conflict r r') ∨
      (allocated = true ∧ ¬ ∃ d, Dying s d ∧ Conflict r d.toRegistration) := by
  rcases add_cases hs r allocated spare with ⟨info, hinfo, d, hd, hconflict, heq⟩ | ⟨hapart, hsearch⟩
  · have hrefused : (addHandler s r allocated spare).1 ≠ 0 := by
      rw [heq]
      exact ealready_ne
    by_cases hlive : ∃ r' ∈ live s, Conflict r r'
    · exact iff_of_true ⟨fun _ => by rw [heq], fun h => absurd hlive h, fun h => absurd h hrefused⟩
        (.inl hlive)
    · -- Only a dying record is in the way.
      have hdeleted : d.isDeleted = true := by
        by_contra hnot
        rw [Bool.not_eq_true] at hnot
        exact hlive ⟨_, hs.mem_live.2 ⟨info, hinfo, d, hd, hnot, rfl⟩, hconflict⟩
      refine iff_of_false (fun h => hrefused (h.added hlive)) ?_
      rintro (h | ⟨-, h⟩)
      · exact hlive h
      · exact h ⟨d, ⟨info, hinfo, hd, hdeleted⟩, hconflict⟩
  · have hlive : ¬ ∃ r' ∈ live s, Conflict r r' := by
      rintro ⟨r', hr', hconflict⟩
      rcases hs.mem_live.1 hr' with ⟨info, hinfo, d, hd, -, rfl⟩
      exact hapart info hinfo d hd hconflict
    -- A record that is in the way would have been found, live or dying.
    have hdying : ¬ ∃ d, Dying s d ∧ Conflict r d.toRegistration := by
      rintro ⟨d, ⟨info, hinfo, hd, -⟩, hconflict⟩
      exact hapart info hinfo d hd hconflict
    cases allocated with
    | false =>
        refine iff_of_false (fun h => ?_) (by simp [hlive])
        have hzero := h.added hlive
        rw [(add_absent hsearch spare).1] at hzero
        exact enomem_ne hzero
    | true =>
        exact iff_of_true ⟨fun h => absurd h hlive, fun _ => (add_absent hsearch spare).2,
          fun _ => restored hs hsearch spare⟩ (.inr ⟨rfl, hdying⟩)

end Removals

/-! ## Steps of a dispatch -/

section Dispatches

variable {s s' : State η δ} {event : BitVec 32}

/-- While the loop looks for the next handler, no record is in use. -/
theorem Inv.unused (hs : Inv s) (hpc : ∀ info, s.pc ≠ .calling info) {info : Nat}
    (hinfo : info ∈ s.handlers) {d : HandlerData η δ} (hd : s.heap info = some d) :
    d.inUse = false ∧ d.isDeleted = false := by
  have huse : d.inUse = false := by
    by_contra h
    rw [Bool.not_eq_false] at h
    exact hpc info (hs.inUse info hinfo d hd h).1
  refine ⟨huse, ?_⟩
  by_contra h
  rw [Bool.not_eq_false] at h
  rw [hs.marked info hinfo d hd h] at huse
  cases huse

/-- Where nothing is invoked the iterator does not matter. -/
theorem inv_moved (hs : Inv s) (hpc : ∀ info, s.pc ≠ .calling info) {it : Option Nat} {pc : Pc}
    (hpc' : ∀ info, pc ≠ .calling info) : Inv { s with it := it, pc := pc } where
  nodup := hs.nodup
  known := hs.known
  kept := hs.kept
  bounded := hs.bounded
  inUse info hinfo d hd huse := absurd (hs.inUse info hinfo d hd huse).1 (hpc info)
  marked := hs.marked
  apart := hs.apart
  current info hcalling := absurd hcalling (hpc' info)

theorem inv_next (hs : Inv s) (hpc : s.pc = .scanning) :
    (next event s).pc = .fault ∨ Inv (next event s) := by
  have hscanning : ∀ info, s.pc ≠ .calling info := by
    intro info
    rw [hpc]
    simp
  unfold next
  cases hit : s.it with
  | none => exact .inl rfl
  | some pos =>
      dsimp only
      cases hinfo : s.handlers[pos]? with
      | none => exact .inr (inv_moved hs hscanning (by simp))
      | some info =>
          have hmem := List.mem_of_getElem? hinfo
          dsimp only
          cases hd : s.heap info with
          | none => exact .inl rfl
          | some d =>
              -- Between two handlers no record is in use, so that the next one is not marked.
              rcases hs.unused hscanning hmem hd with ⟨huse, hdeleted⟩
              dsimp only
              split
              · rename_i hmatches
                have hchanged : Changed s { s with
                    heap := Function.update s.heap info (some { d with inUse := true })
                    it := some pos
                    pc := .calling info
                    log := s.log ++ [.invoked info] } info { d with inUse := true } :=
                  ⟨rfl, rfl, rfl⟩
                refine .inr (inv_changed hs hmem hd hchanged rfl (fun x => ?_) id (fun _ => rfl)
                  (fun x => ?_) (fun _ htype => ?_) (fun x hx => absurd hx (hscanning x)) ?_)
                · rw [State.ended, List.filterMap_append]
                  simp [State.ended, Entry.ending, hdeleted]
                · simp [eq_comm]
                · -- A handler without a type matches nothing.
                  refine hmatches ?_
                  rw [htype]
                  exact BitVec.zero_and
                · intro _ pos' hpos'
                  have heq : some pos = some pos' := hpos'
                  cases heq
                  exact hinfo
              · exact .inr (by rw [hpc]; exact inv_moved hs hscanning (by simp))

/-- The handler that is invoked returns. -/
theorem inv_handlerReturns (hs : Inv s) {info : Nat} (hpc : s.pc = .calling info)
    (ret : EventLoop.HandlerReturn) :
    (handlerReturns s info ret).pc = .fault ∨ Inv (handlerReturns s info ret) := by
  rcases hs.current info hpc with ⟨hmem, ⟨d, hd, huse⟩, hpos⟩
  unfold handlerReturns
  rw [hd]
  cases hit : s.it with
  | none => exact .inl rfl
  | some pos =>
      have hinfo := hpos pos hit
      dsimp only
      split
      · rename_i hends
        -- The record is deleted, for a cancellation or because it was marked.
        have hended : ∀ x, x ∈ (s.log ++ if ret = .cancel then [Entry.cancelled info] else []).filterMap
            Entry.ending ↔ x ∈ s.ended ∨ x = info := by
          intro x
          rw [List.filterMap_append, List.mem_append]
          by_cases hcancel : ret = .cancel
          · rw [if_pos hcancel]
            simp only [List.filterMap_cons, Entry.ending, List.filterMap_nil, List.mem_singleton]
            rfl
          · -- What is marked has ended before.
            have hdeleted := hends.resolve_left hcancel
            have hbefore : info ∈ s.ended := by
              by_contra hnot
              rcases ((hs.kept info).1 (mem_kept.2 ⟨hs.lt hmem, hnot⟩)).2 with ⟨e, he, hlive⟩
              cases Option.some.inj (hd.symm.trans he)
              rw [hdeleted] at hlive
              cases hlive
            rw [if_neg hcancel]
            constructor
            · exact fun h => .inl (h.resolve_right List.not_mem_nil)
            · rintro (h | rfl)
              · exact .inl h
              · exact .inl hbefore
        have herased : Erased s { s with
            handlers := s.handlers.eraseIdx pos
            heap := Function.update s.heap info none
            it := some pos
            pc := .scanning
            log := s.log ++ if ret = .cancel then [.cancelled info] else [] } info :=
          { handlers := eraseIdx_eq_filter hs.nodup hinfo
            heap := rfl
            registrations := rfl
            ended := hended
            pc := .inr ⟨hpc, rfl⟩
            it := fun _ _ hcalling => by cases hcalling
            before := fun _ _ hsame => by cases hsame.trans hpc }
        exact .inr (inv_erased hs hmem herased fun hsame => by cases hsame.trans hpc)
      · rename_i hstays
        have hdeleted : d.isDeleted = false := by
          rw [← Bool.not_eq_true]
          exact fun h => hstays (.inr h)
        have hchanged : Changed s { s with
            heap := Function.update s.heap info (some { d with inUse := false })
            it := some (pos + 1)
            pc := .scanning } info { d with inUse := false } := ⟨rfl, rfl, rfl⟩
        refine .inr (inv_changed hs hmem hd hchanged rfl (fun x => ?_) id (fun h => ?_) (fun x => ?_)
          (by simp) (fun x hx => ?_) (by simp))
        · simp [State.ended, hdeleted]
        · rw [hdeleted] at h
          cases h
        · simp
        · cases hpc.symm.trans hx
          rfl

end Dispatches

/-! ## Runs -/

section Runs

variable [DecidableEq η] [DecidableEq δ]

/-- Until an invalidated iterator is used the vector is in order. -/
theorem inv_step {l l' : Life η δ} {a : Act η δ} (hl : l.base.pc = .fault ∨ Inv l.base)
    (h : step l a = some l') : l'.base.pc = .fault ∨ Inv l'.base := by
  rcases hl with hfault | hs
  · -- Nothing happens behind a fault.
    rcases a with event | a
    · simp [step, hfault] at h
    · cases a <;> simp [step, callable, hfault, EventObject.step] at h
  · rcases a with event | a
    · simp only [step] at h
      split at h
      · rename_i hdone
        cases h
        exact .inr (inv_moved hs (by rw [hdone]; exact fun _ => by simp) fun _ => by simp)
      · cases h
    · cases a with
      | add registration allocated spare =>
          simp only [step] at h
          split at h
          · cases h
            exact .inr (inv_add hs allocated spare)
          · cases h
      | remove registration =>
          simp only [step] at h
          split at h
          · cases h
            exact .inr (inv_remove hs)
          · cases h
      | next =>
          cases hpc : l.base.pc with
          | scanning =>
              simp only [step, EventObject.step, hpc, Option.map_some, Option.some.injEq] at h
              exact h ▸ inv_next hs hpc
          | _ => simp [step, EventObject.step, hpc] at h
      | handlerReturns ret =>
          cases hpc : l.base.pc with
          | calling info =>
              simp only [step, EventObject.step, hpc, Option.map_some, Option.some.injEq] at h
              exact h ▸ inv_handlerReturns hs hpc ret
          | _ => simp [step, EventObject.step, hpc] at h

theorem laws_step_iff {l : Life η δ} (hl : l.base.pc = .fault ∨ Inv l.base) (a : Act η δ) :
    Laws l a ↔ Clean l a := by
  rcases a with event | a
  · exact Iff.rfl
  · cases a with
    | add registration allocated spare =>
        simp only [Laws, Clean, step]
        cases hcallable : callable l.base with
        | false => simp
        | true =>
            have hs : Inv l.base := hl.resolve_left fun hfault => by simp [callable, hfault] at hcallable
            simp [addLaws_iff hs]
    | remove registration =>
        simp only [Laws, Clean, step]
        cases hcallable : callable l.base with
        | false => simp
        | true =>
            have hs : Inv l.base := hl.resolve_left fun hfault => by simp [callable, hfault] at hcallable
            simp [removeLaws_iff hs]
    | next => exact Iff.rfl
    | handlerReturns ret => exact Iff.rfl

omit [DecidableEq η] [DecidableEq δ] in
theorem inv_new : Inv (Life.new : Life η δ).base where
  nodup := List.nodup_nil
  known _ h := absurd h List.not_mem_nil
  kept info := iff_of_false (by simp [Life.new, State.kept]) fun h => List.not_mem_nil h.1
  bounded _ h := absurd h List.not_mem_nil
  inUse _ h := absurd h List.not_mem_nil
  marked _ h := absurd h List.not_mem_nil
  apart _ h := absurd h List.not_mem_nil
  current _ h := by cases h

theorem laws_iff (as : List (Act η δ)) :
    Run.Along step Laws (Life.new : Life η δ) as ↔ Run.Along step Clean (Life.new : Life η δ) as :=
  Run.along_congr (I := fun l => l.base.pc = .fault ∨ Inv l.base)
    (fun _ _ _ hl _ h => inv_step hl h) (fun _ a hl => laws_step_iff hl a) (.inr inv_new)

end Runs

/-- A handler removes itself. -/
def selfRemoval : List (Act Nat Nat) :=
  [.act (.add ⟨0, 1, 0⟩ true 0), .fetch 1, .act .next, .act (.remove ⟨0, 1, 0⟩)]

theorem selfRemoval_breaks_laws : ¬ Run.Along step Laws (Life.new : Life Nat Nat) selfRemoval := by
  rintro ⟨-, hadded⟩
  rcases hadded _ rfl with ⟨-, hfetched⟩
  rcases hfetched _ rfl with ⟨-, hinvoked⟩
  rcases hinvoked _ rfl with ⟨hlaws, -⟩
  -- The marked record is in the way of the same registration.
  have hagain := (hlaws rfl).again rfl 0
  exact absurd hagain (by decide)

end Registrations
end EventObject
end Beyond
