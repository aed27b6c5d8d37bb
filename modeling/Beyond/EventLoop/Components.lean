import Beyond.Base.Run
import Beyond.EventLoop.Dispatch

/-!
# The components of event types

A `beyond_event_type` is a word of bytes: the component, a reserved byte, the events of the component,
and the readiness bits that all components share.  `FetchEventData` compares the words bit by bit, and so
does the handler of the C API, which takes the data of an inference event for a context.
-/

namespace Beyond
namespace EventObject
namespace Components

open EventLoop

/-! ## Event types -/

/-- The enumerators of `beyond_event_type`. -/
inductive EventValue
  | none
  | read
  | write
  | error
  | eventMask
  | inferenceUnknown
  | inferenceReady
  | inferenceSuccess
  | inferenceStopped
  | inferenceCanceled
  | inferenceError
  | inferenceMask
  | peerUnknown
  | peerConnected
  | peerDisconnected
  | peerInfoUpdated
  | peerError
  | peerMask
  | discoveryUnknown
  | discoveryDiscovered
  | discoveryRemoved
  | discoveryRegistered
  | discoveryError
  | discoveryMask
  | authenticatorUnknown
  | authenticatorCompleted
  | authenticatorError
  | authenticatorMask
  deriving DecidableEq, Repr

namespace EventValue

def code : EventValue → BitVec 32
  | none => 0x00000000#32
  | read => 0x00000010#32
  | write => 0x00000020#32
  | error => 0x00000040#32
  | eventMask => 0x000000FF#32
  | inferenceUnknown => 0x01000000#32
  | inferenceReady => 0x01000100#32
  | inferenceSuccess => 0x01000200#32
  | inferenceStopped => 0x01000400#32
  | inferenceCanceled => 0x01000800#32
  | inferenceError => 0x01001000#32
  | inferenceMask => 0x0100FF00#32
  | peerUnknown => 0x02000000#32
  | peerConnected => 0x02000100#32
  | peerDisconnected => 0x02000200#32
  | peerInfoUpdated => 0x02000400#32
  | peerError => 0x02000800#32
  | peerMask => 0x0200FF00#32
  | discoveryUnknown => 0x04000000#32
  | discoveryDiscovered => 0x04000100#32
  | discoveryRemoved => 0x04000200#32
  | discoveryRegistered => 0x04000400#32
  | discoveryError => 0x04000800#32
  | discoveryMask => 0x0400FF00#32
  | authenticatorUnknown => 0x08000000#32
  -- The component byte is not that of the others.
  | authenticatorCompleted => 0x80000100#32
  | authenticatorError => 0x08000200#32
  | authenticatorMask => 0x0800FF00#32

end EventValue

def readinessByte : BitVec 32 := 0x000000FF#32
def eventByte : BitVec 32 := 0x0000FF00#32
def reservedByte : BitVec 32 := 0x00FF0000#32
def componentByte : BitVec 32 := 0xFF000000#32

/-- The component of a type. -/
def component (type : BitVec 32) : BitVec 32 := type &&& componentByte

/-- The component of the `INFERENCE` events. -/
def INFERENCE : BitVec 32 := 0x01000000#32

/-- The union of some types. -/
def union (values : List EventValue) : BitVec 32 :=
  values.foldr (fun value type => value.code ||| type) 0#32

/-- The readiness bits that are added to the type of an event. -/
def readiness (bits : EventTypes) : BitVec 32 :=
  (bif bits.read then EventValue.read.code else 0#32) |||
    (bif bits.write then EventValue.write.code else 0#32) |||
    (bif bits.error then EventValue.error.code else 0#32)

/-- An event has the type of one of the values, with readiness bits. -/
structure Event where
  value : EventValue
  ready : EventTypes
  deriving DecidableEq, Repr

def Event.type (e : Event) : BitVec 32 := e.value.code ||| readiness e.ready

/-! ## The two places -/

/-- A handler that is added for a union of types. -/
structure Handler (η δ : Type*) where
  handler : η
  values : List EventValue
  data : δ

def Handler.registration {η δ : Type*} (h : Handler η δ) : Registration η δ :=
  ⟨h.handler, union h.values, h.data⟩

/-- A whole dispatch to handlers that do not change the list, other than by returning `CANCEL`. -/
structure Dispatch {η δ : Type*} [DecidableEq η] [DecidableEq δ] (handlers : List (Handler η δ))
    (event : BitVec 32) where
  capacity : Nat
  acts : List (Act η δ)
  final : State η δ
  byLoop : ∀ a ∈ acts, a.byLoop = true
  run : Run.exec (step event) (.start (handlers.map Handler.registration) capacity) acts = some final
  done : final.pc = .done

/-- What the event handler of `beyond_inference_create` takes the fetched data for. -/
inductive Taken
  | nothing
  | inferenceContext
  | plain
  deriving DecidableEq, Repr

/-- The event handler behind its `FetchEventData`, which has returned `ret` and perhaps event data. -/
def inferenceHandler (ret : Int) (type : Option (BitVec 32)) : Taken :=
  match type with
  | Option.none => .nothing
  | some type =>
      if ret < 0 ∨ type &&& EventValue.error.code ≠ 0#32 then .nothing
      else if type &&& EventValue.inferenceMask.code ≠ 0#32 then .inferenceContext
      else .plain

/-! ## What is meant -/

/-- The type has a readiness bit of the event. -/
def SharesReadiness (type event : BitVec 32) : Prop := type &&& event &&& readinessByte ≠ 0#32

/-- The types have an event bit in common. -/
def SharesEvent (type event : BitVec 32) : Prop := type &&& event &&& eventByte ≠ 0#32

/-- The handler is registered for a readiness bit of the event, or for an event of its component. -/
def Meant (values : List EventValue) (e : Event) : Prop :=
  ∃ value ∈ values, SharesReadiness value.code e.type ∨
    (component value.code = component e.value.code ∧ SharesEvent value.code e.value.code)

/-- The handler is registered for an event bit of the event in another component, or for anything in a
component of its own that the event belongs to. -/
def Stray (values : List EventValue) (e : Event) : Prop :=
  ∃ value ∈ values,
    (component value.code ≠ component e.value.code ∧ SharesEvent value.code e.value.code) ∨
    (component value.code = component e.value.code ∧ component value.code ≠ 0#32)

/-- Exactly those handlers are invoked for which the event is meant. -/
def NotConfused {η δ : Type*} [DecidableEq η] [DecidableEq δ] {handlers : List (Handler η δ)} (e : Event)
    (d : Dispatch handlers e.type) : Prop :=
  ∀ info h, handlers[info]? = some h → (info ∈ d.final.invoked ↔ Meant h.values e)

/-! ## Bits -/

theorem and_or_ne_zero {x a b : BitVec 32} :
    x &&& (a ||| b) ≠ 0#32 ↔ x &&& a ≠ 0#32 ∨ x &&& b ≠ 0#32 := by
  rw [BitVec.and_or_distrib_left, Ne, BitVec.or_eq_zero_iff, not_and_or]

/-- A word that is not 0 has a byte that is not 0. -/
theorem ne_zero_iff (x : BitVec 32) :
    x ≠ 0#32 ↔ x &&& readinessByte ≠ 0#32 ∨ x &&& eventByte ≠ 0#32 ∨
      x &&& reservedByte ≠ 0#32 ∨ x &&& componentByte ≠ 0#32 := by
  have hbytes : readinessByte ||| (eventByte ||| (reservedByte ||| componentByte)) =
      BitVec.allOnes 32 := by decide
  calc x ≠ 0#32 ↔ x &&& (readinessByte ||| (eventByte ||| (reservedByte ||| componentByte))) ≠ 0#32 := by
        rw [hbytes, BitVec.and_allOnes]
      _ ↔ _ := by rw [and_or_ne_zero, and_or_ne_zero, and_or_ne_zero]

theorem union_and_ne_zero (values : List EventValue) (x : BitVec 32) :
    union values &&& x ≠ 0#32 ↔ ∃ value ∈ values, value.code &&& x ≠ 0#32 := by
  induction values with
  | nil => simp [union]
  | cons value values ih =>
      have hcons : union (value :: values) = value.code ||| union values := rfl
      rw [hcons, BitVec.and_comm, and_or_ne_zero, BitVec.and_comm, BitVec.and_comm (x := x), ih]
      simp

theorem reserved_eq_zero (value : EventValue) : value.code &&& reservedByte = 0#32 := by
  cases value <;> rfl

theorem readiness_event (bits : EventTypes) : readiness bits &&& eventByte = 0#32 := by
  rcases bits with ⟨read, write, error⟩
  cases read <;> cases write <;> cases error <;> rfl

theorem readiness_component (bits : EventTypes) : readiness bits &&& componentByte = 0#32 := by
  rcases bits with ⟨read, write, error⟩
  cases read <;> cases write <;> cases error <;> rfl

/-- The bytes that the components have. -/
def components : List (BitVec 32) :=
  [0x00000000#32, 0x01000000#32, 0x02000000#32, 0x04000000#32, 0x08000000#32, 0x80000000#32]

theorem component_mem (value : EventValue) : component value.code ∈ components := by
  cases value <;> decide

/-- No two components have a bit in common. -/
theorem components_disjoint {c d : BitVec 32} (hc : c ∈ components) (hd : d ∈ components) :
    c &&& d ≠ 0#32 ↔ c = d ∧ c ≠ 0#32 := by
  simp only [components, List.mem_cons, List.not_mem_nil, or_false] at hc hd
  rcases hc with rfl | rfl | rfl | rfl | rfl | rfl <;>
    rcases hd with rfl | rfl | rfl | rfl | rfl | rfl <;> decide

theorem shares_component (v w : EventValue) :
    w.code &&& v.code &&& componentByte ≠ 0#32 ↔
      component w.code = component v.code ∧ component w.code ≠ 0#32 := by
  rw [← components_disjoint (component_mem w) (component_mem v)]
  have hboth : w.code &&& v.code &&& componentByte = component w.code &&& component v.code := by
    unfold component
    rw [BitVec.and_assoc, BitVec.and_assoc, ← BitVec.and_assoc componentByte,
      BitVec.and_comm componentByte, BitVec.and_assoc v.code, BitVec.and_self]
  rw [hboth]

/-! ## The dispatch -/

/-- What the comparison of the words amounts to. -/
theorem code_and_type (value : EventValue) (e : Event) :
    value.code &&& e.type ≠ 0#32 ↔ SharesReadiness value.code e.type ∨
      SharesEvent value.code e.value.code ∨
      (component value.code = component e.value.code ∧ component value.code ≠ 0#32) := by
  have hevent : value.code &&& e.type &&& eventByte = value.code &&& e.value.code &&& eventByte := by
    rw [BitVec.and_assoc, BitVec.and_assoc, Event.type, BitVec.and_or_distrib_right,
      readiness_event, BitVec.or_zero]
  have hcomponent : value.code &&& e.type &&& componentByte =
      value.code &&& e.value.code &&& componentByte := by
    rw [BitVec.and_assoc, BitVec.and_assoc, Event.type, BitVec.and_or_distrib_right,
      readiness_component, BitVec.or_zero]
  have hreserved : value.code &&& e.type &&& reservedByte = 0#32 := by
    rw [BitVec.and_assoc, BitVec.and_comm e.type, ← BitVec.and_assoc, reserved_eq_zero,
      BitVec.zero_and]
  rw [ne_zero_iff, hevent, hcomponent, hreserved, shares_component]
  simp [SharesReadiness, SharesEvent]

theorem meant_or_stray (values : List EventValue) (e : Event) :
    union values &&& e.type ≠ 0#32 ↔ Meant values e ∨ Stray values e := by
  rw [union_and_ne_zero]
  constructor
  · rintro ⟨value, hvalue, hshares⟩
    -- A readiness bit is meant whatever the component is, an event bit in the same one only.
    by_cases hsame : component value.code = component e.value.code
    · rcases (code_and_type value e).1 hshares with hready | hevent | hcomponent
      · exact .inl ⟨value, hvalue, .inl hready⟩
      · exact .inl ⟨value, hvalue, .inr ⟨hsame, hevent⟩⟩
      · exact .inr ⟨value, hvalue, .inr hcomponent⟩
    · rcases (code_and_type value e).1 hshares with hready | hevent | hcomponent
      · exact .inl ⟨value, hvalue, .inl hready⟩
      · exact .inr ⟨value, hvalue, .inl ⟨hsame, hevent⟩⟩
      · exact absurd hcomponent.1 hsame
  · rintro (⟨value, hvalue, hready | ⟨-, hevent⟩⟩ | ⟨value, hvalue, ⟨-, hevent⟩ | hcomponent⟩)
    · exact ⟨value, hvalue, (code_and_type value e).2 (.inl hready)⟩
    · exact ⟨value, hvalue, (code_and_type value e).2 (.inr (.inl hevent))⟩
    · exact ⟨value, hvalue, (code_and_type value e).2 (.inr (.inl hevent))⟩
    · exact ⟨value, hvalue, (code_and_type value e).2 (.inr (.inr hcomponent))⟩

section Dispatching

variable {η δ : Type*} [DecidableEq η] [DecidableEq δ] {handlers : List (Handler η δ)}
  {event : BitVec 32}

omit [DecidableEq η] [DecidableEq δ] in
theorem removed_log {s : State η δ} {entry : Entry} (hs : s.removed = [])
    (hentry : entry.removal = none) : (s.log ++ [entry]).filterMap Entry.removal = [] := by
  have hlog : s.log.filterMap Entry.removal = [] := hs
  rw [List.filterMap_append, hlog]
  simp [hentry]

/-- The loop itself removes nothing. -/
theorem removed_step {s s' : State η δ} {a : Act η δ} (hs : s.removed = []) (ha : a.byLoop = true)
    (h : step event s a = some s') : s'.removed = [] := by
  cases a with
  | add registration allocated spare => cases ha
  | remove registration => cases ha
  | next =>
      cases hpc : s.pc with
      | scanning =>
          simp only [step, hpc, Option.some.injEq] at h
          subst h
          unfold next
          split
          · exact hs
          · split
            · exact hs
            · split
              · exact hs
              · split
                · exact removed_log hs rfl
                · exact hs
      | _ => simp [step, hpc] at h
  | handlerReturns ret =>
      cases hpc : s.pc with
      | calling info =>
          simp only [step, hpc, Option.some.injEq] at h
          subst h
          unfold handlerReturns
          split
          · split
            · -- A cancellation is not a removal.
              by_cases hcancel : ret = .cancel
              · simp only [if_pos hcancel]
                exact removed_log hs rfl
              · simp only [if_neg hcancel, List.append_nil]
                exact hs
            · exact hs
          · exact hs
      | _ => simp [step, hpc] at h

/-- A dispatch that nobody changes invokes the handlers whose types match. -/
theorem invoked_iff_matches {registered : List (Registration η δ)} {capacity : Nat}
    {acts : List (Act η δ)} {final : State η δ} (hloop : ∀ a ∈ acts, a.byLoop = true)
    (hrun : Run.exec (step event) (.start registered capacity) acts = some final)
    (hdone : final.pc = .done) {info : Nat} {registration : Registration η δ}
    (hinfo : registered[info]? = some registration) :
    info ∈ final.invoked ↔ registration.matches event := by
  have hsound : Run.Along (step event) Sound (.start registered capacity) acts := by
    refine .of_forall fun a ha s => ?_
    have hbyLoop := hloop a ha
    cases a with
    | add registration allocated spare => cases hbyLoop
    | remove registration => cases hbyLoop
    | next => trivial
    | handlerReturns ret => trivial
  rcases Run.exec_invariant (inv_preserved event registered)
    ⟨_, inv_start event registered capacity⟩ hsound hrun with ⟨rest, hinv⟩
  have hdispatched := hinv.dispatched
  -- A handler can miss its turn only by a removal.
  have hremoved : final.removed = [] := by
    have hkept : Run.Preserved (step event) (fun _ a => a.byLoop = true)
        fun s : State η δ => s.removed = [] := fun _ _ _ hs ha h => removed_step hs ha h
    exact Run.exec_invariant hkept rfl (.of_forall fun a ha _ => hloop a ha) hrun
  constructor
  · intro hinvoked
    rcases hdispatched.matching info hinvoked with ⟨other, hget, hmatches⟩
    rcases hdispatched.registrations with ⟨added, hadded⟩
    rw [← hadded, List.getElem?_append_left (List.getElem?_eq_some_iff.1 hinfo).1, hinfo] at hget
    cases hget
    exact hmatches
  · intro hmatches
    rcases hdispatched.invoked hdone info registration hinfo hmatches with hinvoked | hgone
    · exact hinvoked
    · rw [hremoved] at hgone
      cases hgone

theorem invoked_iff (d : Dispatch handlers event) {info : Nat} {h : Handler η δ}
    (hinfo : handlers[info]? = some h) :
    info ∈ d.final.invoked ↔ union h.values &&& event ≠ 0#32 := by
  have hregistered : (handlers.map Handler.registration)[info]? = some h.registration := by
    simp [hinfo]
  exact invoked_iff_matches d.byLoop d.run d.done hregistered

theorem notConfused_iff (e : Event) (d : Dispatch handlers e.type) :
    NotConfused e d ↔ ∀ h ∈ handlers, Meant h.values e ∨ ¬ Stray h.values e := by
  constructor
  · intro hright h hmem
    rcases List.mem_iff_getElem?.1 hmem with ⟨info, hinfo⟩
    by_cases hstray : Stray h.values e
    · refine .inl ((hright info h hinfo).1 ?_)
      exact (invoked_iff d hinfo).2 ((meant_or_stray h.values e).2 (.inr hstray))
    · exact .inr hstray
  · intro hclean info h hinfo
    rw [invoked_iff d hinfo, meant_or_stray]
    constructor
    · rintro (hmeant | hstray)
      · exact hmeant
      · exact (hclean h (List.mem_of_getElem? hinfo)).resolve_right (not_not_intro hstray)
    · exact .inl

end Dispatching

/-! ## The C API -/

theorem readiness_mask (bits : EventTypes) :
    readiness bits &&& EventValue.inferenceMask.code = 0#32 := by
  rcases bits with ⟨read, write, error⟩
  cases read <;> cases write <;> cases error <;> rfl

theorem mask_iff (value : EventValue) :
    value.code &&& EventValue.inferenceMask.code ≠ 0#32 ↔
      component value.code = INFERENCE ∨ value.code &&& eventByte ≠ 0#32 := by
  cases value <;> decide

/-- Event data that is taken for a context belongs to an inference event. -/
def ContextOfInference (ret : Int) (e : Event) : Prop :=
  inferenceHandler ret (some e.type) = .inferenceContext → component e.value.code = INFERENCE

theorem contextOfInference_iff (ret : Int) (e : Event) :
    ContextOfInference ret e ↔ component e.value.code = INFERENCE ∨ ret < 0 ∨
      e.type &&& EventValue.error.code ≠ 0#32 ∨ e.value.code &&& eventByte = 0#32 := by
  -- The mask has no readiness bit.
  have hmask : e.type &&& EventValue.inferenceMask.code =
      e.value.code &&& EventValue.inferenceMask.code := by
    rw [Event.type, BitVec.and_or_distrib_right, readiness_mask, BitVec.or_zero]
  unfold ContextOfInference inferenceHandler
  dsimp only
  rw [hmask]
  by_cases herror : ret < 0 ∨ e.type &&& EventValue.error.code ≠ 0#32
  · rw [if_pos herror]
    refine iff_of_true nofun ?_
    rcases herror with hret | hbit
    · exact .inr (.inl hret)
    · exact .inr (.inr (.inl hbit))
  · rw [if_neg herror]
    rw [not_or] at herror
    have hiff := mask_iff e.value
    by_cases hinference : component e.value.code = INFERENCE
    · exact iff_of_true (fun _ => hinference) (.inl hinference)
    · by_cases hevent : e.value.code &&& eventByte = 0#32
      · rw [if_neg (fun h => (hiff.1 h).elim hinference fun hne => hne hevent)]
        exact iff_of_true nofun (.inr (.inr (.inr hevent)))
      · rw [if_pos (hiff.2 (.inr hevent))]
        refine iff_of_false (fun h => hinference (h rfl)) ?_
        rintro (h | h | h | h)
        · exact hinference h
        · exact herror.1 h
        · exact herror.2 h
        · exact hevent h

/-! ## Both places -/

/-- Both places keep the components apart just for these handlers and events. -/
theorem components_apart_iff {η δ : Type*} [DecidableEq η] [DecidableEq δ] (handlers : List (Handler η δ))
    (e : Event) (d : Dispatch handlers e.type) (ret : Int) :
    (NotConfused e d ↔ ∀ h ∈ handlers, Meant h.values e ∨ ¬ Stray h.values e) ∧
      (ContextOfInference ret e ↔ component e.value.code = INFERENCE ∨ ret < 0 ∨
        e.type &&& EventValue.error.code ≠ 0#32 ∨ e.value.code &&& eventByte = 0#32) :=
  ⟨notConfused_iff e d, contextOfInference_iff ret e⟩

/-- A handler for a connected peer. -/
def peerHandlers : List (Handler Nat Nat) := [⟨0, [.peerConnected], 0⟩]

/-- An inference is ready. -/
def inferenceReady : Event := ⟨.inferenceReady, ⟨false, false, false⟩⟩

def peerDispatch : Dispatch peerHandlers inferenceReady.type where
  capacity := 1
  acts := [.next, .handlerReturns .renew, .next]
  final := (Run.exec (step inferenceReady.type) (.start (peerHandlers.map Handler.registration) 1)
    [.next, .handlerReturns .renew, .next]).getD (.start [] 0)
  byLoop := by decide
  run := rfl
  done := rfl

theorem peer_handler_invoked : ¬ NotConfused inferenceReady peerDispatch := by
  intro hright
  have hinvoked : 0 ∈ peerDispatch.final.invoked := by decide
  rcases (hright 0 ⟨0, [.peerConnected], 0⟩ rfl).1 hinvoked with ⟨value, hvalue, hmeant⟩
  cases List.mem_singleton.1 hvalue
  rcases hmeant with hready | ⟨hcomponent, -⟩
  · exact absurd rfl hready
  · exact absurd hcomponent (by decide)

end Components
end EventObject
end Beyond
