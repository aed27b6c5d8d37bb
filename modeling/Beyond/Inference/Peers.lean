import Beyond.Base.Platform
import Beyond.Base.Run
import Beyond.EventLoop.Dispatch

/-!
# Peers of a remote inference

`Inference::impl::remote` keeps the peers that were added, selects one of them when it is prepared for
the first time, and keeps the name of the model until then.  Its `PeerEventHandler` is registered on
each peer with the address of the remote as data.  Peers may be shared by any number of remotes and
have further handlers of the application.

What the calls of the peers return is chosen by the environment, except for the handlers, which are
those of `beyond::EventObject`.  No call comes from inside a dispatch, so no handler is in use.
-/

namespace Beyond
namespace Inference
namespace Peers

open EventObject
open Errno

/-! ## State -/

/-- What selection reads of a `beyond_peer_info`. -/
structure Info where
  freeMemory : Nat
  freeStorage : Nat
  deriving DecidableEq, Repr

/-- `Inference::impl::remote`. -/
structure Remote (π : Type*) where
  peer : Option π
  peerVector : List π
  modelFile : String
  deriving DecidableEq, Repr

/-- Remotes are given by their addresses `ρ`. -/
structure State (π η ρ : Type*) where
  remote : ρ → Remote π
  handlers : π → List (Registration η ρ)
  activated : π → Bool
  /-- The model of the last `LoadModel` of the remote that returned 0. -/
  requested : ρ → Option String
  /-- The model of a later one that the selected peer has answered with a positive code. -/
  unasked : ρ → Option String
  /-- What was loaded last on the peer since it was last added. -/
  loaded : π → Option String

/-- The arguments of a call and what the peers return while it runs. -/
inductive Call (π : Type*)
  /-- `allocated` tells whether `AddHandler` gets its memory. -/
  | addPeer (p : π) (allocated : Bool) (activate : Int)
  | removePeer (p : π) (deactivate : Int)
  /-- `model[0]` is `none` where one of the pointers is null. -/
  | loadModel (model : Option String) (size : Int) (ret : Int)
  /-- `info` is `none` where `GetInfo` fails. -/
  | prepare (info : π → Option Info) (load : Int) (ret : Int)

inductive Act (π η ρ : Type*)
  | call (r : ρ) (call : Call π)
  /-- The application changes handlers of its own. -/
  | addHandler (p : π) (registration : Registration η ρ) (allocated : Bool)
  | removeHandler (p : π) (registration : Registration η ρ)

variable {π η ρ : Type*}

/-! ## Handlers of a peer -/

section Handlers

variable [DecidableEq η] [DecidableEq ρ]

/-- `EventObject::AddHandler`. -/
def addHandler (handlers : List (Registration η ρ)) (registration : Registration η ρ)
    (allocated : Bool) : List (Registration η ρ) × Int :=
  if handlers.any fun r => overlaps registration ⟨r, false, false⟩ then (handlers, -EALREADY)
  else if allocated = false then (handlers, -ENOMEM)
  else (handlers ++ [registration], 0)

/-- `EventObject::RemoveHandler`. -/
def removeHandler (handlers : List (Registration η ρ)) (registration : Registration η ρ) :
    List (Registration η ρ) × Int :=
  if registration ∈ handlers then (handlers.erase registration, 0) else (handlers, -ENOENT)

end Handlers

def READ : BitVec 32 := 0x00000010
def ERROR : BitVec 32 := 0x00000040

/-! ## Selection -/

structure Selected (π : Type*) where
  freeStorage : Nat
  freeMemory : Nat
  peer : Option π

/-- The loop of `Prepare` looks at its next peer. -/
def consider (info : π → Option Info) (selected : Selected π) (p : π) : Selected π :=
  match info p with
  | none => selected
  | some i =>
      if i.freeMemory > selected.freeMemory then ⟨i.freeStorage, i.freeMemory, some p⟩
      else if i.freeMemory = selected.freeMemory ∧ i.freeStorage > selected.freeStorage then
        ⟨i.freeStorage, i.freeMemory, some p⟩
      else selected

/-- The peer that is selected; `first` is `peerVector[0]`. -/
def select (info : π → Option Info) (first : π) (rest : List π) : π :=
  (((first :: rest).foldl (consider info) ⟨0, 0, none⟩).peer).getD first

/-! ## Calls -/

/-- A call returns, and may have forwarded `Prepare` to a peer. -/
structure Outcome (σ π : Type*) where
  state : σ
  ret : Int
  forwarded : Option π

section Calls

variable [DecidableEq π] [DecidableEq η] [DecidableEq ρ]

-- `Inference::impl::remote::PeerEventHandler`.
variable (peerEventHandler : η)

/-- What `AddPeer` registers. -/
def registration (r : ρ) : Registration η ρ := ⟨peerEventHandler, READ ||| ERROR, r⟩

def State.setRemote (s : State π η ρ) (r : ρ) (remote : Remote π) : State π η ρ :=
  { s with remote := Function.update s.remote r remote }

def State.setHandlers (s : State π η ρ) (p : π) (handlers : List (Registration η ρ)) :
    State π η ρ :=
  { s with handlers := Function.update s.handlers p handlers }

/-- A peer loads a model. -/
def State.load (s : State π η ρ) (p : π) (model : String) : State π η ρ :=
  { s with loaded := Function.update s.loaded p (some model) }

def addPeer (s : State π η ρ) (r : ρ) (p : π) (allocated : Bool) (activate : Int) :
    State π η ρ × Int :=
  let added := addHandler (s.handlers p) (registration peerEventHandler r) allocated
  let t := s.setHandlers p added.1
  if added.2 < 0 then (t, added.2)
  else if activate < 0 then
    (t.setHandlers p (removeHandler (t.handlers p) (registration peerEventHandler r)).1, activate)
  else
    ({ t.setRemote r { t.remote r with peerVector := (t.remote r).peerVector ++ [p] } with
        activated := Function.update t.activated p true
        loaded := Function.update t.loaded p none }, activate)

def removePeer (s : State π η ρ) (r : ρ) (p : π) (deactivate : Int) : State π η ρ × Int :=
  let self := s.remote r
  if p ∉ self.peerVector then (s, -ENOENT)
  else
    let removed := removeHandler (s.handlers p) (registration peerEventHandler r)
    ({ (s.setHandlers p removed.1).setRemote r { self with
          peer := if self.peer = some p then none else self.peer
          peerVector := self.peerVector.erase p } with
        activated :=
          if deactivate < 0 then s.activated else Function.update s.activated p false },
      removed.2)

def loadModel (s : State π η ρ) (r : ρ) (model : Option String) (size : Int) (ret : Int) :
    State π η ρ × Int :=
  match model with
  | none => (s, -EINVAL)
  | some m =>
      if size ≤ 0 then (s, -EINVAL)
      else if size ≠ 1 then (s, -ENOTSUP)
      else
        match (s.remote r).peer with
        | none => (s.setRemote r { s.remote r with modelFile := m }, 0)
        | some p => (if ret < 0 then s else s.load p m, ret)

def prepare (s : State π η ρ) (r : ρ) (info : π → Option Info) (load : Int) (ret : Int) :
    Outcome (State π η ρ) π :=
  let self := s.remote r
  match self.peerVector, self.peer with
  | [], _ => ⟨s, -EINVAL, none⟩
  | _ :: _, some p => ⟨s, ret, some p⟩
  | first :: rest, none =>
      let p := select info first rest
      if self.modelFile ≠ "" then
        if load < 0 then ⟨s, load, none⟩
        else ⟨(s.load p self.modelFile).setRemote r { self with peer := some p, modelFile := "" },
          ret, some p⟩
      else ⟨s.setRemote r { self with peer := some p }, ret, some p⟩

/-- What is remembered of a `LoadModel` that has returned `ret`. -/
def State.remember (s : State π η ρ) (r : ρ) (model : Option String) (ret : Int) : State π η ρ :=
  if ret = 0 then
    { s with
      requested := Function.update s.requested r model
      unasked := Function.update s.unasked r none }
  else if 0 < ret then { s with unasked := Function.update s.unasked r model }
  else s

/-- With its peer the remote loses what that peer has loaded. -/
def State.forget (s : State π η ρ) (r : ρ) : State π η ρ :=
  if (s.remote r).peer = none then { s with unasked := Function.update s.unasked r none } else s

/-- A call of remote `r`. -/
def call (s : State π η ρ) (r : ρ) : Call π → Option (Outcome (State π η ρ) π)
  | .addPeer p allocated activate =>
      let done := addPeer peerEventHandler s r p allocated activate
      some ⟨done.1, done.2, none⟩
  | .removePeer p deactivate =>
      let done := removePeer peerEventHandler s r p deactivate
      some ⟨done.1.forget r, done.2, none⟩
  | .loadModel model size ret =>
      let done := loadModel s r model size ret
      some ⟨done.1.remember r model done.2, done.2, none⟩
  | .prepare info load ret => some (prepare s r info load ret)

def step (s : State π η ρ) : Act π η ρ → Option (State π η ρ)
  | .call r c => (call peerEventHandler s r c).map Outcome.state
  | .addHandler p registration allocated =>
      if registration.handler = peerEventHandler then none
      else some (s.setHandlers p (addHandler (s.handlers p) registration allocated).1)
  | .removeHandler p registration =>
      if registration.handler = peerEventHandler then none
      else some (s.setHandlers p (removeHandler (s.handlers p) registration).1)

/-- The steps of one remote. -/
def callStep (r : ρ) (s : State π η ρ) (c : Call π) : Option (State π η ρ) :=
  step peerEventHandler s (.call r c)

end Calls

/-- New remotes and peers. -/
def State.initial : State π η ρ where
  remote _ := ⟨none, [], ""⟩
  handlers _ := []
  activated _ := false
  requested _ := none
  unasked _ := none
  loaded _ := none

/-! ## Specification -/

section Property

variable [DecidableEq π] [DecidableEq η] [DecidableEq ρ] (peerEventHandler : η)

/-- The three records of membership agree. -/
structure Consistent (s : State π η ρ) : Prop where
  selected : ∀ r p, (s.remote r).peer = some p → p ∈ (s.remote r).peerVector
  nodup : ∀ r, (s.remote r).peerVector.Nodup
  registered : ∀ r p, p ∈ (s.remote r).peerVector ↔
    registration peerEventHandler r ∈ s.handlers p

/-- `Prepare` goes to a peer that has loaded the last model asked for, if there is one. -/
def Prepared (r : ρ) (s : State π η ρ) (c : Call π) : Prop :=
  ∀ done p, call peerEventHandler s r c = some done → done.forwarded = some p →
    ∀ m, done.state.requested r = some m → done.state.loaded p = some m

/-- Once a model was asked for, a `Prepare` that has to select a peer finds its name, and a peer that is
selected has answered nothing but that model with a positive code since. -/
def Pending (r : ρ) (s : State π η ρ) : Call π → Prop
  | .prepare _ _ _ => (s.remote r).peerVector ≠ [] → s.requested r ≠ none →
      ((s.remote r).peer = none → (s.remote r).modelFile ≠ "") ∧
        (s.unasked r = none ∨ s.unasked r = s.requested r)
  | _ => True

instance Pending.decidable (r : ρ) (s : State π η ρ) : ∀ c, Decidable (Pending r s c)
  | .prepare _ _ _ => inferInstanceAs (Decidable ((s.remote r).peerVector ≠ [] →
      s.requested r ≠ none → ((s.remote r).peer = none → (s.remote r).modelFile ≠ "") ∧
        (s.unasked r = none ∨ s.unasked r = s.requested r)))
  | .addPeer .. | .removePeer .. | .loadModel .. => isTrue trivial

end Property

/-! ## Selection takes a member -/

theorem consider_peer (info : π → Option Info) (selected : Selected π) (p : π) :
    (consider info selected p).peer = selected.peer ∨ (consider info selected p).peer = some p := by
  unfold consider
  split
  · exact .inl rfl
  · split_ifs
    · exact .inr rfl
    · exact .inr rfl
    · exact .inl rfl

theorem foldl_consider_peer (info : π → Option Info) (peers : List π) (selected : Selected π) {p : π}
    (hp : (peers.foldl (consider info) selected).peer = some p) :
    selected.peer = some p ∨ p ∈ peers := by
  induction peers generalizing selected with
  | nil => exact .inl hp
  | cons q peers ih =>
      rcases ih (consider info selected q) hp with hhead | hmem
      · rcases consider_peer info selected q with heq | heq
        · exact .inl (heq ▸ hhead)
        · cases heq.symm.trans hhead
          exact .inr List.mem_cons_self
      · exact .inr (List.mem_cons_of_mem _ hmem)

theorem select_mem (info : π → Option Info) (first : π) (rest : List π) :
    select info first rest ∈ first :: rest := by
  unfold select
  cases hpeer : ((first :: rest).foldl (consider info) ⟨0, 0, none⟩).peer with
  | none => exact List.mem_cons_self
  | some p =>
      rcases foldl_consider_peer info _ _ hpeer with hnone | hmem
      · cases hnone
      · exact hmem

/-! ## Handlers -/

section Handlers

variable [DecidableEq η] [DecidableEq ρ]

/-- A registration for some event is refused where it is there already. -/
theorem addHandler_cases (handlers : List (Registration η ρ)) {registration : Registration η ρ}
    (htype : registration.type ≠ 0) (allocated : Bool) :
    (∃ code < 0, addHandler handlers registration allocated = (handlers, code)) ∨
      (registration ∉ handlers ∧
        addHandler handlers registration allocated = (handlers ++ [registration], 0)) := by
  unfold addHandler
  split_ifs with hany hallocated
  · exact .inl ⟨-EALREADY, by decide, rfl⟩
  · exact .inl ⟨-ENOMEM, by decide, rfl⟩
  · refine .inr ⟨fun hmem => hany ?_, rfl⟩
    rw [List.any_eq_true]
    exact ⟨registration, hmem, by simpa [overlaps] using htype⟩

theorem addHandler_list (handlers : List (Registration η ρ)) (registration : Registration η ρ)
    (allocated : Bool) :
    (addHandler handlers registration allocated).1 = handlers ∨
      (addHandler handlers registration allocated).1 = handlers ++ [registration] := by
  unfold addHandler
  split_ifs
  · exact .inl rfl
  · exact .inl rfl
  · exact .inr rfl

theorem removeHandler_list (handlers : List (Registration η ρ))
    (registration : Registration η ρ) :
    (removeHandler handlers registration).1 = handlers.erase registration := by
  unfold removeHandler
  split_ifs with hmem
  · rfl
  · exact (List.erase_of_not_mem hmem).symm

end Handlers

theorem registration_type (peerEventHandler : η) (r : ρ) :
    (registration peerEventHandler r).type ≠ 0 := by
  simp [registration, READ, ERROR]

theorem registration_inj {peerEventHandler : η} {r r' : ρ} :
    registration peerEventHandler r = registration peerEventHandler r' ↔ r = r' := by
  simp [registration]

/-! ## Invariant -/

section Invariant

variable [DecidableEq π] [DecidableEq η] [DecidableEq ρ] {peerEventHandler : η}

/-- The handler list of a peer has the registration of a remote as often as the remote has the
peer. -/
structure Inv (peerEventHandler : η) (s : State π η ρ) : Prop where
  selected : ∀ r p, (s.remote r).peer = some p → p ∈ (s.remote r).peerVector
  nodup : ∀ r, (s.remote r).peerVector.Nodup
  registered : ∀ r p, (s.handlers p).count (registration peerEventHandler r) =
    (s.remote r).peerVector.count p

theorem inv_initial : Inv peerEventHandler (.initial : State π η ρ) where
  selected r p hp := by simp [State.initial] at hp
  nodup r := List.nodup_nil
  registered r p := rfl

theorem Inv.mem_iff {s : State π η ρ} (hs : Inv peerEventHandler s) (r : ρ) (p : π) :
    p ∈ (s.remote r).peerVector ↔ registration peerEventHandler r ∈ s.handlers p := by
  rw [← List.count_pos_iff, ← hs.registered r p, List.count_pos_iff]

theorem Inv.consistent {s : State π η ρ} (hs : Inv peerEventHandler s) :
    Consistent peerEventHandler s := ⟨hs.selected, hs.nodup, hs.mem_iff⟩

/-- Neither the members of a remote nor the registrations of remotes change. -/
theorem Inv.congr {s s' : State π η ρ} (hs : Inv peerEventHandler s)
    (hpeer : ∀ r p, (s'.remote r).peer = some p → p ∈ (s.remote r).peerVector)
    (hvector : ∀ r, (s'.remote r).peerVector = (s.remote r).peerVector)
    (hhandlers : ∀ r p, (s'.handlers p).count (registration peerEventHandler r) =
      (s.handlers p).count (registration peerEventHandler r)) : Inv peerEventHandler s' where
  selected r p hp := hvector r ▸ hpeer r p hp
  nodup r := hvector r ▸ hs.nodup r
  registered r p := by rw [hhandlers, hs.registered, hvector]

/-- `AddPeer` either fails and leaves everything as it was, or the peer was no member before. -/
theorem addPeer_cases (peerEventHandler : η) (s : State π η ρ) (r : ρ) (p : π) (allocated : Bool)
    (activate : Int) :
    (∃ code < 0, addPeer peerEventHandler s r p allocated activate = (s, code)) ∨
      (registration peerEventHandler r ∉ s.handlers p ∧ 0 ≤ activate ∧
        addPeer peerEventHandler s r p allocated activate =
          ({ s with
              remote := Function.update s.remote r
                { s.remote r with peerVector := (s.remote r).peerVector ++ [p] }
              handlers := Function.update s.handlers p
                (s.handlers p ++ [registration peerEventHandler r])
              activated := Function.update s.activated p true
              loaded := Function.update s.loaded p none }, activate)) := by
  rcases addHandler_cases (s.handlers p) (registration_type peerEventHandler r) allocated
    with ⟨code, hcode, hadd⟩ | ⟨hnew, hadd⟩
  · refine .inl ⟨code, hcode, ?_⟩
    simp [addPeer, hadd, hcode, State.setHandlers]
  · by_cases hactivate : activate < 0
    · refine .inl ⟨activate, hactivate, ?_⟩
      -- The roll-back takes out what has just been appended.
      have herase : (s.handlers p ++ [registration peerEventHandler r]).erase
          (registration peerEventHandler r) = s.handlers p := by
        rw [List.erase_append_right _ hnew]
        simp
      simp [addPeer, hadd, hactivate, State.setHandlers, removeHandler_list, herase]
    · refine .inr ⟨hnew, by omega, ?_⟩
      simp [addPeer, hadd, hactivate, State.setHandlers, State.setRemote]

theorem removePeer_cases (peerEventHandler : η) (s : State π η ρ) (r : ρ) (p : π)
    (deactivate : Int) :
    removePeer peerEventHandler s r p deactivate = (s, -ENOENT) ∨
      (p ∈ (s.remote r).peerVector ∧ ∃ activated ret,
        removePeer peerEventHandler s r p deactivate =
          ({ s with
              remote := Function.update s.remote r { s.remote r with
                peer := if (s.remote r).peer = some p then none else (s.remote r).peer
                peerVector := (s.remote r).peerVector.erase p }
              handlers := Function.update s.handlers p
                ((s.handlers p).erase (registration peerEventHandler r))
              activated := activated }, ret)) := by
  by_cases hmem : p ∈ (s.remote r).peerVector
  · refine .inr ⟨hmem,
      if deactivate < 0 then s.activated else Function.update s.activated p false,
      (removeHandler (s.handlers p) (registration peerEventHandler r)).2, ?_⟩
    simp [removePeer, hmem, removeHandler_list, State.setRemote, State.setHandlers]
  · exact .inl (by simp [removePeer, hmem])

omit [DecidableEq η] in
theorem loadModel_cases (s : State π η ρ) (r : ρ) (model : Option String) (size ret : Int) :
    (∃ code < 0, loadModel s r model size ret = (s, code)) ∨
      (∃ m, model = some m ∧ (s.remote r).peer = none ∧
        loadModel s r model size ret =
          (s.setRemote r { s.remote r with modelFile := m }, 0)) ∨
      ∃ m p, model = some m ∧ (s.remote r).peer = some p ∧ 0 ≤ ret ∧
        loadModel s r model size ret = (s.load p m, ret) := by
  cases model with
  | none => exact .inl ⟨-EINVAL, by decide, rfl⟩
  | some m =>
      by_cases hempty : size ≤ 0
      · exact .inl ⟨-EINVAL, by decide, by simp [loadModel, hempty]⟩
      by_cases hone : size ≠ 1
      · exact .inl ⟨-ENOTSUP, by decide, by simp [loadModel, hempty, hone]⟩
      cases hpeer : (s.remote r).peer with
      | none => exact .inr (.inl ⟨m, rfl, rfl, by simp [loadModel, hempty, hone, hpeer]⟩)
      | some p =>
          by_cases hret : ret < 0
          · exact .inl ⟨ret, hret, by simp [loadModel, hempty, hone, hpeer, hret]⟩
          · exact .inr (.inr ⟨m, p, rfl, rfl, by omega,
              by simp [loadModel, hempty, hone, hpeer, hret]⟩)

omit [DecidableEq η] in
/-- `Prepare` fails before it comes to a peer, or goes to the selected peer, or selects one, with or
without a model to load. -/
theorem prepare_cases (s : State π η ρ) (r : ρ) (info : π → Option Info) (load ret : Int) :
    (((s.remote r).peerVector = [] ∨ (s.remote r).modelFile ≠ "") ∧
      ∃ code, prepare s r info load ret = ⟨s, code, none⟩) ∨
    (∃ p, (s.remote r).peer = some p ∧ prepare s r info load ret = ⟨s, ret, some p⟩) ∨
    (∃ p ∈ (s.remote r).peerVector, (s.remote r).peer = none ∧ (s.remote r).modelFile ≠ "" ∧
      prepare s r info load ret =
        ⟨(s.load p (s.remote r).modelFile).setRemote r
          { s.remote r with peer := some p, modelFile := "" }, ret, some p⟩) ∨
    ∃ p ∈ (s.remote r).peerVector, (s.remote r).peer = none ∧ (s.remote r).modelFile = "" ∧
      prepare s r info load ret =
        ⟨s.setRemote r { s.remote r with peer := some p }, ret, some p⟩ := by
  cases hvector : (s.remote r).peerVector with
  | nil => exact .inl ⟨.inl rfl, -EINVAL, by simp [prepare, hvector]⟩
  | cons first rest =>
      cases hpeer : (s.remote r).peer with
      | some p => exact .inr (.inl ⟨p, rfl, by simp [prepare, hvector, hpeer]⟩)
      | none =>
          have hmem := select_mem info first rest
          by_cases hfile : (s.remote r).modelFile = ""
          · exact .inr (.inr (.inr ⟨_, hmem, rfl, hfile, by simp [prepare, hvector, hpeer, hfile]⟩))
          · by_cases hload : load < 0
            · exact .inl ⟨.inr hfile, load, by simp [prepare, hvector, hpeer, hfile, hload]⟩
            · exact .inr (.inr (.inl ⟨_, hmem, rfl, hfile,
                by simp [prepare, hvector, hpeer, hfile, hload]⟩))

/-! ## Steps -/

theorem inv_addPeer {s : State π η ρ} (hs : Inv peerEventHandler s) (r : ρ) (p : π)
    (allocated : Bool) (activate : Int) :
    Inv peerEventHandler (addPeer peerEventHandler s r p allocated activate).1 := by
  rcases addPeer_cases peerEventHandler s r p allocated activate
    with ⟨code, -, hdone⟩ | ⟨hnew, -, hdone⟩
  · rw [hdone]
    exact hs
  rw [hdone]
  have hmem : p ∉ (s.remote r).peerVector := fun h => hnew ((hs.mem_iff r p).1 h)
  refine ⟨fun r' q hq => ?_, fun r' => ?_, fun r' q => ?_⟩
  · by_cases hr : r' = r
    · subst hr
      simp only [Function.update_self] at hq ⊢
      exact List.mem_append_left _ (hs.selected r' q hq)
    · simp only [Function.update_of_ne hr] at hq ⊢
      exact hs.selected r' q hq
  · by_cases hr : r' = r
    · subst hr
      simpa using (hs.nodup r').append (List.nodup_singleton p) (by simpa using hmem)
    · simpa [Function.update_of_ne hr] using hs.nodup r'
  · by_cases hr : r' = r <;> by_cases hq : q = p
    · subst hr hq
      simp [hs.registered]
    · subst hr
      simp [Function.update_of_ne hq, hs.registered, Ne.symm hq]
    · subst hq
      have hne : registration peerEventHandler r ≠ registration peerEventHandler r' :=
        fun h => hr (registration_inj.1 h).symm
      simp [Function.update_of_ne hr, hs.registered, hne]
    · simp [Function.update_of_ne hr, Function.update_of_ne hq, hs.registered]

theorem inv_removePeer {s : State π η ρ} (hs : Inv peerEventHandler s) (r : ρ) (p : π)
    (deactivate : Int) : Inv peerEventHandler (removePeer peerEventHandler s r p deactivate).1 := by
  rcases removePeer_cases peerEventHandler s r p deactivate
    with hdone | ⟨hmem, activated, ret, hdone⟩
  · rw [hdone]
    exact hs
  rw [hdone]
  refine ⟨fun r' q hq => ?_, fun r' => ?_, fun r' q => ?_⟩
  · by_cases hr : r' = r
    · subst hr
      simp only [Function.update_self] at hq ⊢
      split_ifs at hq with hpeer
      have hne : q ≠ p := fun heq => hpeer (heq ▸ hq)
      exact (List.mem_erase_of_ne hne).2 (hs.selected r' q hq)
    · simp only [Function.update_of_ne hr] at hq ⊢
      exact hs.selected r' q hq
  · by_cases hr : r' = r
    · subst hr
      simpa using (hs.nodup r').erase p
    · simpa [Function.update_of_ne hr] using hs.nodup r'
  · by_cases hr : r' = r <;> by_cases hq : q = p
    · subst hr hq
      simp [hs.registered]
    · subst hr
      simp [Function.update_of_ne hq, hs.registered, List.count_erase_of_ne hq]
    · subst hq
      have hne : registration peerEventHandler r' ≠ registration peerEventHandler r :=
        fun h => hr (registration_inj.1 h)
      simp [Function.update_of_ne hr, hs.registered, List.count_erase_of_ne hne]
    · simp [Function.update_of_ne hr, Function.update_of_ne hq, hs.registered]

/-- What `LoadModel` and `Prepare` do to a remote. -/
theorem inv_setRemote {s : State π η ρ} (hs : Inv peerEventHandler s) {r : ρ} {remote : Remote π}
    (hvector : remote.peerVector = (s.remote r).peerVector)
    (hpeer : ∀ p, remote.peer = some p → p ∈ (s.remote r).peerVector) :
    Inv peerEventHandler (s.setRemote r remote) := by
  refine hs.congr (fun r' p hp => ?_) (fun r' => ?_) (fun _ _ => rfl)
  · by_cases hr : r' = r
    · subst hr
      exact hpeer p (by simpa [State.setRemote] using hp)
    · exact hs.selected r' p (by simpa [State.setRemote, Function.update_of_ne hr] using hp)
  · by_cases hr : r' = r
    · subst hr
      simpa [State.setRemote] using hvector
    · simp [State.setRemote, Function.update_of_ne hr]

theorem inv_load {s : State π η ρ} (hs : Inv peerEventHandler s) (p : π) (model : String) :
    Inv peerEventHandler (s.load p model) :=
  hs.congr hs.selected (fun _ => rfl) fun _ _ => rfl

theorem inv_loadModel {s : State π η ρ} (hs : Inv peerEventHandler s) (r : ρ)
    (model : Option String) (size ret : Int) :
    Inv peerEventHandler (loadModel s r model size ret).1 := by
  rcases loadModel_cases s r model size ret
    with ⟨code, -, hdone⟩ | ⟨m, -, hpeer, hdone⟩ | ⟨m, p, -, -, -, hdone⟩
  · rw [hdone]
    exact hs
  · rw [hdone]
    exact inv_setRemote hs rfl (hs.selected r)
  · rw [hdone]
    exact inv_load hs p m

theorem inv_prepare {s : State π η ρ} (hs : Inv peerEventHandler s) (r : ρ)
    (info : π → Option Info) (load ret : Int) :
    Inv peerEventHandler (prepare s r info load ret).state := by
  rcases prepare_cases s r info load ret with ⟨-, code, hdone⟩ | ⟨p, -, hdone⟩ |
    ⟨p, hmem, -, -, hdone⟩ | ⟨p, hmem, -, -, hdone⟩
  · rw [hdone]
    exact hs
  · rw [hdone]
    exact hs
  · rw [hdone]
    exact inv_setRemote (inv_load hs p _) rfl fun q hq => Option.some.inj hq ▸ hmem
  · rw [hdone]
    exact inv_setRemote hs rfl fun q hq => Option.some.inj hq ▸ hmem

omit [DecidableEq π] [DecidableEq η] in
/-- The members and their handlers are not what is remembered of the models. -/
theorem remember_members (s : State π η ρ) (r : ρ) (model : Option String) (ret : Int) :
    (s.remember r model ret).remote = s.remote ∧ (s.remember r model ret).handlers = s.handlers ∧
      (s.remember r model ret).loaded = s.loaded := by
  unfold State.remember
  split_ifs <;> exact ⟨rfl, rfl, rfl⟩

omit [DecidableEq π] [DecidableEq η] in
theorem forget_members (s : State π η ρ) (r : ρ) :
    (s.forget r).remote = s.remote ∧ (s.forget r).handlers = s.handlers ∧
      (s.forget r).loaded = s.loaded ∧ (s.forget r).requested = s.requested := by
  unfold State.forget
  split_ifs <;> exact ⟨rfl, rfl, rfl, rfl⟩

theorem inv_of_eq {s s' : State π η ρ} (hs : Inv peerEventHandler s) (hremote : s'.remote = s.remote)
    (hhandlers : s'.handlers = s.handlers) : Inv peerEventHandler s' :=
  ⟨hremote ▸ hs.selected, hremote ▸ hs.nodup, hremote ▸ hhandlers ▸ hs.registered⟩

theorem inv_call {s : State π η ρ} (hs : Inv peerEventHandler s) {r : ρ} {c : Call π}
    {done : Outcome (State π η ρ) π} (h : call peerEventHandler s r c = some done) :
    Inv peerEventHandler done.state := by
  cases c with
  | addPeer p allocated activate =>
      cases h
      exact inv_addPeer hs r p allocated activate
  | removePeer p deactivate =>
      cases h
      have hsame := forget_members (removePeer peerEventHandler s r p deactivate).1 r
      exact inv_of_eq (inv_removePeer hs r p deactivate) hsame.1 hsame.2.1
  | loadModel model size ret =>
      cases h
      have hsame := remember_members (loadModel s r model size ret).1 r model
        (loadModel s r model size ret).2
      exact inv_of_eq (inv_loadModel hs r model size ret) hsame.1 hsame.2.1
  | prepare info load ret =>
      cases h
      exact inv_prepare hs r info load ret

/-- Handlers of the application leave the registrations of remotes alone. -/
theorem inv_setHandlers {s : State π η ρ} (hs : Inv peerEventHandler s) (p : π)
    {handlers : List (Registration η ρ)}
    (hcount : ∀ r, handlers.count (registration peerEventHandler r) =
      (s.handlers p).count (registration peerEventHandler r)) :
    Inv peerEventHandler (s.setHandlers p handlers) := by
  refine hs.congr hs.selected (fun _ => rfl) fun r q => ?_
  by_cases hq : q = p
  · subst hq
    simpa [State.setHandlers] using hcount r
  · simp [State.setHandlers, Function.update_of_ne hq]

theorem inv_step {s s' : State π η ρ} {a : Act π η ρ} (hs : Inv peerEventHandler s)
    (h : step peerEventHandler s a = some s') : Inv peerEventHandler s' := by
  cases a with
  | call r c =>
      rcases Option.map_eq_some_iff.1 h with ⟨done, hdone, rfl⟩
      exact inv_call hs hdone
  | addHandler p foreign allocated =>
      simp only [step] at h
      split_ifs at h with hhandler
      cases h
      have hne : ∀ r, foreign ≠ registration peerEventHandler r :=
        fun r heq => hhandler (by rw [heq]; rfl)
      refine inv_setHandlers hs p fun r => ?_
      rcases addHandler_list (s.handlers p) foreign allocated with heq | heq
      · rw [heq]
      · simp [heq, hne r]
  | removeHandler p foreign =>
      simp only [step] at h
      split_ifs at h with hhandler
      cases h
      have hne : ∀ r, registration peerEventHandler r ≠ foreign :=
        fun r heq => hhandler (by rw [← heq]; rfl)
      refine inv_setHandlers hs p fun r => ?_
      rw [removeHandler_list, List.count_erase_of_ne (hne r)]

/-- In every reachable state the three records of membership agree, and an `AddPeer` that fails leaves
everything as it was. -/
theorem membership_consistent (peerEventHandler : η) (as : List (Act π η ρ)) (s : State π η ρ)
    (hexec : Run.exec (step peerEventHandler) .initial as = some s) :
    Consistent peerEventHandler s ∧
      ∀ r p allocated activate, (addPeer peerEventHandler s r p allocated activate).2 < 0 →
        (addPeer peerEventHandler s r p allocated activate).1 = s := by
  refine ⟨(Run.exec_preserved (fun _ _ _ => inv_step) inv_initial hexec).consistent, ?_⟩
  intro r p allocated activate hret
  rcases addPeer_cases peerEventHandler s r p allocated activate
    with ⟨code, -, hdone⟩ | ⟨-, hactivate, hdone⟩
  · rw [hdone]
  · rw [hdone] at hret
    exact absurd hret (by simpa using hactivate)

/-! ## Models -/

/-- For one remote `r` with its peers: the selected peer has the model asked for, or one that it has
answered since; the name is kept until a peer is selected, and no other member has loaded anything. -/
structure Ready (peerEventHandler : η) (r : ρ) (s : State π η ρ) : Prop where
  members : Inv peerEventHandler s
  selected : ∀ p, (s.remote r).peer = some p →
    (s.remote r).modelFile = "" ∧
      ∀ m, (s.unasked r).or (s.requested r) = some m → s.loaded p = some m
  alone : (s.remote r).peer = none → s.unasked r = none
  pending : (s.remote r).peer = none → (s.remote r).modelFile ≠ "" →
    s.requested r = some (s.remote r).modelFile
  fresh : ∀ p ∈ (s.remote r).peerVector, (s.remote r).peer ≠ some p → s.loaded p = none

theorem ready_initial (r : ρ) : Ready peerEventHandler r (.initial : State π η ρ) where
  members := inv_initial
  selected p hp := by simp [State.initial] at hp
  alone _ := rfl
  pending _ hfile := absurd rfl hfile
  fresh p hp := by simp [State.initial] at hp

theorem ready_addPeer {s : State π η ρ} {r : ρ} (hs : Ready peerEventHandler r s) (p : π)
    (allocated : Bool) (activate : Int) :
    Ready peerEventHandler r (addPeer peerEventHandler s r p allocated activate).1 := by
  have hmembers := inv_addPeer hs.members r p allocated activate
  rcases addPeer_cases peerEventHandler s r p allocated activate
    with ⟨code, -, hdone⟩ | ⟨hnew, -, hdone⟩
  · rw [hdone]
    exact hs
  rw [hdone] at hmembers ⊢
  have hmem : p ∉ (s.remote r).peerVector := fun h => hnew ((hs.members.mem_iff r p).1 h)
  refine ⟨hmembers, fun q hq => ?_, fun hpeer => ?_, fun hpeer hfile => ?_, fun q hq hpeer => ?_⟩
  · simp only [Function.update_self] at hq ⊢
    have hne : q ≠ p := fun heq => hmem (heq ▸ hs.members.selected r q hq)
    simpa [Function.update_of_ne hne] using hs.selected q hq
  · simp only [Function.update_self] at hpeer
    exact hs.alone hpeer
  · simp only [Function.update_self] at hpeer hfile ⊢
    exact hs.pending hpeer hfile
  · simp only [Function.update_self] at hq hpeer
    by_cases hqp : q = p
    · subst hqp
      simp
    · have hq' : q ∈ (s.remote r).peerVector := by simpa [hqp] using hq
      simpa [Function.update_of_ne hqp] using hs.fresh q hq' hpeer

theorem ready_removePeer {s : State π η ρ} {r : ρ} (hs : Ready peerEventHandler r s) (p : π)
    (deactivate : Int) {done : Outcome (State π η ρ) π}
    (h : call peerEventHandler s r (.removePeer p deactivate) = some done) :
    Ready peerEventHandler r done.state := by
  have hmembers := inv_call hs.members h
  cases h
  rcases removePeer_cases peerEventHandler s r p deactivate
    with hdone | ⟨-, activated, ret, hdone⟩
  · simp only [hdone, State.forget] at hmembers ⊢
    split_ifs with hpeer
    · -- There was nothing to forget.
      refine ⟨by simpa [hpeer] using hmembers, fun q hq => ?_, fun _ => by simp, hs.pending, hs.fresh⟩
      cases hpeer.symm.trans hq
    · exact hs
  · simp only [hdone] at hmembers ⊢
    generalize ht : ({ s with
        remote := Function.update s.remote r { s.remote r with
          peer := if (s.remote r).peer = some p then none else (s.remote r).peer
          peerVector := (s.remote r).peerVector.erase p }
        handlers := Function.update s.handlers p
          ((s.handlers p).erase (registration peerEventHandler r))
        activated := activated } : State π η ρ) = t at hmembers ⊢
    have hremote : t.remote r = { s.remote r with
        peer := if (s.remote r).peer = some p then none else (s.remote r).peer
        peerVector := (s.remote r).peerVector.erase p } := by simp [← ht]
    have hloaded : t.loaded = s.loaded := by rw [← ht]
    have hrequested : t.requested = s.requested := by rw [← ht]
    have hunasked : t.unasked = s.unasked := by rw [← ht]
    have hsame := forget_members t r
    refine ⟨hmembers, fun q hq => ?_, fun hnone => ?_, fun hpeer hfile => ?_, fun q hq hpeer => ?_⟩
    · rw [hsame.1, hremote] at hq
      have hkept : (s.remote r).peer = some q := by
        dsimp only at hq
        split_ifs at hq
        exact hq
      have hforget : t.forget r = t := by
        unfold State.forget
        rw [hremote]
        dsimp only
        rw [if_neg]
        dsimp only at hq
        rw [hq]
        nofun
      rw [hforget, hremote, hunasked, hrequested, hloaded]
      exact hs.selected q hkept
    · rw [hsame.1] at hnone
      simp [State.forget, hnone]
    · rw [hsame.1, hremote] at hpeer hfile
      rw [hsame.1, hsame.2.2.2, hremote, hrequested]
      dsimp only at hpeer hfile ⊢
      split_ifs at hpeer with hselected
      · -- The selected peer has gone, and no name was kept beside it.
        exact absurd (hs.selected p hselected).1 hfile
      · exact hs.pending hpeer hfile
    · rw [hsame.1, hremote] at hq hpeer
      rw [hsame.2.2.1, hloaded]
      have hne : q ≠ p := ((hs.members.nodup r).mem_erase_iff.1 hq).1
      refine hs.fresh q (List.mem_of_mem_erase hq) fun hselected => hpeer ?_
      have hp : (s.remote r).peer ≠ some p := fun h => hne (Option.some.inj (hselected.symm.trans h))
      dsimp only
      rw [if_neg hp]
      exact hselected

theorem ready_loadModel {s : State π η ρ} {r : ρ} (hs : Ready peerEventHandler r s)
    {model : Option String} {size ret : Int} {done : Outcome (State π η ρ) π}
    (h : call peerEventHandler s r (.loadModel model size ret) = some done) :
    Ready peerEventHandler r done.state := by
  have hmembers := inv_call hs.members h
  cases h
  rcases loadModel_cases s r model size ret
    with ⟨code, hcode, hdone⟩ | ⟨m, rfl, hpeer, hdone⟩ | ⟨m, p, rfl, hpeer, hle, hdone⟩
  · simp only [hdone, State.remember, if_neg hcode.ne, if_neg (not_lt.2 hcode.le)] at hmembers ⊢
    exact hs
  · simp only [hdone, State.remember, if_true] at hmembers ⊢
    refine ⟨hmembers, fun q hq => ?_, fun _ => by simp, fun _ _ => ?_, fun q hq _ => ?_⟩
    · simp [State.setRemote, hpeer] at hq
    · simp [State.setRemote]
    · exact hs.fresh q (by simpa [State.setRemote] using hq) (by simp [hpeer])
  · -- The peer has the model, whether its answer is 0 or a positive code.
    have hloaded : ∀ q, (s.remote r).peer = some q →
        (s.remote r).modelFile = "" ∧ ∀ m', some m = some m' → (s.load p m).loaded q = some m' := by
      intro q hq
      cases Option.some.inj (hpeer.symm.trans hq)
      exact ⟨(hs.selected p hpeer).1, fun m' hm' => by simpa [State.load] using hm'⟩
    have hfresh : ∀ q ∈ (s.remote r).peerVector, (s.remote r).peer ≠ some q →
        (s.load p m).loaded q = none := by
      intro q hq hne
      have hqp : q ≠ p := fun heq => hne (heq ▸ hpeer)
      simpa [State.load, Function.update_of_ne hqp] using hs.fresh q hq hne
    rcases lt_or_eq_of_le hle with hpos | hzero
    · simp only [hdone, State.remember, if_neg hpos.ne', if_pos hpos] at hmembers ⊢
      refine ⟨hmembers, fun q hq => ?_, fun hnone => ?_, fun hnone _ => ?_, hfresh⟩
      · exact ⟨(hloaded q hq).1, fun m' hm' => (hloaded q hq).2 m' (by simpa using hm')⟩
      · cases hpeer.symm.trans hnone
      · cases hpeer.symm.trans hnone
    · subst hzero
      simp only [hdone, State.remember, if_true] at hmembers ⊢
      refine ⟨hmembers, fun q hq => ?_, fun _ => by simp, fun hnone _ => ?_, hfresh⟩
      · exact ⟨(hloaded q hq).1, fun m' hm' => (hloaded q hq).2 m' (by simpa using hm')⟩
      · cases hpeer.symm.trans hnone

theorem ready_prepare {s : State π η ρ} {r : ρ} (hs : Ready peerEventHandler r s)
    {info : π → Option Info} {load ret : Int}
    (hpending : Pending r s (.prepare info load ret)) :
    Ready peerEventHandler r (prepare s r info load ret).state := by
  have hmembers := inv_prepare hs.members r info load ret
  rcases prepare_cases s r info load ret with ⟨-, code, hdone⟩ | ⟨p, -, hdone⟩ |
    ⟨p, hmem, hpeer, hfile, hdone⟩ | ⟨p, hmem, hpeer, hfile, hdone⟩
  · rw [hdone]
    exact hs
  · rw [hdone]
    exact hs
  · rw [hdone] at hmembers ⊢
    refine ⟨hmembers, fun q hq => ?_, fun hnone => ?_, fun hnone _ => ?_, fun q hq hne => ?_⟩
    · simp only [State.setRemote, Function.update_self] at hq ⊢
      cases Option.some.inj hq
      refine ⟨trivial, fun m hm => ?_⟩
      rw [show (s.load p _).unasked r = none from hs.alone hpeer, Option.none_or] at hm
      cases Option.some.inj ((hs.pending hpeer hfile).symm.trans hm)
      simp [State.load]
    · simp [State.setRemote] at hnone
    · simp [State.setRemote] at hnone
    · simp only [State.setRemote, Function.update_self, State.load] at hq hne ⊢
      have hqp : q ≠ p := fun heq => hne (heq ▸ rfl)
      rw [Function.update_of_ne hqp]
      exact hs.fresh q hq (by simp [hpeer])
  · rw [hdone] at hmembers ⊢
    refine ⟨hmembers, fun q hq => ?_, fun hnone => ?_, fun hnone _ => ?_, fun q hq hne => ?_⟩
    · simp only [State.setRemote, Function.update_self] at hq ⊢
      cases Option.some.inj hq
      refine ⟨hfile, fun m hm => ?_⟩
      -- Without a name there was no request.
      have hrequested : s.requested r ≠ none := fun hnone => by
        rw [hs.alone hpeer, hnone] at hm
        cases hm
      exact absurd hfile ((hpending (List.ne_nil_of_mem hmem) hrequested).1 hpeer)
    · simp [State.setRemote] at hnone
    · simp [State.setRemote] at hnone
    · simp only [State.setRemote, Function.update_self] at hq hne
      exact hs.fresh q hq (by simp [hpeer])

theorem ready_step {s s' : State π η ρ} {r : ρ} {c : Call π} (hs : Ready peerEventHandler r s)
    (hpending : Pending r s c) (h : callStep peerEventHandler r s c = some s') :
    Ready peerEventHandler r s' := by
  rcases Option.map_eq_some_iff.1 h with ⟨done, hdone, rfl⟩
  cases c with
  | addPeer p allocated activate =>
      cases hdone
      exact ready_addPeer hs p allocated activate
  | removePeer p deactivate => exact ready_removePeer hs p deactivate hdone
  | loadModel model size ret => exact ready_loadModel hs hdone
  | prepare info load ret =>
      cases hdone
      exact ready_prepare hs hpending

omit [DecidableEq η] in
theorem forwarded_selected {s : State π η ρ} {r : ρ} {info : π → Option Info} {load ret : Int}
    {p : π} (h : (prepare s r info load ret).forwarded = some p) :
    ((prepare s r info load ret).state.remote r).peer = some p := by
  rcases prepare_cases s r info load ret with ⟨-, code, hdone⟩ | ⟨q, hpeer, hdone⟩ |
    ⟨q, -, -, -, hdone⟩ | ⟨q, -, -, -, hdone⟩
  · rw [hdone] at h
    cases h
  · rw [hdone] at h ⊢
    cases h
    exact hpeer
  · rw [hdone] at h ⊢
    cases h
    simp [State.setRemote]
  · rw [hdone] at h ⊢
    cases h
    simp [State.setRemote]

omit [DecidableEq η] in
/-- A peer is selected without any model to load. -/
theorem prepare_without_model {s : State π η ρ} {r : ρ} (info : π → Option Info) (load ret : Int)
    (hpeer : (s.remote r).peer = none) (hvector : (s.remote r).peerVector ≠ [])
    (hfile : (s.remote r).modelFile = "") :
    ∃ p ∈ (s.remote r).peerVector, prepare s r info load ret =
      ⟨s.setRemote r { s.remote r with peer := some p }, ret, some p⟩ := by
  rcases prepare_cases s r info load ret with ⟨hvector' | hfile', -⟩ | ⟨q, hpeer', -⟩ |
    ⟨q, -, -, hfile', -⟩ | ⟨q, hmem, -, -, hdone⟩
  · exact absurd hvector' hvector
  · exact absurd hfile hfile'
  · cases hpeer.symm.trans hpeer'
  · exact absurd hfile hfile'
  · exact ⟨q, hmem, hdone⟩

omit [DecidableEq η] in
/-- `Prepare` leaves alone what is remembered of the models. -/
theorem prepare_remembers (s : State π η ρ) (r : ρ) (info : π → Option Info) (load ret : Int) :
    (prepare s r info load ret).state.requested = s.requested ∧
      (prepare s r info load ret).state.unasked = s.unasked := by
  rcases prepare_cases s r info load ret with ⟨-, code, hdone⟩ | ⟨q, -, hdone⟩ |
    ⟨q, -, -, -, hdone⟩ | ⟨q, -, -, -, hdone⟩ <;>
  · rw [hdone]
    exact ⟨rfl, rfl⟩

/-- A `Prepare` that goes right finds what it relies on. -/
theorem pending_of_prepared {s : State π η ρ} {r : ρ} {info : π → Option Info} {load ret : Int}
    (hs : Ready peerEventHandler r s)
    (hprepared : Prepared peerEventHandler r s (.prepare info load ret)) :
    Pending r s (.prepare info load ret) := by
  intro hvector hrequested
  rcases Option.ne_none_iff_exists'.1 hrequested with ⟨m, hm⟩
  cases hpeer : (s.remote r).peer with
  | none =>
      refine ⟨fun _ hfile => ?_, .inl (hs.alone hpeer)⟩
      rcases prepare_without_model info load ret hpeer hvector hfile with
        ⟨p, hmem, hprepare⟩
      -- The peer that is selected has not loaded anything.
      have hnone : s.loaded p = none := hs.fresh p hmem (by simp [hpeer])
      have hloaded := hprepared _ p rfl (by rw [hprepare]) m (by rw [hprepare]; exact hm)
      rw [hprepare] at hloaded
      cases hnone.symm.trans hloaded
  | some p =>
      refine ⟨nofun, ?_⟩
      have hprepare : prepare s r info load ret = ⟨s, ret, some p⟩ := by
        rcases prepare_cases s r info load ret with ⟨hnone, -⟩ | ⟨q, hq, hdone⟩ |
          ⟨q, -, hnone, -⟩ | ⟨q, -, hnone, -⟩
        · -- The selected peer is a member, and no name is kept beside it.
          exact hnone.elim (fun h => absurd h hvector)
            fun h => absurd (hs.selected p hpeer).1 h
        · rw [hdone, Option.some.inj (hpeer.symm.trans hq)]
        · cases hpeer.symm.trans hnone
        · cases hpeer.symm.trans hnone
      have hloaded := hprepared _ p rfl (by rw [hprepare]) m (by rw [hprepare]; exact hm)
      rw [hprepare] at hloaded
      cases hunasked : s.unasked r with
      | none => exact .inl rfl
      | some m' =>
          have hlatest := (hs.selected p hpeer).2 m' (by rw [hunasked, Option.some_or])
          rw [hm, ← Option.some.inj (hlatest.symm.trans hloaded)]
          exact .inr rfl

/-- Where the remote has its peers ready, a `Prepare` goes right if and only if it finds what it relies
on. -/
theorem prepared_iff_pending {s s' : State π η ρ} {r : ρ} {c : Call π}
    (hs : Ready peerEventHandler r s) (h : callStep peerEventHandler r s c = some s') :
    Prepared peerEventHandler r s c ↔ Pending r s c := by
  cases c with
  | addPeer p allocated activate | removePeer p deactivate | loadModel model size ret =>
      refine iff_of_true (fun done' q hdone' hforwarded => ?_) trivial
      cases hdone'
      cases hforwarded
  | prepare info load ret =>
      refine ⟨pending_of_prepared hs, fun hpending done' q hdone' hforwarded m hm => ?_⟩
      cases hdone'
      have hselected := (ready_prepare hs hpending).selected q (forwarded_selected hforwarded)
      refine hselected.2 m ?_
      have hsame := prepare_remembers s r info load ret
      rw [hsame.1] at hm
      rw [hsame.1, hsame.2]
      have hvector : (s.remote r).peerVector ≠ [] := by
        rintro hnil
        simp [prepare, hnil] at hforwarded
      rcases (hpending hvector (by simp [hm])).2 with hnone | hsame
      · rw [hnone, hm, Option.none_or]
      · rw [hsame, hm, Option.some_or]

/-- Whatever the peers answer, positive codes included: every `Prepare` reaches a peer that has the last
model asked for, exactly as long as no peer has to be selected again after a model was handed over and
no peer has answered for another model with a positive code. -/
theorem prepared_iff (peerEventHandler : η) (r : ρ) (calls : List (Call π)) (s : State π η ρ)
    (hexec : Run.exec (callStep peerEventHandler r) .initial calls = some s) :
    Run.Along (callStep peerEventHandler r) (Prepared peerEventHandler r) .initial calls ↔
      Run.Along (callStep peerEventHandler r) (Pending r) .initial calls :=
  Run.along_iff_of_invariant (fun _ _ _ => ready_step) (fun _ _ _ => prepared_iff_pending)
    (ready_initial r) hexec

end Invariant

/-! ## Fixed runs -/

/-- The peer that has the model is removed, and the next `Prepare` selects one that has none. -/
theorem reselected_without_model :
    ¬ Run.Along (callStep (0 : Nat) (0 : Nat)) (Prepared 0 0) (.initial : State Nat Nat Nat)
      [.addPeer 1 true 0, .addPeer 2 true 0, .loadModel (some "m.tflite") 1 0,
        .prepare (fun p => some ⟨10 * p, 5⟩) 0 0, .removePeer 2 0,
        .prepare (fun p => some ⟨10 * p, 5⟩) 0 0] := by
  intro h
  have hlast := ((((h.2 _ rfl).2 _ rfl).2 _ rfl).2 _ rfl).2 _ rfl
  cases hlast.1 _ 1 rfl rfl "m.tflite" rfl

/-- Two remotes offer the same peers, and `Activate` and `Deactivate` fail. -/
def sharedPeers : List (Act Nat Nat Nat) :=
  [.call 7 (.addPeer 1 true 0), .call 8 (.addPeer 1 true (-114)), .call 7 (.addPeer 1 true 0),
    .addHandler 1 ⟨3, 1, 8⟩ true, .call 7 (.removePeer 1 (-5)), .call 8 (.addPeer 1 true 0),
    .call 8 (.addPeer 2 true 0), .call 8 (.prepare (fun p => some ⟨p, p⟩) 0 0),
    .call 8 (.removePeer 2 0), .removeHandler 1 ⟨3, 1, 8⟩]

theorem sharedPeers_consistent :
    ∃ s, Run.exec (step 0) .initial sharedPeers = some s ∧ Consistent 0 s :=
  ⟨_, rfl, (membership_consistent 0 sharedPeers _ rfl).1⟩

/-- Models are handed over while no peer is selected, and to a selected peer. -/
def reloadRun : List (Call Nat) :=
  [.addPeer 1 true 0, .addPeer 1 true 0, .addPeer 2 false 0, .addPeer 2 true 0,
    .loadModel (some "a.tflite") 1 0, .prepare (fun p => some ⟨10 * p, 5⟩) (-5) 0,
    .loadModel (some "b.tflite") 1 0, .prepare (fun p => some ⟨10 * p, 5⟩) 0 0,
    .loadModel (some "c.tflite") 1 0, .removePeer 2 0, .loadModel (some "d.tflite") 1 0,
    .prepare (fun _ => none) 0 0]

theorem reloadRun_prepared :
    ∃ s, Run.exec (callStep 0 0) .initial reloadRun = some s ∧
      Run.Along (callStep (0 : Nat) (0 : Nat)) (Prepared 0 0) .initial reloadRun :=
  ⟨_, rfl, (prepared_iff 0 0 reloadRun _ rfl).2 (by decide)⟩

end Peers
end Inference
end Beyond
