import Beyond.Base.AsyncCall
import Beyond.EventLoop.Components
import Beyond.Inference.Events

/-!
# Answers on their way to the application

Both kinds of inference get the events of somebody else: a local one those of its runtime, a remote
one those of its peers.  `RuntimeEventHandler` and `PeerEventHandler` are the same code, and so is all
that lies between such a backend and the handler of the application.  This module puts any backend at
the one end and follows the events that answer invocations to the other.
-/

namespace Beyond
namespace Inference
namespace Relay

open EventLoop EventObject Events
open EventObject.Components (EventValue)

/-- A runtime or a peer, as far as it publishes events. -/
structure Backend (σ α δ : Type*) where
  step : σ → α → Option σ
  /-- What it has published, in order. -/
  published : σ → List (BitVec 32 × δ)

structure State (π σ η δ : Type*) where
  backend : π → σ
  events : Events.State π η δ

inductive Act (π α η δ : Type*)
  /-- A step of the backend; the record for the event that it may publish is allocated at `addr`. -/
  | backend (p : π) (a : α) (addr : Nat)
  /-- The handler of the inference has no memory for its copy of an event. -/
  | exhausted (p : π)
  /-- A step of the event objects. -/
  | event (a : Events.Act π η δ)

variable {π σ α η δ : Type*} [DecidableEq π] [DecidableEq η] [DecidableEq δ]

/-! ## Steps -/

def State.setBackend (s : State π σ η δ) (p : π) (t : σ) : State π σ η δ :=
  { s with backend := Function.update s.backend p t }

def backend (b : Backend σ α δ) (s : State π σ η δ) (p : π) (a : α) (addr : Nat) :
    Option (State π σ η δ) :=
  match b.step (s.backend p) a with
  | none => none
  | some t =>
      match (b.published t).drop (b.published (s.backend p)).length with
      | [] => some (s.setBackend p t)
      | (type, data) :: _ =>
          (Events.publish s.events p type data addr).map fun events =>
            { s.setBackend p t with events := events }

/-- Without the copy the handler returns `CANCEL`, and is not invoked again. -/
def exhausted (setup : Setup η δ) (s : State π σ η δ) (p : π) : Option (State π σ η δ) :=
  match (s.events.object (.peer p)).fetching with
  | none => none
  | some f =>
      match f.todo, s.events.heap f.event with
      | r :: rest, some e =>
          if r.matches e.type ∧ r = setup.relay ∧ e.type &&& r.type &&& ERROR ≠ ERROR then
            some { s with events := s.events.advance (.peer p) f r rest .cancel }
          else none
      | _, _ => none

/-- The backends publish, and nobody else. -/
def event (setup : Setup η δ) (s : State π σ η δ) (a : Events.Act π η δ) : Option (State π σ η δ) :=
  match a with
  | .publish _ _ _ _ => none
  | _ => (Events.step setup s.events a).map fun events => { s with events := events }

def step (b : Backend σ α δ) (setup : Setup η δ) (s : State π σ η δ) :
    Act π α η δ → Option (State π σ η δ)
  | .backend p a addr => backend b s p a addr
  | .exhausted p => exhausted setup s p
  | .event a => event setup s a

/-- The backends are at their start, and nothing is published. -/
def State.start (t : σ) (handlers : Site π → List (Registration η δ)) : State π σ η δ :=
  ⟨fun _ => t, .start handlers⟩

/-! ## Answers -/

def code : EventType → BitVec 32
  | .inferenceSuccess => EventValue.inferenceSuccess.code
  | .inferenceError => EventValue.inferenceError.code

/-- Whether an event of this type is of an invocation that has ended with success. -/
def ok (type : EventType) : Bool := decide (type = .inferenceSuccess)

/-- The type of the event that ends an invocation. -/
def answerType (ok : Bool) : BitVec 32 := code (if ok then .inferenceSuccess else .inferenceError)

/-- The event ends an invocation; `select` may have added the `READ` bit. -/
def isAnswer (e : BitVec 32 × δ) : Bool :=
  decide (e.1 ||| READ = answerType true ||| READ ∨ e.1 ||| READ = answerType false ||| READ)

/-- The event for a call that has ended. -/
def answer {κ : Type*} (context : κ → δ) (call : κ × Bool) : BitVec 32 × δ :=
  (answerType call.2, context call.1)

namespace State

variable (s : State π σ η δ)

/-- The answers of the backend that the application was told of. -/
def told (p : π) : List (BitVec 32 × δ) := (s.events.delivered p).filter isAnswer

/-- The backend as a service of the application. -/
def service {κ : Type*} (calls : σ → AsyncCall.State κ) (p : π) : AsyncCall.State κ :=
  { calls (s.backend p) with told := (s.told p).length }

end State

/-! ## The property -/

/-- In every state of `I` the backend is a service, and what it publishes are the answers of the
first calls that have ended. -/
structure Serves {κ : Type*} (b : Backend σ α δ) (G : σ → α → Prop) (I : σ → Prop)
    (calls : σ → AsyncCall.State κ) (context : κ → δ) : Prop where
  kept : Run.Preserved b.step G I
  simulated : ∀ s a s' told, I s → G s a → b.step s a = some s' →
    ∃ bs, Run.exec AsyncCall.step { calls s with told := told } bs =
      some { calls s' with told := told }
  answers : ∀ s, I s → ∃ n ≤ (calls s).outcomes.length,
    (b.published s).filter isAnswer = ((calls s).completed.take n).map (answer context)
  published : ∀ s a s', I s → G s a → b.step s a = some s' → b.published s' = b.published s ∨
    ∃ e, b.published s' = b.published s ++ [e] ∧ e.1 &&& ERROR = 0

/-- What the application is told of the calls is how they have ended. -/
structure Relayed {κ : Type*} (b : Backend σ α δ) (calls : σ → AsyncCall.State κ) (context : κ → δ)
    (s : State π σ η δ) (p : π) : Prop where
  /-- The application has gone through a run of the service. -/
  run : ∃ bs, Run.exec AsyncCall.step .start bs = some (s.service calls p)
  served : AsyncCall.Served (s.service calls p)
  told : s.told p =
    (s.service calls p).toldCalls.map fun call => stamp (answer context call)
  /-- When nothing is on its way, the application knows of every answer. -/
  complete : s.events.idle (.peer p) → s.events.idle .inference →
    s.told p = ((b.published (s.backend p)).filter isAnswer).map stamp

/-- The backends keep to their condition, the event objects to theirs, and there is memory for the
copies. -/
def Sound (G : σ → α → Prop) (setup : Setup η δ) (s : State π σ η δ) : Act π α η δ → Prop
  | .backend p a _ => G (s.backend p) a
  | .exhausted _ => False
  | .event a => Regular setup s.events a

instance (G : σ → α → Prop) [∀ t a, Decidable (G t a)] (setup : Setup η δ) (s : State π σ η δ) :
    (a : Act π α η δ) → Decidable (Sound G setup s a)
  | .backend p a _ => inferInstanceAs (Decidable (G (s.backend p) a))
  | .exhausted _ => inferInstanceAs (Decidable False)
  | .event a => inferInstanceAs (Decidable (Regular setup s.events a))

/-! ## Types -/

theorem answerType_ok (type : EventType) : answerType (ok type) = code type := by
  cases type with
  | inferenceSuccess => rfl
  | inferenceError => rfl

omit [DecidableEq δ] in
theorem isAnswer_code (type : EventType) (data : δ) : isAnswer (code type, data) = true := by
  cases type with
  | inferenceSuccess => simp [isAnswer, answerType]
  | inferenceError => simp [isAnswer, answerType]

theorem code_clean (type : EventType) : code type &&& ERROR = 0 := by
  cases type with
  | inferenceSuccess => decide
  | inferenceError => decide

/-! ## What the event objects leave alone -/

omit [DecidableEq π] [DecidableEq η] [DecidableEq δ] in
theorem isAnswer_stamp (e : BitVec 32 × δ) : isAnswer (stamp e) = isAnswer e := by
  simp only [isAnswer, stamp, or_read_self]

omit [DecidableEq η] [DecidableEq δ] in
theorem filter_stamp (events : List (BitVec 32 × δ)) :
    (events.map stamp).filter isAnswer = (events.filter isAnswer).map stamp := by
  rw [List.filter_map]
  congr 1
  exact List.filter_congr fun e _ => isAnswer_stamp e

omit [DecidableEq η] [DecidableEq δ] in
/-- Publishing invokes nobody. -/
theorem publish_frame {s s' : Events.State π η δ} {p : π} {type : BitVec 32} {data : δ} {addr : Nat}
    (h : Events.publish s p type data addr = some s') : s'.invocations = s.invocations ∧
      s'.published = Function.update s.published p (s.published p ++ [(type, data)]) := by
  unfold Events.publish at h
  split at h
  · cases h
  · cases h
    exact ⟨rfl, rfl⟩

/-- All other steps publish nothing for a backend, and invoke the handler of the application at most
once more. -/
theorem event_frame {setup : Setup η δ} {s s' : State π σ η δ} {a : Events.Act π η δ}
    (h : event setup s a = some s') : Events.step setup s.events a = some s'.events ∧
      s'.backend = s.backend ∧ s'.events.published = s.events.published ∧
      s.events.invocations <+: s'.events.invocations := by
  cases a with
  | publish p type data addr => cases h
  | fetch x exception =>
      rcases Option.map_eq_some_iff.1 h with ⟨events, hstep, rfl⟩
      refine ⟨hstep, rfl, ?_⟩
      simp only [Events.step, Events.fetch] at hstep
      split at hstep
      · cases hstep
      · split at hstep
        · cases hstep
        · cases hstep
          exact ⟨rfl, List.prefix_rfl⟩
      · split at hstep
        · cases hstep
        · cases hstep
          exact ⟨rfl, List.prefix_rfl⟩
  | next x ret addr =>
      rcases Option.map_eq_some_iff.1 h with ⟨events, hstep, rfl⟩
      refine ⟨hstep, rfl, ?_⟩
      simp only [Events.step, Events.next] at hstep
      split at hstep
      · cases hstep
      · split at hstep
        · split at hstep
          · cases hstep
            exact ⟨rfl, List.prefix_rfl⟩
          · split at hstep
            · cases x with
              | peer p =>
                  simp only [peerEventHandler] at hstep
                  split at hstep
                  · cases hstep
                    exact ⟨rfl, List.prefix_rfl⟩
                  · split at hstep
                    · cases hstep
                    · cases hstep
                      exact ⟨rfl, List.prefix_rfl⟩
              | inference =>
                  cases hstep
                  exact ⟨rfl, List.prefix_append _ _⟩
            · cases hstep
              exact ⟨rfl, List.prefix_rfl⟩
        · cases hstep
  | finish x =>
      rcases Option.map_eq_some_iff.1 h with ⟨events, hstep, rfl⟩
      refine ⟨hstep, rfl, ?_⟩
      simp only [Events.step, Events.finish] at hstep
      split at hstep
      · cases hstep
        exact ⟨rfl, List.prefix_rfl⟩
      · cases hstep
  | destroy addr =>
      rcases Option.map_eq_some_iff.1 h with ⟨events, hstep, rfl⟩
      refine ⟨hstep, rfl, ?_⟩
      simp only [Events.step, Events.destroy] at hstep
      split at hstep
      · cases hstep
        exact ⟨rfl, List.prefix_rfl⟩
      · cases hstep
  | add x registration =>
      rcases Option.map_eq_some_iff.1 h with ⟨events, hstep, rfl⟩
      refine ⟨hstep, rfl, ?_⟩
      simp only [Events.step, Events.addHandler, Events.State.setHandlers] at hstep
      split at hstep
      · cases hstep
        exact ⟨rfl, List.prefix_rfl⟩
      · cases hstep
  | remove x registration =>
      rcases Option.map_eq_some_iff.1 h with ⟨events, hstep, rfl⟩
      refine ⟨hstep, rfl, ?_⟩
      simp only [Events.step, Events.removeHandler, Events.State.setHandlers] at hstep
      split at hstep
      · cases hstep
        exact ⟨rfl, List.prefix_rfl⟩
      · cases hstep

omit [DecidableEq η] [DecidableEq δ] in
/-- A step of a backend is one of its own, and leaves the other ones alone. -/
theorem backend_own {b : Backend σ α δ} {s s' : State π σ η δ} {p : π} {a : α} {addr : Nat}
    (h : backend b s p a addr = some s') :
    ∃ t, b.step (s.backend p) a = some t ∧ s'.backend = Function.update s.backend p t := by
  unfold backend at h
  split at h
  · cases h
  · rename_i t hstep
    refine ⟨t, hstep, ?_⟩
    split at h
    · cases h
      rfl
    · rcases Option.map_eq_some_iff.1 h with ⟨events, -, rfl⟩
      rfl

omit [DecidableEq η] [DecidableEq δ] in
theorem told_mono {s s' : State π σ η δ} (h : s.events.invocations <+: s'.events.invocations)
    (p : π) : s.told p <+: s'.told p :=
  (((h.filter _).map _).filter _)

/-! ## The invariant -/

section Serving

variable {κ : Type*} {b : Backend σ α δ} {G : σ → α → Prop} {I : σ → Prop}
  {calls : σ → AsyncCall.State κ} {context : κ → δ} {setup : Setup η δ} {s s' : State π σ η δ}

structure Inv (b : Backend σ α δ) (I : σ → Prop) (setup : Setup η δ) (s : State π σ η δ) : Prop where
  backend : ∀ p, I (s.backend p)
  events : Events.Inv setup s.events
  published : ∀ p, s.events.published p = b.published (s.backend p)

/-- The application is told of the answers of the first calls that have ended. -/
theorem Inv.told (hserves : Serves b G I calls context) (hs : Inv b I setup s) (p : π) :
    (s.told p).length ≤ (calls (s.backend p)).outcomes.length ∧
      s.told p = (s.service calls p).toldCalls.map fun call => stamp (answer context call) := by
  have hprefix : s.events.delivered p <+: (b.published (s.backend p)).map stamp := by
    rw [← hs.published p, hs.events.account p, List.append_assoc]
    exact List.prefix_append _ _
  rcases hserves.answers _ (hs.backend p) with ⟨n, hn, hanswers⟩
  have htold : s.told p <+:
      ((calls (s.backend p)).completed.take n).map fun call => stamp (answer context call) := by
    have hfiltered := hprefix.filter isAnswer
    rw [filter_stamp, hanswers, List.map_map] at hfiltered
    exact hfiltered
  have hlength : (s.told p).length ≤ n := by
    calc (s.told p).length
        ≤ (((calls (s.backend p)).completed.take n).map fun call =>
            stamp (answer context call)).length := htold.length_le
      _ ≤ n := by simp
  refine ⟨hlength.trans hn, ?_⟩
  calc s.told p
      = (((calls (s.backend p)).completed.take n).map fun call =>
          stamp (answer context call)).take (s.told p).length := List.prefix_iff_eq_take.1 htold
    _ = (s.service calls p).toldCalls.map fun call => stamp (answer context call) := by
        rw [← List.map_take, List.take_take, Nat.min_eq_left hlength]
        rfl

omit [DecidableEq η] [DecidableEq δ] in
/-- What a step of a backend does to it, and to the event objects. -/
theorem backend_cases (hserves : Serves b G I calls context) {p : π} {a : α} {addr : Nat}
    (hI : I (s.backend p)) (hG : G (s.backend p) a) (h : backend b s p a addr = some s') :
    ∃ t, b.step (s.backend p) a = some t ∧ s'.backend = Function.update s.backend p t ∧
      ((b.published t = b.published (s.backend p) ∧ s'.events = s.events) ∨
        ∃ type data, b.published t = b.published (s.backend p) ++ [(type, data)] ∧
          type &&& ERROR = 0 ∧ Events.publish s.events p type data addr = some s'.events) := by
  unfold backend at h
  split at h
  · cases h
  · rename_i t hstep
    refine ⟨t, hstep, ?_⟩
    rcases hserves.published _ a t hI hG hstep with hsame | ⟨⟨type, data⟩, hnew, hclean⟩
    · rw [hsame, List.drop_length] at h
      cases h
      exact ⟨rfl, .inl ⟨hsame, rfl⟩⟩
    · rw [hnew, List.drop_left] at h
      rcases Option.map_eq_some_iff.1 h with ⟨events, hpublish, rfl⟩
      exact ⟨rfl, .inr ⟨type, data, hnew, hclean, hpublish⟩⟩

theorem inv_backend (hserves : Serves b G I calls context) {p : π} {a : α} {addr : Nat}
    (hs : Inv b I setup s) (hG : G (s.backend p) a) (h : backend b s p a addr = some s') :
    Inv b I setup s' := by
  rcases backend_cases hserves (hs.backend p) hG h with ⟨t, hstep, hbackend, hevents⟩
  have hkept : ∀ q, I (s'.backend q) := by
    intro q
    rw [hbackend]
    by_cases hq : q = p
    · subst hq
      simpa using hserves.kept (hs.backend q) hG hstep
    · simpa [hq] using hs.backend q
  rcases hevents with ⟨hsame, hevents⟩ | ⟨type, data, hnew, hclean, hpublish⟩
  · refine ⟨hkept, hevents ▸ hs.events, fun q => ?_⟩
    rw [hevents, hbackend, hs.published q]
    by_cases hq : q = p
    · subst hq
      simpa using hsame.symm
    · simp [hq]
  · refine ⟨hkept, inv_publish hs.events hclean hpublish, fun q => ?_⟩
    rw [(publish_frame hpublish).2, hbackend]
    by_cases hq : q = p
    · subst hq
      simp [hs.published q, hnew]
    · simp [hq, hs.published q]

theorem inv_step (hserves : Serves b G I calls context)
    (htracked : setup.tracked.type &&& READ ≠ 0) {a : Act π α η δ} (hs : Inv b I setup s)
    (hsound : Sound G setup s a) (h : step b setup s a = some s') : Inv b I setup s' := by
  cases a with
  | backend p a addr => exact inv_backend hserves hs hsound h
  | exhausted p => exact hsound.elim
  | event a =>
      rcases event_frame h with ⟨hstep, hbackend, hpublished, -⟩
      refine ⟨fun p => ?_, Events.inv_step htracked hs.events hsound hstep, fun p => ?_⟩
      · rw [hbackend]
        exact hs.backend p
      · rw [hbackend, hpublished]
        exact hs.published p

/-! ## The service -/

/-- Of what the backends do, a step of one is a step of its service. -/
theorem service_backend (hserves : Serves b G I calls context) {p q : π} {a : α} {addr : Nat}
    (hs : Inv b I setup s) (hG : G (s.backend q) a) (h : backend b s q a addr = some s') :
    ∃ bs, Run.exec AsyncCall.step (s.service calls p) bs = some (s'.service calls p) := by
  rcases backend_cases hserves (hs.backend q) hG h with ⟨t, hstep, hbackend, hevents⟩
  have htold : s'.told p = s.told p := by
    have hinvocations : s'.events.invocations = s.events.invocations := by
      rcases hevents with ⟨-, hevents⟩ | ⟨type, data, -, -, hpublish⟩
      · rw [hevents]
      · exact (publish_frame hpublish).1
    simp only [State.told, Events.State.delivered, hinvocations]
  by_cases hq : p = q
  · subst hq
    rcases hserves.simulated _ a t (s.told p).length (hs.backend p) hG hstep with ⟨bs, hbs⟩
    refine ⟨bs, hbs.trans ?_⟩
    simp [State.service, htold, hbackend]
  · refine ⟨[], ?_⟩
    simp [State.service, htold, hbackend, hq]

/-- What the event objects do is that the application is told of some answers. -/
theorem service_event (hserves : Serves b G I calls context)
    (htracked : setup.tracked.type &&& READ ≠ 0) {p : π} {a : Events.Act π η δ}
    (hs : Inv b I setup s) (hregular : Regular setup s.events a)
    (h : event setup s a = some s') :
    ∃ bs, Run.exec AsyncCall.step (s.service calls p) bs = some (s'.service calls p) := by
  have hs' : Inv b I setup s' := inv_step hserves htracked (a := .event a) hs hregular h
  rcases event_frame h with ⟨-, hbackend, -, hinvocations⟩
  have hle := (told_mono hinvocations p).length_le
  have hbound := (hs'.told hserves p).1
  have hsum : (s.told p).length + ((s'.told p).length - (s.told p).length) = (s'.told p).length :=
    Nat.add_sub_cancel' hle
  refine ⟨List.replicate ((s'.told p).length - (s.told p).length) .tell, ?_⟩
  rw [AsyncCall.exec_tells]
  · simp [State.service, hsum, hbackend]
  · show (s.told p).length + _ ≤ (calls (s.backend p)).outcomes.length
    rw [hsum, ← hbackend]
    exact hbound

theorem service_step (hserves : Serves b G I calls context)
    (htracked : setup.tracked.type &&& READ ≠ 0) (p : π) {a : Act π α η δ} (hs : Inv b I setup s)
    (hsound : Sound G setup s a) (h : step b setup s a = some s') :
    ∃ bs, Run.exec AsyncCall.step (s.service calls p) bs = some (s'.service calls p) := by
  cases a with
  | backend q a addr => exact service_backend hserves hs hsound h
  | exhausted q => exact hsound.elim
  | event a => exact service_event hserves htracked hs hsound h

/-! ## Runs -/

theorem inv_start {t : σ} {handlers : Site π → List (Registration η δ)} (ht : I t)
    (hpublished : b.published t = [])
    (hregistered : ∀ x, (handlers x).count (setup.followed x) = 1) :
    Inv b I setup (State.start t handlers) :=
  ⟨fun _ => ht, Events.inv_start hregistered, fun _ => hpublished.symm⟩

/-- A backend that serves is a service to the application, however the backends, the fetches and the
changes of the handlers are interleaved. -/
theorem relayed_run (hserves : Serves b G I calls context)
    (htracked : setup.tracked.type &&& READ ≠ 0) {t : σ}
    {handlers : Site π → List (Registration η δ)} (ht : I t) (hpublished : b.published t = [])
    (hcalls : calls t = .start) (hregistered : ∀ x, (handlers x).count (setup.followed x) = 1)
    {as : List (Act π α η δ)}
    (hsound : Run.Along (step b setup) (Sound G setup) (State.start t handlers) as)
    (hexec : Run.exec (step b setup) (State.start t handlers) as = some s) (p : π) :
    Relayed b calls context s p := by
  have hstart : Inv b I setup (State.start t handlers) := inv_start ht hpublished hregistered
  have hfirst : (State.start t handlers).service calls p = .start := by
    simp [State.service, State.told, State.start, Events.State.delivered, Events.State.start, hcalls,
      AsyncCall.State.start]
  -- A state of the system is followed by the state of the service that it stands for.
  have hfollowed : ∀ s u a s', Inv b I setup s ∧ u = s.service calls p → Sound G setup s a →
      step b setup s a = some s' → ∃ bs u', Run.exec AsyncCall.step u bs = some u' ∧
        Inv b I setup s' ∧ u' = s'.service calls p := by
    rintro s u a s' ⟨hs, rfl⟩ hG h
    rcases service_step hserves htracked p hs hG h with ⟨bs, hbs⟩
    exact ⟨bs, _, hbs, inv_step hserves htracked hs hG h, rfl⟩
  have hrun := Run.exec_simulates hfollowed ⟨hstart, hfirst.symm⟩ hsound hexec
  rcases hrun with ⟨bs, u, hbs, hs, rfl⟩
  refine ⟨⟨bs, hbs⟩, AsyncCall.served hbs, (hs.told hserves p).2, fun hpeer hinference => ?_⟩
  have haccount := hs.events.account p
  rw [flow_of_idle hpeer, flow_of_idle hinference, List.append_nil, List.append_nil,
    hs.published p] at haccount
  rw [State.told, ← haccount, filter_stamp]

end Serving

end Relay
end Inference
end Beyond
