import Beyond.Authenticator.Keys
import Beyond.EventLoop.StopHandler

/-!
# The asynchronous authenticator

With an event loop `Activate` runs the loop and `Deactivate` stops it; the other calls send commands,
which the thread of the loop executes.  The stop handler, set by `Create`, executes `CommandCleanup`
when the thread comes to its end.

There is one caller.  The event loop is that of `Beyond.EventLoop.StopHandler` with all of its
interleavings.  A `Send` that fails leaves everything as it was and is no step here.
-/

namespace Beyond
namespace Authenticator
namespace Cycles

open Errno
open Keys EventLoop
open Operations (KeyId CryptoInput)

/-! ## State -/

/-- The event loop of an authenticator, whose handlers and callback data need no name. -/
abbrev Loop := StopHandler.State Unit Unit Unit

/-- The loop was created with a thread of its own. -/
def loopStep : Loop → StopHandler.Act Unit Unit Unit → Option Loop := StopHandler.step 0 true

/-- What was sent to the thread of the loop. -/
inductive Command (κ χ : Type*)
  /-- `GENERATE`. -/
  | generate (e : GenerateEnv κ χ)
  /-- `CRYPTO`. -/
  | crypto (input : CryptoInput)
  /-- `GETKEY`, `GENERATE_SIGN` or `VERIFY_SIGN`; the calls that send them are numbered. -/
  | request (number : Nat) (request : Request κ χ)

/-- What the thread of the loop sends back. -/
structure Reply where
  number : Nat
  answer : Except Int Output

inductive Caller (κ χ : Type*)
  | idle
  /-- Inside `Run`. -/
  | activating
  /-- Inside `Stop`; before it the authenticator stood for a synchronous one. -/
  | deactivating (before : Sync κ χ)
  /-- Inside `Recv`. -/
  | waiting (number : Nat) (request : Request κ χ)

/-- A `Deactivate` that has returned 0. -/
structure Deactivation (κ χ : Type*) where
  /-- The `ThreadMain` of the loop at that time. -/
  thread : Nat
  before : Sync κ χ

/-- A call of `GetKey`, `GenerateSignature` or `VerifySignature` that has returned. -/
structure Answered (κ χ : Type*) where
  number : Nat
  request : Request κ χ
  reply : Reply

structure State (κ χ : Type*) where
  loop : Loop
  caller : Caller κ χ
  activated : Bool
  ssl : SslContext κ χ
  commands : List (Command κ χ)
  replies : List Reply
  requests : Nat
  answers : List (Answered κ χ)
  deactivations : List (Deactivation κ χ)
  /-- The `ThreadMain`s that have published `DEACTIVATE_DONE`. -/
  done : List Nat

inductive Act (κ χ : Type*)
  | activate
  | prepare (e : GenerateEnv κ χ)
  /-- `Encrypt` or `Decrypt`. -/
  | crypto (input : CryptoInput)
  | request (request : Request κ χ)
  | deactivate
  /-- `Run` or `Stop` goes on; `ret` is the result of the system call that it makes. -/
  | call (ret : Int)
  | receive
  /-- The `ThreadMain` goes on. -/
  | thread (j : Nat) (ret : Int)
  /-- Inside `WaitEpoll` the command handler is invoked. -/
  | command (j : Nat)
  | take (j : Nat)
  /-- The stop handler is invoked; `published` tells whether `PublishEventData` succeeds. -/
  | cleanup (j : Nat) (published : Bool)
  | delete (j : Nat)

variable {κ χ : Type*}

/-! ## Steps -/

/-- What a call of the loop has returned, if it is not inside of it any more. -/
def returned (l : Loop) : Option Int :=
  match l.base.caller () with
  | .idle => l.base.returns.getLast?.map RunStop.Return.ret
  | _ => none

section Steps

variable (config : SslConfig)

def Command.execute (ssl : SslContext κ χ) : Command κ χ → SslContext κ χ
  | .generate e => (commandGenerate config ssl e).1
  | .crypto _ => ssl
  | .request _ _ => ssl

/-- Only requests are answered over the command socket. -/
def Command.reply (ssl : SslContext κ χ) : Command κ χ → List Reply
  | .generate _ => []
  | .crypto _ => []
  | .request number r => [⟨number, answer config ssl r⟩]

/-- The keys once the commands that were sent have been executed. -/
def State.settled (s : State κ χ) : SslContext κ χ :=
  s.commands.foldl (Command.execute config) s.ssl

/-- The synchronous authenticator that this one stands for. -/
def State.sync (s : State κ χ) : Sync κ χ := ⟨s.activated, s.settled config⟩

/-- A call has made a step inside the loop; behind its return it sets `activated`. -/
def State.resume (s : State κ χ) (l : Loop) : State κ χ :=
  match s.caller, returned l with
  | .activating, some ret => { s with loop := l, caller := .idle, activated := ret == 0 }
  | .deactivating before, some ret =>
      { s with
        loop := l
        caller := .idle
        activated := !(ret == 0)
        deactivations := s.deactivations ++
          if ret = 0 then [⟨l.base.created - 1, before⟩] else [] }
  | _, _ => { s with loop := l }

def activate (s : State κ χ) : Option (State κ χ) :=
  match s.caller with
  | .idle => (loopStep s.loop (.base (.run () 10 (-1) (-1)))).map
      { s with caller := .activating }.resume
  | _ => none

/-- `-EILSEQ` before `Activate`. -/
def prepare (s : State κ χ) (e : GenerateEnv κ χ) : Option (State κ χ) :=
  match s.caller with
  | .idle =>
      if s.activated = false then some s
      else some { s with commands := s.commands ++ [.generate e] }
  | _ => none

/-- Which key `Encrypt` and `Decrypt` refuse. -/
def forbidden (input : CryptoInput) : KeyId :=
  match input.op with
  | .encrypt => .privateKey
  | .decrypt => .publicKey

def crypto (s : State κ χ) (input : CryptoInput) : Option (State κ χ) :=
  match s.caller with
  | .idle =>
      match Operations.refusal (.start s.activated true) (forbidden input) input with
      | some _ => some s
      | none => some { s with commands := s.commands ++ [.crypto input] }
  | _ => none

/-- There is no check of `activated`. -/
def request (s : State κ χ) (r : Request κ χ) : Option (State κ χ) :=
  match s.caller with
  | .idle =>
      some { s with
        caller := .waiting s.requests r
        commands := s.commands ++ [.request s.requests r]
        requests := s.requests + 1 }
  | _ => none

/-- `Recv` blocks as long as there is no reply. -/
def receive (s : State κ χ) : Option (State κ χ) :=
  match s.caller, s.replies with
  | .waiting number r, reply :: rest =>
      some { s with
        caller := .idle
        replies := rest
        answers := s.answers ++ [⟨number, r, reply⟩] }
  | _, _ => none

def deactivate (s : State κ χ) : Option (State κ χ) :=
  match s.caller with
  | .idle =>
      if s.activated = false then some s
      else (loopStep s.loop (.base (.stop ()))).map
        { s with caller := .deactivating (s.sync config) }.resume
  | _ => none

def call (s : State κ χ) (ret : Int) : Option (State κ χ) :=
  match s.caller with
  | .activating => (loopStep s.loop (.base (.call () ret))).map s.resume
  | .deactivating _ => (loopStep s.loop (.base (.call () ret))).map s.resume
  | _ => none

def thread (s : State κ χ) (j : Nat) (ret : Int) : Option (State κ χ) :=
  -- `epoll_pwait` does not time out, as `Activate` has given no timeout.
  if s.loop.base.thread j = .polling ∧ ret = -ETIMEDOUT then none
  else (loopStep s.loop (.base (.thread j ret))).map fun l => { s with loop := l }

def command (s : State κ χ) (j : Nat) : Option (State κ χ) :=
  match s.loop.base.thread j, s.commands with
  | .polling, c :: rest =>
      some { s with
        commands := rest
        ssl := c.execute config s.ssl
        replies := s.replies ++ c.reply config s.ssl }
  | _, _ => none

/-- The stop handler: `CommandCleanup`. -/
def cleanup (s : State κ χ) (j : Nat) (published : Bool) : Option (State κ χ) :=
  (loopStep s.loop (.invoke j)).map fun l =>
    { s with
      loop := l
      ssl := s.ssl.cleanup
      done := s.done ++ if published = true then [j] else [] }

def step (s : State κ χ) : Act κ χ → Option (State κ χ)
  | .activate => activate s
  | .prepare e => prepare s e
  | .crypto input => crypto s input
  | .request r => request s r
  | .deactivate => deactivate config s
  | .call ret => call s ret
  | .receive => receive s
  | .thread j ret => thread s j ret
  | .command j => command config s j
  | .take j => (loopStep s.loop (.take j)).map fun l => { s with loop := l }
  | .cleanup j published => cleanup s j published
  | .delete j => (loopStep s.loop (.delete j)).map fun l => { s with loop := l }

end Steps

/-- As `Create(true)` leaves the authenticator; what `SetStopHandler` returns is not looked at. -/
def State.created (ssl : SslContext κ χ) (allocated : Bool) : State κ χ where
  loop := (StopHandler.setStopHandler 0 .start (some ((), ())) allocated).1
  caller := .idle
  activated := false
  ssl := ssl
  commands := []
  replies := []
  requests := 0
  answers := []
  deactivations := []
  done := []

/-! ## Specification -/

/-- The `ThreadMain` has returned. -/
def Ended (l : Loop) (j : Nat) : Prop := ∃ r, l.base.thread j = .ended r

/-- Behind each `Deactivate` that has returned 0, once the thread has ended. -/
structure Correct (config : SslConfig) (s : State κ χ) : Prop where
  /-- There is one event for it. -/
  published : ∀ d ∈ s.deactivations, Ended s.loop d.thread → s.done.count d.thread = 1
  /-- Until there is another thread the keys are released, and the authenticator stands for the one
  that a synchronous `Deactivate` leaves behind. -/
  released : ∀ d ∈ s.deactivations, Ended s.loop d.thread →
    s.loop.base.created = d.thread + 1 →
      s.ssl.keypair = none ∧ s.ssl.x509 = none ∧ s.sync config = d.before.deactivate.1

/-- A `Prepare` that is not executed yet. -/
def Command.generates : Command κ χ → Bool
  | .generate _ => true
  | _ => false

/-- `Deactivate` does not find the loop stopped; a loop that was asked to stop does not leave before
its loop, comes to its end with the stop handler set and without a `Prepare` in the socket, and its
event is published. -/
def Clean (s : State κ χ) : Act κ χ → Prop
  | .deactivate => s.activated = true → s.loop.base.state ≠ .stopped
  | .thread j _ => (∃ r, s.loop.base.thread j = .abort r) → s.loop.base.state ≠ .stopRequested
  | .take _ => s.loop.stopEventObject ≠ none ∧ ∀ c ∈ s.commands, c.generates = false
  | .cleanup _ published => published = true
  | _ => True

instance (pc : RunStop.ThreadPc) : Decidable (∃ r, pc = .abort r) :=
  match pc with
  | .abort r => isTrue ⟨r, rfl⟩
  | .absent | .entry | .prepare | .starting | .looping | .polling | .finishing _ | .cleanup _
  | .ended _ => isFalse (by simp)

instance Clean.decidable (s : State κ χ) : ∀ a, Decidable (Clean s a)
  | .deactivate =>
      inferInstanceAs (Decidable (s.activated = true → s.loop.base.state ≠ .stopped))
  | .thread j _ =>
      inferInstanceAs (Decidable ((∃ r, s.loop.base.thread j = .abort r) →
        s.loop.base.state ≠ .stopRequested))
  | .take _ =>
      inferInstanceAs (Decidable (s.loop.stopEventObject ≠ none ∧
        ∀ c ∈ s.commands, c.generates = false))
  | .cleanup _ published => inferInstanceAs (Decidable (published = true))
  | .activate | .prepare _ | .crypto _ | .request _ | .call _ | .receive | .command _
  | .delete _ => isTrue trivial

/-! ## The threads of the loop -/

/-- How far a `ThreadMain` has come. -/
inductive Phase
  | absent
  /-- Before its last access to the state. -/
  | live
  | ending
  /-- It has taken the stop handler. -/
  | taken
  /-- The stop handler has returned. -/
  | invoked
  | ended
  deriving DecidableEq, Repr

def phase (l : Loop) (j : Nat) : Phase :=
  match l.base.thread j with
  | .absent => .absent
  | .ended _ => .ended
  | .cleanup _ =>
      match l.thread j with
      | .idle => .ending
      | .taken _ => .taken
      | .invoked _ => .invoked
  | _ => .live

theorem phase_ended {l : Loop} {j : Nat} : phase l j = .ended ↔ Ended l j := by
  unfold phase Ended
  cases l.base.thread j with
  | cleanup r => cases l.thread j <;> simp
  | _ => simp

theorem phase_live {l : Loop} {j : Nat} :
    phase l j = .live ↔ (l.base.thread j).active = true := by
  unfold phase
  cases l.base.thread j with
  | cleanup r => cases l.thread j <;> simp [RunStop.ThreadPc.active]
  | _ => simp [RunStop.ThreadPc.active]

/-- The phase of a thread is that of its own variables. -/
theorem phase_congr {l l' : Loop} {j : Nat} (hpc : l'.base.thread j = l.base.thread j)
    (hlocal : l'.thread j = l.thread j) : phase l' j = phase l j := by
  unfold phase
  rw [hpc, hlocal]

/-- One thread goes on from phase `p` to phase `q`. -/
structure Moves (l l' : Loop) (j : Nat) (p q : Phase) : Prop where
  source : phase l j = p
  target : phase l' j = q
  others : ∀ i, i ≠ j → phase l' i = phase l i
  created : l'.base.created = l.base.created
  caller : l'.base.caller = l.base.caller
  locals : ∀ i, i ≠ j → l'.thread i = l.thread i

structure LoopInv (l : Loop) : Prop where
  fresh : ∀ j, l.base.created ≤ j → phase l j = .absent
  /-- At most one thread is live, and it is the last one. -/
  last : ∀ j, phase l j = .live → j + 1 = l.base.created ∧
    (l.base.caller ()).launches = false ∧ l.base.state ≠ .stopped
  launches : (l.base.caller ()).launches = true → l.base.state ≠ .stopped
  locals : ∀ j, l.thread j ≠ .idle → phase l j = .taken ∨ phase l j = .invoked

theorem LoopInv.local_live {l : Loop} (hl : LoopInv l) {j : Nat} (h : phase l j = .live) :
    l.thread j = .idle := by
  by_contra hne
  rcases hl.locals j hne with hp | hp <;> simp [h] at hp

section Threads

variable {l l' : Loop} {j : Nat} {ret : Int}

theorem moves_setThread {state : RunStop.LoopState} {loopCount : Int} {pc : RunStop.ThreadPc}
    {ends : List StopHandler.End} {p q : Phase} (hp : phase l j = p)
    (hq : phase { l with base := ({ l.base with state := state, loopCount := loopCount } :
      RunStop.State Unit).setThread j pc } j = q) :
    Moves l { l with
      base := ({ l.base with state := state, loopCount := loopCount } :
        RunStop.State Unit).setThread j pc
      ends := ends } j p q where
  source := hp
  target := hq
  others i hi := phase_congr (by simp [RunStop.State.setThread, Function.update_of_ne hi]) rfl
  created := rfl
  caller := rfl
  locals _ _ := rfl

/-- A live thread goes on, leaves before its loop, or leaves its loop. -/
theorem thread_cases (hl : LoopInv l) (h : loopStep l (.base (.thread j ret)) = some l') :
    l'.stopEventObject = l.stopEventObject ∧ l'.thread = l.thread ∧
    ((Moves l l' j .live .live ∧ (l'.base.state = l.base.state ∨
        l.base.state = .startRequested ∧ l'.base.state = .started)) ∨
      ((∃ r, l.base.thread j = .abort r) ∧ Moves l l' j .live .ended ∧
        l'.base.state = .stopped) ∨
      (Moves l l' j .live .ending ∧ l'.base.state = .stopped)) := by
  rcases StopHandler.baseStep_thread h with ⟨b, hb, hcleanup, hl'⟩
  have hstop : l'.stopEventObject = l.stopEventObject ∧ l'.thread = l.thread := by
    rcases hl' with ⟨r, -, rfl⟩ | ⟨-, rfl⟩ <;> exact ⟨rfl, rfl⟩
  refine ⟨hstop.1, hstop.2, ?_⟩
  rcases RunStop.threadStep_cases hb with
    ⟨hactive, habort, state, loopCount, pc, hpc, hstate, rfl⟩ | ⟨r, hpc, rfl⟩ | ⟨r, hpc, rfl⟩ | ⟨r, hpc, -⟩
  · have hlive : phase l j = .live := phase_live.2 hactive
    rcases hl' with ⟨r, hr, -⟩ | ⟨-, rfl⟩
    · exact absurd hr (habort r)
    · exact .inl ⟨moves_setThread hlive (phase_live.2 (by simpa [RunStop.State.setThread])),
        hstate⟩
  · have hlive : phase l j = .live := phase_live.2 (by rw [hpc]; rfl)
    rcases hl' with ⟨r', -, rfl⟩ | ⟨hr, -⟩
    · exact .inr (.inl ⟨⟨r, hpc⟩, moves_setThread hlive
        (phase_ended.2 ⟨r, by simp [RunStop.State.setThread]⟩), rfl⟩)
    · exact absurd hpc (hr r)
  · have hlive : phase l j = .live := phase_live.2 (by rw [hpc]; rfl)
    have hlocal := hl.local_live hlive
    rcases hl' with ⟨r', hr, -⟩ | ⟨-, rfl⟩
    · simp [hpc] at hr
    · exact .inr (.inr ⟨moves_setThread hlive
        (by simp [phase, RunStop.State.setThread, hlocal]), rfl⟩)
  · exact absurd hpc (hcleanup r)

/-- Where a handler is set, the end of a thread takes it. -/
theorem take_cases (hset : l.stopEventObject ≠ none) (h : loopStep l (.take j) = some l') :
    Moves l l' j .ending .taken ∧ l'.base.state = l.base.state := by
  simp only [loopStep, StopHandler.step, StopHandler.take] at h
  split at h
  swap
  · cases h
  rename_i r hpc hlocal
  cases hstop : l.stopEventObject with
  | none => exact absurd hstop hset
  | some n =>
      simp only [hstop, Option.some.injEq] at h
      subst h
      refine ⟨⟨by simp [phase, hpc, hlocal], by simp [phase, hpc], fun i hi => ?_, rfl, rfl,
        fun i hi => Function.update_of_ne hi _ _⟩, rfl⟩
      exact phase_congr rfl (Function.update_of_ne hi _ _)

/-- An unset handler lets the thread return at once. -/
theorem take_none (hset : l.stopEventObject = none) (h : loopStep l (.take j) = some l') :
    Moves l l' j .ending .ended ∧ l'.base.state = l.base.state ∧ l'.thread j = .idle := by
  simp only [loopStep, StopHandler.step, StopHandler.take] at h
  split at h
  swap
  · cases h
  rename_i r hpc hlocal
  simp only [hset, Option.some.injEq] at h
  subst h
  refine ⟨⟨by simp [phase, hpc, hlocal], ?_, fun i hi => ?_, rfl, rfl, fun i hi => rfl⟩, rfl,
    hlocal⟩
  · exact phase_ended.2 ⟨r, by simp [StopHandler.State.finish, RunStop.State.setThread]⟩
  · exact phase_congr
      (by simp [StopHandler.State.finish, RunStop.State.setThread, Function.update_of_ne hi]) rfl

theorem invoke_cases (hl : LoopInv l) (h : loopStep l (.invoke j) = some l') :
    Moves l l' j .taken .invoked ∧ l'.base = l.base := by
  simp only [loopStep, StopHandler.step, StopHandler.invoke] at h
  split at h
  swap
  · cases h
  rename_i n hlocal
  have hpc : ∃ r, l.base.thread j = .cleanup r := by
    have hphase := hl.locals j (by simp [hlocal])
    unfold phase at hphase
    cases hpc : l.base.thread j <;> simp [hpc] at hphase ⊢
  rcases hpc with ⟨r, hpc⟩
  cases hevent : l.event n with
  | none =>
      simp only [hevent, Option.some.injEq] at h
      subst h
      exact ⟨⟨by simp [phase, hpc, hlocal], by simp [phase, hpc],
        fun i hi => phase_congr rfl (Function.update_of_ne hi _ _), rfl, rfl,
        fun i hi => Function.update_of_ne hi _ _⟩, rfl⟩
  | some event =>
      simp only [hevent, Option.some.injEq] at h
      subst h
      exact ⟨⟨by simp [phase, hpc, hlocal], by simp [phase, hpc],
        fun i hi => phase_congr rfl (Function.update_of_ne hi _ _), rfl, rfl,
        fun i hi => Function.update_of_ne hi _ _⟩, rfl⟩

theorem delete_cases (h : loopStep l (.delete j) = some l') :
    Moves l l' j .invoked .ended ∧ l'.base.state = l.base.state ∧ l'.thread j = .idle := by
  simp only [loopStep, StopHandler.step, StopHandler.delete] at h
  split at h
  swap
  · cases h
  rename_i r n hpc hlocal
  cases h
  refine ⟨⟨by simp [phase, hpc, hlocal], ?_, fun i hi => ?_, rfl, rfl,
    fun i hi => Function.update_of_ne hi _ _⟩, rfl,
    by simp [StopHandler.State.finish, Function.update_self]⟩
  · exact phase_ended.2 ⟨r, by simp [StopHandler.State.finish, RunStop.State.setThread]⟩
  · refine phase_congr ?_ (Function.update_of_ne hi _ _)
    simp [StopHandler.State.finish, StopHandler.State.free, RunStop.State.setThread,
      Function.update_of_ne hi]

theorem LoopInv.moves {p q : Phase} (hl : LoopInv l) (h : Moves l l' j p q) (hp : p ≠ .absent)
    (hq : q = .live → p = .live)
    (hstate : l'.base.state = .stopped → l.base.state = .stopped ∨ p = .live ∧ q ≠ .live)
    (hlocal : l'.thread j ≠ .idle → q = .taken ∨ q = .invoked) : LoopInv l' := by
  refine ⟨fun i hi => ?_, fun i hi => ?_, fun hlaunches hstopped => ?_, fun i hi => ?_⟩
  · rw [h.created] at hi
    by_cases hij : i = j
    · subst hij
      exact absurd (h.source.symm.trans (hl.fresh i hi)) hp
    · rw [h.others i hij]
      exact hl.fresh i hi
  · rw [h.created, h.caller]
    have hold : phase l i = .live := by
      by_cases hij : i = j
      · subst hij
        rw [h.source]
        exact hq (h.target.symm.trans hi)
      · rw [← h.others i hij]
        exact hi
    rcases hl.last i hold with ⟨hlast, hcaller, hrunning⟩
    refine ⟨hlast, hcaller, fun hstopped => ?_⟩
    rcases hstate hstopped with hstopped | ⟨hlive, hdead⟩
    · exact hrunning hstopped
    · -- Both threads were the last one.
      have hj := (hl.last j (h.source.trans hlive)).1
      have hij : i = j := by omega
      subst hij
      exact hdead (h.target.symm.trans hi)
  · rw [h.caller] at hlaunches
    rcases hstate hstopped with hstopped | ⟨hlive, -⟩
    · exact hl.launches hlaunches hstopped
    · simp [(hl.last j (h.source.trans hlive)).2.1] at hlaunches
  · by_cases hij : i = j
    · subst hij
      rw [h.target]
      exact hlocal hi
    · rw [h.others i hij]
      exact hl.locals i (by rwa [h.locals i hij] at hi)

end Threads

/-! ## The calls of the loop -/

section Calls

variable {l l' : Loop} {ret : Int}

/-- No thread is touched. -/
structure Keeps (l l' : Loop) : Prop where
  thread : l'.base.thread = l.base.thread
  created : l'.base.created = l.base.created
  locals : l'.thread = l.thread
  stopEventObject : l'.stopEventObject = l.stopEventObject

theorem Keeps.phase (h : Keeps l l') (j : Nat) : phase l' j = phase l j :=
  phase_congr (by rw [h.thread]) (by rw [h.locals])

/-- There is a new thread. -/
structure Spawns (l l' : Loop) : Prop where
  new : phase l' l.base.created = .live
  others : ∀ j, j ≠ l.base.created → phase l' j = phase l j
  created : l'.base.created = l.base.created + 1
  locals : l'.thread = l.thread

theorem run_cases (hidle : l.base.caller () = .idle)
    (h : loopStep l (.base (.run () 10 (-1) (-1))) = some l') : Keeps l l' ∧
    ((l.base.state ≠ .stopped ∧ l'.base.state = l.base.state ∧ l'.base.caller () = .idle ∧
        returned l' = some (-EINVAL)) ∨
      (l.base.state = .stopped ∧ l'.base.state = .startRequested ∧
        l'.base.caller () = .started 10 (-1) (-1) ∧ returned l' = none)) := by
  rcases Option.bind_eq_some_iff.1 h with ⟨b, hb, hb'⟩
  cases hb'
  simp only [RunStop.step, RunStop.runCall, hidle] at hb
  by_cases hstate : l.base.state = .stopped
  · simp only [hstate, ne_eq, not_true_eq_false, if_false, Option.some.injEq] at hb
    subst hb
    exact ⟨⟨rfl, rfl, rfl, rfl⟩, .inr ⟨hstate, rfl, by simp [RunStop.State.setCaller],
      by simp [returned, RunStop.State.setCaller]⟩⟩
  · simp only [hstate, ne_eq, not_true_eq_false, not_false_eq_true, if_false, if_true,
      Option.some.injEq] at hb
    subst hb
    exact ⟨⟨rfl, rfl, rfl, rfl⟩, .inl ⟨hstate, rfl, hidle,
      by simp [returned, RunStop.State.log, hidle]⟩⟩

/-- `Stop` is refused, or wakes up a loop that is started, or returns at once. -/
theorem stop_cases (hidle : l.base.caller () = .idle)
    (h : loopStep l (.base (.stop ())) = some l') : Keeps l l' ∧
    ((l.base.state = .stopRequested ∧ l'.base.state = l.base.state ∧
        l'.base.caller () = .idle ∧ returned l' = some (-EALREADY)) ∨
      (l.base.state = .started ∧ l'.base.state = .stopRequested ∧
        l'.base.caller () = .writing .started ∧ returned l' = none) ∨
      (l'.base.state = .stopRequested ∧ l'.base.caller () = .idle ∧ returned l' = some 0)) := by
  rcases Option.bind_eq_some_iff.1 h with ⟨b, hb, hb'⟩
  cases hb'
  simp only [RunStop.step, RunStop.stopCall, hidle, ne_eq, not_true_eq_false, if_false] at hb
  split at hb
  · rename_i hrefuses
    have hstate : l.base.state = .stopRequested := by
      cases hstate : l.base.state <;> simp [hstate, RunStop.LoopState.refusesStop,
        RunStop.LoopState.flag] at hrefuses ⊢
    cases hb
    exact ⟨⟨rfl, rfl, rfl, rfl⟩, .inl ⟨hstate, rfl, hidle,
      by simp [returned, RunStop.State.log, hidle]⟩⟩
  · split at hb
    · rename_i hstate
      cases hb
      exact ⟨⟨rfl, rfl, rfl, rfl⟩, .inr (.inl ⟨hstate, rfl,
        by simp [RunStop.State.setCaller, hstate], by simp [returned, RunStop.State.setCaller]⟩)⟩
    · cases hb
      exact ⟨⟨rfl, rfl, rfl, rfl⟩, .inr (.inr ⟨rfl, hidle,
        by simp [returned, RunStop.State.log, hidle]⟩)⟩

/-- Inside of `Run`. -/
def Running (pc : RunStop.CallPc) : Prop :=
  pc.launches = true ∨ ∃ status, pc = .destroyingAttr status

/-- `Run` goes on, creates the thread, or returns; 0 it returns only behind the new thread. -/
theorem call_run_cases (hrun : Running (l.base.caller ()))
    (h : loopStep l (.base (.call () ret)) = some l') :
    l'.base.state = l.base.state ∧ l'.stopEventObject = l.stopEventObject ∧
    ((Keeps l l' ∧ (l.base.caller ()).launches = true ∧ Running (l'.base.caller ()) ∧
        l'.base.caller () ≠ .destroyingAttr 0 ∧ returned l' = none) ∨
      (Spawns l l' ∧ (l.base.caller ()).launches = true ∧ l'.base.caller () = .destroyingAttr 0 ∧
        returned l' = none) ∨
      (Keeps l l' ∧ l'.base.caller () = .idle ∧ ∃ r, returned l' = some r ∧
        (r = 0 → l.base.caller () = .destroyingAttr 0) ∧
        (ret = 0 → ∃ status, l.base.caller () = .destroyingAttr status ∧ (status = 0 → r = 0)))) := by
  rcases Option.bind_eq_some_iff.1 h with ⟨b, hb, hb'⟩
  cases hb'
  simp only [RunStop.step, RunStop.callStep] at hb
  cases hpc : l.base.caller () with
  | idle => simp [Running, hpc, RunStop.CallPc.launches] at hrun
  | inline j => simp [Running, hpc, RunStop.CallPc.launches] at hrun
  | writing before => simp [Running, hpc, RunStop.CallPc.launches] at hrun
  | started w n t =>
      simp only [hpc, Option.some.injEq] at hb
      subst hb
      exact ⟨rfl, rfl, .inl ⟨⟨rfl, rfl, rfl, rfl⟩, rfl, by
        simp [Running, RunStop.State.setCaller, RunStop.CallPc.launches,
          returned]⟩⟩
  | launching =>
      simp only [hpc, Bool.true_eq_false, if_false] at hb
      split at hb
      · rename_i hret
        cases hb
        exact ⟨rfl, rfl, .inr (.inr ⟨⟨rfl, rfl, rfl, rfl⟩, by simp [RunStop.State.setCaller],
          -ret, by simp [returned, RunStop.State.setCaller, RunStop.State.log],
          fun hzero => absurd (by omega) hret, fun hzero => absurd hzero hret⟩)⟩
      · cases hb
        exact ⟨rfl, rfl, .inl ⟨⟨rfl, rfl, rfl, rfl⟩, rfl, by
          simp [Running, RunStop.State.setCaller, RunStop.CallPc.launches,
            returned]⟩⟩
  | creating =>
      simp only [hpc] at hb
      split at hb
      · rename_i hret
        cases hb
        exact ⟨rfl, rfl, .inl ⟨⟨rfl, rfl, rfl, rfl⟩, rfl, by
          simp [Running, RunStop.State.setCaller, returned, hret]⟩⟩
      · cases hb
        refine ⟨rfl, rfl, .inr (.inl ⟨⟨?_, fun j hj => ?_, rfl, rfl⟩, rfl, ?_⟩)⟩
        · exact phase_live.2 (by simp [RunStop.State.setCaller, RunStop.State.spawn,
            RunStop.State.setThread, RunStop.ThreadPc.active])
        · exact phase_congr (by simp [RunStop.State.setCaller, RunStop.State.spawn,
            RunStop.State.setThread, Function.update_of_ne hj]) rfl
        · simp [RunStop.State.setCaller, returned]
  | destroyingAttr status =>
      simp only [hpc, Option.some.injEq] at hb
      subst hb
      refine ⟨rfl, rfl, .inr (.inr ⟨⟨rfl, rfl, rfl, rfl⟩, by simp [RunStop.State.setCaller],
        if status ≠ 0 then -status else -ret,
        by simp [returned, RunStop.State.setCaller, RunStop.State.log], fun hzero => ?_,
        fun hzero => ⟨status, rfl, fun hstatus => by simp [hstatus, hzero]⟩⟩)⟩
      split at hzero
      · omega
      · rename_i hstatus
        rw [not_not] at hstatus
        rw [hstatus]

/-- `Stop` has written, and returns. -/
theorem call_stop_cases {before : RunStop.LoopState} (hstop : l.base.caller () = .writing before)
    (h : loopStep l (.base (.call () ret)) = some l') : Keeps l l' ∧
      l'.base.state = l.base.state ∧ l'.base.caller () = .idle ∧ returned l' = some (-ret) := by
  rcases Option.bind_eq_some_iff.1 h with ⟨b, hb, hb'⟩
  cases hb'
  simp only [RunStop.step, RunStop.callStep, hstop, Option.some.injEq] at hb
  subst hb
  exact ⟨⟨rfl, rfl, rfl, rfl⟩, rfl, by simp [RunStop.State.setCaller],
    by simp [returned, RunStop.State.setCaller, RunStop.State.log]⟩

theorem LoopInv.keeps (hl : LoopInv l) (h : Keeps l l')
    (hlaunches : (l'.base.caller ()).launches = true → ∀ j, phase l j ≠ .live)
    (hstate : l'.base.state = .stopped → l.base.state = .stopped)
    (hrun : (l'.base.caller ()).launches = true → l'.base.state ≠ .stopped) : LoopInv l' := by
  refine ⟨fun j hj => ?_, fun j hj => ?_, hrun, fun j hj => ?_⟩
  · rw [h.phase]
    exact hl.fresh j (by rwa [h.created] at hj)
  · rw [h.phase] at hj
    rcases hl.last j hj with ⟨hlast, -, hstopped⟩
    refine ⟨by rw [h.created, hlast], ?_, fun hnow => hstopped (hstate hnow)⟩
    by_contra hcaller
    exact hlaunches (by simpa using hcaller) j hj
  · rw [h.phase]
    exact hl.locals j (by rwa [h.locals] at hj)

theorem LoopInv.spawns (hl : LoopInv l) (h : Spawns l l')
    (hlaunches : (l.base.caller ()).launches = true)
    (hcaller : (l'.base.caller ()).launches = false) (hstate : l'.base.state = l.base.state) :
    LoopInv l' := by
  refine ⟨fun j hj => ?_, fun j hj => ?_, fun hnow => ?_, fun j hj => ?_⟩
  · rw [h.created] at hj
    rw [h.others j (by omega)]
    exact hl.fresh j (by omega)
  · have hj' : j = l.base.created := by
      by_contra hne
      rw [h.others j hne] at hj
      have hfalse := (hl.last j hj).2.1
      rw [hlaunches] at hfalse
      cases hfalse
    refine ⟨by rw [h.created, hj'], hcaller, ?_⟩
    rw [hstate]
    exact hl.launches hlaunches
  · rw [hcaller] at hnow
    cases hnow
  · rw [h.locals] at hj
    have hj' : j ≠ l.base.created := by
      rintro rfl
      have hnew := hl.fresh _ (Nat.le_refl l.base.created)
      rcases hl.locals _ hj with hp | hp <;> simp [hnew] at hp
    rw [h.others j hj']
    exact hl.locals j hj

end Calls

/-! ## Calls and threads -/

/-- Where the call of the loop is for a call of the authenticator. -/
def Caller.At : Caller κ χ → RunStop.CallPc → Prop
  | .idle, pc => pc = .idle
  | .waiting _ _, pc => pc = .idle
  | .activating, pc => Running pc
  | .deactivating _, pc => ∃ before, pc = .writing before

structure Calls (s : State κ χ) : Prop where
  loop : LoopInv s.loop
  caller : s.caller.At (s.loop.base.caller ())
  deactivating : ∀ before, s.caller = .deactivating before →
    s.activated = true ∧ 0 < s.loop.base.created
  /-- Behind an `Activate` that has returned 0 there is a thread until the loop is stopped. -/
  live : (s.activated = true ∧ s.caller ≠ .activating) ∨
    s.loop.base.caller () = .destroyingAttr 0 →
      s.loop.base.state = .stopped ∨ ∃ j, phase s.loop j = .live

theorem calls_created (ssl : SslContext κ χ) (allocated : Bool) :
    Calls (.created ssl allocated) := by
  have hloop : LoopInv (State.created ssl allocated).loop := by
    cases allocated <;>
      exact ⟨fun _ _ => rfl, nofun, nofun, fun _ h => absurd rfl h⟩
  refine ⟨hloop, ?_, nofun, fun _ => .inl ?_⟩
  · cases allocated <;> rfl
  · cases allocated <;> rfl

section CallsStep

variable {config : SslConfig} {s s' : State κ χ}

/-- A thread goes on while the caller stays where it is. -/
theorem Calls.moves (hs : Calls s) {l' : Loop} {j : Nat} {p q : Phase}
    (h : Moves s.loop l' j p q) (hp : p ≠ .absent) (hq : q = .live → p = .live)
    (hsame : p ≠ .live → l'.base.state = s.loop.base.state)
    (hend : p = .live → q ≠ .live → l'.base.state = .stopped)
    (hgoes : q = .live → l'.base.state = s.loop.base.state ∨ l'.base.state ≠ .stopped)
    (hlocal : l'.thread j ≠ .idle → q = .taken ∨ q = .invoked)
    (hloop : s'.loop = l') (hcaller : s'.caller = s.caller) (hactivated : s'.activated = s.activated) :
    Calls s' := by
  have hl : LoopInv l' := by
    refine hs.loop.moves h hp hq (fun hstopped => ?_) hlocal
    by_cases hlive : p = .live
    · by_cases hqlive : q = .live
      · rcases hgoes hqlive with hsame' | hne
        · exact .inl (hsame' ▸ hstopped)
        · exact absurd hstopped hne
      · exact .inr ⟨hlive, hqlive⟩
    · exact .inl (hsame hlive ▸ hstopped)
  refine ⟨hloop ▸ hl, ?_, ?_, ?_⟩
  · rw [hcaller, hloop, h.caller]
    exact hs.caller
  · rw [hcaller, hactivated, hloop, h.created]
    exact hs.deactivating
  · rw [hcaller, hactivated, hloop, h.caller]
    intro hrun
    rcases hs.live hrun with hstopped | ⟨i, hi⟩
    · -- In a stopped loop no thread is live.
      have hpl : p ≠ .live := fun heq => (hs.loop.last j (h.source.trans heq)).2.2 hstopped
      exact .inl ((hsame hpl).trans hstopped)
    · by_cases hij : i = j
      · subst hij
        have hpl : p = .live := h.source.symm.trans hi
        by_cases hql : q = .live
        · exact .inr ⟨i, h.target.trans hql⟩
        · exact .inl (hend hpl hql)
      · exact .inr ⟨i, (h.others i hij).trans hi⟩

theorem calls_thread (hs : Calls s) {j : Nat} {ret : Int} (h : thread s j ret = some s') :
    Calls s' := by
  unfold thread at h
  split at h
  · cases h
  rcases Option.map_eq_some_iff.1 h with ⟨l', hl', rfl⟩
  rcases thread_cases hs.loop hl' with ⟨-, hlocals, hcases⟩
  have hidle : phase s.loop j = .live → l'.thread j = .idle := fun hlive => by
    rw [hlocals]
    exact hs.loop.local_live hlive
  rcases hcases with ⟨hmoves, hstate⟩ | ⟨-, hmoves, hstate⟩ | ⟨hmoves, hstate⟩
  · refine hs.moves hmoves (by decide) id (fun h => absurd rfl h) (fun _ h => absurd rfl h)
      (fun _ => ?_) (fun hne => absurd (hidle hmoves.source) hne) rfl rfl rfl
    rcases hstate with hstate | ⟨-, hstate⟩
    · exact .inl hstate
    · exact .inr (by simp [hstate])
  · exact hs.moves hmoves (by decide) nofun (fun h => absurd rfl h) (fun _ _ => hstate) nofun
      (fun hne => absurd (hidle hmoves.source) hne) rfl rfl rfl
  · exact hs.moves hmoves (by decide) nofun (fun h => absurd rfl h) (fun _ _ => hstate) nofun
      (fun hne => absurd (hidle hmoves.source) hne) rfl rfl rfl

/-- A call has returned, or goes on, and no thread is touched. -/
theorem Calls.keeps (hs : Calls s) (h : Keeps s.loop s'.loop) (hloop : LoopInv s'.loop)
    (hcaller : s'.caller.At (s'.loop.base.caller ()))
    (hdeactivating : ∀ before, s'.caller = .deactivating before →
      s'.activated = true ∧ 0 < s'.loop.base.created)
    (hlive : (s'.activated = true ∧ s'.caller ≠ .activating) ∨
      s'.loop.base.caller () = .destroyingAttr 0 →
        s'.loop.base.state = .stopped ∨ ((s.activated = true ∧ s.caller ≠ .activating) ∨
          s.loop.base.caller () = .destroyingAttr 0) ∧ s.loop.base.state ≠ .stopped) :
    Calls s' := by
  refine ⟨hloop, hcaller, hdeactivating, fun hrun => ?_⟩
  rcases hlive hrun with hstopped | ⟨hrun', hne⟩
  · exact .inl hstopped
  · rcases hs.live hrun' with hstopped | ⟨j, hj⟩
    · exact absurd hstopped hne
    · exact .inr ⟨j, (h.phase j).trans hj⟩

theorem calls_activate (hs : Calls s) (h : activate s = some s') : Calls s' := by
  cases hcaller : s.caller with
  | idle =>
      simp only [activate, hcaller] at h
      rcases Option.map_eq_some_iff.1 h with ⟨l', hl', rfl⟩
      have hidle : s.loop.base.caller () = .idle := by simpa [hcaller, Caller.At] using hs.caller
      rcases run_cases hidle hl' with ⟨hkeeps, ⟨hne, hstate, hpc, hret⟩ |
        ⟨hstopped, hstate, hpc, hret⟩⟩
      · have hloop : LoopInv l' := hs.loop.keeps hkeeps (by simp [hpc, RunStop.CallPc.launches])
          (by simp [hstate]) (by simp [hpc, RunStop.CallPc.launches])
        simp only [State.resume, hret]
        exact hs.keeps hkeeps hloop hpc (by simp) (by simp [hpc, EINVAL])
      · have hloop : LoopInv l' := hs.loop.keeps hkeeps
          (fun _ j hj => (hs.loop.last j hj).2.2 hstopped) (fun _ => hstopped) (by simp [hstate])
        simp only [State.resume, hret]
        exact hs.keeps hkeeps hloop (by simp [Caller.At, Running, hpc, RunStop.CallPc.launches])
          (by simp) (by simp [hpc])
  | _ => simp [activate, hcaller] at h

theorem calls_deactivate (hs : Calls s) (h : deactivate config s = some s') : Calls s' := by
  cases hcaller : s.caller with
  | idle =>
      simp only [deactivate, hcaller] at h
      split at h
      · cases h
        exact hs
      rename_i hactivated
      rw [Bool.not_eq_false] at hactivated
      rcases Option.map_eq_some_iff.1 h with ⟨l', hl', rfl⟩
      have hidle : s.loop.base.caller () = .idle := by simpa [hcaller, Caller.At] using hs.caller
      have hrun : s.activated = true ∧ s.caller ≠ .activating := ⟨hactivated, by simp [hcaller]⟩
      rcases stop_cases hidle hl' with ⟨hkeeps, ⟨-, hstate, hpc, hret⟩ |
        ⟨hstarted, hstate, hpc, hret⟩ | ⟨hstate, hpc, hret⟩⟩
      · have hloop : LoopInv l' := hs.loop.keeps hkeeps (by simp [hpc, RunStop.CallPc.launches])
          (by simp [hstate]) (by simp [hpc, RunStop.CallPc.launches])
        simp only [State.resume, hret]
        refine hs.keeps hkeeps hloop hpc (by simp) (fun _ => ?_)
        by_cases hstopped : s.loop.base.state = .stopped
        · exact .inl (hstate.trans hstopped)
        · exact .inr ⟨.inl hrun, hstopped⟩
      · have hloop : LoopInv l' := hs.loop.keeps hkeeps (by simp [hpc, RunStop.CallPc.launches])
          (by simp [hstate]) (by simp [hpc, RunStop.CallPc.launches])
        have hcreated : 0 < l'.base.created := by
          rcases hs.live (.inl hrun) with hstopped | ⟨j, hj⟩
          · simp [hstarted] at hstopped
          · have hlast := (hs.loop.last j hj).1
            rw [hkeeps.created]
            omega
        simp only [State.resume, hret]
        exact hs.keeps hkeeps hloop ⟨_, hpc⟩ (fun _ _ => ⟨hactivated, hcreated⟩)
          (fun _ => .inr ⟨.inl hrun, by simp [hstarted]⟩)
      · have hloop : LoopInv l' := hs.loop.keeps hkeeps (by simp [hpc, RunStop.CallPc.launches])
          (by simp [hstate]) (by simp [hpc, RunStop.CallPc.launches])
        simp only [State.resume, hret]
        exact hs.keeps hkeeps hloop hpc (by simp) (by simp [hpc])
  | _ => simp [deactivate, hcaller] at h

theorem calls_call (hs : Calls s) {ret : Int} (h : call s ret = some s') : Calls s' := by
  cases hcaller : s.caller with
  | activating =>
      simp only [call, hcaller] at h
      rcases Option.map_eq_some_iff.1 h with ⟨l', hl', rfl⟩
      have hrunning : Running (s.loop.base.caller ()) := by
        simpa [hcaller, Caller.At] using hs.caller
      rcases call_run_cases hrunning hl' with ⟨hstate, -, ⟨hkeeps, hlaunches, hrunning', hne, hret⟩ |
        ⟨hspawns, hlaunches, hpc, hret⟩ | ⟨hkeeps, hpc, r, hret, hzero, -⟩⟩
      · have hloop : LoopInv l' := hs.loop.keeps hkeeps
          (fun _ j hj => by simp [(hs.loop.last j hj).2.1] at hlaunches) (by simp [hstate])
          (fun _ => by rw [hstate]; exact hs.loop.launches hlaunches)
        simp only [State.resume, hcaller, hret]
        exact hs.keeps hkeeps hloop (by simpa [Caller.At] using hrunning') (by simp) (by simp [hne])
      · have hloop : LoopInv l' := hs.loop.spawns hspawns hlaunches
          (by simp [hpc, RunStop.CallPc.launches]) hstate
        simp only [State.resume, hcaller, hret]
        exact ⟨hloop, .inr ⟨0, hpc⟩, by simp, fun _ => .inr ⟨_, hspawns.new⟩⟩
      · have hloop : LoopInv l' := hs.loop.keeps hkeeps (by simp [hpc, RunStop.CallPc.launches])
          (by simp [hstate]) (by simp [hpc, RunStop.CallPc.launches])
        simp only [State.resume, hcaller, hret]
        refine hs.keeps hkeeps hloop hpc (by simp) (fun hrun => ?_)
        by_cases hstopped : s.loop.base.state = .stopped
        · exact .inl (hstate.trans hstopped)
        · have hr : r = 0 := by simpa [hpc] using hrun
          exact .inr ⟨.inr (hzero hr), hstopped⟩
  | deactivating before =>
      simp only [call, hcaller] at h
      rcases Option.map_eq_some_iff.1 h with ⟨l', hl', rfl⟩
      have hwriting : ∃ before, s.loop.base.caller () = .writing before := by
        simpa [hcaller, Caller.At] using hs.caller
      rcases hwriting with ⟨b, hb⟩
      rcases call_stop_cases hb hl' with ⟨hkeeps, hstate, hpc, hret⟩
      have hloop : LoopInv l' := hs.loop.keeps hkeeps (by simp [hpc, RunStop.CallPc.launches])
        (by simp [hstate]) (by simp [hpc, RunStop.CallPc.launches])
      simp only [State.resume, hcaller, hret]
      refine hs.keeps hkeeps hloop hpc (by simp) (fun _ => ?_)
      by_cases hstopped : s.loop.base.state = .stopped
      · exact .inl (hstate.trans hstopped)
      · exact .inr ⟨.inl ⟨(hs.deactivating before hcaller).1, by simp [hcaller]⟩, hstopped⟩
  | _ => simp [call, hcaller] at h

/-- The caller does something outside of the loop, or the command handler is invoked. -/
theorem Calls.congr (hs : Calls s) (hloop : s'.loop = s.loop) (hactivated : s'.activated = s.activated)
    (hcaller : s'.caller = s.caller ∨
      (s.loop.base.caller () = .idle ∧ (∀ before, s'.caller ≠ .deactivating before) ∧
        s'.caller.At .idle ∧ s.caller ≠ .activating)) : Calls s' := by
  refine ⟨hloop ▸ hs.loop, ?_, ?_, ?_⟩
  · rw [hloop]
    rcases hcaller with hsame | ⟨hidle, -, hat, -⟩
    · rw [hsame]
      exact hs.caller
    · rw [hidle]
      exact hat
  · rw [hactivated, hloop]
    rcases hcaller with hsame | ⟨-, hne, -⟩
    · rw [hsame]
      exact hs.deactivating
    · exact fun before heq => absurd heq (hne before)
  · rw [hloop, hactivated]
    rintro (⟨hactive, hnot⟩ | hattr)
    · refine hs.live (.inl ⟨hactive, ?_⟩)
      rcases hcaller with hsame | ⟨-, -, -, hne⟩
      · rwa [hsame] at hnot
      · exact hne
    · exact hs.live (.inr hattr)

theorem Calls.idle (hs : Calls s) (hcaller : s.caller = .idle) :
    s.loop.base.caller () = .idle := by
  have hat := hs.caller
  rw [hcaller] at hat
  exact hat

theorem calls_step (config : SslConfig) {a : Act κ χ} (hs : Calls s)
    (h : step config s a = some s') : Calls s' := by
  cases a with
  | activate => exact calls_activate hs h
  | deactivate => exact calls_deactivate hs h
  | call ret => exact calls_call hs h
  | thread j ret => exact calls_thread hs h
  | take j =>
      rcases Option.map_eq_some_iff.1 h with ⟨l', hl', rfl⟩
      by_cases hset : s.loop.stopEventObject = none
      · rcases take_none hset hl' with ⟨hmoves, hstate, hlocal⟩
        exact hs.moves hmoves (by decide) nofun (fun _ => hstate) nofun nofun
          (fun hne => absurd hlocal hne) rfl rfl rfl
      · rcases take_cases hset hl' with ⟨hmoves, hstate⟩
        exact hs.moves hmoves (by decide) nofun (fun _ => hstate) nofun nofun (fun _ => .inl rfl)
          rfl rfl rfl
  | cleanup j published =>
      rcases Option.map_eq_some_iff.1 h with ⟨l', hl', rfl⟩
      rcases invoke_cases hs.loop hl' with ⟨hmoves, hbase⟩
      exact hs.moves hmoves (by decide) nofun (fun _ => by rw [hbase]) nofun nofun
        (fun _ => .inr rfl) rfl rfl rfl
  | delete j =>
      rcases Option.map_eq_some_iff.1 h with ⟨l', hl', rfl⟩
      rcases delete_cases hl' with ⟨hmoves, hstate, hlocal⟩
      exact hs.moves hmoves (by decide) nofun (fun _ => hstate) nofun nofun
        (fun hne => absurd hlocal hne) rfl rfl rfl
  | prepare e =>
      simp only [step, prepare] at h
      repeat' split at h
      all_goals cases h
      · exact hs
      · exact hs.congr rfl rfl (.inl rfl)
  | crypto input =>
      simp only [step, crypto] at h
      repeat' split at h
      all_goals cases h
      · exact hs
      · exact hs.congr rfl rfl (.inl rfl)
  | request r =>
      simp only [step, request] at h
      split at h <;> cases h
      rename_i hcaller
      exact hs.congr rfl rfl (.inr ⟨hs.idle hcaller, nofun, rfl, by simp [hcaller]⟩)
  | receive =>
      simp only [step, receive] at h
      split at h <;> cases h
      rename_i number r reply rest hcaller hreplies
      have hidle : s.loop.base.caller () = .idle := by
        have hat := hs.caller
        rw [hcaller] at hat
        exact hat
      exact hs.congr rfl rfl (.inr ⟨hidle, nofun, rfl, by simp [hcaller]⟩)
  | command j =>
      simp only [step, command] at h
      split at h <;> cases h
      exact hs.congr rfl rfl (.inl rfl)

end CallsStep

/-! ## Commands that were sent -/

section Settled

variable {config : SslConfig}

theorem execute_of_not_generates {c : Command κ χ} (hc : c.generates = false)
    (ssl : SslContext κ χ) : c.execute config ssl = ssl := by
  cases c with
  | generate e => cases hc
  | crypto input => rfl
  | request number r => rfl

theorem foldl_of_not_generates {commands : List (Command κ χ)}
    (h : ∀ c ∈ commands, c.generates = false) (ssl : SslContext κ χ) :
    commands.foldl (Command.execute config) ssl = ssl := by
  induction commands with
  | nil => rfl
  | cons c rest ih =>
      rw [List.foldl_cons, execute_of_not_generates (h c List.mem_cons_self)]
      exact ih fun d hd => h d (List.mem_cons_of_mem _ hd)

/-- The secret key that the commands lead to depends on the present one only. -/
theorem foldl_secretKey (commands : List (Command κ χ)) {ssl ssl' : SslContext κ χ}
    (h : ssl.secretKey = ssl'.secretKey) :
    (commands.foldl (Command.execute config) ssl).secretKey =
      (commands.foldl (Command.execute config) ssl').secretKey := by
  induction commands generalizing ssl ssl' with
  | nil => exact h
  | cons c rest ih =>
      refine ih ?_
      cases c with
      | generate e => simp [Command.execute, commandGenerate_secretKey, h]
      | crypto input => exact h
      | request number r => exact h

end Settled

/-! ## Ends of cycles -/

/-- The thread has taken the stop handler. -/
def Phase.tookHandler : Phase → Bool
  | .taken => true
  | .invoked => true
  | .ended => true
  | _ => false

/-- The stop handler has returned. -/
def Phase.cleaned : Phase → Bool
  | .invoked => true
  | .ended => true
  | _ => false

/-- A `Deactivate` before which the authenticator stood for `before` stops thread `j`, or has stopped
it. -/
def State.Target (s : State κ χ) (j : Nat) (before : Sync κ χ) : Prop :=
  ⟨j, before⟩ ∈ s.deactivations ∨
    (s.caller = .deactivating before ∧ j + 1 = s.loop.base.created)

/-- What holds as long as the stopped thread is the last one. -/
structure Current (config : SslConfig) (s : State κ χ) (j : Nat) (before : Sync κ χ) : Prop where
  secretKey : (s.settled config).secretKey = before.ssl.secretKey
  inactive : ⟨j, before⟩ ∈ s.deactivations → s.activated = false
  drained : (phase s.loop j).tookHandler = true → ∀ c ∈ s.commands, c.generates = false
  released : (phase s.loop j).cleaned = true → s.ssl.keypair = none ∧ s.ssl.x509 = none

structure Ends (config : SslConfig) (s : State κ χ) : Prop where
  silent : ∀ j, (phase s.loop j).cleaned = false → s.done.count j = 0
  once : ∀ j, phase s.loop j = .invoked → s.done.count j = 1
  target : ∀ j before, s.Target j before → j < s.loop.base.created ∧ before.activated = true ∧
    (phase s.loop j = .live → s.loop.base.state = .stopRequested) ∧
    (phase s.loop j = .ended → s.done.count j = 1)
  spawned : s.loop.base.caller () = .destroyingAttr 0 → ∀ j before, s.Target j before →
    j + 1 ≠ s.loop.base.created
  current : ∀ j before, s.Target j before → j + 1 = s.loop.base.created →
    Current config s j before

theorem ends_created (config : SslConfig) (ssl : SslContext κ χ) (allocated : Bool) :
    Ends config (.created ssl allocated) := by
  have hnone : ∀ j before, ¬ (State.created ssl allocated).Target j before := by
    intro j before h
    rcases h with h | ⟨h, -⟩ <;> cases h
  exact ⟨fun _ _ => rfl, by cases allocated <;> exact nofun,
    fun j before h => absurd h (hnone j before), fun _ j before h => absurd h (hnone j before),
    fun j before h => absurd h (hnone j before)⟩

theorem Ends.correct {config : SslConfig} {s : State κ χ} (hs : Ends config s) :
    Correct config s := by
  refine ⟨fun d hd hended => ?_, fun d hd hended hlast => ?_⟩
  · exact (hs.target d.thread d.before (.inl hd)).2.2.2 (phase_ended.2 hended)
  · have hphase := phase_ended.2 hended
    have hcurrent := hs.current d.thread d.before (.inl hd) hlast.symm
    rcases hcurrent.released (by rw [hphase]; rfl) with ⟨hkeypair, hx509⟩
    have hsettled : s.settled config = s.ssl :=
      foldl_of_not_generates (hcurrent.drained (by rw [hphase]; rfl)) s.ssl
    refine ⟨hkeypair, hx509, ?_⟩
    have hssl : s.ssl = d.before.ssl.cleanup := by
      have hsecret := hcurrent.secretKey
      rw [hsettled] at hsecret
      cases hs : s.ssl with
      | mk x509 keypair secretKey =>
          simp only [hs] at hkeypair hx509 hsecret
          subst hkeypair hx509 hsecret
          rfl
    have hactive := (hs.target d.thread d.before (.inl hd)).2.1
    simp [State.sync, Sync.deactivate, hactive, hsettled, hssl, hcurrent.inactive hd]

section EndsStep

variable {config : SslConfig} {s s' : State κ χ}

/-- Thread `j` goes on; what it does to the keys it may do for every thread that was stopped. -/
theorem Ends.moves (hs : Ends config s) {l' : Loop} {j : Nat} {p q : Phase}
    (h : Moves s.loop l' j p q) (hloop : s'.loop = l') (hcaller : s'.caller = s.caller)
    (hactivated : s'.activated = s.activated) (hdeactivations : s'.deactivations = s.deactivations)
    (hcommands : s'.commands = s.commands) (hothers : ∀ i, i ≠ j → s'.done.count i = s.done.count i)
    (hsilent : q.cleaned = false → s'.done.count j = 0)
    (honce : q = .invoked → s'.done.count j = 1)
    (hlive : ∀ i before, s.Target i before → phase l' i = .live →
      l'.base.state = .stopRequested)
    (hended : q = .ended → ∀ before, s.Target j before → s'.done.count j = 1)
    (hdrained : q.tookHandler = true → p.tookHandler = true ∨
      (∀ c ∈ s.commands, c.generates = false) ∨ ∀ before, ¬ s.Target j before)
    (hssl : (s'.ssl = s.ssl ∧ (q.cleaned = true → p.cleaned = true ∨
      ∀ before, ¬ s.Target j before)) ∨ s'.ssl = s.ssl.cleanup) : Ends config s' := by
  have hphase : ∀ i, phase s'.loop i = if i = j then q else phase s.loop i := by
    intro i
    rw [hloop]
    split
    · rename_i hij
      rw [hij, h.target]
    · rename_i hij
      exact h.others i hij
  have hcreated : s'.loop.base.created = s.loop.base.created := by rw [hloop, h.created]
  have htarget : ∀ i before, s'.Target i before ↔ s.Target i before := by
    intro i before
    simp [State.Target, hdeactivations, hcaller, hcreated]
  have hsecret : (s'.settled config).secretKey = (s.settled config).secretKey := by
    have hkey : s'.ssl.secretKey = s.ssl.secretKey := by
      rcases hssl with ⟨hsame, -⟩ | hclean
      · rw [hsame]
      · rw [hclean, cleanup_secretKey]
    simpa [State.settled, hcommands] using foldl_secretKey s.commands hkey
  refine ⟨fun i hi => ?_, fun i hi => ?_, fun i before hi => ?_, fun hattr i before hi => ?_,
    fun i before hi hlast => ?_⟩
  · -- What thread `j` has not reported yet it does not report before it has cleaned up.
    rw [hphase] at hi
    by_cases hij : i = j
    · subst hij
      exact hsilent (by simpa using hi)
    · rw [hothers i hij]
      exact hs.silent i (by simpa [hij] using hi)
  · -- Between its report and its end a thread has reported once.
    rw [hphase] at hi
    by_cases hij : i = j
    · subst hij
      exact honce (by simpa using hi)
    · rw [hothers i hij]
      exact hs.once i (by simpa [hij] using hi)
  · -- The threads that are to end are the same as before.
    have hi' := (htarget i before).1 hi
    rcases hs.target i before hi' with ⟨hlt, hactive, -, hcount⟩
    refine ⟨hcreated ▸ hlt, hactive, fun hnow => ?_, fun hnow => ?_⟩
    · rw [hloop] at hnow ⊢
      exact hlive i before hi' hnow
    · rw [hphase] at hnow
      by_cases hij : i = j
      · subst hij
        exact hended (by simpa using hnow) before hi'
      · rw [hothers i hij]
        exact hcount (by simpa [hij] using hnow)
  · rw [hcreated]
    rw [hloop, h.caller] at hattr
    exact hs.spawned hattr i before ((htarget i before).1 hi)
  · -- The last thread that was created is the one whose keys and commands are held.
    have hi' := (htarget i before).1 hi
    have hcurrent := hs.current i before hi' (hcreated ▸ hlast)
    refine ⟨hsecret.trans hcurrent.secretKey, fun hmem => ?_, fun htook => ?_, fun hclean => ?_⟩
    · rw [hactivated]
      exact hcurrent.inactive (hdeactivations ▸ hmem)
    · rw [hcommands]
      rw [hphase] at htook
      by_cases hij : i = j
      · subst hij
        rcases hdrained (by simpa using htook) with hp | hall | hnot
        · exact hcurrent.drained (by rw [h.source, hp])
        · exact hall
        · exact absurd hi' (hnot before)
      · exact hcurrent.drained (by simpa [hij] using htook)
    · rcases hssl with ⟨hsame, hp⟩ | hcleanup
      · rw [hsame]
        rw [hphase] at hclean
        by_cases hij : i = j
        · subst hij
          rcases hp (by simpa using hclean) with hp | hnot
          · exact hcurrent.released (by rw [h.source, hp])
          · exact absurd hi' (hnot before)
        · exact hcurrent.released (by simpa [hij] using hclean)
      · rw [hcleanup]
        exact ⟨rfl, rfl⟩

theorem Ends.not_target (hs : Ends config s) {j : Nat} (hlive : phase s.loop j = .live)
    (hstate : s.loop.base.state ≠ .stopRequested) (before : Sync κ χ) : ¬ s.Target j before :=
  fun h => hstate ((hs.target j before h).2.2.1 hlive)

theorem ends_thread (hcalls : Calls s) (hs : Ends config s) {j : Nat} {ret : Int}
    (hclean : Clean s (.thread j ret)) (h : thread s j ret = some s') : Ends config s' := by
  unfold thread at h
  split at h
  · cases h
  rcases Option.map_eq_some_iff.1 h with ⟨l', hl', rfl⟩
  rcases thread_cases hcalls.loop hl' with ⟨-, -, ⟨hmoves, hstate⟩ | ⟨habort, hmoves, -⟩ |
    ⟨hmoves, -⟩⟩
  · refine hs.moves hmoves rfl rfl rfl rfl rfl (fun _ _ => rfl)
      (fun _ => hs.silent j (by rw [hmoves.source]; rfl)) nofun (fun i before hi hlive => ?_) nofun
      nofun (.inl ⟨rfl, nofun⟩)
    have hlive' : phase s.loop i = .live := by
      by_cases hij : i = j
      · rw [hij, hmoves.source]
      · rwa [hmoves.others i hij] at hlive
    have hold := (hs.target i before hi).2.2.1 hlive'
    rcases hstate with hstate | ⟨hstart, -⟩
    · exact hstate.trans hold
    · simp [hold] at hstart
  all_goals
    -- No other thread was live.
    have hnone : ∀ i, phase l' i ≠ .live := by
      intro i hi
      have hij : i ≠ j := by
        rintro rfl
        simp [hmoves.target] at hi
      rw [hmoves.others i hij] at hi
      have hlast := (hcalls.loop.last i hi).1
      have hlast' := (hcalls.loop.last j hmoves.source).1
      omega
  · have hnot := hs.not_target hmoves.source (hclean habort)
    exact hs.moves hmoves rfl rfl rfl rfl rfl (fun _ _ => rfl) nofun nofun
      (fun i _ _ hi => absurd hi (hnone i)) (fun _ before hj => absurd hj (hnot before))
      (fun _ => .inr (.inr hnot)) (.inl ⟨rfl, fun _ => .inr hnot⟩)
  · exact hs.moves hmoves rfl rfl rfl rfl rfl (fun _ _ => rfl)
      (fun _ => hs.silent j (by rw [hmoves.source]; rfl)) nofun
      (fun i _ _ hi => absurd hi (hnone i)) nofun nofun (.inl ⟨rfl, nofun⟩)

/-- Behind the last access to the state a thread does not concern those that are live. -/
theorem Ends.live_of_moves (hs : Ends config s) {l' : Loop} {j : Nat} {p q : Phase}
    (h : Moves s.loop l' j p q) (hq : q ≠ .live) (hstate : l'.base.state = s.loop.base.state)
    (i : Nat) (before : Sync κ χ) (hi : s.Target i before) (hlive : phase l' i = .live) :
    l'.base.state = .stopRequested := by
  have hij : i ≠ j := by
    rintro rfl
    exact hq (h.target.symm.trans hlive)
  rw [hstate]
  exact (hs.target i before hi).2.2.1 (by rwa [h.others i hij] at hlive)

theorem ends_take (hs : Ends config s) {j : Nat} (hclean : Clean s (.take j))
    (h : step config s (.take j) = some s') : Ends config s' := by
  rcases Option.map_eq_some_iff.1 h with ⟨l', hl', rfl⟩
  rcases take_cases hclean.1 hl' with ⟨hmoves, hstate⟩
  exact hs.moves hmoves rfl rfl rfl rfl rfl (fun _ _ => rfl)
    (fun _ => hs.silent j (by rw [hmoves.source]; rfl)) nofun
    (hs.live_of_moves hmoves nofun hstate) nofun (fun _ => .inr (.inl hclean.2))
    (.inl ⟨rfl, nofun⟩)

theorem ends_cleanup (hcalls : Calls s) (hs : Ends config s) {j : Nat} {published : Bool}
    (hclean : Clean s (.cleanup j published)) (h : cleanup s j published = some s') :
    Ends config s' := by
  have hpublished : published = true := hclean
  subst hpublished
  rcases Option.map_eq_some_iff.1 h with ⟨l', hl', rfl⟩
  rcases invoke_cases hcalls.loop hl' with ⟨hmoves, hbase⟩
  have hsilent := hs.silent j (by rw [hmoves.source]; rfl)
  refine hs.moves hmoves rfl rfl rfl rfl rfl (fun i hi => ?_) nofun (fun _ => ?_)
    (hs.live_of_moves hmoves nofun (by rw [hbase])) nofun (fun _ => .inl rfl) (.inr rfl)
  · have hij : j ≠ i := fun heq => hi heq.symm
    simp [List.count_append, hij]
  · simp [List.count_append, hsilent]

theorem ends_delete (hs : Ends config s) {j : Nat} (h : step config s (.delete j) = some s') :
    Ends config s' := by
  rcases Option.map_eq_some_iff.1 h with ⟨l', hl', rfl⟩
  rcases delete_cases hl' with ⟨hmoves, hstate, -⟩
  exact hs.moves hmoves rfl rfl rfl rfl rfl (fun _ _ => rfl) nofun nofun
    (hs.live_of_moves hmoves nofun hstate) (fun _ _ _ => hs.once j hmoves.source)
    (fun _ => .inl rfl) (.inl ⟨rfl, fun _ => .inl rfl⟩)

/-- A call returns, or goes on, and may have asked a live thread to stop. -/
theorem Ends.keeps (hs : Ends config s) (h : Keeps s.loop s'.loop) (hdone : s'.done = s.done)
    (hssl : s'.ssl = s.ssl) (hcommands : s'.commands = s.commands)
    (hstate : s.loop.base.state = .stopRequested → s'.loop.base.state = .stopRequested)
    (htarget : ∀ j before, s'.Target j before → s.Target j before ∨
      (phase s.loop j = .live ∧ j < s.loop.base.created ∧ before.activated = true ∧
        s'.loop.base.state = .stopRequested ∧
        (s.settled config).secretKey = before.ssl.secretKey))
    (hinactive : ∀ j before, ⟨j, before⟩ ∈ s'.deactivations → j + 1 = s.loop.base.created →
      s'.activated = false)
    (hspawned : s'.loop.base.caller () ≠ .destroyingAttr 0) : Ends config s' := by
  have hsettled : s'.settled config = s.settled config := by
    simp [State.settled, hssl, hcommands]
  refine ⟨fun j hj => ?_, fun j hj => ?_, fun j before hj => ?_,
    fun hattr => absurd hattr hspawned, fun j before hj hlast => ?_⟩
  · rw [hdone]
    exact hs.silent j (by rwa [h.phase] at hj)
  · rw [hdone]
    exact hs.once j (by rwa [h.phase] at hj)
  · rw [h.created, h.phase, hdone]
    rcases htarget j before hj with hold | ⟨hlive, hlt, hactive, hstop, -⟩
    · rcases hs.target j before hold with ⟨hlt, hactive, hlive, hcount⟩
      exact ⟨hlt, hactive, fun hnow => hstate (hlive hnow), hcount⟩
    · exact ⟨hlt, hactive, fun _ => hstop, fun hnow => by simp [hlive] at hnow⟩
  · rw [h.created] at hlast
    rcases htarget j before hj with hold | ⟨hlive, -, -, -, hsecret⟩
    · have hcurrent := hs.current j before hold hlast
      refine ⟨hsettled ▸ hcurrent.secretKey, fun hmem => hinactive j before hmem hlast, ?_, ?_⟩
      · rw [h.phase, hcommands]
        exact hcurrent.drained
      · rw [h.phase, hssl]
        exact hcurrent.released
    · refine ⟨hsettled ▸ hsecret, fun hmem => hinactive j before hmem hlast, ?_, ?_⟩
      · rw [h.phase, hlive]
        exact nofun
      · rw [h.phase, hlive]
        exact nofun

/-- As long as the authenticator is active, the last thread has not been stopped. -/
theorem Ends.active (hs : Ends config s) (hactivated : s.activated = true) {j : Nat}
    {before : Sync κ χ} (hmem : ⟨j, before⟩ ∈ s.deactivations) :
    j + 1 ≠ s.loop.base.created := by
  intro hlast
  have hfalse := (hs.current j before (.inl hmem) hlast).inactive hmem
  rw [hactivated] at hfalse
  cases hfalse

theorem ends_activate (hcalls : Calls s) (hs : Ends config s) (h : activate s = some s') :
    Ends config s' := by
  cases hcaller : s.caller with
  | idle =>
      simp only [activate, hcaller] at h
      rcases Option.map_eq_some_iff.1 h with ⟨l', hl', rfl⟩
      rcases run_cases (hcalls.idle hcaller) hl' with ⟨hkeeps, ⟨-, hstate, hpc, hret⟩ |
        ⟨hstopped, -, hpc, hret⟩⟩
      · simp only [State.resume, hret]
        refine hs.keeps hkeeps rfl rfl rfl (fun hold => hstate.trans hold) (fun j before hj => ?_)
          (fun _ _ _ _ => by simp [EINVAL]) (by simp [hpc])
        rcases hj with hj | ⟨hj, -⟩
        · exact .inl (.inl hj)
        · cases hj
      · simp only [State.resume, hret]
        refine hs.keeps hkeeps rfl rfl rfl (fun hold => ?_) (fun j before hj => ?_)
          (fun j before hmem hlast => (hs.current j before (.inl hmem) hlast).inactive hmem)
          (by simp [hpc])
        · simp [hstopped] at hold
        · rcases hj with hj | ⟨hj, -⟩
          · exact .inl (.inl hj)
          · cases hj
  | _ => simp [activate, hcaller] at h

/-- A `Deactivate` that is not refused finds a live thread. -/
theorem ends_deactivate (hcalls : Calls s) (hs : Ends config s) (hclean : Clean s .deactivate)
    (h : deactivate config s = some s') : Ends config s' := by
  cases hcaller : s.caller with
  | idle =>
      simp only [deactivate, hcaller] at h
      split at h
      · cases h
        exact hs
      rename_i hactivated
      rw [Bool.not_eq_false] at hactivated
      rcases Option.map_eq_some_iff.1 h with ⟨l', hl', rfl⟩
      have hlive : ∃ j, phase s.loop j = .live := by
        rcases hcalls.live (.inl ⟨hactivated, by simp [hcaller]⟩) with hstopped | hlive
        · exact absurd hstopped (hclean hactivated)
        · exact hlive
      rcases hlive with ⟨j, hj⟩
      have hlast := (hcalls.loop.last j hj).1
      rcases stop_cases (hcalls.idle hcaller) hl' with ⟨hkeeps, ⟨-, hstate, hpc, hret⟩ |
        ⟨-, hstate, hpc, hret⟩ | ⟨hstate, hpc, hret⟩⟩
      · simp only [State.resume, hret]
        refine hs.keeps hkeeps rfl rfl rfl (fun hold => hstate.trans hold) (fun i before hi => ?_)
          (fun i before hmem heq => ?_) (by simp [hpc])
        · rcases hi with hi | ⟨hi, -⟩
          · exact .inl (.inl (by simpa [EALREADY] using hi))
          · cases hi
        · exact absurd heq (hs.active hactivated (by simpa [EALREADY] using hmem))
      · simp only [State.resume, hret]
        refine hs.keeps hkeeps rfl rfl rfl (fun _ => hstate) (fun i before hi => ?_)
          (fun i before hmem heq => absurd heq (hs.active hactivated hmem)) (by simp [hpc])
        rcases hi with hi | ⟨hi, hi'⟩
        · exact .inl (.inl hi)
        · -- The thread that this call stops.
          cases hi
          rw [hkeeps.created] at hi'
          have hij : i = j := by omega
          subst hij
          exact .inr ⟨hj, by omega, hactivated, hstate, rfl⟩
      · simp only [State.resume, hret]
        refine hs.keeps hkeeps rfl rfl rfl (fun _ => hstate) (fun i before hi => ?_)
          (fun _ _ _ _ => by simp) (by simp [hpc])
        rcases hi with hi | ⟨hi, -⟩
        · rcases List.mem_append.1 hi with hi | hi
          · exact .inl (.inl hi)
          · simp only [if_true, List.mem_singleton] at hi
            cases hi
            have hij : l'.base.created - 1 = j := by
              rw [hkeeps.created]
              omega
            rw [hij]
            exact .inr ⟨hj, by omega, hactivated, hstate, rfl⟩
        · cases hi
  | _ => simp [deactivate, hcaller] at h

/-- A new thread is not one that was stopped. -/
theorem Ends.spawns (hs : Ends config s) {l' : Loop} (h : Spawns s.loop l')
    (hnew : phase s.loop s.loop.base.created = .absent) (hcaller : s.caller = .activating)
    (hstate : l'.base.state = s.loop.base.state) : Ends config { s with loop := l' } := by
  have htarget : ∀ j before, State.Target { s with loop := l' } j before →
      s.Target j before ∧ j < s.loop.base.created := by
    intro j before hj
    rcases hj with hj | ⟨hj, -⟩
    · exact ⟨.inl hj, (hs.target j before (.inl hj)).1⟩
    · rw [hcaller] at hj
      cases hj
  refine ⟨fun j hj => ?_, fun j hj => ?_, fun j before hj => ?_, fun _ j before hj => ?_,
    fun j before hj hlast => ?_⟩
  · refine hs.silent j ?_
    by_cases hjn : j = s.loop.base.created
    · rw [hjn, hnew]
      rfl
    · rwa [h.others j hjn] at hj
  · have hjn : j ≠ s.loop.base.created := by
      rintro rfl
      simp [h.new] at hj
    exact hs.once j (by rwa [h.others j hjn] at hj)
  · rcases htarget j before hj with ⟨hold, hlt⟩
    rcases hs.target j before hold with ⟨-, hactive, hlive, hcount⟩
    have hsame := h.others j (by omega)
    exact ⟨by simp only [h.created]; omega, hactive,
      fun hnow => hstate.trans (hlive (hsame.symm.trans hnow)),
      fun hnow => hcount (hsame.symm.trans hnow)⟩
  · have hlt := (htarget j before hj).2
    simp only [h.created]
    omega
  · have hlt := (htarget j before hj).2
    simp only [h.created] at hlast
    omega

theorem ends_call (hcalls : Calls s) (hs : Ends config s) {ret : Int} (h : call s ret = some s') :
    Ends config s' := by
  cases hcaller : s.caller with
  | activating =>
      simp only [call, hcaller] at h
      rcases Option.map_eq_some_iff.1 h with ⟨l', hl', rfl⟩
      have hrunning : Running (s.loop.base.caller ()) := by
        simpa [hcaller, Caller.At] using hcalls.caller
      rcases call_run_cases hrunning hl' with ⟨hstate, -, ⟨hkeeps, -, -, hne, hret⟩ |
        ⟨hspawns, -, -, hret⟩ | ⟨hkeeps, hpc, r, hret, hzero, -⟩⟩
      · simp only [State.resume, hcaller, hret]
        refine hs.keeps hkeeps rfl rfl rfl (fun hold => hstate.trans hold) (fun j before hj => ?_)
          (fun j before hmem hlast => (hs.current j before (.inl hmem) hlast).inactive hmem) hne
        rcases hj with hj | ⟨hj, -⟩
        · exact .inl (.inl hj)
        · simp at hj
      · simp only [State.resume, hcaller, hret]
        have hends := hs.spawns hspawns (hcalls.loop.fresh _ (Nat.le_refl _)) hcaller hstate
        simpa [hcaller] using hends
      · simp only [State.resume, hcaller, hret]
        refine hs.keeps hkeeps rfl rfl rfl (fun hold => hstate.trans hold) (fun j before hj => ?_)
          (fun j before hmem hlast => ?_) (by simp [hpc])
        · rcases hj with hj | ⟨hj, -⟩
          · exact .inl (.inl hj)
          · cases hj
        · -- 0 is returned behind a new thread only.
          have hr : r ≠ 0 := fun heq =>
            hs.spawned (hzero heq) j before (.inl hmem) hlast
          simpa using hr
  | deactivating before =>
      simp only [call, hcaller] at h
      rcases Option.map_eq_some_iff.1 h with ⟨l', hl', rfl⟩
      have hwriting : ∃ before, s.loop.base.caller () = .writing before := by
        simpa [hcaller, Caller.At] using hcalls.caller
      rcases hwriting with ⟨b, hb⟩
      rcases hcalls.deactivating before hcaller with ⟨hactivated, hpos⟩
      rcases call_stop_cases hb hl' with ⟨hkeeps, hstate, hpc, hret⟩
      simp only [State.resume, hcaller, hret]
      refine hs.keeps hkeeps rfl rfl rfl (fun hold => hstate.trans hold) (fun j before' hj => ?_)
        (fun j before' hmem hlast => ?_) (by simp [hpc])
      · rcases hj with hj | ⟨hj, -⟩
        · rcases List.mem_append.1 hj with hj | hj
          · exact .inl (.inl hj)
          · split at hj
            · rw [List.mem_singleton] at hj
              cases hj
              refine .inl (.inr ⟨hcaller, ?_⟩)
              rw [hkeeps.created]
              omega
            · cases hj
        · cases hj
      · by_cases hzero : -ret = 0
        · simp [hzero]
        · have hmem' : ⟨j, before'⟩ ∈ s.deactivations := by simpa [hzero] using hmem
          exact absurd hlast (hs.active hactivated hmem')
  | _ => simp [call, hcaller] at h

/-- The caller does something outside of the loop, or the command handler is invoked. -/
theorem Ends.congr (hs : Ends config s) (hloop : s'.loop = s.loop) (hdone : s'.done = s.done)
    (htarget : ∀ j before, s'.Target j before → s.Target j before)
    (hcurrent : ∀ j before, s.Target j before → j + 1 = s.loop.base.created →
      Current config s j before → Current config s' j before) : Ends config s' := by
  refine ⟨?_, ?_, ?_, ?_, ?_⟩
  · rw [hloop, hdone]
    exact hs.silent
  · rw [hloop, hdone]
    exact hs.once
  · rw [hloop, hdone]
    exact fun j before hj => hs.target j before (htarget j before hj)
  · rw [hloop]
    exact fun hattr j before hj => hs.spawned hattr j before (htarget j before hj)
  · rw [hloop]
    exact fun j before hj hlast => hcurrent j before (htarget j before hj) hlast
      (hs.current j before (htarget j before hj) hlast)

/-- A command that is no `Prepare` leaves the keys as they will be. -/
theorem Current.send {j : Nat} {before : Sync κ χ} (h : Current config s j before)
    {c : Command κ χ} (hc : c.generates = false) (hloop : s'.loop = s.loop)
    (hssl : s'.ssl = s.ssl) (hactivated : s'.activated = s.activated)
    (hdeactivations : s'.deactivations = s.deactivations)
    (hcommands : s'.commands = s.commands ++ [c]) : Current config s' j before := by
  have hsettled : s'.settled config = s.settled config := by
    simp [State.settled, hssl, hcommands, execute_of_not_generates hc]
  refine ⟨hsettled ▸ h.secretKey, ?_, ?_, ?_⟩
  · rw [hdeactivations, hactivated]
    exact h.inactive
  · rw [hloop, hcommands]
    intro htook d hd
    rcases List.mem_append.1 hd with hd | hd
    · exact h.drained htook d hd
    · rw [List.mem_singleton.1 hd]
      exact hc
  · rw [hloop, hssl]
    exact h.released

theorem ends_step {a : Act κ χ} (hcalls : Calls s) (hs : Ends config s) (hclean : Clean s a)
    (h : step config s a = some s') : Ends config s' := by
  cases a with
  | activate => exact ends_activate hcalls hs h
  | deactivate => exact ends_deactivate hcalls hs hclean h
  | call ret => exact ends_call hcalls hs h
  | thread j ret => exact ends_thread hcalls hs hclean h
  | take j => exact ends_take hs hclean h
  | cleanup j published => exact ends_cleanup hcalls hs hclean h
  | delete j => exact ends_delete hs h
  | prepare e =>
      simp only [step, prepare] at h
      repeat' split at h
      all_goals cases h
      · exact hs
      · rename_i hcaller hactivated
        rw [Bool.not_eq_false] at hactivated
        refine hs.congr rfl rfl (fun _ _ hj => hj) (fun j before hj hlast _ => ?_)
        rcases hj with hj | ⟨hj, -⟩
        · exact absurd hlast (hs.active hactivated hj)
        · simp [hcaller] at hj
  | crypto input =>
      simp only [step, crypto] at h
      repeat' split at h
      all_goals cases h
      · exact hs
      · exact hs.congr rfl rfl (fun _ _ hj => hj) fun _ _ _ _ hcurrent =>
          hcurrent.send rfl rfl rfl rfl rfl rfl
  | request r =>
      simp only [step, request] at h
      split at h <;> cases h
      refine hs.congr rfl rfl (fun j before hj => ?_) fun _ _ _ _ hcurrent =>
        hcurrent.send rfl rfl rfl rfl rfl rfl
      rcases hj with hj | ⟨hj, -⟩
      · exact .inl hj
      · cases hj
  | receive =>
      simp only [step, receive] at h
      split at h <;> cases h
      refine hs.congr rfl rfl (fun j before hj => ?_) fun _ _ _ _ hcurrent =>
        ⟨hcurrent.secretKey, hcurrent.inactive, hcurrent.drained, hcurrent.released⟩
      rcases hj with hj | ⟨hj, -⟩
      · exact .inl hj
      · cases hj
  | command j =>
      simp only [step, command] at h
      split at h <;> cases h
      rename_i c rest hpolling hcommands
      have hlive : phase s.loop j = .live := phase_live.2 (by rw [hpolling]; rfl)
      have hlast := (hcalls.loop.last j hlive).1
      refine hs.congr rfl rfl (fun _ _ hj => hj) fun i before hi hlast' hcurrent => ?_
      -- The thread at work is the last one.
      have hij : i = j := by omega
      subst hij
      refine ⟨?_, hcurrent.inactive, fun hnow => ?_, fun hnow => ?_⟩
      · rw [← hcurrent.secretKey]
        simp [State.settled, hcommands]
      · simp [hlive, Phase.tookHandler] at hnow
      · simp [hlive, Phase.cleaned] at hnow

end EndsStep

/-- Over any number of cycles: behind each `Deactivate` that has returned 0 the thread releases the
keys, publishes its event and leaves what a synchronous authenticator would leave. -/
theorem deactivated_clean (config : SslConfig) (ssl : SslContext κ χ) (allocated : Bool)
    (as : List (Act κ χ)) (s : State κ χ)
    (hclean : Run.Along (step config) Clean (.created ssl allocated) as)
    (hexec : Run.exec (step config) (.created ssl allocated) as = some s) : Correct config s := by
  have hpreserved : Run.Preserved (step config) Clean
      (fun s : State κ χ => Calls s ∧ Ends config s) :=
    fun _ _ _ hs hclean h => ⟨calls_step config hs.1 h, ends_step hs.1 hs.2 hclean h⟩
  exact (Run.exec_invariant hpreserved ⟨calls_created ssl allocated,
    ends_created config ssl allocated⟩ hclean hexec).2.correct

/-! ## Fixed runs -/

/-- A key pair and a secret key are made. -/
def generating : GenerateEnv Nat Nat where
  generateKey := some 7
  generateCertificate keypair := .ok (keypair + 1)
  loadPrivateKey _ := .error (-EFAULT)
  loadCertificate _ := .error (-EFAULT)
  generateSecretKey := .ok [1, 2, 3]

/-- Nothing is configured but base64, and there are no keys. -/
def unconfigured : SslConfig := ⟨[], [], true⟩

def noKeys : SslContext Nat Nat := ⟨none, none, []⟩

/-- `Activate`, `Prepare`, which thread `j` executes, and `Deactivate`, until the thread has written
its last state. -/
def cycle (j : Nat) : List (Act Nat Nat) :=
  [.activate, .call 0, .call 0, .call 0, .call 0, .thread j 0, .thread j 0, .thread j 0,
    .thread j 0, .prepare generating, .command j, .deactivate, .thread j 0, .call 0, .thread j 0,
    .thread j 0]

/-- In the second cycle no stop handler is set: the keys stay, and there is no event. -/
theorem second_cycle_uncleaned : ∃ s,
    Run.exec (step unconfigured) (.created noKeys true)
      (cycle 0 ++ [.take 0, .cleanup 0 true, .delete 0] ++ cycle 1 ++ [.take 1]) = some s ∧
    s.deactivations.map Deactivation.thread = [0, 1] ∧ Ended s.loop 1 ∧ s.done = [0] ∧
    s.ssl.keypair = some 7 ∧ ¬ Correct unconfigured s := by
  refine ⟨_, rfl, rfl, ⟨0, rfl⟩, rfl, rfl, fun hcorrect => ?_⟩
  exact absurd (hcorrect.published _ (List.mem_cons_of_mem _ (List.mem_singleton.2 rfl)) ⟨0, rfl⟩)
    (by decide)

def firstCycle : List (Act Nat Nat) :=
  cycle 0 ++ [.take 0, .cleanup 0 true, .delete 0, .activate]

theorem first_cycle_cleaned : ∃ s,
    Run.exec (step unconfigured) (.created noKeys true) firstCycle = some s ∧
    s.deactivations.map Deactivation.thread = [0] ∧ Correct unconfigured s :=
  ⟨_, rfl, rfl, deactivated_clean unconfigured noKeys true firstCycle _ (by decide) rfl⟩

end Cycles
end Authenticator
end Beyond
