import Beyond.Authenticator.Cycles

/-!
# Requests over the command socket

`GetKey`, `GenerateSignature` and `VerifySignature` of an asynchronous authenticator send a request to
the thread of the loop and wait for the reply.  This module puts a synchronous authenticator beside
the asynchronous one of `Beyond.Authenticator.Cycles` and lets it execute the same calls.
-/

namespace Beyond
namespace Authenticator
namespace Answers

open Errno
open Keys Cycles EventLoop

/-! ## Two authenticators -/

/-- What the synchronous authenticator has answered, with the requests. -/
structure Both (κ χ : Type*) where
  async : Cycles.State κ χ
  sync : Sync κ χ
  answers : List (Request κ χ × Except Int Output)

variable {κ χ : Type*}

section Steps

variable (config : SslConfig)

/-- The keys of the synchronous authenticator behind a call; `Encrypt` and `Decrypt` only use them,
and what is no call of the caller does not concern it. -/
def syncStep (sync : Sync κ χ) : Cycles.Act κ χ → Sync κ χ
  | .activate => sync.activate.1
  | .prepare e => (sync.prepare config e).1
  | .deactivate => sync.deactivate.1
  | _ => sync

def syncAnswer (sync : Sync κ χ) : Cycles.Act κ χ → List (Request κ χ × Except Int Output)
  | .request r => [(r, answer config sync.ssl r)]
  | _ => []

/-- A call of the asynchronous authenticator begins, and the synchronous one executes it. -/
def step (b : Both κ χ) (a : Cycles.Act κ χ) : Option (Both κ χ) :=
  (Cycles.step config b.async a).map fun s =>
    { async := s
      sync := syncStep config b.sync a
      answers := b.answers ++ syncAnswer config b.sync a }

end Steps

def Both.created (ssl : SslContext κ χ) (allocated : Bool) : Both κ χ where
  async := .created ssl allocated
  sync := ⟨false, ssl⟩
  answers := []

/-! ## Specification -/

/-- A step of the thread of the loop, or of a `Recv` that gets a reply, in which no system call
fails. -/
def ByLoop : Cycles.Act κ χ → Prop
  | .thread _ ret => ret = 0
  | .command _ => True
  | .receive => True
  | _ => False

/-- The thread of the loop can let the call return. -/
def CanReturn (config : SslConfig) (b : Both κ χ) : Prop :=
  ∃ as t, (∀ a ∈ as, ByLoop a) ∧ Run.exec (step config) b as = some t ∧ t.async.caller = .idle

structure Alike (config : SslConfig) (b : Both κ χ) : Prop where
  returns : ∀ number r, b.async.caller = .waiting number r → CanReturn config b
  own : ∀ a ∈ b.async.answers, a.reply.number = a.number
  /-- The `k`-th call that has returned returned what the synchronous authenticator answers to it. -/
  same : ∀ (k : Nat) (a : Answered κ χ), b.async.answers[k]? = some a →
    b.answers[k]? = some (a.request, a.reply.answer)
  /-- No reply is left over. -/
  taken : b.async.caller = .idle → b.async.replies = []

/-- `Activate` finds the loop stopped and the keys of the earlier cycles released; requests come
while the authenticator is active; `Run`, `Stop` and `ThreadMain` do not fail; and a thread comes to
its end without a `Prepare` in the socket, and with the stop handler set or no key pair and no
certificate to release. -/
def Steady (b : Both κ χ) : Cycles.Act κ χ → Prop
  | .activate => b.async.loop.base.state = .stopped ∧
      ∀ j < b.async.loop.base.created, (phase b.async.loop j).cleaned = true
  | .request _ => b.async.activated = true
  | .call ret => ret = 0
  | .thread j ret => b.async.loop.base.thread j = .prepare → ret = 0
  | .take _ => (∀ c ∈ b.async.commands, c.generates = false) ∧
      (b.async.loop.stopEventObject = none →
        b.async.ssl.keypair = none ∧ b.async.ssl.x509 = none)
  | _ => True

instance Steady.decidable (b : Both κ χ) : ∀ a, Decidable (Steady b a)
  | .activate =>
      inferInstanceAs (Decidable (b.async.loop.base.state = .stopped ∧
        ∀ j < b.async.loop.base.created, (phase b.async.loop j).cleaned = true))
  | .request _ => inferInstanceAs (Decidable (b.async.activated = true))
  | .call ret => inferInstanceAs (Decidable (ret = 0))
  | .thread j ret =>
      inferInstanceAs (Decidable (b.async.loop.base.thread j = .prepare → ret = 0))
  | .take _ =>
      match hkeypair : b.async.ssl.keypair, hx509 : b.async.ssl.x509 with
      | none, none =>
          decidable_of_iff (∀ c ∈ b.async.commands, c.generates = false)
            (by simp [Steady, hkeypair, hx509])
      | some _, _ =>
          decidable_of_iff ((∀ c ∈ b.async.commands, c.generates = false) ∧
            b.async.loop.stopEventObject ≠ none) (by simp [Steady, hkeypair])
      | _, some _ =>
          decidable_of_iff ((∀ c ∈ b.async.commands, c.generates = false) ∧
            b.async.loop.stopEventObject ≠ none) (by simp [Steady, hx509])
  | .prepare _ | .crypto _ | .deactivate | .receive | .command _ | .cleanup _ _ | .delete _ =>
      isTrue trivial

/-! ## The loop -/

/-- The thread is on its way to its first poll, or polls, and was not asked to stop. -/
def Ready (l : Loop) (j : Nat) : Prop :=
  match l.base.thread j with
  | .entry => l.base.state = .startRequested
  | .prepare => l.base.state = .startRequested
  | .starting => l.base.state = .startRequested
  | .looping => l.base.state = .started
  | .polling => l.base.state = .started
  | _ => False

theorem Ready.state {l : Loop} {j : Nat} (h : Ready l j) :
    l.base.state = .startRequested ∨ l.base.state = .started := by
  unfold Ready at h
  cases hpc : l.base.thread j <;> simp [hpc] at h <;> simp [h]

theorem Ready.live {l : Loop} {j : Nat} (h : Ready l j) : phase l j = .live := by
  refine phase_live.2 ?_
  unfold Ready at h
  cases hpc : l.base.thread j <;> simp [hpc] at h <;> rfl

structure SteadyLoop (l : Loop) : Prop where
  /-- The parameters of `Run`. -/
  started : ∀ w n t, l.base.caller () = .started w n t → w = 10 ∧ n = -1
  parameters : 0 < l.base.created ∨ l.base.caller () = .launching ∨
    l.base.caller () = .creating → l.base.epollWaitSize = 10 ∧ l.base.loopCount = -1
  status : ∀ status, l.base.caller () = .destroyingAttr status → status = 0 ∧ 0 < l.base.created
  launches : (l.base.caller ()).launches = true → l.base.state = .startRequested
  stays : ∀ j r, l.base.thread j ≠ .abort r
  live : ∀ j, phase l j = .live → l.base.state = .stopRequested ∨ Ready l j

theorem steadyLoop_created (ssl : SslContext κ χ) (allocated : Bool) :
    SteadyLoop (Cycles.State.created ssl allocated).loop := by
  cases allocated <;>
    exact ⟨nofun, (by rintro (h | h | h) <;> cases h), nofun, nofun, nofun, nofun⟩

section Loop

variable {l l' : Loop} {j : Nat} {ret : Int}

/-- What is ready stays so when the caller goes on. -/
theorem Ready.keeps (h : Ready l j) (hk : Keeps l l') (hstate : l'.base.state = l.base.state) :
    Ready l' j := by
  unfold Ready at h ⊢
  rw [hk.thread, hstate]
  exact h

theorem steadyLoop_run (hl : LoopInv l) (hs : SteadyLoop l) (hidle : l.base.caller () = .idle)
    (hstopped : l.base.state = .stopped)
    (h : Cycles.loopStep l (.base (.run () 10 (-1) (-1))) = some l') : SteadyLoop l' := by
  rcases Option.bind_eq_some_iff.1 h with ⟨b, hb, hb'⟩
  cases hb'
  simp only [RunStop.step, RunStop.runCall, hidle, hstopped, ne_eq, not_true_eq_false, if_false,
    Option.some.injEq] at hb
  subst hb
  refine ⟨fun w n t hpc => ?_, fun hpc => ?_, fun status hpc => ?_, fun _ => rfl, hs.stays,
    fun j hj => ?_⟩
  · simp [RunStop.State.setCaller] at hpc
    exact ⟨hpc.1.symm, hpc.2.1.symm⟩
  · refine hs.parameters (.inl ?_)
    simpa [RunStop.State.setCaller] using hpc
  · simp [RunStop.State.setCaller] at hpc
  · -- No thread is live in a stopped loop.
    exact absurd hstopped (hl.last j hj).2.2

theorem steadyLoop_stop (hs : SteadyLoop l) (hidle : l.base.caller () = .idle)
    (h : Cycles.loopStep l (.base (.stop ())) = some l') : SteadyLoop l' := by
  rcases Option.bind_eq_some_iff.1 h with ⟨b, hb, hb'⟩
  cases hb'
  simp only [RunStop.step, RunStop.stopCall, hidle, ne_eq, not_true_eq_false, if_false] at hb
  have hparameters : 0 < l.base.created → l.base.epollWaitSize = 10 ∧ l.base.loopCount = -1 :=
    fun hpos => hs.parameters (.inl hpos)
  split at hb
  · cases hb
    exact ⟨hs.started, hs.parameters, hs.status, hs.launches, hs.stays, hs.live⟩
  · split at hb
    · cases hb
      exact ⟨by simp [RunStop.State.setCaller], by simpa [RunStop.State.setCaller],
        by simp [RunStop.State.setCaller],
        by simp [RunStop.State.setCaller, RunStop.CallPc.launches], hs.stays, fun _ _ => .inl rfl⟩
    · cases hb
      exact ⟨hs.started, hs.parameters, hs.status,
        by simp [RunStop.State.log, hidle, RunStop.CallPc.launches], hs.stays, fun _ _ => .inl rfl⟩

/-- The call has left `Run` or `Stop`. -/
theorem SteadyLoop.idle (hs : SteadyLoop l) {r : RunStop.Return} :
    SteadyLoop { l with base := (l.base.log r).setCaller () .idle } :=
  ⟨by simp [RunStop.State.setCaller], fun h => hs.parameters (.inl (by
    simpa [RunStop.State.setCaller, RunStop.State.log] using h)),
    by simp [RunStop.State.setCaller],
    by simp [RunStop.State.setCaller, RunStop.CallPc.launches], hs.stays, hs.live⟩

theorem steadyLoop_call (hl : LoopInv l) (hs : SteadyLoop l)
    (h : Cycles.loopStep l (.base (.call () 0)) = some l') : SteadyLoop l' := by
  rcases Option.bind_eq_some_iff.1 h with ⟨b, hb, hb'⟩
  cases hb'
  simp only [RunStop.step, RunStop.callStep] at hb
  cases hpc : l.base.caller () with
  | idle => simp [hpc] at hb
  | started w n t =>
      simp only [hpc, Option.some.injEq] at hb
      subst hb
      rcases hs.started w n t hpc with ⟨rfl, rfl⟩
      exact ⟨by simp [RunStop.State.setCaller], fun _ => ⟨rfl, rfl⟩,
        by simp [RunStop.State.setCaller], fun _ => hs.launches (by rw [hpc]; rfl), hs.stays,
        hs.live⟩
  | launching =>
      simp only [hpc, Bool.true_eq_false, ne_eq, not_true_eq_false, if_false,
        Option.some.injEq] at hb
      subst hb
      exact ⟨by simp [RunStop.State.setCaller], fun _ => hs.parameters (.inr (.inl hpc)),
        by simp [RunStop.State.setCaller], fun _ => hs.launches (by rw [hpc]; rfl), hs.stays,
        hs.live⟩
  | creating =>
      simp only [hpc, ne_eq, not_true_eq_false, if_false, Option.some.injEq] at hb
      subst hb
      have hlaunches : (l.base.caller ()).launches = true := by rw [hpc]; rfl
      refine ⟨by simp [RunStop.State.setCaller], fun _ => hs.parameters (.inr (.inr hpc)),
        by simp [RunStop.State.setCaller, RunStop.State.spawn],
        by simp [RunStop.State.setCaller, RunStop.CallPc.launches], fun j r => ?_, fun j hj => ?_⟩
      · by_cases hjn : j = l.base.created
        · simp [RunStop.State.setCaller, RunStop.State.spawn, RunStop.State.setThread, hjn]
        · simpa [RunStop.State.setCaller, RunStop.State.spawn, RunStop.State.setThread,
            Function.update_of_ne hjn] using hs.stays j r
      · by_cases hjn : j = l.base.created
        · right
          subst hjn
          simpa [Ready, RunStop.State.setCaller, RunStop.State.spawn, RunStop.State.setThread]
            using hs.launches hlaunches
        · -- There was no live thread while `Run` was at work.
          have hsame : phase { l with base := l.base.spawn.setCaller () (.destroyingAttr 0) } j =
              phase l j :=
            phase_congr (by simp [RunStop.State.setCaller, RunStop.State.spawn,
              RunStop.State.setThread, Function.update_of_ne hjn]) rfl
          have hfalse := (hl.last j (hsame.symm.trans hj)).2.1
          rw [hlaunches] at hfalse
          cases hfalse
  | destroyingAttr status =>
      simp only [hpc, Option.some.injEq] at hb
      subst hb
      exact hs.idle
  | inline j =>
      simp only [hpc] at hb
      split at hb <;> cases hb
      exact hs.idle
  | writing before =>
      simp only [hpc, Option.some.injEq] at hb
      subst hb
      exact hs.idle

/-- What a thread that is ready does next. -/
theorem ready_step (hs : SteadyLoop l) (hpos : 0 < l.base.created) (hj : Ready l j)
    (hret : l.base.thread j = .prepare → ret = 0)
    (htimeout : ¬ (l.base.thread j = .polling ∧ ret = -ETIMEDOUT))
    (h : Cycles.loopStep l (.base (.thread j ret)) = some l') : Ready l' j := by
  rcases StopHandler.baseStep_thread h with ⟨b, hb, -, hl'⟩
  rcases hl' with ⟨r, hr, -⟩ | ⟨-, rfl⟩
  · exact absurd hr (hs.stays j r)
  rcases hs.parameters (.inl hpos) with ⟨hsize, hcount⟩
  unfold Ready at hj
  simp only [RunStop.threadStep] at hb
  cases hpc : l.base.thread j with
  | entry =>
      simp only [hpc] at hj
      simp [hpc, hsize, hcount] at hb
      subst hb
      simpa [Ready, RunStop.State.setThread] using hj
  | prepare =>
      simp only [hpc] at hj
      simp [hpc, hret hpc] at hb
      subst hb
      simpa [Ready, RunStop.State.setThread] using hj
  | starting =>
      simp only [hpc] at hj
      simp only [hpc, hj, if_true, Option.some.injEq] at hb
      subst hb
      simp [Ready, RunStop.State.setThread]
  | looping =>
      simp only [hpc] at hj
      simp [hpc, hj, hcount] at hb
      subst hb
      simp [Ready, RunStop.State.setThread]
  | polling =>
      simp only [hpc] at hj
      have hne : ret ≠ -ETIMEDOUT := fun heq => htimeout ⟨hpc, heq⟩
      simp [hpc, hne] at hb
      subst hb
      simpa [Ready, RunStop.State.setThread] using hj
  | _ => simp [hpc] at hj

/-- A thread with the parameters of `Activate` leaves early only where a system call fails. -/
theorem threadStep_stays {b b' : RunStop.State Unit} (h : RunStop.threadStep b j ret = some b')
    (hsize : b.epollWaitSize = 10) (hcount : b.loopCount = -1)
    (hret : b.thread j = .prepare → ret = 0) (hstays : ∀ i r, b.thread i ≠ .abort r) (i : Nat)
    (r : Int) : b'.thread i ≠ .abort r := by
  by_cases hij : i = j
  · subst hij
    cases hpc : b.thread i with
    | entry =>
        simp [RunStop.threadStep, hpc, hsize, hcount] at h
        subst h
        simp [RunStop.State.setThread]
    | prepare =>
        simp [RunStop.threadStep, hpc, hret hpc] at h
        subst h
        simp [RunStop.State.setThread]
    | _ =>
        simp only [RunStop.threadStep, hpc] at h
        repeat' split at h
        all_goals cases h
        all_goals simp [RunStop.State.setThread]
  · rcases RunStop.threadStep_cases h with ⟨-, -, _, _, _, -, -, rfl⟩ | ⟨_, -, rfl⟩ |
      ⟨_, -, rfl⟩ | ⟨_, -, rfl⟩ <;>
    · simpa [RunStop.State.setThread, Function.update_of_ne hij] using hstays i r

theorem steadyLoop_thread (hl : LoopInv l) (hs : SteadyLoop l)
    (hret : l.base.thread j = .prepare → ret = 0)
    (htimeout : ¬ (l.base.thread j = .polling ∧ ret = -ETIMEDOUT))
    (h : Cycles.loopStep l (.base (.thread j ret)) = some l') :
    SteadyLoop l' ∧ (l.base.state ≠ .stopRequested → Ready l' j) := by
  have hlive : phase l j = .live := by
    rcases thread_cases hl h with ⟨-, -, ⟨hmoves, -⟩ | ⟨-, hmoves, -⟩ | ⟨hmoves, -⟩⟩ <;>
      exact hmoves.source
  rcases hl.last j hlive with ⟨hlast, hcaller, -⟩
  have hpos : 0 < l.base.created := by omega
  rcases hs.parameters (.inl hpos) with ⟨hsize, hcount⟩
  have hready : l.base.state ≠ .stopRequested → Ready l' j := fun hne =>
    ready_step hs hpos ((hs.live j hlive).resolve_left hne) hret htimeout h
  refine ⟨?_, hready⟩
  rcases StopHandler.baseStep_thread h with ⟨b, hb, -, hl'⟩
  rcases hl' with ⟨r, hr, -⟩ | ⟨-, hl'⟩
  · exact absurd hr (hs.stays j r)
  rcases RunStop.threadStep_frame hb (by omega) with ⟨hbcaller, hbcreated, hbsize, hbcount⟩
  have hl'base : l'.base = b := by rw [hl']
  refine ⟨?_, ?_, ?_, ?_, fun i r hir => ?_, fun i hi => ?_⟩
  · rw [hl'base, hbcaller]
    exact hs.started
  · rw [hl'base, hbsize, hbcount]
    exact fun _ => ⟨hsize, hcount⟩
  · rw [hl'base, hbcaller, hbcreated]
    exact hs.status
  · rw [hl'base, hbcaller, hcaller]
    exact nofun
  · rw [hl'base] at hir
    exact threadStep_stays hb hsize hcount hret hs.stays i r hir
  · rcases thread_cases hl h with ⟨-, -, ⟨hmoves, hstate⟩ | ⟨habort, -⟩ | ⟨hmoves, -⟩⟩
    · have hij : i = j := by
        by_contra hne
        rw [hmoves.others i hne] at hi
        have hlast' := (hl.last i hi).1
        omega
      subst hij
      by_cases hstop : l.base.state = .stopRequested
      · rcases hstate with hstate | ⟨hstart, -⟩
        · exact .inl (hstate.trans hstop)
        · simp [hstop] at hstart
      · exact .inr (hready hstop)
    · rcases habort with ⟨r, hr⟩
      exact absurd hr (hs.stays j r)
    · have hne : i ≠ j := by
        rintro rfl
        simp [hmoves.target] at hi
      rw [hmoves.others i hne] at hi
      have hlast' := (hl.last i hi).1
      omega

/-- Behind its last access to the state a thread only returns. -/
theorem end_base (h : Cycles.loopStep l (.take j) = some l' ∨
    Cycles.loopStep l (.invoke j) = some l' ∨ Cycles.loopStep l (.delete j) = some l') :
    l'.base = l.base ∨ ∃ r, l'.base = l.base.setThread j (.ended r) := by
  simp only [Cycles.loopStep, StopHandler.step, StopHandler.take, StopHandler.invoke,
    StopHandler.delete] at h
  rcases h with h | h | h
  · repeat' split at h
    all_goals cases h
    · exact .inr ⟨_, rfl⟩
    · exact .inl rfl
  · repeat' split at h
    all_goals cases h
    all_goals exact .inl rfl
  · split at h <;> cases h
    exact .inr ⟨_, rfl⟩

theorem steadyLoop_end (hs : SteadyLoop l)
    (h : Cycles.loopStep l (.take j) = some l' ∨ Cycles.loopStep l (.invoke j) = some l' ∨
      Cycles.loopStep l (.delete j) = some l') : SteadyLoop l' := by
  rcases end_base h with hbase | ⟨r, hbase⟩
  · refine ⟨?_, ?_, ?_, ?_, ?_, fun i hi => ?_⟩
    · rw [hbase]
      exact hs.started
    · rw [hbase]
      exact hs.parameters
    · rw [hbase]
      exact hs.status
    · rw [hbase]
      exact hs.launches
    · rw [hbase]
      exact hs.stays
    · have hready := hs.live i (phase_live.2 (by rw [← hbase]; exact phase_live.1 hi))
      simpa [Ready, hbase] using hready
  · refine ⟨?_, ?_, ?_, ?_, fun i r' => ?_, fun i hi => ?_⟩
    · rw [hbase]
      exact hs.started
    · rw [hbase]
      exact hs.parameters
    · rw [hbase]
      exact hs.status
    · rw [hbase]
      exact hs.launches
    · rw [hbase]
      by_cases hij : i = j
      · simp [RunStop.State.setThread, hij]
      · simpa [RunStop.State.setThread, Function.update_of_ne hij] using hs.stays i r'
    · have hij : i ≠ j := by
        rintro rfl
        have hended : phase l' i = .ended :=
          phase_ended.2 ⟨r, by simp [hbase, RunStop.State.setThread]⟩
        simp [hended] at hi
      have hsame : l'.base.thread i = l.base.thread i := by
        simp [hbase, RunStop.State.setThread, Function.update_of_ne hij]
      have hready := hs.live i (phase_live.2 (by rw [← hsame]; exact phase_live.1 hi))
      have hstate : l'.base.state = l.base.state := by
        rw [hbase]
        rfl
      simpa [Ready, hsame, hstate] using hready

end Loop

/-! ## The link -/

/-- The keys are still to be released for a `Deactivate`. -/
def Due (l : Loop) : Prop :=
  ∃ j, (phase l j = .live ∧ l.base.state = .stopRequested) ∨ phase l j = .ending ∨
    phase l j = .taken

/-- The command is answered over the socket. -/
def asks : Command κ χ → Bool
  | .request _ _ => true
  | _ => false

/-- The caller waits for the last command or for the only reply; else there is neither. -/
def Queue (config : SslConfig) (b : Both κ χ) : Prop :=
  match b.async.caller with
  | .waiting number r =>
      (b.async.replies = [] ∧ ∃ sent, b.async.commands = sent ++ [.request number r] ∧
        ∀ c ∈ sent, asks c = false) ∨
      (b.async.replies = [⟨number, answer config b.sync.ssl r⟩] ∧
        ∀ c ∈ b.async.commands, asks c = false)
  | _ => b.async.replies = [] ∧ ∀ c ∈ b.async.commands, asks c = false

/-- The answer that the asynchronous authenticator still owes. -/
def owed (config : SslConfig) (b : Both κ χ) : List (Request κ χ × Except Int Output) :=
  match b.async.caller with
  | .waiting _ r => [(r, answer config b.sync.ssl r)]
  | _ => []

/-- What `activated` of the synchronous authenticator is. -/
def activeSync (s : Cycles.State κ χ) : Bool :=
  match s.caller with
  | .activating => true
  | .deactivating _ => false
  | _ => s.activated

/-- The caller is outside of `Run` and `Stop`. -/
def Caller.outside : Caller κ χ → Bool
  | .idle => true
  | .waiting _ _ => true
  | _ => false

structure Linked (config : SslConfig) (b : Both κ χ) : Prop where
  calls : Calls b.async
  loop : SteadyLoop b.async.loop
  running : (b.async.activated = true ∧ Caller.outside b.async.caller = true) ∨
    b.async.loop.base.caller () = .destroyingAttr 0 → ∃ j, Ready b.async.loop j
  waiting : ∀ number r, b.async.caller = .waiting number r → b.async.activated = true
  /-- Only the last thread has not released the keys. -/
  older : ∀ j, j + 1 < b.async.loop.base.created → (phase b.async.loop j).cleaned = true
  launches : (b.async.loop.base.caller ()).launches = true →
    ∀ j < b.async.loop.base.created, (phase b.async.loop j).cleaned = true
  activated : b.sync.activated = activeSync b.async
  due : Due b.async.loop → b.sync.ssl = (b.async.settled config).cleanup
  released : ¬ Due b.async.loop → b.sync.ssl = b.async.settled config
  drained : ∀ j, phase b.async.loop j = .taken → ∀ c ∈ b.async.commands, c.generates = false
  queue : Queue config b
  answers : b.answers = b.async.answers.map (fun a => (a.request, a.reply.answer)) ++ owed config b
  own : ∀ a ∈ b.async.answers, a.reply.number = a.number

theorem linked_created (config : SslConfig) (ssl : SslContext κ χ) (allocated : Bool) :
    Linked config (.created ssl allocated) := by
  have hnot : ¬ Due (Both.created ssl allocated).async.loop := by
    rintro ⟨j, h⟩
    cases allocated <;> rcases h with ⟨h, -⟩ | h | h <;> cases h
  refine ⟨calls_created ssl allocated, steadyLoop_created ssl allocated, ?_, nofun, ?_, ?_, rfl,
    fun h => absurd h hnot, fun _ => rfl, ?_, ⟨rfl, nofun⟩, rfl, nofun⟩
  · rintro (⟨h, -⟩ | h)
    · cases h
    · cases allocated <;> cases h
  · cases allocated <;> exact fun _ h => absurd h (Nat.not_lt_zero _)
  · cases allocated <;> exact nofun
  · cases allocated <;> exact nofun

/-- A thread for which the keys are due has not released them. -/
theorem pending_of_due {l : Loop} {j : Nat}
    (h : (phase l j = .live ∧ l.base.state = .stopRequested) ∨ phase l j = .ending ∨
      phase l j = .taken) : (phase l j).cleaned = false ∧ phase l j ≠ .absent := by
  rcases h with ⟨h, -⟩ | h | h <;> simp [h, Phase.cleaned]

theorem not_due_of_cleaned {l : Loop}
    (h : ∀ j, (phase l j).cleaned = true ∨ phase l j = .absent) : ¬ Due l := by
  rintro ⟨j, hj⟩
  have hpending := pending_of_due hj
  rcases h j with hclean | habsent
  · rw [hpending.1] at hclean
    cases hclean
  · exact hpending.2 habsent

theorem cleaned_or_absent {l : Loop} (hl : LoopInv l)
    (hclean : ∀ j < l.base.created, (phase l j).cleaned = true) (j : Nat) :
    (phase l j).cleaned = true ∨ phase l j = .absent := by
  rcases Nat.lt_or_ge j l.base.created with hlt | hge
  · exact .inl (hclean j hlt)
  · exact .inr (hl.fresh j hge)

/-- The keys are due as long as the last thread was asked to stop and has not released them. -/
theorem due_iff {l : Loop} (hl : LoopInv l)
    (holder : ∀ i, i + 1 < l.base.created → (phase l i).cleaned = true) {j : Nat}
    (hlast : j + 1 = l.base.created) :
    Due l ↔ (phase l j = .live ∧ l.base.state = .stopRequested) ∨ phase l j = .ending ∨
      phase l j = .taken := by
  refine ⟨fun ⟨i, hi⟩ => ?_, fun h => ⟨j, h⟩⟩
  have hpending := pending_of_due hi
  have hij : i = j := by
    by_contra hne
    rcases Nat.lt_or_ge i l.base.created with hlt | hge
    · have hclean := holder i (by omega)
      rw [hpending.1] at hclean
      cases hclean
    · exact hpending.2 (hl.fresh i hge)
  subst hij
  exact hi

theorem due_congr {l l' : Loop} (hphase : ∀ j, phase l' j = phase l j)
    (hstate : l'.base.state = l.base.state) : Due l' ↔ Due l := by
  simp [Due, hphase, hstate]

section LinkedStep

variable {config : SslConfig} {b : Both κ χ}

theorem Linked.not_due (hs : Linked config b) {j : Nat} (hready : Ready b.async.loop j) :
    ¬ Due b.async.loop := by
  have hlast := (hs.calls.loop.last j hready.live).1
  rw [due_iff hs.calls.loop hs.older hlast]
  rcases hready.state with hstate | hstate <;> simp [hready.live, hstate]

theorem Linked.last (hs : Linked config b) {j : Nat} (hclean : (phase b.async.loop j).cleaned = false)
    (hmade : phase b.async.loop j ≠ .absent) : j + 1 = b.async.loop.base.created := by
  rcases Nat.lt_or_ge j b.async.loop.base.created with hlt | hge
  · by_contra hne
    have htrue := hs.older j (by omega)
    rw [hclean] at htrue
    cases htrue
  · exact absurd (hs.calls.loop.fresh j hge) hmade

/-- The last thread has released the keys, and nothing is due any more. -/
theorem Linked.not_due_of_moves (hs : Linked config b) {l' : Loop} {j : Nat} {p q : Phase}
    (hmoves : Moves b.async.loop l' j p q) (hp : p.cleaned = false) (hmade : p ≠ .absent)
    (hq : q.cleaned = true) : ¬ Due l' := by
  have hlast : j + 1 = b.async.loop.base.created :=
    hs.last (by rw [hmoves.source, hp]) (by rwa [hmoves.source])
  refine not_due_of_cleaned fun i => ?_
  by_cases hij : i = j
  · subst hij
    exact .inl (by rw [hmoves.target, hq])
  · rw [hmoves.others i hij]
    rcases Nat.lt_or_ge i b.async.loop.base.created with hlt | hge
    · exact .inl (hs.older i (by omega))
    · exact .inr (hs.calls.loop.fresh i hge)

/-- A thread goes on. -/
theorem Linked.moves (hs : Linked config b) {s' : Cycles.State κ χ} {j : Nat} {p q : Phase}
    (h : Moves b.async.loop s'.loop j p q) (hcalls : Calls s') (hloop : SteadyLoop s'.loop)
    (hcaller : s'.caller = b.async.caller) (hactivated : s'.activated = b.async.activated)
    (hcommands : s'.commands = b.async.commands) (hreplies : s'.replies = b.async.replies)
    (hanswers : s'.answers = b.async.answers)
    (hready : ∀ i, Ready b.async.loop i → ∃ i', Ready s'.loop i')
    (hclean : p.cleaned = true → q.cleaned = true)
    (hdue : Due s'.loop → b.sync.ssl = (s'.settled config).cleanup)
    (hreleased : ¬ Due s'.loop → b.sync.ssl = s'.settled config)
    (hdrained : q = .taken → ∀ c ∈ b.async.commands, c.generates = false) :
    Linked config ⟨s', b.sync, b.answers⟩ := by
  refine ⟨hcalls, hloop, ?_, ?_, fun i hi => ?_, ?_, ?_, hdue, hreleased, fun i hi => ?_, ?_, ?_, ?_⟩
  · rw [hcaller, hactivated, h.caller]
    intro hrun
    rcases hs.running hrun with ⟨i, hi⟩
    exact hready i hi
  · rw [hcaller, hactivated]
    exact hs.waiting
  · have hold := hs.older i (by rwa [h.created] at hi)
    by_cases hij : i = j
    · subst hij
      rw [h.target]
      exact hclean (by rw [← h.source, hold])
    · rw [h.others i hij]
      exact hold
  · rw [h.caller, h.created]
    intro hlaunches i hi
    have hold := hs.launches hlaunches i hi
    by_cases hij : i = j
    · subst hij
      rw [h.target]
      exact hclean (by rw [← h.source, hold])
    · rw [h.others i hij]
      exact hold
  · simpa [activeSync, hcaller, hactivated] using hs.activated
  · rw [hcommands]
    by_cases hij : i = j
    · subst hij
      exact hdrained (h.target.symm.trans hi)
    · exact hs.drained i (by rwa [h.others i hij] at hi)
  · simpa [Queue, hcaller, hreplies, hcommands] using hs.queue
  · simpa [owed, hcaller, hanswers] using hs.answers
  · rw [hanswers]
    exact hs.own

theorem linked_thread (hs : Linked config b) {j : Nat} {ret : Int} {s' : Cycles.State κ χ}
    (hsteady : Steady b (.thread j ret)) (h : thread b.async j ret = some s') :
    Linked config ⟨s', b.sync, b.answers⟩ := by
  have hcalls := calls_thread hs.calls h
  unfold thread at h
  split at h
  · cases h
  rename_i htimeout
  rcases Option.map_eq_some_iff.1 h with ⟨l', hl', rfl⟩
  rcases steadyLoop_thread hs.calls.loop hs.loop hsteady htimeout hl' with ⟨hloop, hready⟩
  have hnext : ∀ i, Ready b.async.loop i → ∃ i', Ready l' i' := fun i hi =>
    ⟨j, hready (by rcases hi.state with hstate | hstate <;> simp [hstate])⟩
  rcases thread_cases hs.calls.loop hl' with ⟨-, -, ⟨hmoves, hstate⟩ | ⟨⟨r, habort⟩, -⟩ |
    ⟨hmoves, -⟩⟩
  · have hphase : ∀ i, phase l' i = phase b.async.loop i := by
      intro i
      by_cases hij : i = j
      · rw [hij, hmoves.target, hmoves.source]
      · exact hmoves.others i hij
    have hdue : Due l' ↔ Due b.async.loop := by
      rcases hstate with hstate | ⟨hstart, hstate⟩
      · exact due_congr hphase hstate
      · simp [Due, hphase, hstart, hstate]
    exact hs.moves hmoves hcalls hloop rfl rfl rfl rfl rfl hnext id
      (fun h => hs.due (hdue.1 h)) (fun h => hs.released fun h' => h (hdue.2 h')) nofun
  · exact absurd habort (hs.loop.stays j r)
  · -- Only a thread that was asked to stop leaves its loop.
    have hstop : b.async.loop.base.state = .stopRequested := by
      by_contra hne
      have hlive := (hready hne).live
      simp [hmoves.target] at hlive
    have hdue : Due b.async.loop := ⟨j, .inl ⟨hmoves.source, hstop⟩⟩
    have hdue' : Due l' := ⟨j, .inr (.inl hmoves.target)⟩
    exact hs.moves hmoves hcalls hloop rfl rfl rfl rfl rfl hnext nofun (fun _ => hs.due hdue)
      (fun h => absurd hdue' h) nofun

/-- A thread behind its last access to the state leaves one that is ready alone. -/
theorem Ready.moves {l l' : Loop} {i j : Nat} {p q : Phase} (hi : Ready l i)
    (hloop : SteadyLoop l') (h : Moves l l' j p q) (hp : p ≠ .live)
    (hstate : l'.base.state = l.base.state) : Ready l' i := by
  have hij : i ≠ j := by
    rintro rfl
    exact hp (h.source.symm.trans hi.live)
  rcases hloop.live i ((h.others i hij).trans hi.live) with hstop | hready
  · rw [hstate] at hstop
    rcases hi.state with hnow | hnow <;> simp [hnow] at hstop
  · exact hready

theorem linked_take (hs : Linked config b) {j : Nat} {l' : Loop} (hsteady : Steady b (.take j))
    (h : Cycles.loopStep b.async.loop (.take j) = some l') :
    Linked config ⟨{ b.async with loop := l' }, b.sync, b.answers⟩ := by
  have hcalls : Calls { b.async with loop := l' } :=
    calls_step config (a := .take j) hs.calls (by simp [Cycles.step, h])
  have hloop := steadyLoop_end hs.loop (.inl h)
  by_cases hset : b.async.loop.stopEventObject = none
  · -- There is no key to release.
    rcases take_none hset h with ⟨hmoves, hstate, -⟩
    have hdue : Due b.async.loop := ⟨j, .inr (.inl hmoves.source)⟩
    have hnot : ¬ Due l' := hs.not_due_of_moves hmoves rfl (by simp) rfl
    have hsettled : State.settled config { b.async with loop := l' } = b.async.ssl :=
      foldl_of_not_generates hsteady.1 b.async.ssl
    have hssl : b.sync.ssl = b.async.ssl := by
      rw [hs.due hdue, State.settled, foldl_of_not_generates hsteady.1]
      rcases hsteady.2 hset with ⟨hkeypair, hx509⟩
      simp [SslContext.cleanup, ← hkeypair, ← hx509]
    exact hs.moves hmoves hcalls hloop rfl rfl rfl rfl rfl
      (fun i hi => ⟨i, hi.moves hloop hmoves (by simp) hstate⟩) (fun h => by cases h) (fun h => absurd h hnot)
      (fun _ => hssl.trans hsettled.symm) (by simp)
  · rcases take_cases hset h with ⟨hmoves, hstate⟩
    have hdue : Due b.async.loop := ⟨j, .inr (.inl hmoves.source)⟩
    have hdue' : Due l' := ⟨j, .inr (.inr hmoves.target)⟩
    exact hs.moves hmoves hcalls hloop rfl rfl rfl rfl rfl
      (fun i hi => ⟨i, hi.moves hloop hmoves (by simp) hstate⟩) (fun h => by cases h) (fun _ => hs.due hdue)
      (fun h => absurd hdue' h) (fun _ => hsteady.1)

theorem linked_cleanup (hs : Linked config b) {j : Nat} {published : Bool} {s' : Cycles.State κ χ}
    (h : cleanup b.async j published = some s') : Linked config ⟨s', b.sync, b.answers⟩ := by
  have hcalls : Calls s' := calls_step config (a := .cleanup j published) hs.calls h
  rcases Option.map_eq_some_iff.1 h with ⟨l', hl', rfl⟩
  have hloop := steadyLoop_end hs.loop (.inr (.inl hl'))
  rcases invoke_cases hs.calls.loop hl' with ⟨hmoves, hbase⟩
  have hdue : Due b.async.loop := ⟨j, .inr (.inr hmoves.source)⟩
  have hnot : ¬ Due l' := hs.not_due_of_moves hmoves rfl nofun rfl
  have hdrained := hs.drained j hmoves.source
  refine hs.moves hmoves hcalls hloop rfl rfl rfl rfl rfl
    (fun i hi => ⟨i, hi.moves hloop hmoves nofun (by rw [hbase])⟩) nofun (fun h => absurd h hnot)
    (fun _ => ?_) nofun
  simp only [State.settled, foldl_of_not_generates hdrained]
  rw [hs.due hdue, State.settled, foldl_of_not_generates hdrained]

theorem linked_delete (hs : Linked config b) {j : Nat} {l' : Loop}
    (h : Cycles.loopStep b.async.loop (.delete j) = some l') :
    Linked config ⟨{ b.async with loop := l' }, b.sync, b.answers⟩ := by
  have hcalls : Calls { b.async with loop := l' } :=
    calls_step config (a := .delete j) hs.calls (by simp [Cycles.step, h])
  have hloop := steadyLoop_end hs.loop (.inr (.inr h))
  rcases delete_cases h with ⟨hmoves, hstate, -⟩
  have hdue : Due l' ↔ Due b.async.loop := by
    refine exists_congr fun i => ?_
    by_cases hij : i = j
    · subst hij
      simp [hmoves.source, hmoves.target]
    · rw [hmoves.others i hij, hstate]
  exact hs.moves hmoves hcalls hloop rfl rfl rfl rfl rfl
    (fun i hi => ⟨i, hi.moves hloop hmoves (by simp) hstate⟩) (fun _ => rfl)
    (fun h => hs.due (hdue.1 h)) (fun h => hs.released fun h' => h (hdue.2 h')) (by simp)

/-- `Run` or `Stop` goes on without the threads. -/
theorem Linked.keeps (hs : Linked config b) {s' : Cycles.State κ χ} {sync : Sync κ χ}
    (h : Keeps b.async.loop s'.loop) (hcalls : Calls s') (hloop : SteadyLoop s'.loop)
    (hcaller : ∀ number r, s'.caller ≠ .waiting number r)
    (hold : ∀ number r, b.async.caller ≠ .waiting number r)
    (hssl : s'.ssl = b.async.ssl) (hcommands : s'.commands = b.async.commands)
    (hreplies : s'.replies = b.async.replies) (hanswers : s'.answers = b.async.answers)
    (hready : (s'.activated = true ∧ Caller.outside s'.caller = true) ∨
      s'.loop.base.caller () = .destroyingAttr 0 → ∃ j, Ready s'.loop j)
    (hlaunches : (s'.loop.base.caller ()).launches = true →
      ∀ j < b.async.loop.base.created, (phase b.async.loop j).cleaned = true)
    (hactivated : sync.activated = activeSync s')
    (hdue : Due s'.loop → sync.ssl = (b.async.settled config).cleanup)
    (hreleased : ¬ Due s'.loop → sync.ssl = b.async.settled config) :
    Linked config ⟨s', sync, b.answers⟩ := by
  have hsettled : s'.settled config = b.async.settled config := by
    simp [State.settled, hssl, hcommands]
  refine ⟨hcalls, hloop, hready, fun number r heq => absurd heq (hcaller number r), fun j hj => ?_,
    fun hl j hj => ?_, hactivated, fun h => hsettled ▸ hdue h, fun h => hsettled ▸ hreleased h,
    fun j hj => ?_, ?_, ?_, ?_⟩
  · rw [h.phase]
    exact hs.older j (by rwa [h.created] at hj)
  · rw [h.phase]
    exact hlaunches hl j (by rwa [h.created] at hj)
  · rw [hcommands]
    exact hs.drained j (by rwa [h.phase] at hj)
  · have hqueue := hs.queue
    unfold Queue at hqueue ⊢
    simp only [hreplies, hcommands]
    cases hc : s'.caller with
    | waiting number r => exact absurd hc (hcaller number r)
    | _ =>
        cases hb : b.async.caller with
        | waiting number r => exact absurd hb (hold number r)
        | _ => simpa [hb] using hqueue
  · have hanswered := hs.answers
    unfold owed at hanswered ⊢
    simp only [hanswers]
    cases hc : s'.caller with
    | waiting number r => exact absurd hc (hcaller number r)
    | _ =>
        cases hb : b.async.caller with
        | waiting number r => exact absurd hb (hold number r)
        | _ => simpa [hb] using hanswered
  · rw [hanswers]
    exact hs.own

theorem linked_activate (hs : Linked config b) {s' : Cycles.State κ χ}
    (hsteady : Steady b .activate) (h : activate b.async = some s') :
    Linked config ⟨s', b.sync.activate.1, b.answers⟩ := by
  have hcalls := calls_activate hs.calls h
  rcases hsteady with ⟨hstopped, hclean⟩
  cases hcaller : b.async.caller with
  | idle =>
      simp only [activate, hcaller] at h
      rcases Option.map_eq_some_iff.1 h with ⟨l', hl', rfl⟩
      have hidle := hs.calls.idle hcaller
      have hloop := steadyLoop_run hs.calls.loop hs.loop hidle hstopped hl'
      rcases run_cases hidle hl' with ⟨hkeeps, ⟨hne, -⟩ | ⟨-, hstate, hpc, hret⟩⟩
      · exact absurd hstopped hne
      have hnone : ∀ l'' : Loop, (∀ j, phase l'' j = phase b.async.loop j) → ¬ Due l'' := by
        intro l'' hphase
        refine not_due_of_cleaned fun j => ?_
        rw [hphase]
        exact cleaned_or_absent hs.calls.loop hclean j
      simp only [State.resume, hret] at hcalls ⊢
      refine hs.keeps hkeeps hcalls hloop (by simp) (by simp [hcaller]) rfl rfl rfl rfl ?_
        (fun _ => hclean) rfl (fun hdue => absurd hdue (hnone l' hkeeps.phase))
        (fun _ => hs.released (hnone _ fun _ => rfl))
      rintro (⟨-, hout⟩ | hattr)
      · cases hout
      · simp [hpc] at hattr
  | _ => simp [activate, hcaller] at h

theorem linked_deactivate (hs : Linked config b) {s' : Cycles.State κ χ}
    (h : deactivate config b.async = some s') :
    Linked config ⟨s', b.sync.deactivate.1, b.answers⟩ := by
  have hcalls := calls_deactivate hs.calls h
  cases hcaller : b.async.caller with
  | idle =>
      have hactive := hs.activated
      simp only [activeSync, hcaller] at hactive
      simp only [deactivate, hcaller] at h
      split at h
      · rename_i hactivated
        cases h
        simpa [Sync.deactivate, hactive, hactivated] using hs
      rename_i hactivated
      rw [Bool.not_eq_false] at hactivated
      rcases Option.map_eq_some_iff.1 h with ⟨l', hl', rfl⟩
      have hidle := hs.calls.idle hcaller
      rcases hs.running (.inl ⟨hactivated, by simp [hcaller, Caller.outside]⟩) with ⟨j, hready⟩
      have hloop := steadyLoop_stop hs.loop hidle hl'
      have hssl : b.sync.deactivate.1.ssl = (b.async.settled config).cleanup := by
        simp [Sync.deactivate, hactive, hactivated, hs.released (hs.not_due hready)]
      have hoff : b.sync.deactivate.1.activated = false := by
        simp [Sync.deactivate, hactive, hactivated]
      have hdue : ∀ l'' : Loop, Keeps b.async.loop l'' → l''.base.state = .stopRequested →
          Due l'' := fun l'' hkeeps hstate =>
        ⟨j, .inl ⟨(hkeeps.phase j).trans hready.live, hstate⟩⟩
      rcases stop_cases hidle hl' with ⟨hkeeps, ⟨hstop, -⟩ | ⟨-, hstate, hpc, hret⟩ |
        ⟨hstate, hpc, hret⟩⟩
      · -- The loop was not asked to stop before.
        rcases hready.state with hnow | hnow <;> simp [hnow] at hstop
      · simp only [State.resume, hret] at hcalls ⊢
        refine hs.keeps hkeeps hcalls hloop (by simp) (by simp [hcaller]) rfl rfl rfl rfl ?_
          (by simp [hpc, RunStop.CallPc.launches]) hoff (fun _ => hssl)
          (fun hnot => absurd (hdue l' hkeeps hstate) hnot)
        rintro (⟨-, hout⟩ | hattr)
        · cases hout
        · simp [hpc] at hattr
      · simp only [State.resume, hret] at hcalls ⊢
        refine hs.keeps hkeeps hcalls hloop (by simp) (by simp [hcaller]) rfl rfl rfl rfl ?_
          (by simp [hpc, RunStop.CallPc.launches]) hoff (fun _ => hssl)
          (fun hnot => absurd (hdue l' hkeeps hstate) hnot)
        rintro (⟨hon, -⟩ | hattr)
        · simp at hon
        · simp [hpc] at hattr
  | _ => simp [deactivate, hcaller] at h

theorem Linked.spawns (hs : Linked config b) {l' : Loop} (h : Spawns b.async.loop l')
    (hcalls : Calls { b.async with loop := l' }) (hloop : SteadyLoop l')
    (hlaunches : (b.async.loop.base.caller ()).launches = true)
    (hpc : l'.base.caller () = .destroyingAttr 0) (hstate : l'.base.state = b.async.loop.base.state) :
    Linked config ⟨{ b.async with loop := l' }, b.sync, b.answers⟩ := by
  have hclean := hs.launches hlaunches
  have hold : ¬ Due b.async.loop :=
    not_due_of_cleaned (cleaned_or_absent hs.calls.loop hclean)
  have hready : Ready l' b.async.loop.base.created := by
    refine (hloop.live _ h.new).resolve_left ?_
    rw [hstate, hs.loop.launches hlaunches]
    exact nofun
  have holder : ∀ j, j + 1 < l'.base.created → (phase l' j).cleaned = true := by
    intro j hj
    rw [h.created] at hj
    rw [h.others j (by omega)]
    exact hclean j (by omega)
  have hnot : ¬ Due l' := by
    rw [due_iff hcalls.loop holder h.created.symm]
    rcases hready.state with hnow | hnow <;> simp [h.new, hnow]
  refine ⟨hcalls, hloop, fun _ => ⟨_, hready⟩, hs.waiting, holder, ?_, hs.activated,
    fun hdue => absurd hdue hnot, fun _ => hs.released hold, fun j hj => ?_, hs.queue, hs.answers,
    hs.own⟩
  · simp only [hpc]
    exact nofun
  · have hne : j ≠ b.async.loop.base.created := by
      rintro rfl
      rw [h.new] at hj
      cases hj
    exact hs.drained j (by rwa [h.others j hne] at hj)

theorem linked_call (hs : Linked config b) {s' : Cycles.State κ χ} (h : call b.async 0 = some s') :
    Linked config ⟨s', b.sync, b.answers⟩ := by
  have hcalls := calls_call hs.calls h
  have hactive := hs.activated
  cases hcaller : b.async.caller with
  | activating =>
      simp only [activeSync, hcaller] at hactive
      simp only [call, hcaller] at h
      rcases Option.map_eq_some_iff.1 h with ⟨l', hl', rfl⟩
      have hrunning : Running (b.async.loop.base.caller ()) := by
        simpa [hcaller, Caller.At] using hs.calls.caller
      have hloop := steadyLoop_call hs.calls.loop hs.loop hl'
      rcases call_run_cases hrunning hl' with ⟨hstate, -, ⟨hkeeps, hlaunches, -, hne, hret⟩ |
        ⟨hspawns, hlaunches, hpc, hret⟩ | ⟨hkeeps, hpc, r, hret, hzero, hback⟩⟩
      · have hdue := due_congr hkeeps.phase hstate
        simp only [State.resume, hcaller, hret] at hcalls ⊢
        refine hs.keeps hkeeps hcalls hloop (by simp) (by simp [hcaller]) rfl rfl rfl rfl
          ?_ (fun _ => hs.launches hlaunches) (by simp [activeSync, hactive])
          (fun h => hs.due (hdue.1 h)) (fun h => hs.released fun h' => h (hdue.2 h'))
        rintro (⟨-, hout⟩ | hattr)
        · simp [Caller.outside] at hout
        · exact absurd hattr hne
      · have hresume : b.async.resume l' = { b.async with loop := l' } := by
          simp [State.resume, hcaller, hret]
        rw [hresume] at hcalls ⊢
        exact hs.spawns hspawns hcalls hloop hlaunches hpc hstate
      · have hdue := due_congr hkeeps.phase hstate
        rcases hback rfl with ⟨status, hstatus, hr⟩
        have hr : r = 0 := hr (hs.loop.status status hstatus).1
        simp only [State.resume, hcaller, hret] at hcalls ⊢
        refine hs.keeps hkeeps hcalls hloop (by simp) (by simp [hcaller]) rfl rfl rfl rfl
          (fun _ => ?_) (by simp [hpc, RunStop.CallPc.launches])
          (by simp [activeSync, hactive, hr]) (fun h => hs.due (hdue.1 h))
          (fun h => hs.released fun h' => h (hdue.2 h'))
        rcases hs.running (.inr (hzero hr)) with ⟨j, hj⟩
        exact ⟨j, hj.keeps hkeeps hstate⟩
  | deactivating before =>
      simp only [activeSync, hcaller] at hactive
      simp only [call, hcaller] at h
      rcases Option.map_eq_some_iff.1 h with ⟨l', hl', rfl⟩
      have hwriting : ∃ before, b.async.loop.base.caller () = .writing before := by
        simpa [hcaller, Caller.At] using hs.calls.caller
      rcases hwriting with ⟨w, hw⟩
      have hloop := steadyLoop_call hs.calls.loop hs.loop hl'
      rcases call_stop_cases hw hl' with ⟨hkeeps, hstate, hpc, hret⟩
      have hdue := due_congr hkeeps.phase hstate
      simp only [State.resume, hcaller, hret] at hcalls ⊢
      refine hs.keeps hkeeps hcalls hloop (by simp) (by simp [hcaller]) rfl rfl rfl rfl ?_
        (by simp [hpc, RunStop.CallPc.launches]) (by simp [activeSync, hactive])
        (fun h => hs.due (hdue.1 h)) (fun h => hs.released fun h' => h (hdue.2 h'))
      rintro (⟨hon, -⟩ | hattr)
      · simp at hon
      · simp [hpc] at hattr
  | _ => simp [call, hcaller] at h

/-- Without a call in flight another command is sent. -/
theorem Linked.send (hs : Linked config b) {c : Command κ χ} {sync : Sync κ χ}
    (hcaller : b.async.caller = .idle)
    (hcalls : Calls { b.async with commands := b.async.commands ++ [c] })
    (hasks : asks c = false) (hactivated : sync.activated = b.async.activated)
    (hdue : Due b.async.loop → c.generates = false ∧ sync.ssl = b.sync.ssl)
    (hreleased : ¬ Due b.async.loop → sync.ssl = c.execute config b.sync.ssl) :
    Linked config ⟨{ b.async with commands := b.async.commands ++ [c] }, sync, b.answers⟩ := by
  have hqueue := hs.queue
  have hanswers := hs.answers
  simp only [Queue, hcaller] at hqueue
  simp only [owed, hcaller] at hanswers
  have hsettled : State.settled config { b.async with commands := b.async.commands ++ [c] } =
      c.execute config (b.async.settled config) := by
    simp [State.settled]
  refine ⟨hcalls, hs.loop, hs.running, hs.waiting, hs.older, hs.launches, ?_, fun h => ?_,
    fun h => ?_, fun j hj d hd => ?_, ?_, ?_, hs.own⟩
  · simpa [activeSync, hcaller] using hactivated
  · rw [hsettled, execute_of_not_generates (hdue h).1, (hdue h).2]
    exact hs.due h
  · rw [hsettled, hreleased h, hs.released h]
  · rcases List.mem_append.1 hd with hd | hd
    · exact hs.drained j hj d hd
    · rw [List.mem_singleton.1 hd]
      exact (hdue ⟨j, .inr (.inr hj)⟩).1
  · simp only [Queue, hcaller]
    refine ⟨hqueue.1, fun d hd => ?_⟩
    rcases List.mem_append.1 hd with hd | hd
    · exact hqueue.2 d hd
    · rw [List.mem_singleton.1 hd]
      exact hasks
  · simpa [owed, hcaller] using hanswers

theorem Linked.active (hs : Linked config b) (hcaller : b.async.caller = .idle) :
    b.sync.activated = b.async.activated := by
  have hactive := hs.activated
  rwa [activeSync, hcaller] at hactive

theorem linked_crypto (hs : Linked config b) {input : Operations.CryptoInput}
    {s' : Cycles.State κ χ} (h : Cycles.crypto b.async input = some s') :
    Linked config ⟨s', b.sync, b.answers⟩ := by
  have hcalls : Calls s' := calls_step config (a := .crypto input) hs.calls h
  unfold Cycles.crypto at h
  repeat' split at h
  all_goals cases h
  · exact hs
  · rename_i hcaller _ _
    exact hs.send hcaller hcalls rfl (hs.active hcaller) (fun _ => ⟨rfl, rfl⟩) (fun _ => rfl)

theorem linked_prepare (hs : Linked config b) {e : GenerateEnv κ χ} {s' : Cycles.State κ χ}
    (h : prepare b.async e = some s') :
    Linked config ⟨s', (b.sync.prepare config e).1, b.answers⟩ := by
  have hcalls : Calls s' := calls_step config (a := .prepare e) hs.calls h
  unfold prepare at h
  repeat' split at h
  all_goals cases h
  · rename_i hcaller hactivated
    simpa [Sync.prepare, hs.active hcaller, hactivated] using hs
  · rename_i hcaller hactivated
    rw [Bool.not_eq_false] at hactivated
    have hactive := (hs.active hcaller).trans hactivated
    rcases hs.running (.inl ⟨hactivated, by simp [hcaller, Caller.outside]⟩) with ⟨j, hready⟩
    exact hs.send hcaller hcalls rfl (by simp [Sync.prepare, hactive, hactivated])
      (fun hdue => absurd hdue (hs.not_due hready))
      (fun _ => by simp [Sync.prepare, hactive, Command.execute])

/-- The request is the last command, and its answer is owed. -/
theorem linked_request (hs : Linked config b) {r : Request κ χ} {s' : Cycles.State κ χ}
    (hsteady : Steady b (.request r)) (h : Cycles.request b.async r = some s') :
    Linked config ⟨s', b.sync, b.answers ++ [(r, answer config b.sync.ssl r)]⟩ := by
  have hcalls : Calls s' := calls_step config (a := .request r) hs.calls h
  have hactivated : b.async.activated = true := hsteady
  unfold Cycles.request at h
  split at h <;> cases h
  rename_i hcaller
  have hrun := hs.running (.inl ⟨hactivated, by simp [hcaller, Caller.outside]⟩)
  rcases hrun with ⟨j, hready⟩
  have hnot := hs.not_due hready
  have hqueue := hs.queue
  have hanswers := hs.answers
  simp only [Queue, hcaller] at hqueue
  simp only [owed, hcaller, List.append_nil] at hanswers
  refine ⟨hcalls, hs.loop, fun _ => ⟨j, hready⟩, fun _ _ _ => hactivated, hs.older, hs.launches,
    hs.active hcaller, fun hdue => absurd hdue hnot, fun _ => ?_, fun i hi d hd => ?_,
    .inl ⟨hqueue.1, b.async.commands, rfl, hqueue.2⟩, ?_, hs.own⟩
  · simpa [State.settled, Command.execute] using hs.released hnot
  · exact absurd ⟨i, .inr (.inr hi)⟩ hnot
  · simp [owed, hanswers]

/-- The reply is the one that is owed. -/
theorem linked_receive (hs : Linked config b) {s' : Cycles.State κ χ}
    (h : receive b.async = some s') : Linked config ⟨s', b.sync, b.answers⟩ := by
  have hcalls : Calls s' := calls_step config (a := .receive) hs.calls h
  unfold receive at h
  split at h <;> cases h
  rename_i number r reply rest hcaller hreplies
  have hactive := hs.activated
  have hqueue := hs.queue
  have hanswers := hs.answers
  simp only [activeSync, hcaller] at hactive
  simp only [Queue, hcaller, hreplies] at hqueue
  simp only [owed, hcaller] at hanswers
  rcases hqueue with ⟨hnil, -⟩ | ⟨hone, hasks⟩
  · cases hnil
  simp only [List.cons.injEq] at hone
  rcases hone with ⟨rfl, rfl⟩
  refine ⟨hcalls, hs.loop, fun hrun => ?_, nofun, hs.older, hs.launches, hactive, hs.due,
    hs.released, hs.drained, ⟨rfl, hasks⟩, ?_, fun a ha => ?_⟩
  · refine hs.running (hrun.imp (fun hon => ⟨hon.1, ?_⟩) id)
    simp [hcaller, Caller.outside]
  · simp [owed, hanswers]
  · rcases List.mem_append.1 ha with ha | ha
    · exact hs.own a ha
    · rw [List.mem_singleton.1 ha]

theorem reply_of_not_asks {c : Command κ χ} (hc : asks c = false) (ssl : SslContext κ χ) :
    c.reply config ssl = [] := by
  cases c with
  | generate e => rfl
  | crypto input => rfl
  | request number r => cases hc

/-- The thread executes a command. -/
theorem linked_command (hs : Linked config b) {j : Nat} {s' : Cycles.State κ χ}
    (h : command config b.async j = some s') : Linked config ⟨s', b.sync, b.answers⟩ := by
  have hcalls : Calls s' := calls_step config (a := .command j) hs.calls h
  unfold command at h
  split at h <;> cases h
  rename_i c rest hpolling hcommands
  have hsettled : State.settled config { b.async with
      commands := rest
      ssl := c.execute config b.async.ssl
      replies := b.async.replies ++ c.reply config b.async.ssl } = b.async.settled config := by
    simp [State.settled, hcommands]
  refine ⟨hcalls, hs.loop, hs.running, hs.waiting, hs.older, hs.launches, hs.activated,
    fun hdue => hsettled ▸ hs.due hdue, fun hnot => hsettled ▸ hs.released hnot,
    fun i hi d hd => hs.drained i hi d (by rw [hcommands]; exact List.mem_cons_of_mem _ hd),
    ?_, hs.answers, hs.own⟩
  have hqueue := hs.queue
  unfold Queue at hqueue ⊢
  cases hcaller : b.async.caller with
  | waiting number r =>
      simp only [hcaller, hcommands] at hqueue ⊢
      rcases hqueue with ⟨hnil, sent, hsent, hasks⟩ | ⟨hone, hasks⟩
      · cases sent with
        | nil =>
            -- The request itself: all commands before it have been executed.
            simp only [List.nil_append, List.cons.injEq] at hsent
            rcases hsent with ⟨rfl, rfl⟩
            have hactivated := hs.waiting number r hcaller
            rcases hs.running (.inl ⟨hactivated, by simp [hcaller, Caller.outside]⟩)
              with ⟨i, hready⟩
            have hssl : b.sync.ssl = b.async.ssl := by
              rw [hs.released (hs.not_due hready), State.settled, hcommands]
              rfl
            refine .inr ⟨?_, by simp⟩
            rw [hnil, hssl]
            rfl
        | cons d sent =>
            simp only [List.cons_append, List.cons.injEq] at hsent
            rcases hsent with ⟨rfl, rfl⟩
            refine .inl ⟨?_, sent, rfl, fun d hd => hasks d (List.mem_cons_of_mem _ hd)⟩
            rw [hnil, reply_of_not_asks (hasks c List.mem_cons_self)]
            rfl
      · refine .inr ⟨?_, fun d hd => hasks d (List.mem_cons_of_mem _ hd)⟩
        rw [hone, reply_of_not_asks (hasks c List.mem_cons_self)]
        rfl
  | _ =>
      simp only [hcaller, hcommands] at hqueue ⊢
      refine ⟨?_, fun d hd => hqueue.2 d (List.mem_cons_of_mem _ hd)⟩
      rw [hqueue.1, reply_of_not_asks (hqueue.2 c List.mem_cons_self)]
      rfl

theorem linked_step {b' : Both κ χ} {a : Cycles.Act κ χ} (hs : Linked config b)
    (hsteady : Steady b a) (h : step config b a = some b') : Linked config b' := by
  rcases Option.map_eq_some_iff.1 h with ⟨s', hs', rfl⟩
  cases a with
  | activate => simpa [syncStep, syncAnswer] using linked_activate hs hsteady hs'
  | prepare e => simpa [syncStep, syncAnswer] using linked_prepare hs hs'
  | crypto input => simpa [syncStep, syncAnswer] using linked_crypto hs hs'
  | request r => exact linked_request hs hsteady hs'
  | deactivate => simpa [syncStep, syncAnswer] using linked_deactivate hs hs'
  | call ret =>
      have hret : ret = 0 := hsteady
      subst hret
      simpa [syncStep, syncAnswer] using linked_call hs hs'
  | receive => simpa [syncStep, syncAnswer] using linked_receive hs hs'
  | thread j ret => simpa [syncStep, syncAnswer] using linked_thread hs hsteady hs'
  | command j => simpa [syncStep, syncAnswer] using linked_command hs hs'
  | take j =>
      rcases Option.map_eq_some_iff.1 hs' with ⟨l', hl', rfl⟩
      simpa [syncStep, syncAnswer] using linked_take hs hsteady hl'
  | cleanup j published => simpa [syncStep, syncAnswer] using linked_cleanup hs hs'
  | delete j =>
      rcases Option.map_eq_some_iff.1 hs' with ⟨l', hl', rfl⟩
      simpa [syncStep, syncAnswer] using linked_delete hs hl'

end LinkedStep

/-! ## Returning -/

section Return

variable {config : SslConfig} {b b' : Both κ χ}

theorem canReturn_of_step {a : Cycles.Act κ χ} (ha : ByLoop a) (h : step config b a = some b')
    (hb' : CanReturn config b') : CanReturn config b := by
  rcases hb' with ⟨as, t, hall, hexec, hidle⟩
  refine ⟨a :: as, t, fun d hd => ?_, Run.exec_cons_some.2 ⟨b', h, hexec⟩, hidle⟩
  rcases List.mem_cons.1 hd with rfl | hd
  · exact ha
  · exact hall d hd

theorem canReturn_of_reply {number : Nat} {r : Request κ χ}
    (hcaller : b.async.caller = .waiting number r) (hreplies : b.async.replies ≠ []) :
    CanReturn config b := by
  cases hr : b.async.replies with
  | nil => exact absurd hr hreplies
  | cons reply rest =>
      have hstep : step config b .receive = some
          { b with async := { b.async with
              caller := .idle
              replies := rest
              answers := b.async.answers ++ [⟨number, r, reply⟩] } } := by
        simp [step, Cycles.step, receive, hcaller, hr, syncStep, syncAnswer]
      refine ⟨[.receive], _, fun a ha => ?_, Run.exec_cons_some.2 ⟨_, hstep, rfl⟩, rfl⟩
      rw [List.mem_singleton.1 ha]
      trivial

/-- A thread that polls executes the commands one after another. -/
theorem canReturn_of_polling {number : Nat} {r : Request κ χ} {j : Nat}
    (hcaller : b.async.caller = .waiting number r)
    (hpolling : b.async.loop.base.thread j = .polling)
    (hpending : b.async.replies ≠ [] ∨ ∃ c ∈ b.async.commands, asks c = true) :
    CanReturn config b := by
  generalize hcommands : b.async.commands = commands at hpending
  induction commands generalizing b with
  | nil =>
      rcases hpending with hreplies | ⟨c, hc, -⟩
      · exact canReturn_of_reply hcaller hreplies
      · cases hc
  | cons c rest ih =>
      have hstep : step config b (.command j) = some
          { b with async := { b.async with
              commands := rest
              ssl := c.execute config b.async.ssl
              replies := b.async.replies ++ c.reply config b.async.ssl } } := by
        simp [step, Cycles.step, command, hpolling, hcommands, syncStep, syncAnswer]
      refine canReturn_of_step (a := .command j) trivial hstep (ih hcaller hpolling rfl ?_)
      rcases hpending with hreplies | ⟨d, hd, hasks⟩
      · exact .inl (by simp [hreplies])
      · rcases List.mem_cons.1 hd with rfl | hd
        · left
          cases d with
          | request number r => simp [Command.reply]
          | _ => cases hasks
        · exact .inr ⟨d, hd, hasks⟩

/-- The steps up to the first poll. -/
def untilPoll : RunStop.ThreadPc → Nat
  | .entry => 4
  | .prepare => 3
  | .starting => 2
  | .looping => 1
  | _ => 0

theorem Ready.loopStep {l : Loop} {j : Nat} {ret : Int} {t : RunStop.State Unit} (hready : Ready l j)
    (h : RunStop.threadStep l.base j ret = some t) :
    Cycles.loopStep l (.base (.thread j ret)) = some { l with base := t } := by
  have hb : RunStop.step true l.base (.thread j ret) = some t := h
  simp only [Cycles.loopStep, StopHandler.step, StopHandler.baseStep, hb, Option.bind_some]
  unfold Ready at hready
  cases hpc : l.base.thread j <;> simp [hpc] at hready ⊢

/-- A thread that is ready comes nearer to its first poll, or polls. -/
theorem ready_runs {l : Loop} {j : Nat} (hs : SteadyLoop l) (hpos : 0 < l.base.created)
    (hready : Ready l j) : l.base.thread j = .polling ∨
      ∃ l', Cycles.loopStep l (.base (.thread j 0)) = some l' ∧
        untilPoll (l'.base.thread j) < untilPoll (l.base.thread j) := by
  rcases hs.parameters (.inl hpos) with ⟨hsize, hcount⟩
  have hstep {t : RunStop.State Unit} := @Ready.loopStep l j 0 t hready
  unfold Ready at hready
  cases hpc : l.base.thread j with
  | polling => exact .inl rfl
  | entry =>
      refine .inr ⟨{ l with base := l.base.setThread j .prepare }, ?_, ?_⟩
      · exact hstep (by simp [RunStop.threadStep, hpc, hsize, hcount])
      · simp [RunStop.State.setThread, untilPoll]
  | prepare =>
      refine .inr ⟨{ l with base := l.base.setThread j .starting }, ?_, ?_⟩
      · exact hstep (by simp [RunStop.threadStep, hpc])
      · simp [RunStop.State.setThread, untilPoll]
  | starting =>
      simp only [hpc] at hready
      refine .inr ⟨{ l with base := { l.base with state := .started }.setThread j .looping }, ?_,
        ?_⟩
      · exact hstep (by simp [RunStop.threadStep, hpc, hready])
      · simp [RunStop.State.setThread, untilPoll]
  | looping =>
      simp only [hpc] at hready
      refine .inr ⟨{ l with base := { l.base with loopCount := -1 }.setThread j .polling }, ?_, ?_⟩
      · exact hstep (by simp [RunStop.threadStep, hpc, hready, hcount])
      · simp [RunStop.State.setThread, untilPoll]
  | _ => simp [hpc] at hready

theorem canReturn_of_ready {number : Nat} {r : Request κ χ} {j : Nat} (n : Nat)
    (hn : untilPoll (b.async.loop.base.thread j) = n) (hcalls : Calls b.async)
    (hs : SteadyLoop b.async.loop) (hready : Ready b.async.loop j)
    (hcaller : b.async.caller = .waiting number r)
    (hpending : b.async.replies ≠ [] ∨ ∃ c ∈ b.async.commands, asks c = true) :
    CanReturn config b := by
  induction n using Nat.strong_induction_on generalizing b with
  | _ n ih =>
      have hlast := (hcalls.loop.last j hready.live).1
      rcases ready_runs hs (by omega) hready with hpolling | ⟨l', hl', hlt⟩
      · exact canReturn_of_polling hcaller hpolling hpending
      · have htimeout : ¬ (b.async.loop.base.thread j = .polling ∧ (0 : Int) = -ETIMEDOUT) := by
          rintro ⟨-, h⟩
          revert h
          decide
        have hthread : thread b.async j 0 = some { b.async with loop := l' } := by
          rw [thread, if_neg htimeout, hl']
          rfl
        have hstep : step config b (.thread j 0) =
            some { b with async := { b.async with loop := l' } } := by
          simp [step, Cycles.step, hthread, syncStep, syncAnswer]
        rcases steadyLoop_thread hcalls.loop hs (fun _ => rfl) htimeout hl' with ⟨hs', hready'⟩
        refine canReturn_of_step (a := .thread j 0) rfl hstep
          (ih _ (hn ▸ hlt) rfl (calls_thread hcalls hthread) hs' (hready' ?_) hcaller hpending)
        rcases hready.state with hstate | hstate <;> simp [hstate]

theorem Linked.alike (hs : Linked config b) : Alike config b := by
  refine ⟨fun number r hcaller => ?_, hs.own, fun k a ha => ?_, fun hidle => ?_⟩
  · have hactivated := hs.waiting number r hcaller
    rcases hs.running (.inl ⟨hactivated, by simp [hcaller, Caller.outside]⟩) with ⟨j, hready⟩
    refine canReturn_of_ready _ rfl hs.calls hs.loop hready hcaller ?_
    have hqueue := hs.queue
    simp only [Queue, hcaller] at hqueue
    rcases hqueue with ⟨-, sent, hsent, -⟩ | ⟨hone, -⟩
    · exact .inr ⟨.request number r, by simp [hsent], rfl⟩
    · exact .inl (by simp [hone])
  · rw [hs.answers, List.getElem?_append_left (by
      simpa using (List.getElem?_eq_some_iff.1 ha).1)]
    simp [ha]
  · have hqueue := hs.queue
    simp only [Queue, hidle] at hqueue
    exact hqueue.1

end Return

/-- An asynchronous authenticator answers like a synchronous one on which the same calls are made, and
each of its calls comes back with its own reply. -/
theorem answers_alike (config : SslConfig) (ssl : SslContext κ χ) (allocated : Bool)
    (as : List (Cycles.Act κ χ)) (b : Both κ χ)
    (hsteady : Run.Along (step config) Steady (.created ssl allocated) as)
    (hexec : Run.exec (step config) (.created ssl allocated) as = some b) : Alike config b :=
  (Run.exec_invariant (fun _ _ _ hs hsteady h => linked_step hs hsteady h)
    (linked_created config ssl allocated) hsteady hexec).alike

/-! ## Fixed runs -/

/-- Nothing fails; key pairs and certificates are one byte long. -/
def keyEnv : KeyEnv Nat Nat where
  bioNew := true
  writePrivateKey keypair := some [UInt8.ofNat keypair]
  getPubkey x509 := some x509
  getRsa := true
  writePublicKey keypair := some [UInt8.ofNat keypair]
  writeX509 x509 := some [UInt8.ofNat x509]
  calloc := true
  base64 := 0

/-- `GetKey` before `Activate`: nobody will ever answer, and a synchronous authenticator returns
`-EINVAL` at once. -/
theorem request_before_activate : ∃ b,
    Run.exec (step unconfigured) (.created noKeys true) [.request (.getKey .privateKey keyEnv)] =
      some b ∧ b.answers = [(.getKey .privateKey keyEnv, .error (-EINVAL))] ∧
    ¬ Alike unconfigured b := by
  refine ⟨_, rfl, rfl, fun halike => ?_⟩
  rcases halike.returns 0 _ rfl with ⟨as, t, hloop, hexec, hidle⟩
  cases as with
  | nil =>
      cases hexec
      cases hidle
  | cons a as =>
      rcases Run.exec_cons_some.1 hexec with ⟨b', hb', -⟩
      have ha := hloop a List.mem_cons_self
      -- There is no thread, and no reply.
      cases a with
      | thread j ret => cases hb'
      | command j => cases hb'
      | receive => cases hb'
      | _ => cases ha

/-- A cycle with requests before and behind the keys are made, a cleanup, and another cycle. -/
def requests : List (Cycles.Act Nat Nat) :=
  [.activate, .call 0, .call 0, .call 0, .call 0, .request (.getKey .privateKey keyEnv),
    .thread 0 0, .thread 0 0, .thread 0 0, .thread 0 0, .command 0, .receive, .prepare generating,
    .request (.getKey .privateKey keyEnv), .command 0, .command 0, .receive,
    .request (.generateSignature [1] ⟨none, fun keypair data => UInt8.ofNat keypair :: data⟩),
    .command 0, .receive, .deactivate, .thread 0 0, .call 0, .thread 0 0, .thread 0 0, .take 0,
    .cleanup 0 true, .delete 0, .activate, .call 0, .call 0, .call 0, .call 0,
    .request (.getKey .certificate keyEnv), .thread 1 0, .thread 1 0, .thread 1 0, .thread 1 0,
    .command 1, .receive]

set_option maxRecDepth 4000 in
theorem requests_alike : ∃ b,
    Run.exec (step unconfigured) (.created noKeys true) requests = some b ∧
    b.answers.map Prod.snd = [.error (-EINVAL), .ok (.key ⟨[7], 1⟩), .ok (.signature [7, 1]),
      .error (-EINVAL)] ∧ Alike unconfigured b :=
  ⟨_, rfl, rfl, answers_alike unconfigured noKeys true requests _ (by decide) rfl⟩

end Answers
end Authenticator
end Beyond
