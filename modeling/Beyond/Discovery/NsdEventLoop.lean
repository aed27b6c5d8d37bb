import Mathlib.Data.Finset.Basic
import Beyond.Base.Ledger
import Beyond.Base.Platform
import Beyond.Base.Run

/-!
# The event loop of the discovery

`NsdEventLoop` keeps a callback for each descriptor that its thread waits for.  The map and the set in
the kernel are changed one after the other, and the thread looks up the callback of each descriptor
that the kernel names, without a way out where there is none.

The calls are steps, with `quit` taken apart at its `join`, and so are the system calls, lookups and
callbacks of the thread, which may call `addWatch` and `delWatch`.  `epoll_ctl`, `eventfd` and `write`
fail whenever they like.  The eventfds behind `looprun_fd` are numbered in a ledger.
-/

namespace Beyond
namespace Discovery
namespace NsdEventLoop

open Errno

/-- What the thread of the loop is at. -/
inductive Thread
  | waiting
  /-- `epoll_pwait` has named a descriptor. -/
  | fetched (fd : Int)
  | callback (fd : Int)
  | exited
  deriving DecidableEq, Repr

structure State (κ : Type*) where
  callbackMap : Int → Option κ
  /-- The descriptors that are registered in `epoll_fd`. -/
  epoll : Finset Int
  looprunFd : Int
  /-- The eventfd behind `looprunFd`, and whether it was written to. -/
  eventfd : Nat
  signalled : Bool
  /-- The thread, if it was started and not joined. -/
  loop : Option Thread
  /-- A `quit` is at its `join`. -/
  quitting : Bool
  eventfds : Ledger

variable {κ : Type*}

/-- The constructor. -/
def State.created : State κ :=
  ⟨fun _ => none, ∅, -1, 0, false, none, false, Ledger.empty⟩

/-- What comes of a step: the call goes on, returns or throws an `NsdLoopException`, or the end of the
map is dereferenced. -/
inductive Outcome (κ : Type*)
  | goesOn (s : State κ)
  | returned (s : State κ)
  | threw (s : State κ) (ret : Int)
  | wild

/-! ## Calls -/

namespace State

/-- A failing `epoll_ctl` is given by its `errno`. -/
def addWatch (s : State κ) (fd : Int) (cb : κ) (errno : Option Int) : Outcome κ :=
  if (s.callbackMap fd).isSome then .threw s (-EEXIST)
  else
    let inserted := { s with callbackMap := Function.update s.callbackMap fd (some cb) }
    match errno with
    | some errno =>
        .threw { inserted with callbackMap := Function.update inserted.callbackMap fd none } (-errno)
    | none => .returned { inserted with epoll := insert fd inserted.epoll }

def delWatch (s : State κ) (fd : Int) (errno : Option Int) : Outcome κ :=
  if (s.callbackMap fd).isNone then .threw s (-ENOENT)
  else
    let erased := { s with callbackMap := Function.update s.callbackMap fd none }
    match errno with
    | some _ => .returned erased
    | none => .returned { erased with epoll := erased.epoll.erase fd }

/-- `close(looprun_fd)`, which takes the descriptor out of every epoll set. -/
def closeLooprun (s : State κ) : State κ :=
  { s with
    epoll := s.epoll.erase s.looprunFd
    eventfds := s.eventfds.free s.eventfd
    looprunFd := -1 }

/-- `eventfd` is what `eventfd()` returns, if it does not fail. -/
def run (s : State κ) (eventfd : Option Int) (errno : Option Int) : Outcome κ :=
  match eventfd with
  | none => .threw { s with looprunFd := -1 } (-EFAULT)
  | some fd =>
      let opened :=
        { s with
          looprunFd := fd
          eventfd := s.eventfds.allocated
          signalled := false
          eventfds := s.eventfds.alloc }
      match errno with
      | some errno => .threw opened.closeLooprun (-errno)
      | none =>
          .returned { opened with epoll := insert fd opened.epoll, loop := some .waiting }

/-- `quit` up to its `join`. -/
def quit (s : State κ) (write : Option Int) : Outcome κ :=
  if s.looprunFd = -1 then .returned s
  else
    match write with
    | some errno => .threw s (-errno)
    | none => .goesOn { s with signalled := true, quitting := true }

/-- The rest of `quit`; `errno` is that of `EPOLL_CTL_DEL`. -/
def quitJoined (s : State κ) (errno : Option Int) : Outcome κ :=
  let joined := { s with loop := none, quitting := false }
  match errno with
  | some _ => .returned joined.closeLooprun
  | none => .returned { joined with epoll := joined.epoll.erase joined.looprunFd }.closeLooprun

/-- The thread behind `epoll_pwait`. -/
def lookup (s : State κ) (fd : Int) : Outcome κ :=
  if fd = s.looprunFd then .goesOn { s with loop := some .exited }
  else
    match s.callbackMap fd with
    -- The miss is logged, and the end of the map dereferenced.
    | none => .wild
    | some _ => .goesOn { s with loop := some (.callback fd) }

end State

/-! ## Steps -/

inductive Act (κ : Type*)
  | addWatch (fd : Int) (cb : κ) (errno : Option Int)
  | delWatch (fd : Int) (errno : Option Int)
  | run (eventfd : Option Int) (errno : Option Int)
  | quit (write : Option Int)
  | quitJoined (errno : Option Int)
  /-- `epoll_pwait` names a descriptor or is interrupted. -/
  | wake (fd : Option Int)
  | lookup (fd : Int)
  | callbackEnd (fd : Int)
  deriving DecidableEq, Repr

/-- Where `delWatch` may be called: in a callback, or while the thread does not run. -/
def MayDelete (s : State κ) : Prop :=
  match s.loop with
  | none | some (.callback _) | some .exited => True
  | some .waiting | some (.fetched _) => False

/-- What callers and the kernel can do.  A descriptor is registered once, and an eventfd gets a number
that no registered descriptor has. -/
def Enabled (s : State κ) : Act κ → Prop
  | .addWatch fd _ errno => errno = none → 0 ≤ fd ∧ fd ∉ s.epoll
  | .delWatch fd errno => MayDelete s ∧ (errno = none → fd ∈ s.epoll)
  | .run eventfd _ => s.loop = none ∧ ∀ fd ∈ eventfd, 0 ≤ fd ∧ fd ∉ s.epoll
  | .quit _ => s.quitting = false
  | .quitJoined _ => s.quitting = true ∧ s.loop = some .exited
  | .wake fd => s.loop = some .waiting ∧
      ∀ n ∈ fd, n ∈ s.epoll ∧ (n = s.looprunFd → s.signalled = true)
  | .lookup fd => s.loop = some (.fetched fd)
  | .callbackEnd fd => s.loop = some (.callback fd)

instance (s : State κ) : Decidable (MayDelete s) :=
  match h : s.loop with
  | none | some (.callback _) | some .exited => isTrue (by simp [MayDelete, h])
  | some .waiting | some (.fetched _) => isFalse (by simp [MayDelete, h])

instance (s : State κ) : ∀ a, Decidable (Enabled s a)
  | .addWatch fd _ errno => inferInstanceAs (Decidable (errno = none → 0 ≤ fd ∧ fd ∉ s.epoll))
  | .delWatch fd errno =>
      inferInstanceAs (Decidable (MayDelete s ∧ (errno = none → fd ∈ s.epoll)))
  | .run eventfd _ =>
      inferInstanceAs (Decidable (s.loop = none ∧ ∀ fd ∈ eventfd, 0 ≤ fd ∧ fd ∉ s.epoll))
  | .quit _ => inferInstanceAs (Decidable (s.quitting = false))
  | .quitJoined _ => inferInstanceAs (Decidable (s.quitting = true ∧ s.loop = some .exited))
  | .wake fd => inferInstanceAs (Decidable (s.loop = some .waiting ∧
      ∀ n ∈ fd, n ∈ s.epoll ∧ (n = s.looprunFd → s.signalled = true)))
  | .lookup fd => inferInstanceAs (Decidable (s.loop = some (.fetched fd)))
  | .callbackEnd fd => inferInstanceAs (Decidable (s.loop = some (.callback fd)))

def perform (s : State κ) : Act κ → Outcome κ
  | .addWatch fd cb errno => s.addWatch fd cb errno
  | .delWatch fd errno => s.delWatch fd errno
  | .run eventfd errno => s.run eventfd errno
  | .quit write => s.quit write
  | .quitJoined errno => s.quitJoined errno
  | .wake (some fd) => .goesOn { s with loop := some (.fetched fd) }
  | .wake none => .goesOn s
  | .lookup fd => s.lookup fd
  | .callbackEnd _ => .goesOn { s with loop := some .waiting }

def Outcome.state : Outcome κ → Option (State κ)
  | .goesOn s | .returned s | .threw s _ => some s
  | .wild => none

def step (s : State κ) (a : Act κ) : Option (State κ) :=
  if Enabled s a then (perform s a).state else none

/-! ## Laws -/

/-- Every registered descriptor other than `looprun_fd` has a callback. -/
def Covered (s : State κ) : Prop :=
  ∀ fd ∈ s.epoll, fd ≠ s.looprunFd → (s.callbackMap fd).isSome

/-- No thread is running, the descriptor of the loop is not registered any more, and every eventfd was
closed once. -/
structure Stopped (s t : State κ) : Prop where
  thread : t.loop = none
  unregistered : s.looprunFd ∉ t.epoll ∧ t.looprunFd = -1
  closed : t.eventfds.Balanced []

def Act.IsQuit : Act κ → Prop
  | .quit _ | .quitJoined _ => True
  | _ => False

def Act.Restores : Act κ → Prop
  | .addWatch _ _ _ | .run _ _ => True
  | _ => False

def Lawful (s : State κ) (a : Act κ) : Outcome κ → Prop
  | .goesOn t => Covered t
  | .returned t => Covered t ∧ (a.IsQuit → Stopped s t)
  | .threw t _ =>
      Covered t ∧ (a.Restores → t.callbackMap = s.callbackMap ∧ t.epoll = s.epoll)
  | .wild => False

def Laws (s : State κ) (a : Act κ) : Prop := Enabled s a → Lawful s a (perform s a)

/-- A `delWatch` of a descriptor with a callback takes it out of the kernel's set. -/
def Clean (s : State κ) (a : Act κ) : Prop :=
  Enabled s a →
    match a with
    | .delWatch fd errno => (s.callbackMap fd).isSome → errno = none
    | _ => True

/-! ## The invariant -/

structure Inv (s : State κ) : Prop where
  covered : Covered s
  keys : ∀ fd, (s.callbackMap fd).isSome → fd ∈ s.epoll ∧ fd ≠ s.looprunFd
  nonneg : ∀ fd ∈ s.epoll, 0 ≤ fd
  fetched : ∀ fd, s.loop = some (.fetched fd) → fd = s.looprunFd ∨ (s.callbackMap fd).isSome
  idle : s.loop = none → s.looprunFd = -1 ∧ s.eventfds.Balanced []
  running : s.loop ≠ none → s.looprunFd ∈ s.epoll ∧ s.eventfds.Balanced [s.eventfd]

theorem Inv.created : Inv (State.created : State κ) where
  covered := by
    intro fd hfd
    cases hfd
  keys := by
    intro fd hfd
    cases hfd
  nonneg := by
    intro fd hfd
    cases hfd
  fetched := by
    intro fd hfd
    cases hfd
  idle := fun _ => ⟨rfl, .empty⟩
  running := fun h => absurd rfl h

section

variable {s : State κ}

/-- No number stands for the descriptor of a loop that is not running. -/
theorem Inv.ne_looprun (h : Inv s) (hidle : s.loop = none) {fd : Int} (hfd : 0 ≤ fd) :
    fd ≠ s.looprunFd := by
  rw [(h.idle hidle).1]
  omega

theorem Inv.ne_looprun_of_notMem (h : Inv s) {fd : Int} (hfd : 0 ≤ fd ∧ fd ∉ s.epoll) :
    fd ≠ s.looprunFd := by
  by_cases hidle : s.loop = none
  · exact h.ne_looprun hidle hfd.1
  · rintro rfl
    exact hfd.2 (h.running hidle).1

theorem Inv.minus_one_not_mem (h : Inv s) : -1 ∉ s.epoll := by
  intro hmem
  have hnonneg := h.nonneg (-1) hmem
  omega

/-- The thread goes on to something else than a descriptor that it has to look up. -/
theorem Inv.moved (h : Inv s) (thread : Thread) (hloop : s.loop ≠ none)
    (hthread : ∀ fd, thread = .fetched fd → fd = s.looprunFd ∨ (s.callbackMap fd).isSome) :
    Inv { s with loop := some thread } where
  covered := h.covered
  keys := h.keys
  nonneg := h.nonneg
  fetched := fun fd hfd => hthread fd (Option.some.inj hfd)
  idle := by
    intro hnone
    cases hnone
  running := fun _ => h.running hloop

/-! ## `addWatch` -/

theorem addWatch_failed {fd : Int} {cb : κ} {errno : Int} (hfree : s.callbackMap fd = none) :
    s.addWatch fd cb (some errno) = .threw s (-errno) := by
  -- The entry that was inserted is erased again.
  have hmap : Function.update (Function.update s.callbackMap fd (some cb)) fd none =
      s.callbackMap := by
    rw [Function.update_idem, ← hfree, Function.update_eq_self]
  simp only [State.addWatch, hfree, Option.isSome_none, Bool.false_eq_true, if_false, hmap]

theorem addWatch_added {fd : Int} {cb : κ} (hfree : s.callbackMap fd = none) :
    s.addWatch fd cb none = .returned { s with
      callbackMap := Function.update s.callbackMap fd (some cb)
      epoll := insert fd s.epoll } := by
  simp only [State.addWatch, hfree, Option.isSome_none, Bool.false_eq_true, if_false]

theorem isSome_update_some {map : Int → Option κ} {fd n : Int} {cb : κ} :
    (Function.update map fd (some cb) n).isSome ↔ n = fd ∨ (map n).isSome := by
  by_cases hn : n = fd
  · subst hn
    simp
  · simp [hn]

theorem isSome_update_none {map : Int → Option κ} {fd n : Int} :
    (Function.update map fd none n).isSome ↔ n ≠ fd ∧ (map n).isSome := by
  by_cases hn : n = fd
  · subst hn
    simp
  · simp [hn]

theorem Inv.added (h : Inv s) {fd : Int} (cb : κ) (hfd : 0 ≤ fd ∧ fd ∉ s.epoll)
    (hlooprun : fd ≠ s.looprunFd) :
    Inv { s with
      callbackMap := Function.update s.callbackMap fd (some cb)
      epoll := insert fd s.epoll } where
  covered := by
    intro n hn hne
    refine isSome_update_some.2 ?_
    rcases Finset.mem_insert.1 hn with rfl | hn
    · exact .inl rfl
    · exact .inr (h.covered n hn hne)
  keys := by
    intro n hn
    rcases isSome_update_some.1 hn with rfl | hn
    · exact ⟨Finset.mem_insert_self n _, hlooprun⟩
    · exact ⟨Finset.mem_insert_of_mem (h.keys n hn).1, (h.keys n hn).2⟩
  nonneg := by
    intro n hn
    rcases Finset.mem_insert.1 hn with rfl | hn
    · exact hfd.1
    · exact h.nonneg n hn
  fetched := by
    intro n hn
    exact (h.fetched n hn).imp_right fun hsome => isSome_update_some.2 (.inr hsome)
  idle := h.idle
  running := fun hloop => ⟨Finset.mem_insert_of_mem (h.running hloop).1, (h.running hloop).2⟩

/-! ## `delWatch` -/

theorem Inv.deleted (h : Inv s) (fd : Int) (hmay : MayDelete s) (hlooprun : fd ≠ s.looprunFd) :
    Inv { s with
      callbackMap := Function.update s.callbackMap fd none
      epoll := s.epoll.erase fd } where
  covered := by
    intro n hn hne
    rcases Finset.mem_erase.1 hn with ⟨hnfd, hn⟩
    exact isSome_update_none.2 ⟨hnfd, h.covered n hn hne⟩
  keys := by
    intro n hn
    rcases isSome_update_none.1 hn with ⟨hnfd, hn⟩
    exact ⟨Finset.mem_erase.2 ⟨hnfd, (h.keys n hn).1⟩, (h.keys n hn).2⟩
  nonneg := fun n hn => h.nonneg n (Finset.mem_of_mem_erase hn)
  fetched := by
    intro n hn
    -- The thread has no lookup before it.
    have hloop : s.loop = some (.fetched n) := hn
    simp only [MayDelete, hloop] at hmay
  idle := h.idle
  running := fun hloop =>
    ⟨Finset.mem_erase.2 ⟨hlooprun.symm, (h.running hloop).1⟩, (h.running hloop).2⟩

/-- A descriptor whose entry was erased and that is still registered is not covered. -/
theorem delWatch_uncovered (h : Inv s) {fd : Int} (hsome : (s.callbackMap fd).isSome)
    (errno : Int) : ¬ Lawful s (.delWatch fd (some errno)) (s.delWatch fd (some errno)) := by
  have hnotNone : (s.callbackMap fd).isNone = false := by
    rw [Option.isNone_eq_false_iff]
    exact hsome
  have hdel : s.delWatch fd (some errno) =
      .returned { s with callbackMap := Function.update s.callbackMap fd none } := by
    simp only [State.delWatch, hnotNone, Bool.false_eq_true, if_false]
  rw [hdel]
  rintro ⟨hcovered, -⟩
  rcases h.keys fd hsome with ⟨hmem, hne⟩
  exact (isSome_update_none.1 (hcovered fd hmem hne)).1 rfl

/-! ## `run` and `quit` -/

/-- The kernel forgets an eventfd that is closed. -/
theorem Inv.ran (h : Inv s) (hidle : s.loop = none) {fd : Int} (hfd : 0 ≤ fd ∧ fd ∉ s.epoll) :
    Inv { s with
      looprunFd := fd
      eventfd := s.eventfds.allocated
      signalled := false
      eventfds := s.eventfds.alloc
      epoll := insert fd s.epoll
      loop := some .waiting } where
  covered := by
    intro n hn hne
    rcases Finset.mem_insert.1 hn with rfl | hn
    · exact absurd rfl hne
    · exact h.covered n hn (h.ne_looprun hidle (h.nonneg n hn))
  keys := by
    intro n hn
    have hmem := (h.keys n hn).1
    refine ⟨Finset.mem_insert_of_mem hmem, ?_⟩
    rintro rfl
    exact hfd.2 hmem
  nonneg := by
    intro n hn
    rcases Finset.mem_insert.1 hn with rfl | hn
    · exact hfd.1
    · exact h.nonneg n hn
  fetched := by
    intro n hn
    cases hn
  idle := by
    intro hnone
    cases hnone
  running := fun _ => ⟨Finset.mem_insert_self fd _, (h.idle hidle).2.alloc⟩

theorem run_failed (h : Inv s) (hidle : s.loop = none) {fd : Int} (hfd : 0 ≤ fd ∧ fd ∉ s.epoll)
    (errno : Int) : ∃ t, s.run (some fd) (some errno) = .threw t (-errno) ∧ Inv t ∧
      t.callbackMap = s.callbackMap ∧ t.epoll = s.epoll := by
  have hepoll : s.epoll.erase fd = s.epoll := Finset.erase_eq_of_notMem hfd.2
  refine ⟨_, rfl, ?_, rfl, hepoll⟩
  refine
    { covered := ?_, keys := ?_, nonneg := ?_, fetched := ?_, idle := ?_, running := ?_ }
  · intro n hn _
    have hn : n ∈ s.epoll := Finset.mem_of_mem_erase hn
    exact h.covered n hn (h.ne_looprun hidle (h.nonneg n hn))
  · intro n hn
    have hmem := (h.keys n hn).1
    refine ⟨?_, ?_⟩
    · have hclosed : n ∈ s.epoll.erase fd := hepoll.symm ▸ hmem
      exact hclosed
    · rintro rfl
      exact h.minus_one_not_mem hmem
  · intro n hn
    exact h.nonneg n (Finset.mem_of_mem_erase hn)
  · intro n hn
    exact absurd (Eq.trans (Eq.symm hidle) hn) (by simp)
  · intro _
    -- The eventfd was opened and closed.
    exact ⟨rfl, (h.idle hidle).2.alloc.free⟩
  · intro hne
    exact absurd hidle hne

/-- What is left behind the `join`. -/
def State.afterQuit (s : State κ) : State κ :=
  { s with
    loop := none
    quitting := false
    epoll := s.epoll.erase s.looprunFd
    eventfds := s.eventfds.free s.eventfd
    looprunFd := -1 }

/-- `EPOLL_CTL_DEL` makes no difference, since the eventfd is closed. -/
theorem quitJoined_eq (s : State κ) (errno : Option Int) :
    s.quitJoined errno = .returned s.afterQuit := by
  cases errno with
  | none =>
      simp only [State.quitJoined, State.closeLooprun, State.afterQuit, Finset.erase_idem]
  | some errno => rfl

theorem Inv.quitJoined (h : Inv s) (hloop : s.loop ≠ none) :
    Inv s.afterQuit ∧ Stopped s s.afterQuit := by
  have hbalanced : s.afterQuit.eventfds.Balanced [] := (h.running hloop).2.free
  refine ⟨?_, rfl, ⟨Finset.notMem_erase _ _, rfl⟩, hbalanced⟩
  refine
    { covered := ?_, keys := ?_, nonneg := ?_, fetched := ?_, idle := ?_, running := ?_ }
  · intro n hn _
    rcases Finset.mem_erase.1 hn with ⟨hne, hn⟩
    exact h.covered n hn hne
  · intro n hn
    rcases h.keys n hn with ⟨hmem, hne⟩
    refine ⟨Finset.mem_erase.2 ⟨hne, hmem⟩, ?_⟩
    rintro rfl
    exact h.minus_one_not_mem hmem
  · intro n hn
    exact h.nonneg n (Finset.mem_of_mem_erase hn)
  · intro n hn
    cases hn
  · exact fun _ => ⟨rfl, hbalanced⟩
  · exact fun hne => absurd rfl hne

/-- A `quit` that finds no loop. -/
theorem Inv.stopped (h : Inv s) (hlooprun : s.looprunFd = -1) : Stopped s s := by
  have hidle : s.loop = none := by
    by_contra hloop
    have hmem := (h.running hloop).1
    rw [hlooprun] at hmem
    exact h.minus_one_not_mem hmem
  refine ⟨hidle, ⟨?_, hlooprun⟩, (h.idle hidle).2⟩
  rw [hlooprun]
  exact h.minus_one_not_mem

/-! ## One step -/

/-- The state behind the step has the invariant. -/
def Outcome.Keeps : Outcome κ → Prop
  | .goesOn t | .returned t | .threw t _ => Inv t
  | .wild => False

theorem Outcome.Keeps.state {out : Outcome κ} (h : out.Keeps) {t : State κ}
    (hstate : out.state = some t) : Inv t := by
  cases out with
  | goesOn u =>
      cases hstate
      exact h
  | returned u =>
      cases hstate
      exact h
  | threw u ret =>
      cases hstate
      exact h
  | wild => exact h.elim

theorem addWatch_good (h : Inv s) {fd : Int} {cb : κ} {errno : Option Int}
    (henabled : Enabled s (.addWatch fd cb errno)) :
    (s.addWatch fd cb errno).Keeps ∧
      Lawful s (.addWatch fd cb errno) (s.addWatch fd cb errno) := by
  cases hentry : s.callbackMap fd with
  | some other =>
      have hexists : s.addWatch fd cb errno = .threw s (-EEXIST) := by
        simp [State.addWatch, hentry]
      rw [hexists]
      exact ⟨h, h.covered, fun _ => ⟨rfl, rfl⟩⟩
  | none =>
      cases errno with
      | some errno =>
          rw [addWatch_failed hentry]
          exact ⟨h, h.covered, fun _ => ⟨rfl, rfl⟩⟩
      | none =>
          have hfd : 0 ≤ fd ∧ fd ∉ s.epoll := henabled rfl
          have hadded := h.added cb hfd (h.ne_looprun_of_notMem hfd)
          rw [addWatch_added hentry]
          exact ⟨hadded, hadded.covered, fun hquit => hquit.elim⟩

theorem delWatch_good (h : Inv s) {fd : Int} {errno : Option Int}
    (henabled : Enabled s (.delWatch fd errno)) (hclean : Clean s (.delWatch fd errno)) :
    (s.delWatch fd errno).Keeps ∧ Lawful s (.delWatch fd errno) (s.delWatch fd errno) := by
  cases hentry : s.callbackMap fd with
  | none =>
      have hmissing : s.delWatch fd errno = .threw s (-ENOENT) := by
        simp [State.delWatch, hentry]
      rw [hmissing]
      exact ⟨h, h.covered, fun hrestores => hrestores.elim⟩
  | some cb =>
      have hsome : (s.callbackMap fd).isSome := by simp [hentry]
      cases hclean henabled hsome
      have hdel : s.delWatch fd none = .returned { s with
          callbackMap := Function.update s.callbackMap fd none
          epoll := s.epoll.erase fd } := by
        simp [State.delWatch, hentry]
      have hdeleted := h.deleted fd henabled.1 (h.keys fd hsome).2
      rw [hdel]
      exact ⟨hdeleted, hdeleted.covered, fun hquit => hquit.elim⟩

theorem run_good (h : Inv s) {eventfd errno : Option Int}
    (henabled : Enabled s (.run eventfd errno)) :
    (s.run eventfd errno).Keeps ∧ Lawful s (.run eventfd errno) (s.run eventfd errno) := by
  rcases henabled with ⟨hidle, hnumber⟩
  cases eventfd with
  | none =>
      -- `looprun_fd` was -1 before.
      have hsame : { s with looprunFd := -1 } = s := by
        rw [← (h.idle hidle).1]
      have hrun : s.run none errno = .threw s (-EFAULT) := by
        simp only [State.run, hsame]
      rw [hrun]
      exact ⟨h, h.covered, fun _ => ⟨rfl, rfl⟩⟩
  | some fd =>
      have hfd := hnumber fd rfl
      cases errno with
      | some errno =>
          rcases run_failed h hidle hfd errno with ⟨t, hrun, hinv, hmap, hepoll⟩
          rw [hrun]
          exact ⟨hinv, hinv.covered, fun _ => ⟨hmap, hepoll⟩⟩
      | none =>
          have hran := h.ran hidle hfd
          exact ⟨hran, hran.covered, fun hquit => hquit.elim⟩

theorem quit_good (h : Inv s) {write : Option Int} :
    (s.quit write).Keeps ∧ Lawful s (.quit write) (s.quit write) := by
  unfold State.quit
  split
  · next hlooprun => exact ⟨h, h.covered, fun _ => h.stopped hlooprun⟩
  · cases write with
    | some errno => exact ⟨h, h.covered, fun hrestores => hrestores.elim⟩
    | none =>
        have hsignalled : Inv { s with signalled := true, quitting := true } :=
          ⟨h.covered, h.keys, h.nonneg, h.fetched, h.idle, h.running⟩
        exact ⟨hsignalled, hsignalled.covered⟩

theorem lookup_good (h : Inv s) {fd : Int} (henabled : Enabled s (.lookup fd)) :
    (s.lookup fd).Keeps ∧ Lawful s (.lookup fd) (s.lookup fd) := by
  have hloop : s.loop = some (.fetched fd) := henabled
  have hne : s.loop ≠ none := by simp [hloop]
  unfold State.lookup
  split
  · have hexited := h.moved .exited hne (fun n hn => by cases hn)
    exact ⟨hexited, hexited.covered⟩
  · next hlooprun =>
      -- Any other descriptor that the kernel names has an entry.
      have hsome := (h.fetched fd hloop).resolve_left hlooprun
      rcases Option.isSome_iff_exists.1 hsome with ⟨cb, hcb⟩
      rw [hcb]
      have hcallback := h.moved (.callback fd) hne (fun n hn => by cases hn)
      exact ⟨hcallback, hcallback.covered⟩

theorem wake_good (h : Inv s) {fd : Option Int} (henabled : Enabled s (.wake fd)) :
    (perform s (.wake fd)).Keeps ∧ Lawful s (.wake fd) (perform s (.wake fd)) := by
  rcases henabled with ⟨hloop, hfd⟩
  cases fd with
  | none => exact ⟨h, h.covered⟩
  | some fd =>
      have hne : s.loop ≠ none := by simp [hloop]
      have hfetched := h.moved (.fetched fd) hne (fun n hn => by
        cases hn
        by_cases hlooprun : fd = s.looprunFd
        · exact .inl hlooprun
        · exact .inr (h.covered fd (hfd fd rfl).1 hlooprun))
      exact ⟨hfetched, hfetched.covered⟩

/-- A clean step from a state of the invariant keeps it and is lawful. -/
theorem clean_good (h : Inv s) {a : Act κ} (henabled : Enabled s a) (hclean : Clean s a) :
    (perform s a).Keeps ∧ Lawful s a (perform s a) := by
  cases a with
  | addWatch fd cb errno => exact addWatch_good h henabled
  | delWatch fd errno => exact delWatch_good h henabled hclean
  | run eventfd errno => exact run_good h henabled
  | quit write => exact quit_good h
  | quitJoined errno =>
      have hne : s.loop ≠ none := by simp [henabled.2]
      rcases h.quitJoined hne with ⟨hinv, hstopped⟩
      simp only [perform, quitJoined_eq]
      exact ⟨hinv, hinv.covered, fun _ => hstopped⟩
  | wake fd => exact wake_good h henabled
  | lookup fd => exact lookup_good h henabled
  | callbackEnd fd =>
      have hloop : s.loop = some (.callback fd) := henabled
      have hwaiting := h.moved .waiting (by simp [hloop]) (fun n hn => by cases hn)
      exact ⟨hwaiting, hwaiting.covered⟩

theorem laws_iff_clean (h : Inv s) (a : Act κ) : Laws s a ↔ Clean s a := by
  constructor
  · intro hlaws henabled
    have hlawful := hlaws henabled
    cases a with
    | delWatch fd errno =>
        intro hsome
        cases errno with
        | none => rfl
        | some errno => exact absurd hlawful (delWatch_uncovered h hsome errno)
    | addWatch fd cb errno => trivial
    | run eventfd errno => trivial
    | quit write => trivial
    | quitJoined errno => trivial
    | wake fd => trivial
    | lookup fd => trivial
    | callbackEnd fd => trivial
  · exact fun hclean henabled => (clean_good h henabled hclean).2

theorem clean_preserved : Run.Preserved step Clean (fun s : State κ => Inv s) := by
  intro s a t h hclean hstep
  unfold step at hstep
  split at hstep
  · next henabled => exact (clean_good h henabled hclean).1.state hstep
  · cases hstep

end

/-- From the constructor on, the loop keeps its laws in exactly the runs in which no `delWatch` of a
watched descriptor fails in the kernel. -/
theorem no_miss_iff (acts : List (Act κ)) :
    Run.Along step Laws (State.created : State κ) acts ↔
      Run.Along step Clean (State.created : State κ) acts :=
  Run.along_congr clean_preserved (fun _ a h => laws_iff_clean h a) Inv.created

/-! ## A descriptor that stays registered -/

def staleWatch : List (Act Unit) := [.addWatch 5 () none, .delWatch 5 (some ENOENT)]

/-- The callback is erased, and the descriptor is not. -/
theorem staleWatch_unlawful : ¬ Run.Along step Laws (State.created : State Unit) staleWatch := by
  rintro ⟨-, hrest⟩
  have hlaws := (hrest _ rfl).1
  have hlawful := hlaws (by decide)
  have hsome := hlawful.1 5 (by decide) (by decide)
  exact absurd hsome (by decide)

end NsdEventLoop
end Discovery
end Beyond
