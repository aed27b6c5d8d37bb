import Beyond.EventLoop.Construction

/-!
# Descriptors of a new authenticator

`Authenticator::Create` opens the pipe of the results and, for the asynchronous mode, an event object, an
event loop and a socket pair.  For the event object and the socket pair the first two arguments of
`fcntl` are swapped: descriptor `F_SETFD`, which is 2, gets the number of the new descriptor as its
command.  What that does depends on the number.
-/

namespace Beyond
namespace Authenticator
namespace Create

open Construction

inductive Step
  | new
  | pipe
  | pfd0
  | pfd1
  | eventObject (s : EventObject.Step)
  | eventLoop (s : Construction.EventLoop.Step)
  | stopHandler
  | socketpair
  | spfd0
  | spfd1
  | command
  | asyncCommand
  | handler (s : Construction.EventLoop.HandlerStep)
  | outputConsumer
  | outputProducer
  deriving DecidableEq, Repr

/-- `Create` returns null, or `make_unique` throws and nobody catches it. -/
inductive Exit
  | null
  | threw
  deriving DecidableEq, Repr

structure Instance where
  object : Nat
  pfd : Nat × Nat
  eventObject : Option EventObject
  eventLoop : Option Construction.EventLoop.Impl
  spfd : Option (Nat × Nat)

variable (k : Kernel)

/-- `fcntl(F_SETFD, fd, FD_CLOEXEC)`. -/
def swappedFcntl (p : Process) (fails : Bool) (fd : Nat) : Bool × Process :=
  p.fcntl k fails F_SETFD fd FD_CLOEXEC

/-- `Authenticator::EventObject::Create`. -/
def createEventObject (fails : EventObject.Step → Bool) (p : Process) : Option EventObject × Process :=
  EventObject.createWith k fails (swappedFcntl k) p

variable (fails : Step → Bool)

/-- The new authenticator with the pipe of its results. -/
def openOutput (p : Process) : Option (Nat × Nat × Nat) × Process :=
  if fails .new then (none, p)
  else
    let impl := (p.new []).1
    let p := (p.new []).2
    if fails .pipe then (none, p.delete impl)
    else
      let pfd := (p.openPair k false).1
      let pfd0 := (p.openPair k false).2.fcntl k (fails .pfd0) pfd.1 F_SETFD FD_CLOEXEC
      if pfd0.1 = false then (none, ((pfd0.2.close pfd.1).close pfd.2).delete impl)
      else
        let pfd1 := pfd0.2.fcntl k (fails .pfd1) pfd.2 F_SETFD FD_CLOEXEC
        if pfd1.1 = false then (none, ((pfd1.2.close pfd.1).close pfd.2).delete impl)
        else (some (impl, pfd), pfd1.2)

/-- The clean-up that the later exits repeat. -/
def undo (impl : Nat) (pfd : Nat × Nat) (eventObject : EventObject)
    (eventLoop : Construction.EventLoop.Impl) (p : Process) : Process :=
  (((eventObject.destroy (Construction.EventLoop.destroy eventLoop p)).close pfd.1).close pfd.2).delete
    impl

/-- The command channel of a new authenticator with its event object and its loop. -/
def createCommands (impl : Nat) (pfd : Nat × Nat) (eventObject : EventObject)
    (eventLoop : Construction.EventLoop.Impl) (p : Process) : Except Exit Instance × Process :=
  if fails .socketpair then (.error .null, undo impl pfd eventObject eventLoop p)
  else
    let spfd := (p.openPair k false).1
    let spfd0 := swappedFcntl k (p.openPair k false).2 (fails .spfd0) spfd.1
    if spfd0.1 = false then
      (.error .null, undo impl pfd eventObject eventLoop ((spfd0.2.close spfd.1).close spfd.2))
    else
      let spfd1 := swappedFcntl k spfd0.2 (fails .spfd1) spfd.2
      if spfd1.1 = false then
        (.error .null, undo impl pfd eventObject eventLoop ((spfd1.2.close spfd.1).close spfd.2))
      else if fails .command then (.error .threw, spfd1.2)
      else
        let command := CommandObject.new impl spfd.1 spfd1.2
        if fails .asyncCommand then (.error .threw, command.2)
        else
          let asyncCommand := CommandObject.new impl spfd.2 command.2
          let added :=
            Construction.EventLoop.addHandler (fun s => fails (.handler s)) eventLoop.pimpl
              asyncCommand.1.object impl asyncCommand.2
          match added.1 with
          | none =>
              -- `delete impl` deletes the command objects, too
              (.error .null,
                ((undo impl pfd eventObject eventLoop
                  ((added.2.close spfd.1).close spfd.2)).delete command.1.object).delete
                    asyncCommand.1.object)
          | some _ => (.ok ⟨impl, pfd, some eventObject, some eventLoop, some spfd⟩, added.2)

/-- The part for `enableAsync`. -/
def connect (impl : Nat) (pfd : Nat × Nat) (p : Process) : Except Exit Instance × Process :=
  let created := createEventObject k (fun s => fails (.eventObject s)) p
  match created.1 with
  | none => (.error .null, ((created.2.close pfd.1).close pfd.2).delete impl)
  | some eventObject =>
      let created := Construction.EventLoop.create k (fun s => fails (.eventLoop s)) created.2
      match created.1 with
      | none =>
          (.error .null, (((eventObject.destroy created.2).close pfd.1).close pfd.2).delete impl)
      | some eventLoop =>
          -- the result of `SetStopHandler` is not looked at
          let p := if fails .stopHandler then created.2 else (created.2.new [impl]).2
          createCommands k fails impl pfd eventObject eventLoop p

def wrapOutput (i : Instance) (p : Process) : Except Exit Instance × Process :=
  if fails .outputConsumer then (.error .threw, p)
  else
    let outputConsumer := CommandObject.new i.object i.pfd.1 p
    if fails .outputProducer then (.error .threw, outputConsumer.2)
    else (.ok i, (CommandObject.new i.object i.pfd.2 outputConsumer.2).2)

def create (enableAsync : Bool) (p : Process) : Except Exit Instance × Process :=
  let opened := openOutput k fails p
  match opened.1 with
  | none => (.error .null, opened.2)
  | some (impl, pfd) =>
      if enableAsync then
        let connected := connect k fails impl pfd opened.2
        match connected.1 with
        | .error exit => (.error exit, connected.2)
        | .ok i => wrapOutput fails i connected.2
      else wrapOutput fails ⟨impl, pfd, none, none, none⟩ opened.2

/-! ## Accounts -/

def Instance.descriptors (i : Instance) : List Nat :=
  [i.pfd.1, i.pfd.2] ++ i.eventObject.elim [] (fun o => [o.handle, o.publishHandle]) ++
    i.eventLoop.elim [] Construction.EventLoop.Impl.fds ++ i.spfd.elim [] (fun spfd => [spfd.1, spfd.2])

/-- A call that fails has closed what it opened, once; after one that succeeds, what it opened is open and
closed on `exec`.  What was open before is as it was. -/
def Accounted (t t' : Descriptors) (held : Option (List Nat)) : Prop :=
  match held with
  | none => t.Grown t' []
  | some fds => t.Grown t' fds ∧ t'.ClosedOnExec fds

/-! ## When a swapped call matters -/

/-- The call fails: descriptor 2 is not open, or for a reason of its own. -/
def Refused (fails : Bool) (used : Finset Nat) : Prop := fails = true ∨ F_SETFD ∉ used

/-- As a command, the number duplicates descriptor 2 or clears flags that are set on it. -/
def Disturbs (t : Descriptors) (cmd : Nat) : Prop :=
  cmd = F_DUPFD ∨ cmd = F_DUPFD_CLOEXEC ∨
    cmd = F_SETFL ∧ ∃ d, t.entry F_SETFD = some d ∧ d.status ≠ 0

/-- A descriptor was opened and is lost, or descriptor 2 had status flags and has none. -/
def Spoilt (t t' : Descriptors) (fds : List Nat) : Prop :=
  (∃ n, n ∉ fds ∧ t.entry n = none ∧ t'.entry n ≠ none) ∨
    ∃ d d', t.entry F_SETFD = some d ∧ d.status ≠ 0 ∧ t'.entry F_SETFD = some d' ∧ d'.status = 0

/-- Since `t`, the descriptors in `fds` were opened and are open, and nothing else is left if and only if
`clean`. -/
structure Tracks (clean : Prop) (t t' : Descriptors) (fds : List Nat) : Prop where
  nodup : fds.Nodup
  fresh : ∀ n ∈ fds, t.entry n = none
  opened : ∀ n ∈ fds, t'.entry n ≠ none
  kept : ∀ n, t.entry n ≠ none → t'.entry n ≠ none
  grown : clean → t.Grown t' fds
  spoilt : ¬ clean → Spoilt t t' fds

theorem not_accounted_of_open {t t' : Descriptors} {n : Nat} (hfree : t.entry n = none)
    (hopened : t'.entry n ≠ none) : ¬ Accounted t t' none := by
  intro hgrown
  rw [hgrown.frame n List.not_mem_nil] at hopened
  exact hopened hfree

namespace Tracks

variable {k : Kernel} {clean clean' : Prop} {t t' t'' : Descriptors} {fds fds' new : List Nat} {n : Nat}

theorem of_grown (h : t.Grown t' fds) : Tracks True t t' fds where
  nodup := h.nodup
  fresh := h.fresh
  opened := h.opened
  kept n hn := by
    have hnot : n ∉ fds := fun hmem => hn (h.fresh n hmem)
    rw [h.frame n hnot]
    exact hn
  grown _ := h
  spoilt hnot := absurd trivial hnot

theorem congr (h : Tracks clean t t' fds) (hiff : clean ↔ clean') : Tracks clean' t t' fds where
  nodup := h.nodup
  fresh := h.fresh
  opened := h.opened
  kept := h.kept
  grown hclean := h.grown (hiff.2 hclean)
  spoilt hnot := h.spoilt fun hclean => hnot (hiff.1 hclean)

/-- What is spoilt stays so while the code works on other descriptors. -/
theorem trans (h : Tracks clean t t' fds) (h' : t'.Grown t'' new) :
    Tracks clean t t'' (new ++ fds) := by
  have hkept : ∀ n, t'.entry n ≠ none → t''.entry n = t'.entry n := fun n hn =>
    h'.frame n fun hmem => hn (h'.fresh n hmem)
  refine ⟨?_, ?_, ?_, ?_, fun hclean => (h.grown hclean).trans h', fun hnot => ?_⟩
  · exact h'.nodup.append h.nodup fun n hn' hn => h.opened n hn (h'.fresh n hn')
  · intro n hn
    rcases List.mem_append.1 hn with hnew | hn
    · exact not_not.1 (mt (h.kept n) (not_not.2 (h'.fresh n hnew)))
    · exact h.fresh n hn
  · intro n hn
    rcases List.mem_append.1 hn with hnew | hn
    · exact h'.opened n hnew
    · rw [hkept n (h.opened n hn)]
      exact h.opened n hn
  · intro n hn
    rw [hkept n (h.kept n hn)]
    exact h.kept n hn
  · rcases h.spoilt hnot with ⟨n, hn, hfree, hused⟩ | ⟨d, d', hd, hflags, hd', hzero⟩
    · refine .inl ⟨n, fun hmem => ?_, hfree, ?_⟩
      · rcases List.mem_append.1 hmem with hnew | hmem
        · exact hused (h'.fresh n hnew)
        · exact hn hmem
      · rw [hkept n hused]
        exact hused
    · refine .inr ⟨d, d', hd, hflags, ?_, hzero⟩
      rw [hkept _ (by simp [hd'])]
      exact hd'

theorem perm (h : Tracks clean t t' fds) (hperm : fds.Perm fds') : Tracks clean t t' fds' where
  nodup := hperm.nodup_iff.1 h.nodup
  fresh n hn := h.fresh n (hperm.mem_iff.2 hn)
  opened n hn := h.opened n (hperm.mem_iff.2 hn)
  kept := h.kept
  grown hclean := (h.grown hclean).perm hperm
  spoilt hnot := by
    rcases h.spoilt hnot with ⟨n, hn, hleft⟩ | hcleared
    · exact .inl ⟨n, fun hmem => hn (hperm.mem_iff.2 hmem), hleft⟩
    · exact .inr hcleared

theorem close (h : Tracks clean t t' (n :: fds)) : Tracks clean t (t'.close n) fds := by
  obtain ⟨d, hd⟩ := Option.ne_none_iff_exists'.1 (h.opened n List.mem_cons_self)
  obtain ⟨hentry, -, -⟩ := Descriptors.close_open hd
  obtain ⟨hn, hnodup⟩ := List.nodup_cons.1 h.nodup
  have hfree : t.entry n = none := h.fresh n List.mem_cons_self
  have hkept : ∀ m, m ≠ n → (t'.close n).entry m = t'.entry m := fun m hmn => by
    rw [hentry, Function.update_of_ne hmn]
  refine ⟨hnodup, ?_, ?_, ?_, fun hclean => (h.grown hclean).close, fun hnot => ?_⟩
  · exact fun m hm => h.fresh m (List.mem_cons_of_mem n hm)
  · intro m hm
    rw [hkept m fun heq => hn (heq ▸ hm)]
    exact h.opened m (List.mem_cons_of_mem n hm)
  · intro m hm
    rw [hkept m fun heq => hm (heq ▸ hfree)]
    exact h.kept m hm
  · rcases h.spoilt hnot with ⟨m, hm, hnone, hused⟩ | ⟨d, d', hd, hflags, hd', hzero⟩
    · rw [List.mem_cons, not_or] at hm
      refine .inl ⟨m, hm.2, hnone, ?_⟩
      rw [hkept m hm.1]
      exact hused
    · refine .inr ⟨d, d', hd, hflags, ?_, hzero⟩
      rw [hkept _ fun heq => by rw [heq, hfree] at hd; cases hd]
      exact hd'

theorem closeAll (ns : List Nat) (h : Tracks clean t t' fds) (hperm : fds.Perm (ns ++ fds')) :
    Tracks clean t (t'.closeAll ns) fds' := by
  have hheld := h.perm hperm
  clear h hperm
  induction ns generalizing t' with
  | nil => exact hheld
  | cons n ns ih => exact ih hheld.close

/-- A failed call is accounted for if nothing was spoilt. -/
theorem grown_nil_iff (h : Tracks clean t t' []) : Accounted t t' none ↔ clean := by
  refine ⟨fun hgrown => by_contra fun hnot => ?_, h.grown⟩
  rcases h.spoilt hnot with ⟨n, -, hfree, hused⟩ | ⟨d, d', hd, hflags, hd', hzero⟩
  · rw [hgrown.frame n List.not_mem_nil] at hused
    exact hused hfree
  · rw [hgrown.frame _ List.not_mem_nil, hd] at hd'
    cases hd'
    exact hflags hzero

/-- An exception leaves open what was open. -/
theorem not_accounted (h : Tracks clean t t' fds) (hn : n ∈ fds) : ¬ Accounted t t' none :=
  not_accounted_of_open (h.fresh n hn) (h.opened n hn)

end Tracks

/-! ## The swapped calls -/

section Swapped

variable {k : Kernel} {clean : Prop} {t t' : Descriptors} {fds : List Nat} {cmd : Nat}

/-- Where 2 is one of the new descriptors, only its flags change. -/
theorem Tracks.put_own {d d' : Descriptor} (h : Tracks clean t t' fds) (hown : F_SETFD ∈ fds)
    (hd : t'.entry F_SETFD = some d) (hopening : d'.opening = d.opening) :
    Tracks clean t (t'.put F_SETFD d') fds := by
  have hused : ∀ n, t'.entry n ≠ none → (t'.put F_SETFD d').entry n ≠ none := by
    intro n hn
    by_cases heq : n = F_SETFD
    · rw [heq, Descriptors.entry_put_self]
      exact Option.some_ne_none d'
    · rw [Descriptors.entry_put_of_ne t' d' heq]
      exact hn
  refine ⟨h.nodup, h.fresh, fun n hn => hused n (h.opened n hn), fun n hn => hused n (h.kept n hn),
    fun hclean => (h.grown hclean).put hown hd hopening, fun hnot => ?_⟩
  rcases h.spoilt hnot with ⟨n, hn, hfree, hleft⟩ | ⟨d₀, d₁, hd₀, -⟩
  · exact .inl ⟨n, hn, hfree, hused n hleft⟩
  · rw [h.fresh _ hown] at hd₀
    cases hd₀

/-- Where 2 was open before, its status flags are cleared. -/
theorem Tracks.put_other {d : Descriptor} (h : Tracks clean t t' fds) (hother : F_SETFD ∉ fds)
    (hd : t'.entry F_SETFD = some d) :
    Tracks (clean ∧ ¬ ∃ d, t.entry F_SETFD = some d ∧ d.status ≠ 0) t
      (t'.put F_SETFD { d with status := 0 }) fds := by
  have hused : ∀ n, t'.entry n ≠ none →
      (t'.put F_SETFD { d with status := 0 }).entry n ≠ none := by
    intro n hn
    by_cases heq : n = F_SETFD
    · rw [heq, Descriptors.entry_put_self]
      exact Option.some_ne_none _
    · rw [Descriptors.entry_put_of_ne t' _ heq]
      exact hn
  refine ⟨h.nodup, h.fresh, fun n hn => hused n (h.opened n hn), fun n hn => hused n (h.kept n hn),
    fun ⟨hclean, hflags⟩ => ?_, fun hnot => ?_⟩
  · -- no flag was set, so it is the same descriptor
    have hgrown := h.grown hclean
    have hbefore : t.entry F_SETFD = some d := (hgrown.frame _ hother).symm.trans hd
    have hzero : d.status = 0 := by_contra fun hne => hflags ⟨d, hbefore, hne⟩
    have hsame : ({ d with status := 0 } : Descriptor) = d := by rw [← hzero]
    rw [hsame]
    exact hgrown.put_same hd
  · by_cases hclean : clean
    · obtain ⟨d₀, hd₀, hflags⟩ := not_not.1 fun hnone => hnot ⟨hclean, hnone⟩
      exact .inr ⟨d₀, _, hd₀, hflags, Descriptors.entry_put_self t' _ _, rfl⟩
    · rcases h.spoilt hclean with ⟨n, hn, hfree, hleft⟩ | ⟨d₀, d₁, hd₀, hflags, -⟩
      · exact .inl ⟨n, hn, hfree, hused n hleft⟩
      · exact .inr ⟨d₀, _, hd₀, hflags, Descriptors.entry_put_self t' _ _, rfl⟩

/-- A duplicate of descriptor 2 is left open. -/
theorem Tracks.add {least status : Nat} {cloexec : Bool} (h : Tracks clean t t' fds) :
    Tracks False t (t'.add k least cloexec status) fds := by
  have hfree : t'.entry (t'.next k least) = none := Descriptors.entry_next t' least
  have hused : ∀ n, t'.entry n ≠ none → (t'.add k least cloexec status).entry n ≠ none := by
    intro n hn
    rw [Descriptors.entry_add_of_ne t' fun heq : n = t'.next k least => hn (heq ▸ hfree)]
    exact hn
  refine ⟨h.nodup, h.fresh, fun n hn => hused n (h.opened n hn), fun n hn => hused n (h.kept n hn),
    False.elim, fun _ => .inl ⟨t'.next k least, fun hmem => h.opened _ hmem hfree, ?_, ?_⟩⟩
  · exact not_not.1 (mt (h.kept _) (not_not.2 hfree))
  · rw [Descriptors.entry_add_self]
    exact Option.some_ne_none _

/-- The call is refused, or what it does to the table depends on the number. -/
theorem Tracks.swapped (h : Tracks clean t t' fds) (hcmd : cmd ∈ fds) (fails : Bool) :
    (Refused fails t'.used ∧ t'.fcntl k fails F_SETFD cmd FD_CLOEXEC = (false, t')) ∨
      ∃ t'', ¬ Refused fails t'.used ∧ t'.fcntl k fails F_SETFD cmd FD_CLOEXEC = (true, t'') ∧
        Tracks (clean ∧ ¬ Disturbs t cmd) t t'' fds ∧
        (¬ Disturbs t cmd → t''.used = t'.used) ∧
        ∀ n, n ≠ F_SETFD → t'.entry n ≠ none → t''.entry n = t'.entry n := by
  rcases Descriptors.fcntl_cases k t' fails F_SETFD cmd FD_CLOEXEC with
    ⟨hwhy, hcall⟩ | ⟨d, t'', hd, hsucceeds, hcall, heffect⟩
  · refine .inl ⟨hwhy.imp_right fun hnone => ?_, hcall⟩
    rw [t'.mem_used]
    exact not_not.2 hnone
  have hmem : F_SETFD ∈ t'.used := (t'.mem_used _).2 (by rw [hd]; exact Option.some_ne_none d)
  have hnotRefused : ¬ Refused fails t'.used := by
    rintro (hfails | hnone)
    · rw [hfails] at hsucceeds
      cases hsucceeds
    · exact hnone hmem
  refine .inr ⟨t'', hnotRefused, hcall, ?_⟩
  rcases heffect with ⟨hdup, cloexec, rfl⟩ | ⟨hsetfd, rfl⟩ | ⟨hsetfl, rfl⟩ | ⟨hdup, hsetfl, rfl⟩
  · have hdisturbs : Disturbs t cmd := hdup.elim .inl fun h => .inr (.inl h)
    refine ⟨h.add.congr (by simp [hdisturbs]), fun hnot => absurd hdisturbs hnot, ?_⟩
    intro n _ hn
    exact Descriptors.entry_add_of_ne t' fun heq => hn (heq ▸ Descriptors.entry_next t' FD_CLOEXEC)
  · -- the number is 2, so 2 is one of the new descriptors
    have hown : F_SETFD ∈ fds := hsetfd ▸ hcmd
    have hharmless : ¬ Disturbs t cmd := by
      rw [hsetfd]
      simp [Disturbs, F_DUPFD, F_DUPFD_CLOEXEC, F_SETFD, F_SETFL]
    refine ⟨Tracks.congr (h.put_own hown hd rfl) (and_iff_left hharmless).symm, fun _ => ?_, fun n hn _ => ?_⟩
    · exact Finset.insert_eq_of_mem hmem
    · exact Descriptors.entry_put_of_ne t' _ hn
  · have hzero : FD_CLOEXEC &&& changeableFlags = 0 := by decide
    have hiff : Disturbs t cmd ↔ ∃ d, t.entry F_SETFD = some d ∧ d.status ≠ 0 := by
      rw [hsetfl]
      simp [Disturbs, F_DUPFD, F_DUPFD_CLOEXEC, F_SETFL]
    rw [hzero]
    refine ⟨?_, fun _ => Finset.insert_eq_of_mem hmem,
      fun n hn _ => Descriptors.entry_put_of_ne t' _ hn⟩
    by_cases hown : F_SETFD ∈ fds
    · have hnone := h.fresh _ hown
      have hharmless : ¬ Disturbs t cmd := by simp [hiff, hnone]
      exact Tracks.congr (h.put_own hown hd rfl) (and_iff_left hharmless).symm
    · exact (h.put_other hown hd).congr (by rw [hiff])
  · have hharmless : ¬ Disturbs t cmd := fun hdisturbs => by
      rcases hdisturbs with h | h | ⟨h, -⟩
      · exact hdup (.inl h)
      · exact hdup (.inr h)
      · exact hsetfl h
    exact ⟨h.congr (and_iff_left hharmless).symm, fun _ => rfl, fun _ _ _ => rfl⟩

end Swapped

/-! ## The calls of the process -/

section Calls

variable {k : Kernel} {clean : Prop} {t : Descriptors} {p : Process} {fds : List Nat} {j : Nat}

/-- Two descriptors get the next two numbers, as long as nothing was spoilt. -/
theorem openPair_tracks (h : Tracks clean t p.descriptors fds)
    (hused : clean → p.descriptors.used = k.handed t.used j) (cloexec : Bool) :
    ∃ a b q, p.openPair k cloexec = ((a, b), q) ∧ a ≠ b ∧
      Tracks clean t q.descriptors (b :: a :: fds) ∧
      (clean → q.descriptors.used = k.handed t.used (j + 2) ∧
        a = k.number t.used j ∧ b = k.number t.used (j + 1)) ∧
      (∀ n, p.descriptors.entry n ≠ none → q.descriptors.entry n = p.descriptors.entry n) ∧
      ∀ n ∈ [a, b], ∃ d, q.descriptors.entry n = some d ∧ d.cloexec = cloexec := by
  have hfirst := Descriptors.Grown.add (k := k) p.descriptors 0 cloexec 0
  have hsecond := Descriptors.Grown.add (k := k) (p.descriptors.add k 0 cloexec 0) 0 cloexec 0
  have hentry := Descriptors.entry_add_self (k := k) p.descriptors 0 cloexec 0
  have hne : p.descriptors.next k 0 ≠ (p.descriptors.add k 0 cloexec 0).next k 0 := by
    intro heq
    have hfree := Descriptors.entry_next (k := k) (p.descriptors.add k 0 cloexec 0) 0
    rw [← heq, hentry] at hfree
    cases hfree
  refine ⟨_, _, _, rfl, hne, (h.trans hfirst).trans hsecond, fun hclean => ?_, fun n hn => ?_, ?_⟩
  · have hu := hused hclean
    change insert (k.pick 0 (insert (k.pick 0 p.descriptors.used) p.descriptors.used))
      (insert (k.pick 0 p.descriptors.used) p.descriptors.used) = _ ∧
        k.pick 0 p.descriptors.used = _ ∧
        k.pick 0 (insert (k.pick 0 p.descriptors.used) p.descriptors.used) = _
    rw [hu]
    exact ⟨rfl, rfl, rfl⟩
  · have hkept := hfirst.frame n fun hmem => hn (hfirst.fresh n hmem)
    exact (hsecond.frame n fun hmem => hn (hkept ▸ hsecond.fresh n hmem)).trans hkept
  · intro n hn
    rcases List.mem_pair.1 hn with rfl | rfl
    · exact ⟨_, (Descriptors.entry_add_of_ne _ hne).trans hentry, rfl⟩
    · exact ⟨_, Descriptors.entry_add_self _ 0 cloexec 0, rfl⟩

theorem swappedFcntl_tracks {cmd : Nat} (h : Tracks clean t p.descriptors fds) (hcmd : cmd ∈ fds)
    (fails : Bool) :
    (Refused fails p.descriptors.used ∧ swappedFcntl k p fails cmd = (false, p)) ∨
      ∃ q, ¬ Refused fails p.descriptors.used ∧ swappedFcntl k p fails cmd = (true, q) ∧
        Tracks (clean ∧ ¬ Disturbs t cmd) t q.descriptors fds ∧
        (¬ Disturbs t cmd → q.descriptors.used = p.descriptors.used) ∧
        ∀ n, n ≠ F_SETFD → p.descriptors.entry n ≠ none →
          q.descriptors.entry n = p.descriptors.entry n := by
  unfold swappedFcntl Process.fcntl
  rcases h.swapped (k := k) hcmd fails with ⟨hrefused, hcall⟩ | ⟨t'', hnot, hcall, heffect⟩
  · rw [hcall]
    exact .inl ⟨hrefused, rfl⟩
  · rw [hcall]
    exact .inr ⟨_, hnot, rfl, heffect⟩

end Calls

/-! ## A pair with swapped calls -/

section Pair

variable {k : Kernel} {clean : Prop} {t : Descriptors} {p : Process} {fds : List Nat} {j : Nat}

/-- The numbers `j` and `j + 1` do not disturb. -/
def PairHarmless (k : Kernel) (t : Descriptors) (j : Nat) : Prop :=
  ¬ Disturbs t (k.number t.used j) ∧ ¬ Disturbs t (k.number t.used (j + 1))

/-- One of two swapped calls is refused, or what comes after them fails, and none that went through has
disturbed. -/
def PairFails (k : Kernel) (t : Descriptors) (j : Nat) (fcntl0 fcntl1 : Bool) (after : Prop) : Prop :=
  Refused fcntl0 (k.handed t.used (j + 2)) ∨
    ¬ Disturbs t (k.number t.used j) ∧
      (Refused fcntl1 (k.handed t.used (j + 2)) ∨
        ¬ Disturbs t (k.number t.used (j + 1)) ∧ after)

/-- One of the descriptors is not closed on `exec`, and the swapped calls do not reach it. -/
def Bare (t : Descriptors) (fds : List Nat) : Prop :=
  ∃ n ∈ fds, n ≠ F_SETFD ∧ ∃ d, t.entry n = some d ∧ d.cloexec = false

/-- The state behind a swapped call that was refused. -/
def RefusedAt (k : Kernel) (clean : Prop) (t : Descriptors) (j : Nat) (fcntl0 fcntl1 : Bool)
    (fds : List Nat) (q : Process) : Prop :=
  ∀ after, Tracks (clean ∧ PairFails k t j fcntl0 fcntl1 after) t q.descriptors fds ∧
    (clean → PairHarmless k t j → PairFails k t j fcntl0 fcntl1 after)

/-- The state behind both swapped calls. -/
structure PassedAt (k : Kernel) (clean : Prop) (t : Descriptors) (j : Nat) (fcntl0 fcntl1 : Bool)
    (a b : Nat) (fds : List Nat) (p q : Process) : Prop where
  tracks : Tracks (clean ∧ PairHarmless k t j) t q.descriptors (b :: a :: fds)
  used : clean → PairHarmless k t j → q.descriptors.used = k.handed t.used (j + 2)
  fails_iff : clean → ∀ after,
    (PairFails k t j fcntl0 fcntl1 after ↔ PairHarmless k t j ∧ after)
  bare : Bare q.descriptors [a, b]
  kept : ∀ n, n ≠ F_SETFD → p.descriptors.entry n ≠ none →
    q.descriptors.entry n = p.descriptors.entry n

/-- Both `Create`s open a pair and make the two calls for it. -/
theorem swappedPair (h : Tracks clean t p.descriptors fds)
    (hused : clean → p.descriptors.used = k.handed t.used j) (fcntl0 fcntl1 : Bool) :
    ∃ a b q, p.openPair k false = ((a, b), q) ∧
      ((∃ q₁, swappedFcntl k q fcntl0 a = (false, q₁) ∧
          RefusedAt k clean t j fcntl0 fcntl1 (b :: a :: fds) q₁) ∨
        ∃ q₁, swappedFcntl k q fcntl0 a = (true, q₁) ∧
          ((∃ q₂, swappedFcntl k q₁ fcntl1 b = (false, q₂) ∧
              RefusedAt k clean t j fcntl0 fcntl1 (b :: a :: fds) q₂) ∨
            ∃ q₂, swappedFcntl k q₁ fcntl1 b = (true, q₂) ∧
              PassedAt k clean t j fcntl0 fcntl1 a b fds p q₂)) := by
  obtain ⟨a, b, q, hopen, hne, hpair, hnumbers, hkept, hentries⟩ := openPair_tracks h hused false
  refine ⟨a, b, q, hopen, ?_⟩
  rcases swappedFcntl_tracks (k := k) hpair (.tail b (.head fds)) fcntl0 with
    ⟨hrefused, hcall⟩ | ⟨q₁, haccepted, hcall, hpair₁, hused₁, hsame₁⟩
  · refine .inl ⟨q, hcall, fun after => ?_⟩
    have hfails : clean → PairFails k t j fcntl0 fcntl1 after := fun hclean => by
      rw [(hnumbers hclean).1] at hrefused
      exact .inl hrefused
    exact ⟨hpair.congr ⟨fun hclean => ⟨hclean, hfails hclean⟩, And.left⟩,
      fun hclean _ => hfails hclean⟩
  -- the first call went through, so the second decides
  have hfails : clean → ∀ after, PairFails k t j fcntl0 fcntl1 after ↔
      ¬ Disturbs t a ∧ (Refused fcntl1 (k.handed t.used (j + 2)) ∨ ¬ Disturbs t b ∧ after) := by
    intro hclean after
    obtain ⟨hu, rfl, rfl⟩ := hnumbers hclean
    rw [hu] at haccepted
    exact or_iff_right haccepted
  have hharmless : clean → (PairHarmless k t j ↔ ¬ Disturbs t a ∧ ¬ Disturbs t b) := fun hclean => by
    obtain ⟨-, rfl, rfl⟩ := hnumbers hclean
    exact Iff.rfl
  refine .inr ⟨q₁, hcall, ?_⟩
  rcases swappedFcntl_tracks (k := k) hpair₁ (.head _) fcntl1 with
    ⟨hrefused, hcall⟩ | ⟨q₂, haccepted, hcall, hpair₂, hused₂, hsame₂⟩
  · refine .inl ⟨q₁, hcall, fun after => ?_⟩
    have hrefuses : clean → ¬ Disturbs t a → PairFails k t j fcntl0 fcntl1 after :=
      fun hclean hquiet => by
        rw [hused₁ hquiet, (hnumbers hclean).1] at hrefused
        exact (hfails hclean after).2 ⟨hquiet, .inl hrefused⟩
    refine ⟨hpair₁.congr ⟨fun ⟨hclean, hquiet⟩ => ⟨hclean, hrefuses hclean hquiet⟩, ?_⟩, ?_⟩
    · exact fun ⟨hclean, hf⟩ => ⟨hclean, ((hfails hclean after).1 hf).1⟩
    · exact fun hclean hboth => hrefuses hclean ((hharmless hclean).1 hboth).1
  refine .inr ⟨q₂, hcall, ?_⟩
  have hkept₂ : ∀ n, n ≠ F_SETFD → q.descriptors.entry n ≠ none →
      q₂.descriptors.entry n = q.descriptors.entry n := fun n hn hopened => by
    have hsame := hsame₁ n hn hopened
    exact (hsame₂ n hn (by rw [hsame]; exact hopened)).trans hsame
  refine ⟨hpair₂.congr ?_, fun hclean hboth => ?_, fun hclean after => ?_, ?_, fun n hn hopened => ?_⟩
  · rw [and_assoc]
    exact and_congr_right fun hclean => (hharmless hclean).symm
  · obtain ⟨hquiet, hquiet'⟩ := (hharmless hclean).1 hboth
    exact (hused₂ hquiet').trans ((hused₁ hquiet).trans (hnumbers hclean).1)
  · rw [hfails hclean after, hharmless hclean, and_assoc, and_congr_right_iff]
    intro hquiet
    rw [hused₁ hquiet, (hnumbers hclean).1] at haccepted
    exact or_iff_right haccepted
  · -- the flag of a descriptor other than 2 is still as it was opened
    have hbare : ∀ n ∈ [a, b], n ≠ F_SETFD →
        ∃ d, q₂.descriptors.entry n = some d ∧ d.cloexec = false := fun n hmem hn => by
      obtain ⟨d, hd, hcloexec⟩ := hentries n hmem
      exact ⟨d, (hkept₂ n hn (by simp [hd])).trans hd, hcloexec⟩
    by_cases htwo : b = F_SETFD
    · have ha : a ≠ F_SETFD := fun heq => hne (heq.trans htwo.symm)
      exact ⟨a, .head [b], ha, hbare a (.head [b]) ha⟩
    · exact ⟨b, .tail a (.head []), htwo, hbare b (.tail a (.head [])) htwo⟩
  · have hsame := hkept n hopened
    exact (hkept₂ n hn (by rw [hsame]; exact hopened)).trans hsame

end Pair

/-! ## The event object -/

section EventObject

variable {k : Kernel} {t : Descriptors} {p : Process} {fds : List Nat} {j : Nat}

/-- `EventObject::Create` fails, with everything closed and undisturbed; its pipe gets the numbers `j`
and `j + 1`. -/
def EventObjectFails (k : Kernel) (t : Descriptors) (j : Nat) (fails : EventObject.Step → Bool) : Prop :=
  fails .pipe = true ∨ PairFails k t j (fails .fcntl0) (fails .fcntl1) (fails .new = true)

/-- What the event object's `Create` has done, as its result says. -/
def EventObjectDone (k : Kernel) (t : Descriptors) (j : Nat) (fails : EventObject.Step → Bool)
    (fds : List Nat) (created : Option EventObject × Process) : Prop :=
  match created.1 with
  | none =>
      Tracks (EventObjectFails k t j fails) t created.2.descriptors fds ∧
        (PairHarmless k t j → EventObjectFails k t j fails)
  | some o =>
      ¬ EventObjectFails k t j fails ∧
        Tracks (PairHarmless k t j) t created.2.descriptors (o.publishHandle :: o.handle :: fds) ∧
        (PairHarmless k t j → created.2.descriptors.used = k.handed t.used (j + 2)) ∧
        Bare created.2.descriptors [o.handle, o.publishHandle]

theorem createEventObject_done (fails : EventObject.Step → Bool)
    (h : t.Grown p.descriptors fds) (hused : p.descriptors.used = k.handed t.used j) :
    EventObjectDone k t j fails fds (createEventObject k fails p) := by
  unfold createEventObject EventObject.createWith EventObjectDone
  by_cases hpipe : fails .pipe = true
  · rw [if_pos hpipe]
    have hfails : EventObjectFails k t j fails := .inl hpipe
    exact ⟨(Tracks.of_grown h).congr (iff_of_true trivial hfails), fun _ => hfails⟩
  obtain ⟨a, b, q, hopen, hcalls⟩ :=
    swappedPair (.of_grown h) (fun _ => hused) (fails .fcntl0) (fails .fcntl1)
  have hundo : ∀ {clean : Prop} {q : Process}, Tracks clean t q.descriptors (b :: a :: fds) →
      Tracks clean t ((q.close a).close b).descriptors fds := fun hq =>
    hq.closeAll [a, b] (.swap a b fds)
  have hfails : EventObjectFails k t j fails ↔
      PairFails k t j (fails .fcntl0) (fails .fcntl1) (fails .new = true) := or_iff_right hpipe
  rw [if_neg hpipe, hopen, hfails]
  dsimp only
  rcases hcalls with ⟨q₁, hcall, hrefused⟩ | ⟨q₁, hcall, hcalls⟩
  · rw [hcall]
    obtain ⟨htracks, hharmless⟩ := hrefused (fails .new = true)
    exact ⟨(hundo htracks).congr (and_iff_right trivial), hharmless trivial⟩
  rw [hcall]
  dsimp only
  rw [if_neg Bool.noConfusion]
  rcases hcalls with ⟨q₂, hcall, hrefused⟩ | ⟨q₂, hcall, hpassed⟩
  · rw [hcall]
    obtain ⟨htracks, hharmless⟩ := hrefused (fails .new = true)
    exact ⟨(hundo htracks).congr (and_iff_right trivial), hharmless trivial⟩
  have htracks := hpassed.tracks.congr (and_iff_right trivial)
  rw [hcall, hpassed.fails_iff trivial]
  dsimp only
  rw [if_neg Bool.noConfusion]
  by_cases hnew : fails .new = true
  · rw [if_pos hnew]
    exact ⟨(hundo htracks).congr (and_iff_left hnew).symm, fun hharmless => ⟨hharmless, hnew⟩⟩
  · rw [if_neg hnew]
    exact ⟨fun hf => hnew hf.2, htracks, hpassed.used trivial, hpassed.bare⟩

theorem createEventObject_accounted_iff (k : Kernel) (fails : EventObject.Step → Bool) (p : Process) :
    Accounted p.descriptors (createEventObject k fails p).2.descriptors
        ((createEventObject k fails p).1.map fun o => [o.handle, o.publishHandle]) ↔
      EventObjectFails k p.descriptors 0 fails := by
  have hdone := createEventObject_done (k := k) (j := 0) fails (.refl p.descriptors) rfl
  generalize createEventObject k fails p = created at hdone ⊢
  obtain ⟨_ | o, q⟩ := created
  · exact hdone.1.grown_nil_iff
  · obtain ⟨hnot, -, -, n, hn, -, d, hd, hcloexec⟩ := hdone
    refine iff_of_false (fun ⟨_, hall⟩ => ?_) hnot
    obtain ⟨d', hd', hset⟩ := hall n hn
    dsimp only at hd hd'
    rw [hd] at hd'
    cases hd'
    rw [hcloexec] at hset
    cases hset

end EventObject

/-! ## The asynchronous part -/

section Connect

variable {k : Kernel} {fails : Step → Bool} {clean : Prop} {t : Descriptors} {p : Process} {j : Nat}
  {impl : Nat} {pfd : Nat × Nat} {eventObject : EventObject}
  {eventLoop : Construction.EventLoop.Impl}

/-- What is held when the event loop exists. -/
def connected (pfd : Nat × Nat) (eventObject : EventObject) (eventLoop : Construction.EventLoop.Impl) :
    List Nat :=
  eventLoop.fds ++ [eventObject.publishHandle, eventObject.handle, pfd.2, pfd.1]

theorem undo_tracks (h : Tracks clean t p.descriptors (connected pfd eventObject eventLoop)) :
    Tracks clean t (undo impl pfd eventObject eventLoop p).descriptors [] := by
  have hundo : (undo impl pfd eventObject eventLoop p).descriptors = p.descriptors.closeAll
      (eventLoop.fds ++ [eventObject.handle, eventObject.publishHandle, pfd.1, pfd.2]) := by
    rw [Descriptors.closeAll_append, ← Construction.EventLoop.delete_descriptors]
    rfl
  rw [hundo]
  refine h.closeAll _ (List.perm_iff_count.2 fun n => ?_)
  simp only [connected, List.count_append, List.count_cons, List.count_nil]
  omega

/-- The sockets get the numbers `j` and `j + 1`. -/
def CommandsFail (k : Kernel) (t : Descriptors) (j : Nat) (fails : Step → Bool) : Prop :=
  fails .socketpair = true ∨
    PairFails k t j (fails .spfd0) (fails .spfd1)
      (fails .command = false ∧ fails .asyncCommand = false ∧ ∃ s, fails (.handler s) = true)

/-- What `createCommands` has done, as its result says. -/
def CommandsDone (k : Kernel) (clean : Prop) (t : Descriptors) (j : Nat) (fails : Step → Bool)
    (pfd : Nat × Nat) (eventObject : EventObject) (p : Process)
    (called : Except Exit Instance × Process) : Prop :=
  match called.1 with
  | .error _ => Accounted t called.2.descriptors none ↔ clean ∧ CommandsFail k t j fails
  | .ok i =>
      ¬ (clean ∧ CommandsFail k t j fails) ∧ i.pfd = pfd ∧ i.eventObject = some eventObject ∧
        ∀ n, n ≠ F_SETFD → p.descriptors.entry n ≠ none →
          called.2.descriptors.entry n = p.descriptors.entry n

theorem createCommands_done (fails : Step → Bool) (impl : Nat)
    (h : Tracks clean t p.descriptors (connected pfd eventObject eventLoop))
    (hused : clean → p.descriptors.used = k.handed t.used j) :
    CommandsDone k clean t j fails pfd eventObject p
      (createCommands k fails impl pfd eventObject eventLoop p) := by
  unfold createCommands CommandsDone
  by_cases hsocketpair : fails .socketpair = true
  · rw [if_pos hsocketpair]
    have hfails : CommandsFail k t j fails := .inl hsocketpair
    exact (undo_tracks h).grown_nil_iff.trans (and_iff_left hfails).symm
  obtain ⟨a, b, q, hopen, hcalls⟩ := swappedPair h hused (fails .spfd0) (fails .spfd1)
  have hundo : ∀ {clean : Prop} {q : Process},
      Tracks clean t q.descriptors (b :: a :: connected pfd eventObject eventLoop) →
      Tracks clean t (undo impl pfd eventObject eventLoop ((q.close a).close b)).descriptors [] :=
    fun hq => undo_tracks (hq.closeAll [a, b] (.swap a b _))
  have hfails : CommandsFail k t j fails ↔ PairFails k t j (fails .spfd0) (fails .spfd1)
      (fails .command = false ∧ fails .asyncCommand = false ∧ ∃ s, fails (.handler s) = true) :=
    or_iff_right hsocketpair
  rw [if_neg hsocketpair, hopen, hfails]
  dsimp only
  rcases hcalls with ⟨q₁, hcall, hrefused⟩ | ⟨q₁, hcall, hcalls⟩
  · rw [hcall]
    exact (hundo (hrefused _).1).grown_nil_iff
  rw [hcall]
  dsimp only
  rw [if_neg Bool.noConfusion]
  rcases hcalls with ⟨q₂, hcall, hrefused⟩ | ⟨q₂, hcall, hpassed⟩
  · rw [hcall]
    exact (hundo (hrefused _).1).grown_nil_iff
  have hiff : clean ∧ PairFails k t j (fails .spfd0) (fails .spfd1)
        (fails .command = false ∧ fails .asyncCommand = false ∧ ∃ s, fails (.handler s) = true) ↔
      (clean ∧ PairHarmless k t j) ∧
        fails .command = false ∧ fails .asyncCommand = false ∧ ∃ s, fails (.handler s) = true := by
    rw [and_assoc]
    exact and_congr_right fun hclean => hpassed.fails_iff hclean _
  have hmem : a ∈ b :: a :: connected pfd eventObject eventLoop := .tail b (.head _)
  rw [hcall, hiff]
  dsimp only
  rw [if_neg Bool.noConfusion]
  by_cases hcommand : fails .command = true
  · rw [if_pos hcommand]
    refine iff_of_false (hpassed.tracks.not_accounted hmem) fun hf => ?_
    rw [hcommand] at hf
    exact Bool.noConfusion hf.2.1
  rw [if_neg hcommand]
  by_cases hasync : fails .asyncCommand = true
  · rw [if_pos hasync]
    refine iff_of_false (hpassed.tracks.not_accounted hmem) fun hf => ?_
    rw [hasync] at hf
    exact Bool.noConfusion hf.2.2.1
  rw [if_neg hasync]
  -- what is left is the handler, which opens nothing
  have hdescriptors := Construction.EventLoop.addHandler_descriptors (fun s => fails (.handler s))
    eventLoop.pimpl (CommandObject.new impl b (CommandObject.new impl a q₂).2).1.object impl
    (CommandObject.new impl b (CommandObject.new impl a q₂).2).2
  have hnone := Construction.EventLoop.addHandler_eq_none_iff (fun s => fails (.handler s))
    eventLoop.pimpl (CommandObject.new impl b (CommandObject.new impl a q₂).2).1.object impl
    (CommandObject.new impl b (CommandObject.new impl a q₂).2).2
  generalize Construction.EventLoop.addHandler (fun s => fails (.handler s)) eventLoop.pimpl
    (CommandObject.new impl b (CommandObject.new impl a q₂).2).1.object impl
    (CommandObject.new impl b (CommandObject.new impl a q₂).2).2 = added at hdescriptors hnone ⊢
  obtain ⟨handlerObject, q₃⟩ := added
  change q₃.descriptors = q₂.descriptors at hdescriptors
  cases handlerObject with
  | none =>
      have htracks := hpassed.tracks
      rw [← hdescriptors] at htracks
      refine (hundo htracks).grown_nil_iff.trans (and_iff_left ?_).symm
      exact ⟨Bool.eq_false_iff.2 hcommand, Bool.eq_false_iff.2 hasync, hnone.1 rfl⟩
  | some handlerObject =>
      refine ⟨fun hf => ?_, rfl, rfl, fun n hn hopened => ?_⟩
      · exact Option.some_ne_none _ (hnone.2 hf.2.2.2)
      · dsimp only
        rw [hdescriptors]
        exact hpassed.kept n hn hopened

/-- The asynchronous part fails, with everything closed and undisturbed.  Its numbers follow the two of the
first pipe. -/
def ConnectFails (k : Kernel) (t : Descriptors) (fails : Step → Bool) : Prop :=
  EventObjectFails k t 2 (fun s => fails (.eventObject s)) ∨
    PairHarmless k t 2 ∧ ((∃ s, fails (.eventLoop s) = true) ∨ CommandsFail k t 7 fails)

/-- What `connect` has done, as its result says. -/
def ConnectDone (k : Kernel) (t : Descriptors) (fails : Step → Bool)
    (called : Except Exit Instance × Process) : Prop :=
  match called.1 with
  | .error _ => Accounted t called.2.descriptors none ↔ ConnectFails k t fails
  | .ok i =>
      ¬ ConnectFails k t fails ∧ ∃ n ∈ i.descriptors, t.entry n = none ∧
        ∃ d, called.2.descriptors.entry n = some d ∧ d.cloexec = false

theorem connect_done (fails : Step → Bool) (impl : Nat) (h : t.Grown p.descriptors [pfd.2, pfd.1])
    (hused : p.descriptors.used = k.handed t.used 2) :
    ConnectDone k t fails (connect k fails impl pfd p) := by
  unfold connect ConnectDone
  have hevent := createEventObject_done (fun s => fails (.eventObject s)) h hused
  generalize createEventObject k (fun s => fails (.eventObject s)) p = created at hevent ⊢
  obtain ⟨_ | eventObject, q⟩ := created
  · obtain ⟨htracks, hharmless⟩ := hevent
    refine (htracks.closeAll [pfd.1, pfd.2] (.swap pfd.1 pfd.2 [])).grown_nil_iff.trans ⟨.inl, fun hf => ?_⟩
    exact hf.elim id fun hquiet => hharmless hquiet.1
  obtain ⟨hnot, htracks, hused, n, hn, hn2, d, hd, hcloexec⟩ := hevent
  have hfails : ConnectFails k t fails ↔
      PairHarmless k t 2 ∧ ((∃ s, fails (.eventLoop s) = true) ∨ CommandsFail k t 7 fails) :=
    or_iff_right hnot
  rw [hfails]
  dsimp only at htracks hd ⊢
  have hloop := Construction.EventLoop.create_constructs k (fun s => fails (.eventLoop s))
    (Process.Made.refl q)
  have hloopUsed := Construction.EventLoop.create_used k (fun s => fails (.eventLoop s)) q
  generalize Construction.EventLoop.create k (fun s => fails (.eventLoop s)) q = created
    at hloop hloopUsed ⊢
  obtain ⟨_ | eventLoop, q₁⟩ := created
  · obtain ⟨hfailed, hmade⟩ := hloop
    have hperm : [eventObject.publishHandle, eventObject.handle, pfd.2, pfd.1].Perm
        ([eventObject.handle, eventObject.publishHandle, pfd.1, pfd.2] ++ []) :=
      (List.Perm.swap _ _ _).trans (((List.Perm.swap _ _ _).cons _).cons _)
    exact ((htracks.trans hmade.descriptors).closeAll _ hperm).grown_nil_iff.trans (and_iff_left (.inl hfailed)).symm
  obtain ⟨hnoLoop, hmade⟩ := hloop
  have hgrown := hmade.descriptors
  rw [List.append_nil] at hgrown
  have hnumbers : PairHarmless k t 2 → q₁.descriptors.used = k.handed t.used 7 := fun hquiet => by
    have hthree := hloopUsed (Option.some_ne_none _)
    rw [hused hquiet, Kernel.handed_handed] at hthree
    exact hthree
  -- `SetStopHandler` opens nothing
  have hdescriptors : (if fails .stopHandler then q₁ else (q₁.new [impl]).2).descriptors =
      q₁.descriptors := by split <;> rfl
  dsimp only at hgrown hnumbers ⊢
  generalize (if fails .stopHandler then q₁ else (q₁.new [impl]).2) = q₂ at hdescriptors ⊢
  rw [← hdescriptors] at hgrown hnumbers
  have hcommands := createCommands_done fails impl (htracks.trans hgrown) hnumbers
  generalize createCommands k fails impl pfd eventObject eventLoop q₂ = called at hcommands ⊢
  obtain ⟨result, q₃⟩ := called
  cases result with
  | error exit => exact hcommands.trans (and_congr_right fun _ => (or_iff_right hnoLoop).symm)
  | ok i =>
      obtain ⟨hno, hpfd, hevent, hkept⟩ := hcommands
      refine ⟨fun hf => ?_, n, ?_, ?_, d, ?_, hcloexec⟩
      · exact hno ⟨hf.1, (or_iff_right hnoLoop).1 hf.2⟩
      · simp only [Instance.descriptors, hevent, List.mem_append]
        exact .inl (.inl (.inr hn))
      · refine htracks.fresh n ?_
        simp only [List.mem_cons, List.not_mem_nil, or_false] at hn ⊢
        tauto
      · have hd₂ : q₂.descriptors.entry n = some d := by
          refine (hgrown.frame n fun hmem => ?_).trans hd
          rw [hgrown.fresh n hmem] at hd
          cases hd
        exact (hkept n hn2 (by rw [hd₂]; exact Option.some_ne_none d)).trans hd₂

end Connect

/-! ## `Authenticator::Create` -/

section Create

variable {k : Kernel} {p : Process}

def OutputFails (fails : Step → Bool) : Prop :=
  fails .new = true ∨ fails .pipe = true ∨ fails .pfd0 = true ∨ fails .pfd1 = true

/-- What `openOutput` has done, as its result says. -/
def OutputDone (k : Kernel) (fails : Step → Bool) (p : Process)
    (opened : Option (Nat × Nat × Nat) × Process) : Prop :=
  match opened.1 with
  | none => OutputFails fails ∧ p.descriptors.Grown opened.2.descriptors []
  | some (_, pfd) =>
      ¬ OutputFails fails ∧ p.descriptors.Grown opened.2.descriptors [pfd.2, pfd.1] ∧
        opened.2.descriptors.used = k.handed p.descriptors.used 2 ∧
        opened.2.descriptors.ClosedOnExec [pfd.1, pfd.2]

/-- Setting the flag with the arguments in their order. -/
theorem setfd_cloexec {q : Process} {n : Nat} {ns : List Nat} {r : Bool}
    (hset : p.fcntl k false n F_SETFD FD_CLOEXEC = (r, q)) (hn : p.descriptors.entry n ≠ none)
    (h : p.descriptors.ClosedOnExec ns) :
    q.descriptors.used = p.descriptors.used ∧ q.descriptors.ClosedOnExec (n :: ns) := by
  have hq : q.descriptors = (p.descriptors.fcntl k false n F_SETFD FD_CLOEXEC).2 :=
    congrArg (fun called => called.2.descriptors) hset.symm
  obtain ⟨d, hd⟩ := Option.ne_none_iff_exists'.1 hn
  rw [hq]
  refine ⟨?_, h.setfd hn⟩
  rw [Descriptors.fcntl_setfd hd]
  exact Finset.insert_eq_of_mem ((p.descriptors.mem_used n).2 hn)

theorem openOutput_done (k : Kernel) (fails : Step → Bool) (p : Process) :
    OutputDone k fails p (openOutput k fails p) := by
  unfold openOutput OutputDone
  by_cases hnew : fails .new = true
  · rw [if_pos hnew]
    exact ⟨.inl hnew, .refl p.descriptors⟩
  obtain ⟨impl, p₁, hnewed, hobject⟩ := (Process.Made.refl p).new []
  have hsame : p₁.descriptors = p.descriptors := congrArg (fun called => called.2.descriptors) hnewed.symm
  rw [if_neg hnew, hnewed]
  dsimp only
  by_cases hpipe : fails .pipe = true
  · rw [if_pos hpipe]
    exact ⟨.inr (.inl hpipe), hobject.delete.descriptors⟩
  obtain ⟨a, b, p₂, hopen, hpair⟩ := hobject.openPair (k := k) false
  have hused : p₂.descriptors.used = k.handed p.descriptors.used 2 := by
    rw [← hsame]
    exact congrArg (fun called => called.2.descriptors.used) hopen.symm
  have hundo : ∀ q : Process, p.Made q [b, a] [impl] →
      p.Made (((q.close a).close b).delete impl) [] [] := fun q hq =>
    hq.undo [a, b] [impl] (.swap a b []) (.refl _) rfl rfl rfl rfl
  obtain ⟨p₃, hset, hpair₃⟩ := hpair.setfd (k := k) (.tail b (.head [])) (fails .pfd0) FD_CLOEXEC
  rw [if_neg hpipe, hopen]
  dsimp only
  by_cases hpfd0 : fails .pfd0 = true
  · rw [hset, if_pos (by simp [hpfd0])]
    exact ⟨.inr (.inr (.inl hpfd0)), (hundo p₃ hpair₃).descriptors⟩
  rw [hset, if_neg (by simp [hpfd0])]
  rw [Bool.eq_false_iff.2 hpfd0] at hset
  have hnothing : p₂.descriptors.ClosedOnExec [] := nofun
  obtain ⟨hused₃, hclosed⟩ :=
    setfd_cloexec hset (hpair.descriptors.opened a (.tail b (.head []))) hnothing
  obtain ⟨p₄, hset, hpair₄⟩ := hpair₃.setfd (k := k) (.head [a]) (fails .pfd1) FD_CLOEXEC
  dsimp only
  by_cases hpfd1 : fails .pfd1 = true
  · rw [hset, if_pos (by simp [hpfd1])]
    exact ⟨.inr (.inr (.inr hpfd1)), (hundo p₄ hpair₄).descriptors⟩
  rw [hset, if_neg (by simp [hpfd1])]
  rw [Bool.eq_false_iff.2 hpfd1] at hset
  obtain ⟨hused₄, hclosed⟩ := setfd_cloexec hset (hpair₃.descriptors.opened b (.head [a])) hclosed
  refine ⟨?_, hpair₄.descriptors, (hused₄.trans hused₃).trans hused, fun n hn => ?_⟩
  · rintro (h | h | h | h) <;> contradiction
  · exact hclosed n ((List.Perm.swap b a []).mem_iff.1 hn)

theorem wrapOutput_descriptors (fails : Step → Bool) (i : Instance) (p : Process) :
    (wrapOutput fails i p).2.descriptors = p.descriptors := by
  unfold wrapOutput
  split
  · rfl
  · dsimp only
    split <;> rfl

theorem wrapOutput_result (fails : Step → Bool) (i : Instance) (p : Process) :
    (wrapOutput fails i p).1 =
      if fails .outputConsumer = false ∧ fails .outputProducer = false then .ok i
      else .error .threw := by
  unfold wrapOutput
  cases hconsumer : fails .outputConsumer with
  | true => simp
  | false => cases hproducer : fails .outputProducer <;> simp

/-- The call fails with everything closed and undisturbed, or `enableAsync` is not set and it succeeds. -/
def KeepsAccount (k : Kernel) (t : Descriptors) (fails : Step → Bool) (enableAsync : Bool) : Prop :=
  OutputFails fails ∨
    if enableAsync then ConnectFails k t fails
    else fails .outputConsumer = false ∧ fails .outputProducer = false

theorem create_accounted_iff (k : Kernel) (fails : Step → Bool) (enableAsync : Bool) (p : Process) :
    Accounted p.descriptors (create k fails enableAsync p).2.descriptors
        ((create k fails enableAsync p).1.toOption.map Instance.descriptors) ↔
      KeepsAccount k p.descriptors fails enableAsync := by
  have hopened := openOutput_done k fails p
  unfold create
  generalize openOutput k fails p = opened at hopened ⊢
  obtain ⟨_ | ⟨impl, pfd⟩, q⟩ := opened
  · exact iff_of_true hopened.2 (.inl hopened.1)
  obtain ⟨hno, hgrown, hused, hclosed⟩ := hopened
  rw [KeepsAccount, or_iff_right hno]
  dsimp only at hgrown hused hclosed ⊢
  cases enableAsync with
  | false =>
      rw [if_neg Bool.false_ne_true, if_neg Bool.false_ne_true, wrapOutput_descriptors, wrapOutput_result]
      by_cases hwrapped : fails .outputConsumer = false ∧ fails .outputProducer = false
      · rw [if_pos hwrapped]
        exact iff_of_true ⟨hgrown.perm (.swap pfd.1 pfd.2 []), hclosed⟩ hwrapped
      · rw [if_neg hwrapped]
        exact iff_of_false (not_accounted_of_open (hgrown.fresh pfd.1 (.tail _ (.head [])))
          (hgrown.opened pfd.1 (.tail _ (.head [])))) hwrapped
  | true =>
      have hconnected := connect_done fails impl hgrown hused
      rw [if_pos rfl, if_pos rfl]
      generalize connect k fails impl pfd q = connected at hconnected ⊢
      obtain ⟨result, q'⟩ := connected
      cases result with
      | error exit => exact hconnected
      | ok i =>
          obtain ⟨hnot, n, hn, hfree, d, hd, hcloexec⟩ := hconnected
          refine iff_of_false ?_ hnot
          dsimp only at hd ⊢
          rw [wrapOutput_descriptors, wrapOutput_result]
          split
          · rintro ⟨-, hall⟩
            obtain ⟨d', hd', hset⟩ := hall n hn
            rw [hd] at hd'
            cases hd'
            rw [hcloexec] at hset
            cases hset
          · exact not_accounted_of_open hfree (by rw [hd]; exact Option.some_ne_none d)

end Create

/-- The event object keeps the account only where it fails undisturbed; the authenticator also where it is
to be synchronous and succeeds. -/
theorem accounted_iff (k : Kernel) (eventFails : EventObject.Step → Bool) (fails : Step → Bool)
    (enableAsync : Bool) (p : Process) :
    (Accounted p.descriptors (createEventObject k eventFails p).2.descriptors
        ((createEventObject k eventFails p).1.map fun o => [o.handle, o.publishHandle]) ↔
      EventObjectFails k p.descriptors 0 eventFails) ∧
    (Accounted p.descriptors (create k fails enableAsync p).2.descriptors
        ((create k fails enableAsync p).1.toOption.map Instance.descriptors) ↔
      KeepsAccount k p.descriptors fails enableAsync) :=
  ⟨createEventObject_accounted_iff k eventFails p, create_accounted_iff k fails enableAsync p⟩

/-- A process with its standard descriptors. -/
def standard : Process where
  descriptors :=
    { entry := fun n => if n < 3 then some ⟨n, false, 0⟩ else none
      used := {0, 1, 2}
      mem_used := fun n => by
        have hmem : n ∈ ({0, 1, 2} : Finset Nat) ↔ n < 3 := by
          simp only [Finset.mem_insert, Finset.mem_singleton]
          omega
        by_cases hn : n < 3
        · rw [if_pos hn]
          exact iff_of_true (hmem.2 hn) (Option.some_ne_none _)
        · rw [if_neg hn]
          exact iff_of_false (mt hmem.1 hn) (not_not.2 rfl)
      ledger := ⟨3, fun _ => 0⟩
      strays := 0 }
  objects := .empty
  pointers := []
  threads := []

/-- No call fails, and the descriptors of the event object outlive an `exec`. -/
theorem eventObject_inherited :
    ¬ Accounted standard.descriptors (createEventObject .lowest (fun _ => false) standard).2.descriptors
      ((createEventObject .lowest (fun _ => false) standard).1.map fun o =>
        [o.handle, o.publishHandle]) := by
  rw [createEventObject_accounted_iff]
  have htwo : F_SETFD ∈ Kernel.lowest.handed standard.descriptors.used (0 + 2) :=
    Kernel.lowest.mem_handed (by decide) _
  have haccepted : ¬ Refused false (Kernel.lowest.handed standard.descriptors.used (0 + 2)) := by
    rintro (h | h)
    · cases h
    · exact h htwo
  rintro (h | h | ⟨-, h | ⟨-, h⟩⟩)
  · cases h
  · exact haccepted h
  · exact haccepted h
  · cases h

end Create
end Authenticator
end Beyond
