import Mathlib.Data.Finset.Basic
import Mathlib.Data.Finset.Range
import Mathlib.Data.Nat.Find
import Beyond.Base.Ledger

/-!
# Descriptors of a process

A table says what is open under each number.  The kernel chooses the number of each opening among
those that are not used, in whatever way it likes.  A function that opens descriptors is measured by
the table before and after it: which of the new descriptors it holds, that the others that it opened
were closed once, and that what was open before is as it was.

`fcntl` is modelled for the commands that duplicate a descriptor or change its flags.  The other
commands are taken to succeed or to fail without an effect on the table.
-/

namespace Beyond

structure Descriptor where
  /-- The number of the opening that it comes from. -/
  opening : Nat
  cloexec : Bool
  /-- The status flags that `F_SETFL` can change. -/
  status : Nat
  deriving DecidableEq, Repr

structure Descriptors where
  entry : Nat → Option Descriptor
  used : Finset Nat
  mem_used : ∀ n, n ∈ used ↔ entry n ≠ none
  /-- The openings, released when their descriptors are closed. -/
  ledger : Ledger
  /-- How many calls of `close` named a number that was not open. -/
  strays : Nat

/-- How the kernel numbers descriptors, given the smallest number that it may choose. -/
structure Kernel where
  pick : Nat → Finset Nat → Nat
  least_le : ∀ least used, least ≤ pick least used
  fresh : ∀ least used, pick least used ∉ used

theorem Kernel.exists_free (least : Nat) (used : Finset Nat) : ∃ n, least ≤ n ∧ n ∉ used := by
  obtain ⟨bound, hbound⟩ := used.exists_nat_subset_range
  refine ⟨max least bound, Nat.le_max_left _ _, fun hused => ?_⟩
  exact Nat.not_lt.2 (Nat.le_max_right least bound) (Finset.mem_range.1 (hbound hused))

/-- The lowest number that is free. -/
def Kernel.lowest : Kernel where
  pick least used := Nat.find (exists_free least used)
  least_le least used := (Nat.find_spec (exists_free least used)).1
  fresh least used := (Nat.find_spec (exists_free least used)).2

/-- What is used when `j` numbers have been handed out in a row. -/
def Kernel.handed (k : Kernel) (used : Finset Nat) : Nat → Finset Nat
  | 0 => used
  | j + 1 => insert (k.pick 0 (k.handed used j)) (k.handed used j)

/-- The number that is handed out next. -/
def Kernel.number (k : Kernel) (used : Finset Nat) (j : Nat) : Nat := k.pick 0 (k.handed used j)

theorem Kernel.mem_handed (k : Kernel) {used : Finset Nat} {n : Nat} (hn : n ∈ used) (j : Nat) :
    n ∈ k.handed used j := by
  induction j with
  | zero => exact hn
  | succ j ih => exact Finset.mem_insert_of_mem ih

theorem Kernel.handed_handed (k : Kernel) (used : Finset Nat) (i j : Nat) :
    k.handed (k.handed used i) j = k.handed used (i + j) := by
  induction j with
  | zero => rfl
  | succ j ih =>
      change insert (k.pick 0 (k.handed (k.handed used i) j)) (k.handed (k.handed used i) j) = _
      rw [ih]
      rfl

def F_DUPFD : Nat := 0
def F_SETFD : Nat := 2
def F_SETFL : Nat := 4
def F_DUPFD_CLOEXEC : Nat := 1030
def FD_CLOEXEC : Nat := 1

/-- `O_APPEND`, `O_NONBLOCK`, `O_ASYNC`, `O_DIRECT` and `O_NOATIME`. -/
def changeableFlags : Nat := 0x46C00

namespace Descriptors

def empty : Descriptors where
  entry _ := none
  used := ∅
  mem_used n := by simp
  ledger := Ledger.empty
  strays := 0

variable (k : Kernel)

/-- The number that the next opening gets. -/
def next (t : Descriptors) (least : Nat) : Nat := k.pick least t.used

def put (t : Descriptors) (n : Nat) (d : Descriptor) : Descriptors where
  entry := Function.update t.entry n (some d)
  used := insert n t.used
  mem_used m := by
    rw [Finset.mem_insert, t.mem_used]
    by_cases hmn : m = n
    · subst hmn
      simp
    · simp [hmn]
  ledger := t.ledger
  strays := t.strays

/-- A new opening, under the number that the kernel chooses. -/
def add (t : Descriptors) (least : Nat) (cloexec : Bool) (status : Nat) : Descriptors :=
  { t.put (t.next k least) ⟨t.ledger.allocated, cloexec, status⟩ with ledger := t.ledger.alloc }

def close (t : Descriptors) (n : Nat) : Descriptors :=
  match t.entry n with
  | none => { t with strays := t.strays + 1 }
  | some d =>
      { entry := Function.update t.entry n none
        used := t.used.erase n
        mem_used := fun m => by
          rw [Finset.mem_erase, t.mem_used]
          by_cases hmn : m = n
          · subst hmn
            simp
          · simp [hmn]
        ledger := t.ledger.free d.opening
        strays := t.strays }

def closeAll (t : Descriptors) : List Nat → Descriptors
  | [] => t
  | n :: ns => (t.close n).closeAll ns

/-- Whether the call succeeds, and the table after it.  A call on a number that is not open fails; the
others fail when `fails` says so. -/
def fcntl (t : Descriptors) (fails : Bool) (fd cmd arg : Nat) : Bool × Descriptors :=
  match t.entry fd with
  | none => (false, t)
  | some d =>
      if fails then (false, t)
      else if cmd = F_DUPFD then (true, t.add k arg false d.status)
      else if cmd = F_DUPFD_CLOEXEC then (true, t.add k arg true d.status)
      else if cmd = F_SETFD then (true, t.put fd { d with cloexec := arg % 2 == 1 })
      else if cmd = F_SETFL then (true, t.put fd { d with status := arg &&& changeableFlags })
      else (true, t)

def opening (t : Descriptors) (n : Nat) : Nat := (t.entry n).elim 0 Descriptor.opening

def ClosedOnExec (t : Descriptors) (fds : List Nat) : Prop :=
  ∀ n ∈ fds, ∃ d, t.entry n = some d ∧ d.cloexec = true

/-- From `t` to `t'`, descriptors were opened: those in `fds` are open, the others were closed once, and
nothing else changed.  Of the openings this is `Ledger.Grown`. -/
structure Grown (t t' : Descriptors) (fds : List Nat) : Prop where
  nodup : fds.Nodup
  fresh : ∀ n ∈ fds, t.entry n = none
  opened : ∀ n ∈ fds, t'.entry n ≠ none
  frame : ∀ n, n ∉ fds → t'.entry n = t.entry n
  strays : t'.strays = t.strays
  ledger : t.ledger.Grown t'.ledger (fds.map t'.opening)

variable {k : Kernel} {t t' t'' : Descriptors} {fds fds' : List Nat} {n : Nat}

/-! ## Single calls -/

@[simp] theorem entry_put_self (t : Descriptors) (n : Nat) (d : Descriptor) :
    (t.put n d).entry n = some d := Function.update_self ..

theorem entry_put_of_ne (t : Descriptors) {m : Nat} (d : Descriptor) (hmn : m ≠ n) :
    (t.put n d).entry m = t.entry m := Function.update_of_ne hmn ..

@[simp] theorem entry_add_self (t : Descriptors) (least : Nat) (cloexec : Bool) (status : Nat) :
    (t.add k least cloexec status).entry (t.next k least) =
      some ⟨t.ledger.allocated, cloexec, status⟩ := Function.update_self ..

theorem entry_add_of_ne (t : Descriptors) {least : Nat} {cloexec : Bool} {status m : Nat}
    (hm : m ≠ t.next k least) : (t.add k least cloexec status).entry m = t.entry m :=
  Function.update_of_ne hm ..

theorem entry_next (t : Descriptors) (least : Nat) : t.entry (t.next k least) = none := by
  have hfresh := k.fresh least t.used
  rw [t.mem_used, not_not] at hfresh
  exact hfresh

theorem close_open {d : Descriptor} (hd : t.entry n = some d) :
    (t.close n).entry = Function.update t.entry n none ∧
      (t.close n).ledger = t.ledger.free d.opening ∧ (t.close n).strays = t.strays := by
  unfold close
  split
  · rename_i hnone
    rw [hnone] at hd
    contradiction
  · rename_i d' hd'
    rw [hd'] at hd
    cases hd
    exact ⟨rfl, rfl, rfl⟩

theorem opening_of_some {d : Descriptor} (hd : t.entry n = some d) : t.opening n = d.opening := by
  rw [opening, hd]
  rfl

theorem opening_congr (hentry : t'.entry n = t.entry n) : t'.opening n = t.opening n := by
  rw [opening, opening, hentry]

theorem map_opening_congr (hentry : ∀ n ∈ fds, t'.entry n = t.entry n) :
    fds.map t'.opening = fds.map t.opening :=
  List.map_congr_left fun n hn => opening_congr (hentry n hn)

/-- What a call of `fcntl` can do. -/
theorem fcntl_cases (k : Kernel) (t : Descriptors) (fails : Bool) (fd cmd arg : Nat) :
    ((fails = true ∨ t.entry fd = none) ∧ t.fcntl k fails fd cmd arg = (false, t)) ∨
      ∃ d t', t.entry fd = some d ∧ fails = false ∧ t.fcntl k fails fd cmd arg = (true, t') ∧
        (((cmd = F_DUPFD ∨ cmd = F_DUPFD_CLOEXEC) ∧
            ∃ cloexec, t' = t.add k arg cloexec d.status) ∨
          (cmd = F_SETFD ∧ t' = t.put fd { d with cloexec := arg % 2 == 1 }) ∨
          (cmd = F_SETFL ∧ t' = t.put fd { d with status := arg &&& changeableFlags }) ∨
          (¬ (cmd = F_DUPFD ∨ cmd = F_DUPFD_CLOEXEC) ∧ cmd ≠ F_SETFL ∧ t' = t)) := by
  unfold fcntl
  cases hd : t.entry fd with
  | none => exact .inl ⟨.inr rfl, rfl⟩
  | some d =>
      cases fails with
      | true => exact .inl ⟨.inl rfl, rfl⟩
      | false =>
          dsimp only
          rw [if_neg Bool.false_ne_true]
          by_cases hdup : cmd = F_DUPFD
          · rw [if_pos hdup]
            exact .inr ⟨d, _, rfl, rfl, rfl, .inl ⟨.inl hdup, _, rfl⟩⟩
          rw [if_neg hdup]
          by_cases hdupCloexec : cmd = F_DUPFD_CLOEXEC
          · rw [if_pos hdupCloexec]
            exact .inr ⟨d, _, rfl, rfl, rfl, .inl ⟨.inr hdupCloexec, _, rfl⟩⟩
          rw [if_neg hdupCloexec]
          by_cases hsetfd : cmd = F_SETFD
          · rw [if_pos hsetfd]
            exact .inr ⟨d, _, rfl, rfl, rfl, .inr (.inl ⟨hsetfd, rfl⟩)⟩
          rw [if_neg hsetfd]
          by_cases hsetfl : cmd = F_SETFL
          · rw [if_pos hsetfl]
            exact .inr ⟨d, _, rfl, rfl, rfl, .inr (.inr (.inl ⟨hsetfl, rfl⟩))⟩
          rw [if_neg hsetfl]
          exact .inr ⟨d, _, rfl, rfl, rfl,
            .inr (.inr (.inr ⟨not_or.2 ⟨hdup, hdupCloexec⟩, hsetfl, rfl⟩))⟩

/-- Setting the flags of an open descriptor changes only them. -/
theorem fcntl_setfd {d : Descriptor} {fails : Bool} {arg : Nat} (hd : t.entry n = some d) :
    t.fcntl k fails n F_SETFD arg =
      if fails then (false, t) else (true, t.put n { d with cloexec := arg % 2 == 1 }) := by
  unfold fcntl
  rw [hd]
  rfl

theorem closeAll_append (t : Descriptors) (ns ms : List Nat) :
    t.closeAll (ns ++ ms) = (t.closeAll ns).closeAll ms := by
  induction ns generalizing t with
  | nil => rfl
  | cons n ns ih => exact ih (t.close n)

theorem ClosedOnExec.setfd {ns : List Nat} (h : t.ClosedOnExec ns) (hn : t.entry n ≠ none) :
    (t.fcntl k false n F_SETFD FD_CLOEXEC).2.ClosedOnExec (n :: ns) := by
  obtain ⟨d, hd⟩ := Option.ne_none_iff_exists'.1 hn
  rw [fcntl_setfd hd]
  intro m hm
  by_cases hmn : m = n
  · subst hmn
    exact ⟨_, entry_put_self t m _, rfl⟩
  · obtain ⟨d', hd', hcloexec⟩ := h m ((List.mem_cons.1 hm).resolve_left hmn)
    exact ⟨d', (entry_put_of_ne t _ hmn).trans hd', hcloexec⟩

/-! ## What a function did to the table -/

namespace Grown

theorem refl (t : Descriptors) : t.Grown t [] where
  nodup := List.nodup_nil
  fresh _ hn := absurd hn List.not_mem_nil
  opened _ hn := absurd hn List.not_mem_nil
  frame _ _ := rfl
  strays := rfl
  ledger := Ledger.Grown.refl t.ledger

theorem add (t : Descriptors) (least : Nat) (cloexec : Bool) (status : Nat) :
    t.Grown (t.add k least cloexec status) [t.next k least] where
  nodup := List.nodup_singleton _
  fresh n hn := by
    rw [List.mem_singleton.1 hn]
    exact entry_next t least
  opened n hn := by
    rw [List.mem_singleton.1 hn, entry_add_self]
    exact Option.some_ne_none _
  frame n hn := entry_add_of_ne t fun heq => hn (List.mem_singleton.2 heq)
  strays := rfl
  ledger := by
    have hopening : (t.add k least cloexec status).opening (t.next k least) = t.ledger.allocated :=
      opening_of_some (entry_add_self t least cloexec status)
    rw [List.map_singleton, hopening]
    exact Ledger.Grown.alloc t.ledger

/-- What one function holds stays open while the next one runs. -/
theorem trans (h : t.Grown t' fds) (h' : t'.Grown t'' fds') : t.Grown t'' (fds' ++ fds) := by
  have hdisjoint : ∀ n ∈ fds, n ∉ fds' := fun n hn hn' => h.opened n hn (h'.fresh n hn')
  have hkept : ∀ n ∈ fds, t''.entry n = t'.entry n := fun n hn => h'.frame n (hdisjoint n hn)
  refine ⟨?_, ?_, ?_, ?_, h'.strays.trans h.strays, ?_⟩
  · exact h'.nodup.append h.nodup fun n hn' hn => hdisjoint n hn hn'
  · intro n hn
    rcases List.mem_append.1 hn with hn' | hn
    · have hnot : n ∉ fds := fun hmem => hdisjoint n hmem hn'
      exact (h.frame n hnot).symm.trans (h'.fresh n hn')
    · exact h.fresh n hn
  · intro n hn
    rcases List.mem_append.1 hn with hn' | hn
    · exact h'.opened n hn'
    · rw [hkept n hn]
      exact h.opened n hn
  · intro n hn
    rw [List.mem_append, not_or] at hn
    exact (h'.frame n hn.1).trans (h.frame n hn.2)
  · rw [List.map_append, map_opening_congr hkept]
    exact (h.ledger.trans h'.ledger).perm List.perm_append_comm

theorem perm (h : t.Grown t' fds) (hperm : fds.Perm fds') : t.Grown t' fds' where
  nodup := hperm.nodup_iff.1 h.nodup
  fresh n hn := h.fresh n (hperm.mem_iff.2 hn)
  opened n hn := h.opened n (hperm.mem_iff.2 hn)
  frame n hn := h.frame n fun hmem => hn (hperm.mem_iff.1 hmem)
  strays := h.strays
  ledger := h.ledger.perm (hperm.map t'.opening)

theorem close (h : t.Grown t' (n :: fds)) : t.Grown (t'.close n) fds := by
  obtain ⟨d, hd⟩ := Option.ne_none_iff_exists'.1 (h.opened n List.mem_cons_self)
  obtain ⟨hentry, hledger, hstrays⟩ := close_open hd
  obtain ⟨hn, hnodup⟩ := List.nodup_cons.1 h.nodup
  have hkept : ∀ m ∈ fds, (t'.close n).entry m = t'.entry m := by
    intro m hm
    have hne : m ≠ n := fun heq => hn (heq ▸ hm)
    rw [hentry, Function.update_of_ne hne]
  refine ⟨hnodup, ?_, ?_, ?_, hstrays.trans h.strays, ?_⟩
  · exact fun m hm => h.fresh m (List.mem_cons_of_mem _ hm)
  · intro m hm
    rw [hkept m hm]
    exact h.opened m (List.mem_cons_of_mem _ hm)
  · intro m hm
    rw [hentry]
    by_cases hmn : m = n
    · subst hmn
      rw [Function.update_self, h.fresh m List.mem_cons_self]
    · rw [Function.update_of_ne hmn]
      exact h.frame m (by simp [hmn, hm])
  · rw [hledger, map_opening_congr hkept]
    have hheld := h.ledger
    rw [List.map_cons, opening_of_some hd] at hheld
    exact hheld.free

/-- On a way out, what is held is closed in some order. -/
theorem closeAll {ns : List Nat} (h : t.Grown t' fds) (hperm : fds.Perm (ns ++ fds')) :
    t.Grown (t'.closeAll ns) fds' := by
  have hheld := h.perm hperm
  clear h hperm
  induction ns generalizing t' with
  | nil => exact hheld
  | cons n ns ih => exact ih hheld.close

/-- A function may set the flags of what it holds. -/
theorem put {d d' : Descriptor} (h : t.Grown t' fds) (hn : n ∈ fds) (hd : t'.entry n = some d)
    (hopening : d'.opening = d.opening) : t.Grown (t'.put n d') fds := by
  have hkept : ∀ m, m ≠ n → (t'.put n d').entry m = t'.entry m := fun m hmn =>
    entry_put_of_ne t' d' hmn
  refine ⟨h.nodup, h.fresh, ?_, ?_, h.strays, ?_⟩
  · intro m hm
    by_cases hmn : m = n
    · subst hmn
      rw [entry_put_self]
      exact Option.some_ne_none _
    · rw [hkept m hmn]
      exact h.opened m hm
  · intro m hm
    have hmn : m ≠ n := fun heq => hm (heq ▸ hn)
    exact (hkept m hmn).trans (h.frame m hm)
  · have hsame : (t'.put n d').opening = t'.opening := by
      funext m
      by_cases hmn : m = n
      · subst hmn
        rw [opening_of_some (entry_put_self t' m d'), opening_of_some hd, hopening]
      · exact opening_congr (hkept m hmn)
    rw [hsame]
    exact h.ledger

/-- Writing back what was there changes nothing. -/
theorem put_same {d : Descriptor} (h : t.Grown t' fds) (hd : t'.entry n = some d) :
    t.Grown (t'.put n d) fds := by
  have hentry : (t'.put n d).entry = t'.entry := Function.update_eq_self_iff.2 hd.symm
  refine ⟨h.nodup, h.fresh, ?_, ?_, h.strays, ?_⟩
  · rw [hentry]
    exact h.opened
  · rw [hentry]
    exact h.frame
  · rw [map_opening_congr fun n _ => congrFun hentry n]
    exact h.ledger

theorem fcntl_setfd {fails : Bool} {arg : Nat} (h : t.Grown t' fds) (hn : n ∈ fds) :
    t.Grown (t'.fcntl k fails n F_SETFD arg).2 fds := by
  obtain ⟨d, hd⟩ := Option.ne_none_iff_exists'.1 (h.opened n hn)
  rw [Descriptors.fcntl_setfd hd]
  cases fails with
  | true => exact h
  | false => exact h.put hn hd rfl

end Grown
end Descriptors
end Beyond
