import Beyond.Base.Bytes
import Beyond.Base.Framing
import Beyond.Base.Platform
import Beyond.Base.Run

/-!
# Command records on a byte stream

`CommandObject::Send` writes the address of a new `CommandData` to its handle, `Recv` on the other end
reads an address and deletes the record it points to.  A `write` or `read` may transfer fewer bytes
than it was asked for; both functions then try once more for the rest.

One end sends and the other receives, each one call at a time, and their system calls interleave in
any order.  An octet of the stream knows the record whose address it belongs to; the code only sees
its value.  The assertions are compiled out.
-/

namespace Beyond
namespace CommandObject

open Bytes (leBytes leNat)
open Errno
open Framing

variable {δ : Type*}

/-! ## Records -/

structure CommandData (δ : Type*) where
  id : Int
  data : δ
  deriving DecidableEq, Repr

/-- A `CommandData` in memory.  `serial` tells apart the records that had one address in turn. -/
structure Record (δ : Type*) where
  serial : Nat
  address : Nat
  command : CommandData δ
  deriving DecidableEq, Repr

structure Octet where
  record : Nat
  value : UInt8
  deriving DecidableEq, Repr

/-- `sizeof(cmd)`. -/
def pointerSize : Nat := 8

def Record.octets (r : Record δ) : List Octet :=
  (leBytes pointerSize r.address).map fun value => ⟨r.serial, value⟩

/-- The address that the bytes of a pointer stand for. -/
def address (octets : List Octet) : Nat := leNat (octets.map Octet.value)

@[simp] theorem Record.length_octets (r : Record δ) : r.octets.length = pointerSize := by
  simp [octets]

theorem Record.record_of_mem {r : Record δ} {o : Octet} (h : o ∈ r.octets) :
    o.record = r.serial := by
  rcases List.mem_map.1 h with ⟨value, -, rfl⟩
  rfl

theorem Record.address_octets {r : Record δ} (h : r.address < 2 ^ 64) :
    CommandObject.address r.octets = r.address := by
  have hvalues : r.octets.map Octet.value = leBytes pointerSize r.address := by
    simp [octets, Function.comp_def]
  calc
    CommandObject.address r.octets = leNat (leBytes pointerSize r.address) := by
          rw [CommandObject.address, hvalues]
    _ = r.address % 256 ^ pointerSize := Bytes.leNat_leBytes _ _
    _ = r.address := Nat.mod_eq_of_lt h

/-! ## State -/

/-- What a `write` or a `read` does. -/
inductive Transfer
  | moved (count : Nat)
  | failed (errno : Int)
  deriving DecidableEq, Repr

def Transfer.count : Transfer → Nat
  | .moved count => count
  | .failed _ => 0

/-- The lists of commands and records and the numbers of bytes are ghosts. -/
structure State (δ : Type*) where
  sendHandle : Int
  recvHandle : Int
  stream : List Octet
  /-- The records that were not deleted, at their addresses. -/
  heap : Nat → Option (Record δ)
  serial : Nat
  /-- A `Send` between its two calls of `write`, with the number of bytes written. -/
  sending : Option (Record δ × Nat)
  /-- A `Recv` between its two calls of `read`, with what it has read. -/
  receiving : Option (List Octet)
  /-- The commands of the calls of `Send` that returned 0. -/
  accepted : List (CommandData δ)
  /-- What the calls of `Recv` that returned 0 passed back. -/
  delivered : List (CommandData δ)
  /-- The serial numbers of the deleted records. -/
  deleted : List Nat
  written : Nat
  taken : Nat

def State.created (sendHandle recvHandle : Int) : State δ :=
  ⟨sendHandle, recvHandle, [], fun _ => none, 0, none, none, [], [], [], 0, 0⟩

inductive Side
  | send
  | recv
  deriving DecidableEq, Repr

/-- What comes of a system call of a `Send` or a `Recv`. -/
inductive Outcome (δ : Type*)
  | goesOn (s : State δ)
  | returns (side : Side) (s : State δ) (ret : Int)
  /-- A pointer is dereferenced at which no record is. -/
  | wild

/-! ## `Send` -/

/-- `DeleteCommandData`. -/
def State.delete (s : State δ) (r : Record δ) : State δ :=
  { s with heap := Function.update s.heap r.address none, deleted := s.deleted ++ [r.serial] }

/-- The bytes of the record behind the first `start` go to the stream. -/
def State.put (s : State δ) (r : Record δ) (start count : Nat) : State δ :=
  { s with
    stream := s.stream ++ (r.octets.drop start).take count
    written := s.written + count }

def State.accept (s : State δ) (r : Record δ) : State δ :=
  { s with sending := none, accepted := s.accepted ++ [r.command] }

/-- `NewCommandData` at a given address. -/
def State.newCommandData (s : State δ) (address : Nat) (command : CommandData δ) :
    Record δ × State δ :=
  let r : Record δ := ⟨s.serial, address, command⟩
  (r, { s with heap := Function.update s.heap address (some r), serial := s.serial + 1 })

/-- `Send` up to its first `write`; `address` is where the record gets its memory, if any. -/
def Send (s : State δ) (command : CommandData δ) (address : Option Nat) (write : Transfer) :
    Outcome δ :=
  if s.sendHandle < 0 then .returns .send s (-EINVAL)
  else
    match address with
    | none => .returns .send s (-ENOMEM)
    | some address =>
        let cmd := (s.newCommandData address command).1
        let s := (s.newCommandData address command).2
        match write with
        | .failed errno => .returns .send (s.delete cmd) (-errno)
        | .moved ret =>
            let s := s.put cmd 0 ret
            if ret = pointerSize then .returns .send (s.accept cmd) 0
            else .goesOn { s with sending := some (cmd, ret) }

/-- The second `write`. -/
def SendAgain (s : State δ) (cmd : Record δ) (ret : Nat) (write : Transfer) : Outcome δ :=
  let t := s.put cmd ret write.count
  if write = .moved (pointerSize - ret) then .returns .send (t.accept cmd) 0
  else .returns .send ({ t with sending := none }.delete cmd) (-EFAULT)

/-! ## `Recv` -/

/-- Bytes of the stream are read. -/
def State.take (s : State δ) (count : Nat) : State δ :=
  { s with stream := s.stream.drop count, taken := s.taken + count }

/-- The end of a `Recv` that has read a whole pointer. -/
def State.receive (s : State δ) (pointer : List Octet) : Outcome δ :=
  let s := { s with receiving := none }
  if address pointer = 0 then .returns .recv s (-EFAULT)
  else
    match s.heap (address pointer) with
    | none => .wild
    | some cmd =>
        .returns .recv { s.delete cmd with delivered := s.delivered ++ [cmd.command] } 0

def Recv (s : State δ) (read : Transfer) : Outcome δ :=
  if s.recvHandle < 0 then .returns .recv s (-EINVAL)
  else
    match read with
    | .failed errno => .returns .recv s (-errno)
    | .moved ret =>
        let got := s.stream.take ret
        if ret = pointerSize then (s.take ret).receive got
        else .goesOn { s.take ret with receiving := some got }

/-- The second `read`. -/
def RecvAgain (s : State δ) (got : List Octet) (read : Transfer) : Outcome δ :=
  let more := s.stream.take read.count
  let t := s.take read.count
  if read = .moved (pointerSize - got.length) then t.receive (got ++ more)
  else .returns .recv { t with receiving := none } (-EFAULT)

/-! ## Steps -/

inductive Act (δ : Type*)
  | send (command : CommandData δ) (address : Option Nat) (write : Transfer)
  | sendAgain (write : Transfer)
  | recv (read : Transfer)
  | recvAgain (read : Transfer)
  deriving DecidableEq, Repr

/-- At most `limit` bytes are moved, and errors have positive numbers. -/
def Transfer.Possible (limit : Nat) : Transfer → Prop
  | .moved count => count ≤ limit
  | .failed errno => 0 < errno

instance (limit : Nat) : ∀ t : Transfer, Decidable (t.Possible limit)
  | .moved count => inferInstanceAs (Decidable (count ≤ limit))
  | .failed errno => inferInstanceAs (Decidable (0 < errno))

/-- What callers, the allocator and the stream can do: an end has one call at a time, a new record is
at no address in use, and a `read` gets no more than there is. -/
def Enabled (s : State δ) : Act δ → Prop
  | .send _ address write => s.sending.isNone ∧
      (∀ a ∈ address, a ≠ 0 ∧ a < 2 ^ 64 ∧ (s.heap a).isNone) ∧ write.Possible pointerSize
  | .sendAgain write => ∃ p ∈ s.sending, write.Possible (pointerSize - p.2)
  | .recv read => s.receiving.isNone ∧ read.Possible (min pointerSize s.stream.length)
  | .recvAgain read => ∃ got ∈ s.receiving,
      read.Possible (min (pointerSize - got.length) s.stream.length)

instance (s : State δ) : ∀ a, Decidable (Enabled s a)
  | .send _ address write => inferInstanceAs (Decidable (s.sending.isNone ∧
      (∀ a ∈ address, a ≠ 0 ∧ a < 2 ^ 64 ∧ (s.heap a).isNone) ∧ write.Possible pointerSize))
  | .sendAgain write =>
      inferInstanceAs (Decidable (∃ p ∈ s.sending, write.Possible (pointerSize - p.2)))
  | .recv read => inferInstanceAs (Decidable
      (s.receiving.isNone ∧ read.Possible (min pointerSize s.stream.length)))
  | .recvAgain read => inferInstanceAs (Decidable (∃ got ∈ s.receiving,
      read.Possible (min (pointerSize - got.length) s.stream.length)))

def perform (s : State δ) : Act δ → Outcome δ
  | .send command address write => Send s command address write
  | .sendAgain write =>
      match s.sending with
      | some (cmd, ret) => SendAgain s cmd ret write
      | none => .goesOn s
  | .recv read => Recv s read
  | .recvAgain read =>
      match s.receiving with
      | some got => RecvAgain s got read
      | none => .goesOn s

def Outcome.state : Outcome δ → Option (State δ)
  | .goesOn s => some s
  | .returns _ s _ => some s
  | .wild => none

/-- A dereferenced wild pointer ends the run. -/
def step (s : State δ) (a : Act δ) : Option (State δ) :=
  if Enabled s a then (perform s a).state else none

/-! ## Laws -/

/-- What holds of the ghosts: commands arrive in order and at most once, no record is deleted twice,
and none with a byte of its address in the stream. -/
structure Kept (s : State δ) : Prop where
  delivered : s.delivered <+: s.accepted
  once : s.deleted.Nodup
  unread : ∀ o ∈ s.stream, o.record ∉ s.deleted

/-- An end of the stream is at the border of two records. -/
def Aligned (s : State δ) : Side → Prop
  | .send => pointerSize ∣ s.written
  | .recv => pointerSize ∣ s.taken

def Outcome.Lawful : Outcome δ → Prop
  | .goesOn s => Kept s
  | .returns side s ret => Kept s ∧ (ret ≠ 0 → Aligned s side)
  | .wild => False

def Laws (s : State δ) (a : Act δ) : Prop := Enabled s a → (perform s a).Lawful

/-- All of a pointer is moved by the two transfers, or nothing. -/
def Whole (before : Nat) (again : Transfer) : Prop :=
  before + again.count = pointerSize ∨ before + again.count = 0

/-- A second transfer completes the first, or both moved nothing. -/
def Clean (s : State δ) (a : Act δ) : Prop :=
  Enabled s a →
    match a with
    | .send _ _ _ | .recv _ => True
    | .sendAgain write => ∀ p ∈ s.sending, Whole p.2 write
    | .recvAgain read => ∀ got ∈ s.receiving, Whole got.length read

/-! ## The invariant -/

/-- The bytes of the record that is being sent. -/
def State.part (s : State δ) : List Octet :=
  match s.sending with
  | some (cmd, ret) => cmd.octets.take ret
  | none => []

/-- The number of these bytes. -/
def State.sent (s : State δ) : Nat := (s.sending.map Prod.snd).getD 0

/-- What the `Recv` under way has read. -/
def State.got (s : State δ) : List Octet := s.receiving.getD []

/-- The records whose addresses were accepted and not received, and the one that is being sent. -/
def State.live (s : State δ) (flight : List (Record δ)) : List (Record δ) :=
  flight ++ (s.sending.map Prod.fst).toList

/-- `flight` are the records between the calls of `Send` and `Recv` that returned 0. -/
structure Inv (s : State δ) (flight : List (Record δ)) : Prop where
  wire : s.got ++ s.stream = wire Record.octets flight s.part
  commands : s.accepted = s.delivered ++ flight.map Record.command
  heap : ∀ r ∈ s.live flight, s.heap r.address = some r ∧ r.address ≠ 0 ∧ r.address < 2 ^ 64
  serials : ((s.live flight).map Record.serial ++ s.deleted).Nodup
  fresh : ∀ n ∈ (s.live flight).map Record.serial ++ s.deleted, n < s.serial
  sent : s.sent < pointerSize ∧ s.written % pointerSize = s.sent
  got : s.got.length < pointerSize ∧ s.taken % pointerSize = s.got.length

theorem Inv.created (sendHandle recvHandle : Int) :
    Inv (State.created sendHandle recvHandle : State δ) [] := by
  refine ⟨rfl, rfl, ?_, List.nodup_nil, ?_, ⟨Nat.succ_pos 7, rfl⟩, Nat.succ_pos 7, rfl⟩
  · intro r hr
    cases hr
  · intro n hn
    cases hn

section

variable {s : State δ} {flight : List (Record δ)}

theorem mem_part {o : Octet} (h : o ∈ s.part) :
    ∃ r ∈ (s.sending.map Prod.fst).toList, o.record = r.serial := by
  unfold State.part at h
  split at h
  · next cmd ret hsending =>
      refine ⟨cmd, by simp [hsending], ?_⟩
      exact Record.record_of_mem (List.mem_of_mem_take h)
  · cases h

theorem Inv.kept (h : Inv s flight) : Kept s where
  delivered := ⟨flight.map Record.command, h.commands.symm⟩
  once := (List.nodup_append.1 h.serials).2.1
  unread := by
    intro o ho hdeleted
    have hwire : o ∈ Framing.wire Record.octets flight s.part := by
      rw [← h.wire]
      exact List.mem_append_right _ ho
    -- The octet belongs to a record that is alive, and those were not deleted.
    have hlive : o.record ∈ (s.live flight).map Record.serial := by
      rcases mem_wire.1 hwire with ⟨r, hr, hor⟩ | hpart
      · rw [Record.record_of_mem hor]
        exact List.mem_map_of_mem (List.mem_append_left _ hr)
      · rcases mem_part hpart with ⟨r, hr, hrecord⟩
        rw [hrecord]
        exact List.mem_map_of_mem (List.mem_append_right _ hr)
    exact (List.nodup_append.1 h.serials).2.2 _ hlive _ hdeleted rfl

theorem Inv.aligned_send (h : Inv s flight) (hsending : s.sending = none) : Aligned s .send := by
  have hsent : s.sent = 0 := by simp [State.sent, hsending]
  exact Nat.dvd_of_mod_eq_zero (h.sent.2.trans hsent)

theorem Inv.aligned_recv (h : Inv s flight) (hreceiving : s.receiving = none) :
    Aligned s .recv := by
  have hgot : s.got.length = 0 := by simp [State.got, hreceiving]
  exact Nat.dvd_of_mod_eq_zero (h.got.2.trans hgot)

/-! ## Writing -/

/-- A new record of which nothing is sent. -/
def State.begin (s : State δ) (address : Nat) (command : CommandData δ) : State δ :=
  { (s.newCommandData address command).2 with
    sending := some ((s.newCommandData address command).1, 0) }

theorem Inv.begin (h : Inv s flight) (hsending : s.sending = none) {address : Nat}
    (haddress : address ≠ 0 ∧ address < 2 ^ 64) (hfree : s.heap address = none)
    (command : CommandData δ) : Inv (s.begin address command) flight := by
  have hlive : s.live flight = flight := by simp [State.live, hsending]
  have hpart : s.part = [] := by simp [State.part, hsending]
  have hbegin : (s.begin address command).live flight = flight ++ [⟨s.serial, address, command⟩] := by
    simp [State.live, State.begin, State.newCommandData]
  have hheap := h.heap
  have hserials := h.serials
  have hfresh := h.fresh
  have hwire := h.wire
  have hsent := h.sent
  simp only [State.sent, hsending, Option.map_none, Option.getD_none] at hsent
  rw [hlive] at hheap hserials hfresh
  rw [hpart] at hwire
  refine ⟨?_, h.commands, ?_, ?_, ?_, hsent, h.got⟩
  · refine hwire.trans ?_
    simp [State.begin, State.part]
  · rw [hbegin]
    intro r hr
    rcases List.mem_append.1 hr with hr | hr
    · -- The address was free, so it is not that of an earlier record.
      have hne : r.address ≠ address := by
        intro heq
        have hsome := (hheap r hr).1
        rw [heq, hfree] at hsome
        cases hsome
      refine ⟨?_, (hheap r hr).2⟩
      exact (Function.update_of_ne hne _ _).trans (hheap r hr).1
    · cases List.mem_singleton.1 hr
      exact ⟨Function.update_self _ _ _, haddress⟩
  · rw [hbegin, List.map_append, List.append_assoc]
    have hnew : s.serial ∉ flight.map Record.serial ++ s.deleted := fun hmem =>
      absurd (hfresh _ hmem) (Nat.lt_irrefl _)
    refine (List.perm_middle.nodup_iff).2 (List.nodup_cons.2 ⟨?_, hserials⟩)
    exact hnew
  · rw [hbegin, List.map_append, List.append_assoc]
    intro n hn
    rcases List.mem_cons.1 (List.perm_middle.mem_iff.1 hn) with rfl | hn
    · exact Nat.lt_succ_self _
    · exact (hfresh n hn).trans (Nat.lt_succ_self _)

/-- Behind a `write` the stream has the bytes of the record up to there. -/
theorem Inv.put_wire (h : Inv s flight) {cmd : Record δ} {ret : Nat}
    (hsending : s.sending = some (cmd, ret)) (count : Nat) :
    s.got ++ (s.put cmd ret count).stream =
      Framing.wire Record.octets flight (cmd.octets.take (ret + count)) := by
  have hpart : s.part = cmd.octets.take ret := by simp [State.part, hsending]
  calc
    s.got ++ (s.stream ++ (cmd.octets.drop ret).take count)
        = (s.got ++ s.stream) ++ (cmd.octets.drop ret).take count :=
          (List.append_assoc _ _ _).symm
    _ = Framing.wire Record.octets flight (cmd.octets.take ret) ++
          (cmd.octets.drop ret).take count := by rw [h.wire, hpart]
    _ = Framing.wire Record.octets flight (cmd.octets.take ret ++
          (cmd.octets.drop ret).take count) := wire_append _ _ _
    _ = Framing.wire Record.octets flight (cmd.octets.take (ret + count)) := by
          rw [List.take_add]

/-- A `write` that leaves bytes of the record to be written. -/
theorem Inv.put (h : Inv s flight) {cmd : Record δ} {ret count : Nat}
    (hsending : s.sending = some (cmd, ret)) (hcount : ret + count < pointerSize) :
    Inv { s.put cmd ret count with sending := some (cmd, ret + count) } flight := by
  have hlive : s.live flight = flight ++ [cmd] := by simp [State.live, hsending]
  have hheap := h.heap
  have hserials := h.serials
  have hfresh := h.fresh
  rw [hlive] at hheap hserials hfresh
  have hsent := h.sent
  simp only [State.sent, hsending, Option.map_some, Option.getD_some] at hsent
  refine ⟨h.put_wire hsending count, h.commands, hheap, hserials, hfresh, ⟨hcount, ?_⟩, h.got⟩
  have hmod : (s.written + count) % pointerSize = ret + count := by
    unfold pointerSize at hsent hcount ⊢
    omega
  exact hmod

/-- A `write` that ends the record. -/
theorem Inv.accept (h : Inv s flight) {cmd : Record δ} {ret count : Nat}
    (hsending : s.sending = some (cmd, ret)) (hcount : ret + count = pointerSize) :
    Inv ((s.put cmd ret count).accept cmd) (flight ++ [cmd]) := by
  have hlive : s.live flight = flight ++ [cmd] := by simp [State.live, hsending]
  have hlive' : ((s.put cmd ret count).accept cmd).live (flight ++ [cmd]) = flight ++ [cmd] := by
    simp [State.live, State.accept]
  have hheap := h.heap
  have hserials := h.serials
  have hfresh := h.fresh
  rw [hlive] at hheap hserials hfresh
  have hsent := h.sent
  simp only [State.sent, hsending, Option.map_some, Option.getD_some] at hsent
  have hwhole : cmd.octets.take (ret + count) = cmd.octets := by
    rw [hcount, ← cmd.length_octets, List.take_length]
  refine ⟨?_, ?_, ?_, ?_, ?_, ⟨Nat.succ_pos 7, ?_⟩, h.got⟩
  · have hwire := h.put_wire hsending count
    rw [hwhole, wire_complete] at hwire
    exact hwire
  · have hcommands : s.accepted ++ [cmd.command] =
        s.delivered ++ (flight ++ [cmd]).map Record.command := by
      rw [h.commands, List.map_append, List.append_assoc]
      rfl
    exact hcommands
  · rw [hlive']
    exact hheap
  · rw [hlive']
    exact hserials
  · rw [hlive']
    exact hfresh
  · have hmod : (s.written + count) % pointerSize = 0 := by
      unfold pointerSize at hsent hcount ⊢
      omega
    exact hmod

/-! ## Deleting -/

/-- Where one of the living records is deleted, the others stay where they are. -/
theorem Inv.delete_live (h : Inv s flight) {cmd : Record δ} {rest : List (Record δ)}
    (hlive : (s.live flight).Perm (cmd :: rest)) :
    (∀ r ∈ rest, (s.delete cmd).heap r.address = some r ∧ r.address ≠ 0 ∧ r.address < 2 ^ 64) ∧
      (rest.map Record.serial ++ (s.delete cmd).deleted).Nodup ∧
        ∀ n ∈ rest.map Record.serial ++ (s.delete cmd).deleted, n < s.serial := by
  have hperm : ((s.live flight).map Record.serial ++ s.deleted).Perm
      (rest.map Record.serial ++ (s.delete cmd).deleted) := by
    have hmap := (hlive.map Record.serial).append_right s.deleted
    refine hmap.trans ?_
    -- The serial number goes from the front of the living to the end of the deleted.
    have hmove : (cmd.serial :: (rest.map Record.serial ++ s.deleted)).Perm
        ((rest.map Record.serial ++ s.deleted) ++ [cmd.serial]) := List.perm_append_singleton _ _ |>.symm
    refine hmove.trans ?_
    rw [List.append_assoc]
    exact List.Perm.refl _
  have hserials := hperm.nodup_iff.1 h.serials
  refine ⟨?_, hserials, fun n hn => h.fresh n (hperm.mem_iff.2 hn)⟩
  intro r hr
  have hr' : r ∈ s.live flight := hlive.mem_iff.2 (List.mem_cons_of_mem _ hr)
  have hcmd : cmd ∈ s.live flight := hlive.mem_iff.2 List.mem_cons_self
  have hne : r.address ≠ cmd.address := by
    intro heq
    have hboth : some r = some cmd := by
      rw [← (h.heap r hr').1, heq, (h.heap cmd hcmd).1]
    cases hboth
    -- The serial numbers of the rest are not that of the deleted record.
    have hdeleted : cmd.serial ∈ (s.delete cmd).deleted := by simp [State.delete]
    exact (List.nodup_append.1 hserials).2.2 _ (List.mem_map_of_mem hr) _ hdeleted rfl
  refine ⟨?_, (h.heap r hr').2⟩
  exact (Function.update_of_ne hne _ _).trans (h.heap r hr').1

/-- A record of which nothing was written can be deleted. -/
theorem Inv.abandon (h : Inv s flight) {cmd : Record δ} (hsending : s.sending = some (cmd, 0)) :
    Inv ({ s with sending := none }.delete cmd) flight := by
  have hlive : (s.live flight).Perm (cmd :: flight) := by
    have heq : s.live flight = flight ++ [cmd] := by simp [State.live, hsending]
    rw [heq]
    exact List.perm_append_singleton _ _
  have hlive' : ({ s with sending := none }.delete cmd).live flight = flight := by
    simp [State.live, State.delete]
  rcases h.delete_live hlive with ⟨hheap, hserials, hfresh⟩
  have hwire := h.wire
  have hpart : s.part = [] := by simp [State.part, hsending]
  rw [hpart] at hwire
  have hsent := h.sent
  simp only [State.sent, hsending, Option.map_some, Option.getD_some] at hsent
  refine ⟨hwire, h.commands, ?_, ?_, ?_, hsent, h.got⟩
  · rw [hlive']
    exact hheap
  · rw [hlive']
    exact hserials
  · rw [hlive']
    exact hfresh

/-! ## Reading -/

/-- A `read` that leaves bytes of the pointer to be read. -/
theorem Inv.take (h : Inv s flight) {count : Nat} (hcount : count ≤ s.stream.length)
    (hpointer : s.got.length + count < pointerSize) :
    Inv { s.take count with receiving := some (s.got ++ s.stream.take count) } flight := by
  have hlength : (s.got ++ s.stream.take count).length = s.got.length + count := by
    rw [List.length_append, List.length_take, Nat.min_eq_left hcount]
  have hgot := h.got
  refine ⟨?_, h.commands, h.heap, h.serials, h.fresh, h.sent, ?_⟩
  · calc
      (s.got ++ s.stream.take count) ++ s.stream.drop count
          = s.got ++ (s.stream.take count ++ s.stream.drop count) := List.append_assoc _ _ _
      _ = s.got ++ s.stream := by rw [List.take_append_drop]
      _ = Framing.wire Record.octets flight s.part := h.wire
  · have hmod : (s.taken + count) % pointerSize = s.got.length + count := by
      unfold pointerSize at hgot hpointer ⊢
      omega
    exact ⟨hlength.trans_lt hpointer, hmod.trans hlength.symm⟩

theorem State.length_part_lt (h : Inv s flight) : s.part.length < pointerSize := by
  have hsent := h.sent.1
  unfold State.part
  unfold State.sent at hsent
  cases hsending : s.sending with
  | none => exact Nat.succ_pos 7
  | some p =>
      simp only [hsending, Option.map_some, Option.getD_some] at hsent
      rw [List.length_take]
      exact (min_le_left _ _).trans_lt hsent

/-- A `read` that ends the pointer gives the record that was sent first, which is alive. -/
theorem Inv.receive (h : Inv s flight) {count : Nat} (hcount : count ≤ s.stream.length)
    (hpointer : s.got.length + count = pointerSize) :
    ∃ r flight', flight = r :: flight' ∧
      (s.take count).receive (s.got ++ s.stream.take count) =
        .returns .recv { { s.take count with receiving := none }.delete r with
          delivered := s.delivered ++ [r.command] } 0 ∧
      Inv { { s.take count with receiving := none }.delete r with
          delivered := s.delivered ++ [r.command] } flight' := by
  have hlength : (s.got ++ s.stream.take count).length = pointerSize := by
    rw [List.length_append, List.length_take, Nat.min_eq_left hcount, hpointer]
  have hsplit : (s.got ++ s.stream.take count) ++ s.stream.drop count =
      Framing.wire Record.octets flight s.part := by
    rw [List.append_assoc, List.take_append_drop, h.wire]
  rcases first_record Record.length_octets (State.length_part_lt h) hlength hsplit with
    ⟨r, flight', rfl, hpiece, hrest⟩
  have hr : r ∈ s.live (r :: flight') := by simp [State.live]
  rcases h.heap r hr with ⟨hheap, hnull, hsize⟩
  have haddress : address (s.got ++ s.stream.take count) = r.address := by
    rw [hpiece, Record.address_octets hsize]
  refine ⟨r, flight', rfl, ?_, ?_⟩
  · have hlookup : (s.take count).heap r.address = some r := hheap
    simp only [State.receive, haddress, if_neg hnull, hlookup]
    rfl
  · have hlive : (s.live (r :: flight')).Perm (r :: s.live flight') := List.Perm.refl _
    rcases h.delete_live hlive with ⟨hheap', hserials, hfresh⟩
    have hgot := h.got
    refine ⟨hrest, ?_, hheap', hserials, hfresh, h.sent, Nat.succ_pos 7, ?_⟩
    · have hcommands : s.accepted = (s.delivered ++ [r.command]) ++ flight'.map Record.command := by
        rw [h.commands, List.append_assoc]
        rfl
      exact hcommands
    · have hmod : (s.taken + count) % pointerSize = 0 := by
        unfold pointerSize at hgot hpointer ⊢
        omega
      exact hmod

/-- A `Recv` that has read nothing can end. -/
theorem Inv.giveUp (h : Inv s flight) (hgot : s.got = []) :
    Inv { s with receiving := none } flight := by
  have hwire := h.wire
  have htaken := h.got.2
  rw [hgot] at hwire htaken
  exact ⟨hwire, h.commands, h.heap, h.serials, h.fresh, h.sent, Nat.succ_pos 7, htaken⟩

/-! ## One step -/

/-- No call is under way at this end. -/
def Idle (s : State δ) : Side → Prop
  | .send => s.sending = none
  | .recv => s.receiving = none

/-- The invariant behind a system call; a call that fails is over. -/
def Outcome.Good : Outcome δ → Prop
  | .goesOn s => ∃ flight, Inv s flight
  | .returns side s ret => (∃ flight, Inv s flight) ∧ (ret ≠ 0 → Idle s side)
  | .wild => False

theorem Outcome.Good.lawful {out : Outcome δ} (h : out.Good) : out.Lawful := by
  cases out with
  | goesOn s =>
      rcases h with ⟨flight, hinv⟩
      exact hinv.kept
  | returns side s ret =>
      rcases h with ⟨⟨flight, hinv⟩, hidle⟩
      refine ⟨hinv.kept, fun hret => ?_⟩
      cases side with
      | send => exact hinv.aligned_send (hidle hret)
      | recv => exact hinv.aligned_recv (hidle hret)
  | wild => exact h

theorem Outcome.Good.state {out : Outcome δ} (h : out.Good) {t : State δ}
    (hstate : out.state = some t) : ∃ flight, Inv t flight := by
  cases out with
  | goesOn s =>
      cases hstate
      exact h
  | returns side s ret =>
      cases hstate
      exact h.1
  | wild => exact h.elim

theorem send_good (h : Inv s flight) {command : CommandData δ} {address : Option Nat}
    {write : Transfer} (henabled : Enabled s (.send command address write)) :
    (Send s command address write).Good := by
  rcases henabled with ⟨hidle, haddress, hpossible⟩
  have hsending : s.sending = none := Option.isNone_iff_eq_none.1 hidle
  unfold Send
  split
  · exact ⟨⟨flight, h⟩, fun _ => hsending⟩
  · cases address with
    | none => exact ⟨⟨flight, h⟩, fun _ => hsending⟩
    | some a =>
        rcases haddress a rfl with ⟨hnull, hsize, hfree⟩
        have hbegin := h.begin hsending ⟨hnull, hsize⟩ (Option.isNone_iff_eq_none.1 hfree) command
        have hnew : (s.begin a command).sending = some ((s.newCommandData a command).1, 0) := rfl
        cases write with
        | failed errno =>
            have hstate : { s.begin a command with sending := none } =
                (s.newCommandData a command).2 := by
              simp [State.begin, State.newCommandData, hsending]
            have habandon := hbegin.abandon hnew
            rw [hstate] at habandon
            exact ⟨⟨flight, habandon⟩, fun _ => hsending⟩
        | moved ret =>
            dsimp only
            split
            · next hwhole =>
                have haccept := hbegin.accept hnew ((Nat.zero_add ret).trans hwhole)
                exact ⟨⟨_, haccept⟩, fun hret => absurd rfl hret⟩
            · next hpart =>
                have hret : 0 + ret < pointerSize := by
                  have hle : ret ≤ pointerSize := hpossible
                  omega
                have hput := hbegin.put hnew hret
                rw [Nat.zero_add] at hput
                exact ⟨flight, hput⟩

theorem whole_cases {before : Nat} {again : Transfer} (hbefore : before < pointerSize)
    (h : Whole before again) :
    again = .moved (pointerSize - before) ∨ (before = 0 ∧ again.count = 0) := by
  unfold Whole at h
  cases again with
  | moved count =>
      have hcount : Transfer.count (.moved count) = count := rfl
      rw [hcount] at h ⊢
      by_cases hzero : before + count = 0
      · exact .inr ⟨by omega, by omega⟩
      · refine .inl (congrArg Transfer.moved ?_)
        omega
  | failed errno =>
      have hcount : Transfer.count (.failed errno) = 0 := rfl
      rw [hcount] at h ⊢
      exact .inr ⟨by omega, rfl⟩

theorem State.put_zero (s : State δ) (cmd : Record δ) (start : Nat) : s.put cmd start 0 = s := by
  simp [State.put]

theorem sendAgain_good (h : Inv s flight) {cmd : Record δ} {ret : Nat} {write : Transfer}
    (hsending : s.sending = some (cmd, ret)) (hwhole : Whole ret write) :
    (SendAgain s cmd ret write).Good := by
  have hret : ret < pointerSize := by
    have hsent := h.sent.1
    simpa only [State.sent, hsending, Option.map_some, Option.getD_some] using hsent
  unfold SendAgain
  dsimp only
  rcases whole_cases hret hwhole with rfl | ⟨rfl, hzero⟩
  · rw [if_pos rfl]
    have hsum : ret + (pointerSize - ret) = pointerSize := by omega
    exact ⟨⟨_, h.accept hsending hsum⟩, fun hne => absurd rfl hne⟩
  · have hne : write ≠ .moved (pointerSize - 0) := by
      rintro rfl
      exact absurd hzero (by decide)
    rw [if_neg hne, hzero, State.put_zero]
    exact ⟨⟨flight, h.abandon hsending⟩, fun _ => rfl⟩

theorem recv_good (h : Inv s flight) {read : Transfer} (henabled : Enabled s (.recv read)) :
    (Recv s read).Good := by
  rcases henabled with ⟨hidle, hpossible⟩
  have hreceiving : s.receiving = none := Option.isNone_iff_eq_none.1 hidle
  have hgot : s.got = [] := by simp [State.got, hreceiving]
  unfold Recv
  split
  · exact ⟨⟨flight, h⟩, fun _ => hreceiving⟩
  · cases read with
    | failed errno => exact ⟨⟨flight, h⟩, fun _ => hreceiving⟩
    | moved ret =>
        have hle : ret ≤ min pointerSize s.stream.length := hpossible
        have hstream : ret ≤ s.stream.length := hle.trans (min_le_right _ _)
        dsimp only
        split
        · next hwhole =>
            have hpointer : s.got.length + ret = pointerSize := by
              rw [hgot, List.length_nil, Nat.zero_add, hwhole]
            rcases h.receive hstream hpointer with ⟨r, flight', -, hreceive, hinv⟩
            rw [hgot, List.nil_append] at hreceive
            rw [hreceive]
            exact ⟨⟨flight', hinv⟩, fun hret => absurd rfl hret⟩
        · next hpart =>
            have hpointer : s.got.length + ret < pointerSize := by
              rw [hgot, List.length_nil, Nat.zero_add]
              have hsize := hle.trans (min_le_left _ _)
              omega
            have htake := h.take hstream hpointer
            rw [hgot, List.nil_append] at htake
            exact ⟨flight, htake⟩

theorem recvAgain_good (h : Inv s flight) {got : List Octet} {read : Transfer}
    (hreceiving : s.receiving = some got)
    (hpossible : read.Possible (min (pointerSize - got.length) s.stream.length))
    (hwhole : Whole got.length read) : (RecvAgain s got read).Good := by
  have hgot : s.got = got := by simp [State.got, hreceiving]
  have hlt : got.length < pointerSize := hgot ▸ h.got.1
  unfold RecvAgain
  dsimp only
  rcases whole_cases hlt hwhole with rfl | ⟨hempty, hzero⟩
  · rw [if_pos rfl]
    have hle : pointerSize - got.length ≤ min (pointerSize - got.length) s.stream.length := hpossible
    have hpointer : s.got.length + (pointerSize - got.length) = pointerSize := by
      rw [hgot]
      omega
    rcases h.receive (hle.trans (min_le_right _ _)) hpointer with ⟨r, flight', -, hreceive, hinv⟩
    rw [hgot] at hreceive
    have hcount : Transfer.count (.moved (pointerSize - got.length)) = pointerSize - got.length := rfl
    rw [hcount, hreceive]
    exact ⟨⟨flight', hinv⟩, fun hret => absurd rfl hret⟩
  · have hne : read ≠ .moved (pointerSize - got.length) := by
      rintro rfl
      have hcount : pointerSize - got.length = 0 := hzero
      omega
    rw [if_neg hne, hzero]
    have hnil : s.got = [] := hgot.trans (List.length_eq_zero_iff.1 hempty)
    exact ⟨⟨flight, h.giveUp hnil⟩, fun _ => rfl⟩

/-- In a state of the invariant, each clean system call keeps it. -/
theorem clean_good (h : Inv s flight) {a : Act δ} (henabled : Enabled s a) (hclean : Clean s a) :
    (perform s a).Good := by
  cases a with
  | send command address write => exact send_good h henabled
  | recv read => exact recv_good h henabled
  | sendAgain write =>
      rcases henabled with ⟨p, hp, hpossible⟩
      have hsending : s.sending = some p := hp
      have hwhole := hclean ⟨p, hp, hpossible⟩ p hp
      simp only [perform, hsending]
      exact sendAgain_good h hsending hwhole
  | recvAgain read =>
      rcases henabled with ⟨got, hgot, hpossible⟩
      have hreceiving : s.receiving = some got := hgot
      have hwhole := hclean ⟨got, hgot, hpossible⟩ got hgot
      simp only [perform, hreceiving]
      exact recvAgain_good h hreceiving hpossible hwhole

/-! ## What a torn record breaks -/

/-- A part of a record that is not completed leaves its end of the stream inside the record. -/
theorem not_whole_mod {before total limit : Nat} {again : Transfer} (h : ¬ Whole before again)
    (hpossible : again.Possible limit) (hlimit : before + limit ≤ pointerSize)
    (htotal : total % pointerSize = before) : ¬ pointerSize ∣ total + again.count := by
  have hcount : again.count ≤ limit := by
    cases again with
    | moved count => exact hpossible
    | failed errno => exact Nat.zero_le _
  unfold Whole at h
  unfold pointerSize at *
  omega

theorem sendAgain_torn (h : Inv s flight) {p : Record δ × Nat} {write : Transfer}
    (hsending : s.sending = some p) (hpossible : write.Possible (pointerSize - p.2))
    (htorn : ¬ Whole p.2 write) : ¬ (SendAgain s p.1 p.2 write).Lawful := by
  have hsent := h.sent
  simp only [State.sent, hsending, Option.map_some, Option.getD_some] at hsent
  have hne : write ≠ .moved (pointerSize - p.2) := by
    rintro rfl
    refine htorn (.inl ?_)
    have hcount : Transfer.count (.moved (pointerSize - p.2)) = pointerSize - p.2 := rfl
    rw [hcount]
    omega
  have hmod := not_whole_mod htorn hpossible (by omega) hsent.2
  intro hlawful
  unfold SendAgain at hlawful
  dsimp only at hlawful
  rw [if_neg hne] at hlawful
  have hefault : -EFAULT ≠ 0 := by decide
  exact hmod (hlawful.2 hefault)

theorem recvAgain_torn (h : Inv s flight) {got : List Octet} {read : Transfer}
    (hreceiving : s.receiving = some got)
    (hpossible : read.Possible (min (pointerSize - got.length) s.stream.length))
    (htorn : ¬ Whole got.length read) : ¬ (RecvAgain s got read).Lawful := by
  have hgot := h.got
  simp only [State.got, hreceiving, Option.getD_some] at hgot
  have hne : read ≠ .moved (pointerSize - got.length) := by
    rintro rfl
    refine htorn (.inl ?_)
    have hcount : Transfer.count (.moved (pointerSize - got.length)) = pointerSize - got.length := rfl
    rw [hcount]
    omega
  have hmod := not_whole_mod htorn hpossible (by omega) hgot.2
  intro hlawful
  unfold RecvAgain at hlawful
  dsimp only at hlawful
  rw [if_neg hne] at hlawful
  have hefault : -EFAULT ≠ 0 := by decide
  exact hmod (hlawful.2 hefault)

theorem laws_iff_clean (h : Inv s flight) (a : Act δ) : Laws s a ↔ Clean s a := by
  constructor
  · intro hlaws henabled
    have hlawful := hlaws henabled
    cases a with
    | send command address write => trivial
    | recv read => trivial
    | sendAgain write =>
        intro p hp
        rcases henabled with ⟨q, hq, hpossible⟩
        cases Option.some.inj (Eq.trans (Eq.symm hp) hq)
        have hsending : s.sending = some p := hp
        by_contra htorn
        simp only [perform, hsending] at hlawful
        exact sendAgain_torn h hsending hpossible htorn hlawful
    | recvAgain read =>
        intro got hgot
        rcases henabled with ⟨got', hgot', hpossible⟩
        cases Option.some.inj (Eq.trans (Eq.symm hgot) hgot')
        have hreceiving : s.receiving = some got := hgot
        by_contra htorn
        simp only [perform, hreceiving] at hlawful
        exact recvAgain_torn h hreceiving hpossible htorn hlawful
  · intro hclean henabled
    exact (clean_good h henabled hclean).lawful

theorem clean_preserved :
    Run.Preserved step Clean (fun s : State δ => ∃ flight, Inv s flight) := by
  rintro s a t ⟨flight, h⟩ hclean hstep
  unfold step at hstep
  split at hstep
  · next henabled => exact (clean_good h henabled hclean).state hstep
  · cases hstep

end

/-- Records keep their framing in exactly the runs in which no record is torn: every transfer that was
begun is completed by the second system call. -/
theorem framing_iff (sendHandle recvHandle : Int) (acts : List (Act δ)) :
    Run.Along step Laws (State.created sendHandle recvHandle) acts ↔
      Run.Along step Clean (State.created sendHandle recvHandle) acts :=
  Run.along_congr clean_preserved (fun _ a ⟨_, h⟩ => laws_iff_clean h a)
    ⟨[], Inv.created sendHandle recvHandle⟩

/-! ## A torn record -/

/-- Half of the address is written, and the second `write` fails. -/
def tornSend : List (Act Nat) :=
  [.send ⟨1, 0⟩ (some 4096) (.moved 4), .sendAgain (.failed EAGAIN)]

theorem tornSend_unlawful : ¬ Run.Along step Laws (State.created 3 4) tornSend := by
  rintro ⟨-, hrest⟩
  -- The stream ends with four bytes of a record that was deleted.
  have hlaws := (hrest _ rfl).1
  have hlawful := hlaws ⟨_, rfl, by decide⟩
  have hefault : -EFAULT ≠ 0 := by decide
  have haligned : pointerSize ∣ 4 := hlawful.2 hefault
  exact absurd haligned (by decide)

end CommandObject
end Beyond
