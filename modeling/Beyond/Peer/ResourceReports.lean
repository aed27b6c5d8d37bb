import Beyond.Base.Run
import Beyond.Peer.GrpcServer

/-!
# Reports of free memory and free storage

`GetInfo` lets a `ResourceInfoCollector` fill in the two numbers of the peer's info and replies them.  The
collector measures where it finds 0, and the info is where a configured number stands as well as the last
measurement.  This module follows a server over any number of `GetInfo` calls on a machine that changes.
-/

namespace Beyond
namespace Peer
namespace ResourceReports

open GrpcServer

/-! ## Machine -/

/-- `struct sysinfo`. -/
structure Sysinfo where
  freeram : UInt64
  memUnit : UInt32
  deriving DecidableEq, Repr

/-- `struct statvfs`; the free blocks have the size `frsize`. -/
structure Statvfs where
  bsize : UInt64
  frsize : UInt64
  bfree : UInt64
  deriving DecidableEq, Repr

/-- What the system calls of one `GetInfo` give; `none` is a failure. -/
structure Machine where
  sysinfo : Option Sysinfo
  getcwd : Option Bytes
  statvfs : Bytes → Option Statvfs

/-! ## The handler -/

/-- The path for `statvfs`; the collector has a copy of `storagePath` of its own. -/
def directory (storagePath : Bytes) (m : Machine) : Bytes :=
  if storagePath = [] then m.getcwd.getD [] else storagePath

/-- The file system that holds the directory. -/
def fileSystem (storagePath : Bytes) (m : Machine) : Option Statvfs :=
  if directory storagePath m = [] then none else m.statvfs (directory storagePath m)

def collectMemory (m : Machine) (info : PeerInfo) : PeerInfo :=
  -- `<= 0` on an unsigned number
  if info.freeMemory = 0 then
    match m.sysinfo with
    | none => info
    | some i => { info with freeMemory := i.freeram }
  else info

def collectStorage (storagePath : Bytes) (m : Machine) (info : PeerInfo) : PeerInfo :=
  if info.freeStorage = 0 then
    match fileSystem storagePath m with
    | none => { info with freeStorage := 0 }
    | some s => { info with freeStorage := s.bsize * s.bfree }
  else info

/-- `collectResourceInfo`. -/
def collectResourceInfo (storagePath : Bytes) (m : Machine) (info : PeerInfo) : PeerInfo :=
  collectStorage storagePath m (collectMemory m info)

/-- `GrpcServer::GetInfo`. -/
def getInfo (srv : Server) (m : Machine) : Server × Answer :=
  match srv.info with
  | none => (srv, ⟨⟨.notFound, "Not Found"⟩, .info 0 0 []⟩)
  | some info =>
      let info := collectResourceInfo srv.storagePath m info
      ({ srv with info := some info }, ⟨.OK, .info info.freeMemory info.freeStorage info.runtimes⟩)

def step (srv : Server) (m : Machine) : Option Server := some (getInfo srv m).1

/-! ## The property -/

def measuredMemory (m : Machine) : Option Nat :=
  m.sysinfo.map fun i => i.freeram.toNat * i.memUnit.toNat

def measuredStorage (storagePath : Bytes) (m : Machine) : Option Nat :=
  (fileSystem storagePath m).map fun s => s.frsize.toNat * s.bfree.toNat

/-- A configured number is reported as it is; otherwise it is the one that is measured now, and 0 if there
is none. -/
def Reported (configured : UInt64) (measured : Option Nat) (reply : UInt64) : Prop :=
  if configured = 0 then reply.toNat = measured.getD 0 else reply = configured

/-- The reply of a server whose info was set to `c`. -/
def Fresh (c : PeerInfo) (srv : Server) (m : Machine) : Prop :=
  ∃ memory storage runtimes, (getInfo srv m).2 = ⟨.OK, .info memory storage runtimes⟩ ∧
    Reported c.freeMemory (measuredMemory m) memory ∧
    Reported c.freeStorage (measuredStorage srv.storagePath m) storage

/-! ## The condition -/

/-- The number that is not configured was 0 until now, and its unit does not show; or the measurement
succeeds and gives the number that stands there. -/
structure Meets (c : PeerInfo) (storagePath : Bytes) (info : PeerInfo) (m : Machine) : Prop where
  memory : c.freeMemory = 0 →
    if info.freeMemory = 0 then ∀ i, m.sysinfo = some i → i.freeram = 0 ∨ i.memUnit = 1
    else measuredMemory m = some info.freeMemory.toNat
  storage : c.freeStorage = 0 →
    if info.freeStorage = 0 then
      ∀ s, fileSystem storagePath m = some s →
        (s.bsize * s.bfree).toNat = s.frsize.toNat * s.bfree.toNat
    else measuredStorage storagePath m = some info.freeStorage.toNat

/-! ## One number -/

/-- What becomes of a number for which `counted` is found. -/
def refill (field : UInt64) (counted : Option UInt64) : UInt64 :=
  if field = 0 then counted.getD 0 else field

section Field

variable {c field : UInt64} {counted : Option UInt64} {measured : Option Nat}

theorem collectMemory_eq (m : Machine) (info : PeerInfo) :
    collectMemory m info =
      { info with freeMemory := refill info.freeMemory (m.sysinfo.map Sysinfo.freeram) } := by
  rw [collectMemory, refill]
  by_cases hzero : info.freeMemory = 0
  · rw [if_pos hzero, if_pos hzero]
    cases m.sysinfo with
    | none => exact congrArg (fun n => { info with freeMemory := n }) hzero
    | some i => rfl
  · rw [if_neg hzero, if_neg hzero]

theorem collectStorage_eq (storagePath : Bytes) (m : Machine) (info : PeerInfo) :
    collectStorage storagePath m info =
      { info with
        freeStorage := refill info.freeStorage
          ((fileSystem storagePath m).map fun s => s.bsize * s.bfree) } := by
  rw [collectStorage, refill]
  by_cases hzero : info.freeStorage = 0
  · rw [if_pos hzero, if_pos hzero]
    cases fileSystem storagePath m with
    | none => rfl
    | some s => rfl
  · rw [if_neg hzero, if_neg hzero]

/-- Nothing else of the info changes. -/
theorem collectResourceInfo_eq (storagePath : Bytes) (m : Machine) (info : PeerInfo) :
    collectResourceInfo storagePath m info =
      { info with
        freeMemory := refill info.freeMemory (m.sysinfo.map Sysinfo.freeram)
        freeStorage := refill info.freeStorage
          ((fileSystem storagePath m).map fun s => s.bsize * s.bfree) } := by
  rw [collectResourceInfo, collectMemory_eq, collectStorage_eq]

/-- The handler of the whole server, when the outside gives what the collector finds. -/
theorem getInfo_eq {srv : Server} {m : Machine} {env : Env} {info : PeerInfo}
    (hinfo : srv.info = some info)
    (hmemory : env.freeMemory = (collectResourceInfo srv.storagePath m info).freeMemory)
    (hstorage : env.freeStorage = (collectResourceInfo srv.storagePath m info).freeStorage) :
    GrpcServer.getInfo srv env = .ok (getInfo srv m) := by
  rw [GrpcServer.getInfo, getInfo, hinfo]
  dsimp only
  rw [hmemory, hstorage, collectResourceInfo_eq]

/-- A number that is configured stays. -/
theorem refill_configured (h : c ≠ 0 → field = c) : c ≠ 0 → refill field counted = c := by
  intro hc
  have hfield := h hc
  rw [refill, if_neg (hfield ▸ hc), hfield]

/-- When the reply is right for one number. -/
theorem reported_iff (hfield : c ≠ 0 → field = c)
    (hboth : counted.isSome = measured.isSome) :
    Reported c measured (refill field counted) ↔
      (c = 0 → if field = 0 then counted.map UInt64.toNat = measured
        else measured = some field.toNat) := by
  unfold Reported
  by_cases hc : c = 0
  · rw [if_pos hc, imp_iff_right hc]
    unfold refill
    by_cases hzero : field = 0
    · rw [if_pos hzero, if_pos hzero]
      cases counted with
      | none =>
          cases measured with
          | none => exact iff_of_true rfl rfl
          | some n => cases hboth
      | some u =>
          cases measured with
          | none => cases hboth
          | some n => exact (Option.some_inj).symm
    · rw [if_neg hzero, if_neg hzero]
      cases measured with
      | none =>
          refine iff_of_false (fun h => hzero ?_) (fun h => by cases h)
          exact UInt64.toNat_inj.1 h
      | some n => exact eq_comm.trans (Option.some_inj).symm
  · rw [if_neg hc]
    exact iff_of_true (refill_configured hfield hc) fun h => absurd h hc

end Field

/-! ## Runs -/

/-- What the replies have made of the info. -/
def Kept (c : PeerInfo) (srv : Server) : Prop :=
  ∃ info, srv.info = some info ∧ (c.freeMemory ≠ 0 → info.freeMemory = c.freeMemory) ∧
    (c.freeStorage ≠ 0 → info.freeStorage = c.freeStorage)

theorem kept_step {c : PeerInfo} {srv srv' : Server} {m : Machine} (h : Kept c srv)
    (hstep : step srv m = some srv') : Kept c srv' := by
  rcases h with ⟨info, hinfo, hmemory, hstorage⟩
  unfold step getInfo at hstep
  rw [hinfo] at hstep
  cases hstep
  refine ⟨_, rfl, ?_, ?_⟩
  · rw [collectResourceInfo_eq]
    exact refill_configured hmemory
  · rw [collectResourceInfo_eq]
    exact refill_configured hstorage

/-- The unit does not show. -/
theorem memory_exact_iff (m : Machine) :
    (m.sysinfo.map Sysinfo.freeram).map UInt64.toNat = measuredMemory m ↔
      ∀ i, m.sysinfo = some i → i.freeram = 0 ∨ i.memUnit = 1 := by
  unfold measuredMemory
  cases m.sysinfo with
  | none => exact iff_of_true rfl fun i h => by cases h
  | some i =>
      have hexact : i.freeram.toNat = i.freeram.toNat * i.memUnit.toNat ↔
          i.freeram = 0 ∨ i.memUnit = 1 := by
        rw [← UInt64.toNat_inj, ← UInt32.toNat_inj]
        rcases Nat.eq_zero_or_pos i.freeram.toNat with hzero | hpos
        · rw [hzero, Nat.zero_mul]
          exact iff_of_true rfl (Or.inl rfl)
        · have hone : i.memUnit.toNat = 1 ↔ i.freeram.toNat = i.freeram.toNat * i.memUnit.toNat := by
            rw [eq_comm, ← Nat.mul_right_inj hpos.ne', Nat.mul_one]
          rw [← hone]
          exact (or_iff_right hpos.ne').symm
      constructor
      · intro h j hj
        cases hj
        exact hexact.1 (Option.some.inj h)
      · intro h
        exact congrArg some (hexact.2 (h i rfl))

theorem storage_exact_iff (storagePath : Bytes) (m : Machine) :
    ((fileSystem storagePath m).map fun s => s.bsize * s.bfree).map UInt64.toNat =
        measuredStorage storagePath m ↔
      ∀ s, fileSystem storagePath m = some s →
        (s.bsize * s.bfree).toNat = s.frsize.toNat * s.bfree.toNat := by
  unfold measuredStorage
  cases fileSystem storagePath m with
  | none => exact iff_of_true rfl fun s h => by cases h
  | some s =>
      constructor
      · intro h t ht
        cases ht
        exact Option.some.inj h
      · intro h
        exact congrArg some (h s rfl)

theorem fresh_iff {c info : PeerInfo} {srv : Server} {m : Machine} (hinfo : srv.info = some info)
    (hmemory : c.freeMemory ≠ 0 → info.freeMemory = c.freeMemory)
    (hstorage : c.freeStorage ≠ 0 → info.freeStorage = c.freeStorage) :
    Fresh c srv m ↔ Meets c srv.storagePath info m := by
  have hreply : Fresh c srv m ↔
      Reported c.freeMemory (measuredMemory m)
          (collectResourceInfo srv.storagePath m info).freeMemory ∧
        Reported c.freeStorage (measuredStorage srv.storagePath m)
          (collectResourceInfo srv.storagePath m info).freeStorage := by
    unfold Fresh getInfo
    rw [hinfo]
    constructor
    · rintro ⟨memory, storage, runtimes, hanswer, hboth⟩
      cases hanswer
      exact hboth
    · intro hboth
      exact ⟨_, _, _, rfl, hboth⟩
  have hmem : (m.sysinfo.map Sysinfo.freeram).isSome = (measuredMemory m).isSome := by
    rw [measuredMemory, Option.isSome_map, Option.isSome_map]
  have hsto : ((fileSystem srv.storagePath m).map fun s => s.bsize * s.bfree).isSome =
      (measuredStorage srv.storagePath m).isSome := by
    rw [measuredStorage, Option.isSome_map, Option.isSome_map]
  rw [hreply, collectResourceInfo_eq, reported_iff hmemory hmem, reported_iff hstorage hsto,
    memory_exact_iff, storage_exact_iff]
  exact ⟨fun h => ⟨h.1, h.2⟩, fun h => ⟨h.1, h.2⟩⟩

/-- Over a sequence of calls, exactly the replies that meet the condition are fresh. -/
theorem reports_fresh_iff (srv : Server) (c : PeerInfo) (ms : List Machine) :
    Run.Along step (Fresh c) { srv with info := some c } ms ↔
      Run.Along step (fun srv m => ∀ info, srv.info = some info → Meets c srv.storagePath info m)
        { srv with info := some c } ms := by
  have hstart : Kept c { srv with info := some c } := ⟨c, rfl, fun _ => rfl, fun _ => rfl⟩
  refine Run.along_congr (I := Kept c) ?_ ?_ hstart
  · intro srv m srv' hkept _ hstep
    exact kept_step hkept hstep
  · rintro srv m ⟨info, hinfo, hmemory, hstorage⟩
    rw [fresh_iff hinfo hmemory hstorage]
    constructor
    · intro h info' hinfo'
      cases hinfo.symm.trans hinfo'
      exact h
    · intro h
      exact h info hinfo

/-- An info without configured numbers. -/
def unconfigured : PeerInfo :=
  { uuid := .empty
    runtimes := []
    freeMemory := 0
    freeStorage := 0 }

def server : Server :=
  { info := none
    storagePath := Bytes.ascii "/models"
    nextPeerId := 0
    clientMap := ∅
    gst := fun _ => { peerId := [], nonce := 0 }
    count := 0 }

/-- A machine with some free memory, and eight free blocks. -/
def machine (freeram : UInt64) : Machine :=
  { sysinfo := some ⟨freeram, 1⟩
    getcwd := none
    statvfs := fun _ => some ⟨4096, 4096, 8⟩ }

/-- The second reply repeats the first one. -/
theorem memory_repeated :
    ¬Run.Along step (Fresh unconfigured) { server with info := some unconfigured }
      [machine 100, machine 50] := by
  intro h
  rcases (h.2 _ rfl).1 with ⟨memory, storage, runtimes, hanswer, hmemory, -⟩
  cases hanswer
  have hnone : unconfigured.freeMemory = 0 := rfl
  rw [Reported, if_pos hnone] at hmemory
  exact absurd hmemory (by decide)

end ResourceReports
end Peer
end Beyond
