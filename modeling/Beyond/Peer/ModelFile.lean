import Beyond.Base.Run
import Beyond.Peer.GrpcServer

/-!
# Model files of the sessions

All sessions keep their models under one directory, and `LoadModel` takes the presence of the file for
the model.  This module interleaves `LoadModel` handlers, each with its `access`, and `UploadModel`
handlers, which open the file with truncation, write one chunk after the other and close it.  The
number of the upload that opened a file last, and how each upload ended, are recorded beside it.
-/

namespace Beyond
namespace Peer
namespace ModelFile

open GrpcServer

variable {ι τ : Type*}

/-! ## State -/

/-- Whether an upload is still running, and if not whether it wrote all of its chunks. -/
inductive Outcome
  | running
  | ended (whole : Bool)
  deriving DecidableEq, Repr

/-- Where a handler is: in front of `access`, in front of `Read` with the number of chunks that the
client still has to send, or in front of `fclose`. -/
inductive Pc
  | idle
  | checking (path : Bytes)
  | writing (upload : Nat) (path : Bytes) (remaining : Nat)
  | closing (upload : Nat) (path : Bytes) (whole : Bool)
  deriving DecidableEq, Repr

namespace Pc

/-- The path that `access` is about to look for. -/
def checked : Pc → Option Bytes
  | checking path => some path
  | _ => none

/-- The upload that a handler is running, and its path. -/
def upload : Pc → Option (Nat × Bytes)
  | writing upload path _ => some (upload, path)
  | closing upload path _ => some (upload, path)
  | _ => none

/-- No chunk is missing so far. -/
def whole : Pc → Bool
  | closing _ _ whole => whole
  | _ => true

end Pc

/-- A `LoadModel` that was answered with 0: the path, and how the upload that opened it last stood. -/
structure Announcement where
  path : Bytes
  opener : Option Outcome
  deriving DecidableEq, Repr

structure State (ι τ : Type*) where
  storagePath : Bytes
  modelPath : ι → Option Bytes
  present : Bytes → Bool
  pc : τ → Pc
  opener : Bytes → Option Nat
  outcome : Nat → Outcome
  count : Nat
  announced : List Announcement

/-- A step of a handler: `SetModelPath` of a session for a file name, `access`, `fopen` for a client
with some chunks, one `fwrite`, a `Read` that returns no chunk, and `fclose`.  The arguments say
whether the allocation, the check, the open, the write and the flush succeed. -/
inductive Act (ι : Type*)
  | setModelPath (i : ι) (filename : Bytes) (strdup : Bool)
  | access (readable : Bool)
  | fopen (i : ι) (chunks : Nat) (opened : Bool)
  | fwrite (whole : Bool)
  | endOfStream
  | fclose (flushed : Bool)
  deriving DecidableEq, Repr

namespace State

def goto [DecidableEq τ] (s : State ι τ) (t : τ) (pc : Pc) : State ι τ :=
  { s with pc := Function.update s.pc t pc }

/-- The path of a file name. -/
def path (s : State ι τ) (filename : Bytes) : Bytes :=
  Bytes.cstring (modelFile s.storagePath filename)

def setModelPath [DecidableEq ι] (s : State ι τ) (i : ι) (path : Option Bytes) : State ι τ :=
  { s with modelPath := Function.update s.modelPath i path }

/-- `fopen(path, "w+")` by a new upload. -/
def create (s : State ι τ) (path : Bytes) : State ι τ :=
  { s with
    present := Function.update s.present path true
    opener := Function.update s.opener path (some s.count)
    outcome := Function.update s.outcome s.count .running
    count := s.count + 1 }

def finish (s : State ι τ) (upload : Nat) (whole : Bool) : State ι τ :=
  { s with outcome := Function.update s.outcome upload (.ended whole) }

/-- How the upload that opened a file last stands; `none` if the file was there from the start. -/
def standing (s : State ι τ) (path : Bytes) : Option Outcome := (s.opener path).map s.outcome

def announce (s : State ι τ) (path : Bytes) : State ι τ :=
  { s with announced := ⟨path, s.standing path⟩ :: s.announced }

end State

/-- One step of the handler `t`. -/
def step [DecidableEq ι] [DecidableEq τ] (s : State ι τ) : τ × Act ι → Option (State ι τ)
  | (t, act) =>
    match s.pc t, act with
    | .idle, .setModelPath i filename strdup =>
        if strdup then some ((s.setModelPath i (some (s.path filename))).goto t
          (.checking (s.path filename)))
        else some (s.setModelPath i none)
    | .checking path, .access readable =>
        -- 0 is answered for any file that is there.
        if s.present path ∧ readable then some ((s.announce path).goto t .idle)
        else some (s.goto t .idle)
    | .idle, .fopen i chunks opened =>
        match s.modelPath i with
        | none => some s
        | some path =>
            if opened then some ((s.create path).goto t (.writing s.count path chunks)) else some s
    | .writing upload path (remaining + 1), .fwrite whole =>
        if whole then some (s.goto t (.writing upload path remaining))
        else some (s.goto t (.closing upload path false))
    | .writing upload path remaining, .endOfStream =>
        -- A stream that breaks looks like one that ends.
        some (s.goto t (.closing upload path (remaining == 0)))
    | .closing upload _ whole, .fclose flushed =>
        some ((s.finish upload (whole && flushed)).goto t .idle)
    | _, _ => none

/-- A server with the files that are there already. -/
def State.start (storagePath : Bytes) (present : Bytes → Bool) : State ι τ :=
  { storagePath := storagePath
    modelPath := fun _ => none
    present := present
    pc := fun _ => .idle
    opener := fun _ => none
    outcome := fun _ => .running
    count := 0
    announced := [] }

/-- The file was complete when 0 was answered. -/
def Announcement.Complete (a : Announcement) : Prop :=
  a.opener = none ∨ a.opener = some (.ended true)

instance (a : Announcement) : Decidable a.Complete :=
  inferInstanceAs (Decidable (a.opener = none ∨ a.opener = some (.ended true)))

/-- A file is not looked for while the upload that opened it last is running, and that upload does not
end with a chunk missing. -/
def Undisturbed (s : State ι τ) : τ × Act ι → Prop
  | (t, .access _) => ∀ path ∈ (s.pc t).checked, s.standing path ≠ some .running
  | (t, .fclose flushed) =>
      ∀ u ∈ (s.pc t).upload, s.opener u.2 = some u.1 → (s.pc t).whole = true ∧ flushed = true
  | _ => True

instance (s : State ι τ) : (a : τ × Act ι) → Decidable (Undisturbed s a)
  | (t, .access _) =>
      inferInstanceAs (Decidable (∀ path ∈ (s.pc t).checked, s.standing path ≠ some .running))
  | (t, .fclose flushed) =>
      inferInstanceAs (Decidable (∀ u ∈ (s.pc t).upload, s.opener u.2 = some u.1 →
        (s.pc t).whole = true ∧ flushed = true))
  | (_, .setModelPath _ _ _) => inferInstanceAs (Decidable True)
  | (_, .fopen _ _ _) => inferInstanceAs (Decidable True)
  | (_, .fwrite _) => inferInstanceAs (Decidable True)
  | (_, .endOfStream) => inferInstanceAs (Decidable True)

/-- The handler of `LoadModel`: the path that the session gets, and what is answered. -/
theorem handle_loadModel {srv : Server} {env : Env} {id : Bytes} {ref : GstRef} (filename : Bytes)
    (hid : id ≠ []) (href : srv.clientMap.lookup id = some (some ref))
    (hstrdup : env.strdupErrno = none) :
    ∃ srv', handle srv env [(keyId, id)] (.loadModel filename) =
        .ok (srv', ⟨.OK, .plain (if env.readable (Bytes.cstring (modelFile srv.storagePath filename))
          then 0 else -Errno.ENOENT)⟩) ∧
      (srv'.gst ref).model.modelPath = some (Bytes.cstring (modelFile srv.storagePath filename)) := by
  have hclient := Server.client_of_lookup href
  refine ⟨srv.setGst ref { srv.gst ref with
    model := { (srv.gst ref).model with
      modelPath := some (Bytes.cstring (modelFile srv.storagePath filename)) } }, ?_, ?_⟩
  · simp [handle, loadModel, withGst, getGst, hid, hclient, onGst, hstrdup]
  · simp

/-- Its two steps, when nothing comes between them: the same path, and 0 for a file that is there and
can be read. -/
theorem exec_loadModel [DecidableEq ι] [DecidableEq τ] {s : State ι τ} {t : τ} (i : ι)
    (filename : Bytes) (readable : Bool) (hidle : s.pc t = .idle) :
    ∃ s', Run.exec step s [(t, .setModelPath i filename true), (t, .access readable)] = some s' ∧
      s'.modelPath i = some (s.path filename) ∧
      s'.announced =
        (if s.present (s.path filename) ∧ readable then
          [⟨s.path filename, s.standing (s.path filename)⟩] else []) ++ s.announced := by
  by_cases hfound : s.present (s.path filename) = true ∧ readable = true
  · refine ⟨(((s.setModelPath i (some (s.path filename))).goto t
      (.checking (s.path filename))).announce (s.path filename)).goto t .idle, ?_, ?_, ?_⟩
    · simp [Run.exec, step, hidle, State.goto, State.setModelPath, hfound]
    · simp [State.goto, State.announce, State.setModelPath]
    · simp [State.goto, State.announce, State.setModelPath, State.standing, hfound]
  · refine ⟨((s.setModelPath i (some (s.path filename))).goto t
      (.checking (s.path filename))).goto t .idle, ?_, ?_, ?_⟩
    · simp [Run.exec, step, hidle, State.goto, State.setModelPath, hfound]
    · simp [State.goto, State.setModelPath]
    · simp [State.goto, State.setModelPath, hfound]

/-! ## Invariant -/

structure Inv (s : State ι τ) : Prop where
  whole : ∀ path n, s.opener path = some n → s.outcome n = .running ∨ s.outcome n = .ended true
  bound : ∀ path n, s.opener path = some n → n < s.count
  running : ∀ t n path, (s.pc t).upload = some (n, path) →
    n < s.count ∧ ∀ path', s.opener path' = some n → path' = path
  announced : ∀ a ∈ s.announced, a.Complete

theorem inv_start (storagePath : Bytes) (present : Bytes → Bool) :
    Inv (State.start storagePath present : State ι τ) := by
  constructor
  · intro path n h
    cases h
  · intro path n h
    cases h
  · intro t n path h
    cases h
  · intro a h
    cases h

namespace Inv

variable {s : State ι τ}

/-- A handler that goes on with the upload that it had, or with none, keeps the invariant. -/
theorem goto [DecidableEq τ] (hs : Inv s) {t : τ} {pc : Pc}
    (hpc : pc.upload = none ∨ pc.upload = (s.pc t).upload) :
    Inv (s.goto t pc) := by
  refine ⟨hs.whole, hs.bound, ?_, hs.announced⟩
  intro t' n path h
  by_cases ht : t' = t
  · subst ht
    have hupload : pc.upload = some (n, path) := by simpa [State.goto] using h
    rcases hpc with hnone | hsame
    · rw [hnone] at hupload
      cases hupload
    · exact hs.running t' n path (hsame ▸ hupload)
  · exact hs.running t' n path (by simpa [State.goto, ht] using h)

theorem setModelPath [DecidableEq ι] (hs : Inv s) (i : ι) (path : Option Bytes) :
    Inv (s.setModelPath i path) :=
  ⟨hs.whole, hs.bound, hs.running, hs.announced⟩

theorem announce (hs : Inv s) {path : Bytes} (h : s.standing path ≠ some .running) :
    Inv (s.announce path) := by
  refine ⟨hs.whole, hs.bound, hs.running, ?_⟩
  intro a ha
  rcases List.mem_cons.1 ha with rfl | hold
  · cases hopener : s.opener path with
    | none => exact Or.inl (by simp [State.standing, hopener])
    | some n =>
        -- The upload is not running, so it ended, and ended uploads are whole.
        have hrunning : s.outcome n ≠ .running := by simpa [State.standing, hopener] using h
        rcases hs.whole path n hopener with hr | hw
        · exact absurd hr hrunning
        · exact Or.inr (by simp [State.standing, hopener, hw])
  · exact hs.announced a hold

/-- A new upload has a number that no file and no handler knows. -/
theorem create [DecidableEq τ] (hs : Inv s) (t : τ) (path : Bytes) (chunks : Nat) :
    Inv ((s.create path).goto t (.writing s.count path chunks)) := by
  have hfresh : ∀ path', s.opener path' ≠ some s.count := fun path' h =>
    Nat.lt_irrefl _ (hs.bound path' s.count h)
  constructor
  · intro path' n h
    by_cases hpath : path' = path
    · subst hpath
      have hn : s.count = n := by simpa [State.goto, State.create] using h
      exact Or.inl (by simp [State.goto, State.create, hn])
    · have hold : s.opener path' = some n := by simpa [State.goto, State.create, hpath] using h
      have hne : n ≠ s.count := fun hn => hfresh path' (hn ▸ hold)
      simpa [State.goto, State.create, hne] using hs.whole path' n hold
  · intro path' n h
    by_cases hpath : path' = path
    · subst hpath
      have hn : s.count = n := by simpa [State.goto, State.create] using h
      simp [State.goto, State.create, ← hn]
    · have hold : s.opener path' = some n := by simpa [State.goto, State.create, hpath] using h
      exact Nat.lt_succ_of_lt (hs.bound path' n hold)
  · intro t' n path' h
    by_cases ht : t' = t
    · subst ht
      have heq : s.count = n ∧ path = path' := by
        simpa [State.goto, State.create, Pc.upload] using h
      rcases heq with ⟨rfl, rfl⟩
      refine ⟨Nat.lt_succ_self _, fun path' h' => ?_⟩
      by_contra hne
      exact hfresh path' (by simpa [State.goto, State.create, hne] using h')
    · have hold : (s.pc t').upload = some (n, path') := by
        simpa [State.goto, State.create, ht] using h
      rcases hs.running t' n path' hold with ⟨hlt, hpaths⟩
      refine ⟨Nat.lt_succ_of_lt hlt, fun path'' h' => ?_⟩
      by_cases hpath : path'' = path
      · have hn : s.count = n := by simpa [State.goto, State.create, hpath] using h'
        omega
      · exact hpaths path'' (by simpa [State.goto, State.create, hpath] using h')
  · exact hs.announced

theorem finish (hs : Inv s) {upload : Nat} {whole : Bool}
    (h : ∀ path, s.opener path = some upload → whole = true) : Inv (s.finish upload whole) := by
  refine ⟨?_, hs.bound, hs.running, hs.announced⟩
  intro path n hn
  by_cases hu : n = upload
  · subst hu
    exact Or.inr (by simp [State.finish, h path hn])
  · simpa [State.finish, hu] using hs.whole path n hn

end Inv

theorem inv_step [DecidableEq ι] [DecidableEq τ] {s s' : State ι τ} {t : τ} {a : Act ι}
    (hs : Inv s) (hG : Undisturbed s (t, a))
    (h : step s (t, a) = some s') : Inv s' := by
  cases hpc : s.pc t with
  | idle =>
      cases a with
      | setModelPath i filename strdup =>
          cases strdup with
          | true =>
              have hs' : (s.setModelPath i (some (s.path filename))).goto t
                  (.checking (s.path filename)) = s' := by simpa [step, hpc] using h
              rw [← hs']
              exact (hs.setModelPath i _).goto (Or.inl rfl)
          | false =>
              have hs' : s.setModelPath i none = s' := by simpa [step, hpc] using h
              rw [← hs']
              exact hs.setModelPath i none
      | fopen i chunks opened =>
          cases hpath : s.modelPath i with
          | none =>
              have hs' : s = s' := by simpa [step, hpc, hpath] using h
              exact hs' ▸ hs
          | some path =>
              cases opened with
              | true =>
                  have hs' : (s.create path).goto t (.writing s.count path chunks) = s' := by
                    simpa [step, hpc, hpath] using h
                  rw [← hs']
                  exact hs.create t path chunks
              | false =>
                  have hs' : s = s' := by simpa [step, hpc, hpath] using h
                  exact hs' ▸ hs
      | _ => simp [step, hpc] at h
  | checking path =>
      cases a with
      | access readable =>
          have hstanding : s.standing path ≠ some .running := hG path (by rw [hpc]; rfl)
          by_cases hanswer : s.present path = true ∧ readable = true
          · have hs' : (s.announce path).goto t .idle = s' := by simpa [step, hpc, hanswer] using h
            rw [← hs']
            exact (hs.announce hstanding).goto (Or.inl rfl)
          · have hs' : s.goto t .idle = s' := by simpa [step, hpc, hanswer] using h
            rw [← hs']
            exact hs.goto (Or.inl rfl)
      | _ => simp [step, hpc] at h
  | writing upload path remaining =>
      cases a with
      | fwrite whole =>
          cases remaining with
          | zero => simp [step, hpc] at h
          | succ remaining =>
              cases whole with
              | true =>
                  have hs' : s.goto t (.writing upload path remaining) = s' := by
                    simpa [step, hpc] using h
                  rw [← hs']
                  exact hs.goto (Or.inr (by rw [hpc]; rfl))
              | false =>
                  have hs' : s.goto t (.closing upload path false) = s' := by
                    simpa [step, hpc] using h
                  rw [← hs']
                  exact hs.goto (Or.inr (by rw [hpc]; rfl))
      | endOfStream =>
          have hs' : s.goto t (.closing upload path (remaining == 0)) = s' := by
            cases remaining <;> simpa [step, hpc] using h
          rw [← hs']
          exact hs.goto (Or.inr (by rw [hpc]; rfl))
      | _ => simp [step, hpc] at h
  | closing upload path whole =>
      cases a with
      | fclose flushed =>
          have hs' : (s.finish upload (whole && flushed)).goto t .idle = s' := by
            simpa [step, hpc] using h
          rw [← hs']
          have hheld := (hs.running t upload path (by rw [hpc]; rfl)).2
          refine (hs.finish fun path' hopener => ?_).goto (Or.inl rfl)
          -- Only the file that the handler opened can have this upload as its last opener.
          have hpath := hheld path' hopener
          subst hpath
          have hboth := hG (upload, path') (by rw [hpc]; rfl) hopener
          rw [hpc] at hboth
          simpa [Pc.whole] using hboth
      | _ => simp [step, hpc] at h

/-! ## Main result -/

theorem announced_complete [DecidableEq ι] [DecidableEq τ] (storagePath : Bytes) (present : Bytes → Bool)
    (as : List (τ × Act ι)) (s : State ι τ)
    (hG : Run.Along step Undisturbed (State.start storagePath present) as)
    (hexec : Run.exec step (State.start storagePath present) as = some s) :
    ∀ a ∈ s.announced, a.Complete := by
  have hI : Run.Preserved step Undisturbed (Inv (ι := ι) (τ := τ)) := by
    rintro s ⟨t, a⟩ s' hs hstep h
    exact inv_step hs hstep h
  exact (Run.exec_invariant hI (inv_start storagePath present) hG hexec).announced

/-- The second client's `LoadModel` finds the file that the first client has begun to send; and a
stream that breaks after one chunk of two leaves a file that is found later. -/
theorem half_sent_announced :
    (∃ s, Run.exec step (State.start [] fun _ => false : State Bool Bool)
        [(true, .setModelPath true (Bytes.ascii "m.tflite") true), (true, .access true),
          (true, .fopen true 2 true), (true, .fwrite true),
          (false, .setModelPath false (Bytes.ascii "m.tflite") true), (false, .access true)] = some s ∧
      ¬ ∀ a ∈ s.announced, a.Complete) ∧
    ∃ s, Run.exec step (State.start [] fun _ => false : State Bool Bool)
        [(true, .setModelPath true (Bytes.ascii "m.tflite") true), (true, .access true),
          (true, .fopen true 2 true), (true, .fwrite true), (true, .endOfStream),
          (true, .fclose true), (false, .setModelPath false (Bytes.ascii "m.tflite") true),
          (false, .access true)] = some s ∧
      ¬ ∀ a ∈ s.announced, a.Complete := by
  constructor
  · refine ⟨_, rfl, fun h => ?_⟩
    exact absurd (h _ (List.mem_singleton.2 rfl)) (by decide)
  · refine ⟨_, rfl, fun h => ?_⟩
    exact absurd (h _ (List.mem_singleton.2 rfl)) (by decide)

/-- One client sends a model of one chunk, and another finds it. -/
def sentInTurn : List (Bool × Act Bool) :=
  [(true, .setModelPath true (Bytes.ascii "m.tflite") true), (true, .access true),
    (true, .fopen true 1 true), (true, .fwrite true), (true, .endOfStream), (true, .fclose true),
    (false, .setModelPath false (Bytes.ascii "m.tflite") true), (false, .access true)]

theorem announced_complete_sentInTurn :
    ∃ s, Run.exec step (State.start [] fun _ => false : State Bool Bool) sentInTurn = some s ∧
      s.announced.length = 1 ∧ ∀ a ∈ s.announced, a.Complete :=
  ⟨_, rfl, rfl, announced_complete [] (fun _ => false) sentInTurn _ (by decide) rfl⟩

end ModelFile
end Peer
end Beyond
