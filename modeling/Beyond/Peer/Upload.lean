import Beyond.Peer.GrpcServer

/-!
# Upload of a model

`GrpcClient::UploadModel` reads a file in chunks and writes them to a stream, and
`GrpcServer::UploadModel` appends what arrives to the file at the session's model path.  Both loops
can be cut short: by `fread`, by a refused `Write`, by `fwrite`, and by the `fclose` that flushes.
-/

namespace Beyond
namespace Peer
namespace Upload

open Errno GrpcServer

/-! ## The two loops -/

/-- A positive `errno`. -/
abbrev ErrorNumber := { e : Int // 0 < e }

def chunkSize : Nat := 4096

/-- The outside of the client: what `malloc`, `fopen` and the calls of `fread` and `Write` do, and
whether the connection lasts until `Finish`.  A `fread` delivers at most `fread i` bytes. -/
structure ClientEnv where
  malloc : Option ErrorNumber
  fopen : Option ErrorNumber
  fread : Nat → Nat
  write : Nat → Bool
  finish : Bool

/-- The outside of the server: what `fopen` and the calls of `fwrite` do, and how much of the file is
there behind `fclose` if that fails. -/
structure ServerEnv where
  fopen : Option ErrorNumber
  fwrite : Nat → Nat
  ferror : Nat → Int
  flushed : Option Nat

/-- `while ((sz = fread(...)) > 0)`: the chunks that are handed to `Write`.  Each takes at least one
byte of what is left of the file, so that `n` bytes need no more than `n` rounds. -/
def readLoop (fread : Nat → Nat) : Nat → Nat → Bytes → List Bytes
  | 0, _, _ => []
  | n + 1, i, rest =>
      let sz := min (min chunkSize (fread i)) rest.length
      if sz = 0 then [] else rest.take sz :: readLoop fread n (i + 1) (rest.drop sz)

/-- The chunks that the stream takes.  The result of `Write` is not looked at. -/
def accepted (write : Nat → Bool) : Nat → List Bytes → List Bytes
  | _, [] => []
  | i, chunk :: chunks =>
      if write i then chunk :: accepted write (i + 1) chunks else accepted write (i + 1) chunks

/-- The chunk loop of the server: what is written, and the status for the response. -/
def writeLoop (s : ServerEnv) : Nat → List Bytes → Bytes × Int
  | _, [] => ([], 0)
  | i, chunk :: chunks =>
      let sz := min (s.fwrite i) chunk.length
      if sz = 0 ∨ sz ≠ chunk.length then (chunk.take sz, -s.ferror i)
      else (chunk ++ (writeLoop s (i + 1) chunks).1, (writeLoop s (i + 1) chunks).2)

/-- `fclose` on the server; its failure is not reported. -/
def fclose (s : ServerEnv) (written : Bytes) : Bytes :=
  match s.flushed with
  | none => written
  | some k => written.take k

/-- `GrpcServer::UploadModel`: the status of the call, the one in the response, and the file at the
model path. -/
def serverUpload (s : ServerEnv) (modelPath : Option Bytes) (chunks : List Bytes)
    (file : Option Bytes) : StatusCode × Int × Option Bytes :=
  match modelPath with
  | none => (.failedPrecondition, 0, file)
  | some _ =>
      match s.fopen with
      | some errno => (.ok, -errno, file)
      | none => (.ok, (writeLoop s 0 chunks).2, some (fclose s (writeLoop s 0 chunks).1))

/-- `GrpcClient::UploadModel`, with what it makes of the file on the server.  Where it returns before
the loop, the stream has begun and ends without a chunk. -/
def uploadModel (content : Bytes) (c : ClientEnv) (s : ServerEnv) (modelPath : Option Bytes)
    (file : Option Bytes) : Int × Option Bytes :=
  match c.malloc, c.fopen with
  | some errno, _ => (-errno, (serverUpload s modelPath [] file).2.2)
  | none, some errno => (-errno, (serverUpload s modelPath [] file).2.2)
  | none, none =>
      let chunks := accepted c.write 0 (readLoop c.fread content.length 0 content)
      let answer := serverUpload s modelPath chunks file
      -- The status in the response is not looked at.
      if answer.1 = .ok ∧ c.finish then (0, answer.2.2) else (-EFAULT, answer.2.2)

/-- `Peer::LoadModel`; `ret` is what the `LoadModel` request returned. -/
def loadModel (ret : Int) (content : Bytes) (c : ClientEnv) (s : ServerEnv)
    (modelPath : Option Bytes) (file : Option Bytes) : Int × Option Bytes :=
  if ret = -ENOENT then uploadModel content c s modelPath file else (ret, file)

theorem uploadStatus_eq {s : ServerEnv} {fwrite : Nat → Int × Int} {chunks : List Bytes} {i : Nat}
    (h : ∀ j chunk, chunks[j]? = some chunk →
      fwrite (i + j) = (((min (s.fwrite (i + j)) chunk.length : Nat) : Int), s.ferror (i + j))) :
    uploadStatus fwrite i chunks = (writeLoop s i chunks).2 := by
  induction chunks generalizing i with
  | nil => rfl
  | cons chunk chunks ih =>
      have hfirst : fwrite i = (((min (s.fwrite i) chunk.length : Nat) : Int), s.ferror i) := by
        simpa using h 0 chunk rfl
      have hrest := ih (i := i + 1) fun j chunk' hj => by
        have hnext := h (j + 1) chunk' (by simpa using hj)
        have hindex : i + (j + 1) = i + 1 + j := by omega
        rwa [hindex] at hnext
      rw [uploadStatus, writeLoop, hfirst, hrest]
      -- The comparisons of `int`s are the comparisons of sizes.
      have hcond : (((min (s.fwrite i) chunk.length : Nat) : Int) ≤ 0 ∨
          ((min (s.fwrite i) chunk.length : Nat) : Int) ≠ chunk.length) ↔
          (min (s.fwrite i) chunk.length = 0 ∨ min (s.fwrite i) chunk.length ≠ chunk.length) := by
        omega
      by_cases hshort : min (s.fwrite i) chunk.length = 0 ∨
          min (s.fwrite i) chunk.length ≠ chunk.length
      · simp only [hcond.2 hshort, hshort, if_true]
      · simp only [mt hcond.1 hshort, hshort, if_false]

/-- The handler answers what `serverUpload` says, and leaves the sessions as they are. -/
theorem handle_uploadModel {srv : Server} {env : Env} {id : Bytes} {ref : GstRef}
    (s : ServerEnv) (chunks : List Bytes) (file : Option Bytes) (hid : id ≠ [])
    (href : srv.clientMap.lookup id = some (some ref))
    (hfopen : env.fopenErrno = s.fopen.map Subtype.val)
    (hfwrite : ∀ i chunk, chunks[i]? = some chunk →
      env.fwrite i = (((min (s.fwrite i) chunk.length : Nat) : Int), s.ferror i)) :
    ∃ message, handle srv env [(keyId, id)] (.uploadModel chunks) =
      .ok (srv, ⟨⟨(serverUpload s (srv.gst ref).model.modelPath chunks file).1, message⟩,
        .plain (serverUpload s (srv.gst ref).model.modelPath chunks file).2.1⟩) := by
  have hclient := Server.client_of_lookup href
  have hsame : srv.setGst ref (srv.gst ref) = srv := by simp [Server.setGst]
  have hstatus : uploadStatus env.fwrite 0 chunks = (writeLoop s 0 chunks).2 :=
    uploadStatus_eq fun j chunk hj => by simpa using hfwrite j chunk hj
  simp only [handle, GrpcServer.uploadModel, withGst, getGst, List.lookup_cons_self, hid, if_false,
    hclient, onGst]
  cases hpath : (srv.gst ref).model.modelPath with
  | none => exact ⟨"Failed precondition", by simp [serverUpload, hsame]⟩
  | some path =>
      cases hopen : s.fopen with
      | some errno => exact ⟨"OK", by simp [serverUpload, hopen, hfopen, hsame, Status.OK]⟩
      | none =>
          exact ⟨"OK", by simp [serverUpload, hopen, hfopen, hsame, Status.OK, hstatus]⟩

/-! ## Transfers without a loss -/

/-- How much of a file of `size` bytes the first `i` calls of `fread` have delivered. -/
def position (fread : Nat → Nat) (size : Nat) : Nat → Nat
  | 0 => 0
  | i + 1 =>
      position fread size i + min (min chunkSize (fread i)) (size - position fread size i)

/-- As long as the file is not read to its end, round `i` reads something, the stream takes it, and
the server writes all of it. -/
def Passes (size : Nat) (c : ClientEnv) (s : ServerEnv) (i : Nat) : Prop :=
  position c.fread size i < size →
    0 < c.fread i ∧ c.write i = true ∧
      min (min chunkSize (c.fread i)) (size - position c.fread size i) ≤ s.fwrite i

theorem position_mono (fread : Nat → Nat) (size : Nat) {i j : Nat} (h : i ≤ j) :
    position fread size i ≤ position fread size j := by
  induction h with
  | refl => exact Nat.le_refl _
  | step _ ih =>
      rw [position]
      omega

theorem length_flatten_readLoop (fread : Nat → Nat) (n i : Nat) (rest : Bytes) :
    (readLoop fread n i rest).flatten.length ≤ rest.length := by
  induction n generalizing i rest with
  | zero => simp [readLoop]
  | succ n ih =>
      rw [readLoop]
      split
      · simp
      · have htail := ih (i + 1) (rest.drop (min (min chunkSize (fread i)) rest.length))
        simp only [List.length_drop] at htail
        simp only [List.flatten_cons, List.length_append, List.length_take]
        omega

theorem length_flatten_accepted (write : Nat → Bool) (i : Nat) (chunks : List Bytes) :
    (accepted write i chunks).flatten.length ≤ chunks.flatten.length := by
  induction chunks generalizing i with
  | nil => simp [accepted]
  | cons chunk chunks ih =>
      have htail := ih (i + 1)
      rw [accepted]
      split
      · simpa using htail
      · simp only [List.flatten_cons, List.length_append]
        omega

theorem length_writeLoop (s : ServerEnv) (i : Nat) (chunks : List Bytes) :
    (writeLoop s i chunks).1.length ≤ chunks.flatten.length := by
  induction chunks generalizing i with
  | nil => simp [writeLoop]
  | cons chunk chunks ih =>
      have htail := ih (i + 1)
      rw [writeLoop]
      split
      · simp only [List.length_take, List.flatten_cons, List.length_append]
        omega
      · simpa using htail

/-- What is written of the rest of the file is never longer than it. -/
theorem length_written (c : ClientEnv) (s : ServerEnv) (n i j k : Nat) (rest : Bytes) :
    (writeLoop s k (accepted c.write j (readLoop c.fread n i rest))).1.length ≤ rest.length := by
  calc
    (writeLoop s k (accepted c.write j (readLoop c.fread n i rest))).1.length
      ≤ (accepted c.write j (readLoop c.fread n i rest)).flatten.length := length_writeLoop s k _
    _ ≤ (readLoop c.fread n i rest).flatten.length := length_flatten_accepted c.write j _
    _ ≤ rest.length := length_flatten_readLoop c.fread n i rest

/-- Behind the end of the file every round passes. -/
theorem passes_of_le {c : ClientEnv} {s : ServerEnv} {size i : Nat}
    (h : size ≤ position c.fread size i) : ∀ j, i ≤ j → Passes size c s j := by
  intro j hj hlt
  have hmono := position_mono c.fread size hj
  exact absurd hlt (not_lt.2 (h.trans hmono))

theorem forall_le_iff {P : Nat → Prop} {i : Nat} :
    (∀ j, i ≤ j → P j) ↔ P i ∧ ∀ j, i + 1 ≤ j → P j := by
  constructor
  · intro h
    exact ⟨h i (Nat.le_refl i), fun j hj => h j (Nat.le_of_succ_le hj)⟩
  · rintro ⟨hi, hlater⟩ j hj
    rcases Nat.eq_or_lt_of_le hj with rfl | hgt
    · exact hi
    · exact hlater j hgt

theorem take_append_eq_iff {α : Type*} {xs tail : List α} {n : Nat} :
    xs.take n ++ tail = xs ↔ tail = xs.drop n := by
  constructor
  · intro h
    exact List.append_cancel_left (h.trans (List.take_append_drop n xs).symm)
  · rintro rfl
    exact List.take_append_drop n xs

/-- From round `i` on, the whole rest of the file arrives exactly when every later round passes. -/
theorem written_eq_iff (c : ClientEnv) (s : ServerEnv) (size : Nat) {n i : Nat} {rest : Bytes}
    (hrest : rest.length = size - position c.fread size i) (hn : rest.length ≤ n) :
    (writeLoop s i (accepted c.write i (readLoop c.fread n i rest))).1 = rest ↔
      ∀ j, i ≤ j → Passes size c s j := by
  induction n generalizing i rest with
  | zero =>
      have hnil : rest = [] := List.length_eq_zero_iff.1 (Nat.le_zero.1 hn)
      subst hnil
      exact iff_of_true rfl (passes_of_le (Nat.sub_eq_zero_iff_le.1 hrest.symm))
  | succ n ih =>
      by_cases hnil : rest = []
      · subst hnil
        exact iff_of_true (by simp [readLoop, accepted, writeLoop])
          (passes_of_le (Nat.sub_eq_zero_iff_le.1 hrest.symm))
      · have hpos : 0 < rest.length := List.length_pos_iff.2 hnil
        have hlt : position c.fread size i < size := by omega
        -- One more round: the chunk, and the rest of the file behind it.
        obtain ⟨sz, hsz⟩ : ∃ sz, sz = min (min chunkSize (c.fread i)) rest.length := ⟨_, rfl⟩
        have hpass : Passes size c s i ↔ 0 < c.fread i ∧ c.write i = true ∧ sz ≤ s.fwrite i := by
          rw [hsz, hrest]
          exact ⟨fun h => h hlt, fun h _ => h⟩
        have hlength := length_written c s n (i + 1) (i + 1) i (rest.drop sz)
        rw [List.length_drop] at hlength
        rw [forall_le_iff, hpass, readLoop]
        rw [← hsz]
        by_cases hread : c.fread i = 0
        · -- `fread` delivers nothing before the end, and the loop stops.
          have hzero : sz = 0 := by omega
          have hne : [] ≠ rest := fun h => hnil h.symm
          simp [hzero, hread, accepted, writeLoop, hne]
        · have hpositive : 0 < sz := by
            simp only [chunkSize] at hsz
            omega
          rw [if_neg hpositive.ne', accepted]
          by_cases hwrite : c.write i = true
          · have hchunk : (rest.take sz).length = sz := by
              rw [List.length_take]
              omega
            rw [if_pos hwrite, writeLoop, hchunk]
            by_cases hshort : sz ≤ s.fwrite i
            · have hdrop : (rest.drop sz).length = size - position c.fread size (i + 1) := by
                rw [List.length_drop, position, ← hrest, ← hsz]
                omega
              have hleft : (rest.drop sz).length ≤ n := by
                rw [List.length_drop]
                omega
              have hwhole : ¬ (min (s.fwrite i) sz = 0 ∨ min (s.fwrite i) sz ≠ sz) := by omega
              rw [if_neg hwhole, ← ih hdrop hleft]
              simp [take_append_eq_iff, hwrite, hshort, Nat.pos_of_ne_zero hread]
            · -- A short write ends the loop of the server.
              have hcut : min (s.fwrite i) sz = 0 ∨ min (s.fwrite i) sz ≠ sz := by omega
              rw [if_pos hcut]
              refine iff_of_false (fun heq => ?_) (by simp [hshort])
              have hlen := congrArg List.length heq
              simp only [List.length_take] at hlen
              omega
          · -- A refused chunk is missing from the file.
            rw [if_neg hwrite]
            refine iff_of_false (fun heq => ?_) (by simp [hwrite])
            rw [heq] at hlength
            omega

/-! ## Main result -/

/-- A call that returns 0 has left the client's file on the server; any other returns a negative
code. -/
def Truthful (content : Bytes) (result : Int × Option Bytes) : Prop :=
  result.1 < 0 ∨ (result.1 = 0 ∧ result.2 = some content)

/-- Either the client notices a failure (`malloc`, `fopen`, a refused call, a lost connection), or
every round passes and `fclose` keeps what was written; when the server could not open the file, it
must have been there before. -/
def Noticed (content : Bytes) (c : ClientEnv) (s : ServerEnv) (modelPath file : Option Bytes) :
    Prop :=
  c.malloc ≠ none ∨ c.fopen ≠ none ∨ modelPath = none ∨ c.finish = false ∨
    (s.fopen ≠ none ∧ file = some content) ∨
    (s.fopen = none ∧ (∀ i, Passes content.length c s i) ∧ ∀ k ∈ s.flushed, content.length ≤ k)

theorem ErrorNumber.neg_lt (errno : ErrorNumber) : -errno.val < 0 := by
  have h := errno.property
  omega

theorem fclose_eq_iff {s : ServerEnv} {written content : Bytes}
    (hle : written.length ≤ content.length) :
    fclose s written = content ↔ written = content ∧ ∀ k ∈ s.flushed, content.length ≤ k := by
  unfold fclose
  cases s.flushed with
  | none => simp
  | some k =>
      simp only [Option.mem_some_iff, forall_eq']
      constructor
      · intro h
        have hlen : min k written.length = content.length := by
          simpa using congrArg List.length h
        have hall : written.take k = written := List.take_of_length_le (by omega)
        exact ⟨hall.symm.trans h, by omega⟩
      · rintro ⟨rfl, hk⟩
        exact List.take_of_length_le hk

/-- A failure between the two files is noticed, or does no harm, exactly when one of these holds. -/
theorem loadModel_truthful_iff (content : Bytes) (c : ClientEnv) (s : ServerEnv)
    (modelPath file : Option Bytes) :
    Truthful content (loadModel (-ENOENT) content c s modelPath file) ↔
      Noticed content c s modelPath file := by
  have hfault : (-EFAULT : Int) < 0 := by decide
  simp only [loadModel, if_true, uploadModel]
  cases hmalloc : c.malloc with
  | some errno => exact iff_of_true (Or.inl errno.neg_lt) (Or.inl (by simp [hmalloc]))
  | none =>
      cases hopen : c.fopen with
      | some errno => exact iff_of_true (Or.inl errno.neg_lt) (Or.inr (Or.inl (by simp [hopen])))
      | none =>
          cases modelPath with
          | none =>
              refine iff_of_true (Or.inl ?_) (Or.inr (Or.inr (Or.inl rfl)))
              simpa [serverUpload] using hfault
          | some path =>
              by_cases hfinish : c.finish = true
              · have hwritten := written_eq_iff c s content.length (n := content.length) (i := 0)
                  (by simp [position]) (Nat.le_refl content.length)
                have hle := length_written c s content.length 0 0 0 content
                cases hserver : s.fopen with
                | some errno => simp [serverUpload, hserver, hfinish, Truthful, Noticed, hmalloc, hopen]
                | none =>
                    simp only [Nat.zero_le, true_implies] at hwritten
                    simp [serverUpload, hserver, hfinish, Truthful, Noticed, hmalloc, hopen,
                      fclose_eq_iff hle, hwritten]
              · have hlost : c.finish = false := by simpa using hfinish
                refine iff_of_true (Or.inl ?_) (Or.inr (Or.inr (Or.inr (Or.inl hlost))))
                simpa [hlost] using hfault

/-- A server whose disk is full at the first `fwrite`. -/
def fullDisk : ServerEnv := ⟨none, fun _ => 0, fun _ => 1, none⟩

/-- The client reports a loaded model, and the file on the server is empty. -/
theorem fullDisk_unnoticed :
    ¬ Truthful (Bytes.ascii "model") (loadModel (-ENOENT) (Bytes.ascii "model")
      ⟨none, none, fun _ => chunkSize, fun _ => true, true⟩ fullDisk (some (Bytes.ascii "m.tflite"))
      none) := by
  have hresult : loadModel (-ENOENT) (Bytes.ascii "model")
      ⟨none, none, fun _ => chunkSize, fun _ => true, true⟩ fullDisk (some (Bytes.ascii "m.tflite"))
      none = (0, some []) := by decide
  rw [hresult]
  simp [Truthful, Bytes.ascii]

end Upload
end Peer
end Beyond
