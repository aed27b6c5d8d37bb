import Beyond.Base.Path
import Beyond.Peer.GrpcServer

/-!
# Where a client's models go

`LoadModel` keeps the last part of the file name that a client sends and puts it behind the storage
directory; `UploadModel` opens the result for writing.  Both take the last part as it is.
-/

namespace Beyond
namespace Peer
namespace ModelPath

open GrpcServer

/-! ## The property -/

/-- What `UploadModel` gives to `fopen`. -/
def uploadPath (srv : Server) (metadata : Metadata) : Option Bytes :=
  match getGst srv metadata with
  | (srv, .ok (some ref)) => (srv.gst ref).model.modelPath
  | _ => none

/-- `LoadModel` answers with a negative status, or the path that is uploaded to from then on is one of a
child of the storage directory. -/
def Contained (srv : Server) (env : Env) (metadata : Metadata) (filename : Bytes) : Prop :=
  ∀ srv' answer, handle srv env metadata (.loadModel filename) = .ok (srv', answer) →
    ∃ status, answer.response = .plain status ∧
      (status < 0 ∨ ∃ path, uploadPath srv' metadata = some path ∧
        Path.Child srv.storagePath path)

/-! ## The condition -/

/-- The session that the client has. -/
def session (srv : Server) (metadata : Metadata) : Option GstRef :=
  match metadata.lookup keyId with
  | none => none
  | some id => if id = [] then none else (srv.clientMap.lookup id).join

/-- For a client with a session: the path cannot be stored, nothing that can be read is there, or the last
part of the file name is a name. -/
def Named (srv : Server) (env : Env) (metadata : Metadata) (filename : Bytes) : Prop :=
  (session srv metadata).isSome = true →
    (∃ errno, env.strdupErrno = some errno ∧ 0 < errno) ∨
    (env.strdupErrno = none ∧
      (env.readable (Bytes.cstring (modelFile srv.storagePath filename)) = false ∨
        Path.IsName (Bytes.cstring (baseName filename))))

/-! ## Paths -/

section Paths

variable {filename dir : Bytes}

theorem slash_not_mem_baseName (filename : Bytes) : Path.slash ∉ baseName filename := by
  intro hmem
  rw [baseName, List.mem_reverse] at hmem
  have hfree := List.mem_takeWhile_imp hmem
  exact absurd hfree (by decide)

theorem slash_not_mem_name (filename : Bytes) :
    Path.slash ∉ Bytes.cstring (baseName filename) := fun hmem =>
  slash_not_mem_baseName filename ((List.takeWhile_prefix _).subset hmem)

/-- The directory in front of the name. -/
theorem modelFile_spec (hdir : 0 ∉ dir) (filename : Bytes) :
    ∃ front, Bytes.cstring (modelFile dir filename) = front ++ Bytes.cstring (baseName filename) ∧
      (∀ q, Path.slash ∉ q → Path.isAbsolute (front ++ q) = Path.isAbsolute dir) ∧
      ∀ q, Path.components (front ++ q) = Path.components dir ++ Path.components q := by
  unfold modelFile
  by_cases hempty : dir = []
  · rw [if_pos hempty]
    subst hempty
    exact ⟨[], rfl, fun q hq => Path.isAbsolute_of_not_mem hq, fun q => rfl⟩
  · rw [if_neg hempty]
    by_cases hslash : dir.getLast? = some 0x2f
    · rw [if_pos hslash]
      refine ⟨dir, Bytes.cstring_append hdir _, fun q _ => Path.isAbsolute_append hempty q, fun q => ?_⟩
      rcases List.getLast?_eq_some_iff.1 hslash with ⟨init, rfl⟩
      change Path.components (init ++ [Path.slash] ++ q) = Path.components (init ++ [Path.slash]) ++ _
      rw [Path.components_slash, List.append_assoc]
      exact Path.components_append init q
    · rw [if_neg hslash]
      have hzero : 0 ∉ dir ++ [0x2f] := by
        rw [List.mem_append]
        rintro (h | h)
        · exact hdir h
        · exact absurd h (by decide)
      refine ⟨dir ++ [0x2f], Bytes.cstring_append hzero _, fun q _ => ?_, fun q => ?_⟩
      · rw [List.append_assoc]
        exact Path.isAbsolute_append hempty _
      · rw [List.append_assoc]
        exact Path.components_append dir q

/-- Only the name decides. -/
theorem child_iff (hdir : 0 ∉ dir) (filename : Bytes) :
    Path.Child dir (Bytes.cstring (modelFile dir filename)) ↔
      Path.IsName (Bytes.cstring (baseName filename)) := by
  rcases modelFile_spec hdir filename with ⟨front, hpath, habsolute, hcomponents⟩
  have hslash := slash_not_mem_name filename
  rw [hpath]
  constructor
  · rintro ⟨name, hname, -, hsplit⟩
    rw [hcomponents, List.append_cancel_left_eq, Path.components_of_not_mem hslash] at hsplit
    split at hsplit
    · cases hsplit
    · rw [List.cons.inj hsplit |>.1]
      exact hname
  · intro hname
    refine ⟨_, hname, habsolute _ hslash, ?_⟩
    rw [hcomponents, Path.components_of_not_mem hslash, if_neg hname.nonempty]

end Paths

/-! ## Sessions -/

section Sessions

variable {srv srv' : Server} {env : Env} {metadata : Metadata} {filename : Bytes} {answer : Answer}

theorem session_eq_some {ref : GstRef} (h : session srv metadata = some ref) :
    ∃ id, metadata.lookup keyId = some id ∧ id ≠ [] ∧
      srv.clientMap.lookup id = some (some ref) := by
  unfold session at h
  split at h
  · cases h
  · rename_i id hid
    split at h
    · cases h
    · rename_i hne
      exact ⟨id, hid, hne, Option.join_eq_some_iff.1 h⟩

theorem getGst_of_session {ref : GstRef} (h : session srv metadata = some ref) :
    getGst srv metadata = (srv, .ok (some ref)) := by
  rcases session_eq_some h with ⟨id, hid, hne, hlookup⟩
  unfold getGst
  rw [hid]
  dsimp only
  rw [if_neg hne, Server.client_of_lookup hlookup]

theorem uploadPath_setGst {ref : GstRef} (h : session srv metadata = some ref) (gst : Gst) :
    uploadPath (srv.setGst ref gst) metadata = gst.model.modelPath := by
  have hkept : session (srv.setGst ref gst) metadata = some ref := h
  unfold uploadPath
  rw [getGst_of_session hkept]
  dsimp only
  rw [Server.gst_setGst_same]

/-- Without a session a request that is answered gets an error. -/
theorem loadModel_none (hsession : session srv metadata = none)
    (h : handle srv env metadata (.loadModel filename) = .ok (srv', answer)) :
    answer.response = .plain (-Errno.ENOENT) := by
  unfold session at hsession
  unfold handle loadModel withGst getGst at h
  split at hsession
  · rename_i hid
    rw [hid] at h
    cases h
    rfl
  · rename_i id hid
    rw [hid] at h
    dsimp only at h
    split at hsession
    · rename_i hempty
      rw [if_pos hempty] at h
      cases h
      rfl
    · rename_i hne
      rw [if_neg hne] at h
      -- A null pointer is dereferenced, so there is no answer.
      have hnull : (srv.client id).2 = none := by
        unfold Server.client
        split
        · rename_i p hlookup
          rw [hlookup] at hsession
          exact hsession
        · rfl
      rw [hnull] at h
      cases h

/-- `LoadModel` for a session. -/
theorem loadModel_some {ref : GstRef} (hsession : session srv metadata = some ref) (env : Env)
    (filename : Bytes) :
    ∃ srv' answer, handle srv env metadata (.loadModel filename) = .ok (srv', answer) ∧
      ((∃ errno, env.strdupErrno = some errno ∧ answer.response = .plain (-errno) ∧
          uploadPath srv' metadata = none) ∨
        (env.strdupErrno = none ∧
          answer.response = .plain
            (if env.readable (Bytes.cstring (modelFile srv.storagePath filename)) then 0
              else -Errno.ENOENT) ∧
          uploadPath srv' metadata =
            some (Bytes.cstring (modelFile srv.storagePath filename)))) := by
  unfold handle loadModel withGst
  rw [getGst_of_session hsession]
  unfold onGst
  cases hstrdup : env.strdupErrno with
  | some errno => exact ⟨_, _, rfl, Or.inl ⟨errno, rfl, rfl, uploadPath_setGst hsession _⟩⟩
  | none => exact ⟨_, _, rfl, Or.inr ⟨rfl, rfl, uploadPath_setGst hsession _⟩⟩

end Sessions

/-- Exactly these requests are kept inside of the storage directory. -/
theorem contained_iff (srv : Server) (env : Env) (metadata : Metadata) (filename : Bytes)
    (hstorage : 0 ∉ srv.storagePath) :
    Contained srv env metadata filename ↔ Named srv env metadata filename := by
  unfold Named
  cases hsession : session srv metadata with
  | none =>
      refine iff_of_true ?_ fun h => absurd h (by decide)
      intro srv' answer hhandle
      exact ⟨_, loadModel_none hsession hhandle, Or.inl (by decide)⟩
  | some ref =>
      rw [imp_iff_right (Option.isSome_some)]
      rcases loadModel_some hsession env filename with ⟨srv', answer, hhandle, hcases⟩
      have hcontained : Contained srv env metadata filename ↔
          ∃ status, answer.response = .plain status ∧
            (status < 0 ∨ ∃ path, uploadPath srv' metadata = some path ∧
              Path.Child srv.storagePath path) := by
        constructor
        · exact fun h => h srv' answer hhandle
        · intro h srv'' answer' hhandle'
          cases hhandle.symm.trans hhandle'
          exact h
      rw [hcontained]
      rcases hcases with ⟨errno, hstrdup, hanswer, hpath⟩ | ⟨hstrdup, hanswer, hpath⟩
      · rw [hanswer, hpath, hstrdup]
        constructor
        · rintro ⟨status, hstatus, hneg | ⟨path, hsome, -⟩⟩
          · cases hstatus
            exact Or.inl ⟨errno, rfl, by omega⟩
          · cases hsome
        · rintro (⟨errno', herrno, hpos⟩ | ⟨hnone, -⟩)
          · cases herrno
            exact ⟨_, rfl, Or.inl (by omega)⟩
          · cases hnone
      · rw [hanswer, hpath, hstrdup, ← child_iff hstorage filename]
        cases hreadable : env.readable (Bytes.cstring (modelFile srv.storagePath filename)) with
        | false =>
            refine iff_of_true ⟨_, rfl, Or.inl (by decide)⟩ (Or.inr ⟨rfl, Or.inl rfl⟩)
        | true =>
            constructor
            · rintro ⟨status, hstatus, hneg | ⟨path, hsome, hchild⟩⟩
              · cases hstatus
                exact absurd hneg (by decide)
              · cases hsome
                exact Or.inr ⟨rfl, Or.inr hchild⟩
            · rintro (⟨errno, herrno, -⟩ | ⟨-, hfalse | hchild⟩)
              · cases herrno
              · cases hfalse
              · exact ⟨_, rfl, Or.inr ⟨_, rfl, hchild⟩⟩

/-- A server with the storage directory `/models/` and one session. -/
def oneSession : Server :=
  { info := none
    storagePath := Bytes.ascii "/models/"
    nextPeerId := 1
    clientMap := AList.singleton (Bytes.ascii "0") (some 0)
    gst := fun _ => { peerId := Bytes.ascii "0", nonce := 0 }
    count := 1 }

theorem backslashes_contained :
    Contained oneSession Env.plain [(keyId, Bytes.ascii "0")] (Bytes.ascii "c:\\models\\m.tflite") :=
  (contained_iff oneSession Env.plain [(keyId, Bytes.ascii "0")]
    (Bytes.ascii "c:\\models\\m.tflite") (by decide)).2
    fun _ => Or.inr ⟨rfl, Or.inr (by decide)⟩

/-- The path is `/models/..`, which can be read. -/
theorem parent_directory_loaded :
    ¬Contained oneSession Env.plain [(keyId, Bytes.ascii "0")] (Bytes.ascii "..") := by
  intro h
  rcases h _ _ rfl with ⟨status, hstatus, hneg | ⟨path, hpath, hchild⟩⟩
  · cases hstatus
    exact absurd hneg (by decide)
  · cases hpath
    exact absurd ((child_iff (by decide) (Bytes.ascii "..")).1 hchild) (by decide)

end ModelPath
end Peer
end Beyond
