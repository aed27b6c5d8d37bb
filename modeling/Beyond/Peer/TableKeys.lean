import Beyond.Peer.SessionTable

/-!
# What is in the session table

Nothing is ever taken out of `clientMap`.  Sessions are put in by `ExchangeKey`, and null pointers by
every lookup of an id that is not there: the table is the issued ids with all that anybody has ever
presented.
-/

namespace Beyond
namespace Peer
namespace GrpcServer

/-- The call has this id looked up. -/
def Presents (auth : Bool) (c : Call) (id : Bytes) : Prop :=
  LooksUp auth c ∧ c.metadata.lookup keyId = some id ∧ id ≠ []

/-- The id is in the table, with a session or with a null pointer. -/
def Server.Knows (srv : Server) (id : Bytes) : Prop := (srv.clientMap.lookup id).isSome = true

/-! ## Lookups -/

theorem knows_insert {srv : Server} {id x : Bytes} (p : Option GstRef) :
    ((srv.clientMap.insert id p).lookup x).isSome = true ↔ srv.Knows x ∨ x = id := by
  by_cases hx : x = id
  · subst hx
    simp [AList.lookup_insert]
  · simp [Server.Knows, AList.lookup_insert_ne hx, hx]

theorem knows_client {srv : Server} {id x : Bytes} :
    (srv.client id).1.Knows x ↔ srv.Knows x ∨ x = id := by
  unfold Server.Knows
  cases hlookup : srv.clientMap.lookup id with
  | some p =>
      rw [Server.client_of_lookup hlookup]
      constructor
      · exact .inl
      · rintro (h | rfl)
        · exact h
        · simp [hlookup]
  | none =>
      rw [Server.client_of_lookup_none hlookup]
      exact knows_insert none

theorem knows_getGst {srv : Server} {metadata : Metadata} {x : Bytes} :
    (getGst srv metadata).1.Knows x ↔
      srv.Knows x ∨ (metadata.lookup keyId = some x ∧ x ≠ []) := by
  unfold getGst
  cases hid : metadata.lookup keyId with
  | none => simp
  | some id =>
      dsimp only
      split
      · rename_i hempty
        subst hempty
        simp only [Option.some.injEq, iff_self_or]
        rintro ⟨rfl, hne⟩
        exact absurd rfl hne
      · rename_i hne
        rw [knows_client]
        refine or_congr Iff.rfl ⟨?_, ?_⟩
        · rintro rfl
          exact ⟨rfl, hne⟩
        · rintro ⟨heq, -⟩
          exact (Option.some.inj heq).symm

theorem knows_process {srv : Server} {metadata : Metadata} {x : Bytes} :
    (process srv metadata).1.Knows x ↔ srv.Knows x ∨
      (checksSession metadata = true ∧ metadata.lookup keyId = some x ∧ x ≠ []) := by
  have hp := processed srv metadata
  revert hp
  generalize process srv metadata = r
  intro hp
  cases hp with
  | exempted hexempted =>
      rw [iff_self_or]
      rintro ⟨hchecks, -⟩
      rw [not_exempted_of_checksSession hchecks] at hexempted
      cases hexempted
  | accepted hexempted hid hne href hnonce =>
      refine ⟨.inl, ?_⟩
      rintro (h | ⟨-, hx, -⟩)
      · exact h
      · cases hid.symm.trans hx
        simp [Server.Knows, href]
  | refused hexempted hcode hknown =>
      rw [iff_self_or]
      rintro ⟨hchecks, hx, hne⟩
      rcases hknown x hchecks hx hne with ⟨ref, href⟩
      simp [Server.Knows, href]
  | unknown hchecks hid hne hnull =>
      rw [knows_client]
      refine or_congr Iff.rfl ⟨?_, ?_⟩
      · rintro rfl
        exact ⟨hchecks, hid, hne⟩
      · rintro ⟨-, hx, -⟩
        exact Option.some.inj (hx.symm.trans hid)

theorem knows_admission {auth : Bool} {srv : Server} {metadata : Metadata} {x : Bytes} :
    (admission auth srv metadata).1.Knows x ↔ srv.Knows x ∨
      (auth = true ∧ checksSession metadata = true ∧ metadata.lookup keyId = some x ∧ x ≠ []) := by
  cases auth with
  | true => simpa [admission] using knows_process
  | false => simp [admission]

theorem knows_looked {srv : Server} {metadata : Metadata} {rpc : Rpc} {x : Bytes} :
    (looked srv metadata rpc).Knows x ↔ srv.Knows x ∨
      (rpc.usesGst = true ∧ metadata.lookup keyId = some x ∧ x ≠ []) := by
  unfold looked
  split
  · rename_i huses
    rw [knows_getGst]
    simp [huses]
  · rename_i huses
    simp [huses]

/-- A call that gets past `Process` without being exempted names a session of the table. -/
theorem knows_of_accepted {srv : Server} {metadata : Metadata} {x : Bytes}
    (hcode : (process srv metadata).2.code = .ok) (hexempted : exempted metadata = false)
    (hx : metadata.lookup keyId = some x) : srv.Knows x := by
  have hp := processed srv metadata
  revert hp hcode
  generalize process srv metadata = r
  intro hcode hp
  cases hp with
  | exempted h =>
      rw [hexempted] at h
      cases h
  | accepted _ hid _ href _ =>
      cases hid.symm.trans hx
      simp [Server.Knows, href]
  | refused _ hrefused _ => exact absurd hcode hrefused
  | unknown _ _ _ _ => cases hcode

/-! ## Calls -/

theorem knows_of_issued {w : World} (hw : Tabled w) {x : Bytes} (hx : Issued w x) :
    w.srv.Knows x := by
  rcases hw.kept x hx with ⟨ref, href⟩
  simp [Server.Knows, href]

/-- The lookups of a call that is answered are those of `LooksUp`. -/
theorem knows_answered {auth : Bool} {w : World} {c : Call} {x : Bytes}
    (hcode : (admission auth w.srv c.metadata).2.code = .ok) :
    (looked (admission auth w.srv c.metadata).1 c.metadata c.rpc).Knows x ↔
      w.srv.Knows x ∨ Presents auth c x := by
  rw [knows_looked, knows_admission]
  constructor
  · rintro ((h | ⟨hauth, hchecks, hx⟩) | ⟨huses, hx⟩)
    · exact .inl h
    · exact .inr ⟨.inl ⟨hauth, hchecks⟩, hx⟩
    · -- Behind `Process` only an exempted call has a new id looked up.
      cases auth with
      | false => exact .inr ⟨.inr ⟨fun h => Bool.noConfusion h, huses⟩, hx⟩
      | true =>
          cases hexempted : exempted c.metadata with
          | true => exact .inr ⟨.inr ⟨fun _ => hexempted, huses⟩, hx⟩
          | false => exact .inl (knows_of_accepted hcode hexempted hx.1)
  · rintro (h | ⟨⟨hauth, hchecks⟩ | ⟨-, huses⟩, hx⟩)
    · exact .inl (.inl h)
    · exact .inl (.inr ⟨hauth, hchecks, hx⟩)
    · exact .inr ⟨huses, hx⟩

theorem knows_refused {auth : Bool} {w : World} {c : Call} {x : Bytes}
    (hcode : (admission auth w.srv c.metadata).2.code ≠ .ok) :
    (admission auth w.srv c.metadata).1.Knows x ↔ w.srv.Knows x ∨ Presents auth c x := by
  rw [knows_admission]
  refine or_congr Iff.rfl ⟨?_, ?_⟩
  · rintro ⟨hauth, hchecks, hx⟩
    exact ⟨.inl ⟨hauth, hchecks⟩, hx⟩
  · rintro ⟨⟨hauth, hchecks⟩ | ⟨hexempted, -⟩, hx⟩
    · exact ⟨hauth, hchecks, hx⟩
    · cases auth with
      | false => exact absurd rfl hcode
      | true =>
          have haccepted : (admission true w.srv c.metadata).2.code = .ok := by
            simp [admission, process_of_exempted _ (hexempted rfl), Status.accepted]
          exact absurd haccepted hcode

/-- What a call puts into the table. -/
theorem knows_step {auth : Bool} {w w' : World} {c : Call} (hw : Tabled w)
    (h : step auth w c = some w') (hfault : w'.fault = none) (x : Bytes) :
    w'.srv.Knows x ↔ w.srv.Knows x ∨ Issued w' x ∨ Presents auth c x := by
  have hw' : Tabled w' := tabled_step hw h
  have hissued : Issued w' x → w'.srv.Knows x := knows_of_issued hw'
  have hassemble : (w.srv.Knows x ∨ Presents auth c x → w'.srv.Knows x) →
      (w'.srv.Knows x → (w.srv.Knows x ∨ Presents auth c x) ∨ Issued w' x) →
      (w'.srv.Knows x ↔ w.srv.Knows x ∨ Issued w' x ∨ Presents auth c x) := by
    intro hkept hnew
    constructor
    · intro hx
      rcases hnew hx with (hx | hx) | hx
      · exact .inl hx
      · exact .inr (.inr hx)
      · exact .inr (.inl hx)
    · rintro (hx | hx | hx)
      · exact hkept (.inl hx)
      · exact hissued hx
      · exact hkept (.inr hx)
  cases (stepped h).2 with
  | refused hcode =>
      have hkeys := @knows_refused auth w c x hcode
      exact hassemble hkeys.2 fun hx => .inl (hkeys.1 hx)
  | crashed _ _ => cases hfault
  | answered hcode hhandle =>
      have hkeys := @knows_answered auth w c x hcode
      rcases handle_ok hhandle with ⟨-, hframe⟩ | ⟨hrpc, hexchanged⟩
      · rw [Server.Knows, ← hframe.clientMap] at hkeys
        exact hassemble hkeys.2 fun hx => .inl (hkeys.1 hx)
      · rcases c with ⟨rpc, metadata, env⟩
        cases rpc with
        | exchangeKey key =>
            cases hexchanged with
            | failed hret => exact hassemble hkeys.2 fun hx => .inl (hkeys.1 hx)
            | done gst =>
                refine hassemble (fun hx => (knows_insert _).2 (.inl (hkeys.2 hx))) fun hx => ?_
                rcases (knows_insert _).1 hx with hx | rfl
                · exact .inl (hkeys.1 hx)
                · refine .inr ⟨(admission auth w.srv metadata).1.count, List.mem_append_right _ ?_⟩
                  rw [issuedBy_done]
                  exact List.mem_singleton_self _
        | _ => cases hrpc

/-! ## Runs -/

theorem fault_run {auth : Bool} {w w' : World} {cs : List Call}
    (h : Run.exec (step auth) w cs = some w') (hfault : w'.fault = none) : w.fault = none := by
  cases cs with
  | nil =>
      cases h
      exact hfault
  | cons c cs =>
      rcases Run.exec_cons_some.1 h with ⟨w₁, hstep, -⟩
      exact (stepped hstep).1

theorem issued_mono {auth : Bool} {w w' : World} {cs : List Call}
    (h : Run.exec (step auth) w cs = some w') {x : Bytes} (hx : Issued w x) : Issued w' x := by
  have hstep : ∀ w c w', Issued w x → step auth w c = some w' → Issued w' x := by
    rintro w c w' ⟨ref, href⟩ hstep
    cases (stepped hstep).2 with
    | refused _ => exact ⟨ref, href⟩
    | crashed _ _ => exact ⟨ref, href⟩
    | answered _ _ => exact ⟨ref, List.mem_append_left _ href⟩
  exact Run.exec_preserved hstep hx h

theorem knows_run {auth : Bool} {w w' : World} {cs : List Call} (hw : Tabled w)
    (h : Run.exec (step auth) w cs = some w') (hfault : w'.fault = none) (x : Bytes) :
    w'.srv.Knows x ↔ w.srv.Knows x ∨ Issued w' x ∨ ∃ c ∈ cs, Presents auth c x := by
  induction cs generalizing w with
  | nil =>
      cases h
      simp only [List.not_mem_nil, false_and, exists_false, or_false, iff_self_or]
      exact knows_of_issued hw
  | cons c cs ih =>
      rcases Run.exec_cons_some.1 h with ⟨w₁, hstep, hrest⟩
      have hw₁ := tabled_step hw hstep
      rw [ih hw₁ hrest, knows_step hw hstep (fault_run hrest hfault)]
      constructor
      · rintro ((hx | hx | hx) | hx | ⟨c', hmem, hx⟩)
        · exact .inl hx
        · exact .inr (.inl (issued_mono hrest hx))
        · exact .inr (.inr ⟨c, List.mem_cons_self, hx⟩)
        · exact .inr (.inl hx)
        · exact .inr (.inr ⟨c', List.mem_cons_of_mem _ hmem, hx⟩)
      · rintro (hx | hx | ⟨c', hmem, hx⟩)
        · exact .inl (.inl hx)
        · exact .inr (.inl hx)
        · rcases List.mem_cons.1 hmem with rfl | hmem
          · exact .inl (.inr (.inr hx))
          · exact .inr (.inr ⟨c', hmem, hx⟩)

/-! ## Destruction -/

/-- The loop stops at the first null pointer. -/
theorem destroyLoop_null_iff {entries : List (Sigma fun _ : Bytes => Option GstRef)} :
    destroyLoop entries = .error .nullGst ↔ ∃ id, ⟨id, none⟩ ∈ entries := by
  induction entries with
  | nil => simp [destroyLoop]
  | cons e rest ih =>
      rcases e with ⟨id, _ | ref⟩
      · simp only [destroyLoop, true_iff]
        exact ⟨id, List.mem_cons_self⟩
      · have hrest : (∃ id', (⟨id', none⟩ : Sigma fun _ : Bytes => Option GstRef) ∈
            (⟨id, some ref⟩ : Sigma fun _ : Bytes => Option GstRef) :: rest) ↔
            ∃ id', ⟨id', none⟩ ∈ rest := by
          refine exists_congr fun id' => ?_
          simp
        rw [hrest, ← ih, destroyLoop]
        split
        · rename_i e he
          rw [he]
        · rename_i refs hrefs
          simp [hrefs]

theorem null_iff {w : World} (hw : Tabled w) (x : Bytes) :
    w.srv.clientMap.lookup x = some none ↔ w.srv.Knows x ∧ ¬ Issued w x := by
  constructor
  · intro hnull
    refine ⟨by simp [Server.Knows, hnull], fun hx => ?_⟩
    rcases hw.kept x hx with ⟨ref, href⟩
    rw [hnull] at href
    cases href
  · rintro ⟨hknows, hx⟩
    rcases Option.isSome_iff_exists.1 hknows with ⟨p, hp⟩
    cases p with
    | none => exact hp
    | some ref => exact absurd ⟨ref, hw.issued x ref hp⟩ hx

/-- After every run the table holds the ids that were issued and those that were presented, for good,
and the server can be destroyed exactly when nobody has presented an id that was not issued. -/
theorem table_exact (auth : Bool) (info : Option PeerInfo) (storagePath : Bytes)
    (heap : GstRef → Gst) (calls : List Call) (w : World)
    (hexec : Run.exec (step auth) (World.start info storagePath heap) calls = some w)
    (hfault : w.fault = none) :
    (∀ id, w.srv.Knows id ↔ Issued w id ∨ ∃ c ∈ calls, Presents auth c id) ∧
      (destroy w.srv = .error .nullGst ↔
        ∃ id, ¬ Issued w id ∧ ∃ c ∈ calls, Presents auth c id) := by
  have hstart := tabled_start info storagePath heap
  have hw := tabled_run hstart hexec
  have hknows : ∀ id, w.srv.Knows id ↔ Issued w id ∨ ∃ c ∈ calls, Presents auth c id := by
    intro id
    rw [knows_run hstart hexec hfault]
    simp [Server.Knows, World.start]
  refine ⟨hknows, ?_⟩
  calc destroy w.srv = .error .nullGst
      ↔ ∃ id, w.srv.clientMap.lookup id = some none := by
        rw [destroy, destroyLoop_null_iff]
        exact exists_congr fun id => AList.mem_lookup_iff.symm
    _ ↔ ∃ id, ¬ Issued w id ∧ ∃ c ∈ calls, Presents auth c id := by
        refine exists_congr fun id => ?_
        rw [null_iff hw, hknows]
        constructor
        · rintro ⟨hx | hx, hissued⟩
          · exact absurd hx hissued
          · exact ⟨hissued, hx⟩
        · rintro ⟨hissued, hx⟩
          exact ⟨.inr hx, hissued⟩

/-- A client gets its session; somebody else asks for a session that there is not, and is refused. -/
def strayCalls : List Call :=
  [⟨.exchangeKey [], [(keyMethodName, Bytes.ascii "ExchangeKey")], Env.plain⟩,
    ⟨.stop, [(keyMethodName, Bytes.ascii "Stop"), (keyId, Bytes.ascii "9")], Env.plain⟩]

theorem strayCalls_exact :
    ∃ w, Run.exec (step true) World.empty strayCalls = some w ∧
      w.srv.Knows (Bytes.ascii "9") ∧ destroy w.srv = .error .nullGst := by
  obtain ⟨w, hexec, hfault, hissued⟩ : ∃ w, Run.exec (step true) World.empty strayCalls = some w ∧
      w.fault = none ∧ w.issued = [(Bytes.ascii "0", 0)] := ⟨_, rfl, rfl, rfl⟩
  have hexact := table_exact true none [] _ strayCalls w hexec hfault
  have hpresents : ∃ c ∈ strayCalls, Presents true c (Bytes.ascii "9") :=
    ⟨_, List.mem_cons_of_mem _ List.mem_cons_self, .inl ⟨rfl, by decide⟩, by decide, by decide⟩
  refine ⟨w, hexec, (hexact.1 _).2 (.inr hpresents), hexact.2.2 ⟨_, ?_, hpresents⟩⟩
  rintro ⟨ref, href⟩
  rw [hissued] at href
  cases List.mem_singleton.1 href

end GrpcServer
end Peer
end Beyond
