import Beyond.Base.Run
import Beyond.Peer.ModelInfos

/-!
# Who reads and who releases tensor infos

On the client `NewDataHandler` reads the types of the output infos on a thread of GStreamer, beside
the calls of the application.  On the server the handlers of the RPCs read the infos of their session
beside each other and beside the thread that prepares the pipeline and fills the model.

The methods of `Peer::Model` are single steps here, and so is each access of a loop that reads.  A
request that the client waits for ends one step, and its answer begins another.  Strings, queues and
pipelines are left out.
-/

namespace Beyond
namespace Peer
namespace InfoSharing

open ModelInfos

/-! ## The client -/

namespace Client

/-- Whom infos are got for: the application, or the caps that `Prepare` writes. -/
inductive Purpose
  | call (side : Side)
  | prepare
  deriving DecidableEq, Repr

def Purpose.side : Purpose → Side
  | call side => side
  | prepare => .input

/-- Where the thread of the application is. -/
inductive App
  | idle
  /-- `LoadModel` has reset the input infos. -/
  | loadModel
  /-- A `Get..TensorInfo` waits for the answer of the server. -/
  | fetching (p : Purpose)
  /-- `TensorInfoToDesc`. -/
  | describing (r : Reading)
  deriving DecidableEq, Repr

/-- Where `NewDataHandler` is. -/
inductive Gst
  | idle
  | fetching
  | copying (r : Reading)
  deriving DecidableEq, Repr

structure State where
  model : ModelInfos.Model
  app : App
  gst : Gst
  /-- Something was read behind its release. -/
  fault : Bool
  destroyed : Bool

def State.start : State := ⟨.new, .idle, .idle, false, false⟩

inductive Act
  /-- `LoadModel` up to its first reset; `ok` is the status of the RPC. -/
  | loadModel (ok : Bool)
  | resetOutput
  | setTensorInfo (side : Side) (ok : Bool) (r : BuildResults)
  | getTensorInfo (side : Side)
  /-- `Prepare` behind its RPC; infos are needed only without a preprocessing. -/
  | prepare (ok raw : Bool)
  /-- The answer that a `Get..TensorInfo` waits for. -/
  | response (r : Option BuildResults)
  | describe
  | newData
  | newDataResponse (r : Option BuildResults)
  | readType
  /-- `NewDataHandler` returns. -/
  | finish
  | destroy
  deriving DecidableEq, Repr

def State.read (s : State) (r : Reading) (what : Reads) : State :=
  if r.infos.readable s.model.ledger r.next what then s else { s with fault := true }

def State.deliver (s : State) (i : Infos) : Purpose → State
  | .call _ => { s with app := .idle }
  | .prepare => { s with app := .describing ⟨.input, i, 0⟩ }

def getTensorInfo (s : State) (p : Purpose) : State :=
  match s.model.get p.side with
  | some i => s.deliver i p
  | none => { s with app := .fetching p }

def response (s : State) (p : Purpose) : Option BuildResults → State
  | none => { s with app := .idle }
  | some r =>
      match s.model.buildAndSet p.side r with
      | (m, none) => { s with model := m, app := .idle }
      | (m, some i) => { s with model := m }.deliver i p

def describe (s : State) (r : Reading) : State :=
  if r.pending then { s.read r .shape with app := .describing r.advance }
  else { s with app := .idle }

def newData (s : State) : State :=
  match s.model.get .output with
  | some i => { s with gst := .copying ⟨.output, i, 0⟩ }
  | none => { s with gst := .fetching }

def newDataResponse (s : State) : Option BuildResults → State
  | none => { s with gst := .idle }
  | some r =>
      match s.model.buildAndSet .output r with
      | (m, none) => { s with model := m, gst := .idle }
      | (m, some i) => { s with model := m, gst := .copying ⟨.output, i, 0⟩ }

def step (s : State) (a : Act) : Option State :=
  if s.fault ∨ s.destroyed then none
  else
    match a with
    | .loadModel ok =>
        if s.app ≠ .idle then none
        else if ok then some { s with model := s.model.set .input none, app := .loadModel }
        else some s
    | .resetOutput =>
        if s.app ≠ .loadModel then none
        else some { s with model := s.model.set .output none, app := .idle }
    | .setTensorInfo side ok r =>
        if s.app ≠ .idle then none
        else if ok then some { s with model := (s.model.buildAndSet side r).1 }
        else some s
    | .getTensorInfo side => if s.app ≠ .idle then none else some (getTensorInfo s (.call side))
    | .prepare ok raw =>
        if s.app ≠ .idle then none
        else if ok && raw then some (getTensorInfo s .prepare)
        else some s
    | .response r =>
        match s.app with
        | .fetching p => some (response s p r)
        | _ => none
    | .describe =>
        match s.app with
        | .describing r => some (describe s r)
        | _ => none
    | .newData => if s.gst ≠ .idle then none else some (newData s)
    | .newDataResponse r => if s.gst ≠ .fetching then none else some (newDataResponse s r)
    | .readType =>
        match s.gst with
        | .copying r =>
            if r.pending then some { s.read r .type with gst := .copying r.advance } else none
        | _ => none
    | .finish =>
        match s.gst with
        | .copying _ => some { s with gst := .idle }
        | _ => none
    | .destroy =>
        if s.app = .idle ∧ s.gst = .idle then
          some { s with model := s.model.destroy, destroyed := true }
        else none

/-- No read finds its memory released, every block is held once or was released once, and nothing is
left at the end. -/
structure Sound (s : State) : Prop where
  safe : s.fault = false
  balanced : s.model.ledger.Balanced s.model.held
  ended : s.destroyed = true → s.model.held = []

/-- What the step builds an array from. -/
def Act.build : Act → Option BuildResults
  | .setTensorInfo _ true r => some r
  | .response r => r
  | .newDataResponse r => r
  | _ => none

/-- The application replaces the output infos. -/
def SetsOutput (s : State) : Act → Bool
  | .resetOutput => true
  | .setTensorInfo .output true r => r.built
  | .response (some r) => r.built && s.app == .fetching (.call .output)
  | _ => false

/-- `NewDataHandler` still has types to read. -/
def Gst.reads : Gst → Bool
  | .copying r => r.pending
  | _ => false

/-- No array fails with its first tensor, and the output infos are not replaced while
`NewDataHandler` reads them. -/
def Keeps (s : State) (a : Act) : Prop :=
  (∀ r ∈ a.build, r.Clean) ∧ (SetsOutput s a = true → s.gst.reads = false)

instance Keeps.decidable (s : State) (a : Act) : Decidable (Keeps s a) :=
  inferInstanceAs (Decidable
    ((∀ r ∈ a.build, r.Clean) ∧ (SetsOutput s a = true → s.gst.reads = false)))

/-! ## What the client keeps -/

variable {s s' : State}

/-- The readers of both threads have the infos of the model before them. -/
structure Linked (s : State) : Prop where
  safe : s.fault = false
  alive : s.destroyed = false
  owned : s.model.Owned
  describing : ∀ r, s.app = .describing r → r.side = .input ∧ r.Current s.model
  copying : ∀ r, s.gst = .copying r → r.side = .output ∧ r.Current s.model

theorem linked_start : Linked .start := ⟨rfl, rfl, ModelInfos.Model.owned_new, nofun, nofun⟩

theorem Linked.sound (h : Linked s) : Sound s :=
  ⟨h.safe, h.owned.balanced, fun hd => absurd (h.alive.symm.trans hd) (by simp)⟩

/-- The thread of the application stops reading. -/
theorem Linked.setApp (h : Linked s) {app : App} (happ : ∀ r, app ≠ .describing r) :
    Linked { s with app := app } :=
  ⟨h.safe, h.alive, h.owned, fun r hr => absurd hr (happ r), h.copying⟩

theorem Linked.setGst (h : Linked s) {gst : Gst} (hgst : ∀ r, gst ≠ .copying r) :
    Linked { s with gst := gst } :=
  ⟨h.safe, h.alive, h.owned, h.describing, fun r hr => absurd hr (hgst r)⟩

theorem Linked.read (h : Linked s) {r : Reading} (hr : r.Current s.model)
    (hpending : r.pending = true) (what : Reads) : s.read r what = s := by
  rw [State.read, hr.readable h.owned hpending what, if_pos rfl]

/-- The application changes the model while it reads nothing itself. -/
theorem Linked.setModel (h : Linked s) {m : ModelInfos.Model} {app : App} (hm : m.Owned)
    (happ : ∀ r, app ≠ .describing r)
    (hcopying : ∀ r, s.gst = .copying r → r.Current s.model → r.Current m) :
    Linked { s with model := m, app := app } :=
  ⟨h.safe, h.alive, hm, fun r hr => absurd hr (happ r),
    fun r hr => ⟨(h.copying r hr).1, hcopying r hr (h.copying r hr).2⟩⟩

theorem Linked.deliver (h : Linked s) {p : Purpose} {i : Infos}
    (hi : Reading.Current s.model ⟨p.side, i, 0⟩) : Linked (s.deliver i p) := by
  cases p with
  | call side => exact h.setApp nofun
  | prepare =>
      refine ⟨h.safe, h.alive, h.owned, fun r hr => ?_, h.copying⟩
      cases App.describing.inj hr
      exact ⟨rfl, hi⟩

theorem Linked.getTensorInfo (h : Linked s) (p : Purpose) : Linked (getTensorInfo s p) := by
  unfold Client.getTensorInfo
  cases hget : s.model.get p.side with
  | none => exact h.setApp nofun
  | some i => exact h.deliver (Reading.current_of_get hget)

/-- A reader of the output infos is not disturbed by a build for a side that it does not read. -/
theorem Linked.copying_buildAndSet {side : Side} {b : BuildResults} (h : Linked s)
    (hkeeps : side = .output → b.built = true → s.gst.reads = false) :
    ∀ r, s.gst = .copying r → r.Current s.model → r.Current (s.model.buildAndSet side b).1 := by
  intro r hr hcurrent
  refine hcurrent.buildAndSet fun hbuilt hpending hside => ?_
  have hreads := hkeeps (hside.symm.trans (h.copying r hr).1) hbuilt
  rw [hr] at hreads
  exact absurd (hpending.symm.trans hreads) (by simp)

theorem Linked.response (h : Linked s) {p : Purpose} {answer : Option BuildResults}
    (hclean : ∀ r ∈ answer, r.Clean)
    (hkeeps : ∀ r ∈ answer, p.side = .output → r.built = true → s.gst.reads = false) :
    Linked (response s p answer) := by
  cases answer with
  | none => exact h.setApp nofun
  | some r =>
      have howned := h.owned.buildAndSet p.side (hclean r rfl)
      have hcopying := h.copying_buildAndSet (hkeeps r rfl)
      have hcurrent : ∀ i, (s.model.buildAndSet p.side r).2 = some i →
          Reading.Current (s.model.buildAndSet p.side r).1 ⟨p.side, i, 0⟩ :=
        fun i hi => Reading.current_of_buildAndSet hi
      cases hbuild : s.model.buildAndSet p.side r with
      | mk m i =>
          rw [hbuild] at howned hcopying hcurrent
          simp only [Client.response, hbuild]
          cases i with
          | none => exact h.setModel howned nofun hcopying
          | some i =>
              have hm : Linked { s with model := m, app := .idle } :=
                h.setModel howned nofun hcopying
              exact hm.deliver (hcurrent i rfl)

theorem Linked.newData (h : Linked s) : Linked (newData s) := by
  unfold Client.newData
  cases hget : s.model.get .output with
  | none => exact h.setGst nofun
  | some i =>
      refine ⟨h.safe, h.alive, h.owned, h.describing, fun r hr => ?_⟩
      cases Gst.copying.inj hr
      exact ⟨rfl, Reading.current_of_get hget⟩

/-- The application reads input infos only, so it does not matter to it that `NewDataHandler` sets the
output infos. -/
theorem Linked.newDataResponse (h : Linked s) {answer : Option BuildResults}
    (hclean : ∀ r ∈ answer, r.Clean) : Linked (newDataResponse s answer) := by
  cases answer with
  | none => exact h.setGst nofun
  | some b =>
      have howned := h.owned.buildAndSet .output (hclean b rfl)
      have hdescribing : ∀ r, s.app = .describing r →
          r.side = .input ∧ r.Current (s.model.buildAndSet .output b).1 := by
        intro r hr
        refine ⟨(h.describing r hr).1, (h.describing r hr).2.buildAndSet fun _ _ hside => ?_⟩
        exact absurd ((h.describing r hr).1.symm.trans hside) (by decide)
      have hcurrent : ∀ i, (s.model.buildAndSet .output b).2 = some i →
          Reading.Current (s.model.buildAndSet .output b).1 ⟨.output, i, 0⟩ :=
        fun i hi => Reading.current_of_buildAndSet hi
      cases hbuild : s.model.buildAndSet .output b with
      | mk m i =>
          rw [hbuild] at howned hdescribing hcurrent
          simp only [Client.newDataResponse, hbuild]
          cases i with
          | none => exact ⟨h.safe, h.alive, howned, hdescribing, nofun⟩
          | some i =>
              refine ⟨h.safe, h.alive, howned, hdescribing, fun r hr => ?_⟩
              cases Gst.copying.inj hr
              exact ⟨rfl, hcurrent i rfl⟩

/-- The application is at the next info, or at the end of them. -/
theorem Linked.describe (h : Linked s) {r : Reading} (happ : s.app = .describing r) :
    Linked (describe s r) := by
  rcases h.describing r happ with ⟨hside, hcurrent⟩
  unfold Client.describe
  split
  · rename_i hpending
    rw [h.read hcurrent hpending]
    refine ⟨h.safe, h.alive, h.owned, fun r' hr' => ?_, h.copying⟩
    cases App.describing.inj hr'
    exact ⟨hside, hcurrent.advance⟩
  · exact h.setApp nofun

theorem linked_step {a : Act} (h : Linked s) (hkeeps : Keeps s a) (hstep : step s a = some s')
    (ha : a ≠ .destroy) : Linked s' := by
  unfold step at hstep
  split at hstep
  · cases hstep
  · cases a with
    | loadModel ok =>
        simp only at hstep
        split at hstep
        · cases hstep
        · split at hstep
          · cases hstep
            -- The input infos are reset, which `NewDataHandler` does not read.
            refine h.setModel h.owned.set_none nofun fun r hr hcurrent => hcurrent.set fun _ hside => ?_
            exact absurd ((h.copying r hr).1.symm.trans hside) (by decide)
          · cases hstep
            exact h
    | resetOutput =>
        simp only at hstep
        split at hstep
        · cases hstep
        · cases hstep
          -- A reader that still has something to read is excluded.
          refine h.setModel h.owned.set_none nofun fun r hr hcurrent => hcurrent.set fun hp => ?_
          have hreads := hkeeps.2 rfl
          rw [hr] at hreads
          exact absurd (hp.symm.trans hreads) (by simp)
    | setTensorInfo side ok b =>
        simp only at hstep
        split at hstep
        · cases hstep
        · rename_i happ
          rw [not_not] at happ
          split at hstep
          · rename_i hok
            subst hok
            cases hstep
            -- The application, which makes the call, reads nothing itself.
            refine ⟨h.safe, h.alive, h.owned.buildAndSet side (hkeeps.1 b rfl), fun r hr => ?_,
              fun r hr => ?_⟩
            · cases happ.symm.trans hr
            · refine ⟨(h.copying r hr).1, h.copying_buildAndSet ?_ r hr (h.copying r hr).2⟩
              rintro rfl hbuilt
              exact hkeeps.2 hbuilt
          · cases hstep
            exact h
    | getTensorInfo side =>
        simp only at hstep
        split at hstep
        · cases hstep
        · cases hstep
          exact h.getTensorInfo _
    | prepare ok raw =>
        simp only at hstep
        split at hstep
        · cases hstep
        · split at hstep
          · cases hstep
            exact h.getTensorInfo _
          · cases hstep
            exact h
    | response answer =>
        simp only at hstep
        split at hstep
        · rename_i p happ
          cases hstep
          refine h.response hkeeps.1 ?_
          rintro b rfl hside hbuilt
          refine hkeeps.2 ?_
          cases p with
          | call side =>
              cases hside
              simp [SetsOutput, happ, hbuilt]
          | prepare => cases hside
        · cases hstep
    | describe =>
        simp only at hstep
        split at hstep
        · rename_i r happ
          cases hstep
          exact h.describe happ
        · cases hstep
    | newData =>
        simp only at hstep
        split at hstep
        · cases hstep
        · cases hstep
          exact h.newData
    | newDataResponse answer =>
        simp only at hstep
        split at hstep
        · cases hstep
        · cases hstep
          exact h.newDataResponse hkeeps.1
    | readType =>
        simp only at hstep
        split at hstep
        · rename_i r hgst
          split at hstep
          · rename_i hpending
            cases hstep
            have hr := h.copying r hgst
            rw [h.read hr.2 hpending]
            refine ⟨h.safe, h.alive, h.owned, h.describing, fun r' hr' => ?_⟩
            cases Gst.copying.inj hr'
            exact ⟨hr.1, hr.2.advance⟩
          · cases hstep
        · cases hstep
    | finish =>
        simp only at hstep
        split at hstep
        · cases hstep
          exact h.setGst nofun
        · cases hstep
    | destroy => exact absurd rfl ha

/-- Up to the destruction of the session the readers have the infos of the model, and then all of them
are released. -/
def Inv (s : State) : Prop := Linked s ∨ (s.destroyed = true ∧ Sound s)

theorem inv_step {a : Act} (h : Inv s) (hkeeps : Keeps s a) (hstep : step s a = some s') :
    Inv s' := by
  rcases h with hlinked | ⟨hdestroyed, -⟩
  · by_cases ha : a = .destroy
    · subst ha
      simp only [step, hlinked.safe, hlinked.alive] at hstep
      split at hstep
      · cases hstep
      · split at hstep
        · cases hstep
          exact .inr ⟨rfl, rfl, hlinked.owned.destroy.balanced, fun _ => held_destroy _⟩
        · cases hstep
    · exact .inl (linked_step hlinked hkeeps hstep ha)
  · simp [step, hdestroyed] at hstep

theorem sound_of_keeps {as : List Act} (hkeeps : Run.Along step Keeps .start as)
    (h : Run.exec step .start as = some s) : Sound s := by
  have hinv : Inv s :=
    Run.exec_invariant (fun _ _ _ hs hk hstep => inv_step hs hk hstep) (.inl linked_start) hkeeps h
  rcases hinv with hlinked | ⟨-, hsound⟩
  · exact hlinked.sound
  · exact hsound

theorem readType_faults {r : Reading} (hsafe : s.fault = false) (halive : s.destroyed = false)
    (hgst : s.gst = .copying r) (hpending : r.pending = true)
    (hgone : r.infos.readable s.model.ledger r.next .type = false) :
    ∃ t, step s .readType = some t ∧ t.fault = true := by
  refine ⟨{ s.read r .type with gst := .copying r.advance }, ?_, ?_⟩
  · simp [step, hsafe, halive, hgst, hpending]
  · simp [State.read, hgone]

/-- Where the condition on the output infos is not met, the next type that `NewDataHandler` reads is
read behind its release. -/
theorem stale_type_read {a : Act} (h : Linked s) (hclean : ∀ r ∈ a.build, r.Clean)
    (hsets : SetsOutput s a = true) (hreads : s.gst.reads = true) (hstep : step s a = some s') :
    ∃ t, step s' .readType = some t ∧ t.fault = true := by
  cases hgst : s.gst with
  | idle => simp [hgst, Gst.reads] at hreads
  | fetching => simp [hgst, Gst.reads] at hreads
  | copying r =>
      rw [hgst] at hreads
      have hpending : r.pending = true := hreads
      have hr := h.copying r hgst
      have hslot : s.model.slot .output = some r.infos := hr.1 ▸ hr.2 hpending
      have hgone : ∀ b : BuildResults, b.Clean → b.built = true →
          r.infos.readable (s.model.buildAndSet .output b).1.ledger r.next .type = false :=
        fun b hb hbuilt => h.owned.not_readable_of_buildAndSet hslot hb hbuilt r.next .type
      unfold step at hstep
      rw [if_neg (by simp [h.safe, h.alive])] at hstep
      cases a with
      | resetOutput =>
          simp only at hstep
          split at hstep
          · cases hstep
          · cases hstep
            exact readType_faults h.safe h.alive hgst hpending
              (h.owned.not_readable_of_set hslot none h.owned.balanced r.next .type)
      | setTensorInfo side ok b =>
          cases side with
          | input => cases hsets
          | output =>
              cases ok with
              | false => cases hsets
              | true =>
                  simp only [if_true] at hstep
                  split at hstep
                  · cases hstep
                  · cases hstep
                    exact readType_faults h.safe h.alive hgst hpending (hgone b (hclean b rfl) hsets)
      | response answer =>
          cases answer with
          | none => cases hsets
          | some b =>
              simp only [SetsOutput, Bool.and_eq_true, beq_iff_eq] at hsets
              simp only [hsets.2, Option.some.injEq] at hstep
              have hunread := hgone b (hclean b rfl) hsets.1
              subst hstep
              cases hbuild : s.model.buildAndSet .output b with
              | mk m i =>
                  rw [hbuild] at hunread
                  cases i with
                  | none =>
                      simp only [response, Purpose.side, hbuild]
                      exact readType_faults h.safe h.alive hgst hpending hunread
                  | some i =>
                      simp only [response, Purpose.side, hbuild, State.deliver]
                      exact readType_faults h.safe h.alive hgst hpending hunread
      | _ => cases hsets

end Client

/-! ## The server -/

namespace Server

/-- An RPC that reads tensor infos: the answer of a `Get..TensorInfo`, or the properties that
`Prepare` writes. -/
inductive Handler
  | infoToResponse (r : Reading)
  | prepare (r : Reading)
  deriving DecidableEq, Repr

def Handler.reading : Handler → Reading
  | infoToResponse r => r
  | prepare r => r

def Handler.advance : Handler → Handler
  | infoToResponse r => infoToResponse r.advance
  | prepare r => prepare r.advance

/-- What is read of a cell. -/
def Handler.reads : Handler → Reads
  | infoToResponse _ => .all
  | prepare _ => .shape

/-- Where the thread is that prepares pipelines. -/
inductive Gst
  | idle
  /-- The pipeline plays; the infos of this side are looked at next. -/
  | looking (side : Side)
  /-- They are missing, and `ExtractTensorInfo` comes next. -/
  | extracting (side : Side)
  deriving DecidableEq, Repr

structure State where
  model : ModelInfos.Model
  /-- Whether the model has a path. -/
  modelPath : Bool
  handlers : List Handler
  /-- The `Prepare` commands that the thread has not taken yet. -/
  commands : Nat
  gst : Gst
  fault : Bool
  destroyed : Bool

def State.start : State := ⟨.new, false, [], 0, .idle, false, false⟩

inductive Act
  | loadModel (strdup : Bool)
  | setTensorInfo (side : Side) (r : BuildResults)
  | getTensorInfo (side : Side)
  | prepare
  /-- Handler number `k` goes on. -/
  | handle (k : Nat)
  /-- The thread takes a command; `ok` tells whether the pipeline plays. -/
  | commandHandlerPrepare (ok : Bool)
  | look
  /-- `none` is an element without the properties. -/
  | extractTensorInfo (r : Option BuildResults)
  | destroy
  deriving DecidableEq, Repr

def State.read (s : State) (r : Reading) (what : Reads) : State :=
  if r.infos.readable s.model.ledger r.next what then s else { s with fault := true }

def State.add (s : State) (h : Handler) : State := { s with handlers := s.handlers ++ [h] }

/-- A `Get..TensorInfo` without infos answers at once. -/
def getTensorInfo (s : State) (side : Side) : State :=
  match s.model.get side with
  | some i => s.add (.infoToResponse ⟨side, i, 0⟩)
  | none => s

/-- `Prepare` behind the properties of the input. -/
def prepareOutput (s : State) : State :=
  match s.model.get .output with
  | some i => s.add (.prepare ⟨.output, i, 0⟩)
  | none => { s with commands := s.commands + 1 }

def prepareInput (s : State) : State :=
  match s.model.get .input with
  | some i => s.add (.prepare ⟨.input, i, 0⟩)
  | none => prepareOutput s

/-- A handler has read everything. -/
def finish (s : State) : Handler → State
  | .infoToResponse _ => s
  | .prepare r =>
      match r.side with
      | .input => prepareOutput s
      | .output => { s with commands := s.commands + 1 }

def handle (s : State) (k : Nat) (h : Handler) : State :=
  if h.reading.pending then
    { s.read h.reading h.reads with handlers := s.handlers.set k h.advance }
  else finish { s with handlers := s.handlers.eraseIdx k } h

/-- The thread goes on behind the infos of a side. -/
def Gst.next : Side → Gst
  | .input => .looking .output
  | .output => .idle

def step (s : State) (a : Act) : Option State :=
  if s.fault ∨ s.destroyed then none
  else
    match a with
    -- A `strdup` that fails leaves no path.
    | .loadModel strdup => some { s with modelPath := strdup }
    | .setTensorInfo side r => some { s with model := (s.model.buildAndSet side r).1 }
    | .getTensorInfo side => some (getTensorInfo s side)
    | .prepare => if s.modelPath then some (prepareInput s) else some s
    | .handle k => (s.handlers[k]?).map (handle s k)
    | .commandHandlerPrepare ok =>
        if s.gst = .idle ∧ 0 < s.commands then
          some { s with commands := s.commands - 1, gst := if ok then .looking .input else .idle }
        else none
    | .look =>
        match s.gst with
        | .looking side =>
            match s.model.get side with
            | some _ => some { s with gst := .next side }
            | none => some { s with gst := .extracting side }
        | _ => none
    | .extractTensorInfo r =>
        match s.gst with
        | .extracting side =>
            match r with
            | none => some { s with gst := .next side }
            | some r => some { s with model := (s.model.buildAndSet side r).1, gst := .next side }
        | _ => none
    | .destroy =>
        if s.handlers = [] ∧ s.gst = .idle then
          some { s with model := s.model.destroy, destroyed := true }
        else none

structure Sound (s : State) : Prop where
  safe : s.fault = false
  balanced : s.model.ledger.Balanced s.model.held
  ended : s.destroyed = true → s.model.held = []

/-- The side that the step sets, and what it builds the array from. -/
def sets (s : State) : Act → Option (Side × BuildResults)
  | .setTensorInfo side r => some (side, r)
  | .extractTensorInfo (some r) =>
      match s.gst with
      | .extracting side => some (side, r)
      | _ => none
  | _ => none

/-- No array fails with its first tensor or has none, and the infos of a side are not replaced while a
handler reads them. -/
def Keeps (s : State) (a : Act) : Prop :=
  ∀ p ∈ sets s a, p.2.Clean ∧
    (p.2.built = true → ∀ h ∈ s.handlers, h.reading.pending = true → h.reading.side ≠ p.1)

instance Keeps.decidable (s : State) (a : Act) : Decidable (Keeps s a) :=
  inferInstanceAs (Decidable (∀ p ∈ sets s a, p.2.Clean ∧
    (p.2.built = true → ∀ h ∈ s.handlers, h.reading.pending = true → h.reading.side ≠ p.1)))

/-! ## What the server keeps -/

variable {s s' : State}

/-- The handlers have the infos of the model before them. -/
structure Linked (s : State) : Prop where
  safe : s.fault = false
  alive : s.destroyed = false
  owned : s.model.Owned
  current : ∀ h ∈ s.handlers, h.reading.Current s.model

theorem linked_start : Linked .start := ⟨rfl, rfl, ModelInfos.Model.owned_new, nofun⟩

theorem Linked.sound (h : Linked s) : Sound s :=
  ⟨h.safe, h.owned.balanced, fun hd => absurd (h.alive.symm.trans hd) (by simp)⟩

theorem Linked.add (h : Linked s) {handler : Handler} (hr : handler.reading.Current s.model) :
    Linked (s.add handler) := by
  refine ⟨h.safe, h.alive, h.owned, fun g hg => ?_⟩
  rcases List.mem_append.1 hg with hg | hg
  · exact h.current g hg
  · rw [List.mem_singleton.1 hg]
    exact hr

theorem Linked.prepareOutput (h : Linked s) : Linked (prepareOutput s) := by
  unfold Server.prepareOutput
  cases hget : s.model.get .output with
  | none => exact ⟨h.safe, h.alive, h.owned, h.current⟩
  | some i => exact h.add (Reading.current_of_get hget)

theorem Linked.prepareInput (h : Linked s) : Linked (prepareInput s) := by
  unfold Server.prepareInput
  cases hget : s.model.get .input with
  | none => exact h.prepareOutput
  | some i => exact h.add (Reading.current_of_get hget)

theorem Linked.getTensorInfo (h : Linked s) (side : Side) : Linked (getTensorInfo s side) := by
  unfold Server.getTensorInfo
  cases hget : s.model.get side with
  | none => exact h
  | some i => exact h.add (Reading.current_of_get hget)

theorem Linked.handle (h : Linked s) {k : Nat} {handler : Handler}
    (hk : s.handlers[k]? = some handler) : Linked (handle s k handler) := by
  have hr := h.current handler (List.mem_of_getElem? hk)
  unfold Server.handle
  split
  · rename_i hpending
    rw [State.read, hr.readable h.owned hpending handler.reads, if_pos rfl]
    refine ⟨h.safe, h.alive, h.owned, fun g hg => ?_⟩
    rcases List.mem_or_eq_of_mem_set hg with hg | rfl
    · exact h.current g hg
    · cases handler with
      | infoToResponse r => exact hr.advance
      | prepare r => exact hr.advance
  · have hrest : Linked { s with handlers := s.handlers.eraseIdx k } :=
      ⟨h.safe, h.alive, h.owned, fun g hg => h.current g (List.mem_of_mem_eraseIdx hg)⟩
    cases handler with
    | infoToResponse r => exact hrest
    | prepare r =>
        unfold finish
        simp only
        cases r.side with
        | input => exact hrest.prepareOutput
        | output => exact ⟨hrest.safe, hrest.alive, hrest.owned, hrest.current⟩

theorem Linked.buildAndSet (h : Linked s) {side : Side} {b : BuildResults} {gst : Gst}
    (hb : b.Clean) (hside : b.built = true →
      ∀ g ∈ s.handlers, g.reading.pending = true → g.reading.side ≠ side) :
    Linked { s with model := (s.model.buildAndSet side b).1, gst := gst } :=
  ⟨h.safe, h.alive, h.owned.buildAndSet side hb,
    fun g hg => (h.current g hg).buildAndSet fun hbuilt => hside hbuilt g hg⟩

theorem linked_step {a : Act} (h : Linked s) (hkeeps : Keeps s a) (hstep : step s a = some s')
    (ha : a ≠ .destroy) : Linked s' := by
  unfold step at hstep
  split at hstep
  · cases hstep
  · cases a with
    | loadModel strdup =>
        cases hstep
        exact ⟨h.safe, h.alive, h.owned, h.current⟩
    | setTensorInfo side b =>
        cases hstep
        have hb := hkeeps (side, b) rfl
        exact h.buildAndSet hb.1 hb.2
    | getTensorInfo side =>
        cases hstep
        exact h.getTensorInfo side
    | prepare =>
        simp only at hstep
        split at hstep
        · cases hstep
          exact h.prepareInput
        · cases hstep
          exact h
    | handle k =>
        rcases Option.map_eq_some_iff.1 hstep with ⟨handler, hk, rfl⟩
        exact h.handle hk
    | commandHandlerPrepare ok =>
        simp only at hstep
        split at hstep
        · cases hstep
          exact ⟨h.safe, h.alive, h.owned, h.current⟩
        · cases hstep
    | look =>
        simp only at hstep
        split at hstep
        · split at hstep
          · cases hstep
            exact ⟨h.safe, h.alive, h.owned, h.current⟩
          · cases hstep
            exact ⟨h.safe, h.alive, h.owned, h.current⟩
        · cases hstep
    | extractTensorInfo answer =>
        simp only at hstep
        split at hstep
        · rename_i side hgst
          cases answer with
          | none =>
              cases hstep
              exact ⟨h.safe, h.alive, h.owned, h.current⟩
          | some b =>
              cases hstep
              have hb := hkeeps (side, b) (by simp [sets, hgst])
              exact h.buildAndSet hb.1 hb.2
        · cases hstep
    | destroy => exact absurd rfl ha

def Inv (s : State) : Prop := Linked s ∨ (s.destroyed = true ∧ Sound s)

theorem inv_step {a : Act} (h : Inv s) (hkeeps : Keeps s a) (hstep : step s a = some s') :
    Inv s' := by
  rcases h with hlinked | ⟨hdestroyed, -⟩
  · by_cases ha : a = .destroy
    · subst ha
      simp only [step, hlinked.safe, hlinked.alive] at hstep
      split at hstep
      · cases hstep
      · split at hstep
        · cases hstep
          exact .inr ⟨rfl, rfl, hlinked.owned.destroy.balanced, fun _ => held_destroy _⟩
        · cases hstep
    · exact .inl (linked_step hlinked hkeeps hstep ha)
  · simp [step, hdestroyed] at hstep

theorem sound_of_keeps {as : List Act} (hkeeps : Run.Along step Keeps .start as)
    (h : Run.exec step .start as = some s) : Sound s := by
  have hinv : Inv s :=
    Run.exec_invariant (fun _ _ _ hs hk hstep => inv_step hs hk hstep) (.inl linked_start) hkeeps h
  rcases hinv with hlinked | ⟨-, hsound⟩
  · exact hlinked.sound
  · exact hsound

/-- Where the condition on the handlers is not met, the next cell that such a handler reads is read
behind its release. -/
theorem stale_cell_read {a : Act} {side : Side} {b : BuildResults} {k : Nat} {handler : Handler}
    (h : Linked s) (hsets : sets s a = some (side, b)) (hb : b.Clean) (hbuilt : b.built = true)
    (hk : s.handlers[k]? = some handler) (hpending : handler.reading.pending = true)
    (hside : handler.reading.side = side) (hstep : step s a = some s') :
    ∃ t, step s' (.handle k) = some t ∧ t.fault = true := by
  have hslot := h.current handler (List.mem_of_getElem? hk) hpending
  have hgone := h.owned.not_readable_of_buildAndSet hslot hb hbuilt handler.reading.next
    handler.reads
  have hs' : s'.model = (s.model.buildAndSet side b).1 ∧ s'.handlers = s.handlers ∧
      s'.fault = false ∧ s'.destroyed = false := by
    unfold step at hstep
    rw [if_neg (by simp [h.safe, h.alive])] at hstep
    cases a with
    | setTensorInfo side' b' =>
        cases hsets
        cases hstep
        exact ⟨rfl, rfl, h.safe, h.alive⟩
    | extractTensorInfo answer =>
        cases answer with
        | none => cases hsets
        | some b' =>
            cases hgst : s.gst with
            | extracting side' =>
                simp only [sets, hgst, Option.some.injEq, Prod.mk.injEq] at hsets
                rcases hsets with ⟨rfl, rfl⟩
                simp only [hgst, Option.some.injEq] at hstep
                subst hstep
                exact ⟨rfl, rfl, h.safe, h.alive⟩
            | _ => simp [sets, hgst] at hsets
    | _ => cases hsets
  rcases hs' with ⟨hmodel, hhandlers, hsafe, halive⟩
  refine ⟨handle s' k handler, by simp [step, hsafe, halive, hhandlers, hk], ?_⟩
  rw [hside] at hgone
  simp [handle, hpending, State.read, hmodel, hgone]

end Server

/-! ## Both ends -/

/-- On either end a run whose steps meet the condition reads nothing behind its release and releases
everything once. -/
theorem infos_shared_safely (as : List Client.Act) (bs : List Server.Act) (s : Client.State)
    (t : Server.State) :
    (Run.exec Client.step .start as = some s → Run.Along Client.step Client.Keeps .start as →
      Client.Sound s) ∧
    (Run.exec Server.step .start bs = some t → Run.Along Server.step Server.Keeps .start bs →
      Server.Sound t) :=
  ⟨fun h hkeeps => Client.sound_of_keeps hkeeps h, fun h hkeeps => Server.sound_of_keeps hkeeps h⟩

/-- One tensor without a name. -/
def oneTensor : BuildResults := ⟨true, [⟨none, true, true⟩]⟩

/-- The types are read between two calls that set the output infos. -/
def clientRun : List Client.Act :=
  [.setTensorInfo .output true oneTensor, .newData, .readType, .finish,
    .setTensorInfo .output true oneTensor, .destroy]

/-- The input infos are read by a `Get` and a `Prepare`, which fills in the output infos. -/
def serverRun : List Server.Act :=
  [.loadModel true, .setTensorInfo .input oneTensor, .getTensorInfo .input, .handle 0, .handle 0,
    .prepare, .handle 0, .handle 0, .commandHandlerPrepare true, .look, .look,
    .extractTensorInfo (some oneTensor), .destroy]

theorem both_sessions_safe :
    ∃ s t, Run.exec Client.step .start clientRun = some s ∧
      Run.exec Server.step .start serverRun = some t ∧ s.model.ledger.allocated = 4 ∧
      t.model.ledger.allocated = 4 ∧ Client.Sound s ∧ Server.Sound t := by
  refine ⟨_, _, rfl, rfl, rfl, rfl, ?_⟩
  constructor
  · exact (infos_shared_safely clientRun serverRun _ .start).1 rfl (by decide)
  · exact (infos_shared_safely clientRun serverRun .start _).2 rfl (by decide)

/-- The output infos are set while `NewDataHandler` is about to read them. -/
def staleRun : List Client.Act :=
  [.setTensorInfo .output true oneTensor, .newData, .setTensorInfo .output true oneTensor, .readType]

/-- The input infos are set while a `Get` is about to write them into its answer. -/
def staleServerRun : List Server.Act :=
  [.setTensorInfo .input oneTensor, .getTensorInfo .input, .setTensorInfo .input oneTensor,
    .handle 0]

theorem infos_read_behind_release :
    (∃ s, Run.exec Client.step .start staleRun = some s ∧ ¬ Client.Sound s) ∧
    (∃ s, Run.exec Server.step .start staleServerRun = some s ∧ ¬ Server.Sound s) :=
  ⟨⟨_, rfl, fun h => absurd h.safe (by decide)⟩, ⟨_, rfl, fun h => absurd h.safe (by decide)⟩⟩

end InfoSharing
end Peer
end Beyond
