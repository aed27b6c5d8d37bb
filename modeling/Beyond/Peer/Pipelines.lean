import Beyond.Base.Ledger
import Beyond.Base.Platform
import Beyond.Base.Run

/-!
# Who releases the pipelines

The client's `Gst` has a `Source` and a `Sink`, each with a pipeline of its own, and the server's `Gst`
has one pipeline.  Both are made by the handler of `IdPrepare` on a thread of the `Gst`, in steps of which
each may fail.  This module follows the references that these handlers get, over any sequence of commands
until `Destroy` has returned.
-/

namespace Beyond
namespace Peer
namespace Pipelines

open Errno

/-- `undefined` is what follows a null pointer that is dereferenced and a `g_object_unref` of something
that is not a `GObject`. -/
inductive Status
  | running
  | undefined
  | destroyed
  deriving DecidableEq, Repr

/-- A call that returns a reference of its own, or null. -/
def take (ok : Bool) (l : Ledger) : Ledger × Option Nat :=
  if ok then (l.alloc, some l.allocated) else (l, none)

/-- What a `Prepare` meets: `send` is negative if it gives up before the handler runs, `recv` if the reply
of the handler does not arrive. -/
structure Channel where
  send : Int
  recv : Int
  deriving DecidableEq, Repr

/-- The return value of `Prepare`. -/
def Channel.ret (c : Channel) (status : Int) : Int :=
  if c.send < 0 then c.send else if c.recv < 0 then c.recv else status

/-- All objects that were made between two ledgers were released once. -/
def NoneLeft (l l' : Ledger) : Prop :=
  ∀ a, l.allocated ≤ a → a < l'.allocated → l'.releases a = 1

section Take

variable {l : Ledger} {held : List Nat} {ok : Bool}

theorem noneLeft_refl (l : Ledger) : NoneLeft l l := by
  intro a hge hlt
  exact absurd hlt (Nat.not_lt.2 hge)

/-- If nothing new is held, then what was made was released. -/
theorem noneLeft_of_balanced {l' : Ledger} (hl : l.Balanced held) (hl' : l'.Balanced held) :
    NoneLeft l l' := by
  intro a hge hlt
  apply hl'.released hlt
  intro hmem
  exact Nat.not_lt.2 hge (hl.live hmem).1

/-- Something new that is held was not. -/
theorem not_noneLeft_of_held {l' : Ledger} {a : Nat} (hl' : l'.Balanced held) (ha : a ∈ held)
    (hge : l.allocated ≤ a) : ¬NoneLeft l l' := by
  intro hnone
  have hlive := hl'.live ha
  have hreleased := hnone a hge hlive.1
  rw [hlive.2] at hreleased
  cases hreleased

/-- What was held and is lost is still there. -/
theorem not_balanced_of_lost {l' : Ledger} {a : Nat} {lost held' : List Nat}
    (hl' : l'.Balanced (lost ++ held')) (ha : a ∈ lost) : ¬l'.Balanced held' := by
  intro h
  rw [hl'.iff_none_lost.1 h] at ha
  cases ha

end Take

/-- A command that can be given has one outcome. -/
theorem forall_outcome {σ : Type*} {c : Prop} [Decidable c] (hc : c) {o : Option σ} {s' : σ}
    (ho : o = some s') (P : σ → Prop) :
    (∀ r, (if c then o else none) = some r → P r) ↔ P s' := by
  rw [if_pos hc, ho]
  exact ⟨fun h => h s' rfl, fun h r hr => Option.some.inj hr ▸ h⟩

/-- A command that cannot be given has none. -/
theorem forall_no_outcome {σ : Type*} {c : Prop} [Decidable c] {o : Option σ} (ho : c → o = none)
    (P : σ → Prop) : ∀ r, (if c then o else none) = some r → P r := by
  intro r hr
  split at hr
  · rename_i hc
    rw [ho hc] at hr
    cases hr
  · cases hr

/-! ## Client -/

namespace Client

/-- `Source` and `Sink` have the same members. -/
structure Half where
  block : Nat
  pipeline : Option Nat
  element : Option Nat
  bus : Option Nat
  deriving DecidableEq, Repr

/-- In the order of the destructor. -/
def Half.blocks (h : Half) : List Nat :=
  h.element.toList ++ h.bus.toList ++ h.pipeline.toList ++ [h.block]

def Half.destroy (h : Half) (l : Ledger) : Ledger := l.freeAll h.blocks

/-- What the calls in a `Create` give; `gst_parse_launch` may report an error and return a pipeline. -/
structure Calls where
  new : Bool
  pipeline : Bool
  error : Bool
  bus : Bool
  element : Bool
  watch : Bool
  deriving DecidableEq, Repr

/-- `Source::Create` and `Sink::Create`, which differ in the name of the element and in its signals.  That
the pipeline does not start is only logged. -/
def create (l : Ledger) (c : Calls) : Ledger × Option Half :=
  match take c.new l with
  | (l, none) => (l, none)
  | (l, some block) =>
      match take c.pipeline l with
      | (l, pipeline) =>
          if c.error then (Half.destroy ⟨block, pipeline, none, none⟩ l, none)
          else
            -- A null pipeline has no bus.
            match take (pipeline.isSome && c.bus) l with
            | (l, none) => (Half.destroy ⟨block, pipeline, none, none⟩ l, none)
            | (l, some bus) =>
                match take c.element l with
                | (l, none) => (Half.destroy ⟨block, pipeline, none, some bus⟩ l, none)
                | (l, some element) =>
                    if c.watch = false then
                      (Half.destroy ⟨block, pipeline, some element, some bus⟩ l, none)
                    else (l, some ⟨block, pipeline, some element, some bus⟩)

def Source.create := Client.create

def Sink.create := Client.create

/-- `Peer::GrpcClient::Gst`: the objects in its `threadCtx`. -/
structure State where
  ledger : Ledger
  gstSource : Option Half
  gstSink : Option Half
  status : Status

def State.start : State := ⟨Ledger.empty, none, none, .running⟩

/-- `Gst::Prepare` with the calls that the handler makes. -/
structure Prepare where
  channel : Channel
  source : Calls
  sink : Calls
  deriving DecidableEq, Repr

/-- The commands.  A negative `send` is the result of a command that is not sent. -/
inductive Act
  | prepare (p : Prepare)
  | invoke (send : Int)
  | stop (send : Int)
  | destroy (send : Int)
  deriving DecidableEq, Repr

/-- `CommandHandlerPrepare`, and the status that it replies. -/
def commandHandlerPrepare (s : State) (source sink : Calls) : State × Int :=
  match Source.create s.ledger source with
  | (l, none) => ({ s with ledger := l, gstSource := none }, -EFAULT)
  | (l, some gstSource) =>
      match Sink.create l sink with
      | (l, none) =>
          ({ s with ledger := gstSource.destroy l, gstSource := none, gstSink := none }, -EFAULT)
      | (l, some gstSink) =>
          ({ s with ledger := l, gstSource := some gstSource, gstSink := some gstSink }, 0)

/-- `Gst::Prepare`. -/
def prepare (s : State) (p : Prepare) : State × Int :=
  if p.channel.send < 0 then (s, p.channel.ret 0)
  else
    let done := commandHandlerPrepare s p.source p.sink
    (done.1, p.channel.ret done.2)

/-- `CommandHandlerInvoke`, as far as it uses the objects. -/
def commandHandlerInvoke (s : State) : State :=
  if s.gstSource.isNone then { s with status := .undefined } else s

/-- `CommandHandlerStop`; a paused pipeline is still there. -/
def commandHandlerStop (s : State) : State :=
  if s.gstSource.isNone || s.gstSink.isNone then { s with status := .undefined } else s

/-- Both pointers, as the end of `Destroy` treats them. -/
def destroyHalf (l : Ledger) : Option Half → Ledger
  | none => l
  | some half => half.destroy l

/-- `Gst::Destroy` behind `pthread_join`. -/
def destroy (s : State) : State :=
  { s with
    ledger := destroyHalf (destroyHalf s.ledger s.gstSource) s.gstSink
    gstSource := none
    gstSink := none
    status := .destroyed }

def perform (s : State) : Act → Option State
  | .prepare p => some (prepare s p).1
  | .invoke send => some (if send < 0 then s else commandHandlerInvoke s)
  | .stop send => some (if send < 0 then s else commandHandlerStop s)
  -- Without the command for its end, the thread is joined in vain.
  | .destroy send => if send < 0 then none else some (destroy s)

def step (s : State) (a : Act) : Option State :=
  if s.status = .running then perform s a else none

/-! ### The property -/

def blocksOf (half : Option Half) : List Nat := (half.map Half.blocks).getD []

/-- Everything that was made and not released is in the one `Source` and the one `Sink`. -/
structure Owned (s : State) : Prop where
  defined : s.status ≠ .undefined
  balanced : s.ledger.Balanced (blocksOf s.gstSource ++ blocksOf s.gstSink)
  paired : s.gstSource.isSome = s.gstSink.isSome
  destroyed : s.status = .destroyed → s.ledger.Balanced []

/-- A step to an owned state, which leaves nothing of a failed `Prepare`. -/
def Owns (s : State) (a : Act) : Prop :=
  ∀ s', step s a = some s' →
    Owned s' ∧ ∀ p, a = .prepare p → (prepare s p).2 < 0 → NoneLeft s.ledger s'.ledger

/-! ### The condition -/

/-- `Create` makes an object. -/
def Calls.succeed (c : Calls) : Bool :=
  c.new && c.pipeline && !c.error && c.bus && c.element && c.watch

/-- `Prepare` finds no pair, and if it makes one, its caller gets to know it; `Invoke` and `Stop` find a
pair. -/
def Meets (s : State) : Act → Prop
  | .prepare p => p.channel.send < 0 ∨ s.gstSource = none ∧
      (p.source.succeed = true → p.sink.succeed = true → 0 ≤ p.channel.recv)
  | .invoke send => send < 0 ∨ s.gstSource.isSome = true
  | .stop send => send < 0 ∨ s.gstSource.isSome = true
  | .destroy _ => True

/-! ### Steps -/

section Steps

variable {s : State} {l : Ledger} {held : List Nat} {c source sink : Calls}

theorem Half.balanced_destroy {h : Half} (hl : l.Balanced (h.blocks ++ held)) :
    (h.destroy l).Balanced held :=
  hl.freeAll

theorem Half.block_mem (h : Half) : h.block ∈ h.blocks :=
  List.mem_append_right _ List.mem_cons_self

/-- `Create` makes an object or leaves nothing. -/
theorem create_cases (hl : l.Balanced held) :
    (c.succeed = true ∧ ∃ half l', create l c = (l', some half) ∧ half.block = l.allocated ∧
      l'.Balanced (half.blocks ++ held)) ∨
    (c.succeed = false ∧ ∃ l', create l c = (l', none) ∧ l'.Balanced held) := by
  rcases c with ⟨new, pipeline, error, bus, element, watch⟩
  cases new with
  | false => exact Or.inr ⟨rfl, l, rfl, hl⟩
  | true =>
      cases error with
      | true =>
          cases pipeline with
          | false => exact Or.inr ⟨rfl, _, rfl, Half.balanced_destroy hl.alloc⟩
          | true => exact Or.inr ⟨rfl, _, rfl, Half.balanced_destroy hl.alloc.alloc⟩
      | false =>
          cases pipeline with
          | false => exact Or.inr ⟨rfl, _, rfl, Half.balanced_destroy hl.alloc⟩
          | true =>
              cases bus with
              | false => exact Or.inr ⟨rfl, _, rfl, Half.balanced_destroy hl.alloc.alloc⟩
              | true =>
                  cases element with
                  | false =>
                      exact Or.inr ⟨rfl, _, rfl, Half.balanced_destroy hl.alloc.alloc.alloc⟩
                  | true =>
                      cases watch with
                      | false =>
                          have hall := hl.alloc.alloc.alloc.alloc
                          exact Or.inr ⟨rfl, _, rfl, Half.balanced_destroy hall⟩
                      | true => exact Or.inl ⟨rfl, _, _, rfl, rfl, hl.alloc.alloc.alloc.alloc⟩

/-- The handler makes a pair or leaves nothing; in both cases `gstSource` is overwritten. -/
theorem commandHandlerPrepare_cases (hl : s.ledger.Balanced held) :
    (source.succeed = true ∧ sink.succeed = true ∧ ∃ l gstSource gstSink,
      commandHandlerPrepare s source sink =
        ({ s with ledger := l, gstSource := some gstSource, gstSink := some gstSink }, 0) ∧
      gstSource.block = s.ledger.allocated ∧
      l.Balanced (gstSource.blocks ++ gstSink.blocks ++ held)) ∨
    (¬(source.succeed = true ∧ sink.succeed = true) ∧ ∃ l gstSink,
      commandHandlerPrepare s source sink =
        ({ s with ledger := l, gstSource := none, gstSink := gstSink }, -EFAULT) ∧
      (gstSink = none ∨ gstSink = s.gstSink) ∧ l.Balanced held) := by
  unfold commandHandlerPrepare Source.create Sink.create
  rcases create_cases (c := source) hl with
    ⟨hsource, gstSource, l₁, hcreate, hblock, hl₁⟩ | ⟨hsource, l₁, hcreate, hl₁⟩
  · rw [hcreate]
    rcases create_cases (c := sink) hl₁ with
      ⟨hsink, gstSink, l₂, hcreate', -, hl₂⟩ | ⟨hsink, l₂, hcreate', hl₂⟩
    · refine Or.inl ⟨hsource, hsink, l₂, gstSource, gstSink, ?_, hblock, ?_⟩
      · dsimp only
        rw [hcreate']
      · apply hl₂.perm
        rw [List.append_assoc]
        exact List.perm_append_comm_assoc _ _ _
    · refine Or.inr ⟨?_, gstSource.destroy l₂, none, ?_, Or.inl rfl, Half.balanced_destroy hl₂⟩
      · rw [hsink]
        exact fun h => Bool.false_ne_true h.2
      · dsimp only
        rw [hcreate']
  · refine Or.inr ⟨?_, l₁, s.gstSink, ?_, Or.inr rfl, hl₁⟩
    · rw [hsource]
      exact fun h => Bool.false_ne_true h.1
    · rw [hcreate]

theorem Owned.gstSink_eq_none (hs : Owned s) (h : s.gstSource = none) : s.gstSink = none := by
  have hpaired := hs.paired
  rw [h] at hpaired
  exact Option.not_isSome_iff_eq_none.1 (ne_true_of_eq_false hpaired.symm)

theorem Owned.balanced_nil (hs : Owned s) (h : s.gstSource = none) : s.ledger.Balanced [] := by
  have hl := hs.balanced
  rwa [h, hs.gstSink_eq_none h] at hl

/-- A second `Prepare` loses the first `Source`. -/
theorem not_owned_prepare {old : Half} (hs : Owned s) (hold : s.gstSource = some old) :
    ¬Owned (commandHandlerPrepare s source sink).1 := by
  intro howned
  have hl := hs.balanced
  rw [hold] at hl
  rcases commandHandlerPrepare_cases hl with
    ⟨-, -, l, gstSource, gstSink, hrun, -, hl'⟩ | ⟨-, l, gstSink, hrun, hsink, hl'⟩
  · rw [hrun] at howned
    have hmem : old.block ∈ blocksOf (some old) ++ blocksOf s.gstSink :=
      List.mem_append_left _ old.block_mem
    exact not_balanced_of_lost (hl'.perm List.perm_append_comm) hmem howned.balanced
  · rw [hrun] at howned
    rcases hsink with rfl | rfl
    · have hmem : old.block ∈ blocksOf (some old) ++ blocksOf s.gstSink :=
        List.mem_append_left _ old.block_mem
      have hall : l.Balanced (blocksOf (some old) ++ blocksOf s.gstSink ++ []) := by
        rwa [List.append_nil]
      exact not_balanced_of_lost hall hmem howned.balanced
    · exact not_balanced_of_lost hl' old.block_mem howned.balanced

theorem prepare_owns_iff (hs : Owned s) (hrunning : s.status = .running) (p : Prepare) :
    (Owned (prepare s p).1 ∧
      ((prepare s p).2 < 0 → NoneLeft s.ledger (prepare s p).1.ledger)) ↔
    Meets s (.prepare p) := by
  unfold prepare Meets
  by_cases hsend : p.channel.send < 0
  · rw [if_pos hsend]
    exact iff_of_true ⟨hs, fun _ => noneLeft_refl _⟩ (Or.inl hsend)
  · rw [if_neg hsend]
    cases hsource : s.gstSource with
    | some old =>
        refine iff_of_false (fun h => not_owned_prepare hs hsource h.1) ?_
        rintro (h | ⟨h, -⟩)
        · exact hsend h
        · cases h
    | none =>
        have hl := hs.balanced_nil hsource
        have hsink := hs.gstSink_eq_none hsource
        have hret : ∀ status, p.channel.ret status =
            if p.channel.recv < 0 then p.channel.recv else status := fun status => if_neg hsend
        rcases commandHandlerPrepare_cases hl with
          ⟨hok, hok', l, gstSource, gstSink, hrun, hblock, hl'⟩ | ⟨hfail, l, gstSink, hrun, hnone, hl'⟩
        · rw [List.append_nil] at hl'
          dsimp only
          rw [hrun, hret]
          have howned : Owned { s with
              ledger := l, gstSource := some gstSource, gstSink := some gstSink } := by
            refine ⟨hs.defined, hl', rfl, fun h => ?_⟩
            rw [hrunning] at h
            cases h
          have hmem : gstSource.block ∈ gstSource.blocks ++ gstSink.blocks :=
            List.mem_append_left _ gstSource.block_mem
          have hleft := not_noneLeft_of_held hl' hmem (Nat.le_of_eq hblock.symm)
          constructor
          · rintro ⟨-, hclean⟩
            refine Or.inr ⟨rfl, fun _ _ => ?_⟩
            by_contra hrecv
            rw [Int.not_le] at hrecv
            rw [if_pos hrecv] at hclean
            exact hleft (hclean hrecv)
          · rintro (h | ⟨-, h⟩)
            · exact absurd h hsend
            · refine ⟨howned, fun hneg => ?_⟩
              rw [if_neg (Int.not_lt.2 (h hok hok'))] at hneg
              exact absurd hneg (Int.lt_irrefl 0)
        · dsimp only
          rw [hrun]
          have hgone : gstSink = none := by
            rcases hnone with rfl | rfl
            · rfl
            · exact hsink
          refine iff_of_true ⟨⟨hs.defined, ?_, ?_, fun _ => hl'⟩, fun _ => ?_⟩ ?_
          · rw [hgone]
            exact hl'
          · rw [hgone]
          · exact noneLeft_of_balanced hl hl'
          · exact Or.inr ⟨rfl, fun h h' => absurd ⟨h, h'⟩ hfail⟩

theorem destroy_owned (hs : Owned s) : Owned (destroy s) := by
  have hl : (destroy s).ledger.Balanced [] := by
    have hall := hs.balanced
    unfold destroy
    cases hsource : s.gstSource with
    | none =>
        rw [hs.gstSink_eq_none hsource]
        exact hs.balanced_nil hsource
    | some gstSource =>
        rw [hsource] at hall
        cases hsink : s.gstSink with
        | none =>
            rw [hsink] at hall
            exact Half.balanced_destroy hall
        | some gstSink =>
            rw [hsink] at hall
            have hrest := Half.balanced_destroy hall
            rw [← List.append_nil (blocksOf (some gstSink))] at hrest
            exact Half.balanced_destroy hrest
  exact ⟨fun h => Status.noConfusion h, hl, rfl, fun _ => hl⟩

/-- `Invoke` uses one of the two pointers, `Stop` both. -/
theorem use_owned_iff (hs : Owned s) {s' : State}
    (huse : s' = if s.gstSource.isNone then { s with status := .undefined } else s) :
    Owned s' ↔ s.gstSource.isSome = true := by
  rw [huse]
  cases hsource : s.gstSource with
  | none => exact iff_of_false (fun h => h.defined rfl) Bool.false_ne_true
  | some gstSource => exact iff_of_true hs rfl

theorem owns_of_perform {a : Act} {s' : State} (hrunning : s.status = .running)
    (hstep : perform s a = some s') :
    Owns s a ↔ Owned s' ∧ ∀ p, a = .prepare p → (prepare s p).2 < 0 →
      NoneLeft s.ledger s'.ledger := by
  exact forall_outcome hrunning hstep _

theorem owns_iff_owned {a : Act} {s' : State} (hrunning : s.status = .running)
    (hstep : perform s a = some s') (hother : ∀ p, a ≠ .prepare p) : Owns s a ↔ Owned s' := by
  rw [owns_of_perform hrunning hstep]
  exact and_iff_left fun p hp => absurd hp (hother p)

theorem owns_iff (hs : Owned s) (a : Act) :
    Owns s a ↔ (s.status = .running → Meets s a) := by
  by_cases hrunning : s.status = .running
  case neg =>
    refine iff_of_true ?_ fun h => absurd h hrunning
    exact forall_no_outcome (fun h => absurd h hrunning) _
  rw [imp_iff_right hrunning]
  cases a with
  | prepare p =>
      rw [owns_of_perform hrunning rfl, ← prepare_owns_iff hs hrunning p]
      refine and_congr_right fun _ => ⟨fun h => h p rfl, fun h p' hp' => ?_⟩
      cases hp'
      exact h
  | invoke send =>
      rw [owns_iff_owned hrunning rfl (fun p hp => Act.noConfusion hp)]
      by_cases hsend : send < 0
      · rw [if_pos hsend]
        exact iff_of_true hs (Or.inl hsend)
      · have huse : commandHandlerInvoke s =
            if s.gstSource.isNone then { s with status := .undefined } else s := rfl
        rw [if_neg hsend, use_owned_iff hs huse]
        exact (or_iff_right hsend).symm
  | stop send =>
      rw [owns_iff_owned hrunning rfl (fun p hp => Act.noConfusion hp)]
      by_cases hsend : send < 0
      · rw [if_pos hsend]
        exact iff_of_true hs (Or.inl hsend)
      · have huse : commandHandlerStop s =
            if s.gstSource.isNone then { s with status := .undefined } else s := by
          have hisNone : s.gstSink.isNone = s.gstSource.isNone := by
            rw [← Option.not_isSome, ← Option.not_isSome, hs.paired]
          rw [commandHandlerStop, hisNone, Bool.or_self]
        rw [if_neg hsend, use_owned_iff hs huse]
        exact (or_iff_right hsend).symm
  | destroy send =>
      refine iff_of_true ?_ trivial
      by_cases hsend : send < 0
      · exact forall_no_outcome (fun _ => if_pos hsend) _
      · have hstep : perform s (.destroy send) = some (destroy s) := if_neg hsend
        rw [owns_iff_owned hrunning hstep (fun p hp => Act.noConfusion hp)]
        exact destroy_owned hs

end Steps

end Client

/-! ## Server -/

namespace Server

/-- What the calls in `CommandHandlerPrepare` give. -/
structure Calls where
  pipeline : Bool
  error : Bool
  bus : Bool
  watch : Bool
  serverSource : Bool
  serverSink : Bool
  tensorFilter : Bool
  playing : Bool
  deriving DecidableEq, Repr

/-- `Peer::GrpcServer::Gst`: the objects in its `threadCtx`.  The references to elements that the handler
takes are in `elements`; no path returns them. -/
structure State where
  ledger : Ledger
  elements : Ledger
  pipeline : Option Nat
  bus : Option Nat
  status : Status

def State.start : State := ⟨Ledger.empty, Ledger.empty, none, none, .running⟩

structure Prepare where
  channel : Channel
  calls : Calls
  deriving DecidableEq, Repr

inductive Act
  | prepare (p : Prepare)
  | stop (send : Int)
  | destroy (send : Int)
  deriving DecidableEq, Repr

/-- An element is missing: the watch is given to `g_object_unref`, though a `GSource` is none. -/
def elementMissing (s : State) (pipeline bus : Nat) : State × Int :=
  ({ s with
    ledger := (s.ledger.free pipeline).free bus
    pipeline := none
    bus := none
    status := .undefined }, -EFAULT)

/-- `gst_bin_get_by_name`, for the three elements in turn. -/
def takeElements (l : Ledger) : List Bool → Ledger × Bool
  | [] => (l, true)
  | ok :: oks =>
      match take ok l with
      | (l, none) => (l, false)
      | (l, some _) => takeElements l oks

/-- `CommandHandlerPrepare`, and the status that it replies. -/
def commandHandlerPrepare (s : State) (c : Calls) : State × Int :=
  match take c.pipeline s.ledger with
  | (l, none) => ({ s with ledger := l, pipeline := none }, -EFAULT)
  | (l, some pipeline) =>
      if c.error then ({ s with ledger := l, pipeline := some pipeline }, -EFAULT)
      else
        match take c.bus l with
        | (l, none) =>
            ({ s with ledger := l.free pipeline, pipeline := none, bus := none }, -EFAULT)
        | (l, some bus) =>
            if c.watch = false then
              ({ s with ledger := (l.free pipeline).free bus, pipeline := none, bus := none },
                -EFAULT)
            else
              match takeElements s.elements [c.serverSource, c.serverSink, c.tensorFilter] with
              | (elements, false) => elementMissing { s with ledger := l, elements } pipeline bus
              | (elements, true) =>
                  ({ s with ledger := l, elements, pipeline := some pipeline, bus := some bus },
                    if c.playing then 0 else -EFAULT)

/-- `Gst::Prepare`. -/
def prepare (s : State) (p : Prepare) : State × Int :=
  if p.channel.send < 0 then (s, p.channel.ret 0)
  else
    let done := commandHandlerPrepare s p.calls
    (done.1, p.channel.ret done.2)

/-- `Gst::Destroy` behind `pthread_join`: the members go without their objects. -/
def destroy (s : State) : State :=
  { s with pipeline := none, bus := none, status := .destroyed }

def perform (s : State) : Act → Option State
  | .prepare p => some (prepare s p).1
  -- The handler of `IdStop` does nothing.
  | .stop _ => some s
  | .destroy send => if send < 0 then none else some (destroy s)

def step (s : State) (a : Act) : Option State :=
  if s.status = .running then perform s a else none

/-! ### The property -/

/-- Everything that was made and not released is the one pipeline and its bus. -/
structure Owned (s : State) : Prop where
  defined : s.status ≠ .undefined
  balanced : s.ledger.Balanced (s.pipeline.toList ++ s.bus.toList)
  paired : s.pipeline.isSome = s.bus.isSome
  destroyed : s.status = .destroyed → s.ledger.Balanced []

/-- A step to an owned state, which leaves nothing of a failed `Prepare`. -/
def Owns (s : State) (a : Act) : Prop :=
  ∀ s', step s a = some s' →
    Owned s' ∧ ∀ p, a = .prepare p → (prepare s p).2 < 0 → NoneLeft s.ledger s'.ledger

/-! ### The condition -/

/-- The handler makes a pipeline and starts it. -/
def Calls.succeed (c : Calls) : Bool :=
  c.pipeline && !c.error && c.bus && c.watch && c.serverSource && c.serverSink && c.tensorFilter &&
    c.playing

/-- The handler gives up with nothing left: there is no pipeline, or without an error no bus or no
watch. -/
def Calls.giveUp (c : Calls) : Bool :=
  !c.pipeline || (!c.error && (!c.bus || !c.watch))

/-- `Prepare` finds no pipeline; it gives up with nothing left, or it makes a pipeline that starts and its
caller gets to know it.  `Destroy` finds no pipeline. -/
def Meets (s : State) : Act → Prop
  | .prepare p => p.channel.send < 0 ∨ s.pipeline = none ∧
      (p.calls.giveUp = true ∨ p.calls.succeed = true ∧ 0 ≤ p.channel.recv)
  | .stop _ => True
  | .destroy send => send < 0 ∨ s.pipeline = none

/-! ### Steps -/

section Steps

variable {s : State} {held : List Nat} {c : Calls}

theorem Owned.bus_eq_none (hs : Owned s) (h : s.pipeline = none) : s.bus = none := by
  have hpaired := hs.paired
  rw [h] at hpaired
  exact Option.not_isSome_iff_eq_none.1 (ne_true_of_eq_false hpaired.symm)

theorem Owned.balanced_nil (hs : Owned s) (h : s.pipeline = none) : s.ledger.Balanced [] := by
  have hl := hs.balanced
  rwa [h, hs.bus_eq_none h] at hl

/-- The four ways through the handler. -/
theorem commandHandlerPrepare_cases (hl : s.ledger.Balanced held) :
    (c.giveUp = true ∧ ∃ l bus,
      commandHandlerPrepare s c =
        ({ s with ledger := l, pipeline := none, bus := bus }, -EFAULT) ∧
      l.Balanced held ∧ (bus = none ∨ bus = s.bus)) ∨
    (c.giveUp = false ∧ c.succeed = false ∧
      commandHandlerPrepare s c =
        ({ s with ledger := s.ledger.alloc, pipeline := some s.ledger.allocated }, -EFAULT)) ∨
    (c.giveUp = false ∧ c.succeed = false ∧
      (commandHandlerPrepare s c).1.status = .undefined) ∨
    (c.giveUp = false ∧ ∃ elements,
      commandHandlerPrepare s c =
        ({ s with
          ledger := s.ledger.alloc.alloc
          elements := elements
          pipeline := some s.ledger.allocated
          bus := some (s.ledger.allocated + 1) }, if c.succeed then 0 else -EFAULT)) := by
  rcases c with ⟨pipeline, error, bus, watch, serverSource, serverSink, tensorFilter, playing⟩
  cases pipeline with
  | false => exact Or.inl ⟨rfl, s.ledger, s.bus, rfl, hl, Or.inr rfl⟩
  | true =>
      cases error with
      | true => exact Or.inr (Or.inl ⟨rfl, rfl, rfl⟩)
      | false =>
          cases bus with
          | false => exact Or.inl ⟨rfl, _, none, rfl, hl.alloc.free, Or.inl rfl⟩
          | true =>
              cases watch with
              | false =>
                  have hl' := hl.alloc.alloc.perm (List.Perm.swap _ _ _)
                  exact Or.inl ⟨rfl, _, none, rfl, hl'.free.free, Or.inl rfl⟩
              | true =>
                  cases serverSource with
                  | false => exact Or.inr (Or.inr (Or.inl ⟨rfl, rfl, rfl⟩))
                  | true =>
                      cases serverSink with
                      | false => exact Or.inr (Or.inr (Or.inl ⟨rfl, rfl, rfl⟩))
                      | true =>
                          cases tensorFilter with
                          | false => exact Or.inr (Or.inr (Or.inl ⟨rfl, rfl, rfl⟩))
                          | true => exact Or.inr (Or.inr (Or.inr ⟨rfl, _, rfl⟩))

/-- A second `Prepare` loses the first pipeline. -/
theorem not_owned_prepare {old : Nat} (hs : Owned s) (hold : s.pipeline = some old) :
    ¬Owned (commandHandlerPrepare s c).1 := by
  intro howned
  have hl := hs.balanced
  rw [hold] at hl
  have hmem : old ∈ (some old).toList ++ s.bus.toList := List.mem_cons_self
  rcases commandHandlerPrepare_cases hl with ⟨-, l, bus, hrun, hl', rfl | rfl⟩ |
    ⟨-, -, hrun⟩ | ⟨-, -, hundefined⟩ | ⟨-, elements, hrun⟩
  · rw [hrun] at howned
    have hall : l.Balanced ((some old).toList ++ s.bus.toList ++ []) := by
      rwa [List.append_nil]
    exact not_balanced_of_lost hall hmem howned.balanced
  · rw [hrun] at howned
    have hall : l.Balanced ([old] ++ s.bus.toList) := hl'
    exact not_balanced_of_lost hall List.mem_cons_self howned.balanced
  · rw [hrun] at howned
    have hall := hl.alloc.perm (List.Perm.swap _ _ _)
    have hlost : s.ledger.alloc.Balanced ([old] ++ s.ledger.allocated :: s.bus.toList) := hall
    exact not_balanced_of_lost hlost List.mem_cons_self howned.balanced
  · exact howned.defined hundefined
  · rw [hrun] at howned
    have hall := hl.alloc.alloc
    have hlost : s.ledger.alloc.alloc.Balanced
        ((some old).toList ++ s.bus.toList ++ [s.ledger.allocated, s.ledger.allocated + 1]) := by
      have hcomm : ([s.ledger.allocated, s.ledger.allocated + 1] ++
          ((some old).toList ++ s.bus.toList)).Perm _ := List.perm_append_comm
      exact hall.perm ((List.Perm.swap _ _ _).trans hcomm)
    exact not_balanced_of_lost hlost hmem howned.balanced

theorem prepare_owns_iff (hs : Owned s) (hrunning : s.status = .running) (p : Prepare) :
    (Owned (prepare s p).1 ∧
      ((prepare s p).2 < 0 → NoneLeft s.ledger (prepare s p).1.ledger)) ↔
    Meets s (.prepare p) := by
  unfold prepare Meets
  by_cases hsend : p.channel.send < 0
  · rw [if_pos hsend]
    exact iff_of_true ⟨hs, fun _ => noneLeft_refl _⟩ (Or.inl hsend)
  · rw [if_neg hsend]
    cases hpipeline : s.pipeline with
    | some old =>
        refine iff_of_false (fun h => not_owned_prepare hs hpipeline h.1) ?_
        rintro (h | ⟨h, -⟩)
        · exact hsend h
        · cases h
    | none =>
        have hbus := hs.bus_eq_none hpipeline
        have hl := hs.balanced_nil hpipeline
        have hret : ∀ status, p.channel.ret status =
            if p.channel.recv < 0 then p.channel.recv else status := fun status => if_neg hsend
        have hfault : (if p.channel.recv < 0 then p.channel.recv else -EFAULT) < 0 := by
          split
          · assumption
          · decide
        dsimp only
        rw [hret]
        rcases commandHandlerPrepare_cases hl with ⟨hgive, l, bus, hrun, hl', hold⟩ |
          ⟨hgive, hfail, hrun⟩ | ⟨hgive, hfail, hundefined⟩ | ⟨hgive, elements, hrun⟩
        · rw [hrun]
          -- Nothing is held for the new pipeline.
          have hgone : bus = none := by
            rcases hold with rfl | rfl
            · rfl
            · exact hbus
          refine iff_of_true ⟨⟨hs.defined, ?_, ?_, fun _ => hl'⟩, fun _ => ?_⟩ ?_
          · rw [hgone]
            exact hl'
          · rw [hgone]
          · exact noneLeft_of_balanced hl hl'
          · exact Or.inr ⟨rfl, Or.inl hgive⟩
        · rw [hrun]
          refine iff_of_false (fun h => ?_) ?_
          · -- The pipeline was created and is not released on the way out.
            have hmem : s.ledger.allocated ∈ [s.ledger.allocated] := List.mem_cons_self
            exact not_noneLeft_of_held hl.alloc hmem (Nat.le_refl _) (h.2 hfault)
          · rw [hgive, hfail]
            rintro (h | ⟨-, h | ⟨h, -⟩⟩)
            · exact hsend h
            · cases h
            · cases h
        · refine iff_of_false (fun h => h.1.defined hundefined) ?_
          rw [hgive, hfail]
          rintro (h | ⟨-, h | ⟨h, -⟩⟩)
          · exact hsend h
          · cases h
          · cases h
        · rw [hrun]
          have hall := hl.alloc.alloc.perm (List.Perm.swap _ _ _)
          -- The pipeline and its bus are held, so that no failure may be returned any more.
          have hleft := not_noneLeft_of_held hall List.mem_cons_self (Nat.le_refl _)
          have howned : Owned { s with
              ledger := s.ledger.alloc.alloc
              elements := elements
              pipeline := some s.ledger.allocated
              bus := some (s.ledger.allocated + 1) } := by
            refine ⟨hs.defined, hall, rfl, fun h => ?_⟩
            rw [hrunning] at h
            cases h
          rw [and_iff_right howned, hgive]
          constructor
          · intro hclean
            refine Or.inr ⟨rfl, Or.inr ⟨?_, ?_⟩⟩
            · by_contra hfail
              rw [if_neg hfail] at hclean
              exact hleft (hclean hfault)
            · by_contra hrecv
              rw [Int.not_le] at hrecv
              rw [if_pos hrecv] at hclean
              exact hleft (hclean hrecv)
          · rintro (h | ⟨-, h | ⟨hok, hrecv⟩⟩)
            · exact absurd h hsend
            · cases h
            · intro hneg
              rw [if_neg (Int.not_lt.2 hrecv), if_pos hok] at hneg
              exact absurd hneg (Int.lt_irrefl 0)

theorem owns_of_perform {a : Act} {s' : State} (hrunning : s.status = .running)
    (hstep : perform s a = some s') :
    Owns s a ↔ Owned s' ∧ ∀ p, a = .prepare p → (prepare s p).2 < 0 →
      NoneLeft s.ledger s'.ledger := by
  exact forall_outcome hrunning hstep _

theorem owns_iff_owned {a : Act} {s' : State} (hrunning : s.status = .running)
    (hstep : perform s a = some s') (hother : ∀ p, a ≠ .prepare p) : Owns s a ↔ Owned s' := by
  rw [owns_of_perform hrunning hstep]
  exact and_iff_left fun p hp => absurd hp (hother p)

/-- `Destroy` releases nothing. -/
theorem destroy_owned_iff (hs : Owned s) : Owned (destroy s) ↔ s.pipeline = none := by
  cases hpipeline : s.pipeline with
  | none =>
      have hl := hs.balanced_nil hpipeline
      exact iff_of_true ⟨fun h => Status.noConfusion h, hl, rfl, fun _ => hl⟩ rfl
  | some pipeline =>
      refine iff_of_false (fun h => ?_) (Option.some_ne_none _)
      have hl := hs.balanced
      rw [hpipeline] at hl
      have hlost : s.ledger.Balanced ((some pipeline).toList ++ s.bus.toList ++ []) := by
        rwa [List.append_nil]
      exact not_balanced_of_lost hlost List.mem_cons_self h.balanced

theorem owns_iff (hs : Owned s) (a : Act) :
    Owns s a ↔ (s.status = .running → Meets s a) := by
  by_cases hrunning : s.status = .running
  case neg =>
    refine iff_of_true ?_ fun h => absurd h hrunning
    exact forall_no_outcome (fun h => absurd h hrunning) _
  rw [imp_iff_right hrunning]
  cases a with
  | prepare p =>
      rw [owns_of_perform hrunning rfl, ← prepare_owns_iff hs hrunning p]
      refine and_congr_right fun _ => ⟨fun h => h p rfl, fun h p' hp' => ?_⟩
      cases hp'
      exact h
  | stop send =>
      rw [owns_iff_owned hrunning rfl (fun p hp => Act.noConfusion hp)]
      exact iff_of_true hs trivial
  | destroy send =>
      by_cases hsend : send < 0
      · refine iff_of_true ?_ (Or.inl hsend)
        exact forall_no_outcome (fun _ => if_pos hsend) _
      · have hstep : perform s (.destroy send) = some (destroy s) := if_neg hsend
        rw [owns_iff_owned hrunning hstep (fun p hp => Act.noConfusion hp), destroy_owned_iff hs]
        exact (or_iff_right hsend).symm

end Steps

end Server

/-! ## Runs -/

/-- A sequence of commands keeps the pipelines owned exactly when its commands meet the condition. -/
theorem pipelines_owned_iff (client : List Client.Act) (server : List Server.Act) :
    (Run.Along Client.step Client.Owns .start client ∧
      Run.Along Server.step Server.Owns .start server) ↔
    (Run.Along Client.step (fun s a => s.status = .running → Client.Meets s a) .start client ∧
      Run.Along Server.step (fun s a => s.status = .running → Server.Meets s a) .start server) := by
  have hclient : Client.Owned .start :=
    ⟨Status.noConfusion, Ledger.Balanced.empty, rfl, fun _ => Ledger.Balanced.empty⟩
  have hserver : Server.Owned .start :=
    ⟨Status.noConfusion, Ledger.Balanced.empty, rfl, fun _ => Ledger.Balanced.empty⟩
  refine and_congr ?_ ?_
  · refine Run.along_congr (I := Client.Owned) ?_ (fun s a hs => Client.owns_iff hs a) hclient
    intro s a s' hs hmeets hstep
    exact (((Client.owns_iff hs a).2 hmeets) s' hstep).1
  · refine Run.along_congr (I := Server.Owned) ?_ (fun s a hs => Server.owns_iff hs a) hserver
    intro s a s' hs hmeets hstep
    exact (((Server.owns_iff hs a).2 hmeets) s' hstep).1

/-- A server that prepares a pipeline and is destroyed. -/
theorem prepared_pipeline_left :
    ¬Run.Along Server.step Server.Owns .start
      [.prepare ⟨⟨0, 0⟩, ⟨true, false, true, true, true, true, true, true⟩⟩, .destroy 0] := by
  intro h
  have hend := ((h.2 _ rfl).1 _ rfl).1.balanced.once 0
  exact absurd (hend (by decide)) (by decide)

end Pipelines
end Peer
end Beyond
