import Mathlib.Data.List.Nodup
import Beyond.Base.Ownership
import Beyond.Base.Run

/-!
# The commands of the asynchronous runtime

A method of `Inference::Runtime::impl::Async` fills a `CommandData` record on its stack, sends its
address to the worker thread and blocks until an address comes back.  The worker takes one command
after the other and passes it to its handler, which reads the record, calls the module, writes what
the module returned into the record and sends its address back.  Only `Invoke` does not wait.

Here any sequence of calls of one application thread is interleaved with the worker, over a module
that may answer anything.  `Send` and `Recv` succeed.
-/

namespace Beyond
namespace Runtime
namespace Commands

/-! ## Records -/

abbrev Pointer := Nat

def nullptr : Pointer := 0

inductive Command
  | configure
  | loadModel
  | getInputTensorInfo
  | getOutputTensorInfo
  | setInputTensorInfo
  | setOutputTensorInfo
  | allocateTensor
  | freeTensor
  | prepare
  | invoke
  | stop
  deriving DecidableEq, Repr

def Command.value : Command → Int
  | configure => 0x00
  | loadModel => 0x01
  | getInputTensorInfo => 0x02
  | getOutputTensorInfo => 0x03
  | setInputTensorInfo => 0x04
  | setOutputTensorInfo => 0x05
  | allocateTensor => 0x06
  | freeTensor => 0x07
  | prepare => 0x08
  | invoke => 0x09
  | stop => 0x0A

/-- `IdLast` -/
def Command.last : Int := 0x0B

/-- The union `CommandData::Arguments`, by the member that was written last. -/
inductive Arguments
  | tensorInfo (info : Pointer) (size : Int)
  | tensor (tensor : Pointer) (size : Int) (context : Pointer)
  | ptr (ptr : Pointer)
  deriving DecidableEq, Repr

/-- The union `CommandData::Return`. -/
inductive Return
  | value (value : Int)
  | obj (value : Int) (ptr : Pointer)
  deriving DecidableEq, Repr

structure CommandData where
  args : Arguments
  ret : Return
  deriving DecidableEq, Repr

-- Only the member that was written last can be read.

def Arguments.tensorInfo? : Arguments → Option (Pointer × Int)
  | .tensorInfo info size => some (info, size)
  | _ => none

def Arguments.tensor? : Arguments → Option (Pointer × Int × Pointer)
  | .tensor t size context => some (t, size, context)
  | _ => none

def Arguments.ptr? : Arguments → Option Pointer
  | .ptr p => some p
  | _ => none

def Return.value? : Return → Option Int
  | .value v => some v
  | _ => none

def Return.obj? : Return → Option (Int × Pointer)
  | .obj v p => some (v, p)
  | _ => none

/-! ## Calls of the module -/

/-- A call as the module sees it.  What a parameter that only returns something holds before the
call is not part of it. -/
inductive Request
  | configure (options : Pointer)
  | loadModel (model : Pointer)
  | getInputTensorInfo
  | getOutputTensorInfo
  | setInputTensorInfo (info : Pointer) (size : Int)
  | setOutputTensorInfo (info : Pointer) (size : Int)
  | allocateTensor (info : Pointer) (size : Int)
  | freeTensor (tensor : Pointer) (size : Int)
  | prepare
  | invoke (input : Pointer) (size : Int) (context : Pointer)
  | getOutput
  | stop
  deriving DecidableEq, Repr

/-- What the module does in a call: the value that it returns, and what it sets its reference
parameters to; `none` is left unset. -/
structure Reply where
  value : Int
  info : Option Pointer
  size : Option Int
  tensor : Option Pointer
  deriving DecidableEq, Repr

/-- What a handler finds in `info` and `size` when it does not initialise them. -/
structure Locals where
  info : Pointer
  size : Int
  deriving DecidableEq, Repr

structure Answer where
  reply : Reply
  locals : Locals
  deriving DecidableEq, Repr

/-! ## Handlers -/

structure Handler where
  /-- The command that it sends back. -/
  id : Command
  /-- The call of the module that it makes. -/
  request : Arguments → Option Request
  /-- What it leaves in the record. -/
  finish : CommandData → Answer → CommandData

/-- Most handlers write the value that the module returned, and nothing else. -/
def valueHandler (id : Command) (request : Arguments → Option Request) : Handler where
  id := id
  request := request
  finish arg answer := { arg with ret := .value answer.reply.value }

def commandConfigureHandler : Handler :=
  valueHandler .configure fun args => do
    let options ← args.ptr?
    return .configure options

def commandLoadModelHandler : Handler :=
  valueHandler .loadModel fun args => do
    let model ← args.ptr?
    return .loadModel model

def commandSetInputTensorInfoHandler : Handler :=
  valueHandler .setInputTensorInfo fun args => do
    let (info, size) ← args.tensorInfo?
    return .setInputTensorInfo info size

def commandSetOutputTensorInfoHandler : Handler :=
  valueHandler .setOutputTensorInfo fun args => do
    let (info, size) ← args.tensorInfo?
    return .setOutputTensorInfo info size

def commandPrepareHandler : Handler := valueHandler .prepare fun _ => some .prepare

def commandStopHandler : Handler := valueHandler .stop fun _ => some .stop

/-- The module sets two locals of the handler, `initial` before the call. -/
def infoHandler (id : Command) (request : Request) (initial : Locals → Locals) : Handler where
  id := id
  request _ := some request
  finish _ answer :=
    { args := .tensorInfo (answer.reply.info.getD (initial answer.locals).info)
        (answer.reply.size.getD (initial answer.locals).size)
      ret := .value answer.reply.value }

def commandGetInputTensorInfoHandler : Handler :=
  infoHandler .getInputTensorInfo .getInputTensorInfo fun _ => ⟨nullptr, 0⟩

-- `info` and `size` are not initialised.
def commandGetOutputTensorInfoHandler : Handler :=
  infoHandler .getOutputTensorInfo .getOutputTensorInfo fun locals => locals

def commandAllocateTensorHandler : Handler where
  id := .allocateTensor
  request args := do
    let (info, size) ← args.tensorInfo?
    return .allocateTensor info size
  finish arg answer :=
    { arg with ret := .obj answer.reply.value (answer.reply.tensor.getD nullptr) }

def commandFreeTensorHandler : Handler where
  id := .freeTensor
  request args := do
    let (tensor, size, _) ← args.tensor?
    return .freeTensor tensor size
  -- The reference that the module gets is that of the record.
  finish arg answer :=
    { args :=
        match arg.args with
        | .tensor tensor size context => .tensor (answer.reply.tensor.getD tensor) size context
        | args => args
      ret := .value 0 }

/-- `CommandInvokeHandler` does not send the record back. -/
inductive CommandHandler
  | replies (handler : Handler)
  | invoke

def cmdTable : List CommandHandler :=
  [.replies commandConfigureHandler,
    .replies commandLoadModelHandler,
    .replies commandGetInputTensorInfoHandler,
    .replies commandGetOutputTensorInfoHandler,
    .replies commandSetInputTensorInfoHandler,
    .replies commandSetOutputTensorInfoHandler,
    .replies commandAllocateTensorHandler,
    .replies commandFreeTensorHandler,
    .replies commandPrepareHandler,
    .invoke,
    .replies commandStopHandler]

/-! ## Methods -/

/-- What the reference parameters of a method hold. -/
inductive References
  | none
  | info (info : Pointer) (size : Int)
  | tensor (tensor : Pointer)
  deriving DecidableEq, Repr

/-- What the caller of a method has in the end; `FreeTensor` returns nothing. -/
structure Outcome where
  value : Option Int
  references : References
  deriving DecidableEq, Repr

structure Method where
  id : Command
  arg : CommandData
  /-- What the caller has when the command that comes back is another one. -/
  mismatch : Outcome
  result : CommandData → Option Outcome

/-- Most methods return the value of the record, and nothing else. -/
def valueMethod (id : Command) (args : Arguments) : Method where
  id := id
  arg := ⟨args, .value 0⟩
  mismatch := ⟨some 0, .none⟩
  result arg := do
    let value ← arg.ret.value?
    return ⟨some value, .none⟩

def configure (options : Pointer) : Method := valueMethod .configure (.ptr options)

def loadModel (model : Pointer) : Method := valueMethod .loadModel (.ptr model)

def setInputTensorInfo (info : Pointer) (size : Int) : Method :=
  valueMethod .setInputTensorInfo (.tensorInfo info size)

def setOutputTensorInfo (info : Pointer) (size : Int) : Method :=
  valueMethod .setOutputTensorInfo (.tensorInfo info size)

def prepare : Method := valueMethod .prepare (.ptr nullptr)

-- `CommandData arg = {}`
def stop : Method := valueMethod .stop (.tensorInfo nullptr 0)

def infoMethod (id : Command) (info : Pointer) (size : Int) : Method where
  id := id
  arg := ⟨.tensorInfo info size, .value 0⟩
  mismatch := ⟨some 0, .info info size⟩
  result arg := do
    let value ← arg.ret.value?
    if value = 0 then
      let (info, size) ← arg.args.tensorInfo?
      return ⟨some value, .info info size⟩
    else return ⟨some value, .info info size⟩

def getInputTensorInfo (info : Pointer) (size : Int) : Method :=
  infoMethod .getInputTensorInfo info size

def getOutputTensorInfo (info : Pointer) (size : Int) : Method :=
  infoMethod .getOutputTensorInfo info size

def allocateTensor (info : Pointer) (size : Int) (tensor : Pointer) : Method where
  id := .allocateTensor
  arg := ⟨.tensorInfo info size, .value 0⟩
  mismatch := ⟨some 0, .tensor tensor⟩
  result arg := do
    let (value, ptr) ← arg.ret.obj?
    if value < 0 then return ⟨some value, .tensor tensor⟩
    else return ⟨some value, .tensor ptr⟩

def freeTensor (tensor : Pointer) (size : Int) : Method where
  id := .freeTensor
  arg := ⟨.tensor tensor size nullptr, .value 0⟩
  mismatch := ⟨none, .tensor tensor⟩
  -- `ret.value` is printed.
  result arg := do
    let _ ← arg.ret.value?
    return ⟨none, .tensor tensor⟩

/-- `Invoke` returns when it has sent its record. -/
def invoke (input : Pointer) (size : Int) (context : Pointer) : Method where
  id := .invoke
  arg := ⟨.tensor input size context, .value 0⟩
  mismatch := ⟨some 0, .none⟩
  result _ := none

/-- A call of a method; `info`, `size` and `tensor` are what the reference parameters hold. -/
inductive Call
  | configure (options : Pointer)
  | loadModel (model : Pointer)
  | getInputTensorInfo (info : Pointer) (size : Int)
  | getOutputTensorInfo (info : Pointer) (size : Int)
  | setInputTensorInfo (info : Pointer) (size : Int)
  | setOutputTensorInfo (info : Pointer) (size : Int)
  | allocateTensor (info : Pointer) (size : Int) (tensor : Pointer)
  | freeTensor (tensor : Pointer) (size : Int)
  | prepare
  | invoke (input : Pointer) (size : Int) (context : Pointer)
  | stop
  deriving DecidableEq, Repr

namespace Call

def method : Call → Method
  | configure options => Commands.configure options
  | loadModel model => Commands.loadModel model
  | getInputTensorInfo info size => Commands.getInputTensorInfo info size
  | getOutputTensorInfo info size => Commands.getOutputTensorInfo info size
  | setInputTensorInfo info size => Commands.setInputTensorInfo info size
  | setOutputTensorInfo info size => Commands.setOutputTensorInfo info size
  | allocateTensor info size tensor => Commands.allocateTensor info size tensor
  | freeTensor tensor size => Commands.freeTensor tensor size
  | prepare => Commands.prepare
  | invoke input size context => Commands.invoke input size context
  | stop => Commands.stop

/-- The method waits until its command comes back. -/
def waits : Call → Bool
  | invoke _ _ _ => false
  | _ => true

end Call

/-! ## The threads -/

/-- A pointer on its way, with the command; the request that it belongs to and the call that made
this request are not part of what is sent. -/
structure Message where
  id : Int
  data : Nat
  request : Nat
  call : Call
  deriving DecidableEq, Repr

/-- A message to the application, with what the module answered. -/
structure Response extends Message where
  answer : Answer
  deriving DecidableEq, Repr

inductive Application
  | idle
  /-- A method is blocked in `Recv`; its `arg` is at `data`. -/
  | waiting (call : Call) (data : Nat) (request : Nat)
  deriving DecidableEq, Repr

/-- The worker, in `Main`. -/
inductive Worker
  | idle
  | received (message : Message)
  /-- In a handler, behind the call of the module. -/
  | answered (response : Response)
  /-- In `CommandInvokeHandler`, behind `Invoke` of the module. -/
  | fetching (message : Message)
  deriving DecidableEq, Repr

/-- A method that has returned: its call and request, the request whose reply it took, what the
module had answered to that one, and what the caller has. -/
structure Completion where
  call : Call
  request : Nat
  reply : Nat
  answer : Answer
  outcome : Outcome
  deriving DecidableEq, Repr

structure State where
  application : Application
  memory : Nat → Option CommandData
  commands : List Message
  worker : Worker
  replies : List Response
  /-- The calls of the application. -/
  made : List Call
  /-- The calls that the worker is done with, and whether they got to the module. -/
  served : List (Call × Bool)
  /-- What the module has seen. -/
  seen : List Request
  completed : List Completion

inductive Act
  /-- A method up to its `Send`, with its record at `data`; for `Invoke` there may be no memory. -/
  | call (call : Call) (data : Option Nat)
  | receive
  /-- The handler; `allocated` is about the `EventData` of `Invoke`. -/
  | handle (answer : Answer) (allocated : Bool)
  /-- `GetOutput` of the module, in the handler of `Invoke`. -/
  | fetch
  /-- The handler sends its record back. -/
  | send
  /-- A method from its `Recv` on. -/
  | recv
  deriving DecidableEq, Repr

/-- The message of a new request. -/
def State.next (s : State) (call : Call) (data : Nat) : Message :=
  ⟨call.method.id.value, data, s.made.length, call⟩

/-- Behind the `Send` of a method. -/
def State.sent (s : State) (call : Call) (data : Nat) : State :=
  { s with
    memory := Function.update s.memory data (some call.method.arg)
    commands := s.commands ++ [s.next call data]
    application := if call.waits then .waiting call data s.made.length else .idle
    made := s.made ++ [call] }

def call (s : State) (call : Call) (data : Option Nat) : Option State :=
  match s.application, data with
  | .waiting _ _ _, _ => none
  -- `-ENOMEM`
  | .idle, none => if call.waits then none else some s
  | .idle, some data =>
      -- A new record is not where another one still is.
      if (s.memory data).isSome then none
      else some (s.sent call data)

/-- `Main` up to the call of the handler. -/
def receive (s : State) : Option State :=
  match s.worker, s.commands with
  | .idle, message :: rest =>
      if message.id < 0 ∨ message.id ≥ Command.last then some { s with commands := rest }
      else some { s with commands := rest, worker := .received message }
  | _, _ => none

def Handler.run (handler : Handler) (s : State) (message : Message) (arg : CommandData)
    (answer : Answer) : Option State := do
  let request ← handler.request arg.args
  return { s with
    memory := Function.update s.memory message.data (some (handler.finish arg answer))
    worker := .answered ⟨{ message with id := handler.id.value }, answer⟩
    served := s.served ++ [(message.call, true)]
    seen := s.seen ++ [request] }

def commandInvokeHandler (s : State) (message : Message) (arg : CommandData) (allocated : Bool) :
    Option State :=
  -- `-ENOMEM`: nobody is told.
  if allocated = false then
    some { s with worker := .idle, served := s.served ++ [(message.call, false)] }
  else do
    let (input, size, context) ← arg.args.tensor?
    return { s with
      worker := .fetching message
      served := s.served ++ [(message.call, true)]
      seen := s.seen ++ [.invoke input size context] }

def handle (s : State) (answer : Answer) (allocated : Bool) : Option State :=
  match s.worker with
  | .received message =>
      match cmdTable[message.id.toNat]?, s.memory message.data with
      | some (.replies handler), some arg => handler.run s message arg answer
      | some .invoke, some arg => commandInvokeHandler s message arg allocated
      | _, _ => none
  | _ => none

/-- The record goes to the output queue. -/
def fetch (s : State) : Option State :=
  match s.worker with
  | .fetching _ => some { s with worker := .idle, seen := s.seen ++ [.getOutput] }
  | _ => none

def send (s : State) : Option State :=
  match s.worker with
  | .answered response =>
      some { s with worker := .idle, replies := s.replies ++ [response] }
  | _ => none

/-- `Recv`, the test of `cmdId` and what follows; the record of the method ends with it. -/
def recv (s : State) : Option State :=
  match s.application, s.replies with
  | .waiting call data request, response :: rest => do
      let outcome ←
        if response.id ≠ call.method.id.value then some call.method.mismatch
        -- The record is the one that `cmdData` points to, without the assertion.
        else (s.memory response.data).bind call.method.result
      return { s with
        application := .idle
        memory := Function.update s.memory data none
        replies := rest
        completed := s.completed ++ [⟨call, request, response.request, response.answer, outcome⟩] }
  | _, _ => none

def step (s : State) : Act → Option State
  | .call c data => call s c data
  | .receive => receive s
  | .handle answer allocated => handle s answer allocated
  | .fetch => fetch s
  | .send => send s
  | .recv => recv s

def State.start : State :=
  { application := .idle, memory := fun _ => none, commands := [], worker := .idle, replies := []
    made := [], served := [], seen := [], completed := [] }

/-! ## The module called directly -/

namespace Call

/-- What the module gets when the method is its own. -/
def request : Call → Request
  | configure options => .configure options
  | loadModel model => .loadModel model
  | getInputTensorInfo _ _ => .getInputTensorInfo
  | getOutputTensorInfo _ _ => .getOutputTensorInfo
  | setInputTensorInfo info size => .setInputTensorInfo info size
  | setOutputTensorInfo info size => .setOutputTensorInfo info size
  | allocateTensor info size _ => .allocateTensor info size
  | freeTensor tensor size => .freeTensor tensor size
  | prepare => .prepare
  | invoke input size context => .invoke input size context
  | stop => .stop

/-- What the caller has then; a parameter that is left unset holds what it held before. -/
def direct (call : Call) (reply : Reply) : Outcome :=
  match call with
  | getInputTensorInfo info size | getOutputTensorInfo info size =>
      ⟨some reply.value, .info (reply.info.getD info) (reply.size.getD size)⟩
  | allocateTensor _ _ tensor => ⟨some reply.value, .tensor (reply.tensor.getD tensor)⟩
  | freeTensor tensor _ => ⟨none, .tensor (reply.tensor.getD tensor)⟩
  | _ => ⟨some reply.value, .none⟩

end Call

variable {α : Type*}

/-- The module sets the parameter, or it was handed what the application has. -/
def Gives (written : Option α) (handed old : α) : Prop := written = none → handed = old

/-- The module leaves the parameter as it was. -/
def Leaves (written : Option α) (old : α) : Prop := ∀ v, written = some v → v = old

/-- Whether the parameters that the module sets are those that the method copies. -/
def Call.Faithful (call : Call) (answer : Answer) : Prop :=
  match call with
  | getInputTensorInfo info size =>
      if answer.reply.value = 0 then
        Gives answer.reply.info nullptr info ∧ Gives answer.reply.size 0 size
      else Leaves answer.reply.info info ∧ Leaves answer.reply.size size
  | getOutputTensorInfo info size =>
      if answer.reply.value = 0 then
        Gives answer.reply.info answer.locals.info info ∧
          Gives answer.reply.size answer.locals.size size
      else Leaves answer.reply.info info ∧ Leaves answer.reply.size size
  | allocateTensor _ _ tensor =>
      if answer.reply.value < 0 then Leaves answer.reply.tensor tensor
      else Gives answer.reply.tensor nullptr tensor
  | freeTensor tensor _ => Leaves answer.reply.tensor tensor
  | _ => True

namespace State

/-- In the worker's hand before its handler, then in the socket. -/
def pending (s : State) : List Message :=
  (match s.worker with
    | .received message => [message]
    | _ => []) ++ s.commands

/-- The module has seen, in order and with their arguments, the calls of the application that are not
pending; an `Invoke` for which there was no memory is missing, and the `GetOutput`s are added. -/
structure SameCalls (s : State) : Prop where
  made : s.served.map Prod.fst ++ s.pending.map Message.call = s.made
  seen : s.seen.filter (· ≠ .getOutput) = (s.served.filter Prod.snd).map fun x => x.1.request
  invokes : ∀ x ∈ s.served, x.2 = false → x.1.waits = false

/-- The calls that wait return one after the other, each with the reply of its own request. -/
structure OwnReplies (s : State) : Prop where
  order : s.completed.map Completion.call ++
    (match s.application with
      | .idle => []
      | .waiting call _ _ => [call]) = s.made.filter Call.waits
  own : ∀ c ∈ s.completed, c.reply = c.request

def SameResults (s : State) : Prop :=
  ∀ c ∈ s.completed, c.outcome = c.call.direct c.answer.reply

def Faithful (s : State) : Prop := ∀ c ∈ s.completed, c.call.Faithful c.answer

end State

/-- The module answers as `module` says, and the application makes no other call. -/
def Follows (module : List Request → Answer) (s : State) : Act → Prop
  | .call _ _ => False
  | .handle answer _ => answer = module s.seen
  | _ => True

/-- A call that waits returns, whatever the module answers. -/
def State.Returns (s : State) : Prop :=
  s.application ≠ .idle → ∀ module : List Request → Answer, ∃ as t,
    Run.exec step s as = some t ∧ Run.Along step (Follows module) s as ∧ t.application = .idle

/-! ## One call -/

theorem getD_eq_getD {o : Option α} {a b : α} : o.getD a = o.getD b ↔ Gives o a b := by
  cases o with
  | none => simp [Gives]
  | some v => simp [Gives]

theorem eq_getD {o : Option α} {a : α} : a = o.getD a ↔ Leaves o a := by
  cases o with
  | none => simp [Leaves]
  | some v => simp [Leaves, eq_comm]

/-- Where `record` is what comes back, the method returns, and the caller has what the module would
have given it exactly where the module is faithful to the use that is made of the record. -/
def Copies (call : Call) (answer : Answer) (record : Option CommandData) : Prop :=
  ∃ outcome, record.bind call.method.result = some outcome ∧
    (outcome = call.direct answer.reply ↔ call.Faithful answer)

theorem info_result (id : Command) (info : Pointer) (size : Int) (request : Request)
    (initial : Locals → Locals) (arg : CommandData) (answer : Answer) :
    ∃ outcome, (infoMethod id info size).result
        ((infoHandler id request initial).finish arg answer) = some outcome ∧
      (outcome = ⟨some answer.reply.value,
          .info (answer.reply.info.getD info) (answer.reply.size.getD size)⟩ ↔
        if answer.reply.value = 0 then
          Gives answer.reply.info (initial answer.locals).info info ∧
            Gives answer.reply.size (initial answer.locals).size size
        else Leaves answer.reply.info info ∧ Leaves answer.reply.size size) := by
  by_cases hvalue : answer.reply.value = 0
  · refine ⟨_, by simp [infoMethod, infoHandler, Return.value?, Arguments.tensorInfo?, hvalue]; rfl, ?_⟩
    simp [hvalue, getD_eq_getD]
  · refine ⟨_, by simp [infoMethod, infoHandler, Return.value?, hvalue]; rfl, ?_⟩
    simp [hvalue, eq_getD]

theorem allocateTensor_result (info : Pointer) (size : Int) (tensor : Pointer) (answer : Answer) :
    Copies (.allocateTensor info size tensor) answer
      (some (commandAllocateTensorHandler.finish ⟨.tensorInfo info size, .value 0⟩ answer)) := by
  by_cases hvalue : answer.reply.value < 0
  · refine ⟨⟨some answer.reply.value, .tensor tensor⟩, ?_, ?_⟩
    · simp [commandAllocateTensorHandler, Call.method, allocateTensor, Return.obj?, hvalue]
    · simp [Call.direct, Call.Faithful, hvalue, eq_getD]
  · refine ⟨⟨some answer.reply.value, .tensor (answer.reply.tensor.getD nullptr)⟩, ?_, ?_⟩
    · simp [commandAllocateTensorHandler, Call.method, allocateTensor, Return.obj?, hvalue]
    · simp [Call.direct, Call.Faithful, hvalue, getD_eq_getD]

theorem cmdTable_waits {c : Call} (hc : c.waits = true) :
    ∃ handler, cmdTable[c.method.id.value.toNat]? = some (.replies handler) ∧
      handler.id = c.method.id ∧ handler.request c.method.arg.args = some c.request ∧
      ∀ answer, Copies c answer (some (handler.finish c.method.arg answer)) := by
  cases c with
  | getInputTensorInfo info size =>
      exact ⟨_, rfl, rfl, rfl, info_result _ info size _ _ _⟩
  | getOutputTensorInfo info size =>
      exact ⟨_, rfl, rfl, rfl, info_result _ info size _ _ _⟩
  | allocateTensor info size tensor =>
      exact ⟨_, rfl, rfl, rfl, allocateTensor_result info size tensor⟩
  | freeTensor tensor size =>
      -- Nothing is copied, whatever the module has done to the record.
      refine ⟨_, rfl, rfl, rfl, fun answer => ⟨⟨none, .tensor tensor⟩, rfl, ?_⟩⟩
      simp [Call.direct, Call.Faithful, eq_getD]
  | invoke input size context => cases hc
  | _ => exact ⟨_, rfl, rfl, rfl, fun _ => ⟨_, rfl, by simp [Call.direct, Call.Faithful]⟩⟩

theorem cmdTable_invoke {c : Call} (hc : c.waits = false) :
    cmdTable[c.method.id.value.toNat]? = some .invoke ∧
      ∃ input size context, c.method.arg.args = .tensor input size context ∧
        c.request = .invoke input size context := by
  cases c with
  | invoke input size context => exact ⟨rfl, input, size, context, rfl, rfl⟩
  | _ => cases hc

theorem Command.value_valid (c : Command) : ¬ (c.value < 0 ∨ c.value ≥ Command.last) := by
  cases c with
  | _ => decide

theorem Call.request_ne_getOutput (c : Call) : c.request ≠ .getOutput := by
  cases c with
  | _ => exact Request.noConfusion

/-! ## The invariant -/

namespace Worker

def message : Worker → List Message
  | received message => [message]
  | answered response => [response.toMessage]
  | _ => []

def response : Worker → List Response
  | answered response => [response]
  | _ => []

end Worker

def Application.awaited : Application → List Message
  | idle => []
  | waiting call data request => [⟨call.method.id.value, data, request, call⟩]

namespace State

/-- What is between `Send` and `Recv`, from the reply that comes first to the last command. -/
def inFlight (s : State) : List Message :=
  s.replies.map Response.toMessage ++ s.worker.message ++ s.commands

def responses (s : State) : List Response := s.replies ++ s.worker.response

structure Invariant (s : State) : Prop where
  same : s.SameCalls
  own : s.OwnReplies
  results : ∀ c ∈ s.completed, (c.outcome = c.call.direct c.answer.reply ↔ c.call.Faithful c.answer)
  owned : Owned (fun _ : Unit => s.inFlight.map Message.data) s.memory
  ids : ∀ m ∈ s.inFlight, m.id = m.call.method.id.value
  /-- A record in a command is as the method has filled it. -/
  commands : ∀ m ∈ s.pending, s.memory m.data = some m.call.method.arg
  responses : ∀ r ∈ s.responses, Copies r.call r.answer (s.memory r.data)
  replies : ∀ r ∈ s.responses, r.call.waits = true
  awaited : s.inFlight.filter (·.call.waits) = s.application.awaited

end State

namespace State.Invariant

variable {s t : State}

theorem start : State.start.Invariant where
  same := ⟨rfl, rfl, by simp [State.start]⟩
  own := ⟨rfl, by simp [State.start]⟩
  results := by simp [State.start]
  owned := ⟨by simp [State.start, State.inFlight, Worker.message], by
    simp [State.start, State.inFlight, Worker.message], by
    simp [State.start, State.inFlight, Worker.message]⟩
  ids := by simp [State.start, State.inFlight, Worker.message]
  commands := by simp [State.start, State.pending]
  responses := by simp [State.start, State.responses, Worker.response]
  replies := by simp [State.start, State.responses, Worker.response]
  awaited := rfl

theorem mem_inFlight_of_pending {m : Message} (hm : m ∈ s.pending) : m ∈ s.inFlight := by
  cases hworker : s.worker with
  | received message =>
      have hm' : m = message ∨ m ∈ s.commands := by simpa [State.pending, hworker] using hm
      simp [State.inFlight, Worker.message, hworker, hm']
  | _ =>
      have hm' : m ∈ s.commands := by simpa [State.pending, hworker] using hm
      simp [State.inFlight, hm']

theorem mem_inFlight_of_response {r : Response} (hr : r ∈ s.responses) :
    r.toMessage ∈ s.inFlight := by
  rcases List.mem_append.1 hr with hr | hr
  · exact List.mem_append_left _ (List.mem_append_left _ (List.mem_map_of_mem hr))
  · cases hworker : s.worker with
    | answered response =>
        have hr' : r = response := by simpa [Worker.response, hworker] using hr
        simp [State.inFlight, Worker.message, hworker, hr']
    | _ => simp [Worker.response, hworker] at hr

/-- A new record at `data` is none of those in flight. -/
theorem ne_of_fresh (h : s.Invariant) {data : Nat} (hdata : s.memory data = none) {m : Message}
    (hm : m ∈ s.inFlight) : m.data ≠ data := fun heq =>
  h.owned.not_mem_of_fresh hdata () (heq ▸ List.mem_map_of_mem hm)

theorem sent (h : s.Invariant) {c : Call} {data : Nat} (hidle : s.application = .idle)
    (hdata : s.memory data = none) : (s.sent c data).Invariant := by
  have hinFlight : (s.sent c data).inFlight = s.inFlight ++ [s.next c data] := by
    simp [State.inFlight, State.sent]
  have hpending : (s.sent c data).pending = s.pending ++ [s.next c data] := by
    simp [State.pending, State.sent]
  have hframe : ∀ m ∈ s.inFlight, (s.sent c data).memory m.data = s.memory m.data := fun m hm =>
    Function.update_of_ne (h.ne_of_fresh hdata hm) _ _
  refine ⟨⟨?_, h.same.seen, h.same.invokes⟩, ⟨?_, h.own.own⟩, h.results, ?_, ?_, ?_, ?_, h.replies,
    ?_⟩
  · calc s.served.map Prod.fst ++ (s.sent c data).pending.map Message.call
        = s.served.map Prod.fst ++ s.pending.map Message.call ++ [c] := by
          simp [hpending, State.next]
      _ = s.made ++ [c] := by rw [h.same.made]
  · have horder := h.own.order
    cases hwaits : c.waits with
    | false => simpa [State.sent, hidle, hwaits] using horder
    | true => simpa [State.sent, hidle, hwaits] using horder
  · refine (h.owned.alloc hdata () c.method.arg).mono fun _ => ?_
    simp [hinFlight, State.next]
  · intro m hm
    rw [hinFlight, List.mem_append, List.mem_singleton] at hm
    rcases hm with hm | rfl
    · exact h.ids m hm
    · rfl
  · intro m hm
    rw [hpending, List.mem_append, List.mem_singleton] at hm
    rcases hm with hm | rfl
    · rw [hframe m (mem_inFlight_of_pending hm)]
      exact h.commands m hm
    · exact Function.update_self _ _ _
  · intro r hr
    have hr' : r ∈ s.responses := hr
    rw [hframe r.toMessage (mem_inFlight_of_response hr')]
    exact h.responses r hr'
  · rw [hinFlight, List.filter_append, h.awaited, hidle]
    cases hwaits : c.waits with
    | false => simp [State.sent, State.next, Application.awaited, hwaits]
    | true => simp [State.sent, State.next, Application.awaited, hwaits]

theorem call {c : Call} {data : Option Nat} (h : s.Invariant)
    (hstep : Commands.call s c data = some t) : t.Invariant := by
  unfold Commands.call at hstep
  split at hstep
  · cases hstep
  · split at hstep
    · cases hstep
    · cases hstep
      exact h
  · rename_i data hidle
    split at hstep
    · cases hstep
    · rename_i hfresh
      cases hstep
      exact h.sent hidle (by simpa using hfresh)

/-- Steps that only hand something on. -/
theorem moved (h : s.Invariant) {commands : List Message} {worker : Worker}
    {replies : List Response} {seen : List Request}
    (ht : t = { s with commands := commands, worker := worker, replies := replies, seen := seen })
    (hinFlight : t.inFlight = s.inFlight) (hpending : t.pending = s.pending)
    (hresponses : t.responses = s.responses)
    (hseen : seen.filter (· ≠ .getOutput) = s.seen.filter (· ≠ .getOutput)) : t.Invariant := by
  subst ht
  exact
    { same := ⟨hpending ▸ h.same.made, hseen.trans h.same.seen, h.same.invokes⟩
      own := ⟨h.own.order, h.own.own⟩
      results := h.results
      owned := hinFlight ▸ h.owned
      ids := hinFlight ▸ h.ids
      commands := hpending ▸ h.commands
      responses := hresponses ▸ h.responses
      replies := hresponses ▸ h.replies
      awaited := hinFlight ▸ h.awaited }

/-- No command is dropped for its number. -/
theorem receive_eq (h : s.Invariant) {message : Message} {rest : List Message}
    (hworker : s.worker = .idle) (hcommands : s.commands = message :: rest) :
    Commands.receive s = some { s with commands := rest, worker := .received message } := by
  have hid : message.id = message.call.method.id.value :=
    h.ids message (by simp [State.inFlight, hcommands])
  simp only [Commands.receive, hworker, hcommands]
  rw [if_neg (hid ▸ Command.value_valid _)]

theorem receive (h : s.Invariant) (hstep : Commands.receive s = some t) : t.Invariant := by
  cases hcommands : s.commands with
  | nil => simp [Commands.receive, hcommands] at hstep
  | cons message rest =>
      cases hworker : s.worker with
      | idle =>
          rw [h.receive_eq hworker hcommands] at hstep
          apply h.moved (Option.some.inj hstep).symm
          · simp [← Option.some.inj hstep, State.inFlight, Worker.message, hworker, hcommands]
          · simp [← Option.some.inj hstep, State.pending, hworker, hcommands]
          · simp [← Option.some.inj hstep, State.responses, Worker.response, hworker]
          · rfl
      | _ => simp [Commands.receive, hworker] at hstep

theorem fetch (h : s.Invariant) (hstep : Commands.fetch s = some t) : t.Invariant := by
  unfold Commands.fetch at hstep
  split at hstep
  · rename_i message hworker
    apply h.moved (Option.some.inj hstep).symm
    · simp [← Option.some.inj hstep, State.inFlight, Worker.message, hworker]
    · simp [← Option.some.inj hstep, State.pending, hworker]
    · simp [← Option.some.inj hstep, State.responses, Worker.response, hworker]
    · simp
  · cases hstep

theorem send (h : s.Invariant) (hstep : Commands.send s = some t) : t.Invariant := by
  unfold Commands.send at hstep
  split at hstep
  · rename_i response hworker
    apply h.moved (Option.some.inj hstep).symm
    · simp [← Option.some.inj hstep, State.inFlight, Worker.message, hworker]
    · simp [← Option.some.inj hstep, State.pending, hworker]
    · simp [← Option.some.inj hstep, State.responses, Worker.response, hworker]
    · rfl
  · cases hstep

section Received

variable {message : Message}

theorem made_received (h : s.Invariant) (hworker : s.worker = .received message) (b : Bool) :
    (s.served ++ [(message.call, b)]).map Prod.fst ++ s.commands.map Message.call = s.made := by
  have hmade := h.same.made
  simpa [State.pending, hworker] using hmade

theorem seen_append (h : s.Invariant) (c : Call) :
    (s.seen ++ [c.request]).filter (· ≠ .getOutput) =
      ((s.served ++ [(c, true)]).filter Prod.snd).map fun x => x.1.request := by
  rw [List.filter_append, h.same.seen]
  simp [c.request_ne_getOutput]

theorem invokes_append (h : s.Invariant) {c : Call} {b : Bool} (hc : b = false → c.waits = false) :
    ∀ x ∈ s.served ++ [(c, b)], x.2 = false → x.1.waits = false := by
  intro x hx hfalse
  rcases List.mem_append.1 hx with hx | hx
  · exact h.same.invokes x hx hfalse
  · rw [List.mem_singleton.1 hx] at hfalse ⊢
    exact hc hfalse

theorem carried_received (h : s.Invariant) (hworker : s.worker = .received message) :
    message.id = message.call.method.id.value ∧
      s.memory message.data = some message.call.method.arg :=
  ⟨h.ids message (by simp [State.inFlight, Worker.message, hworker]),
    h.commands message (by simp [State.pending, hworker])⟩

/-- The record of the message in hand is that of no other one. -/
theorem ne_received (h : s.Invariant) (hworker : s.worker = .received message) :
    (∀ m ∈ s.commands, m.data ≠ message.data) ∧ ∀ r ∈ s.replies, r.data ≠ message.data := by
  have hnodup := h.owned.nodup ()
  simp only [State.inFlight, Worker.message, hworker, List.map_append, List.map_cons,
    List.map_nil, List.nodup_append, List.mem_append, List.mem_singleton] at hnodup
  rcases hnodup with ⟨⟨-, -, hreplies⟩, -, hcommands⟩
  constructor
  · intro m hm
    exact Ne.symm (hcommands _ (.inr rfl) _ (List.mem_map_of_mem hm))
  · intro r hr
    exact hreplies r.data (by simpa using ⟨r, hr, rfl⟩) _ rfl

/-- The handler of a method that waits sends the message back that it has got. -/
theorem handle_waits (h : s.Invariant) (hworker : s.worker = .received message)
    (hwaits : message.call.waits = true) (answer : Answer) (allocated : Bool) :
    ∃ record, Copies message.call answer (some record) ∧
      Commands.handle s answer allocated = some { s with
        memory := Function.update s.memory message.data (some record)
        worker := .answered ⟨message, answer⟩
        served := s.served ++ [(message.call, true)]
        seen := s.seen ++ [message.call.request] } := by
  rcases h.carried_received hworker with ⟨hid, hrecord⟩
  rcases cmdTable_waits hwaits with ⟨handler, htable, hhandler, hrequest, hcopies⟩
  refine ⟨handler.finish message.call.method.arg answer, hcopies answer, ?_⟩
  rcases message with ⟨id, data, request, call⟩
  obtain rfl : id = call.method.id.value := hid
  simp [Commands.handle, hworker, hrecord, htable, Handler.run, hrequest, hhandler]

theorem answered (h : s.Invariant) (hworker : s.worker = .received message)
    (hwaits : message.call.waits = true) {answer : Answer} {record : CommandData}
    (hcopies : Copies message.call answer (some record))
    (ht : t = { s with
      memory := Function.update s.memory message.data (some record)
      worker := .answered ⟨message, answer⟩
      served := s.served ++ [(message.call, true)]
      seen := s.seen ++ [message.call.request] }) : t.Invariant := by
  have hne := h.ne_received hworker
  have hinFlight : t.inFlight = s.inFlight := by
    simp [ht, State.inFlight, Worker.message, hworker]
  have hpending : t.pending = s.commands := by simp [ht, State.pending]
  have hresponses : t.responses = s.replies ++ [⟨message, answer⟩] := by
    simp [ht, State.responses, Worker.response]
  have hserved := h.made_received hworker true
  subst ht
  refine ⟨⟨hpending ▸ hserved, ?_, ?_⟩, ⟨h.own.order, h.own.own⟩, h.results, ?_, hinFlight ▸ h.ids,
    ?_, ?_, ?_, hinFlight ▸ h.awaited⟩
  · exact h.seen_append message.call
  · exact h.invokes_append fun hfalse => Bool.noConfusion hfalse
  · rw [hinFlight]
    exact h.owned.store _ _
  · intro m hm
    rw [hpending] at hm
    have hold := h.commands m (by simp [State.pending, hm])
    rwa [← Function.update_of_ne (hne.1 m hm) _ s.memory] at hold
  · intro r hr
    rw [hresponses, List.mem_append, List.mem_singleton] at hr
    rcases hr with hr | rfl
    · have hold := h.responses r (List.mem_append_left _ hr)
      rwa [← Function.update_of_ne (hne.2 r hr) _ s.memory] at hold
    · simpa using hcopies
  · intro r hr
    rw [hresponses, List.mem_append, List.mem_singleton] at hr
    rcases hr with hr | rfl
    · exact h.replies r (List.mem_append_left _ hr)
    · exact hwaits

/-- Nobody answers the message of an `Invoke`, and the application does not wait for it. -/
theorem withdrawn (h : s.Invariant) (hworker : s.worker = .received message)
    (hwaits : message.call.waits = false) {worker : Worker} {b : Bool} {seen : List Request}
    (ht : t = { s with
      worker := worker, served := s.served ++ [(message.call, b)], seen := seen })
    (hmessage : worker.message = []) (hresponse : worker.response = [])
    (hpending : t.pending = s.commands)
    (hseen : seen.filter (· ≠ .getOutput) =
      ((s.served ++ [(message.call, b)]).filter Prod.snd).map fun x => x.1.request) :
    t.Invariant := by
  have hheld : s.worker.message = [message] := by rw [hworker]; rfl
  have hinFlight : t.inFlight = s.replies.map Response.toMessage ++ s.commands := by
    simp [ht, State.inFlight, hmessage]
  have hsublist : t.inFlight.Sublist s.inFlight := by
    rw [hinFlight]
    simp [State.inFlight, hheld]
  have hresponses : t.responses = s.responses := by
    have hnone : s.worker.response = [] := by rw [hworker]; rfl
    simp [ht, State.responses, hnone, hresponse]
  have hmade := h.made_received hworker b
  rw [← hpending] at hmade
  have hcommands : ∀ m ∈ t.pending, s.memory m.data = some m.call.method.arg := by
    intro m hm
    rw [hpending] at hm
    exact h.commands m (by simp [State.pending, hm])
  have hawaited : t.inFlight.filter (·.call.waits) = s.application.awaited := by
    rw [← h.awaited, hinFlight]
    simp [State.inFlight, hheld, hwaits]
  subst ht
  exact
    { same := ⟨hmade, hseen, h.invokes_append fun _ => hwaits⟩
      own := ⟨h.own.order, h.own.own⟩
      results := h.results
      owned := h.owned.mono fun _ => hsublist.map _
      ids := fun m hm => h.ids m (hsublist.mem hm)
      commands := hcommands
      responses := fun r hr => h.responses r (hresponses ▸ hr)
      replies := fun r hr => h.replies r (hresponses ▸ hr)
      awaited := hawaited }

theorem handle_invoke (h : s.Invariant) (hworker : s.worker = .received message)
    (hwaits : message.call.waits = false) (answer : Answer) (allocated : Bool) :
    Commands.handle s answer allocated = some { s with
      worker := if allocated then .fetching message else .idle
      served := s.served ++ [(message.call, allocated)]
      seen := if allocated then s.seen ++ [message.call.request] else s.seen } := by
  rcases h.carried_received hworker with ⟨hid, hrecord⟩
  rcases cmdTable_invoke hwaits with ⟨htable, input, size, context, hargs, hrequest⟩
  rw [← hid] at htable
  cases allocated with
  | false => simp [Commands.handle, hworker, hrecord, htable, commandInvokeHandler]
  | true =>
      simp [Commands.handle, hworker, hrecord, htable, commandInvokeHandler, hargs, hrequest,
        Arguments.tensor?]

theorem handle {answer : Answer} {allocated : Bool} (h : s.Invariant)
    (hstep : Commands.handle s answer allocated = some t) : t.Invariant := by
  cases hworker : s.worker with
  | received message =>
      cases hwaits : message.call.waits with
      | true =>
          rcases h.handle_waits hworker hwaits answer allocated with ⟨record, hcopies, heq⟩
          exact h.answered hworker hwaits hcopies (Option.some.inj (hstep.symm.trans heq))
      | false =>
          have heq := h.handle_invoke hworker hwaits answer allocated
          have ht := Option.some.inj (hstep.symm.trans heq)
          cases allocated with
          | false =>
              apply h.withdrawn hworker hwaits ht rfl rfl
              · simp [ht, State.pending]
              · simpa using h.same.seen
          | true =>
              apply h.withdrawn hworker hwaits ht rfl rfl
              · simp [ht, State.pending]
              · exact h.seen_append message.call
  | _ => simp [Commands.handle, hworker] at hstep

end Received

/-- The first reply is that of the request the application waits for. -/
theorem awaited_reply (h : s.Invariant) {call : Call} {data request : Nat} {response : Response}
    {rest : List Response} (happlication : s.application = .waiting call data request)
    (hreplies : s.replies = response :: rest) :
    response.toMessage = ⟨call.method.id.value, data, request, call⟩ ∧
      (rest.map Response.toMessage ++ s.worker.message ++ s.commands).filter (·.call.waits) = [] := by
  have hwaits := h.replies response (by simp [State.responses, hreplies])
  have hawaited := h.awaited
  simpa [State.inFlight, hreplies, happlication, Application.awaited, hwaits] using hawaited

/-- What `Recv` gives a method, and what the method makes of it. -/
theorem recv_eq (h : s.Invariant) {call : Call} {data request : Nat} {response : Response}
    {rest : List Response} (happlication : s.application = .waiting call data request)
    (hreplies : s.replies = response :: rest) :
    ∃ outcome, (outcome = call.direct response.answer.reply ↔ call.Faithful response.answer) ∧
      Commands.recv s = some { s with
        application := .idle
        memory := Function.update s.memory data none
        replies := rest
        completed := s.completed ++ [⟨call, request, request, response.answer, outcome⟩] } := by
  rcases h.awaited_reply happlication hreplies with ⟨hresponse, -⟩
  rcases h.responses response (by simp [State.responses, hreplies]) with ⟨outcome, hcopied, hiff⟩
  rcases response with ⟨message, answer⟩
  cases hresponse
  exact ⟨outcome, hiff, by simp [Commands.recv, happlication, hreplies, hcopied]⟩

theorem returned (h : s.Invariant) {call : Call} {data request : Nat} {response : Response}
    {rest : List Response} (happlication : s.application = .waiting call data request)
    (hreplies : s.replies = response :: rest) {outcome : Outcome}
    (hiff : outcome = call.direct response.answer.reply ↔ call.Faithful response.answer)
    (ht : t = { s with
      application := .idle
      memory := Function.update s.memory data none
      replies := rest
      completed := s.completed ++ [⟨call, request, request, response.answer, outcome⟩] }) :
    t.Invariant := by
  rcases h.awaited_reply happlication hreplies with ⟨hresponse, hrest⟩
  have hdata : response.data = data := congrArg Message.data hresponse
  have hinFlight : s.inFlight = response.toMessage :: t.inFlight := by
    simp [State.inFlight, hreplies, ht]
  have hresponses : s.responses = response :: t.responses := by
    simp [State.responses, hreplies, ht]
  have hpending : t.pending = s.pending := by simp [State.pending, ht]
  -- The record that ends is that of the reply only.
  have hnodup := h.owned.nodup ()
  rw [hinFlight, List.map_cons, List.nodup_cons, hdata] at hnodup
  have hframe : ∀ m ∈ t.inFlight, t.memory m.data = s.memory m.data := by
    intro m hm
    rw [ht]
    refine Function.update_of_ne (fun (heq : m.data = data) => hnodup.1 ?_) _ _
    rw [← heq]
    exact List.mem_map_of_mem hm
  refine ⟨⟨?_, ?_, ?_⟩, ⟨?_, ?_⟩, ?_, ?_, ?_, ?_, ?_, ?_, ?_⟩
  · rw [hpending, ht]
    exact h.same.made
  · rw [ht]
    exact h.same.seen
  · rw [ht]
    exact h.same.invokes
  · have horder := h.own.order
    simpa [ht, happlication] using horder
  · intro c hc
    simp only [ht, List.mem_append, List.mem_singleton] at hc
    rcases hc with hc | rfl
    · exact h.own.own c hc
    · rfl
  · intro c hc
    simp only [ht, List.mem_append, List.mem_singleton] at hc
    rcases hc with hc | rfl
    · exact h.results c hc
    · exact hiff
  · have hfree := h.owned.free (k := ()) (a := data) (by simp [hinFlight, hdata])
    rw [ht] at hinFlight ⊢
    refine hfree.mono fun _ => ?_
    simp [hinFlight, hdata]
  · exact fun m hm => h.ids m (hinFlight ▸ List.mem_cons_of_mem _ hm)
  · intro m hm
    rw [hframe m (mem_inFlight_of_pending hm)]
    exact h.commands m (hpending ▸ hm)
  · intro r hr
    rw [hframe _ (mem_inFlight_of_response hr)]
    exact h.responses r (hresponses ▸ List.mem_cons_of_mem _ hr)
  · exact fun r hr => h.replies r (hresponses ▸ List.mem_cons_of_mem _ hr)
  · rw [ht]
    exact hrest

theorem recv (h : s.Invariant) (hstep : Commands.recv s = some t) : t.Invariant := by
  cases happlication : s.application with
  | idle => simp [Commands.recv, happlication] at hstep
  | waiting call data request =>
      cases hreplies : s.replies with
      | nil => simp [Commands.recv, happlication, hreplies] at hstep
      | cons response rest =>
          rcases h.recv_eq happlication hreplies with ⟨outcome, hiff, heq⟩
          have ht := Option.some.inj (hstep.symm.trans heq)
          exact h.returned happlication hreplies hiff ht

/-- One step, by the action. -/
theorem step {a : Act} (h : s.Invariant) (hstep : Commands.step s a = some t) : t.Invariant := by
  cases a with
  | call c data => exact h.call hstep
  | receive => exact h.receive hstep
  | handle answer allocated => exact h.handle hstep
  | fetch => exact h.fetch hstep
  | send => exact h.send hstep
  | recv => exact h.recv hstep

theorem exec {as : List Act} (h : s.Invariant) (hexec : Run.exec Commands.step s as = some t) :
    t.Invariant :=
  Run.exec_preserved (fun _ _ _ hs hstep => State.Invariant.step hs hstep) h hexec

end State.Invariant

/-! ## Every call returns -/

/-- What the worker has to do before it is idle. -/
def State.remaining (s : State) : Nat :=
  4 * s.commands.length +
    match s.worker with
    | .idle => 0
    | .received _ => 3
    | .answered _ => 1
    | .fetching _ => 1

namespace State.Invariant

variable {s : State}

theorem handle_enabled (h : s.Invariant) {message : Message} (hworker : s.worker = .received message)
    (answer : Answer) : ∃ t, Commands.handle s answer true = some t ∧
      t.application = s.application ∧ t.remaining < s.remaining := by
  cases hwaits : message.call.waits with
  | true =>
      rcases h.handle_waits hworker hwaits answer true with ⟨record, -, heq⟩
      exact ⟨_, heq, rfl, by simp [State.remaining, hworker]⟩
  | false =>
      have heq := h.handle_invoke hworker hwaits answer true
      exact ⟨_, heq, rfl, by simp [State.remaining, hworker]⟩

/-- As long as no reply is there, the worker has something to do that brings it closer. -/
theorem worker_enabled (h : s.Invariant) (hwaiting : s.application ≠ .idle) (hreplies : s.replies = [])
    (module : List Request → Answer) : ∃ a t, Commands.step s a = some t ∧ Follows module s a ∧
      t.application = s.application ∧ t.remaining < s.remaining := by
  cases hworker : s.worker with
  | idle =>
      cases hcommands : s.commands with
      | nil =>
          -- The request would be nowhere.
          have hawaited := h.awaited
          cases happlication : s.application with
          | idle => exact absurd happlication hwaiting
          | waiting call data request =>
              simp [State.inFlight, Worker.message, Application.awaited, hworker, hcommands,
                hreplies, happlication] at hawaited
      | cons message rest =>
          refine ⟨.receive, _, h.receive_eq hworker hcommands, trivial, rfl, ?_⟩
          simp [State.remaining, hworker, hcommands]
          omega
  | received message =>
      rcases h.handle_enabled hworker (module s.seen) with ⟨t, ht, happlication, hless⟩
      exact ⟨.handle (module s.seen) true, t, ht, rfl, happlication, hless⟩
  | answered response =>
      have heq : Commands.send s =
          some { s with worker := .idle, replies := s.replies ++ [response] } := by
        simp [Commands.send, hworker]
      exact ⟨.send, _, heq, trivial, rfl, by simp [State.remaining, hworker]⟩
  | fetching message =>
      have heq : Commands.fetch s =
          some { s with worker := .idle, seen := s.seen ++ [.getOutput] } := by
        simp [Commands.fetch, hworker]
      exact ⟨.fetch, _, heq, trivial, rfl, by simp [State.remaining, hworker]⟩

/-- By induction on what the worker has to do. -/
theorem returns (h : s.Invariant) : s.Returns := by
  intro hwaiting module
  induction hn : s.remaining using Nat.strongRecOn generalizing s with
  | _ n ih =>
    cases hreplies : s.replies with
    | nil =>
        rcases h.worker_enabled hwaiting hreplies module with ⟨a, t, ht, ha, happlication, hless⟩
        rcases ih t.remaining (hn ▸ hless) (h.step ht) (happlication ▸ hwaiting) rfl with
          ⟨as, u, hexec, hfollows, hidle⟩
        exact ⟨a :: as, u, Run.exec_cons_some.2 ⟨t, ht, hexec⟩, Run.along_of_step ha ht hfollows, hidle⟩
    | cons response rest =>
        cases happlication : s.application with
        | idle => exact absurd happlication hwaiting
        | waiting call data request =>
            rcases h.recv_eq happlication hreplies with ⟨outcome, -, heq⟩
            refine ⟨[.recv], _, Run.exec_cons_some.2 ⟨_, heq, rfl⟩, ?_, rfl⟩
            exact Run.along_of_step trivial heq (Run.along_nil _ _)

end State.Invariant

/-! ## The module behind the threads -/

/-- After every run the module has seen the calls of the application, every call that waits returns
with the reply of its own request, and its caller has what the module would have given it exactly where
the module is faithful to the way the record is used. -/
theorem refines_module {as : List Act} {s : State} (hexec : Run.exec step State.start as = some s) :
    s.SameCalls ∧ s.OwnReplies ∧ s.Returns ∧ (s.SameResults ↔ s.Faithful) := by
  have h := State.Invariant.start.exec hexec
  refine ⟨h.same, h.own, h.returns, ?_⟩
  exact forall₂_congr h.results

/-- A call, two `Invoke`s, and a call that waits behind them. -/
def mixedRun : List Act :=
  [.call (.configure 8) (some 100), .receive, .handle ⟨⟨0, none, none, none⟩, ⟨0, 0⟩⟩ true, .send,
    .recv, .call (.invoke 20 1 30) (some 200), .receive, .call (.invoke 21 1 31) (some 201),
    .handle ⟨⟨0, none, none, none⟩, ⟨0, 0⟩⟩ true, .call (.getOutputTensorInfo 5 1) (some 100),
    .fetch, .receive, .handle ⟨⟨0, none, none, none⟩, ⟨0, 0⟩⟩ true, .fetch, .receive,
    .handle ⟨⟨0, some 7, some 2, none⟩, ⟨9, 9⟩⟩ true, .send, .recv]

theorem mixedRun_refines : ∃ s, Run.exec step State.start mixedRun = some s ∧
    (s.SameCalls ∧ s.OwnReplies ∧ s.Returns ∧ (s.SameResults ↔ s.Faithful)) ∧
    s.completed.map Completion.outcome = [⟨some 0, .none⟩, ⟨some 0, .info 7 2⟩] := by
  refine ⟨_, rfl, refines_module (rfl : Run.exec step State.start mixedRun = some _), ?_⟩
  decide

/-- `FreeTensor` of a module that sets the pointer to `nullptr`: the caller keeps the old one. -/
theorem freed_pointer_kept : ∃ s, Run.exec step State.start
      [.call (.freeTensor 7 1) (some 100), .receive,
        .handle ⟨⟨0, none, none, some nullptr⟩, ⟨0, 0⟩⟩ true, .send, .recv] = some s ∧
    ¬ s.SameResults := by
  refine ⟨_, rfl, fun h => ?_⟩
  have hresult := h _ (List.mem_singleton.2 rfl)
  revert hresult
  decide

end Commands
end Runtime
end Beyond
