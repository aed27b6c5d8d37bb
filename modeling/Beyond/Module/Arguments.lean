import Beyond.Base.Getopt
import Beyond.Base.Latest
import Beyond.Base.Scan
import Beyond.Discovery.Network

/-!
# Arguments of the modules

The entry point of each module, and `ParseArguments` of an inference, goes through its arguments with
`getopt_long`.  None of the five tables of long options has an end.
-/

namespace Beyond
namespace Module

open Bytes Getopt

def letter (c : Char) : UInt8 := UInt8.ofNat c.toNat

/-- The functions that have such a loop. -/
inductive Main
  | peer
  | discovery
  | authenticator
  | runtime
  | inference
  deriving DecidableEq, Repr

/-- An option with a letter and a name. -/
def both (c : Char) (name : String) (hasArg : Bool) : (UInt8 × Bool) × LongOption :=
  ((letter c, hasArg), ⟨ascii name, hasArg, letter c⟩)

def Main.options : Main → List ((UInt8 × Bool) × LongOption)
  | .peer =>
      [both 's' "server" false, both 'p' "path" true, both 'f' "framework" true,
        both 'a' "acceleration" true]
  | .discovery =>
      [both 's' "server" false, both 'c' "client" false, both 'n' "name" true, both 'p' "port" true]
  | .authenticator => [both 'h' "help" false, both 'a' "async" false]
  | .runtime =>
      [both 'c' "cpu" false, both 'g' "gpu" false, both 'n' "npu" false, both 'd' "dsp" false]
  | .inference => [both 's' "split" false]

def Main.spec (m : Main) : Spec := ⟨m.options.map Prod.fst, m.options.map Prod.snd⟩

/-- What the loop gets; the first argument is the name of the module, or the mode of the inference. -/
def Main.items (m : Main) (argv : List Bytes) : Option (List Item) := scan m.spec argv.tail

/-! ## The switches -/

/-- `optarg` of an option. -/
def optarg (c : Char) : Item → Option Bytes
  | .option val arg => if val = letter c then arg else none
  | _ => none

def isOption (c : Char) : Item → Bool
  | .option val _ => val = letter c
  | _ => false

/-- What `Peer::Create` is given. -/
structure PeerOptions where
  isServer : Bool
  framework : Option Bytes
  accel : Option Bytes
  storagePath : Option Bytes
  deriving DecidableEq, Repr

/-- `dup_opt`. -/
def dupOpt (dst arg : Option Bytes) : Option Bytes := arg.or dst

def PeerOptions.apply (o : PeerOptions) : Item → PeerOptions
  | .option val arg =>
      if val = letter 's' then { o with isServer := true }
      else if val = letter 'p' then { o with storagePath := dupOpt o.storagePath arg }
      else if val = letter 'f' then { o with framework := dupOpt o.framework arg }
      else if val = letter 'a' then { o with accel := dupOpt o.accel arg }
      else o
  | _ => o

def peerMain (argv : List Bytes) : Option PeerOptions :=
  (Main.peer.items argv).map fun items => items.foldl PeerOptions.apply ⟨false, none, none, none⟩

/-- `strtol`, which stays at the ends of a `long`. -/
def strtol (text : Bytes) : Int :=
  max (-2 ^ 63) (min (((scanInt text).map Prod.fst).getD 0) (2 ^ 63 - 1))

/-- `atoi`: the `int` of what `strtol` gives. -/
def atoi (text : Bytes) : Int := (strtol text).bmod (2 ^ 32)

structure DiscoveryOptions where
  isServer : Bool
  name : Bytes
  port : UInt16
  deriving DecidableEq, Repr

def DiscoveryOptions.apply (o : DiscoveryOptions) : Item → DiscoveryOptions
  | .option val arg =>
      if val = letter 's' then { o with isServer := true }
      else if val = letter 'c' then { o with isServer := false }
      else if val = letter 'n' then { o with name := arg.getD o.name }
      else if val = letter 'p' then
        { o with port := (arg.map fun arg => UInt16.ofInt (atoi arg)).getD o.port }
      else o
  | _ => o

/-- A server or, as `none`, a client. -/
def discoveryMain (argv : List Bytes) : Option (Option Discovery.Network.Server) :=
  (Main.discovery.items argv).map fun items =>
    let o := items.foldl DiscoveryOptions.apply ⟨false, ascii "BeyonD", 3000⟩
    if o.isServer then some (.create o.name o.port) else none

/-- `enableAsync`. -/
def authenticatorMain (argv : List Bytes) : Option Bool :=
  (Main.authenticator.items argv).map fun items =>
    items.foldl (fun enableAsync item => if isOption 'a' item then true else enableAsync) false

inductive Mode
  | «local»
  | remote
  deriving DecidableEq, Repr

def Mode.name : Mode → Bytes
  | .local => ascii "local"
  | .remote => ascii "remote"

/-- `Inference::impl::Create` up to the creation of the instance, as far as it does not leave the table:
the mode, and `autoSplit`; `none` is an unknown mode. -/
def inferenceCreate (argv : List Bytes) : Option (Option (Mode × Bool)) :=
  let argv := if argv = [] then [Mode.local.name] else argv
  (Main.inference.items argv).map fun items =>
    let autoSplit :=
      items.foldl (fun autoSplit item => if isOption 's' item then true else autoSplit) false
    if argv.head? = some Mode.local.name then some (.local, autoSplit)
    else if argv.head? = some Mode.remote.name then some (.remote, autoSplit)
    else none

/-! ## Tables -/

theorem good (m : Main) : m.spec.Good := by
  cases m with
  | peer => exact ⟨rfl, by decide⟩
  | discovery => exact ⟨rfl, by decide⟩
  | authenticator => exact ⟨rfl, by decide⟩
  | runtime => exact ⟨rfl, by decide⟩
  | inference => exact ⟨rfl, by decide⟩

/-! ## Options -/

section Options

/-- The letters of an option string are different. -/
theorem letters_peer : [letter 's', letter 'p', letter 'f', letter 'a'].Nodup := by decide

theorem letters_discovery : [letter 's', letter 'c', letter 'n', letter 'p'].Nodup := by decide

theorem peer_apply (o : PeerOptions) (item : Item) : o.apply item =
    { isServer := isOption 's' item || o.isServer
      framework := (optarg 'f' item).or o.framework
      accel := (optarg 'a' item).or o.accel
      storagePath := (optarg 'p' item).or o.storagePath } := by
  have hletters := letters_peer
  simp only [List.nodup_cons, List.mem_cons, not_or] at hletters
  rcases o with ⟨isServer, framework, accel, storagePath⟩
  cases item with
  | option val arg =>
      simp only [PeerOptions.apply, optarg, isOption, dupOpt]
      grind
  | _ => rfl

/-- A flag is set for good. -/
theorem foldl_flag {ω : Type*} {step : ω → Item → ω} {c : Char} (view : ω → Bool)
    (h : ∀ o item, view (step o item) = (isOption c item || view o)) (o : ω) (items : List Item) :
    view (items.foldl step o) = (items.any (isOption c) || view o) := by
  induction items generalizing o with
  | nil => simp
  | cons item items ih => rw [List.foldl_cons, ih, h, List.any_cons, Bool.or_left_comm, Bool.or_assoc]

/-- Of an option that is given several times the last one counts. -/
theorem peer_options (items : List Item) :
    items.foldl PeerOptions.apply ⟨false, none, none, none⟩ =
      { isServer := items.any (isOption 's')
        framework := latest (items.map (optarg 'f'))
        accel := latest (items.map (optarg 'a'))
        storagePath := latest (items.map (optarg 'p')) } := by
  have hisServer : ∀ (o : PeerOptions) item,
      (o.apply item).isServer = (isOption 's' item || o.isServer) := fun o item => by rw [peer_apply]
  have hframework : ∀ (o : PeerOptions) item,
      (o.apply item).framework = (optarg 'f' item).or o.framework := fun o item => by rw [peer_apply]
  have haccel : ∀ (o : PeerOptions) item,
      (o.apply item).accel = (optarg 'a' item).or o.accel := fun o item => by rw [peer_apply]
  have hstoragePath : ∀ (o : PeerOptions) item,
      (o.apply item).storagePath = (optarg 'p' item).or o.storagePath :=
    fun o item => by rw [peer_apply]
  have hfold := foldl_flag PeerOptions.isServer hisServer ⟨false, none, none, none⟩ items
  have hframework' := foldl_or hframework ⟨false, none, none, none⟩ items
  have haccel' := foldl_or haccel ⟨false, none, none, none⟩ items
  have hstoragePath' := foldl_or hstoragePath ⟨false, none, none, none⟩ items
  simp only [Bool.or_false, Option.or_none] at hfold hframework' haccel' hstoragePath'
  rw [← hfold, ← hframework', ← haccel', ← hstoragePath']

theorem discovery_apply (o : DiscoveryOptions) (item : Item) : o.apply item =
    { isServer := ((if isOption 's' item then some true else none).or
        (if isOption 'c' item then some false else none)).getD o.isServer
      name := (optarg 'n' item).getD o.name
      port := ((optarg 'p' item).map fun arg => UInt16.ofInt (atoi arg)).getD o.port } := by
  have hletters := letters_discovery
  simp only [List.nodup_cons, List.mem_cons, not_or] at hletters
  rcases o with ⟨isServer, name, port⟩
  cases item with
  | option val arg =>
      simp only [DiscoveryOptions.apply, optarg, isOption]
      grind
  | _ => rfl

/-- Whether an option makes a server, or a client. -/
def serverOption (item : Item) : Option Bool :=
  (if isOption 's' item then some true else none).or (if isOption 'c' item then some false else none)

theorem discovery_options (items : List Item) :
    items.foldl DiscoveryOptions.apply ⟨false, ascii "BeyonD", 3000⟩ =
      { isServer := (latest (items.map serverOption)).getD false
        name := (latest (items.map (optarg 'n'))).getD (ascii "BeyonD")
        port := ((latest (items.map (optarg 'p'))).map fun arg =>
          UInt16.ofInt (atoi arg)).getD 3000 } := by
  have hisServer : ∀ (o : DiscoveryOptions) item,
      (o.apply item).isServer = (serverOption item).getD o.isServer :=
    fun o item => by rw [discovery_apply]; rfl
  have hname : ∀ (o : DiscoveryOptions) item,
      (o.apply item).name = (optarg 'n' item).getD o.name := fun o item => by rw [discovery_apply]
  have hport : ∀ (o : DiscoveryOptions) item,
      (o.apply item).port = ((optarg 'p' item).map fun arg => UInt16.ofInt (atoi arg)).getD o.port :=
    fun o item => by rw [discovery_apply]
  have hisServer' := foldl_getD hisServer ⟨false, ascii "BeyonD", 3000⟩ items
  have hname' := foldl_getD hname ⟨false, ascii "BeyonD", 3000⟩ items
  have hport' := foldl_getD hport ⟨false, ascii "BeyonD", 3000⟩ items
  have hmap := latest_map (fun arg => UInt16.ofInt (atoi arg)) (items.map (optarg 'p'))
  rw [List.map_map] at hmap
  rw [← hmap]
  simp only [Function.comp_def]
  rw [← hisServer', ← hname', ← hport']

theorem flag_set (c : Char) (items : List Item) :
    items.foldl (fun b item => if isOption c item then true else b) false =
      items.any (isOption c) := by
  have hstep : ∀ (b : Bool) item, (if isOption c item then true else b) = (isOption c item || b) := by
    intro b item
    cases isOption c item <;> rfl
  have hfold := foldl_flag id hstep false items
  simp only [id, Bool.or_false] at hfold
  exact hfold

theorem items_spelled {m : Main} {words : List (List Bytes × List Item)}
    (h : ∀ w ∈ words, Spelled m.spec w.1 w.2) (program : Bytes) :
    m.items (program :: words.flatMap Prod.fst) = some (words.flatMap Prod.snd) :=
  scan_spelled (good m) h

/-- Whatever options a module is given, in whatever ways they are written and with whatever operands in
between, it is made with the last argument of each and with all flags, or else with its defaults. -/
theorem options_read (program : Bytes) (words : List (List Bytes × List Item)) :
    ((∀ w ∈ words, Spelled Main.peer.spec w.1 w.2) →
      peerMain (program :: words.flatMap Prod.fst) = some
        { isServer := (words.flatMap Prod.snd).any (isOption 's')
          framework := latest ((words.flatMap Prod.snd).map (optarg 'f'))
          accel := latest ((words.flatMap Prod.snd).map (optarg 'a'))
          storagePath := latest ((words.flatMap Prod.snd).map (optarg 'p')) }) ∧
    ((∀ w ∈ words, Spelled Main.discovery.spec w.1 w.2) →
      discoveryMain (program :: words.flatMap Prod.fst) = some
        (if (latest ((words.flatMap Prod.snd).map serverOption)).getD false then
          some (.create ((latest ((words.flatMap Prod.snd).map (optarg 'n'))).getD (ascii "BeyonD"))
            (((latest ((words.flatMap Prod.snd).map (optarg 'p'))).map fun arg =>
              UInt16.ofInt (atoi arg)).getD 3000))
        else none)) ∧
    ((∀ w ∈ words, Spelled Main.authenticator.spec w.1 w.2) →
      authenticatorMain (program :: words.flatMap Prod.fst) =
        some ((words.flatMap Prod.snd).any (isOption 'a'))) ∧
    ((∀ w ∈ words, Spelled Main.inference.spec w.1 w.2) → ∀ mode : Mode,
      inferenceCreate (mode.name :: words.flatMap Prod.fst) =
        some (some (mode, (words.flatMap Prod.snd).any (isOption 's')))) := by
  refine ⟨fun h => ?_, fun h => ?_, fun h => ?_, fun h mode => ?_⟩
  · rw [peerMain, items_spelled h, Option.map_some, peer_options]
  · rw [discoveryMain, items_spelled h, Option.map_some, discovery_options]
  · rw [authenticatorMain, items_spelled h, Option.map_some, flag_set]
  · rw [inferenceCreate, if_neg (List.cons_ne_nil _ _)]
    simp only [items_spelled h, Option.map_some, flag_set, List.head?_cons]
    cases mode with
    | «local» => rfl
    | remote => rfl

/-- A server of a peer with all its options, the path given twice. -/
def serverWords : List (List Bytes × List Item) :=
  [([ascii "-s"], [.option (letter 's') none]),
    ([ascii "--path=/tmp"], [.option (letter 'p') (some (ascii "/tmp"))]),
    ([ascii "extra"], [.operand (ascii "extra")]),
    ([ascii "--framework", ascii "tflite"], [.option (letter 'f') (some (ascii "tflite"))]),
    ([ascii "-acpu"], [.option (letter 'a') (some (ascii "cpu"))]),
    ([ascii "-p", ascii "--"], [.option (letter 'p') (some (ascii "--"))])]

theorem serverWords_read :
    peerMain (ascii "peer_nn" :: serverWords.flatMap Prod.fst) =
      some ⟨true, some (ascii "tflite"), some (ascii "cpu"), some (ascii "--")⟩ := by
  refine ((options_read (ascii "peer_nn") serverWords).1 ?_).trans rfl
  simp only [serverWords, List.forall_mem_cons]
  refine ⟨.letters (List.forall_mem_cons.2 ⟨rfl, List.forall_mem_nil _⟩), ?_,
    .operand (.inl (by decide)), ?_, .joined rfl (by decide), .apart rfl, List.forall_mem_nil _⟩
  · exact .longJoined (o := (both 'p' "path" true).2) (by decide) rfl
  · exact .longApart (o := (both 'f' "framework" true).2) (by decide) rfl

theorem atoi_decimal {n : Nat} (hn : n < 2 ^ 31) : atoi (decimal n) = n := by
  have hinteger : integer (n : Int) = decimal n := if_neg (by omega)
  have hscan := scanInt_integer n [] nofun
  rw [List.append_nil, hinteger] at hscan
  have hstrtol : strtol (decimal n) = n := by
    rw [strtol, hscan, Option.map_some, Option.getD_some]
    omega
  rw [atoi, hstrtol]
  exact Int.bmod_eq_of_le (by omega) (by omega)

/-- The arguments for a server make the server. -/
theorem server_created (program name : Bytes) (port : UInt16) :
    discoveryMain [program, ascii "--server", ascii "--name", name, ascii "--port",
      decimal port.toNat] = some (some (.create name port)) := by
  have hspelled : ∀ w ∈ [([ascii "--server"], [Item.option (letter 's') none]),
      ([ascii "--name", name], [.option (letter 'n') (some name)]),
      ([ascii "--port", decimal port.toNat], [.option (letter 'p') (some (decimal port.toNat))])],
      Spelled Main.discovery.spec w.1 w.2 := by
    simp only [List.forall_mem_cons]
    refine ⟨?_, ?_, ?_, nofun⟩
    · exact .long (o := (both 's' "server" false).2) (by decide) rfl
    · exact .longApart (o := (both 'n' "name" true).2) (by decide) rfl
    · exact .longApart (o := (both 'p' "port" true).2) (by decide) rfl
  have hitems := items_spelled hspelled program
  have hport : UInt16.ofInt (atoi (decimal port.toNat)) = port := by
    have hlt := port.toNat_lt
    have hmod : ((port.toNat : Int) % 2 ^ 16).toNat = port.toNat := by omega
    rw [atoi_decimal (by omega), UInt16.ofInt, hmod, UInt16.ofNat_toNat]
  rw [discoveryMain]
  simp only [List.flatMap_cons, List.flatMap_nil, List.append_nil, List.cons_append, List.nil_append]
    at hitems
  rw [hitems, Option.map_some, discovery_options]
  simp [serverOption, isOption, optarg, letter, hport]

end Options

end Module
end Beyond
