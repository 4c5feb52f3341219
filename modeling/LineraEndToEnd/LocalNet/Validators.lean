import Mathlib.Data.Finset.Insert
import Mathlib.Data.Finset.SDiff
import LineraEndToEnd.Lib.Run
import LineraEndToEnd.Runtime.Base

/-!
# LocalNet — the processes of the validators

The part of `specified_local_net.rs` that starts and stops processes: a validator
has one process for each proxy and one for each shard, and the network keeps the
handles of the processes of its running validators.

The operating system is the other half of the state: the processes that are alive,
each known by its pid and by what it was started for. Pids are given in the order in
which processes are started, and no process ends by itself. Whether a process can be
started and becomes healthy, and whether dropping a handle kills its process, is up
to the `Environment`.

* `runProcess`, `runProxy`, `runServer` — one process.
* `restartValidator`, `startValidator`, `stopValidator` — one validator.
* `terminateServer`, `startServer` — one server of a running validator.
* `step` — a call; a panic (`expect`, `Vec::remove`) ends the run, an error does not.
-/

namespace LineraEndToEnd.LocalNet

open Lib

-- ---------------------------------------------------------------------------
-- Processes
-- ---------------------------------------------------------------------------

/-- What a process is started for. -/
inductive Role where
  | proxy (validator proxyId : Nat)
  | server (validator shard : Nat)
deriving DecidableEq

/-- The validator a process belongs to. -/
def Role.validator : Role → Nat
  | .proxy validator _ => validator
  | .server validator _ => validator

/-- `Child`: the handle of a process. -/
structure Child where
  pid : Nat
  role : Role
deriving DecidableEq

/-- What can come of the attempt to start a process: an error before there is one,
a process that does not become healthy, or one that does. -/
inductive Launch where
  | notSpawned
  | unhealthy
  | healthy
deriving DecidableEq

/-- What the code does not decide. The attempts are numbered. -/
structure Environment where
  launch : Nat → Launch
  initializes : Nat → Bool
  killOnDrop : Bool

/-- The errors that are returned to the caller. -/
inductive NetError where
  | failedToInitialize
  | failedToSpawn
  | failedToStart
  | terminatingValidatorProxy
  | terminatingValidatorServer
  | serverNotFound
  | couldNotFindValidator
deriving DecidableEq

/-- The panics: `expect("initialized storage")`, and `Vec::remove` out of bounds. -/
inductive Panic where
  | initializedStorage
  | removalIndex
deriving DecidableEq

/-- `Validator`: the processes of a running validator. -/
structure Validator where
  proxies : List Child
  servers : List Child

/-- All processes of a validator. -/
def Validator.children (v : Validator) : List Child := v.proxies ++ v.servers

/-- `Validator::add_server`. -/
def Validator.addServer (v : Validator) (server : Child) : Validator :=
  { v with servers := v.servers ++ [server] }

/-- `SpecifiedLocalNet`, as far as processes go. -/
structure SpecifiedLocalNet where
  numProxies : Nat
  numShards : Nat
  initializedValidatorStorages : Finset Nat
  runningValidators : MapView Nat Validator

/-- The network, the processes that are alive, and the number of attempts to start
something. -/
structure Host where
  net : SpecifiedLocalNet
  alive : Finset Child
  attempts : Nat

/-- No process has been started. -/
def initial (numProxies numShards : Nat) : Host :=
  { net :=
      { numProxies := numProxies
        numShards := numShards
        initializedValidatorStorages := ∅
        runningValidators := ∅ }
    alive := ∅
    attempts := 0 }

namespace Host

variable (env : Environment) (host : Host)

/-- `running_validators.insert`. -/
def insertValidator (index : Nat) (validator : Validator) : Host :=
  { host with
    net := { host.net with
      runningValidators := host.net.runningValidators.insert index validator } }

/-- `running_validators.remove`. -/
def removeValidator (index : Nat) : Host :=
  { host with
    net := { host.net with runningValidators := host.net.runningValidators.erase index } }

/-- The handles are dropped. -/
def drop (children : List Child) : Host :=
  if env.killOnDrop then { host with alive := host.alive \ children.toFinset } else host

/-- `Child::kill`, which fails with the given error on a process that is gone. -/
def kill (child : Child) (error : NetError) : Host × Except NetError Unit :=
  if child ∈ host.alive then ({ host with alive := host.alive.erase child }, .ok ())
  else (host, .error error)

/-- A loop that kills processes, up to the first error. -/
def killAll (error : NetError) : Host → List Child → Host × Except NetError Unit
  | host, [] => (host, .ok ())
  | host, child :: children =>
    match host.kill child error with
    | (host, .error e) => (host, .error e)
    | (host, .ok ()) => killAll error host children

/-- `Validator::terminate`. -/
def terminate (validator : Validator) : Host × Except NetError Unit :=
  match host.killAll .terminatingValidatorProxy validator.proxies with
  | (host, .error e) => (host, .error e)
  | (host, .ok ()) => host.killAll .terminatingValidatorServer validator.servers

/-- The common part of `run_proxy` and `run_server`: a process that does not become
healthy is dropped. -/
def runProcess (role : Role) : Except Panic (Host × Except NetError Child) :=
  if role.validator ∉ host.net.initializedValidatorStorages then .error .initializedStorage
  else
    let child : Child := { pid := host.attempts, role := role }
    let spawned := { host with alive := insert child host.alive, attempts := host.attempts + 1 }
    match env.launch host.attempts with
    | .notSpawned => .ok ({ host with attempts := host.attempts + 1 }, .error .failedToSpawn)
    | .unhealthy => .ok (spawned.drop env [child], .error .failedToStart)
    | .healthy => .ok (spawned, .ok child)

/-- `run_proxy`. -/
def runProxy (validator proxyId : Nat) : Except Panic (Host × Except NetError Child) :=
  host.runProcess env (.proxy validator proxyId)

/-- `run_server`. -/
def runServer (validator shard : Nat) : Except Panic (Host × Except NetError Child) :=
  host.runProcess env (.server validator shard)

/-- A loop that starts processes, up to the first error: the handles it has. -/
def runAll (run : Host → Nat → Except Panic (Host × Except NetError Child)) :
    Host → List Nat → Except Panic (Host × List Child × Except NetError Unit)
  | host, [] => .ok (host, [], .ok ())
  | host, i :: is => do
    let (host, result) ← run host i
    match result with
    | .error e => return (host, [], .error e)
    | .ok child =>
      let (host, children, result) ← runAll run host is
      return (host, child :: children, result)

/-- A validator is inserted; the old one, if there is one, is dropped. -/
def replaceValidator (index : Nat) (validator : Validator) : Host :=
  match host.net.runningValidators.lookup index with
  | none => host.insertValidator index validator
  | some old => (host.insertValidator index validator).drop env old.children

/-- `restart_validator`. -/
def restartValidator (index : Nat) : Except Panic (Host × Except NetError Unit) := do
  let (host, proxies, result) ←
    runAll (fun host k => host.runProxy env index k) host (List.range host.net.numProxies)
  match result with
  | .error e => return (host.drop env proxies, .error e)
  | .ok () =>
    let (host, servers, result) ←
      runAll (fun host s => host.runServer env index s) host (List.range host.net.numShards)
    match result with
    | .error e => return (host.drop env (proxies ++ servers), .error e)
    | .ok () => return (host.replaceValidator env index ⟨proxies, servers⟩, .ok ())

/-- `start_validator`: the storage is initialized before. -/
def startValidator (index : Nat) : Except Panic (Host × Except NetError Unit) :=
  let tried := { host with attempts := host.attempts + 1 }
  if env.initializes host.attempts then
    { tried with net := { host.net with
        initializedValidatorStorages :=
          insert index host.net.initializedValidatorStorages } }.restartValidator env index
  else .ok (tried, .error .failedToInitialize)

/-- `stop_validator`. -/
def stopValidator (index : Nat) : Host × Except NetError Unit :=
  match host.net.runningValidators.lookup index with
  | none => (host, .ok ())
  | some validator =>
    let (host, result) := (host.removeValidator index).terminate validator
    (host.drop env validator.children, result)

/-- `terminate_server`: the shard is passed on as a position. -/
def terminateServer (validator shard : Nat) : Except Panic (Host × Except NetError Unit) :=
  match host.net.runningValidators.lookup validator with
  | none => .ok (host, .error .serverNotFound)
  | some v =>
    -- `Validator::terminate_server`
    match v.servers[shard]? with
    | none => .error .removalIndex
    | some server =>
      let removed := host.insertValidator validator { v with servers := v.servers.eraseIdx shard }
      let (host, result) := removed.kill server .terminatingValidatorServer
      .ok (host.drop env [server], result)

/-- `start_server`. -/
def startServer (validator shard : Nat) : Except Panic (Host × Except NetError Unit) := do
  let (host, result) ← host.runServer env validator shard
  match result with
  | .error e => return (host, .error e)
  | .ok server =>
    match host.net.runningValidators.lookup validator with
    | none => return (host.drop env [server], .error .couldNotFindValidator)
    | some v => return (host.insertValidator validator (v.addServer server), .ok ())

variable {host} {v w : Nat} (validator : Validator)

@[simp] theorem lookup_insertValidator_self :
    (host.insertValidator v validator).net.runningValidators.lookup v = some validator :=
  Finmap.lookup_insert _

theorem lookup_insertValidator_of_ne (hw : w ≠ v) :
    (host.insertValidator v validator).net.runningValidators.lookup w =
      host.net.runningValidators.lookup w :=
  Finmap.lookup_insert_of_ne _ hw

@[simp] theorem lookup_removeValidator_self :
    (host.removeValidator v).net.runningValidators.lookup v = none :=
  Finmap.lookup_erase ..

theorem lookup_removeValidator_of_ne (hw : w ≠ v) :
    (host.removeValidator v).net.runningValidators.lookup w =
      host.net.runningValidators.lookup w :=
  Finmap.lookup_erase_ne hw

end Host

-- ---------------------------------------------------------------------------
-- Calls
-- ---------------------------------------------------------------------------

/-- A call. -/
inductive Action where
  | startValidator (index : Nat)
  | restartValidator (index : Nat)
  | stopValidator (index : Nat)
  | terminateServer (validator shard : Nat)
  | startServer (validator shard : Nat)
deriving DecidableEq

/-- What a call does. -/
def Action.perform (env : Environment) (host : Host) :
    Action → Except Panic (Host × Except NetError Unit)
  | .startValidator index => host.startValidator env index
  | .restartValidator index => host.restartValidator env index
  | .stopValidator index => .ok (host.stopValidator env index)
  | .terminateServer validator shard => host.terminateServer env validator shard
  | .startServer validator shard => host.startServer env validator shard

/-- One step, which is not possible when the call panics. -/
def step (env : Environment) (host : Host) (a : Action) : Option Host :=
  (a.perform env host).toOption.map Prod.fst

end LineraEndToEnd.LocalNet
