import Mathlib.Data.Finset.Sort
import Mathlib.Data.String.Basic
import LineraEndToEnd.Runtime.Base

/-!
# Monitor — the chain monitor

`monitor_chains.rs`: every validator is asked about every chain of a list, and what is
wrong is printed: failed queries, a big discrepancy of block heights, stale timestamps,
and validators that are often a little behind. When nothing is wrong, one line says so.

The numbers are `u64`; the code only subtracts with saturation and counts chains, so
naturals do as well. A listed chain comes with the outcomes of its queries; the printed
lines are data here, with the texts of the source in their comments.

* `queryValidators`, `checkHeights`, `checkStale` — the checks of one chain.
* `checkChain`, `reportLag`, `monitorChains` — the loop, the summary and the verdict.
-/

namespace LineraEndToEnd.Monitor

/-- `VALIDATORS`. -/
def VALIDATORS : List String :=
  ["grpcs:validator-1.testnet-conway.linera.net:443",
    "grpcs:validator-2.testnet-conway.linera.net:443",
    "grpcs:validator-3.testnet-conway.linera.net:443",
    "grpcs:validator-4.testnet-conway.linera.net:443"]

/-- `Args`, without the file. -/
structure Args where
  bigDiffThreshold : Nat
  staleSeconds : Nat

/-- `ValidatorChainInfo`. -/
structure ValidatorChainInfo where
  blockHeight : Nat
  timestampMicros : Nat
deriving DecidableEq

/-- A listed chain, and what comes of asking a validator about it: an error of the node
or of the query, or the information. -/
structure Chain (ChainId : Type) where
  id : ChainId
  query : String → Except String ValidatorChainInfo

/-- The printed lines. -/
inductive Line (ChainId : Type) where
  /-- "No chain IDs found in file." -/
  | noChainIds
  /-- "Monitoring {} chains across {} validators" -/
  | monitoring (chains validators : Nat)
  /-- "CHAIN {} — query errors:" -/
  | queryErrors (chain : ChainId)
  /-- "  {} : {}" -/
  | queryError (address error : String)
  /-- "CHAIN {} — BIG block height discrepancy (max={}, min={}, diff={}):" -/
  | bigDiscrepancy (chain : ChainId) (max min diff : Nat)
  /-- "  {} : height {}{}", with " <-- LAGGING" -/
  | height (address : String) (blockHeight : Nat) (lagging : Bool)
  /-- "CHAIN {} — STALE timestamp on {} : last block at {} ({} seconds ago)" -/
  | stale (chain : ChainId) (address : String) (timestampMicros ageSecs : Nat)
  /-- "=== Validators with small but recurring lag ===" -/
  | recurringLag
  /-- "  {} : behind on {}/{} chains ({:.0}%)" -/
  | behind (validator : String) (count totalChains : Nat)
  /-- An empty line. -/
  | blank
  /-- "All chains healthy: block heights consistent, timestamps recent." -/
  | allChainsHealthy
deriving DecidableEq

variable {ChainId : Type}

/-- What the loop over the chains keeps. -/
structure State (ChainId : Type) where
  laggingValidators : MapView String Nat
  issuesFound : Bool
  output : List (Line ChainId)

namespace State

/-- Lines are printed. -/
def print (m : State ChainId) (lines : List (Line ChainId)) : State ChainId :=
  { m with output := m.output ++ lines }

/-- An issue is found, and printed. -/
def issue (m : State ChainId) (lines : List (Line ChainId)) : State ChainId :=
  { m.print lines with issuesFound := true }

end State

/-- `*lagging_validators.entry(key).or_insert(0) += 1`. -/
def increment (laggingValidators : MapView String Nat) (key : String) : MapView String Nat :=
  laggingValidators.insert key ((laggingValidators.lookup key).getD 0 + 1)

/-- The entries of the `BTreeMap`, in the order of their keys. -/
def entries (laggingValidators : MapView String Nat) : List (String × Nat) :=
  (laggingValidators.keys.sort (· ≤ ·)).filterMap fun key =>
    (laggingValidators.lookup key).map fun count => (key, count)

variable (args : Args) (nowMicros : Nat) (validators : List String)

/-- The answer of one validator goes to `infos` or to `errors`. -/
def queryValidator (chain : Chain ChainId) :
    List (String × ValidatorChainInfo) × List (String × String) → String →
      List (String × ValidatorChainInfo) × List (String × String)
  | (infos, errors), address =>
    match chain.query address with
    | .ok info => (infos ++ [(address, info)], errors)
    | .error e => (infos, errors ++ [(address, e)])

/-- The queries about one chain: `infos` and `errors`. -/
def queryValidators (chain : Chain ChainId) :
    List (String × ValidatorChainInfo) × List (String × String) :=
  validators.foldl (queryValidator chain) ([], [])

/-- `infos.iter().map(|(_, i)| i.block_height).max().unwrap()`, for `infos` that is not
empty. -/
def maxHeight (infos : List (String × ValidatorChainInfo)) : Nat :=
  (infos.map fun p => p.2.blockHeight).max?.getD 0

/-- The same with `min`. -/
def minHeight (infos : List (String × ValidatorChainInfo)) : Nat :=
  (infos.map fun p => p.2.blockHeight).min?.getD 0

/-- "Check block height discrepancies". -/
def checkHeights (chain : ChainId) (infos : List (String × ValidatorChainInfo))
    (m : State ChainId) : State ChainId :=
  let diff := maxHeight infos - minHeight infos
  if diff ≥ args.bigDiffThreshold then
    m.issue <| [.bigDiscrepancy chain (maxHeight infos) (minHeight infos) diff] ++
      infos.map (fun (addr, info) =>
        .height addr info.blockHeight (info.blockHeight = minHeight infos)) ++ [.blank]
  else if diff > 0 then
    { m with
      laggingValidators := infos.foldl (fun laggingValidators (addr, info) =>
        if info.blockHeight < maxHeight infos then increment laggingValidators addr
        else laggingValidators) m.laggingValidators }
  else m

/-- "Check stale timestamps", for one validator. -/
def checkStale (chain : ChainId) (m : State ChainId) :
    String × ValidatorChainInfo → State ChainId
  | (addr, info) =>
    if info.timestampMicros = 0 then m
    else
      let ageSecs := (nowMicros - info.timestampMicros) / 1000000
      if ageSecs > args.staleSeconds then m.issue [.stale chain addr info.timestampMicros ageSecs]
      else m

/-- The queries that have failed are an issue. -/
def reportErrors (chain : ChainId) (errors : List (String × String)) (m : State ChainId) :
    State ChainId :=
  if errors.isEmpty then m
  else m.issue <| [.queryErrors chain] ++
    errors.map (fun (addr, err) => .queryError addr err) ++ [.blank]

/-- The body of the loop over the chains. -/
def checkChain (m : State ChainId) (chain : Chain ChainId) : State ChainId :=
  let (infos, errors) := queryValidators validators chain
  let m := reportErrors chain.id errors m
  if infos.isEmpty then m
  else infos.foldl (checkStale args nowMicros chain.id) (checkHeights args chain.id infos m)

/-- "Report validators that are consistently slightly behind". -/
def reportLag (totalChains : Nat) (m : State ChainId) : State ChainId :=
  if (entries m.laggingValidators).isEmpty then m
  else
    let reported := (entries m.laggingValidators).foldl (fun m (validator, count) =>
      if count > totalChains / 2 then m.issue [.behind validator count totalChains]
      else m.print [.behind validator count totalChains]) (m.print [.blank, .recurringLag])
    reported.print [.blank]

/-- `main`, from the list of chains on: what it prints. -/
def monitorChains (chains : List (Chain ChainId)) : List (Line ChainId) :=
  if chains.isEmpty then [.noChainIds]
  else
    let start : State ChainId :=
      { laggingValidators := ∅
        issuesFound := false
        output := [.monitoring chains.length validators.length, .blank] }
    let m := reportLag chains.length
      (chains.foldl (checkChain args nowMicros validators) start)
    if m.issuesFound then m.output else m.output ++ [.allChainsHealthy]

end LineraEndToEnd.Monitor
