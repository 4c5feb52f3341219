import Mathlib.Data.List.Nodup
import LineraEndToEnd.LocalNet.Validators

/-!
# LocalNet — the ports of the validators

Every proxy of a validator has three ports and every shard two, all of them computed
from the number of the validator and of the proxy or the shard, on top of five bases
that are 1000 apart. The configuration files of the initial validators hold them.

* `SpecifiedLocalNet.port` — the five functions, as one function of the `PortKey`.
* `configurationString` — the configuration of a validator; `ports_configurationString`:
  the ports in it.
* `port_injOn` — no two ports are equal as long as the validators have at most 1000
  shards and 1000 proxies.
* `ports_distinct` — the networks of `new_test`, in any size that is accepted.
-/

namespace LineraEndToEnd.LocalNet

-- ---------------------------------------------------------------------------
-- Configurations
-- ---------------------------------------------------------------------------

/-- `MAX_NUMBER_SHARDS`. -/
def MAX_NUMBER_SHARDS : Nat := 1000

/-- `FIRST_PUBLIC_PORT`. -/
def FIRST_PUBLIC_PORT : Nat := 13000

/-- `Network`. -/
inductive Network where
  | grpc
  | grpcs
  | tcp
  | udp
deriving DecidableEq

/-- `drop_tls`. -/
def Network.dropTls : Network → Network
  | .grpc | .grpcs => .grpc
  | .tcp => .tcp
  | .udp => .udp

/-- `toml`. -/
def Network.toml : Network → String
  | .grpc => "\x7b Grpc = \"ClearText\" \x7d"
  | .grpcs => "\x7b Grpc = \"Tls\" \x7d"
  | .tcp => "\x7b Simple = \"Tcp\" \x7d"
  | .udp => "\x7b Simple = \"Udp\" \x7d"

/-- `NetworkConfig`. -/
structure NetworkConfig where
  internal : Network
  external : Network

/-- `SpecifiedLocalNetConfig`, as far as the configuration files go. -/
structure SpecifiedLocalNetConfig where
  network : NetworkConfig
  numInitialValidators : Nat
  numShards : Nat
  numProxies : Nat

/-- `new_test`. -/
def SpecifiedLocalNetConfig.newTest (network : Network) : SpecifiedLocalNetConfig :=
  { network := { internal := network.dropTls, external := network }
    numInitialValidators := 4
    numShards := 4
    numProxies := 1 }

/-- What `instantiate` refuses a configuration for: the two checks, and a product that
overflows in a build with overflow checks. -/
inductive InstantiateError where
  | noInitialValidator
  | tooManyShards (numShards maximum : Nat)
  | multiplyOverflow
deriving DecidableEq

/-- The messages. -/
def InstantiateError.message : InstantiateError → String
  | .noInitialValidator => "There should be at least one initial validator"
  | .tooManyShards numShards maximum =>
    "Total number of shards (" ++ toString numShards ++ ") exceeds maximum allowed (" ++
      toString maximum ++ ")"
  | .multiplyOverflow => "attempt to multiply with overflow"

/-- The checks of `instantiate`, on 64-bit machines. -/
def SpecifiedLocalNetConfig.check (overflowChecks : Bool) (config : SpecifiedLocalNetConfig) :
    Except InstantiateError Unit :=
  if ¬ config.numInitialValidators > 0 then
    .error .noInitialValidator
  else
    let product := config.numInitialValidators * config.numShards
    if overflowChecks ∧ product ≥ 2 ^ 64 then
      .error .multiplyOverflow
    else
      let totalNumberShards := product % 2 ^ 64
      if ¬ totalNumberShards ≤ MAX_NUMBER_SHARDS then
        .error (.tooManyShards config.numShards MAX_NUMBER_SHARDS)
      else
        .ok ()

-- ---------------------------------------------------------------------------
-- Ports
-- ---------------------------------------------------------------------------

/-- The formula of the five functions below. -/
def portAbove (base count validator index : Nat) : Nat := base + validator * count + index + 1

namespace SpecifiedLocalNetConfig

variable (net : SpecifiedLocalNetConfig)

/-- `shard_port`. -/
def shardPort (validator shard : Nat) : Nat := portAbove 9000 net.numShards validator shard

/-- `proxy_internal_port`. -/
def proxyInternalPort (validator proxyId : Nat) : Nat :=
  portAbove 10000 net.numProxies validator proxyId

/-- `shard_metrics_port`. -/
def shardMetricsPort (validator shard : Nat) : Nat :=
  portAbove 11000 net.numShards validator shard

/-- `proxy_metrics_port`. -/
def proxyMetricsPort (validator proxyId : Nat) : Nat :=
  portAbove 12000 net.numProxies validator proxyId

/-- `proxy_public_port`. -/
def proxyPublicPort (validator proxyId : Nat) : Nat :=
  portAbove FIRST_PUBLIC_PORT net.numProxies validator proxyId

end SpecifiedLocalNetConfig

/-- A `[[proxies]]` section. -/
structure ProxyConfig where
  host : String
  publicPort : Nat
  privatePort : Nat
  metricsPort : Nat
deriving DecidableEq

/-- A `[[shards]]` section. -/
structure ShardConfig where
  host : String
  port : Nat
  metricsPort : Nat
deriving DecidableEq

/-- The configuration file of a validator. -/
structure ValidatorConfig where
  fileName : String
  serverConfigPath : String
  host : String
  port : Nat
  externalProtocol : String
  internalProtocol : String
  proxies : List ProxyConfig
  shards : List ShardConfig
deriving DecidableEq

/-- `configuration_string`: the file it writes. The host of a network is not in the
repository. -/
def configurationString (localhost : Network → String) (net : SpecifiedLocalNetConfig)
    (serverNumber : Nat) : ValidatorConfig :=
  let n := serverNumber
  { fileName := "validator_" ++ toString n ++ ".toml"
    serverConfigPath := "server_" ++ toString n ++ ".json"
    host := localhost net.network.external
    port := net.proxyPublicPort n 0
    externalProtocol := net.network.external.toml
    internalProtocol := net.network.internal.toml
    proxies := (List.range net.numProxies).map fun k =>
      { host := localhost net.network.internal
        publicPort := net.proxyPublicPort n k
        privatePort := net.proxyInternalPort n k
        metricsPort := net.proxyMetricsPort n k }
    shards := (List.range net.numShards).map fun k =>
      { host := localhost net.network.internal
        port := net.shardPort n k
        metricsPort := net.shardMetricsPort n k } }

/-- The files that `generate_initial_validator_config` passes on. -/
def initialConfigurations (localhost : Network → String) (net : SpecifiedLocalNetConfig) :
    List ValidatorConfig :=
  (List.range net.numInitialValidators).map (configurationString localhost net)

/-- The ports of the sections of a file. The port of the validator itself is that of
its first proxy. -/
def ValidatorConfig.ports (config : ValidatorConfig) : List Nat :=
  (config.proxies.flatMap fun p => [p.publicPort, p.privatePort, p.metricsPort]) ++
    config.shards.flatMap fun s => [s.port, s.metricsPort]

-- ---------------------------------------------------------------------------
-- What a port is for
-- ---------------------------------------------------------------------------

/-- What a port is for. -/
inductive PortKey where
  | proxyPublic (validator proxyId : Nat)
  | proxyInternal (validator proxyId : Nat)
  | proxyMetrics (validator proxyId : Nat)
  | shard (validator shard : Nat)
  | shardMetrics (validator shard : Nat)
deriving DecidableEq

/-- Its number. -/
def SpecifiedLocalNetConfig.port (net : SpecifiedLocalNetConfig) : PortKey → Nat
  | .proxyPublic v k => net.proxyPublicPort v k
  | .proxyInternal v k => net.proxyInternalPort v k
  | .proxyMetrics v k => net.proxyMetricsPort v k
  | .shard v k => net.shardPort v k
  | .shardMetrics v k => net.shardMetricsPort v k

/-- The ports of a validator, in the order of its file. -/
def SpecifiedLocalNetConfig.portKeys (net : SpecifiedLocalNetConfig) (v : Nat) : List PortKey :=
  ((List.range net.numProxies).flatMap fun k =>
      [.proxyPublic v k, .proxyInternal v k, .proxyMetrics v k]) ++
    (List.range net.numShards).flatMap fun k => [.shard v k, .shardMetrics v k]

/-- The validator it belongs to. -/
def PortKey.validator : PortKey → Nat
  | .proxyPublic v _ | .proxyInternal v _ | .proxyMetrics v _ | .shard v _ | .shardMetrics v _ => v

/-- The number of its proxy or its shard. -/
def PortKey.index : PortKey → Nat
  | .proxyPublic _ k | .proxyInternal _ k | .proxyMetrics _ k | .shard _ k | .shardMetrics _ k => k

/-- The base of its role, in thousands. -/
def PortKey.role : PortKey → Nat
  | .shard .. => 9
  | .proxyInternal .. => 10
  | .shardMetrics .. => 11
  | .proxyMetrics .. => 12
  | .proxyPublic .. => 13

/-- Its place above the base. -/
def PortKey.slot (net : SpecifiedLocalNetConfig) : PortKey → Nat
  | .proxyPublic v k | .proxyInternal v k | .proxyMetrics v k => v * net.numProxies + k
  | .shard v k | .shardMetrics v k => v * net.numShards + k

theorem PortKey.role_le (key : PortKey) : key.role ≤ 13 := by
  cases key <;> simp [PortKey.role]

variable {net : SpecifiedLocalNetConfig} {localhost : Network → String}

theorem ports_configurationString (v : Nat) :
    (configurationString localhost net v).ports = (net.portKeys v).map net.port := by
  simp [ValidatorConfig.ports, configurationString, SpecifiedLocalNetConfig.portKeys,
    List.flatMap_map, List.map_flatMap, SpecifiedLocalNetConfig.port]

/-- The validator's number is below `n`, and the proxy or the shard is one it has. -/
def PortKey.Within (net : SpecifiedLocalNetConfig) (n : Nat) : PortKey → Prop
  | .proxyPublic v k | .proxyInternal v k | .proxyMetrics v k => v < n ∧ k < net.numProxies
  | .shard v k | .shardMetrics v k => v < n ∧ k < net.numShards

/-- The keys of a validator are its own, of a proxy or a shard that it has. -/
theorem mem_portKeys {v : Nat} {key : PortKey} :
    key ∈ net.portKeys v ↔ key.validator = v ∧ key.Within net (v + 1) := by
  simp only [SpecifiedLocalNetConfig.portKeys, List.mem_append, List.mem_flatMap, List.mem_range,
    List.mem_cons, List.not_mem_nil, or_false]
  constructor
  · rintro (⟨k, hk, rfl | rfl | rfl⟩ | ⟨k, hk, rfl | rfl⟩) <;> exact ⟨rfl, Nat.lt_succ_self v, hk⟩
  · rintro ⟨rfl, hKey⟩
    cases key <;> simp [PortKey.validator, PortKey.Within] at hKey ⊢ <;> exact hKey

/-- Lists whose elements tell the number of their list have no element in common. -/
theorem nodup_flatMap_range {α : Type} {f : Nat → List α} (label : α → Nat)
    (hLabel : ∀ k, ∀ a ∈ f k, label a = k) (hNodup : ∀ k, (f k).Nodup) (n : Nat) :
    ((List.range n).flatMap f).Nodup := by
  refine List.nodup_flatMap.mpr ⟨fun k _ => hNodup k, List.nodup_range.imp ?_⟩
  intro k k' hNe a ha ha'
  exact hNe ((hLabel k a ha).symm.trans (hLabel k' a ha'))

theorem nodup_portKeys_one (net : SpecifiedLocalNetConfig) (v : Nat) :
    (net.portKeys v).Nodup := by
  have hProxies := nodup_flatMap_range
    (f := fun k => [PortKey.proxyPublic v k, .proxyInternal v k, .proxyMetrics v k])
    PortKey.index (by simp [PortKey.index]) (by simp) net.numProxies
  have hShards := nodup_flatMap_range
    (f := fun k => [PortKey.shard v k, .shardMetrics v k])
    PortKey.index (by simp [PortKey.index]) (by simp) net.numShards
  refine List.nodup_append'.mpr ⟨hProxies, hShards, ?_⟩
  intro key hProxy hShard
  obtain ⟨k, -, hProxy⟩ := List.mem_flatMap.mp hProxy
  obtain ⟨k', -, hShard⟩ := List.mem_flatMap.mp hShard
  simp only [List.mem_cons, List.not_mem_nil, or_false] at hProxy hShard
  rcases hProxy with rfl | rfl | rfl <;> simp at hShard

/-- The keys of all validators are different. -/
theorem nodup_portKeys (net : SpecifiedLocalNetConfig) (n : Nat) :
    ((List.range n).flatMap net.portKeys).Nodup :=
  nodup_flatMap_range PortKey.validator (fun _ _ hKey => (mem_portKeys.mp hKey).1)
    (nodup_portKeys_one net) n

-- ---------------------------------------------------------------------------
-- Slots
-- ---------------------------------------------------------------------------

/-- Slots of `count` places for each of `n` numbers are numbered below `n * count`. -/
theorem slot_lt {n count v k : Nat} (hv : v < n) (hk : k < count) : v * count + k < n * count := by
  have hRow : (v + 1) * count ≤ n * count := Nat.mul_le_mul_right count hv
  rw [Nat.succ_mul] at hRow
  omega

/-- A slot is used once. -/
theorem slot_inj {count v v' k k' : Nat} (hk : k < count) (hk' : k' < count)
    (hEq : v * count + k = v' * count + k') : v = v' ∧ k = k' := by
  have hMod : k = k' := by
    have hMod := congrArg (· % count) hEq
    simpa only [Nat.mul_add_mod_of_lt hk, Nat.mul_add_mod_of_lt hk'] using hMod
  subst hMod
  exact ⟨Nat.eq_of_mul_eq_mul_right (by omega) (Nat.add_right_cancel hEq), rfl⟩

/-- The port of a key is one of the 1000 above the base of its role. -/
theorem port_eq {n : Nat} (hShards : n * net.numShards ≤ 1000)
    (hProxies : n * net.numProxies ≤ 1000) {key : PortKey} (hKey : key.Within net n) :
    net.port key = 1000 * key.role + key.slot net + 1 ∧ key.slot net < 1000 := by
  cases key
  all_goals
    have hSlot := slot_lt hKey.1 hKey.2
    refine ⟨?_, Nat.lt_of_lt_of_le hSlot ‹_›⟩
    simp only [SpecifiedLocalNetConfig.port, SpecifiedLocalNetConfig.proxyPublicPort,
      SpecifiedLocalNetConfig.proxyInternalPort, SpecifiedLocalNetConfig.proxyMetricsPort,
      SpecifiedLocalNetConfig.shardPort, SpecifiedLocalNetConfig.shardMetricsPort, portAbove,
      FIRST_PUBLIC_PORT, PortKey.role, PortKey.slot]
    omega

/-- Role and slot tell what a port is for. -/
theorem key_eq {n : Nat} {key key' : PortKey} (hKey : key.Within net n)
    (hKey' : key'.Within net n) (hRole : key.role = key'.role)
    (hSlot : key.slot net = key'.slot net) : key = key' := by
  cases key <;> cases key' <;> simp only [PortKey.role, Nat.reduceEqDiff] at hRole
  all_goals
    obtain ⟨rfl, rfl⟩ := slot_inj hKey.2 hKey'.2 hSlot
    rfl

/-- **No collision.** With at most 1000 shards and 1000 proxies in all, two keys have two
ports. -/
theorem port_injOn {n : Nat} (hShards : n * net.numShards ≤ 1000)
    (hProxies : n * net.numProxies ≤ 1000) {key key' : PortKey} (hKey : key.Within net n)
    (hKey' : key'.Within net n) (hEq : net.port key = net.port key') : key = key' := by
  obtain ⟨hPort, hLt⟩ := port_eq hShards hProxies hKey
  obtain ⟨hPort', hLt'⟩ := port_eq hShards hProxies hKey'
  exact key_eq hKey hKey' (by omega) (by omega)

-- ---------------------------------------------------------------------------
-- The networks of `new_test`
-- ---------------------------------------------------------------------------

/-- The configuration files, key by key. -/
theorem ports_initialConfigurations :
    (initialConfigurations localhost net).flatMap ValidatorConfig.ports =
      ((List.range net.numInitialValidators).flatMap net.portKeys).map net.port := by
  simp only [initialConfigurations, List.flatMap_map, ports_configurationString, List.map_flatMap]

/-- They are the keys of every proxy and every shard of every validator. -/
theorem mem_flatMap_portKeys {n : Nat} {key : PortKey} :
    key ∈ (List.range n).flatMap net.portKeys ↔ key.Within net n := by
  simp only [List.mem_flatMap, List.mem_range, mem_portKeys]
  constructor
  · rintro ⟨v, hv, rfl, hKey⟩
    cases key <;> exact ⟨hv, hKey.2⟩
  · intro hKey
    refine ⟨key.validator, ?_, rfl, ?_⟩
    · cases key <;> exact hKey.1
    · cases key <;> exact ⟨Nat.lt_succ_self _, hKey.2⟩

theorem check_ok_iff (overflowChecks : Bool) :
    net.check overflowChecks = .ok () ↔
      0 < net.numInitialValidators ∧
        (overflowChecks = true → net.numInitialValidators * net.numShards < 2 ^ 64) ∧
        net.numInitialValidators * net.numShards % 2 ^ 64 ≤ MAX_NUMBER_SHARDS := by
  simp only [SpecifiedLocalNetConfig.check]
  split_ifs with hSome hOverflow hFew
  · simp only [false_iff]
    intro ⟨_, hNoOverflow, _⟩
    exact absurd (hNoOverflow hOverflow.1) (Nat.not_lt.mpr hOverflow.2)
  · simp only [true_iff]
    refine ⟨hSome, fun hChecks => ?_, hFew⟩
    exact Nat.lt_of_not_le fun hLarge => hOverflow ⟨hChecks, hLarge⟩
  · simp only [false_iff]
    intro ⟨_, _, hFew'⟩
    exact hFew hFew'
  · simp only [false_iff]
    intro ⟨hSome', _⟩
    exact hSome hSome'

/-- A product that is small enough passes the checks, in both kinds of build. -/
theorem check_ok (overflowChecks : Bool) (hValidators : 1 ≤ net.numInitialValidators)
    (hProduct : net.numInitialValidators * net.numShards ≤ MAX_NUMBER_SHARDS) :
    net.check overflowChecks = .ok () := by
  have hSmall : net.numInitialValidators * net.numShards < 2 ^ 64 := by
    unfold MAX_NUMBER_SHARDS at hProduct
    omega
  refine (check_ok_iff overflowChecks).mpr ⟨hValidators, fun _ => hSmall, ?_⟩
  rwa [Nat.mod_eq_of_lt hSmall]

/-- **Ports.** `new_test` with any numbers of validators and shards that are accepted: the
ports in the configuration files of the initial validators are those of every proxy and
every shard in all their roles, and they are distinct, over all roles and indices, and
below 65536. -/
theorem ports_distinct (localhost : Network → String) (overflowChecks : Bool)
    (network : Network) (n m : Nat) (hValidators : 1 ≤ n) (hShards : 1 ≤ m)
    (hProduct : n * m ≤ MAX_NUMBER_SHARDS) :
    let config := { SpecifiedLocalNetConfig.newTest network with
      numInitialValidators := n, numShards := m }
    let keys := (List.range n).flatMap config.portKeys
    config.check overflowChecks = .ok () ∧
      (initialConfigurations localhost config).flatMap ValidatorConfig.ports =
        keys.map config.port ∧
      (∀ key, key ∈ keys ↔ key.Within config n) ∧
      ((initialConfigurations localhost config).flatMap ValidatorConfig.ports).Nodup ∧
      ∀ port ∈ (initialConfigurations localhost config).flatMap ValidatorConfig.ports,
        port < 65536 := by
  intro config keys
  have hShardsLe : n * config.numShards ≤ 1000 := hProduct
  have hProxiesLe : n * config.numProxies ≤ 1000 :=
    (Nat.mul_le_mul_left n hShards).trans hProduct
  have hPorts : (initialConfigurations localhost config).flatMap ValidatorConfig.ports =
      keys.map config.port := ports_initialConfigurations
  refine ⟨check_ok overflowChecks hValidators hProduct, hPorts, fun key => mem_flatMap_portKeys,
    ?_, ?_⟩
  · rw [hPorts]
    refine List.Nodup.map_on ?_ (nodup_portKeys config n)
    intro key hKey key' hKey' hEq
    exact port_injOn hShardsLe hProxiesLe (mem_flatMap_portKeys.mp hKey)
      (mem_flatMap_portKeys.mp hKey') hEq
  · rw [hPorts]
    intro port hPort
    obtain ⟨key, hKey, rfl⟩ := List.mem_map.mp hPort
    obtain ⟨hPort, hLt⟩ := port_eq hShardsLe hProxiesLe (mem_flatMap_portKeys.mp hKey)
    have hRole := key.role_le
    omega

/-- 250 validators of four shards, which is as much as is accepted. -/
theorem ports_distinct_sample :
    1 ≤ 250 ∧ 1 ≤ 4 ∧ 250 * 4 ≤ MAX_NUMBER_SHARDS ∧
      ((initialConfigurations (fun _ => "127.0.0.1")
        { SpecifiedLocalNetConfig.newTest .grpc with
          numInitialValidators := 250, numShards := 4 }).flatMap ValidatorConfig.ports).Nodup :=
  ⟨by decide, by decide, by decide,
    (ports_distinct (fun _ => "127.0.0.1") true .grpc 250 4 (by decide) (by decide)
      (by decide)).2.2.2.1⟩

/-- There the last shard has the last port below those of the proxies. -/
example : ({ SpecifiedLocalNetConfig.newTest .grpc with
    numInitialValidators := 250 } : SpecifiedLocalNetConfig).shardPort 249 3 = 10000 := rfl

end LineraEndToEnd.LocalNet
