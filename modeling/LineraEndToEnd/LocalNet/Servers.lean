import LineraEndToEnd.LocalNet.Validators

/-!
# LocalNet — which server is terminated

The handles of the servers of a validator stand in a vector. A call names a shard,
and the vector is asked for a position. The two agree after `restart_validator`, which
starts the servers in the order of their shards; a termination moves the later ones
one position down, and `start_server` appends.

* `Sound` — the invariant: the handles of a validator are of processes that are alive
  and were started for it, in the order of the vector, one for each shard.
* `Sound.step`, `sound_run` — it holds in every run of proper calls.
* `terminateServer_exact_iff` — a call terminates the server it names exactly when
  as many servers of the validator were started before it as its shard says.
-/

namespace LineraEndToEnd.LocalNet

open Lib

variable {env : Environment} {host host' host₁ : Host} {v s : Nat} {validator : Validator}
  {cs : List Child} {c : Child} {role : Role}

-- ---------------------------------------------------------------------------
-- Servers and calls
-- ---------------------------------------------------------------------------

/-- The servers of a validator, none if it is not running. -/
def Host.servers (host : Host) (v : Nat) : List Child :=
  match host.net.runningValidators.lookup v with
  | none => []
  | some validator => validator.servers

/-- The running servers of a shard. -/
def Host.serversOf (host : Host) (v s : Nat) : List Child :=
  (host.servers v).filter fun c => c.role = .server v s

/-- How many servers of the validator were started before `c`. -/
def Host.startedBefore (host : Host) (v : Nat) (c : Child) : Nat :=
  (host.servers v).countP fun d => d.pid < c.pid

/-- A server is terminated only while it is running, and started only while it is not. -/
def Action.Proper (host : Host) : Action → Prop
  | .terminateServer v s => host.serversOf v s ≠ []
  | .startServer v s => host.serversOf v s = []
  | .startValidator _ | .restartValidator _ | .stopValidator _ => True

instance (host : Host) : DecidablePred (Action.Proper host)
  | .terminateServer v s => inferInstanceAs (Decidable (host.serversOf v s ≠ []))
  | .startServer v s => inferInstanceAs (Decidable (host.serversOf v s = []))
  | .startValidator _ | .restartValidator _ | .stopValidator _ => isTrue trivial

/-- A termination succeeds, and ends the one process that was started for the shard
and no other one; all other servers and validators are running as before. -/
def Action.Exact (env : Environment) (host : Host) : Action → Prop
  | .terminateServer v s =>
    ∃ c host', host.serversOf v s = [c] ∧ c ∈ host.alive ∧
      host.terminateServer env v s = .ok (host', .ok ()) ∧
      host'.alive = host.alive.erase c ∧ host'.servers v = (host.servers v).erase c ∧
      ∀ w, w ≠ v →
        host'.net.runningValidators.lookup w = host.net.runningValidators.lookup w
  | .startValidator _ | .restartValidator _ | .stopValidator _ | .startServer _ _ => True

/-- The server to be terminated is the one of its validator that stands where its
shard says in the order in which they were started. -/
def Action.InOrder (host : Host) : Action → Prop
  | .terminateServer v s => ∀ c ∈ host.serversOf v s, host.startedBefore v c = s
  | .startValidator _ | .restartValidator _ | .stopValidator _ | .startServer _ _ => True

instance (host : Host) : DecidablePred (Action.InOrder host)
  | .terminateServer v s =>
    inferInstanceAs (Decidable (∀ c ∈ host.serversOf v s, host.startedBefore v c = s))
  | .startValidator _ | .restartValidator _ | .stopValidator _ | .startServer _ _ =>
    isTrue trivial

-- ---------------------------------------------------------------------------
-- The invariant
-- ---------------------------------------------------------------------------

/-- The processes of a running validator. -/
structure Runs (host : Host) (v : Nat) (validator : Validator) : Prop where
  owned : ∀ c ∈ validator.children, c.role.validator = v ∧ c.pid < host.attempts
  alive : ∀ c ∈ validator.servers, c ∈ host.alive
  sorted : validator.servers.Pairwise fun c d => c.pid < d.pid
  distinct : (validator.servers.map Child.role).Nodup

/-- The invariant. -/
structure Sound (host : Host) : Prop where
  fresh : ∀ c ∈ host.alive, c.pid < host.attempts
  running : ∀ v validator, host.net.runningValidators.lookup v = some validator →
    Runs host v validator

theorem Sound.initial (numProxies numShards : Nat) : Sound (initial numProxies numShards) :=
  ⟨fun _ hc => absurd hc (Finset.notMem_empty _), fun _ _ h => nomatch h⟩

theorem Runs.mono (h : Runs host v validator) (hAttempts : host.attempts ≤ host'.attempts)
    (hAlive : ∀ c ∈ validator.servers, c ∈ host'.alive) : Runs host' v validator :=
  ⟨fun c hc => ⟨(h.owned c hc).1, Nat.lt_of_lt_of_le (h.owned c hc).2 hAttempts⟩, hAlive,
    h.sorted, h.distinct⟩

theorem Validator.mem_children_of_mem_servers (hc : c ∈ validator.servers) :
    c ∈ validator.children :=
  List.mem_append_right _ hc

/-- The processes of other validators do not concern a validator. -/
theorem Sound.of_frame (h : Sound host) (hFresh : ∀ c ∈ host'.alive, c.pid < host'.attempts)
    (hAttempts : host.attempts ≤ host'.attempts)
    (hLookup : ∀ w, w ≠ v →
      host'.net.runningValidators.lookup w = host.net.runningValidators.lookup w)
    (hAlive : ∀ c ∈ host.alive, c.role.validator ≠ v → c ∈ host'.alive)
    (hRuns : ∀ validator, host'.net.runningValidators.lookup v = some validator →
      Runs host' v validator) : Sound host' := by
  refine ⟨hFresh, ?_⟩
  intro w validator hRunning
  by_cases hw : w = v
  · subst hw
    exact hRuns validator hRunning
  · rw [hLookup w hw] at hRunning
    have hOld := h.running w validator hRunning
    refine hOld.mono hAttempts fun c hc => hAlive c (hOld.alive c hc) ?_
    rw [(hOld.owned c (Validator.mem_children_of_mem_servers hc)).1]
    exact hw

-- ---------------------------------------------------------------------------
-- Ending processes
-- ---------------------------------------------------------------------------

/-- Some of the processes `cs` have ended, and nothing else has happened. -/
structure Shrunk (cs : List Child) (host host' : Host) : Prop where
  net : host'.net = host.net
  attempts : host'.attempts = host.attempts
  gone : ∀ c ∈ host'.alive, c ∈ host.alive
  kept : ∀ c ∈ host.alive, c ∉ cs → c ∈ host'.alive

theorem Shrunk.refl (cs : List Child) (host : Host) : Shrunk cs host host :=
  ⟨rfl, rfl, fun _ hc => hc, fun _ hc _ => hc⟩

theorem Shrunk.trans (h : Shrunk cs host host₁) (h' : Shrunk cs host₁ host') :
    Shrunk cs host host' :=
  ⟨h'.net.trans h.net, h'.attempts.trans h.attempts, fun c hc => h.gone c (h'.gone c hc),
    fun c hc hNot => h'.kept c (h.kept c hc hNot) hNot⟩

theorem Shrunk.mono {cs' : List Child} (h : Shrunk cs host host') (hSub : ∀ c ∈ cs, c ∈ cs') :
    Shrunk cs' host host' :=
  ⟨h.net, h.attempts, h.gone, fun c hc hNot => h.kept c hc (mt (hSub c) hNot)⟩

theorem shrunk_drop (env : Environment) (host : Host) (cs : List Child) :
    Shrunk cs host (host.drop env cs) := by
  unfold Host.drop
  split
  · exact ⟨rfl, rfl, fun c hc => (Finset.mem_sdiff.mp hc).1,
      fun c hc hNot => Finset.mem_sdiff.mpr ⟨hc, mt List.mem_toFinset.mp hNot⟩⟩
  · exact Shrunk.refl cs host

theorem shrunk_kill (host : Host) (c : Child) (error : NetError) :
    Shrunk [c] host (host.kill c error).1 := by
  unfold Host.kill
  split
  · refine ⟨rfl, rfl, fun d hd => Finset.mem_of_mem_erase hd, fun d hd hNot => ?_⟩
    exact Finset.mem_erase.mpr ⟨fun h => hNot (List.mem_singleton.mpr h), hd⟩
  · exact Shrunk.refl [c] host

theorem shrunk_killAll (error : NetError) (host : Host) (cs : List Child) :
    Shrunk cs host (host.killAll error cs).1 := by
  induction cs generalizing host with
  | nil => exact Shrunk.refl [] host
  | cons c cs ih =>
    have hFirst : Shrunk (c :: cs) host (host.kill c error).1 :=
      (shrunk_kill host c error).mono (by simp)
    rw [Host.killAll]
    cases hKill : host.kill c error with
    | mk host₁ result =>
      rw [hKill] at hFirst
      cases result with
      | error e => exact hFirst
      | ok u => exact hFirst.trans ((ih host₁).mono fun d hd => List.mem_cons_of_mem c hd)

theorem shrunk_terminate (host : Host) (validator : Validator) :
    Shrunk validator.children host (host.terminate validator).1 := by
  have hProxies : Shrunk validator.children host
      (host.killAll .terminatingValidatorProxy validator.proxies).1 :=
    (shrunk_killAll _ host _).mono fun d hd => List.mem_append_left _ hd
  unfold Host.terminate
  cases hKill : host.killAll .terminatingValidatorProxy validator.proxies with
  | mk host₁ result =>
    rw [hKill] at hProxies
    cases result with
    | error e => exact hProxies
    | ok u =>
      exact hProxies.trans
        ((shrunk_killAll _ host₁ _).mono fun d hd => List.mem_append_right _ hd)

/-- Processes that are no running servers may end. -/
theorem Sound.shrunk (h : Sound host) (hShrunk : Shrunk cs host host')
    (hNone : ∀ v validator, host.net.runningValidators.lookup v = some validator →
      ∀ c ∈ validator.servers, c ∉ cs) : Sound host' := by
  constructor
  · intro c hc
    rw [hShrunk.attempts]
    exact h.fresh c (hShrunk.gone c hc)
  · intro v validator hRunning
    rw [hShrunk.net] at hRunning
    have hOld := h.running v validator hRunning
    exact hOld.mono hShrunk.attempts.ge fun c hc =>
      hShrunk.kept c (hOld.alive c hc) (hNone v validator hRunning c hc)

-- ---------------------------------------------------------------------------
-- Starting processes
-- ---------------------------------------------------------------------------

/-- Processes were started, and nothing else has happened. -/
structure Grown (host host' : Host) : Prop where
  net : host'.net = host.net
  attempts : host.attempts ≤ host'.attempts
  fresh : ∀ c ∈ host'.alive, c.pid < host'.attempts
  kept : ∀ c ∈ host.alive, c ∈ host'.alive

theorem Grown.trans (h : Grown host host₁) (h' : Grown host₁ host') : Grown host host' :=
  ⟨h'.net.trans h.net, Nat.le_trans h.attempts h'.attempts, h'.fresh,
    fun c hc => h'.kept c (h.kept c hc)⟩

theorem Sound.grown (h : Sound host) (hGrown : Grown host host') : Sound host' := by
  refine ⟨hGrown.fresh, ?_⟩
  intro v validator hRunning
  rw [hGrown.net] at hRunning
  have hOld := h.running v validator hRunning
  exact hOld.mono hGrown.attempts fun c hc => hGrown.kept c (hOld.alive c hc)

/-- **One process.** A handle that is returned is of a new process. -/
theorem runProcess_ok (hFresh : ∀ c ∈ host.alive, c.pid < host.attempts)
    {result : Except NetError Child} (hOk : host.runProcess env role = .ok (host', result)) :
    Grown host host' ∧ ∀ c, result = .ok c →
      c = ⟨host.attempts, role⟩ ∧ c ∈ host'.alive ∧ host'.attempts = host.attempts + 1 := by
  have hNew : (⟨host.attempts, role⟩ : Child) ∉ host.alive :=
    fun h => Nat.lt_irrefl _ (hFresh _ h)
  have hOld : ∀ c ∈ host.alive, c.pid < host.attempts + 1 :=
    fun c hc => Nat.lt_succ_of_lt (hFresh c hc)
  -- the host with the new process
  have hSpawned : Grown host { host with
      alive := insert ⟨host.attempts, role⟩ host.alive, attempts := host.attempts + 1 } := by
    refine ⟨rfl, Nat.le_succ _, fun c hc => ?_, fun c hc => Finset.mem_insert_of_mem hc⟩
    rcases Finset.mem_insert.mp hc with rfl | hc
    · exact Nat.lt_succ_self _
    · exact hOld c hc
  unfold Host.runProcess at hOk
  split at hOk
  · cases hOk
  · dsimp only at hOk
    split at hOk
    · obtain ⟨rfl, rfl⟩ := Prod.mk.inj (Except.ok.inj hOk)
      exact ⟨⟨rfl, Nat.le_succ _, hOld, fun c hc => hc⟩, fun c hc => nomatch hc⟩
    · obtain ⟨rfl, rfl⟩ := Prod.mk.inj (Except.ok.inj hOk)
      have hDrop := shrunk_drop env { host with
        alive := insert ⟨host.attempts, role⟩ host.alive, attempts := host.attempts + 1 }
        [⟨host.attempts, role⟩]
      refine ⟨⟨hDrop.net, ?_, ?_, ?_⟩, fun c hc => nomatch hc⟩
      · exact hDrop.attempts ▸ Nat.le_succ _
      · intro c hc
        rw [hDrop.attempts]
        exact hSpawned.fresh c (hDrop.gone c hc)
      · intro c hc
        have hOther : c ∉ [⟨host.attempts, role⟩] := by
          intro hSame
          exact hNew (List.mem_singleton.mp hSame ▸ hc)
        exact hDrop.kept c (hSpawned.kept c hc) hOther
    · obtain ⟨rfl, rfl⟩ := Prod.mk.inj (Except.ok.inj hOk)
      refine ⟨hSpawned, fun c hc => ?_⟩
      obtain rfl := Except.ok.inj hc
      exact ⟨rfl, Finset.mem_insert_self .., rfl⟩

/-- Handles of new processes, one for each of some roles, in this order. -/
structure Started (host host' : Host) (cs : List Child) (roles : List Role) : Prop where
  roles : cs.map Child.role <+: roles
  pids : ∀ c ∈ cs, host.attempts ≤ c.pid ∧ c.pid < host'.attempts
  alive : ∀ c ∈ cs, c ∈ host'.alive
  sorted : cs.Pairwise fun c d => c.pid < d.pid

theorem Started.nil (host host' : Host) (roles : List Role) : Started host host' [] roles :=
  ⟨List.nil_prefix, by simp, by simp, List.Pairwise.nil⟩

/-- A process before others. -/
theorem Started.cons {roles : List Role} (hNew : c = ⟨host.attempts, role⟩)
    (hAlive : c ∈ host₁.alive) (hAttempts : host₁.attempts = host.attempts + 1)
    (hGrown : Grown host₁ host') (hStarted : Started host₁ host' cs roles) :
    Started host host' (c :: cs) (role :: roles) := by
  have hPid : c.pid = host.attempts := by rw [hNew]
  have hRole : c.role = role := by rw [hNew]
  have hLater : ∀ d ∈ cs, c.pid < d.pid := by
    intro d hd
    have hStart := (hStarted.pids d hd).1
    omega
  refine ⟨?_, ?_, ?_, ?_⟩
  · rw [List.map_cons, hRole]
    exact List.cons_prefix_cons.mpr ⟨rfl, hStarted.roles⟩
  · intro d hd
    rcases List.mem_cons.mp hd with rfl | hd
    · have hMore := hGrown.attempts
      omega
    · have hLt := hLater d hd
      exact ⟨by omega, (hStarted.pids d hd).2⟩
  · intro d hd
    rcases List.mem_cons.mp hd with rfl | hd
    · exact hGrown.kept _ hAlive
    · exact hStarted.alive d hd
  · exact List.pairwise_cons.mpr ⟨hLater, hStarted.sorted⟩

/-- **A loop.** -/
theorem runAll_ok {run : Host → Nat → Except Panic (Host × Except NetError Child)}
    (role : Nat → Role) (hBody : ∀ host i, run host i = host.runProcess env (role i))
    {is : List Nat} {result : Except NetError Unit}
    (hFresh : ∀ c ∈ host.alive, c.pid < host.attempts)
    (hOk : Host.runAll run host is = .ok (host', cs, result)) :
    Grown host host' ∧ Started host host' cs (is.map role) ∧
      (result = .ok () → cs.map Child.role = is.map role) := by
  induction is generalizing host cs with
  | nil =>
    obtain ⟨rfl, rfl, rfl⟩ := by simpa [Host.runAll] using hOk
    exact ⟨⟨rfl, Nat.le_refl _, hFresh, fun _ hc => hc⟩, Started.nil .., fun _ => rfl⟩
  | cons i is ih =>
    rw [Host.runAll, bind_ok_iff] at hOk
    obtain ⟨⟨host₁, first⟩, hRun, hOk⟩ := hOk
    rw [hBody] at hRun
    obtain ⟨hGrown, hChild⟩ := runProcess_ok hFresh hRun
    cases first with
    | error e =>
      obtain ⟨rfl, rfl, rfl⟩ := by simpa only [pure_ok_iff, Prod.mk.injEq] using hOk
      exact ⟨hGrown, Started.nil .., fun h => nomatch h⟩
    | ok child =>
      obtain ⟨hNew, hAlive, hAttempts⟩ := hChild child (rfl)
      dsimp only at hOk
      rw [bind_ok_iff] at hOk
      obtain ⟨⟨host₂, children, result₂⟩, hRest, hOk⟩ := hOk
      obtain ⟨rfl, rfl, rfl⟩ := by simpa only [pure_ok_iff, Prod.mk.injEq] using hOk
      obtain ⟨hGrown', hStarted, hAll⟩ := ih hGrown.fresh hRest
      refine ⟨hGrown.trans hGrown', hStarted.cons hNew hAlive hAttempts hGrown', ?_⟩
      intro hEnd
      rw [List.map_cons, List.map_cons, hNew, hAll hEnd]

-- ---------------------------------------------------------------------------
-- Calls
-- ---------------------------------------------------------------------------

theorem Sound.stopValidator (h : Sound host) (v : Nat) : Sound (host.stopValidator env v).1 := by
  unfold Host.stopValidator
  cases hRunning : host.net.runningValidators.lookup v with
  | none => exact h
  | some validator =>
    have hEnd : Shrunk validator.children (host.removeValidator v)
        (((host.removeValidator v).terminate validator).1.drop env validator.children) :=
      (shrunk_terminate ..).trans (shrunk_drop ..)
    refine h.of_frame (v := v) ?_ hEnd.attempts.ge ?_ ?_ ?_
    · intro c hc
      exact Nat.lt_of_lt_of_eq (h.fresh c (hEnd.gone c hc)) hEnd.attempts.symm
    · intro w hw
      rw [hEnd.net]
      exact Host.lookup_removeValidator_of_ne hw
    · intro c hc hOther
      exact hEnd.kept c hc fun hMem => hOther ((h.running v validator hRunning).owned c hMem).1
    · intro validator' hRunning'
      rw [hEnd.net, Host.lookup_removeValidator_self] at hRunning'
      cases hRunning'

theorem Sound.insertValidator (h : Sound host) (hRuns : Runs host v validator) :
    Sound (host.insertValidator v validator) := by
  refine h.of_frame (v := v) h.fresh (Nat.le_refl _) ?_ ?_ ?_
  · intro w hw
    exact Host.lookup_insertValidator_of_ne validator hw
  · intro c hc _
    exact hc
  · intro validator' hRunning
    rw [Host.lookup_insertValidator_self] at hRunning
    obtain rfl := Option.some.inj hRunning
    exact hRuns.mono (Nat.le_refl _) hRuns.alive

/-- A validator takes the place of the one that ran under its number. -/
theorem Sound.replaceValidator (h : Sound host) (hRuns : Runs host v validator)
    (hNew : ∀ old, host.net.runningValidators.lookup v = some old →
      ∀ c ∈ validator.servers, c ∉ old.children) :
    Sound (host.replaceValidator env v validator) := by
  have hInserted := h.insertValidator hRuns
  unfold Host.replaceValidator
  cases hOld : host.net.runningValidators.lookup v with
  | none => exact hInserted
  | some old =>
    refine hInserted.shrunk (shrunk_drop ..) fun w validator' hRunning c hc hMem => ?_
    by_cases hw : w = v
    · subst hw
      rw [Host.lookup_insertValidator_self] at hRunning
      obtain rfl := Option.some.inj hRunning
      exact hNew old hOld c hc hMem
    · -- a process belongs to one validator
      have hOwner := ((hInserted.running w validator' hRunning).owned c
        (Validator.mem_children_of_mem_servers hc)).1
      exact hw (hOwner.symm.trans ((h.running v old hOld).owned c hMem).1)

/-- Handles of new processes are of no running server. -/
theorem Started.notMem_servers {roles : List Role} (h : Sound host)
    (hStarted : Started host host' cs roles)
    (hRunning : host.net.runningValidators.lookup v = some validator) :
    ∀ c ∈ validator.servers, c ∉ cs := by
  intro c hc hMem
  have hOld := ((h.running v validator hRunning).owned c
    (Validator.mem_children_of_mem_servers hc)).2
  have hNew := (hStarted.pids c hMem).1
  omega

theorem Started.owned {roles : List Role} (hStarted : Started host host' cs roles)
    (hRoles : ∀ role ∈ roles, role.validator = v) : ∀ c ∈ cs, c.role.validator = v :=
  fun _ hc => hRoles _ (hStarted.roles.subset (List.mem_map_of_mem hc))

/-- New processes for all proxies and then for all shards make a validator. -/
theorem Runs.of_started {proxies servers : List Child} {proxyIds : List Nat} {numShards : Nat}
    (hProxies : Started host host₁ proxies (proxyIds.map (.proxy v))) (hGrown : Grown host₁ host')
    (hServers : Started host₁ host' servers ((List.range numShards).map (.server v)))
    (hAll : servers.map Child.role = (List.range numShards).map (.server v)) :
    Runs host' v ⟨proxies, servers⟩ := by
  refine ⟨?_, hServers.alive, hServers.sorted, ?_⟩
  · intro c hc
    rcases List.mem_append.mp hc with hc | hc
    · have hOwner := hProxies.owned (v := v) (by simp [Role.validator]) c hc
      exact ⟨hOwner, Nat.lt_of_lt_of_le (hProxies.pids c hc).2 hGrown.attempts⟩
    · have hOwner := hServers.owned (v := v) (by simp [Role.validator]) c hc
      exact ⟨hOwner, (hServers.pids c hc).2⟩
  · rw [hAll]
    exact List.nodup_range.map fun _ _ hEq => (Role.server.inj hEq).2

theorem Sound.restartValidator {result : Except NetError Unit} (h : Sound host)
    (hOk : host.restartValidator env v = .ok (host', result)) : Sound host' := by
  rw [Host.restartValidator, bind_ok_iff] at hOk
  obtain ⟨⟨host₁, proxies, first⟩, hProxies, hOk⟩ := hOk
  obtain ⟨hGrown₁, hStarted₁, -⟩ :=
    runAll_ok (.proxy v) (fun _ _ => rfl) h.fresh hProxies
  have hSound₁ := h.grown hGrown₁
  dsimp only at hOk
  cases first with
  | error e =>
    obtain ⟨rfl, rfl⟩ := by simpa only [pure_ok_iff, Prod.mk.injEq] using hOk
    refine hSound₁.shrunk (shrunk_drop ..) fun w validator hRunning => ?_
    rw [hGrown₁.net] at hRunning
    exact hStarted₁.notMem_servers h hRunning
  | ok u =>
    dsimp only at hOk
    rw [bind_ok_iff] at hOk
    obtain ⟨⟨host₂, servers, second⟩, hServers, hOk⟩ := hOk
    obtain ⟨hGrown₂, hStarted₂, hAll⟩ :=
      runAll_ok (.server v) (fun _ _ => rfl) hGrown₁.fresh hServers
    have hSound₂ := hSound₁.grown hGrown₂
    dsimp only at hOk
    cases second with
    | error e =>
      obtain ⟨rfl, rfl⟩ := by simpa only [pure_ok_iff, Prod.mk.injEq] using hOk
      refine hSound₂.shrunk (shrunk_drop ..) fun w validator hRunning c hc hMem => ?_
      rw [hGrown₂.net] at hRunning
      rcases List.mem_append.mp hMem with hMem | hMem
      · rw [hGrown₁.net] at hRunning
        exact hStarted₁.notMem_servers h hRunning c hc hMem
      · exact hStarted₂.notMem_servers hSound₁ hRunning c hc hMem
    | ok u =>
      obtain ⟨rfl, rfl⟩ := by simpa only [pure_ok_iff, Prod.mk.injEq] using hOk
      have hRuns := Runs.of_started hStarted₁ hGrown₂ hStarted₂ (hAll rfl)
      refine hSound₂.replaceValidator hRuns ?_
      intro old hOld c hc hMem
      rw [hGrown₂.net] at hOld
      have hPid := ((hSound₁.running v old hOld).owned c hMem).2
      have hNew := (hStarted₂.pids c hc).1
      omega

theorem Sound.startValidator {result : Except NetError Unit} (h : Sound host)
    (hOk : host.startValidator env v = .ok (host', result)) : Sound host' := by
  -- an attempt to initialize the storage does not concern the processes
  have hTried : ∀ storages, Sound { host with
      net := { host.net with initializedValidatorStorages := storages }
      attempts := host.attempts + 1 } := by
    intro storages
    refine ⟨fun c hc => Nat.lt_succ_of_lt (h.fresh c hc), fun v validator hRunning => ?_⟩
    have hOld := h.running v validator hRunning
    exact hOld.mono (Nat.le_succ _) hOld.alive
  unfold Host.startValidator at hOk
  dsimp only at hOk
  split at hOk
  · exact (hTried _).restartValidator hOk
  · obtain ⟨rfl, -⟩ := Prod.mk.inj (Except.ok.inj hOk)
    exact hTried host.net.initializedValidatorStorages

theorem servers_of_lookup (hRunning : host.net.runningValidators.lookup v = some validator) :
    host.servers v = validator.servers := by
  unfold Host.servers
  rw [hRunning]

/-- A handle of a new process, for a shard without a server, is appended. -/
theorem Runs.addServer (h : Runs host v validator) (hRole : c.role = .server v s)
    (hAlive : c ∈ host.alive) (hPid : c.pid < host.attempts)
    (hBefore : ∀ d ∈ validator.servers, d.pid < c.pid)
    (hNone : validator.servers.filter (fun d => d.role = .server v s) = []) :
    Runs host v (validator.addServer c) := by
  refine ⟨?_, ?_, ?_, ?_⟩
  · intro d hd
    rw [Validator.children, Validator.addServer, ← List.append_assoc] at hd
    rcases List.mem_append.mp hd with hd | hd
    · exact h.owned d hd
    · rw [List.mem_singleton.mp hd, hRole]
      exact ⟨rfl, hPid⟩
  · intro d hd
    rcases List.mem_append.mp hd with hd | hd
    · exact h.alive d hd
    · rw [List.mem_singleton.mp hd]
      exact hAlive
  · refine List.pairwise_append.mpr ⟨h.sorted, List.pairwise_singleton .., ?_⟩
    intro d hd e he
    rw [List.mem_singleton.mp he]
    exact hBefore d hd
  · rw [Validator.addServer, List.map_append, List.map_singleton, hRole]
    refine List.nodup_append.mpr ⟨h.distinct, List.nodup_singleton _, ?_⟩
    intro role hOld role' hNew hEq
    obtain ⟨d, hd, rfl⟩ := List.mem_map.mp hOld
    have hShard : d.role = .server v s := hEq.trans (List.mem_singleton.mp hNew)
    have hMem : d ∈ validator.servers.filter (fun d => d.role = .server v s) :=
      List.mem_filter.mpr ⟨hd, decide_eq_true hShard⟩
    rw [hNone] at hMem
    cases hMem

/-- **Starting one server**, of a shard whose server is not running. -/
theorem Sound.startServer {result : Except NetError Unit} (h : Sound host)
    (hNone : host.serversOf v s = [])
    (hOk : host.startServer env v s = .ok (host', result)) : Sound host' := by
  rw [Host.startServer, bind_ok_iff] at hOk
  obtain ⟨⟨host₁, first⟩, hServer, hOk⟩ := hOk
  obtain ⟨hGrown, hChild⟩ := runProcess_ok h.fresh hServer
  have hSound₁ := h.grown hGrown
  dsimp only at hOk
  cases first with
  | error e =>
    obtain ⟨rfl, rfl⟩ := by simpa only [pure_ok_iff, Prod.mk.injEq] using hOk
    exact hSound₁
  | ok server =>
    obtain ⟨hNew, hAlive, hAttempts⟩ := hChild server (rfl)
    have hPid : server.pid = host.attempts := by rw [hNew]
    have hRole : server.role = .server v s := by rw [hNew]
    -- the handles that were there are of processes started before
    have hBefore : ∀ w validator, host₁.net.runningValidators.lookup w = some validator →
        ∀ c ∈ validator.children, c.pid < server.pid := by
      intro w validator hRunning c hc
      rw [hGrown.net] at hRunning
      rw [hPid]
      exact ((h.running w validator hRunning).owned c hc).2
    dsimp only at hOk
    cases hRunning : host₁.net.runningValidators.lookup v with
    | none =>
      rw [hRunning] at hOk
      obtain ⟨rfl, rfl⟩ := by simpa only [pure_ok_iff, Prod.mk.injEq] using hOk
      refine hSound₁.shrunk (shrunk_drop ..) fun w validator hRunning' c hc hMem => ?_
      have hLt := hBefore w validator hRunning' c (Validator.mem_children_of_mem_servers hc)
      rw [List.mem_singleton.mp hMem] at hLt
      exact Nat.lt_irrefl _ hLt
    | some validator =>
      rw [hRunning] at hOk
      obtain ⟨rfl, rfl⟩ := by simpa only [pure_ok_iff, Prod.mk.injEq] using hOk
      have hShard : validator.servers.filter (fun d => d.role = .server v s) = [] := by
        rw [hGrown.net] at hRunning
        rw [← servers_of_lookup hRunning]
        exact hNone
      refine hSound₁.insertValidator ((hSound₁.running v validator hRunning).addServer
        hRole hAlive ?_ ?_ hShard)
      · omega
      · intro c hc
        exact hBefore v validator hRunning c (Validator.mem_children_of_mem_servers hc)

theorem Runs.nodup (h : Runs host v validator) : validator.servers.Nodup :=
  List.Nodup.of_map _ h.distinct

/-- The process at a position has ended, and its handle is removed. -/
theorem Runs.eraseServer (h : Runs host v validator) (hServer : validator.servers[s]? = some c)
    (hAttempts : host'.attempts = host.attempts) (hAlive : host'.alive = host.alive.erase c) :
    Runs host' v { validator with servers := validator.servers.eraseIdx s } := by
  have hSub := List.eraseIdx_sublist validator.servers s
  refine ⟨?_, ?_, h.sorted.sublist hSub, h.distinct.sublist (hSub.map _)⟩
  · intro d hd
    rw [hAttempts]
    refine h.owned d ?_
    rcases List.mem_append.mp hd with hd | hd
    · exact List.mem_append_left _ hd
    · exact List.mem_append_right _ (hSub.subset hd)
  · intro d hd
    rw [hAlive]
    refine Finset.mem_erase.mpr ⟨?_, h.alive d (hSub.subset hd)⟩
    rintro rfl
    obtain ⟨hLt, rfl⟩ := List.getElem?_eq_some_iff.mp hServer
    rw [← h.nodup.erase_getElem s hLt] at hd
    exact (h.nodup.mem_erase_iff.mp hd).1 (rfl)

/-- What a termination does, when there is a server at the position. -/
theorem terminateServer_eq (h : Sound host)
    (hRunning : host.net.runningValidators.lookup v = some validator)
    (hServer : validator.servers[s]? = some c) :
    host.terminateServer env v s = .ok
      ({ host.insertValidator v { validator with servers := validator.servers.eraseIdx s } with
          alive := host.alive.erase c }, .ok ()) := by
  have hAlive : c ∈ (host.insertValidator v
      { validator with servers := validator.servers.eraseIdx s }).alive :=
    (h.running v validator hRunning).alive c (List.mem_of_getElem? hServer)
  unfold Host.terminateServer
  rw [hRunning]
  dsimp only
  rw [hServer]
  dsimp only
  rw [Host.kill, if_pos hAlive, Host.drop]
  split
  · -- the handle that is dropped is of the process that was killed
    have hGone : (host.alive.erase c) \ [c].toFinset = host.alive.erase c := by
      refine Finset.sdiff_eq_self_of_disjoint ?_
      simp
    simp only [Host.insertValidator, hGone]
  · exact rfl

theorem Sound.terminateServer {result : Except NetError Unit} (h : Sound host)
    (hOk : host.terminateServer env v s = .ok (host', result)) : Sound host' := by
  cases hRunning : host.net.runningValidators.lookup v with
  | none =>
    rw [Host.terminateServer, hRunning] at hOk
    obtain ⟨rfl, -⟩ := Prod.mk.inj (Except.ok.inj hOk)
    exact h
  | some validator =>
    cases hServer : validator.servers[s]? with
    | none =>
      rw [Host.terminateServer, hRunning] at hOk
      dsimp only at hOk
      rw [hServer] at hOk
      cases hOk
    | some c =>
      rw [terminateServer_eq h hRunning hServer] at hOk
      obtain ⟨rfl, -⟩ := Prod.mk.inj (Except.ok.inj hOk)
      have hOld := h.running v validator hRunning
      refine h.of_frame (v := v) ?_ (Nat.le_refl _) ?_ ?_ ?_
      · intro d hd
        exact h.fresh d (Finset.mem_of_mem_erase hd)
      · intro w hw
        exact Host.lookup_insertValidator_of_ne _ hw
      · intro d hd hOther
        refine Finset.mem_erase.mpr ⟨?_, hd⟩
        rintro rfl
        exact hOther (hOld.owned d (Validator.mem_children_of_mem_servers
          (List.mem_of_getElem? hServer))).1
      · intro validator' hRunning'
        rw [Host.lookup_insertValidator_self] at hRunning'
        obtain rfl := Option.some.inj hRunning'
        exact hOld.eraseServer hServer rfl rfl

/-- **Every proper call** keeps the invariant. -/
theorem Sound.step {a : Action} (h : Sound host) (hProper : a.Proper host)
    (hStep : step env host a = some host') : Sound host' := by
  unfold LocalNet.step at hStep
  cases hOk : a.perform env host with
  | error p =>
    rw [hOk] at hStep
    cases hStep
  | ok r =>
    obtain ⟨host₁, result⟩ := r
    rw [hOk] at hStep
    obtain rfl : host₁ = host' := Option.some.inj hStep
    cases a with
    | startValidator index => exact h.startValidator hOk
    | restartValidator index => exact h.restartValidator hOk
    | stopValidator index =>
      have hEnd : (host.stopValidator env index).1 = host₁ :=
        congrArg Prod.fst (Except.ok.inj hOk)
      exact hEnd ▸ h.stopValidator index
    | terminateServer v s => exact h.terminateServer hOk
    | startServer v s => exact h.startServer hProper hOk

theorem sound_run {numProxies numShards : Nat} {as : List Action}
    (hProper : Along (step env) Action.Proper (initial numProxies numShards) as)
    (hRun : run (step env) (initial numProxies numShards) as = some host) : Sound host :=
  run_invariant_along (fun _ _ _ hSound hProper hStep => hSound.step hProper hStep)
    (Sound.initial numProxies numShards) hProper hRun

-- ---------------------------------------------------------------------------
-- Positions
-- ---------------------------------------------------------------------------

/-- In a list in strict order, an element stands at the number of elements before it. -/
theorem getElem?_eq_some_iff_countP {α : Type} {f : α → Nat} {l : List α} {x : α}
    (hSorted : l.Pairwise fun a b => f a < f b) (hx : x ∈ l) (i : Nat) :
    l[i]? = some x ↔ l.countP (fun a => f a < f x) = i := by
  induction l generalizing i with
  | nil => cases hx
  | cons a l ih =>
    obtain ⟨hHead, hTail⟩ := List.pairwise_cons.mp hSorted
    rw [List.countP_cons]
    rcases List.mem_cons.mp hx with rfl | hx
    · have hNone : l.countP (fun a => f a < f x) = 0 := by
        refine List.countP_eq_zero.mpr fun b hb => ?_
        have hLt := hHead b hb
        simp only [decide_eq_true_eq]
        omega
      rw [hNone]
      cases i with
      | zero => simp
      | succ i =>
        rw [List.getElem?_cons_succ]
        refine iff_of_false (fun h => ?_) (by simp)
        exact Nat.lt_irrefl _ (hHead x (List.mem_of_getElem? h))
    · have hLt := hHead x hx
      cases i with
      | zero =>
        rw [List.getElem?_cons_zero]
        refine iff_of_false (fun h => ?_) (by simp [hLt])
        rw [Option.some.inj h] at hLt
        exact Nat.lt_irrefl _ hLt
      | succ i =>
        rw [List.getElem?_cons_succ, ih hTail hx]
        simp [hLt]

theorem Runs.filter_role (h : Runs host v validator) (hc : c ∈ validator.servers) :
    validator.servers.filter (fun d => d.role = c.role) = [c] := by
  have hSame : ∀ d ∈ validator.servers, (decide (d.role = c.role)) = decide (d = c) := by
    intro d hd
    refine decide_eq_decide.mpr ⟨fun hRole => ?_, fun hEq => hEq ▸ rfl⟩
    exact List.inj_on_of_nodup_map h.distinct hd hc hRole
  rw [List.filter_congr hSame, List.filter_eq, List.count_eq_one_of_mem h.nodup hc,
    List.replicate_one]

/-- **One termination.** -/
theorem exact_iff_inOrder (h : Sound host) {a : Action} (hProper : a.Proper host) :
    a.Exact env host ↔ a.InOrder host := by
  cases a with
  | startValidator | restartValidator | stopValidator | startServer =>
    exact iff_of_true trivial trivial
  | terminateServer v s =>
    obtain ⟨c, hc⟩ := List.exists_mem_of_ne_nil _ hProper
    obtain ⟨hServer, hRole⟩ := List.mem_filter.mp hc
    have hRole : c.role = .server v s := of_decide_eq_true hRole
    cases hRunning : host.net.runningValidators.lookup v with
    | none =>
      rw [Host.servers, hRunning] at hServer
      cases hServer
    | some validator =>
      have hServers := servers_of_lookup hRunning
      rw [hServers] at hServer
      have hRuns := h.running v validator hRunning
      have hOne : host.serversOf v s = [c] := by
        rw [Host.serversOf, hServers, ← hRole]
        exact hRuns.filter_role hServer
      have hPosition : validator.servers[s]? = some c ↔ host.startedBefore v c = s := by
        rw [Host.startedBefore, hServers]
        exact getElem?_eq_some_iff_countP hRuns.sorted hServer s
      constructor
      · rintro ⟨c', host', hOne', hAlive, hOk, hEnded, -, -⟩ d hd
        rw [hOne] at hOne' hd
        obtain rfl : c = c' := by simpa using hOne'
        rw [List.mem_singleton.mp hd]
        cases hGet : validator.servers[s]? with
        | none =>
          rw [Host.terminateServer, hRunning] at hOk
          dsimp only at hOk
          rw [hGet] at hOk
          cases hOk
        | some server =>
          -- the process that ended is the one at the position
          rw [terminateServer_eq h hRunning hGet] at hOk
          obtain ⟨rfl, -⟩ := Prod.mk.inj (Except.ok.inj hOk)
          have hSame : c = server := by
            by_contra hNe
            have hMem : c ∈ host.alive.erase c := hEnded ▸ Finset.mem_erase.mpr ⟨hNe, hAlive⟩
            exact (Finset.mem_erase.mp hMem).1 (rfl)
          exact hPosition.mp (hSame ▸ hGet)
      · intro hInOrder
        have hGet := hPosition.mpr (hInOrder c hc)
        refine ⟨c, _, hOne, hRuns.alive c hServer, terminateServer_eq h hRunning hGet,
          rfl, ?_, fun w hw => Host.lookup_insertValidator_of_ne _ hw⟩
        obtain ⟨hLt, rfl⟩ := List.getElem?_eq_some_iff.mp hGet
        rw [hServers, hRuns.nodup.erase_getElem s hLt]
        exact servers_of_lookup (Host.lookup_insertValidator_self _)

/-- **Which server `terminate_server` terminates.** In a run of proper calls, a
termination ends the process of the shard it names, and nothing else, exactly when as
many of the validator's servers were started before that process as the shard says.
So every termination of a run is right when each meets this condition. -/
theorem terminateServer_exact_iff {env : Environment} {numProxies numShards : Nat}
    {as : List Action}
    (hProper : Along (step env) Action.Proper (initial numProxies numShards) as) :
    (∀ before a after host, as = before ++ a :: after →
      run (step env) (initial numProxies numShards) before = some host →
      (a.Exact env host ↔ a.InOrder host)) ∧
    (Along (step env) Action.InOrder (initial numProxies numShards) as →
      Along (step env) (Action.Exact env) (initial numProxies numShards) as) := by
  have hEach : ∀ before a after host, as = before ++ a :: after →
      run (step env) (initial numProxies numShards) before = some host →
      (a.Exact env host ↔ a.InOrder host) := by
    intro before a after host hSplit hRun
    have hBefore : Along (step env) Action.Proper (initial numProxies numShards) before := by
      refine along_iff.mpr fun pre b post t hPre hRunPre => ?_
      refine along_iff.mp hProper pre b (post ++ a :: after) t ?_ hRunPre
      rw [hSplit, hPre, List.append_assoc, List.cons_append]
    exact exact_iff_inOrder (sound_run hBefore hRun)
      (along_iff.mp hProper before a after host hSplit hRun)
  refine ⟨hEach, fun hInOrder => along_iff.mpr fun before a after host hSplit hRun => ?_⟩
  exact (hEach before a after host hSplit hRun).mpr
    (along_iff.mp hInOrder before a after host hSplit hRun)

/-- Every process becomes healthy, and is killed when its handle is dropped. -/
def sampleEnvironment : Environment :=
  { launch := fun _ => .healthy, initializes := fun _ => true, killOnDrop := true }

/-- A validator is started, and its last server is terminated, started again and
terminated again. -/
def sampleCalls : List Action :=
  [.startValidator 0, .terminateServer 0 3, .startServer 0 3, .terminateServer 0 3]

theorem terminateServer_exact_iff_sample :
    Along (step sampleEnvironment) (Action.Exact sampleEnvironment) (initial 1 4) sampleCalls :=
  (terminateServer_exact_iff (by decide)).2 (by decide)

/-- The second of two terminations ends the server of the shard `2` in place of the one
of the shard `1`. -/
theorem terminateServer_ends_another :
    Along (step sampleEnvironment) Action.Proper (initial 1 4)
      [.startValidator 0, .terminateServer 0 0, .terminateServer 0 1] ∧
    ∃ host host', run (step sampleEnvironment) (initial 1 4)
        [.startValidator 0, .terminateServer 0 0] = some host ∧
      host.serversOf 0 1 = [⟨3, .server 0 1⟩] ∧ host.serversOf 0 2 = [⟨4, .server 0 2⟩] ∧
      host.terminateServer sampleEnvironment 0 1 = .ok (host', .ok ()) ∧
      ⟨3, .server 0 1⟩ ∈ host'.alive ∧ ⟨4, .server 0 2⟩ ∉ host'.alive ∧
      ¬ (Action.terminateServer 0 1).Exact sampleEnvironment host := by
  have hRun : run (step sampleEnvironment) (initial 1 4)
      [.startValidator 0, .terminateServer 0 0] = some _ := rfl
  refine ⟨by decide, _, _, hRun, by decide, by decide, rfl, by decide, by decide, ?_⟩
  rw [exact_iff_inOrder (sound_run (by decide) hRun) (by decide)]
  decide

end LineraEndToEnd.LocalNet
