import AegisFlow.Config.AppConfig

/-!
# What is loaded is accepted

The handler copies the limits of a configuration to its components (`normalizeConfig`) and checks
the result (`validConfig`); the group of loops, each loop, its mailboxes, its sessions, the pools
and the timer check their parts again when they are made.  The conditions are written in different
files over the same sizes.

* `LimitsDerived.validLimits` : the limits that were derived pass, because the timer needs twice as
  many entries as there are connections, so that even the connections of all loops, rounded up, are
  a size;
* `ComponentsAccept` : the checks of the components;
* `configuration_accepted` : **a configuration that was loaded is not refused later**.
-/

namespace AegisFlow

/-! ### The handler -/

/-- Copy the limits to the components.  The arguments are the two responses a loop sends on its
own. -/
def normalizeConfig (overloadFrame businessTimeoutFrame : Bytes) (config : HandlerConfig) :
    HandlerConfig :=
  { config with
    workerPool := { config.workerPool with queueCapacity := config.limits.businessQueueCapacity }
    eventLoops := { config.eventLoops with
      maxConnections := config.limits.maxConnections
      maxConnectionsPerLoop := config.limits.maxConnectionsPerLoop
      connectionQueueCapacity := config.limits.connectionQueueCapacity
      eventLoop := { config.eventLoops.eventLoop with
        maxConnections := config.limits.maxConnectionsPerLoop
        completionCapacity := config.limits.completionQueueCapacity
        completionByteCapacity := config.limits.completionQueueByteCapacity
        maxCompletionBytes := config.limits.maxOutputBufferBytes
        overloadResponseFrame := overloadFrame
        businessTimeoutResponseFrame := businessTimeoutFrame
        deadlines := config.deadlines
        session := {
          maxFramePayloadBytes := config.limits.maxFramePayloadBytes
          inputSoftWatermarkBytes := config.limits.inputSoftWatermarkBytes
          maxInputBufferBytes := config.limits.maxInputBufferBytes
          outputSoftWatermarkBytes := config.limits.outputSoftWatermarkBytes
          maxOutputBufferBytes := config.limits.maxOutputBufferBytes } } }
    acceptor := { config.acceptor with maxConnections := config.limits.maxConnections }
    blacklistMaintenance := { config.blacklistMaintenance with
      batchSize := config.blacklistCache.batchSize } }

/-- A duration of at most a day. -/
def positiveTimeout (value : ℕ) : Bool := decide (0 < value) && decide (value ≤ kDayMs)

namespace HandlerConfig

/-- The configurations the handler accepts. -/
def validConfig [Inet] (config : HandlerConfig) : Bool :=
  if config.workerPool.threadCount = 0 ∨ config.workerPool.queueCapacity = 0 ∨
      config.maintenancePool.threadCount ≠ 1 ∨ config.maintenancePool.queueCapacity = 0 ∨
      LoginFeatureStore.isValidReclamationConfig config.featureReclamation = false ∨
      positiveTimeout config.featureStateMaintenance.cleanupInterval = false ∨
      positiveTimeout config.blacklistMaintenance.maintenanceInterval = false ∨
      positiveTimeout config.blacklistMaintenance.maintenanceTimeout = false ∨
      positiveTimeout config.blacklistMaintenance.expireCleanupInterval = false ∨
      config.blacklistMaintenance.batchSize = 0 ∨
      config.blacklistMaintenance.candidateBatchSize = 0 ∨ config.candidateQueueCapacity = 0 ∨
      config.candidateQueueCapacity < config.blacklistMaintenance.candidateBatchSize ∨
      positiveTimeout config.blacklistCache.startupTimeout = false ∨
      config.blacklistCache.batchSize = 0 ∨
      positiveTimeout config.blacklistCache.resetTimeout = false ∨
      config.redis.host = [] ∨ config.redis.port = 0 ∨ 15 < config.redis.database ∨
      config.redis.keyPrefix = [] ∨ config.redis.connectTimeout = 0 ∨
      config.redis.commandTimeout = 0 ∨
      (config.redis.username ≠ [] ∧ config.redis.password = []) ∨
      config.eventLoops.loopCount = 0 ∨ 2 ^ 32 - 1 < config.eventLoops.loopCount ∨
      config.eventLoops.eventLoop.maxEvents = 0 ∨
      config.eventLoops.eventLoop.readScratchBytes = 0 ∨
      config.eventLoops.eventLoop.completionCapacity = 0 ∨
      config.eventLoops.eventLoop.completionByteCapacity = 0 ∨ config.acceptor.backlog ≤ 0 ∨
      config.deadlines.enabled = false ∨ positiveTimeout config.deadlines.idleTimeout = false ∨
      positiveTimeout config.deadlines.readTimeout = false ∨
      positiveTimeout config.deadlines.writeTimeout = false ∨
      positiveTimeout config.deadlines.businessTimeout = false ∨
      positiveTimeout config.shutdownGraceTimeout = false ∨
      validLimits config.limits config.eventLoops.loopCount config.workerPool.threadCount = false
    then false
  else decide (listensOn config.acceptor.bindAddress) &&
    decide (validateLoginPolicyConfig config.policy = .ok ())

end HandlerConfig

/-! ### The components -/

/-- The address the acceptor listens on is valid, and so are its bounds. -/
def checkedAddress [Inet] (config : AcceptorLoopConfig) : Bool :=
  if config.bindAddress = [] ∨ config.backlog ≤ 0 ∨ config.maxConnections = 0 ∨
      config.maxEvents = 0 ∨ 2 ^ 31 - 1 < config.maxEvents then false
  else decide (listensOn config.bindAddress)

/-- The checks that the components of a handler make. -/
structure ComponentsAccept [Inet] (config : HandlerConfig) : Prop where
  handler : config.validConfig = true
  limits : validLimits config.limits config.eventLoops.loopCount config.workerPool.threadCount =
    true
  group : checkedGroupConfig config.eventLoops = some config.eventLoops
  loop : checkedEventLoopConfig config.eventLoops.eventLoop = some config.eventLoops.eventLoop
  session : config.eventLoops.eventLoop.session.validConfig = true
  mailbox : (LoopMailbox.create config.eventLoops.eventLoop.completionCapacity
    config.eventLoops.eventLoop.completionByteCapacity
    config.eventLoops.eventLoop.maxCompletionBytes).isSome = true
  /-- The mailboxes for connections and timeouts have room. -/
  queues : config.eventLoops.connectionQueueCapacity ≠ 0 ∧
    config.eventLoops.eventLoop.maxConnections ≠ 0
  pools : config.workerPool.validConfig = true ∧ config.maintenancePool.validConfig = true
  acceptor : checkedAddress config.acceptor = true
  maintenance : validConfig config.blacklistMaintenance = true

theorem positiveTimeout_of_duration {value : ℕ} (h : Duration value) :
    positiveTimeout value = true := by
  unfold positiveTimeout
  rw [Bool.and_eq_true, decide_eq_true_eq, decide_eq_true_eq]
  exact ⟨Nat.pos_of_ne_zero h.1, h.2⟩

namespace LimitsDerived

variable {loopCount threadCount : ℕ} {limits : LimitsConfig}

section

variable (h : LimitsDerived loopCount threadCount limits)
include h

/-- All loops together take all connections. -/
theorem connections_le_product (hloops : loopCount ≠ 0) :
    limits.maxConnections ≤ loopCount * limits.maxConnectionsPerLoop := by
  have hdivision := Nat.div_add_mod limits.maxConnections loopCount
  have hrest := Nat.mod_lt limits.maxConnections (Nat.pos_of_ne_zero hloops)
  rw [h.perLoop, Nat.mul_add]
  split
  · omega
  · omega

theorem perLoop_ne_zero (hloops : loopCount ≠ 0) : limits.maxConnectionsPerLoop ≠ 0 := by
  intro hzero
  have hproduct := h.connections_le_product hloops
  rw [hzero, Nat.mul_zero] at hproduct
  exact h.connections (Nat.le_zero.mp hproduct)

/-- All loops together take less than one more connection each. -/
theorem product_le :
    loopCount * limits.maxConnectionsPerLoop ≤ limits.maxConnections + loopCount := by
  have hdivision := Nat.div_add_mod limits.maxConnections loopCount
  rw [h.perLoop, Nat.mul_add]
  split
  · omega
  · omega

/-- The connections of all loops, rounded up, are a size if twice the connections are. -/
theorem product_le_sizeMax (hloops : loopCount ≤ 2 ^ 32 - 1)
    (htimers : limits.maxConnections + limits.maxConnections ≤ sizeMax) :
    loopCount * limits.maxConnectionsPerLoop ≤ 2 ^ 64 - 1 := by
  have hproduct := h.product_le
  unfold sizeMax at htimers
  omega

/-- The derived limits pass the check. -/
theorem validLimits (hloops : loopCount ≠ 0) (hloops_le : loopCount ≤ 2 ^ 32 - 1)
    (htimers : limits.maxConnections + limits.maxConnections ≤ sizeMax) :
    validLimits limits loopCount threadCount = true := by
  have hperLoop := h.perLoop_ne_zero hloops
  have hproduct := h.connections_le_product hloops
  have hfits : limits.maxConnectionsPerLoop ≤ (2 ^ 64 - 1) / loopCount := by
    rw [Nat.le_div_iff_mul_le (Nat.pos_of_ne_zero hloops), Nat.mul_comm]
    exact h.product_le_sizeMax hloops_le htimers
  obtain ⟨hconnections, -, -, hqueue, hthreads, hbusiness, hcoverage, hcompletions, hpayload,
    hinput, houtput, hinputSoft, houtputSoft, hbytes⟩ := h
  unfold sizeMax at hcoverage
  have hheader : kFrameHeaderSize = 4 := rfl
  have hmaximum : kMaxPayloadSize = 1048576 := rfl
  unfold AegisFlow.validLimits
  dsimp only
  rw [if_neg (by omega), if_neg (by omega), if_neg (by omega)]

/-- The group accepts its part. -/
theorem checkedGroupConfig (hloops : loopCount ≠ 0) (hloops_le : loopCount ≤ 2 ^ 32 - 1)
    {group : EventLoopGroupConfig} (hcount : group.loopCount = loopCount)
    (hconnections : group.maxConnections = limits.maxConnections)
    (hperLoop : group.maxConnectionsPerLoop = limits.maxConnectionsPerLoop)
    (hqueue : group.connectionQueueCapacity = limits.connectionQueueCapacity) :
    checkedGroupConfig group = some group := by
  have hproduct := h.connections_le_product hloops
  have hpositive := h.perLoop_ne_zero hloops
  have hqueueEq := h.connectionQueue
  have hne := h.connections
  unfold AegisFlow.checkedGroupConfig
  dsimp only
  rw [if_neg]
  rw [hcount, hconnections, hperLoop, hqueue]
  simp only [Bool.and_eq_true, Bool.not_eq_true', decide_eq_true_eq, not_or]
  refine ⟨hloops, by omega, hne, hpositive, by omega, by omega, fun hbad => ?_⟩
  omega

end

end LimitsDerived

/-! ### What was loaded -/

section Accepted

variable [Inet] {app : AppConfig}

theorem Configured.validLimits (h : Configured app) :
    validLimits app.handler.limits app.handler.eventLoops.loopCount
      app.handler.workerPool.threadCount = true :=
  h.limits.validLimits h.loops.1 h.loops.2 h.timer.2.2.2

theorem Configured.validConfig (h : Configured app) (overloadFrame businessTimeoutFrame : Bytes) :
    (normalizeConfig overloadFrame businessTimeoutFrame app.handler).validConfig = true := by
  have hlimits := h.limits
  obtain ⟨-, hlistens, hbacklog, -⟩ := h.acceptor
  obtain ⟨henabled, hidle, hread, hwrite, hbusiness⟩ := h.deadlines
  obtain ⟨huser, hip, hdevice⟩ := h.reclamation
  obtain ⟨hstartup, hbatch, hreset⟩ := h.cache
  obtain ⟨hinterval, htimeout, hexpire, -, hcandidates, hcandidateBatch, hcandidateLe⟩ :=
    h.maintenance
  obtain ⟨hhost, hport, hdatabase, hkey, hconnect, hcommand, hlogin⟩ := h.redis
  have hreclamation :
      LoginFeatureStore.isValidReclamationConfig app.handler.featureReclamation = true := by
    simp only [LoginFeatureStore.isValidReclamationConfig, Bool.and_eq_true, decide_eq_true_eq]
    exact ⟨⟨huser, hip⟩, hdevice⟩
  have hpool := h.maintenancePool
  have hloop := h.eventLoop
  have hcompletions := hlimits.completions
  have hbytes := hlimits.bytes
  unfold HandlerConfig.validConfig
  rw [if_neg]
  · change (decide (listensOn app.handler.acceptor.bindAddress) &&
      decide (validateLoginPolicyConfig app.handler.policy = .ok ())) = true
    rw [decide_eq_true hlistens, decide_eq_true h.policy]
    rfl
  · simp only [normalizeConfig, not_or]
    rw [hpool, hloop]
    simp only [hreclamation, positiveTimeout_of_duration h.cleanup,
      positiveTimeout_of_duration hinterval, positiveTimeout_of_duration htimeout,
      positiveTimeout_of_duration hexpire, positiveTimeout_of_duration hstartup,
      positiveTimeout_of_duration hreset, positiveTimeout_of_duration hidle,
      positiveTimeout_of_duration hread, positiveTimeout_of_duration hwrite,
      positiveTimeout_of_duration hbusiness, positiveTimeout_of_duration h.grace, henabled,
      h.validLimits, Bool.true_eq_false, not_false_eq_true, and_true, true_and]
    exact ⟨hlimits.threads, hlimits.queue, not_not.mpr rfl, by decide, hbatch, hcandidateBatch,
      hcandidates, hcandidateLe.not_gt, hbatch, hhost, hport, hdatabase.not_gt, hkey, hconnect.1,
      hcommand.1, hlogin, h.loops.1, h.loops.2.not_gt, by decide, by decide, by omega, by omega,
      by omega⟩

theorem Configured.componentsAccept (h : Configured app)
    (overloadFrame businessTimeoutFrame : Bytes) :
    ComponentsAccept (normalizeConfig overloadFrame businessTimeoutFrame app.handler) := by
  have hlimits := h.limits
  have hperLoop := hlimits.perLoop_ne_zero h.loops.1
  obtain ⟨haddress, hlistens, hbacklog, hevents⟩ := h.acceptor
  obtain ⟨hinterval, htimeout, hexpire, -, -, hcandidateBatch, -⟩ := h.maintenance
  have hqueue := hlimits.connectionQueue
  have hcompletions := hlimits.completions
  have hbytes := hlimits.bytes
  have hpayload := hlimits.payload
  have hinput := hlimits.input
  have houtput := hlimits.output
  have hinputSoft := hlimits.inputSoft
  have houtputSoft := hlimits.outputSoft
  have hheader : kFrameHeaderSize = 4 := rfl
  refine ⟨h.validConfig overloadFrame businessTimeoutFrame, h.validLimits,
    hlimits.checkedGroupConfig h.loops.1 h.loops.2 rfl rfl rfl rfl, ?_, ?_, ?_, ?_, ?_, ?_, ?_⟩
  · unfold checkedEventLoopConfig
    rw [if_neg]
    simp only [normalizeConfig, h.eventLoop]
    omega
  · simp only [SessionConfig.validConfig, Bool.and_eq_true, decide_eq_true_eq]
    dsimp only [normalizeConfig]
    omega
  · unfold LoopMailbox.create
    rw [if_neg]
    · rfl
    · simp only [normalizeConfig]
      omega
  · simp only [normalizeConfig]
    omega
  · rw [normalizeConfig, h.maintenancePool]
    simp only [BoundedWorkerPoolConfig.validConfig, Bool.and_eq_true, decide_eq_true_eq]
    have hthreads := hlimits.threads
    have hbusiness := hlimits.queue
    omega
  · unfold checkedAddress
    have hconnections := hlimits.connections
    rw [if_neg]
    · exact decide_eq_true hlistens
    · simp only [normalizeConfig, hbacklog, hevents, not_or]
      exact ⟨haddress, by decide, hconnections, by decide, by decide⟩
  · have hbatch := h.cache.2.1
    unfold Duration kDayMs at hinterval htimeout hexpire
    simp only [AegisFlow.validConfig, Bool.and_eq_true, decide_eq_true_eq]
    dsimp only [normalizeConfig]
    omega

/-- **A configuration that was loaded is not refused later.**  No capacity derived from the file
overflowed, and the handler and its components accept what the handler makes of the configuration,
as do the logger and the timer. -/
theorem configuration_accepted [TableOrder] {path : Bytes} {file : Option Bytes}
    (h : loadAppConfig path file = .ok app) (overloadFrame businessTimeoutFrame : Bytes) :
    LimitsDerived app.handler.eventLoops.loopCount app.handler.workerPool.threadCount
      app.handler.limits ∧
    app.handler.eventLoops.loopCount * app.handler.limits.maxConnectionsPerLoop ≤ sizeMax ∧
    (app.timer.commandCapacity = max 4096
        (app.handler.limits.businessQueueCapacity + app.handler.eventLoops.loopCount) ∧
      app.timer.commandCapacity ≤ sizeMax) ∧
    (app.timer.timerCapacity = max 1024
        (app.handler.limits.maxConnections + app.handler.limits.maxConnections) ∧
      app.timer.timerCapacity ≤ sizeMax) ∧
    ComponentsAccept (normalizeConfig overloadFrame businessTimeoutFrame app.handler) ∧
    Logger.validConfig app.logger = true ∧ TimerCore.validConfig app.timer = true := by
  have hloaded := loadAppConfig_spec h
  obtain ⟨hcommands, hcommandsLe, htimers, htimersLe⟩ := hloaded.timer
  have hproduct := hloaded.limits.product_le_sizeMax hloaded.loops.2 htimersLe
  unfold sizeMax at hcommandsLe htimersLe ⊢
  refine ⟨hloaded.limits, hproduct, ⟨hcommands, by omega⟩, ⟨htimers, by omega⟩,
    hloaded.componentsAccept overloadFrame businessTimeoutFrame, hloaded.logger, ?_⟩
  simp only [TimerCore.validConfig, Bool.and_eq_true, decide_eq_true_eq]
  omega

end Accepted

section Example

/-- A platform that knows the address of all interfaces. -/
local instance anyInet : Inet where
  pton4 text := if text = ascii "0.0.0.0" then some [0, 0, 0, 0] else none
  pton6 _ := none
  ntop4 _ := none
  ntop6 _ := none

/-- A table that is visited in the order of the file. -/
local instance fileOrder : TableOrder where
  visit entries := entries
  perm := List.Perm.refl

/-- A file that gives the number of loops and of connections. -/
def threeLoopsFile : Bytes :=
  ascii "# loops\nserver.io_threads = 3\nserver.max_connections = 100\n"

/-- What is loaded from it: the connections are shared out, the rest has its default. -/
def threeLoops : AppConfig where
  timer := { commandCapacity := 4096, timerCapacity := 1024 }
  handler := {
    eventLoops := { loopCount := 3 }
    limits := { maxConnections := 100, maxConnectionsPerLoop := 34, connectionQueueCapacity := 34 }
    deadlines := {
      enabled := true
      idleTimeout := 30000
      readTimeout := 10000
      writeTimeout := 10000
      businessTimeout := 2000 } }

/-- The theorem for this file. -/
theorem configuration_accepted_three_loops :
    loadAppConfig [] (some threeLoopsFile) = .ok threeLoops ∧ 3 * 34 ≤ sizeMax ∧
      ComponentsAccept (normalizeConfig [1] [2] threeLoops.handler) := by
  have hload : loadAppConfig [] (some threeLoopsFile) = .ok threeLoops := by decide +kernel
  obtain ⟨-, hproduct, -, -, haccept, -⟩ := configuration_accepted hload [1] [2]
  exact ⟨hload, hproduct, haccept⟩

end Example

end AegisFlow
