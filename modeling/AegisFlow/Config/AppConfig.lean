import AegisFlow.App.MaintenanceCore
import AegisFlow.Config.RawConfig
import AegisFlow.Feature.FeatureStore
import AegisFlow.Net.Coverage
import AegisFlow.Net.EventLoopGroup
import AegisFlow.Timer.TimerCore

/-!
# The configuration of the server

`loadAppConfig` reads the file, fills in defaults and derives the capacities that follow from the
ones that are given.  The parts are read in the order of the program, so that a file with several
mistakes is refused for the first one.

* `loadLimits` : the limits of the network side, most of them derived;
* `LimitsDerived`, `loadLimits_spec` : what they are;
* `Configured`, `loadAppConfig_spec` : **what is known of a configuration that was loaded**.
-/

namespace AegisFlow

/-! ### Parts -/

/-- The thresholds of the login policy. -/
structure LoginPolicyConfig where
  userFailureReviewThreshold : ℕ := 5
  ipSprayReviewThreshold : ℕ := 20
  deviceSharingReviewThreshold : ℕ := 10
  ipDistinctRejectThreshold : ℕ := 50
  ipFailureRejectThreshold : ℕ := 500
  deriving DecidableEq, Repr

/-- Thresholds are positive, in order, and within what a distinct counter can hold. -/
def validateLoginPolicyConfig (config : LoginPolicyConfig) : Loaded Unit := do
  require (config.userFailureReviewThreshold ≠ 0 ∧ config.ipSprayReviewThreshold ≠ 0 ∧
    config.deviceSharingReviewThreshold ≠ 0 ∧ config.ipDistinctRejectThreshold ≠ 0 ∧
    config.ipFailureRejectThreshold ≠ 0) (utf8 "登录策略阈值必须大于 0")
  require (config.ipSprayReviewThreshold ≤ config.ipDistinctRejectThreshold)
    (utf8 "IP 拒绝 distinct 阈值不得小于复核阈值")
  require (config.ipSprayReviewThreshold ≤ LoginFeatureStore.kDistinctMaxMembers ∧
    config.deviceSharingReviewThreshold ≤ LoginFeatureStore.kDistinctMaxMembers ∧
    config.ipDistinctRejectThreshold ≤ LoginFeatureStore.kDistinctMaxMembers)
    (utf8 "登录 distinct 策略阈值超过成员上限")

/-- The size of a worker pool. -/
structure BoundedWorkerPoolConfig where
  threadCount : ℕ := 4
  queueCapacity : ℕ := 1024
  deriving DecidableEq, Repr

def BoundedWorkerPoolConfig.validConfig (config : BoundedWorkerPoolConfig) : Bool :=
  decide (0 < config.threadCount) && decide (0 < config.queueCapacity)

/-- The connection to the database of the tables. -/
structure MysqlConfig where
  host : Bytes := ascii "127.0.0.1"
  port : ℕ := 3306
  user : Bytes := ascii "aegisflow"
  password : Bytes := []
  database : Bytes := ascii "aegisflow"
  deriving DecidableEq, Repr

/-- The connection to the remote store; durations in milliseconds. -/
structure RedisConfig where
  host : Bytes := ascii "127.0.0.1"
  port : ℕ := 6379
  username : Bytes := []
  password : Bytes := []
  database : ℕ := 0
  connectTimeout : ℕ := 1000
  commandTimeout : ℕ := 1000
  keyPrefix : Bytes := ascii "aegisflow:blacklist"
  deriving DecidableEq, Repr

/-- How the blacklist is loaded at the start; durations in milliseconds. -/
structure BlacklistCacheBootstrapConfig where
  startupTimeout : ℕ := 10000
  batchSize : ℕ := 100
  resetTimeout : ℕ := 10000
  deriving DecidableEq, Repr

/-- How often cold states are reclaimed, in milliseconds. -/
structure FeatureStateMaintenanceConfig where
  cleanupInterval : ℕ := 60000
  deriving DecidableEq, Repr

/-- Where the server listens. -/
structure AcceptorLoopConfig where
  bindAddress : Bytes := ascii "0.0.0.0"
  port : ℕ := 8080
  backlog : ℤ := 512
  maxConnections : ℕ := 65536
  maxEvents : ℕ := 16
  deriving DecidableEq, Repr

/-- The configuration of the handler. -/
structure HandlerConfig where
  policy : LoginPolicyConfig := {}
  mysql : MysqlConfig := {}
  redis : RedisConfig := {}
  blacklistCache : BlacklistCacheBootstrapConfig := {}
  workerPool : BoundedWorkerPoolConfig := {}
  maintenancePool : BoundedWorkerPoolConfig := { threadCount := 1, queueCapacity := 64 }
  featureReclamation : FeatureStateReclamationConfig := ⟨600000, 1200000, 1200000⟩
  featureStateMaintenance : FeatureStateMaintenanceConfig := {}
  blacklistMaintenance : BlacklistMaintenanceConfig := ⟨1000, 3000, 60000, 100, 256⟩
  candidateQueueCapacity : ℕ := 4096
  limits : LimitsConfig := {}
  eventLoops : EventLoopGroupConfig := {}
  acceptor : AcceptorLoopConfig := {}
  deadlines : SessionDeadlineConfig := ⟨true, 30000, 5000, 10000, 2000⟩
  shutdownGraceTimeout : ℕ := 5000
  deriving DecidableEq, Repr

/-- The configuration of the server. -/
structure AppConfig where
  logger : LoggerConfig := {}
  timer : TimerCoreConfig := {}
  handler : HandlerConfig := {}
  deriving DecidableEq, Repr

/-! ### Loading -/

/-- The keys a file may have. -/
def kServerConfigKeys : List String := [
  "log.level", "log.file", "log.queue_capacity", "log.flush_interval_ms",
  "server.host", "server.port", "server.io_threads", "server.max_connections",
  "server.max_frame_payload_bytes", "server.idle_timeout_ms", "server.io_timeout_ms",
  "server.business_timeout_ms", "server.shutdown_grace_timeout_ms",
  "worker_pool.threads", "worker_pool.queue_capacity",
  "maintenance.interval_ms", "maintenance.user_state_ttl_ms", "maintenance.ip_state_ttl_ms",
  "maintenance.device_state_ttl_ms",
  "policy.user_failure_review_threshold", "policy.ip_spray_review_threshold",
  "policy.device_sharing_review_threshold", "policy.ip_distinct_reject_threshold",
  "policy.ip_failure_reject_threshold",
  "mysql.host", "mysql.port", "mysql.user", "mysql.password", "mysql.database",
  "blacklist.startup_timeout_ms", "blacklist.batch_size", "blacklist.reset_timeout_ms",
  "blacklist.maintenance_interval_ms", "blacklist.maintenance_timeout_ms",
  "blacklist.expire_cleanup_interval_ms", "blacklist.candidate_queue_capacity",
  "blacklist.candidate_batch_size",
  "redis.host", "redis.port", "redis.username", "redis.password", "redis.database",
  "redis.connect_timeout_ms", "redis.command_timeout_ms", "redis.key_prefix"]

def loadLogger (config : RawConfig) : Loaded LoggerConfig := do
  let level ← readLogLevel config "log.level" .info
  let file ← readNonEmptyString config "log.file" (ascii "logs/aegisflow.log")
  let queueCapacity ← readSize config "log.queue_capacity" 4096
  let flushInterval ← readPositiveMilliseconds config "log.flush_interval_ms" 200
  require (queueCapacity ≠ 0) (utf8 "配置 log.queue_capacity 必须大于 0")
  return ⟨level, file, queueCapacity, flushInterval⟩

section Listening

variable [Inet]

/-- The text is an IPv4 address; it ends at its first zero byte. -/
def listensOn (address : Bytes) : Prop := (Inet.pton4 (address.takeWhile (· != 0))).isSome = true

instance (address : Bytes) : Decidable (listensOn address) :=
  inferInstanceAs (Decidable (Option.isSome _ = true))

def loadAcceptor (config : RawConfig) : Loaded AcceptorLoopConfig := do
  let bindAddress ← readNonEmptyString config "server.host" (ascii "0.0.0.0")
  require (listensOn bindAddress) (utf8 "配置 server.host 必须是有效的 IPv4 监听地址")
  let port ← readPort config "server.port" 8080
  return { bindAddress := bindAddress, port := port }

end Listening

def loadLoopCount (config : RawConfig) : Loaded ℕ := do
  let loopCount ← readSize config "server.io_threads" 1
  require (loopCount ≠ 0 ∧ loopCount ≤ 2 ^ 32 - 1)
    (utf8 "配置 server.io_threads 必须在 1 到 uint32 上限之间")
  return loopCount

/-- The number of connections of a loop: a share of all connections, rounded up. -/
def connectionsPerLoop (maxConnections loopCount : ℕ) : ℕ :=
  (maxConnections / loopCount + if maxConnections % loopCount ≠ 0 then 1 else 0) % 2 ^ 64

variable (config : RawConfig)

/-- The threads of the worker pool and the limits; most of them are derived. -/
def loadLimits (loopCount : ℕ) : Loaded (ℕ × LimitsConfig) := do
  let maxConnections ← readSize config "server.max_connections" 65536
  require (maxConnections ≠ 0) (utf8 "配置 server.max_connections 必须大于 0")
  let threadCount ← readSize config "worker_pool.threads" 4
  require (threadCount ≠ 0) (utf8 "配置 worker_pool.threads 必须大于 0")
  let businessQueueCapacity ← readSize config "worker_pool.queue_capacity" 1024
  require (businessQueueCapacity ≠ 0) (utf8 "配置 worker_pool.queue_capacity 必须大于 0")
  let completionCoverage ← addChecked businessQueueCapacity threadCount "completion queue"
  let maxFramePayloadBytes ← readSize config "server.max_frame_payload_bytes" kMaxPayloadSize
  require (maxFramePayloadBytes ≠ 0 ∧ maxFramePayloadBytes ≤ kMaxPayloadSize)
    (utf8 "配置 server.max_frame_payload_bytes 超出协议范围")
  let frameLimit ← addChecked kFrameHeaderSize maxFramePayloadBytes "frame"
  return (threadCount,
    { maxConnections := maxConnections
      maxConnectionsPerLoop := connectionsPerLoop maxConnections loopCount
      connectionQueueCapacity := min 1024 (connectionsPerLoop maxConnections loopCount)
      businessQueueCapacity := businessQueueCapacity
      completionQueueCapacity := max 2048 completionCoverage
      completionQueueByteCapacity := max (16 * 1024 * 1024) frameLimit
      maxFramePayloadBytes := maxFramePayloadBytes
      inputSoftWatermarkBytes := min (64 * 1024) frameLimit
      maxInputBufferBytes := frameLimit
      outputSoftWatermarkBytes := min (64 * 1024) frameLimit
      maxOutputBufferBytes := frameLimit })

def loadDeadlines : Loaded SessionDeadlineConfig := do
  let idleTimeout ← readPositiveMilliseconds config "server.idle_timeout_ms" 30000
  let ioTimeout ← readPositiveMilliseconds config "server.io_timeout_ms" 10000
  let businessTimeout ← readPositiveMilliseconds config "server.business_timeout_ms" 2000
  return ⟨true, idleTimeout, ioTimeout, ioTimeout, businessTimeout⟩

def loadReclamation : Loaded FeatureStateReclamationConfig := do
  let userTtlMs ← config.getUInt64 "maintenance.user_state_ttl_ms" (10 * 60 * 1000)
  let ipTtlMs ← config.getUInt64 "maintenance.ip_state_ttl_ms" (20 * 60 * 1000)
  let deviceTtlMs ← config.getUInt64 "maintenance.device_state_ttl_ms" (20 * 60 * 1000)
  require (5 * 60 * 1000 ≤ userTtlMs ∧ LoginFeatureStore.kDistinctWindowMs ≤ ipTtlMs ∧
    LoginFeatureStore.kDistinctWindowMs ≤ deviceTtlMs) (utf8 "特征状态 TTL 不得短于对应滑动窗口")
  return ⟨userTtlMs, ipTtlMs, deviceTtlMs⟩

def loadPolicy : Loaded LoginPolicyConfig := do
  let userFailure ← readUint32 config "policy.user_failure_review_threshold" 5
  let ipSpray ← readUint32 config "policy.ip_spray_review_threshold" 20
  let deviceSharing ← readUint32 config "policy.device_sharing_review_threshold" 10
  let ipDistinct ← readUint32 config "policy.ip_distinct_reject_threshold" 50
  let ipFailure ← readUint32 config "policy.ip_failure_reject_threshold" 500
  let policy : LoginPolicyConfig := ⟨userFailure, ipSpray, deviceSharing, ipDistinct, ipFailure⟩
  validateLoginPolicyConfig policy
  return policy

def loadMysql : Loaded MysqlConfig := do
  let host ← readNonEmptyString config "mysql.host" (ascii "127.0.0.1")
  let port ← readPort config "mysql.port" 3306
  let user ← readNonEmptyString config "mysql.user" (ascii "aegisflow")
  let password := config.getString "mysql.password" []
  let database ← readNonEmptyString config "mysql.database" (ascii "aegisflow")
  return ⟨host, port, user, password, database⟩

def loadBlacklistCache : Loaded BlacklistCacheBootstrapConfig := do
  let startupTimeout ← readPositiveMilliseconds config "blacklist.startup_timeout_ms" 10000
  let batchSize ← readSize config "blacklist.batch_size" 100
  let resetTimeout ← readPositiveMilliseconds config "blacklist.reset_timeout_ms" 10000
  require (batchSize ≠ 0) (utf8 "blacklist.batch_size 必须大于 0")
  return ⟨startupTimeout, batchSize, resetTimeout⟩

/-- The maintenance of the blacklist and the capacity of the queue of candidates. -/
def loadBlacklistMaintenance (batchSize : ℕ) : Loaded (BlacklistMaintenanceConfig × ℕ) := do
  let interval ← readPositiveMilliseconds config "blacklist.maintenance_interval_ms" 1000
  let timeout ← readPositiveMilliseconds config "blacklist.maintenance_timeout_ms" 3000
  let cleanup ← readPositiveMilliseconds config "blacklist.expire_cleanup_interval_ms" 60000
  let candidateBatchSize ← readSize config "blacklist.candidate_batch_size" 256
  let candidateQueueCapacity ← readSize config "blacklist.candidate_queue_capacity" 4096
  require (candidateQueueCapacity ≠ 0 ∧ candidateBatchSize ≠ 0 ∧
    candidateBatchSize ≤ candidateQueueCapacity) (utf8 "黑名单候选队列或批量配置无效")
  return (⟨interval, timeout, cleanup, batchSize, candidateBatchSize⟩, candidateQueueCapacity)

def loadRedis : Loaded RedisConfig := do
  let host ← readNonEmptyString config "redis.host" (ascii "127.0.0.1")
  let port ← readPort config "redis.port" 6379
  let username := config.getString "redis.username" []
  let password := config.getString "redis.password" []
  let database ← readUint32 config "redis.database" 0
  let connectTimeout ← readPositiveMilliseconds config "redis.connect_timeout_ms" 1000
  let commandTimeout ← readPositiveMilliseconds config "redis.command_timeout_ms" 1000
  let keyPrefix ← readNonEmptyString config "redis.key_prefix" (ascii "aegisflow:blacklist")
  require (database ≤ 15 ∧ ¬ (username ≠ [] ∧ password = []))
    (utf8 "Redis 连接或 key prefix 配置无效")
  return ⟨host, port, username, password, database, connectTimeout, commandTimeout, keyPrefix⟩

/-- The capacities of the timer. -/
def loadTimer (limits : LimitsConfig) (loopCount : ℕ) : Loaded TimerCoreConfig := do
  let commands ← addChecked limits.businessQueueCapacity loopCount "timer command"
  let timers ← addChecked limits.maxConnections limits.maxConnections "timer"
  return ⟨max 4096 commands, max 1024 timers⟩

/-- Load the configuration from the file, `none` if it cannot be opened. -/
def loadAppConfig [Inet] [TableOrder] (path : Bytes) (file : Option Bytes) : Loaded AppConfig := do
  let config ← RawConfig.parse path file
  config.requireKnownKeys kServerConfigKeys
  let logger ← loadLogger config
  let acceptor ← loadAcceptor config
  let loopCount ← loadLoopCount config
  let limits ← loadLimits config loopCount
  let deadlines ← loadDeadlines config
  let shutdownGraceTimeout ←
    readPositiveMilliseconds config "server.shutdown_grace_timeout_ms" 5000
  let cleanupInterval ← readPositiveMilliseconds config "maintenance.interval_ms" 60000
  let featureReclamation ← loadReclamation config
  let policy ← loadPolicy config
  let mysql ← loadMysql config
  let blacklistCache ← loadBlacklistCache config
  let maintenance ← loadBlacklistMaintenance config blacklistCache.batchSize
  let redis ← loadRedis config
  let timer ← loadTimer limits.2 loopCount
  return {
    logger := logger
    timer := timer
    handler := {
      policy := policy
      mysql := mysql
      redis := redis
      blacklistCache := blacklistCache
      workerPool := { threadCount := limits.1 }
      featureReclamation := featureReclamation
      featureStateMaintenance := ⟨cleanupInterval⟩
      blacklistMaintenance := maintenance.1
      candidateQueueCapacity := maintenance.2
      limits := limits.2
      eventLoops := { loopCount := loopCount }
      acceptor := acceptor
      deadlines := deadlines
      shutdownGraceTimeout := shutdownGraceTimeout } }

/-! ### What is loaded -/

/-- A duration that a file may give. -/
def Duration (value : ℕ) : Prop := value ≠ 0 ∧ value ≤ kDayMs

/-- The limits follow from the number of loops, of connections and of workers, from the capacity
of the queue and from the size of a payload; no sum overflows. -/
structure LimitsDerived (loopCount threadCount : ℕ) (limits : LimitsConfig) : Prop where
  connections : limits.maxConnections ≠ 0
  connections_le : limits.maxConnections ≤ sizeMax
  perLoop : limits.maxConnectionsPerLoop = limits.maxConnections / loopCount +
    if limits.maxConnections % loopCount ≠ 0 then 1 else 0
  connectionQueue : limits.connectionQueueCapacity = min 1024 limits.maxConnectionsPerLoop
  threads : threadCount ≠ 0
  queue : limits.businessQueueCapacity ≠ 0
  coverage : limits.businessQueueCapacity + threadCount ≤ sizeMax
  completions : limits.completionQueueCapacity =
    max 2048 (limits.businessQueueCapacity + threadCount)
  payload : limits.maxFramePayloadBytes ≠ 0 ∧ limits.maxFramePayloadBytes ≤ kMaxPayloadSize
  input : limits.maxInputBufferBytes = kFrameHeaderSize + limits.maxFramePayloadBytes
  output : limits.maxOutputBufferBytes = kFrameHeaderSize + limits.maxFramePayloadBytes
  inputSoft : limits.inputSoftWatermarkBytes = min (64 * 1024) limits.maxInputBufferBytes
  outputSoft : limits.outputSoftWatermarkBytes = min (64 * 1024) limits.maxOutputBufferBytes
  bytes : limits.completionQueueByteCapacity = max (16 * 1024 * 1024) limits.maxOutputBufferBytes

variable {loopCount : ℕ} {config : RawConfig}

/-- A share of the connections does not overflow. -/
theorem connectionsPerLoop_eq {maxConnections : ℕ} (hmax : maxConnections ≤ sizeMax) :
    connectionsPerLoop maxConnections loopCount =
      maxConnections / loopCount + if maxConnections % loopCount ≠ 0 then 1 else 0 := by
  have hle : maxConnections / loopCount +
      (if maxConnections % loopCount ≠ 0 then 1 else 0) ≤ maxConnections := by
    split
    case isTrue hrest =>
      -- There is a remainder, so the quotient is not the number itself.
      have hdivision := Nat.div_add_mod maxConnections loopCount
      have hquotient : maxConnections / loopCount ≤ loopCount * (maxConnections / loopCount) := by
        rcases Nat.eq_zero_or_pos loopCount with rfl | hpos
        · rw [Nat.div_zero]
        · exact Nat.le_mul_of_pos_left _ hpos
      omega
    case isFalse => exact Nat.div_le_self _ _
  unfold sizeMax at hmax
  exact Nat.mod_eq_of_lt (by omega)

theorem loadLimits_spec {loaded : ℕ × LimitsConfig} (h : loadLimits config loopCount = .ok loaded) :
    LimitsDerived loopCount loaded.1 loaded.2 := by
  obtain ⟨maxConnections, hconnections, h⟩ := loaded_bind_eq_ok.mp h
  obtain ⟨hpositive, h⟩ := require_bind_eq_ok.mp h
  obtain ⟨threadCount, -, h⟩ := loaded_bind_eq_ok.mp h
  obtain ⟨hthreads, h⟩ := require_bind_eq_ok.mp h
  obtain ⟨queue, hqueue, h⟩ := loaded_bind_eq_ok.mp h
  obtain ⟨hqueuePositive, h⟩ := require_bind_eq_ok.mp h
  obtain ⟨coverage, hcoverage, h⟩ := loaded_bind_eq_ok.mp h
  obtain ⟨payload, -, h⟩ := loaded_bind_eq_ok.mp h
  obtain ⟨hpayload, h⟩ := require_bind_eq_ok.mp h
  obtain ⟨frame, hframe, h⟩ := loaded_bind_eq_ok.mp h
  cases h
  have hmax := readSize_eq_ok hconnections
  obtain ⟨rfl, hsum⟩ := addChecked_eq_ok (readSize_eq_ok hqueue) hcoverage
  obtain ⟨rfl, -⟩ := addChecked_eq_ok (by decide) hframe
  exact ⟨hpositive, hmax, connectionsPerLoop_eq hmax, rfl, hthreads, hqueuePositive, hsum, rfl,
    hpayload, rfl, rfl, rfl, rfl, rfl⟩

theorem loadLogger_spec {logger : LoggerConfig} (h : loadLogger config = .ok logger) :
    Logger.validConfig logger = true := by
  obtain ⟨level, -, h⟩ := loaded_bind_eq_ok.mp h
  obtain ⟨file, hfile, h⟩ := loaded_bind_eq_ok.mp h
  obtain ⟨capacity, -, h⟩ := loaded_bind_eq_ok.mp h
  obtain ⟨interval, hinterval, h⟩ := loaded_bind_eq_ok.mp h
  obtain ⟨hcapacity, h⟩ := require_bind_eq_ok.mp h
  cases h
  have hne := readNonEmptyString_eq_ok hfile
  have hduration := readPositiveMilliseconds_eq_ok hinterval
  unfold kDayMs at hduration
  simp only [Logger.validConfig, Bool.and_eq_true, bne_iff_ne, decide_eq_true_eq]
  exact ⟨⟨⟨hne, by omega⟩, by omega⟩, by omega⟩

theorem loadAcceptor_spec [Inet] {acceptor : AcceptorLoopConfig}
    (h : loadAcceptor config = .ok acceptor) :
    acceptor.bindAddress ≠ [] ∧ listensOn acceptor.bindAddress ∧ acceptor.backlog = 512 ∧
      acceptor.maxEvents = 16 := by
  obtain ⟨address, haddress, h⟩ := loaded_bind_eq_ok.mp h
  obtain ⟨hlistens, h⟩ := require_bind_eq_ok.mp h
  obtain ⟨port, -, h⟩ := loaded_bind_eq_ok.mp h
  cases h
  exact ⟨readNonEmptyString_eq_ok haddress, hlistens, rfl, rfl⟩

theorem loadLoopCount_spec (h : loadLoopCount config = .ok loopCount) :
    loopCount ≠ 0 ∧ loopCount ≤ 2 ^ 32 - 1 := by
  obtain ⟨count, -, h⟩ := loaded_bind_eq_ok.mp h
  obtain ⟨hrange, h⟩ := require_bind_eq_ok.mp h
  cases h
  exact hrange

theorem loadDeadlines_spec {deadlines : SessionDeadlineConfig}
    (h : loadDeadlines config = .ok deadlines) :
    deadlines.enabled = true ∧ Duration deadlines.idleTimeout ∧ Duration deadlines.readTimeout ∧
      Duration deadlines.writeTimeout ∧ Duration deadlines.businessTimeout := by
  obtain ⟨idle, hidle, h⟩ := loaded_bind_eq_ok.mp h
  obtain ⟨io, hio, h⟩ := loaded_bind_eq_ok.mp h
  obtain ⟨business, hbusiness, h⟩ := loaded_bind_eq_ok.mp h
  cases h
  have hioDuration := readPositiveMilliseconds_eq_ok hio
  exact ⟨rfl, readPositiveMilliseconds_eq_ok hidle, hioDuration, hioDuration,
    readPositiveMilliseconds_eq_ok hbusiness⟩

theorem loadReclamation_spec {ttl : FeatureStateReclamationConfig}
    (h : loadReclamation config = .ok ttl) :
    5 * 60 * 1000 ≤ ttl.userTtlMs ∧ LoginFeatureStore.kDistinctWindowMs ≤ ttl.ipTtlMs ∧
      LoginFeatureStore.kDistinctWindowMs ≤ ttl.deviceTtlMs := by
  obtain ⟨user, -, h⟩ := loaded_bind_eq_ok.mp h
  obtain ⟨ip, -, h⟩ := loaded_bind_eq_ok.mp h
  obtain ⟨device, -, h⟩ := loaded_bind_eq_ok.mp h
  obtain ⟨hlong, h⟩ := require_bind_eq_ok.mp h
  cases h
  exact hlong

theorem loadPolicy_spec {policy : LoginPolicyConfig} (h : loadPolicy config = .ok policy) :
    validateLoginPolicyConfig policy = .ok () := by
  obtain ⟨userFailure, -, h⟩ := loaded_bind_eq_ok.mp h
  obtain ⟨ipSpray, -, h⟩ := loaded_bind_eq_ok.mp h
  obtain ⟨deviceSharing, -, h⟩ := loaded_bind_eq_ok.mp h
  obtain ⟨ipDistinct, -, h⟩ := loaded_bind_eq_ok.mp h
  obtain ⟨ipFailure, -, h⟩ := loaded_bind_eq_ok.mp h
  obtain ⟨_, hvalid, h⟩ := loaded_bind_eq_ok.mp h
  cases h
  exact hvalid

theorem loadBlacklistCache_spec {cache : BlacklistCacheBootstrapConfig}
    (h : loadBlacklistCache config = .ok cache) :
    Duration cache.startupTimeout ∧ cache.batchSize ≠ 0 ∧ Duration cache.resetTimeout := by
  obtain ⟨startup, hstartup, h⟩ := loaded_bind_eq_ok.mp h
  obtain ⟨batch, -, h⟩ := loaded_bind_eq_ok.mp h
  obtain ⟨reset, hreset, h⟩ := loaded_bind_eq_ok.mp h
  obtain ⟨hbatch, h⟩ := require_bind_eq_ok.mp h
  cases h
  exact ⟨readPositiveMilliseconds_eq_ok hstartup, hbatch, readPositiveMilliseconds_eq_ok hreset⟩

theorem loadBlacklistMaintenance_spec {batchSize : ℕ} {loaded : BlacklistMaintenanceConfig × ℕ}
    (h : loadBlacklistMaintenance config batchSize = .ok loaded) :
    Duration loaded.1.maintenanceInterval ∧ Duration loaded.1.maintenanceTimeout ∧
      Duration loaded.1.expireCleanupInterval ∧ loaded.1.batchSize = batchSize ∧
      loaded.2 ≠ 0 ∧ loaded.1.candidateBatchSize ≠ 0 ∧ loaded.1.candidateBatchSize ≤ loaded.2 := by
  obtain ⟨interval, hinterval, h⟩ := loaded_bind_eq_ok.mp h
  obtain ⟨timeout, htimeout, h⟩ := loaded_bind_eq_ok.mp h
  obtain ⟨cleanup, hcleanup, h⟩ := loaded_bind_eq_ok.mp h
  obtain ⟨candidates, -, h⟩ := loaded_bind_eq_ok.mp h
  obtain ⟨capacity, -, h⟩ := loaded_bind_eq_ok.mp h
  obtain ⟨hcapacity, h⟩ := require_bind_eq_ok.mp h
  cases h
  exact ⟨readPositiveMilliseconds_eq_ok hinterval, readPositiveMilliseconds_eq_ok htimeout,
    readPositiveMilliseconds_eq_ok hcleanup, rfl, hcapacity⟩

theorem loadRedis_spec {redis : RedisConfig} (h : loadRedis config = .ok redis) :
    redis.host ≠ [] ∧ redis.port ≠ 0 ∧ redis.database ≤ 15 ∧ redis.keyPrefix ≠ [] ∧
      Duration redis.connectTimeout ∧ Duration redis.commandTimeout ∧
      ¬ (redis.username ≠ [] ∧ redis.password = []) := by
  obtain ⟨host, hhost, h⟩ := loaded_bind_eq_ok.mp h
  obtain ⟨port, hport, h⟩ := loaded_bind_eq_ok.mp h
  obtain ⟨database, -, h⟩ := loaded_bind_eq_ok.mp h
  obtain ⟨connect, hconnect, h⟩ := loaded_bind_eq_ok.mp h
  obtain ⟨command, hcommand, h⟩ := loaded_bind_eq_ok.mp h
  obtain ⟨key, hkey, h⟩ := loaded_bind_eq_ok.mp h
  obtain ⟨hvalid, h⟩ := require_bind_eq_ok.mp h
  cases h
  exact ⟨readNonEmptyString_eq_ok hhost, (readPort_eq_ok hport).1, hvalid.1,
    readNonEmptyString_eq_ok hkey, readPositiveMilliseconds_eq_ok hconnect,
    readPositiveMilliseconds_eq_ok hcommand, hvalid.2⟩

theorem loadTimer_spec {limits : LimitsConfig} {timer : TimerCoreConfig}
    (hqueue : limits.businessQueueCapacity ≤ sizeMax) (hmax : limits.maxConnections ≤ sizeMax)
    (h : loadTimer limits loopCount = .ok timer) :
    timer.commandCapacity = max 4096 (limits.businessQueueCapacity + loopCount) ∧
      limits.businessQueueCapacity + loopCount ≤ sizeMax ∧
      timer.timerCapacity = max 1024 (limits.maxConnections + limits.maxConnections) ∧
      limits.maxConnections + limits.maxConnections ≤ sizeMax := by
  obtain ⟨commands, hcommands, h⟩ := loaded_bind_eq_ok.mp h
  obtain ⟨timers, htimers, h⟩ := loaded_bind_eq_ok.mp h
  cases h
  obtain ⟨rfl, hcommandsLe⟩ := addChecked_eq_ok hqueue hcommands
  obtain ⟨rfl, htimersLe⟩ := addChecked_eq_ok hmax htimers
  exact ⟨rfl, hcommandsLe, rfl, htimersLe⟩

/-- What is known of a configuration that was loaded. -/
structure Configured [Inet] (app : AppConfig) : Prop where
  logger : Logger.validConfig app.logger = true
  acceptor : app.handler.acceptor.bindAddress ≠ [] ∧ listensOn app.handler.acceptor.bindAddress ∧
    app.handler.acceptor.backlog = 512 ∧ app.handler.acceptor.maxEvents = 16
  loops : app.handler.eventLoops.loopCount ≠ 0 ∧ app.handler.eventLoops.loopCount ≤ 2 ^ 32 - 1
  /-- The settings of a loop that are not in the file. -/
  eventLoop : app.handler.eventLoops.eventLoop = {}
  limits : LimitsDerived app.handler.eventLoops.loopCount app.handler.workerPool.threadCount
    app.handler.limits
  maintenancePool : app.handler.maintenancePool = { threadCount := 1, queueCapacity := 64 }
  deadlines : app.handler.deadlines.enabled = true ∧ Duration app.handler.deadlines.idleTimeout ∧
    Duration app.handler.deadlines.readTimeout ∧ Duration app.handler.deadlines.writeTimeout ∧
    Duration app.handler.deadlines.businessTimeout
  grace : Duration app.handler.shutdownGraceTimeout
  cleanup : Duration app.handler.featureStateMaintenance.cleanupInterval
  reclamation : 5 * 60 * 1000 ≤ app.handler.featureReclamation.userTtlMs ∧
    LoginFeatureStore.kDistinctWindowMs ≤ app.handler.featureReclamation.ipTtlMs ∧
    LoginFeatureStore.kDistinctWindowMs ≤ app.handler.featureReclamation.deviceTtlMs
  policy : validateLoginPolicyConfig app.handler.policy = .ok ()
  cache : Duration app.handler.blacklistCache.startupTimeout ∧
    app.handler.blacklistCache.batchSize ≠ 0 ∧ Duration app.handler.blacklistCache.resetTimeout
  maintenance : Duration app.handler.blacklistMaintenance.maintenanceInterval ∧
    Duration app.handler.blacklistMaintenance.maintenanceTimeout ∧
    Duration app.handler.blacklistMaintenance.expireCleanupInterval ∧
    app.handler.blacklistMaintenance.batchSize = app.handler.blacklistCache.batchSize ∧
    app.handler.candidateQueueCapacity ≠ 0 ∧
    app.handler.blacklistMaintenance.candidateBatchSize ≠ 0 ∧
    app.handler.blacklistMaintenance.candidateBatchSize ≤ app.handler.candidateQueueCapacity
  redis : app.handler.redis.host ≠ [] ∧ app.handler.redis.port ≠ 0 ∧
    app.handler.redis.database ≤ 15 ∧ app.handler.redis.keyPrefix ≠ [] ∧
    Duration app.handler.redis.connectTimeout ∧ Duration app.handler.redis.commandTimeout ∧
    ¬ (app.handler.redis.username ≠ [] ∧ app.handler.redis.password = [])
  timer : app.timer.commandCapacity = max 4096
      (app.handler.limits.businessQueueCapacity + app.handler.eventLoops.loopCount) ∧
    app.handler.limits.businessQueueCapacity + app.handler.eventLoops.loopCount ≤ sizeMax ∧
    app.timer.timerCapacity = max 1024
      (app.handler.limits.maxConnections + app.handler.limits.maxConnections) ∧
    app.handler.limits.maxConnections + app.handler.limits.maxConnections ≤ sizeMax

theorem loadAppConfig_spec [Inet] [TableOrder] {path : Bytes} {file : Option Bytes}
    {app : AppConfig} (h : loadAppConfig path file = .ok app) : Configured app := by
  obtain ⟨config, -, h⟩ := loaded_bind_eq_ok.mp h
  obtain ⟨_, -, h⟩ := loaded_bind_eq_ok.mp h
  obtain ⟨logger, hlogger, h⟩ := loaded_bind_eq_ok.mp h
  obtain ⟨acceptor, hacceptor, h⟩ := loaded_bind_eq_ok.mp h
  obtain ⟨loopCount, hloops, h⟩ := loaded_bind_eq_ok.mp h
  obtain ⟨limits, hlimits, h⟩ := loaded_bind_eq_ok.mp h
  obtain ⟨deadlines, hdeadlines, h⟩ := loaded_bind_eq_ok.mp h
  obtain ⟨grace, hgrace, h⟩ := loaded_bind_eq_ok.mp h
  obtain ⟨cleanup, hcleanup, h⟩ := loaded_bind_eq_ok.mp h
  obtain ⟨ttl, httl, h⟩ := loaded_bind_eq_ok.mp h
  obtain ⟨policy, hpolicy, h⟩ := loaded_bind_eq_ok.mp h
  obtain ⟨mysql, -, h⟩ := loaded_bind_eq_ok.mp h
  obtain ⟨cache, hcache, h⟩ := loaded_bind_eq_ok.mp h
  obtain ⟨maintenance, hmaintenance, h⟩ := loaded_bind_eq_ok.mp h
  obtain ⟨redis, hredis, h⟩ := loaded_bind_eq_ok.mp h
  obtain ⟨timer, htimer, h⟩ := loaded_bind_eq_ok.mp h
  cases h
  have hderived := loadLimits_spec hlimits
  have hqueue : limits.2.businessQueueCapacity ≤ sizeMax :=
    (Nat.le_add_right _ _).trans hderived.coverage
  exact ⟨loadLogger_spec hlogger, loadAcceptor_spec hacceptor, loadLoopCount_spec hloops, rfl,
    hderived, rfl, loadDeadlines_spec hdeadlines, readPositiveMilliseconds_eq_ok hgrace,
    readPositiveMilliseconds_eq_ok hcleanup, loadReclamation_spec httl, loadPolicy_spec hpolicy,
    loadBlacklistCache_spec hcache, loadBlacklistMaintenance_spec hmaintenance,
    loadRedis_spec hredis, loadTimer_spec hqueue hderived.connections_le htimer⟩

end AegisFlow
