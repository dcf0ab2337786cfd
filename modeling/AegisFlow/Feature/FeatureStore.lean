import AegisFlow.Feature.SlidingCounter
import AegisFlow.Feature.SlidingDistinct

/-!
# The login feature store

The store keeps, for every user, address and device, what the risk policies ask about its recent
logins.  Each of the three is a map cut into shards by a hash of the key.  A request visits its
three keys in turn (`updateAndGet`); a maintenance task drops the states that have not been
touched for a while (`reclaimColdStates`).

The three visits have one shape, `Feature.visit`: the state is created only by a request that
updates it, and an absent state reads as zero.  `Feature.find_visit` and `Feature.find_reclaim`
say what a visit and a reclamation do to every key.
-/

namespace AegisFlow

/-- How a login attempt ended. -/
inductive LoginResult
  | success
  | fail
  deriving DecidableEq, Repr

/-- A validated login attempt. -/
structure LoginAttempt where
  /-- When the attempt was made, as reported by the client. -/
  timestampMs : ℕ
  userId : Bytes
  ip : Bytes
  deviceId : Bytes
  result : LoginResult
  deriving DecidableEq, Repr

/-- What the policies ask about a login attempt. -/
structure LoginFeatureSnapshot where
  /-- Failures of the user in five minutes. -/
  userLoginFail5m : ℕ
  /-- Distinct users that failed from the address in ten minutes. -/
  ipDistinctFailedUser10m : ℕ
  /-- Distinct users of the device in ten minutes. -/
  deviceDistinctAccount10m : ℕ
  /-- Failures from the address in ten minutes. -/
  ipLoginFailures10m : ℕ
  deriving DecidableEq, Repr

/-- How long a state stays after its last update. -/
structure FeatureStateReclamationConfig where
  userTtlMs : ℕ
  ipTtlMs : ℕ
  deviceTtlMs : ℕ
  deriving DecidableEq, Repr

namespace LoginFeatureStore

/-- The number of shards of the user map. -/
def kUserShardNum : ℕ := 64

/-- The number of shards of the other maps. -/
def kDistinctShardNum : ℕ := 64

/-- The window of a user's failures. -/
def kUserWindowMs : ℕ := 5 * 60 * 1000

/-- The window for addresses and devices. -/
def kDistinctWindowMs : ℕ := 10 * 60 * 1000

/-- The bucket width of a user's failures. -/
def kUserBucketMs : ℕ := 5000

/-- The bucket width of the sets of distinct users. -/
def kDistinctBucketMs : ℕ := 10 * 1000

/-- How many distinct users are kept. -/
def kDistinctMaxMembers : ℕ := 5000

/-- The bucket width of an address's failures. -/
def kIpFailureBucketMs : ℕ := 10 * 1000

theorem kUserBucketMs_pos : 0 < kUserBucketMs := by decide

theorem kDistinctBucketMs_pos : 0 < kDistinctBucketMs := by decide

theorem kDistinctBucketMs_le : kDistinctBucketMs ≤ kDistinctWindowMs := by decide

theorem kIpFailureBucketMs_pos : 0 < kIpFailureBucketMs := by decide

/-- The event lies in the window that ends with the reading. -/
def isWithinWindow (eventTsMs nowMs windowMs : ℕ) : Bool :=
  decide (eventTsMs ≤ nowMs) && decide (nowMs - eventTsMs < windowMs)

/-- The state was not touched for its time to live. -/
def isExpired (lastSeenMs nowMs ttlMs : ℕ) : Bool :=
  decide (lastSeenMs ≤ nowMs) && decide (ttlMs ≤ nowMs - lastSeenMs)

/-- No state may be dropped while its windows can still count something. -/
def isValidReclamationConfig (config : FeatureStateReclamationConfig) : Bool :=
  decide (kUserWindowMs ≤ config.userTtlMs) && decide (kDistinctWindowMs ≤ config.ipTtlMs) &&
    decide (kDistinctWindowMs ≤ config.deviceTtlMs)

end LoginFeatureStore

open LoginFeatureStore

/-- What is kept for a user. -/
structure LoginUserState where
  loginFail5m : SlidingCounter 60
  lastSeenMs : ℕ

/-- What is kept for an address. -/
structure IpFeatureState where
  distinct : SlidingDistinct
  failures10m : SlidingCounter 60
  lastSeenMs : ℕ

/-- What is kept for a device. -/
structure DeviceFeatureState where
  distinct : SlidingDistinct
  lastSeenMs : ℕ

/-- The state of a new user. -/
def LoginUserState.new : LoginUserState := ⟨.new 60 kUserBucketMs kUserBucketMs_pos, 0⟩

/-- The set of distinct users of a new address or device. -/
def newDistinct : SlidingDistinct :=
  .new kDistinctWindowMs kDistinctBucketMs kDistinctMaxMembers kDistinctBucketMs_pos
    kDistinctBucketMs_le

/-- The state of a new address. -/
def IpFeatureState.new : IpFeatureState :=
  ⟨newDistinct, .new 60 kIpFailureBucketMs kIpFailureBucketMs_pos, 0⟩

/-- The state of a new device. -/
def DeviceFeatureState.new : DeviceFeatureState := ⟨newDistinct, 0⟩

/-! ### One map -/

/-- A map cut into `n` shards. -/
abbrev Shards (n : ℕ) (σ : Type) := Fin n → Finmap fun _ : Bytes => σ

namespace Shards

variable {n : ℕ} [NeZero n] {σ : Type} (hash : Bytes → ℕ)

/-- The shard of a key. -/
def shardIndex (n : ℕ) [NeZero n] (key : Bytes) : Fin n := Fin.ofNat n (hash key)

/-- Look a key up. -/
def find (shards : Shards n σ) (key : Bytes) : Option σ :=
  (shards (shardIndex hash n key)).lookup key

/-- Set the state of a key. -/
def put (shards : Shards n σ) (key : Bytes) (st : σ) : Shards n σ :=
  Function.update shards (shardIndex hash n key) ((shards (shardIndex hash n key)).insert key st)

theorem find_put (shards : Shards n σ) (key key' : Bytes) (st : σ) :
    (shards.put hash key st).find hash key' =
      if key' = key then some st else shards.find hash key' := by
  unfold find put
  split_ifs with hkey
  · subst hkey
    rw [Function.update_self, Finmap.lookup_insert]
  · by_cases hshard : shardIndex hash n key' = shardIndex hash n key
    · rw [hshard, Function.update_self, Finmap.lookup_insert_of_ne _ hkey]
    · rw [Function.update_of_ne hshard]

end Shards

/-- A feature kept by key: states `σ`, read as a `ρ`. -/
structure Feature (σ ρ : Type) where
  key : LoginAttempt → Bytes
  /-- Whether an attempt updates the state, at a reading. -/
  canUpdate : LoginAttempt → ℕ → Bool
  /-- The state of a new key. -/
  fresh : σ
  update : LoginAttempt → ℕ → σ → σ
  /-- Read a state, which also brings it to the reading. -/
  read : ℕ → σ → ρ × σ
  /-- What an absent state reads as. -/
  absent : ρ
  lastSeenMs : σ → ℕ

namespace Feature

variable {n : ℕ} [NeZero n] {σ ρ : Type} (F : Feature σ ρ) (hash : Bytes → ℕ)

/-- The state a visit works on, if any: one is created only to be updated. -/
def created (shards : Shards n σ) (attempt : LoginAttempt) (nowMs : ℕ) : Option σ :=
  match shards.find hash (F.key attempt) with
  | none => if F.canUpdate attempt nowMs then some F.fresh else none
  | some st => some st

/-- Update the state if the attempt does, and read it. -/
def serve (st : σ) (attempt : LoginAttempt) (nowMs : ℕ) : ρ × σ :=
  F.read nowMs (if F.canUpdate attempt nowMs then F.update attempt nowMs st else st)

/-- Visit the key of an attempt. -/
def visit (shards : Shards n σ) (attempt : LoginAttempt) (nowMs : ℕ) : ρ × Shards n σ :=
  match F.created hash shards attempt nowMs with
  | none => (F.absent, shards)
  | some st =>
    ((F.serve st attempt nowMs).1, shards.put hash (F.key attempt) (F.serve st attempt nowMs).2)

/-- Drop the states that were not updated for the time to live. -/
def reclaim (shards : Shards n σ) (nowMs ttlMs : ℕ) : Shards n σ :=
  fun i => (shards i).retain fun _ st => !isExpired (F.lastSeenMs st) nowMs ttlMs

variable {F hash} {shards : Shards n σ} {attempt : LoginAttempt} {nowMs : ℕ}

theorem created_eq {st : σ} (hst : F.created hash shards attempt nowMs = some st) :
    (shards.find hash (F.key attempt)).getD F.fresh = st ∧
      (F.canUpdate attempt nowMs = false → shards.find hash (F.key attempt) = some st) := by
  unfold created at hst
  cases hfind : shards.find hash (F.key attempt) with
  | some st' =>
    rw [hfind] at hst
    cases hst
    exact ⟨rfl, fun _ => rfl⟩
  | none =>
    rw [hfind] at hst
    simp only at hst
    split_ifs at hst with hcan
    cases hst
    exact ⟨rfl, fun hno => absurd hcan (by rw [hno]; exact Bool.false_ne_true)⟩

theorem created_none (hst : F.created hash shards attempt nowMs = none) :
    shards.find hash (F.key attempt) = none ∧ F.canUpdate attempt nowMs = false := by
  unfold created at hst
  cases hfind : shards.find hash (F.key attempt) with
  | some st => simp [hfind] at hst
  | none =>
    refine ⟨rfl, ?_⟩
    rw [hfind] at hst
    by_contra hcan
    simp [hcan] at hst

theorem find_visit (key : Bytes) :
    (F.visit hash shards attempt nowMs).2.find hash key =
      if key = F.key attempt then
        (F.created hash shards attempt nowMs).map fun st => (F.serve st attempt nowMs).2
      else shards.find hash key := by
  unfold visit
  cases hcreated : F.created hash shards attempt nowMs with
  | some st => exact Shards.find_put hash shards (F.key attempt) key _
  | none =>
    split_ifs with hkey
    · subst hkey
      exact (created_none hcreated).1
    · rfl

theorem find_reclaim (key : Bytes) (ttlMs : ℕ) :
    (F.reclaim shards nowMs ttlMs).find hash key =
      (shards.find hash key).filter fun st => !isExpired (F.lastSeenMs st) nowMs ttlMs := by
  simp [Shards.find, reclaim]

end Feature

/-! ### The three maps -/

/-- The attempt failed, inside the window. -/
def failedWithin (windowMs : ℕ) (attempt : LoginAttempt) (nowMs : ℕ) : Bool :=
  attempt.result == .fail && isWithinWindow attempt.timestampMs nowMs windowMs

/-- The failures of a user.  A successful login reads them but does not keep them longer. -/
def userFeature : Feature LoginUserState ℕ where
  key := LoginAttempt.userId
  canUpdate := failedWithin kUserWindowMs
  fresh := .new
  update attempt nowMs st := ⟨(st.loginFail5m.add attempt.timestampMs nowMs 1).2, nowMs⟩
  read nowMs st :=
    ((st.loginFail5m.sum nowMs).1, { st with loginFail5m := (st.loginFail5m.sum nowMs).2 })
  absent := 0
  lastSeenMs := LoginUserState.lastSeenMs

/-- The users that failed from an address, and the failures. -/
def ipFeature : Feature IpFeatureState (ℕ × ℕ) where
  key := LoginAttempt.ip
  canUpdate := failedWithin kDistinctWindowMs
  fresh := .new
  update attempt nowMs st :=
    ⟨(st.distinct.add attempt.userId attempt.timestampMs nowMs).2,
      (st.failures10m.add attempt.timestampMs nowMs 1).2, nowMs⟩
  read nowMs st :=
    (((st.distinct.count nowMs).1, (st.failures10m.sum nowMs).1),
      ⟨(st.distinct.count nowMs).2, (st.failures10m.sum nowMs).2, st.lastSeenMs⟩)
  absent := (0, 0)
  lastSeenMs := IpFeatureState.lastSeenMs

/-- The users of a device, whether they failed or not. -/
def deviceFeature : Feature DeviceFeatureState ℕ where
  key := LoginAttempt.deviceId
  canUpdate attempt nowMs := isWithinWindow attempt.timestampMs nowMs kDistinctWindowMs
  fresh := .new
  update attempt nowMs st :=
    ⟨(st.distinct.add attempt.userId attempt.timestampMs nowMs).2, nowMs⟩
  read nowMs st := ((st.distinct.count nowMs).1,
    { st with distinct := (st.distinct.count nowMs).2 })
  absent := 0
  lastSeenMs := DeviceFeatureState.lastSeenMs

instance : NeZero kUserShardNum := ⟨Nat.succ_ne_zero 63⟩

instance : NeZero kDistinctShardNum := ⟨Nat.succ_ne_zero 63⟩

/-- The three maps. -/
structure LoginFeatureStore where
  /-- How long states stay. -/
  reclamationConfig : FeatureStateReclamationConfig
  userShards : Shards kUserShardNum LoginUserState
  ipShards : Shards kDistinctShardNum IpFeatureState
  deviceShards : Shards kDistinctShardNum DeviceFeatureState
  config_valid : isValidReclamationConfig reclamationConfig = true

namespace LoginFeatureStore

variable (hash : Bytes → ℕ)

/-- A store without states. -/
def new (config : FeatureStateReclamationConfig)
    (h : isValidReclamationConfig config = true) : LoginFeatureStore :=
  ⟨config, fun _ => ∅, fun _ => ∅, fun _ => ∅, h⟩

/-- Construct a store; an invalid configuration is refused. -/
def create (config : FeatureStateReclamationConfig) : Option LoginFeatureStore :=
  if h : isValidReclamationConfig config = true then some (new config h) else none

/-- Visit the user of an attempt. -/
def updateUser (store : LoginFeatureStore) (attempt : LoginAttempt) (nowMs : ℕ) :
    ℕ × Shards kUserShardNum LoginUserState :=
  userFeature.visit hash store.userShards attempt nowMs

/-- Visit the address of an attempt. -/
def updateIp (store : LoginFeatureStore) (attempt : LoginAttempt) (nowMs : ℕ) :
    (ℕ × ℕ) × Shards kDistinctShardNum IpFeatureState :=
  ipFeature.visit hash store.ipShards attempt nowMs

/-- Visit the device of an attempt. -/
def updateDevice (store : LoginFeatureStore) (attempt : LoginAttempt) (nowMs : ℕ) :
    ℕ × Shards kDistinctShardNum DeviceFeatureState :=
  deviceFeature.visit hash store.deviceShards attempt nowMs

/-- Take an attempt into account and return what the policies ask about it. -/
def updateAndGet (store : LoginFeatureStore) (attempt : LoginAttempt) (nowMs : ℕ) :
    LoginFeatureSnapshot × LoginFeatureStore :=
  let user := store.updateUser hash attempt nowMs
  let ip := store.updateIp hash attempt nowMs
  let device := store.updateDevice hash attempt nowMs
  (⟨user.1, ip.1.1, device.1, ip.1.2⟩,
    { store with userShards := user.2, ipShards := ip.2, deviceShards := device.2 })

/-- Drop the states that were not updated for a while. -/
def reclaimColdStates (store : LoginFeatureStore) (nowMs : ℕ) : LoginFeatureStore :=
  { store with
    userShards := userFeature.reclaim store.userShards nowMs store.reclamationConfig.userTtlMs
    ipShards := ipFeature.reclaim store.ipShards nowMs store.reclamationConfig.ipTtlMs
    deviceShards :=
      deviceFeature.reclaim store.deviceShards nowMs store.reclamationConfig.deviceTtlMs }

end LoginFeatureStore

/-- A call of the store. -/
inductive FeatureCall
  /-- A request takes its attempt into account. -/
  | update (attempt : LoginAttempt) (nowMs : ℕ)
  /-- The maintenance task drops cold states. -/
  | reclaim (nowMs : ℕ)
  deriving DecidableEq, Repr

/-- The clock reading of a call. -/
def FeatureCall.nowMs : FeatureCall → ℕ
  | .update _ nowMs => nowMs
  | .reclaim nowMs => nowMs

namespace LoginFeatureStore

/-- The store after a call. -/
def call (hash : Bytes → ℕ) (store : LoginFeatureStore) : FeatureCall → LoginFeatureStore
  | .update attempt nowMs => (store.updateAndGet hash attempt nowMs).2
  | .reclaim nowMs => store.reclaimColdStates nowMs

/-- The store after a sequence of calls. -/
def run (hash : Bytes → ℕ) (store : LoginFeatureStore) (calls : List FeatureCall) :
    LoginFeatureStore :=
  calls.foldl (LoginFeatureStore.call hash) store

end LoginFeatureStore

end AegisFlow
