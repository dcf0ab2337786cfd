import AegisFlow.Config.AppConfig
import AegisFlow.Risk.BlacklistManager
import AegisFlow.Risk.CandidateGenerator

/-!
# Judging a login

* `LoginPolicyChain.evaluate` : all policies, in a fixed order; the most severe one decides;
* `RiskService.evaluate` : features, blacklist, policies and candidates of one attempt;
* `evaluate_judged` : **when an attempt is rejected or passed**, and when it makes a candidate.
-/

namespace AegisFlow

def kReviewScore : ℕ := 30

def kRejectScore : ℕ := 100

/-- A hit with its score. -/
structure ScoredHit extends PolicyHit where
  riskScore : ℕ

/-- Append a hit if the policy applies. -/
def appendHit (applies : Bool) (reason : String) (action : LoginDecisionAction) (score : ℕ)
    (hits : List ScoredHit) : List ScoredHit :=
  if applies then hits ++ [⟨⟨ascii reason, action⟩, score⟩] else hits

@[simp] theorem mem_appendHit {applies : Bool} {reason : String} {action : LoginDecisionAction}
    {score : ℕ} {hits : List ScoredHit} {hit : ScoredHit} :
    hit ∈ appendHit applies reason action score hits ↔
      hit ∈ hits ∨ applies = true ∧ hit = ⟨⟨ascii reason, action⟩, score⟩ := by
  cases applies <;> simp [appendHit]

def severity : LoginDecisionAction → ℕ
  | .pass => 0
  | .review => 1
  | .reject => 2

/-- The decision without the identifiers of the attempt and the time it took. -/
structure ScoredDecision where
  action : LoginDecisionAction
  riskScore : ℕ
  policyHits : List ScoredHit

namespace LoginPolicyChain

variable (config : LoginPolicyConfig) (features : LoginFeatureSnapshot)
  (blacklist : LoginBlacklistMatches)

@[simp] def evaluateBlacklist (hits : List ScoredHit) : List ScoredHit :=
  appendHit blacklist.deviceHit "blacklisted_device" .reject kRejectScore <|
  appendHit blacklist.ipHit "blacklisted_ip" .reject kRejectScore <|
  appendHit blacklist.userHit "blacklisted_user" .reject kRejectScore hits

/-- Many users failed from the address, and often. -/
def isStuffing : Bool :=
  decide (config.ipDistinctRejectThreshold ≤ features.ipDistinctFailedUser10m) &&
    decide (config.ipFailureRejectThreshold ≤ features.ipLoginFailures10m)

@[simp] def evaluateCredentialStuffing : List ScoredHit → List ScoredHit :=
  appendHit (isStuffing config features) "credential_stuffing_attack" .reject kRejectScore

@[simp] def evaluateUserFailures : List ScoredHit → List ScoredHit :=
  appendHit (decide (config.userFailureReviewThreshold ≤ features.userLoginFail5m))
    "too_many_failed_login" .review kReviewScore

@[simp] def evaluateIpSpray : List ScoredHit → List ScoredHit :=
  appendHit (decide (config.ipSprayReviewThreshold ≤ features.ipDistinctFailedUser10m))
    "ip_many_users_failed_login" .review kReviewScore

@[simp] def evaluateDeviceSharing : List ScoredHit → List ScoredHit :=
  appendHit (decide (config.deviceSharingReviewThreshold ≤ features.deviceDistinctAccount10m))
    "device_many_accounts" .review kReviewScore

/-- The policies that apply; the blacklist comes first. -/
@[simp] def policyHits : List ScoredHit :=
  evaluateDeviceSharing config features <| evaluateIpSpray config features <|
    evaluateUserFailures config features <| evaluateCredentialStuffing config features <|
      evaluateBlacklist blacklist []

/-- One hit weighs in. -/
def weigh (decision : ScoredDecision) (hit : ScoredHit) : ScoredDecision :=
  { decision with
    action := if severity decision.action < severity hit.action then hit.action
      else decision.action
    riskScore := max decision.riskScore hit.riskScore }

/-- All policies, without stopping at the first. -/
def evaluate : ScoredDecision :=
  let hits := policyHits config features blacklist
  hits.foldl weigh ⟨.pass, 0, hits⟩

/-- The score that goes with an action. -/
def scoreOf : LoginDecisionAction → ℕ
  | .pass => 0
  | .review => kReviewScore
  | .reject => kRejectScore

/-- What weighing keeps, and what decides. -/
theorem foldl_weigh {hits : List ScoredHit} {decision r : ScoredDecision}
    (hr : hits.foldl weigh decision = r) (hhits : ∀ hit ∈ hits, hit.riskScore = scoreOf hit.action)
    (hscore : decision.riskScore = scoreOf decision.action) :
    r.policyHits = decision.policyHits ∧ r.riskScore = scoreOf r.action ∧
      (r.action = .reject ↔ decision.action = .reject ∨ ∃ hit ∈ hits, hit.action = .reject) ∧
      (r.action = .pass ↔ decision.action = .pass ∧ ∀ hit ∈ hits, hit.action = .pass) := by
  induction hits generalizing decision with
  | nil => simp [← hr, hscore]
  | cons hit hits ih =>
    have hhit := hhits hit List.mem_cons_self
    -- one hit: the action and its score move together
    have hstep : (weigh decision hit).riskScore = scoreOf (weigh decision hit).action ∧
        ((weigh decision hit).action = .reject ↔
          decision.action = .reject ∨ hit.action = .reject) ∧
        ((weigh decision hit).action = .pass ↔ decision.action = .pass ∧ hit.action = .pass) := by
      simp only [weigh, hscore, hhit]
      cases decision.action <;> cases hit.action <;> decide
    obtain ⟨hkeep, hsum, hreject, hpass⟩ :=
      ih hr (fun x hx => hhits x (List.mem_cons_of_mem _ hx)) hstep.1
    refine ⟨hkeep, hsum, hreject.trans ?_, hpass.trans ?_⟩
    · simp [hstep.2.1, or_assoc]
    · simp [hstep.2.2, and_assoc]

theorem stuffing_mem (h : isStuffing config features = true) :
    ⟨⟨ascii "credential_stuffing_attack", .reject⟩, kRejectScore⟩ ∈
      policyHits config features blacklist := by
  simp [h]

end LoginPolicyChain

/-! ### The service -/

open BlacklistCandidateGenerator BlacklistMutation LoginPolicyChain

/-- What the service says about an attempt. -/
structure RiskEvaluation [Inet] where
  decision : ScoredDecision
  candidates : List BlacklistMutation

namespace RiskService

/-- Look the attempt up in the blacklist. -/
def blacklistOf (manager : Option BlacklistManager) (attempt : LoginAttempt) (nowMs : ℕ) :
    LoginBlacklistMatches :=
  match manager with
  | none => ⟨false, false, false⟩
  | some manager => manager.loginMatches attempt.userId attempt.ip attempt.deviceId nowMs

variable [Inet] (hash : Bytes → ℕ) (policy : LoginPolicyConfig)

/-- Judge an attempt, which counts for its own features. -/
def evaluate (store : LoginFeatureStore) (manager : Option BlacklistManager)
    (attempt : LoginAttempt) (nowMs : ℕ) : RiskEvaluation × LoginFeatureStore :=
  let updated := store.updateAndGet hash attempt nowMs
  let blacklist := blacklistOf manager attempt nowMs
  let decision := LoginPolicyChain.evaluate policy updated.1 blacklist
  (⟨decision, generate attempt
    ⟨decision.action, decision.policyHits.map (·.toPolicyHit)⟩ blacklist nowMs⟩, updated.2)

/-- What a decision and its candidates mean. -/
structure Judged (f : LoginFeatureSnapshot) (b : LoginBlacklistMatches) (attempt : LoginAttempt)
    (nowMs : ℕ) (e : RiskEvaluation) : Prop where
  rejected : e.decision.action = .reject ↔
    b.userHit ∨ b.ipHit ∨ b.deviceHit ∨ isStuffing policy f
  passed : e.decision.action = .pass ↔
    b = ⟨false, false, false⟩ ∧ isStuffing policy f = false ∧
    f.userLoginFail5m < policy.userFailureReviewThreshold ∧
    f.ipDistinctFailedUser10m < policy.ipSprayReviewThreshold ∧
    f.deviceDistinctAccount10m < policy.deviceSharingReviewThreshold
  score : e.decision.riskScore = scoreOf e.decision.action
  /-- Only stuffing that the blacklist does not know makes a candidate, which expires in time. -/
  candidate : ∀ m, m ∈ e.candidates ↔ b = ⟨false, false, false⟩ ∧ isStuffing policy f ∧
    nowMs + kTemporaryIpTtlMs ≤ kMaxExpireAtMs ∧
    upsert .ip attempt.ip kCredentialStuffingReason (nowMs + kTemporaryIpTtlMs) = some m

/-- **Every attempt is judged by its features and the blacklist.** -/
theorem evaluate_judged (store : LoginFeatureStore) (manager : Option BlacklistManager)
    (attempt : LoginAttempt) (nowMs : ℕ) :
    Judged policy (store.updateAndGet hash attempt nowMs).1 (blacklistOf manager attempt nowMs)
      attempt nowMs (evaluate hash policy store manager attempt nowMs).1 := by
  simp only [evaluate, LoginPolicyChain.evaluate]
  generalize (store.updateAndGet hash attempt nowMs).1 = f
  generalize blacklistOf manager attempt nowMs = b
  generalize hr : (policyHits policy f b).foldl weigh _ = r
  obtain ⟨hkeep, hscore, hreject, hpass⟩ :=
    foldl_weigh hr (by simp [or_imp, forall_and, scoreOf]) rfl
  have hrejected : r.action = .reject ↔ b.userHit ∨ b.ipHit ∨ b.deviceHit ∨ isStuffing policy f :=
    hreject.trans (by simp [or_and_right, exists_or, or_assoc])
  refine ⟨hrejected, hpass.trans ?_, hscore, fun m => ?_⟩
  · cases b
    simp [or_imp, forall_and, and_assoc]
  simp only [generate, hkeep]
  by_cases hnew : b = ⟨false, false, false⟩
  · subst hnew
    cases hs : isStuffing policy f with
    | false => simp [hrejected, hs]
    | true =>
      have hany : ((policyHits policy f ⟨false, false, false⟩).map (·.toPolicyHit)).any (fun hit =>
            hit.action == .reject && hit.reasonCode == kCredentialStuffingReason) = true :=
        List.any_eq_true.mpr ⟨_, List.mem_map_of_mem (stuffing_mem _ _ _ hs),
          Bool.and_eq_true_iff.mpr ⟨rfl, beq_self_eq_true _⟩⟩
      have hroom : nowMs + kTemporaryIpTtlMs ≤ kMaxExpireAtMs ↔
          ¬ kMaxExpireAtMs - kTemporaryIpTtlMs < nowMs := by
        simp only [kMaxExpireAtMs, kTemporaryIpTtlMs]
        omega
      rw [hany, hrejected.mpr (by simp [hs]), hroom]
      cases upsert .ip attempt.ip kCredentialStuffingReason (nowMs + kTemporaryIpTtlMs) <;>
        simp [eq_comm]
  · -- whatever the blacklist knows, nothing is proposed
    cases b
    grind

end RiskService

end AegisFlow
