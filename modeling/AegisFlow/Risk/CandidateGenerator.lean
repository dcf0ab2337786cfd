import AegisFlow.Feature.FeatureStore
import AegisFlow.Risk.Snapshot

/-!
# Candidates for the blacklist

A login that is rejected as credential stuffing makes its address a candidate for the blacklist,
for half an hour from now on.  `generate` decides this from the decision about the attempt and from
the snapshot the decision was made with: nothing is proposed if the snapshot knew the user, the
address or the device already.
-/

namespace AegisFlow

/-- What to do with a login attempt. -/
inductive LoginDecisionAction
  | pass
  | review
  | reject
  deriving DecidableEq, Repr

/-- A policy that applies to the attempt. -/
structure PolicyHit where
  reasonCode : Bytes
  action : LoginDecisionAction
  deriving DecidableEq, Repr

/-- The decision about an attempt, as far as it matters for the blacklist. -/
structure LoginDecision where
  action : LoginDecisionAction
  policyHits : List PolicyHit
  deriving DecidableEq, Repr

namespace BlacklistCandidateGenerator

/-- How long an address stays blacklisted: half an hour. -/
def kTemporaryIpTtlMs : ℕ := 30 * 60 * 1000

/-- The policy that makes candidates. -/
def kCredentialStuffingReason : Bytes := ascii "credential_stuffing_attack"

variable [Inet]

/-- The candidates of an attempt. -/
def generate (attempt : LoginAttempt) (decision : LoginDecision)
    (blacklist : LoginBlacklistMatches) (nowMs : ℕ) : List BlacklistMutation :=
  if decision.action ≠ .reject || blacklist.userHit || blacklist.ipHit || blacklist.deviceHit then
    []
  else
    let credentialStuffingReject := decision.policyHits.any fun hit =>
      hit.action == .reject && hit.reasonCode == kCredentialStuffingReason
    if !credentialStuffingReject ||
        decide (BlacklistMutation.kMaxExpireAtMs - kTemporaryIpTtlMs < nowMs) then []
    else
      match BlacklistMutation.upsert .ip attempt.ip kCredentialStuffingReason
          (nowMs + kTemporaryIpTtlMs) with
      | none => []
      | some mutation => [mutation]

end BlacklistCandidateGenerator

end AegisFlow
