import FirewallManager.Core.Wire

/-!
# The check-in messages

What an agent and the manager send each other. The request bodies name a host, but the manager
takes the host of a request from the client certificate and never reads that field.
JSON values that neither side looks into are kept as their text.
-/

namespace FirewallManager

/-- The body of a check-in. -/
structure CheckInRequest where
  hostId : Uuid
  rulesHash : String
  agentVersion : String
  backendType : String
  osInfo : String
  uptimeSeconds : Int
  configVersion : Int
  localDrift : Bool
  agentBinaryHash : Option String
  deriving DecidableEq, Repr

/-- New settings for an agent. -/
structure ConfigUpdate where
  checkInIntervalSecs : Int
  pushEnabled : Bool
  safeModeEnabled : Bool
  backendOverride : Option String
  configVersion : Int
  deriving DecidableEq, Repr

/-- A queued action on its way to the agent. -/
structure PendingActionDto where
  id : Uuid
  actionType : String
  payload : String
  reason : String
  deriving DecidableEq, Repr

/-- The answer to a check-in. -/
structure CheckInResponse where
  rulesChanged : Bool
  rules : List RuleDto
  config : Option ConfigUpdate
  pendingActions : List PendingActionDto
  defaultInputPolicy : Option String
  defaultOutputPolicy : Option String
  deriving DecidableEq, Repr

/-- The body of a result report, for an apply or for a pending action. -/
structure CheckInResultRequest where
  hostId : Uuid
  actionId : Option Uuid
  success : Bool
  errorMessage : Option String
  newRulesHash : String
  deriving DecidableEq, Repr

end FirewallManager
