import FirewallManager.Agent.DriftHash
import FirewallManager.Agent.ProtectedSound
import FirewallManager.Manager.BulkAssign
import FirewallManager.Audit.Anchor
import FirewallManager.Agent.ManagerUrl
import FirewallManager.Ca.Generation
import FirewallManager.Ca.ConcurrentRevoke
import FirewallManager.Enrollment.RevokedToken
import FirewallManager.Manager.ForceCheckIn
import FirewallManager.System.ActionStatus
import FirewallManager.Auth.Refresh
import FirewallManager.Auth.Lockout
import FirewallManager.Agent.Replacement
import FirewallManager.Agent.KnownRuleset
import FirewallManager.Ufw.InterfaceText
import FirewallManager.Agent.Programs
import FirewallManager.Ca.CrlExact
import FirewallManager.Manager.Preview
import FirewallManager.Manager.MigratedPolicies
import FirewallManager.Manager.DriftCount
import FirewallManager.System.FalseDrift
import FirewallManager.Worker.Punctual
import FirewallManager.Worker.StaleDetector
import FirewallManager.Ca.CrlOrder
import FirewallManager.Audit.Trail
import FirewallManager.Enrollment.Waiting
import FirewallManager.Enrollment.Release
import FirewallManager.Enrollment.Atomicity
import FirewallManager.Auth.AllowlistEntries
import FirewallManager.Manager.ProtectedCheck
import FirewallManager.Manager.BroadFlag
import FirewallManager.Agent.FailedApply
import FirewallManager.Firewalld.Widening
import FirewallManager.Manager.Reorder
import FirewallManager.System.SafeModeFrame
import FirewallManager.Agent.ResetRetry
import FirewallManager.Agent.SeededCidr
import FirewallManager.Core.HashLayout
import FirewallManager.Ca.IssuingChain
import FirewallManager.Ca.PemBundle
import FirewallManager.System.NextCycle
import FirewallManager.System.Enforcement
