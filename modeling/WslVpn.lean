import WslVpn.Control.Properties.NetworkContainment
import WslVpn.Control.Properties.RevocationRetry
import WslVpn.Control.Properties.CreationAtomicity
import WslVpn.Control.Properties.AddressRelease
import WslVpn.Control.Properties.AccessWithdrawal
import WslVpn.Control.Properties.AddressIdentity
import WslVpn.Control.Properties.VersionPointer
import WslVpn.Control.Properties.DecisionRecord
import WslVpn.Control.Properties.EnrolmentProof
import WslVpn.Gateway.Properties.FirewallVerdict
import WslVpn.Gateway.Properties.ExpiryOnWire
import WslVpn.Control.Properties.ConfigVersion
import WslVpn.Audit.Properties.DeletionDetection
import WslVpn.Audit.Properties.VerifierIndependence
import WslVpn.Control.Properties.DeviceOwnership
import WslVpn.Control.Properties.UserDeletion
import WslVpn.Control.Properties.LastAdministrator
import WslVpn.Dns.Properties.OverrideNames
import WslVpn.Auth.Properties.OneAccount
import WslVpn.Auth.Properties.NativeHandshake
import WslVpn.Auth.Properties.BindingStability
import WslVpn.Control.Properties.RateBound
import WslVpn.Agent.Properties.PowerShellQuoting
import WslVpn.Agent.Properties.ShellQuoting
import WslVpn.Agent.Properties.ProfileSafety
import WslVpn.Agent.Properties.LibraryFiles
import WslVpn.Agent.Properties.ManagedRoundTrip
import WslVpn.Dns.Properties.ResolverSync
import WslVpn.Dns.Properties.TableFreshness
import WslVpn.Control.Properties.RateIsolation
import WslVpn.Control.Properties.PostureMonotone
import WslVpn.Control.Properties.ComplianceDefault
import WslVpn.Control.Properties.DurationSafety
import WslVpn.Control.Properties.StoredPolicies
import WslVpn.Control.Properties.AddressChoice
import WslVpn.Control.Properties.DeclaredPorts
import WslVpn.Gateway.Properties.AddedPeers
import WslVpn.Gateway.Properties.ServiceNames
import WslVpn.Agent.Properties.SessionRelease
import WslVpn.Agent.Properties.StoredForm
import WslVpn.Control.Properties.SecretExpansion
import WslVpn.Dns.Properties.ReplySizes
import WslVpn.Control.Properties.PublicLockdown
import WslVpn.Control.Properties.PatchOrder
import WslVpn.Auth.Properties.ConfiguredAdmins
import WslVpn.Agent.Properties.StrayConnections
import WslVpn.Gateway.Properties.StoredCredential
import WslVpn.Dns.Properties.LongestMatch
import WslVpn.Dns.Properties.BuiltQueries
import WslVpn.Dns.Entries
import WslVpn.Dns.Properties.SavedTables
import WslVpn.Dns.Properties.RoutedNames
import WslVpn.Dns.Properties.ParserSafety
import WslVpn.Dns.Forwarding
import WslVpn.Dns.Properties.Relaying
import WslVpn.Agent.Launchd
import WslVpn.Agent.DnsRouting
import WslVpn.Dns.Properties.ClientAnswers
import WslVpn.Fallible.Triples
import WslVpn.Agent.Properties.RoutedFiles
import WslVpn.Agent.Properties.OverrideEdits
import WslVpn.Agent.Properties.SoundProfiles
import WslVpn.Agent.Properties.WindowsElevation
import WslVpn.Auth.Properties.ProviderCaches
import WslVpn.Crypto.Properties.Pkce
import WslVpn.Gateway.Dump
import WslVpn.Gateway.Properties.DumpReading
import WslVpn.Control.Properties.GrantedSessions
import WslVpn.Control.Properties.RateMemory
