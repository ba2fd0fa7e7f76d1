import Turnstile.Binary64.Shortest
import Turnstile.Cache.Store
import Turnstile.CommandLine.Run
import Turnstile.Config.File
import Turnstile.Hash.Sha256
import Turnstile.Limiter.Decision
import Turnstile.Main
import Turnstile.Proofs.Cache.TimedMap
import Turnstile.Proofs.Config.Decoding
import Turnstile.Proofs.Limiter.Burst
import Turnstile.Proofs.Limiter.Grant
import Turnstile.Proofs.Limiter.Slot
import Turnstile.Proofs.Session.Abreast
import Turnstile.Proofs.Session.Alike
import Turnstile.Proofs.Session.Answers
import Turnstile.Proofs.Session.Burst
import Turnstile.Proofs.Session.CacheLog
import Turnstile.Proofs.Session.Change
import Turnstile.Proofs.Session.Conclusion
import Turnstile.Proofs.Session.Distance
import Turnstile.Proofs.Session.Exclusion
import Turnstile.Proofs.Session.Flowing
import Turnstile.Proofs.Session.Granting
import Turnstile.Proofs.Session.History
import Turnstile.Proofs.Session.Independence
import Turnstile.Proofs.Session.Order
import Turnstile.Proofs.Session.Placement
import Turnstile.Proofs.Session.Reach
import Turnstile.Proofs.Session.Refused
import Turnstile.Proofs.Session.Release
import Turnstile.Proofs.Session.Resolution
import Turnstile.Proofs.Session.Serving
import Turnstile.Proofs.Session.Settling
import Turnstile.Proofs.Session.Spacing
import Turnstile.Proofs.Session.Sweeping
import Turnstile.Session.Report
import Turnstile.Yaml.Document
import Turnstile.Proofs.Limiter.Standstill
import Turnstile.Proofs.CommandLine.Issuing
import Turnstile.Proofs.Session.Corruption
import Turnstile.Proofs.Session.Standstill
import Turnstile.Proofs.CommandLine.ClosedForm
import Turnstile.Proofs.Session.Anonymity
import Turnstile.Proofs.Session.Dropping
import Turnstile.Proofs.Session.Teardown
import Turnstile.Proofs.Session.Faultless
import Turnstile.Proofs.Session.Punctuality
import Turnstile.Proofs.Session.Lockout
import Turnstile.Proofs.Key.Identity
import Turnstile.Proofs.Session.Backlog
import Turnstile.Proofs.Session.Offset
import Turnstile.Proofs.Key.Striping
import Turnstile.Proofs.Cache.Accounting
import Turnstile.Proofs.Limiter.Acceptance
import Turnstile.Proofs.CommandLine.Completion
import Turnstile.Proofs.CommandLine.ExitStatus
