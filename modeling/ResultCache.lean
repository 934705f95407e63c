import ResultCache.Main
import ResultCache.Config.FromJson
import ResultCache.Session
import ResultCache.Proofs.SerialEquivalence
import ResultCache.Proofs.ReadIsolation
import ResultCache.Proofs.Beside
import ResultCache.Proofs.Transparency
import ResultCache.Proofs.Provenance
import ResultCache.Proofs.StoreCalls
import ResultCache.Proofs.Erasure
import ResultCache.Proofs.Freshness
import ResultCache.Proofs.Repetition
import ResultCache.Proofs.LookupKeys
import ResultCache.Proofs.Separators
import ResultCache.Proofs.CanonicalBytes
import ResultCache.Proofs.KeyTexts
import ResultCache.Proofs.Resolution
import ResultCache.Proofs.NamedValues
import ResultCache.Proofs.StoredValues
import ResultCache.Proofs.QueryOrder
import ResultCache.Proofs.TransactionEnds
import ResultCache.Proofs.Redis.Patterns
import ResultCache.Proofs.Redis.Servers
import ResultCache.Proofs.Redis.Scopes
import ResultCache.Proofs.Redis.SeparateStores
import ResultCache.Proofs.Routing
import ResultCache.Proofs.Redis.Commands
import ResultCache.Proofs.Redis.Reach
import ResultCache.Proofs.BuildOutcomes
import ResultCache.Proofs.Namespaces
import ResultCache.Proofs.NamespaceRequests
import ResultCache.Proofs.Flushes
import ResultCache.Proofs.ViewHistories
