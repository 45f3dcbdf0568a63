import Sharding.Document.Writer
import Sharding.Key.Script
import Sharding.Main
import Sharding.Proofs.Algorithm.RangeFaults
import Sharding.Proofs.Algorithm.RangeLookup
import Sharding.Proofs.Document.Configuration
import Sharding.Proofs.Inline.Meaning
import Sharding.Proofs.Inline.Product
import Sharding.Proofs.Inline.Splitting
import Sharding.Proofs.Inline.Strings
import Sharding.Proofs.Key.Calls
import Sharding.Proofs.Key.History
import Sharding.Proofs.Key.Numbering
import Sharding.Proofs.Key.Regression
import Sharding.Proofs.Node
import Sharding.Proofs.Rule.Colocation
import Sharding.Proofs.Rule.Counters
import Sharding.Proofs.Rule.Faults
import Sharding.Proofs.Rule.Grouping
import Sharding.Proofs.Rule.Groups
import Sharding.Proofs.Rule.HintSets
import Sharding.Proofs.Rule.Home
import Sharding.Proofs.Rule.Respelling
import Sharding.Proofs.Rule.Translation
import Sharding.Proofs.Snapshots.Session
import Sharding.Proofs.Strategy.Canonical
