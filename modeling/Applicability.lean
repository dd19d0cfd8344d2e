import Applicability.Evaluator
import Applicability.Proofs.Combination
import Applicability.Proofs.Nesting
import Applicability.Verdict.Order
import Applicability.Proofs.Reading
import Applicability.Proofs.Records
import Applicability.Proofs.Following
import Applicability.Proofs.Questions
import Applicability.Proofs.Transparency
import Applicability.Proofs.Outcomes
import Applicability.Proofs.Bulk
import Applicability.Proofs.Effects
import Applicability.Proofs.Lockstep
import Applicability.Proofs.Calls
import Applicability.Proofs.Sessions
import Applicability.Proofs.Scopes
import Applicability.Proofs.Finality
import Applicability.Proofs.Watching
import Applicability.Proofs.Guarding
import Applicability.Proofs.Building
import Applicability.Proofs.Complaints
import Applicability.Proofs.Linking
import Applicability.Proofs.Closure
import Applicability.Proofs.Correspondence
import Applicability.Proofs.Arrangement
import Applicability.Proofs.Ascending
import Applicability.Proofs.Ranking
import Applicability.Proofs.Format
import Applicability.Proofs.Making
import Applicability.Proofs.Failing
import Applicability.Proofs.Acceptance
import Applicability.Proofs.Batches
import Applicability.Proofs.Judging
import Applicability.Proofs.Denial
import Applicability.Proofs.Restricting
import Applicability.Proofs.Alternatives
import Applicability.Proofs.Folding
import Applicability.Proofs.Storing
import Applicability.Proofs.Relinking
import Applicability.Proofs.Dangling
import Applicability.Proofs.Reordering
import Applicability.Proofs.SelfMatching
import Applicability.Proofs.Interrupting
import Applicability.Proofs.Measuring
import Applicability.Proofs.Merging
import Applicability.Proofs.Ignoring
