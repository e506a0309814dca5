import ContextLog.Main
import ContextLog.Value.Construct
import ContextLog.Proofs.Admission
import ContextLog.Proofs.Origin
import ContextLog.Proofs.Reuse
import ContextLog.Proofs.Settings
import ContextLog.Proofs.Threshold
import ContextLog.Proofs.Sends
import ContextLog.Proofs.Sinks
import ContextLog.Proofs.Nesting
import ContextLog.Proofs.Reentry
import ContextLog.Proofs.Untraced
import ContextLog.Proofs.Tracing
import ContextLog.Proofs.Counting
import ContextLog.Proofs.Calls
import ContextLog.Proofs.LetterCase
import ContextLog.Proofs.Coercion
import ContextLog.Proofs.Seeding
import ContextLog.Proofs.TextArguments
import ContextLog.Proofs.CommandLine
import ContextLog.Proofs.Parallel
import ContextLog.Proofs.Moments
import ContextLog.Proofs.Renaming
import ContextLog.Proofs.Conventions
import ContextLog.Proofs.Backends
import ContextLog.Proofs.Exchange
import ContextLog.Proofs.Hosting
import ContextLog.Proofs.Snapshots
import ContextLog.Proofs.Endings
import ContextLog.Proofs.Placeholders
import ContextLog.Proofs.ScalarArguments
import ContextLog.Proofs.Merging
import ContextLog.Proofs.Drafts
import ContextLog.Proofs.Contextual
import ContextLog.Proofs.EmissionLaw
import ContextLog.Proofs.Lines
import ContextLog.Proofs.Printable
import ContextLog.Proofs.StreamLines
import ContextLog.Proofs.Renderings
import ContextLog.Proofs.Refusals
import ContextLog.Proofs.Loading
import ContextLog.Proofs.ScalarTexts
import ContextLog.Proofs.Pairs
import ContextLog.Proofs.Arity
import ContextLog.Proofs.Recording
import ContextLog.Proofs.Workers
import ContextLog.Proofs.Words
import ContextLog.Proofs.Restoring
import ContextLog.Proofs.Substitution
import ContextLog.Proofs.Chains
