import TeamRouting.Service
import TeamRouting.FileFormat
import TeamRouting.CommandLine.Session
import TeamRouting.Main
import TeamRouting.Proofs.Merging
import TeamRouting.Proofs.Partition
import TeamRouting.Proofs.Traversal
import TeamRouting.Proofs.FanoutIndependence
import TeamRouting.Proofs.Protocol
import TeamRouting.Proofs.BindingIndependence
import TeamRouting.Proofs.Floats
import TeamRouting.Proofs.Meaning
import TeamRouting.Proofs.MeaningPreservation
import TeamRouting.Proofs.Acceptance
import TeamRouting.Proofs.Reach
import TeamRouting.Proofs.Cancellation
import TeamRouting.Proofs.MissingAnswers
import TeamRouting.Proofs.Interchange
import TeamRouting.Proofs.Substitution
import TeamRouting.Proofs.Trimming
import TeamRouting.Proofs.Templates
import TeamRouting.Proofs.RoundTrip
import TeamRouting.Proofs.TenantIsolation
import TeamRouting.Proofs.Preflight
import TeamRouting.Proofs.Notices
import TeamRouting.Proofs.WarningList
import TeamRouting.Proofs.ShortCircuit
import TeamRouting.Proofs.SettledRules
import TeamRouting.Proofs.UnusableAnswers
import TeamRouting.Proofs.Explanations
import TeamRouting.Proofs.ChoiceNames
import TeamRouting.Proofs.UnnamedAnswers
import TeamRouting.Proofs.NumberForms
import TeamRouting.Proofs.LowerCase
import TeamRouting.Proofs.LiteralParts
import TeamRouting.Proofs.Regrouping
import TeamRouting.Proofs.Restoration
import TeamRouting.Proofs.Spellings
import TeamRouting.Proofs.Rounding
import TeamRouting.Proofs.Packing
import TeamRouting.Proofs.NearestFloats
import TeamRouting.Proofs.ShortestDecimals
import TeamRouting.Proofs.FloatTexts
import TeamRouting.Proofs.WrittenNumbers
import TeamRouting.Proofs.SetOperators
import TeamRouting.Proofs.GroupReading
import TeamRouting.Proofs.FloatValues
import TeamRouting.Proofs.Differences
import TeamRouting.Proofs.WholeNumbers
import TeamRouting.Proofs.NumberRules
import TeamRouting.Proofs.Invocations
import TeamRouting.Proofs.SeparateTallies
import TeamRouting.Proofs.WordRanges
