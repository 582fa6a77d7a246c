import ZonePlan.Main
import ZonePlan.Proofs.Json.Literals
import ZonePlan.Proofs.Json.RoundTrip
import ZonePlan.Proofs.Json.Structure
import ZonePlan.Proofs.Exchange
import ZonePlan.Proofs.Text
import ZonePlan.Proofs.SortedMap
import ZonePlan.Proofs.Assignments
import ZonePlan.Proofs.Zone.Label
import ZonePlan.Proofs.Zone.LabelPattern
import ZonePlan.Proofs.Zone.Record
import ZonePlan.Proofs.Zone.Occasions
import ZonePlan.Proofs.Zone.Placement
import ZonePlan.Proofs.Zone.Validity
import ZonePlan.Proofs.Files
import ZonePlan.Proofs.Zone.NormalForm
import ZonePlan.Proofs.Zone.Changes
import ZonePlan.Proofs.Zone.Order
import ZonePlan.Proofs.Zone.Conflicts
import ZonePlan.Proofs.Session
import ZonePlan.Proofs.Compositional
import ZonePlan.Proofs.Evaluation.Congruence
import ZonePlan.Proofs.Evaluation.Development
import ZonePlan.Proofs.Evaluation.MoreVariables
import ZonePlan.Proofs.Job.Course
import ZonePlan.Proofs.Job.Conduct
import ZonePlan.Proofs.Check
import ZonePlan.Proofs.Evaluation.Structure
import ZonePlan.Proofs.Evaluation.Classless
import ZonePlan.Proofs.Evaluation.NodeOrder
import ZonePlan.Proofs.Evaluation.RecordMetadata
import ZonePlan.Proofs.Evaluation.CombinedArguments
import ZonePlan.Proofs.RecordFields
import ZonePlan.Proofs.RecordGrammar
import ZonePlan.Proofs.Splitting
import ZonePlan.Proofs.QuotedValue
import ZonePlan.Proofs.Interpolation
import ZonePlan.Proofs.Notice
import ZonePlan.Proofs.Printing
import ZonePlan.Proofs.Report
import ZonePlan.Proofs.Address
import ZonePlan.Proofs.ReverseZone
import ZonePlan.Proofs.ReverseNaming
import ZonePlan.Proofs.ReverseUniqueness
import ZonePlan.Proofs.Json.Layout
