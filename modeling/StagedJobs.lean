import StagedJobs.Main
import StagedJobs.Sameness
import StagedJobs.Proofs.LoadedWorkflows
import StagedJobs.Proofs.Catalogue.RoundTrip
import StagedJobs.Proofs.Catalogue.NothingDropped
import StagedJobs.Proofs.FlatValidation
import StagedJobs.Proofs.Catalogue.Concatenation
import StagedJobs.Proofs.Registration
import StagedJobs.Proofs.Catalogue.AllOrNothing
import StagedJobs.Proofs.Catalogue.EntryOrder
import StagedJobs.Proofs.WholeNumbers
import StagedJobs.Proofs.Catalogue.ParameterText
import StagedJobs.Proofs.WrittenAnswers
import StagedJobs.Proofs.Rounding
import StagedJobs.Proofs.IntegerText
import StagedJobs.Proofs.IntegerRange
import StagedJobs.Proofs.OrderedConditions
import StagedJobs.Proofs.GivenSettings
import StagedJobs.Proofs.StageConditions
import StagedJobs.Proofs.WorkflowConditions
import StagedJobs.Proofs.ParameterConditions
import StagedJobs.Proofs.Catalogue.Numerals
import StagedJobs.Proofs.StoredDefaults
import StagedJobs.Proofs.ExactValues
import StagedJobs.Proofs.SoundConversion
import StagedJobs.Proofs.ConformingValues
import StagedJobs.Proofs.Catalogue.ErrorLines
import StagedJobs.Proofs.RequestedActions
import StagedJobs.Proofs.Catalogue.Termination
