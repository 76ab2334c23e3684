import CampusRules.Engine.Command
import CampusRules.Engine.Opening
import CampusRules.Engine.Rehearsal
import CampusRules.Proofs.Calls.Announcement
import CampusRules.Proofs.Calls.Frequency
import CampusRules.Proofs.Calls.Overlap
import CampusRules.Proofs.Calls.Quarantine
import CampusRules.Proofs.Calls.Registration
import CampusRules.Proofs.Calls.Version
import CampusRules.Proofs.Coercion.Listing
import CampusRules.Proofs.Engine.Acceptance
import CampusRules.Proofs.Engine.Ending
import CampusRules.Proofs.Engine.Reopening
import CampusRules.Proofs.Engine.Restart
import CampusRules.Proofs.Engine.Schedule
import CampusRules.Proofs.Engine.Sight
import CampusRules.Proofs.Path
import CampusRules.Proofs.Rule.Comparison
import CampusRules.Proofs.Rule.Conditions
import CampusRules.Proofs.Rule.Due
import CampusRules.Proofs.Rule.Reference
import CampusRules.Proofs.Rule.RoundTrip
import CampusRules.Proofs.Server.Answers
import CampusRules.Proofs.Server.Connection
import CampusRules.Proofs.Storage.Interruption
import CampusRules.Proofs.Template.Nested
import CampusRules.Proofs.Template.Repetition
import CampusRules.Server.Routes
import CampusRules.Server.Settings
import CampusRules.Server.Ticker
