import Rulebook.Compile.RuleSet
import Rulebook.Compile.Sharing
import Rulebook.Model.ModelText
import Rulebook.Rule.StoredText
import Rulebook.Session.Pass
import Rulebook.Proofs.Lexis.Spelling
import Rulebook.Proofs.Lexis.Reading
import Rulebook.Proofs.Lexis.Segmentation
import Rulebook.Proofs.Rule.Acceptance
import Rulebook.Proofs.Number.PlainText
import Rulebook.Proofs.Rule.RoundTrip
import Rulebook.Proofs.Rule.Storage
import Rulebook.Proofs.Compile.Binding
import Rulebook.Proofs.Compile.Sharing
import Rulebook.Proofs.Model.Typing
import Rulebook.Proofs.Model.Validity
import Rulebook.Proofs.Model.ModelText
import Rulebook.Proofs.Session.Pass
import Rulebook.Proofs.Session.Typing
import Rulebook.Proofs.Session.Conditions
import Rulebook.Proofs.Session.Dependence
import Rulebook.Proofs.Session.Rerun
import Rulebook.Proofs.Rule.Place
import Rulebook.Proofs.Rule.EarliestFault
import Rulebook.Proofs.Rule.Reuse
import Rulebook.Proofs.Lexis.Respelling
import Rulebook.Proofs.Lexis.Concatenation
import Rulebook.Proofs.Lexis.Requests
import Rulebook.Proofs.Compile.Respelling
import Rulebook.Proofs.Number.Layout
import Rulebook.Proofs.Json.Numbers
import Rulebook.Proofs.Json.ReadBack
import Rulebook.Proofs.Rule.StoredText
import Rulebook.Proofs.Compile.Persistence
import Rulebook.Proofs.Session.Reordering
import Rulebook.Proofs.Session.Noninterference
import Rulebook.Proofs.Session.Replay
import Rulebook.Proofs.Compile.Batch
import Rulebook.Proofs.Number.Comparison
import Rulebook.Proofs.Session.Meaning
import Rulebook.Proofs.Session.Safety
import Rulebook.Proofs.Compile.Refinement
