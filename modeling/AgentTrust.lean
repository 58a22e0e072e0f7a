import AgentTrust.TextCode
import AgentTrust.JsonTree
import AgentTrust.JsonText
import AgentTrust.Gregorian
import AgentTrust.PyText
import AgentTrust.PyJson
import AgentTrust.PyDateTime
import AgentTrust.IsoFormat
import AgentTrust.IsoOrder
import AgentTrust.Sha256
import AgentTrust.Effects
import AgentTrust.Runs
import AgentTrust.CommitReveal
import AgentTrust.OrderedDict
import AgentTrust.CallBinding
import AgentTrust.PyValue
import AgentTrust.Models
import AgentTrust.Hashing
import AgentTrust.Exchange
import AgentTrust.Client
import AgentTrust.Storage
import AgentTrust.Tasks
import AgentTrust.Publication
import AgentTrust.Verifier
import AgentTrust.Disclosure
import AgentTrust.RawDisclosure
import AgentTrust.ContentHash
import AgentTrust.ProofHash
import AgentTrust.SignedCommit
import AgentTrust.TamperEvidence
import AgentTrust.StoredJson
import AgentTrust.HonestAgent
import AgentTrust.Verdicts
import AgentTrust.Assessments
import AgentTrust.VerifierAgreement
import AgentTrust.CommitPayload
import AgentTrust.DependencyForms
import AgentTrust.ResponseCheck
import AgentTrust.ExpiryAgreement
import AgentTrust.StoreRaces
import AgentTrust.StoreRefinement
import AgentTrust.WriteHistory
import AgentTrust.StoreHistory
import AgentTrust.AsyncLock
import AgentTrust.Coroutines
import AgentTrust.StoreCoroutines
import AgentTrust.StoreAgreement
import AgentTrust.Registration
import AgentTrust.SystemUris
import AgentTrust.TaskBlock
import AgentTrust.PostedCommits
import AgentTrust.ContentTransport
import AgentTrust.RegistrationIdentity
import AgentTrust.DependencyChallenges
import AgentTrust.HostileReplies
import AgentTrust.ExchangeQueries
import AgentTrust.ReplyShapes
import AgentTrust.ExchangeReplies
import AgentTrust.FaultySteps
import AgentTrust.StoreFaults
import AgentTrust.Durability
import AgentTrust.SchemaLock
import AgentTrust.InstantTexts
import AgentTrust.CommitAddresses
import AgentTrust.CommittedDependencies
import AgentTrust.HttpClients
import AgentTrust.ServedClients
import AgentTrust.CanonicalJson
import AgentTrust.ResponseDecorator
import AgentTrust.ContextVars
import AgentTrust.CurrentTask
import AgentTrust.ReportedCommit
import AgentTrust.Acceptance
import AgentTrust.Courses
import AgentTrust.Traffic
import AgentTrust.AssessmentLedger
import AgentTrust.UpstreamProofs
