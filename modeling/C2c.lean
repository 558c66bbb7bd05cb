import C2c.Library.JavaText
import C2c.Library.Sha256
import C2c.Library.JavaObject
import C2c.Library.TextPattern
import C2c.Library.Machine
import C2c.Library.StructuredCode
import C2c.CobolParser.Parse
import C2c.CobolParser.PictureAgreement
import C2c.Runtime.DisplayedValues
import C2c.BuildTest.RunFailures
import C2c.Evidence.Contract
import C2c.Evidence.SuccessPacks
import C2c.Evidence.Accruals
import C2c.Evidence.ValidateHandler
import C2c.Evidence.EventLog
import C2c.Evidence.SecretRuns
import C2c.TargetJava.Accumulation
import C2c.TargetJava.Lockstep
import C2c.TargetJava.BodyShape
import C2c.TargetJava.FieldNames
import C2c.BuildTest.Captures
import C2c.BuildTest.OutputPolicy
import C2c.BuildTest.DiagnosticBounds
import C2c.TargetJava.PerformConditions
import C2c.TargetJava.StructuredRuns
import C2c.TargetJava.ConfinedTexts
import C2c.TargetJava.ReportedStatements
import C2c.Orchestrator.ContractRuns
import C2c.Orchestrator.BuildOutcomes
import C2c.Orchestrator.SandboxReleases
import C2c.Orchestrator.VerifiedRuns
import C2c.Orchestrator.GatewayFailures
import C2c.Orchestrator.ExportedParity
import C2c.Orchestrator.StoredArtifacts
import C2c.Harness.Restarts
import C2c.Bff.BudgetRuns
import C2c.Bff.AssistLedger
import C2c.Bff.SessionRuns
import C2c.Bff.RateLimit
import C2c.Studio.RedactedRegions
import C2c.Studio.DraftRuns
import C2c.Studio.TelemetryRuns
import C2c.Studio.ManualEditOverlay
import C2c.Studio.MergeRegions
import C2c.Studio.LineageNavigation
import C2c.Studio.StackTraceMapper
import C2c.Ledgers.Restores
import C2c.Gateway.Accounts
import C2c.Gateway.LedgerTexts
import C2c.SemanticIr.FieldLayouts
import C2c.Learning.EventIds
import C2c.Learning.TelemetryPayloads
import C2c.TrustCases.SharedDigests
import C2c.Orchestrator.CandidateFiles
import C2c.Orchestrator.DivergenceStatus
import C2c.Learning.Ingestion
import C2c.BuildTest.Materialisation
import C2c.Bff.RunViews
import C2c.Bff.OutputChange
import C2c.Runtime.CobolFieldArray
import C2c.TargetJava.ProgramMeaning
