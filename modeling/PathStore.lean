import PathStore.Key.Json
import PathStore.Main
import PathStore.Overlay.Session
import PathStore.Store.Faulty
import PathStore.Workspace.Registry
import PathStore.Proofs.LastWrite
import PathStore.Proofs.Staging
import PathStore.Proofs.Backends
import PathStore.Proofs.Commit
import PathStore.Proofs.Journal
import PathStore.Proofs.Refinement
import PathStore.Proofs.Recorder
import PathStore.Proofs.Isolation
import PathStore.Proofs.Packing
import PathStore.Proofs.Atomicity
import PathStore.Proofs.PartialCommit
import PathStore.Proofs.Prefixed
import PathStore.Proofs.Batches
import PathStore.Proofs.Pending
import PathStore.Proofs.Opening
import PathStore.Proofs.Contents
import PathStore.Proofs.CommandSessions
import PathStore.Proofs.Uncommitted
import PathStore.Proofs.TypedPaths
import PathStore.Proofs.SettingsText
import PathStore.Proofs.TokenStreams
import PathStore.Proofs.SelfDelimiting
import PathStore.Proofs.WholeTexts
import PathStore.Proofs.Accounting
import PathStore.Proofs.Closing
import PathStore.Proofs.RefusedOperands
import PathStore.Proofs.Rehearsal
import PathStore.Proofs.TransactionHistory
import PathStore.Proofs.Grammar
import PathStore.Proofs.GrammarTokens
import PathStore.Proofs.LeafKeys
import PathStore.Proofs.StrayDigits
import PathStore.Proofs.GrammarValues
import PathStore.Proofs.GrammarReading
import PathStore.Proofs.GivenSettings
import PathStore.Proofs.BatchTexts
import PathStore.Proofs.PairedNibbles
import PathStore.Proofs.OutOfPlace
import PathStore.Proofs.LosslessText
import PathStore.Proofs.TokenTexts
import PathStore.Proofs.KeyTexts
import PathStore.Proofs.StringTexts
import PathStore.Proofs.PassedTexts
import PathStore.Proofs.RecordTexts
import PathStore.Proofs.AcceptedSettings
import PathStore.Proofs.AcceptedBatches
import PathStore.Proofs.OpenTrees
import PathStore.Proofs.Targets
import PathStore.Proofs.CommandEffects
