import TestSkeleton.Main
import TestSkeleton.Proofs.Discovery.Scan
import TestSkeleton.Proofs.Generation.ModuleFile
import TestSkeleton.Proofs.Rust.TypeLiteral
import TestSkeleton.Proofs.V.RoundTrip
import TestSkeleton.Proofs.Generation.Parallel
import TestSkeleton.Proofs.Generation.Accounting
import TestSkeleton.Proofs.Pattern.Path
import TestSkeleton.Proofs.Discovery.Reinclusion
import TestSkeleton.Proofs.Workspace.Save
import TestSkeleton.Proofs.Rust.ScopeName
import TestSkeleton.Proofs.Workspace.Growth
import TestSkeleton.Proofs.Discovery.Saved
import TestSkeleton.Proofs.Run.Saved
import TestSkeleton.Proofs.Run.Repeat
import TestSkeleton.Proofs.Extraction.Filter
import TestSkeleton.Proofs.Settings.Layer
import TestSkeleton.Proofs.Settings.Policy
import TestSkeleton.Proofs.Settings.Isolation
import TestSkeleton.Proofs.Settings.Override
import TestSkeleton.Proofs.Document.Entries
import TestSkeleton.Proofs.Settings.Layout
import TestSkeleton.Proofs.Document.Printed
import TestSkeleton.Proofs.Workspace.ReadBack
import TestSkeleton.Proofs.Settings.Reload
import TestSkeleton.Proofs.Run.Effects
import TestSkeleton.Proofs.Run.BrokenSource
import TestSkeleton.Proofs.Rust.Site
import TestSkeleton.Proofs.Rust.Commented
import TestSkeleton.Proofs.Rust.Decoration
import TestSkeleton.Proofs.Discovery.Output
import TestSkeleton.Proofs.Settings.Refusal
import TestSkeleton.Proofs.Generation.Arity
import TestSkeleton.Proofs.Discovery.SourcePath
import TestSkeleton.Proofs.Generation.Append
import TestSkeleton.Proofs.V.TypeLiteral
import TestSkeleton.Proofs.Rust.KeywordType
import TestSkeleton.Proofs.Rust.CratePath
import TestSkeleton.Proofs.Signature.Respacing
import TestSkeleton.Proofs.Extraction.NormalTypes
import TestSkeleton.Proofs.Rust.Receiver
import TestSkeleton.Proofs.Rust.LifetimeLiteral
import TestSkeleton.Proofs.V.Blanking
import TestSkeleton.Proofs.V.Parenthesis
import TestSkeleton.Proofs.Naming.Unique
import TestSkeleton.Proofs.Naming.Kept
import TestSkeleton.Proofs.Generation.Variables
import TestSkeleton.Proofs.Generation.TestName
import TestSkeleton.Proofs.Ignore.Agreement
import TestSkeleton.Proofs.Generation.Imports
import TestSkeleton.Proofs.CommandLine.Init
import TestSkeleton.Proofs.Extraction.Session
import TestSkeleton.Proofs.Rust.Instance
import TestSkeleton.Proofs.V.TestText
import TestSkeleton.Proofs.Signature.Rejoin
import TestSkeleton.Proofs.Pattern.Slash
