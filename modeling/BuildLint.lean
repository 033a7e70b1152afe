import BuildLint.Main
import BuildLint.Proofs.Analysis.LogLifetime
import BuildLint.Proofs.Analysis.ResultFile
import BuildLint.Proofs.Report.RoundTrip
import BuildLint.Proofs.Report.Regrouping
import BuildLint.Proofs.Report.Reordering
import BuildLint.Proofs.CMake.Units
import BuildLint.Proofs.CMake.Exclusion
import BuildLint.Proofs.Action.Questions
import BuildLint.Proofs.Analysis.Sharing
import BuildLint.Proofs.Action.Rollback
import BuildLint.Proofs.CommandLine.Tokens
import BuildLint.Proofs.Analysis.Invocations
import BuildLint.Proofs.Analysis.Replies
import BuildLint.Proofs.Settings.Options
import BuildLint.Proofs.Console.DryRun
import BuildLint.Proofs.CommandLine.Blocks
import BuildLint.Proofs.Analysis.Flags
import BuildLint.Proofs.Path.Components
import BuildLint.Proofs.Path.FromEnd
import BuildLint.Proofs.Toolchain.Separators
import BuildLint.Proofs.Report.Grammar
import BuildLint.Proofs.Path.Levels
import BuildLint.Proofs.Toolchain.Installation
import BuildLint.Proofs.CMake.FirstFailure
import BuildLint.Proofs.CMake.Indexes
import BuildLint.Proofs.CMake.NewestIndex
import BuildLint.Proofs.Analysis.ResultPath
import BuildLint.Proofs.Toolchain.Resolution
import BuildLint.Proofs.CMake.QueryFile
import BuildLint.Proofs.CMake.QueryDirectory
import BuildLint.Proofs.CMake.VersionOrder
import BuildLint.Proofs.Analysis.PromptOutput
import BuildLint.Proofs.Analysis.SharedArguments
import BuildLint.Proofs.Analysis.CallEnvironment
import BuildLint.Proofs.Path.Resolving
import BuildLint.Proofs.Settings.PathList
import BuildLint.Proofs.Toolchain.TakingNames
