import AssetPack.Main
import AssetPack.Package.Run
import AssetPack.Store.Operation
import AssetPack.Proofs.Package.Scanning
import AssetPack.Proofs.Log
import AssetPack.Proofs.Package.Canonical
import AssetPack.Proofs.Files.Putting
import AssetPack.Proofs.Files.Writing
import AssetPack.Proofs.Package.Builder
import AssetPack.Proofs.Package.Building
import AssetPack.Proofs.Store.Changes
import AssetPack.Proofs.Store.Ownership
import AssetPack.Proofs.Package.PrefixCode
import AssetPack.Proofs.Package.Truncation
import AssetPack.Proofs.Package.Stopped
import AssetPack.Proofs.Store.Numbering
import AssetPack.Proofs.Store.Handles
import AssetPack.Proofs.Manifest.Words
import AssetPack.Proofs.Reporting
import AssetPack.Proofs.Store.Reporting
import AssetPack.Proofs.Store.Names
import AssetPack.Proofs.Store.Separation
import AssetPack.Proofs.Manifest.Joining
import AssetPack.Proofs.LineEnds
import AssetPack.Proofs.Settings.Rendering
import AssetPack.Proofs.Files.Leading
import AssetPack.Proofs.Files.Sparing
import AssetPack.Proofs.Invariants
import AssetPack.Proofs.Package.Output
import AssetPack.Proofs.Command.Running
import AssetPack.Proofs.Command.Remembering
import AssetPack.Proofs.Manifest.Relisting
import AssetPack.Proofs.Manifest.Reloading
import AssetPack.Proofs.Package.Repeating
import AssetPack.Proofs.Settings.Reading
import AssetPack.Proofs.Command.Repeating
import AssetPack.Proofs.Package.Appending
import AssetPack.Proofs.Store.Contexts
import AssetPack.Proofs.Package.Refusals
import AssetPack.Proofs.Package.Textures
import AssetPack.Proofs.Store.Failing
import AssetPack.Proofs.Manifest.Counting
import AssetPack.Proofs.Store.Pushing
import AssetPack.Proofs.Files.Shuffling
import AssetPack.Proofs.Manifest.Walking
import AssetPack.Proofs.Package.Corruption
import AssetPack.Proofs.Import.Stages
import AssetPack.Proofs.Store.Uniforms
import AssetPack.Proofs.Store.Loading
import AssetPack.Proofs.Package.Positions
import AssetPack.Proofs.Package.Filling
