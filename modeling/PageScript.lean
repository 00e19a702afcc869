import PageScript.Files.Directory
import PageScript.Page.Compiler
import PageScript.Page.Rehearsal
import PageScript.Page.Report
import PageScript.Settings.Json
import PageScript.Proofs.Image.Container
import PageScript.Proofs.Image.Instruction
import PageScript.Proofs.Image.RoundTrip
import PageScript.Proofs.Image.Faults
import PageScript.Proofs.Emission.Code
import PageScript.Proofs.Emission.Loading
import PageScript.Proofs.Emission.Places
import PageScript.Proofs.Rendering.Bound
import PageScript.Proofs.Rendering.BuildModes
import PageScript.Proofs.Binding.Judgement
import PageScript.Proofs.Binding.Resolution
import PageScript.Proofs.Binding.Rules
import PageScript.Proofs.Binding.WellFormed
import PageScript.Proofs.Binding.Placement
import PageScript.Proofs.Binding.Shape
import PageScript.Proofs.Binding.Rearrangement
import PageScript.Proofs.Compilation.Simulation
import PageScript.Proofs.Compilation.Correctness
import PageScript.Proofs.Rendering.Safety
import PageScript.Proofs.Image.Bounds
import PageScript.Proofs.Page.Catalog
import PageScript.Proofs.Page.Cache
import PageScript.Proofs.Page.Views
import PageScript.Proofs.Page.Units
import PageScript.Proofs.Page.Fleet
import PageScript.Proofs.Page.Lifecycle
import PageScript.Proofs.Page.Lockstep
import PageScript.Proofs.Page.Discovery
import PageScript.Proofs.Page.Recording
import PageScript.Proofs.Page.Attempts
import PageScript.Proofs.Page.Ending
import PageScript.Proofs.Page.Walk
import PageScript.Proofs.Page.Projection
import PageScript.Proofs.Compilation.Availability
import PageScript.Proofs.Compilation.Places
import PageScript.Proofs.Pieces
import PageScript.Proofs.Script.Grammar
import PageScript.Proofs.Script.Acceptance
import PageScript.Proofs.Script.Directives
import PageScript.Proofs.Script.Lexemes
import PageScript.Proofs.Script.Lines
import PageScript.Proofs.Script.Mapping
import PageScript.Proofs.Script.Printing
import PageScript.Proofs.Compilation.Independence
import PageScript.Proofs.Page.Requests
import PageScript.Proofs.Wire.Truncation
import PageScript.Proofs.Image.Truncation
import PageScript.Image.Writer
import PageScript.Proofs.Image.Writer
import PageScript.Proofs.Emission.Identity
import PageScript.Proofs.Emission.Contents
import PageScript.Proofs.Image.Decoding
import PageScript.Proofs.Host.Registry
import PageScript.Proofs.Page.Traffic
import PageScript.Proofs.Path.Segments
import PageScript.Proofs.Path.NormalForm
import PageScript.Proofs.Path.Disk
import PageScript.Proofs.Emission.Documents
import PageScript.Proofs.Page.Sources
import PageScript.Proofs.Script.Recovery
import PageScript.Proofs.Rendering.Limits
import PageScript.Proofs.Compilation.Depth
import PageScript.Files.Sharing
import PageScript.Proofs.Files.Spellings
import PageScript.Proofs.Files.Sharing
import PageScript.Proofs.Emission.Merging
import PageScript.Proofs.Wire.Items
import PageScript.Proofs.Script.Progress
import PageScript.Proofs.Naming
