import ShaderPreview.Main
import ShaderPreview.Session
import ShaderPreview.Proofs.Pattern.Parts
import ShaderPreview.Proofs.Pattern.Spellings
import ShaderPreview.Proofs.Pattern.Lines
import ShaderPreview.Proofs.LineFidelity
import ShaderPreview.Proofs.Pattern.Spares
import ShaderPreview.Proofs.Pattern.Division
import ShaderPreview.Proofs.Declarations
import ShaderPreview.Proofs.Diagnostic
import ShaderPreview.Proofs.Files.Store
import ShaderPreview.Proofs.ExportRemap
import ShaderPreview.Proofs.Removal
import ShaderPreview.Proofs.Comments
import ShaderPreview.Proofs.Textures
import ShaderPreview.Proofs.Globals
import ShaderPreview.Proofs.Pattern.Free
import ShaderPreview.Proofs.Sessions
import ShaderPreview.Proofs.StaysRemoved
import ShaderPreview.Proofs.Pattern.Commute
import ShaderPreview.Proofs.Pattern.Openings
import ShaderPreview.Proofs.PassOrder
import ShaderPreview.Proofs.FileEffects
import ShaderPreview.Proofs.Files.AbsolutePath
import ShaderPreview.Proofs.Watch.Script
import ShaderPreview.Proofs.Watch.Interleaving
import ShaderPreview.Proofs.HiddenBuiltins
import ShaderPreview.Proofs.LineByLine
import ShaderPreview.Proofs.LoopCounts
import ShaderPreview.Proofs.Watch.Survival
import ShaderPreview.Proofs.TextureCalls
import ShaderPreview.Proofs.References
import ShaderPreview.Proofs.LineGrammar
import ShaderPreview.Proofs.Pattern.Settling
import ShaderPreview.Proofs.LoopHeaders
import ShaderPreview.Proofs.EntrySignature
import ShaderPreview.Proofs.LoopWarning
import ShaderPreview.Proofs.PreambleSize
import ShaderPreview.Proofs.Warnings
import ShaderPreview.Proofs.Decimal.DoubleValue
import ShaderPreview.Proofs.ConfigurationFaults
import ShaderPreview.Proofs.Listings
import ShaderPreview.Proofs.Pattern.Engines
import ShaderPreview.Proofs.Substitutions
