import IsaForge.Main
import IsaForge.Proofs.Digits
import IsaForge.Proofs.Reading
import IsaForge.Proofs.Cells
import IsaForge.Proofs.Placement
import IsaForge.Proofs.PatternText
import IsaForge.Proofs.Resolution
import IsaForge.Proofs.GeneratedDecoder
import IsaForge.Proofs.Overlaps
import IsaForge.Proofs.RuleOrder
import IsaForge.Proofs.InstructionBits
import IsaForge.Proofs.Spelling
import IsaForge.Proofs.ImmediateValue
import IsaForge.Proofs.Accepted
import IsaForge.Proofs.OpcodeNames
import IsaForge.Proofs.ControlTransfer
import IsaForge.Proofs.ImmediateEncoding
import IsaForge.Proofs.Numbering
import IsaForge.Proofs.OpcodeFlags
import IsaForge.Proofs.LineNumbers
import IsaForge.Proofs.RecordText
import IsaForge.Proofs.IdleLines
import IsaForge.Proofs.RunEffects
import IsaForge.Proofs.FormatText
import IsaForge.Proofs.TemplatePieces
import IsaForge.Proofs.DisassembledText
import IsaForge.Proofs.ActionPlaceholders
import IsaForge.Proofs.FlagNames
import IsaForge.Proofs.RegisterNumbers
import IsaForge.Proofs.OperandText
import IsaForge.Proofs.FieldDeclarations
import IsaForge.Proofs.RecordOrder
import IsaForge.Proofs.FirstError
import IsaForge.Proofs.FailingColumn
import IsaForge.Proofs.WriteEffects
import IsaForge.Proofs.ArtifactPaths
import IsaForge.Proofs.JsonText
import IsaForge.Proofs.ListedFields
import IsaForge.Proofs.WordTexts
