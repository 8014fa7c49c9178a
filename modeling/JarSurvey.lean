import JarSurvey.Main
import JarSurvey.Proofs.Except
import JarSurvey.Proofs.ClassFile.Selection
import JarSurvey.Proofs.ClassFile.References
import JarSurvey.Proofs.ClassFile.Unfolding
import JarSurvey.Proofs.Digest.Sha1
import JarSurvey.Proofs.Text.Decimal
import JarSurvey.Proofs.Text.Utf8
import JarSurvey.Proofs.Namespace
import JarSurvey.Proofs.Usage
import JarSurvey.Proofs.Usage.Monoid
import JarSurvey.Proofs.Report.Heading
import JarSurvey.Proofs.Report.Line
import JarSurvey.Proofs.Report.RoundTrip
import JarSurvey.Proofs.Report.Writer
import JarSurvey.Proofs.ClassFile.Layout
import JarSurvey.Proofs.ClassFile.Cursor
import JarSurvey.Proofs.ClassFile.Decoding
import JarSurvey.Proofs.Survey.Ledger
import JarSurvey.Proofs.Survey.Schedule
import JarSurvey.Proofs.Survey.Refusal
import JarSurvey.Proofs.Graph.Grouping
import JarSurvey.Proofs.Graph.Search
import JarSurvey.Proofs.Graph.Closure
import JarSurvey.Proofs.Graph.BreadthFirst
import JarSurvey.Proofs.Graph.SharedClasses
import JarSurvey.Proofs.Archive.Counting
import JarSurvey.Proofs.Report.Upgrade
import JarSurvey.Proofs.Descriptor.Grammar
import JarSurvey.Proofs.Descriptor.Reading
import JarSurvey.Proofs.Descriptor.Exactness
import JarSurvey.Proofs.ClassFile.SelfDelimiting
import JarSurvey.Proofs.Archive.Views
import JarSurvey.Proofs.ClassFile.Outline
import JarSurvey.Proofs.ClassFile.Outline.Reading
import JarSurvey.Proofs.ClassFile.Outline.Existence
import JarSurvey.Proofs.ClassFile.PoolGrowth
import JarSurvey.Proofs.ClassFile.InertAdditions
import JarSurvey.Proofs.ClassFile.Instruction
import JarSurvey.Proofs.ClassFile.Assembly
import JarSurvey.Proofs.ClassFile.Instruction.Words
import JarSurvey.Proofs.ClassFile.Instruction.Tiling
import JarSurvey.Proofs.Report.Locality
import JarSurvey.Proofs.Report.Corruption
import JarSurvey.Proofs.ClassFile.RedundantSignatures
import JarSurvey.Proofs.ClassFile.TextConstants
import JarSurvey.Proofs.Graph.Merging
import JarSurvey.Proofs.Path
import JarSurvey.Proofs.Report.ArchivePaths
import JarSurvey.Proofs.ClassFile.NestingLimit
import JarSurvey.Proofs.ClassFile.PoolSlots
import JarSurvey.Proofs.Descriptor.Bytewise
import JarSurvey.Proofs.Descriptor.Boundaries
