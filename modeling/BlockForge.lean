import BlockForge.Main
import BlockForge.Proofs.Block.Documents
import BlockForge.Proofs.Block.MemberOrder
import BlockForge.Proofs.Block.Offence
import BlockForge.Proofs.Block.Report
import BlockForge.Proofs.Block.TitleSize
import BlockForge.Proofs.Code.Quote
import BlockForge.Proofs.Code.Relocation
import BlockForge.Proofs.Code.Spelling
import BlockForge.Proofs.Files.Content
import BlockForge.Proofs.Files.Sibling
import BlockForge.Proofs.Generate.Declaration
import BlockForge.Proofs.Generate.FieldArray
import BlockForge.Proofs.Generate.Keys
import BlockForge.Proofs.Generate.Numbers
import BlockForge.Proofs.Generate.Outline
import BlockForge.Proofs.Generate.Template
import BlockForge.Proofs.Json.Span
import BlockForge.Proofs.Library.Columns
import BlockForge.Proofs.Library.Failing
import BlockForge.Proofs.Library.Footprint
import BlockForge.Proofs.Library.Listing
import BlockForge.Proofs.Library.Loaded
import BlockForge.Proofs.Text.Separated
import BlockForge.Proofs.Work.Bake
import BlockForge.Proofs.Work.Delivery
import BlockForge.Proofs.Work.Init
import BlockForge.Proofs.Work.Library
import BlockForge.Proofs.Work.Saved
