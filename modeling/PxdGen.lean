import PxdGen.Decimal.Reading
import PxdGen.Index.Enumeration
import PxdGen.Index.Library
import PxdGen.Index.Query
import PxdGen.Index.Report
import PxdGen.Main
import PxdGen.Proofs.Decl.Body
import PxdGen.Proofs.Decl.Common
import PxdGen.Proofs.Decl.Selection
import PxdGen.Proofs.Decl.TypedefNames
import PxdGen.Proofs.Declarator.RoundTrip
import PxdGen.Proofs.Dump.Presentation
import PxdGen.Proofs.Flatten.Clash
import PxdGen.Proofs.Flatten.Unnested
import PxdGen.Proofs.Layout.Blocks
import PxdGen.Proofs.Render.Drawn
import PxdGen.Proofs.Render.Lead
import PxdGen.Proofs.Unit.Closed
import PxdGen.Proofs.Unit.Rehash
import PxdGen.Proofs.Unit.Rendered
import PxdGen.Proofs.Unit.Repair
import PxdGen.Proofs.Unit.Terminates
import PxdGen.Proofs.Unit.Translation
import PxdGen.Sample.Trial
