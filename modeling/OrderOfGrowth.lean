import OrderOfGrowth.Main
import OrderOfGrowth.Proofs.Colored
import OrderOfGrowth.Proofs.CommandLine.Writing
import OrderOfGrowth.Proofs.Growth
import OrderOfGrowth.Proofs.Json.Document
import OrderOfGrowth.Proofs.Markdown
import OrderOfGrowth.Proofs.Markup.Keywords
import OrderOfGrowth.Proofs.Report.Page
import OrderOfGrowth.Proofs.Run.Analysis
import OrderOfGrowth.Proofs.Scan.Headers
import OrderOfGrowth.Proofs.Scan.Nesting
import OrderOfGrowth.Proofs.Settings.Variable
import OrderOfGrowth.Proofs.SourceFile
