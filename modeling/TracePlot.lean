import TracePlot.Allocation.Check
import TracePlot.Command.Run
import TracePlot.Drawing.Output
import TracePlot.Figure.Draw
import TracePlot.Histogram.Bins
import TracePlot.Json.Printer
import TracePlot.Json.Reader
import TracePlot.Json.Shape
import TracePlot.Main
import TracePlot.Number.Order
import TracePlot.Plan.Layout
import TracePlot.Records.Energy
import TracePlot.Records.Job
import TracePlot.Records.PowerState
import TracePlot.Records.Queue
import TracePlot.Resource.IdSet
import TracePlot.Run.Summary
import TracePlot.Screen.Plot
import TracePlot.Screen.View
import TracePlot.Text.Lines
import TracePlot.Window
import TracePlot.Proofs.Success
import TracePlot.Proofs.Number.Compare
import TracePlot.Proofs.Number.Bounds
import TracePlot.Proofs.Number.Whole
import TracePlot.Proofs.Number.Exact
import TracePlot.Proofs.Number.Words
import TracePlot.Proofs.Number.Rounding
import TracePlot.Proofs.Number.Arithmetic
import TracePlot.Proofs.Number.Literal
import TracePlot.Proofs.Records.Spells
import TracePlot.Proofs.Records.Roles
import TracePlot.Proofs.Window
import TracePlot.Proofs.Resource.Ranges
import TracePlot.Proofs.Plan.Counts
import TracePlot.Proofs.Table.Reading
import TracePlot.Proofs.Run.Loading
import TracePlot.Proofs.Figure.Seen
import TracePlot.Proofs.Run.Access
import TracePlot.Proofs.Figure.RoleTiles
import TracePlot.Proofs.Resource.Grammar
import TracePlot.Proofs.Resource.Canonical
import TracePlot.Proofs.Figure.Independence
import TracePlot.Proofs.Figure.Complete
import TracePlot.Proofs.Figure.TimeAxis
import TracePlot.Proofs.Figure.Inside
import TracePlot.Proofs.Plan.Refusals
import TracePlot.Proofs.Text.Lines
import TracePlot.Proofs.Histogram.Blocks
import TracePlot.Proofs.Histogram.Distinct
import TracePlot.Proofs.Histogram.Edges
import TracePlot.Proofs.Json.Fields
import TracePlot.Proofs.Allocation.Join
import TracePlot.Proofs.Screen.Scrolling
import TracePlot.Proofs.StableSort
import TracePlot.Proofs.Records.Separation
import TracePlot.Proofs.Plan.Arrangement
import TracePlot.Proofs.Run.Opened
import TracePlot.Proofs.Run.FirstFault
import TracePlot.Proofs.Figure.JobTiles
import TracePlot.Proofs.Records.Readings
import TracePlot.Proofs.Records.MeanPower
import TracePlot.Proofs.Histogram.Counts
import TracePlot.Proofs.Run.KeyFigures
import TracePlot.Proofs.Number.Widening
import TracePlot.Proofs.Histogram.Words
import TracePlot.Proofs.Histogram.Tallying
import TracePlot.Proofs.Resource.Refusals
import TracePlot.Proofs.Figure.Ranges
import TracePlot.Proofs.Figure.Steps
import TracePlot.Proofs.Table.Columns
import TracePlot.Proofs.Records.Layouts
import TracePlot.Proofs.Number.Nearest
import TracePlot.Proofs.Number.Amount
import TracePlot.Proofs.Drawing.Elements
import TracePlot.Proofs.Screen.LegendWidth
import TracePlot.Proofs.Table.LineNumbers
import TracePlot.Proofs.Number.Digits
import TracePlot.Proofs.Json.Leaves
import TracePlot.Proofs.Json.RoundTrip
import TracePlot.Proofs.Json.Passing
import TracePlot.Proofs.Allocation.ExtraText
import TracePlot.Proofs.Number.WholeValues
import TracePlot.Proofs.Screen.TileLines
