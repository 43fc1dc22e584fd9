import TableauSimplex.CommandLine.Grammar
import TableauSimplex.CommandLine.Options
import TableauSimplex.CommandLine.Program
import TableauSimplex.Dual
import TableauSimplex.Elimination
import TableauSimplex.Error
import TableauSimplex.Grid
import TableauSimplex.IntegerSearch
import TableauSimplex.Json.Grid
import TableauSimplex.Json.Printer
import TableauSimplex.Json.Reader
import TableauSimplex.Json.Value
import TableauSimplex.Limit
import TableauSimplex.Log
import TableauSimplex.Main
import TableauSimplex.Number.Approximation
import TableauSimplex.Number.Binary
import TableauSimplex.Number.Decimal
import TableauSimplex.Number.Reader
import TableauSimplex.Number.Style
import TableauSimplex.Plane.Clip
import TableauSimplex.Plane.Graph
import TableauSimplex.Plane.Point
import TableauSimplex.Plane.Vertices
import TableauSimplex.Position
import TableauSimplex.Problem.Basic
import TableauSimplex.Problem.Document
import TableauSimplex.Report.Document
import TableauSimplex.Report.Drawing
import TableauSimplex.Report.Text
import TableauSimplex.Scalar
import TableauSimplex.Settings
import TableauSimplex.Settings.Document
import TableauSimplex.Solution.Basic
import TableauSimplex.Solution.Solve
import TableauSimplex.Sorting.Front
import TableauSimplex.Sorting.Insertion
import TableauSimplex.Sorting.Merge
import TableauSimplex.Sorting.Natural
import TableauSimplex.Sorting.Run
import TableauSimplex.Tableau.Basic
import TableauSimplex.Tableau.BigM
import TableauSimplex.Tableau.Reading
import TableauSimplex.Tableau.Row
import TableauSimplex.Tableau.Run
import TableauSimplex.Tableau.Sheet
import TableauSimplex.Text.Codes
import TableauSimplex.Text.Digit
import TableauSimplex.Text.Lines
import TableauSimplex.Text.Printable
import TableauSimplex.Text.Quoted
import TableauSimplex.Text.Uppercase
import TableauSimplex.Proofs.Row
import TableauSimplex.Proofs.Tableau.Canonical
import TableauSimplex.Proofs.Tableau.Choice
import TableauSimplex.Proofs.Tableau.Rectangular
import TableauSimplex.Proofs.Problem
import TableauSimplex.Proofs.Except
import TableauSimplex.Proofs.Tableau.Auxiliary
import TableauSimplex.Proofs.Tableau.Start
import TableauSimplex.Proofs.Dual
import TableauSimplex.Proofs.Infeasible
import TableauSimplex.Proofs.Optimum
import TableauSimplex.Proofs.Prices
import TableauSimplex.Proofs.Unbounded
import TableauSimplex.Proofs.Search.Split
import TableauSimplex.Proofs.Search.Turn
import TableauSimplex.Proofs.Search.Verdict
import TableauSimplex.Proofs.Inequality
import TableauSimplex.Proofs.Penalty
import TableauSimplex.Proofs.Search.Exact
import TableauSimplex.Proofs.Search.Nodes
import TableauSimplex.Proofs.Feasibility
import TableauSimplex.Proofs.Records
import TableauSimplex.Proofs.RatioTest
import TableauSimplex.Proofs.RepeatedBasis
import TableauSimplex.Proofs.Success
import TableauSimplex.Proofs.Search.Partition
import TableauSimplex.Proofs.Search.Success
import TableauSimplex.Proofs.Search.Count
import TableauSimplex.Proofs.WeakDuality
import TableauSimplex.Proofs.Sensitivity
import TableauSimplex.Proofs.Search.BoundTest
import TableauSimplex.Proofs.Mirror
import TableauSimplex.Proofs.Search.Mirror
import TableauSimplex.Proofs.PenaltyInPrices
import TableauSimplex.Proofs.ObjectiveValue
import TableauSimplex.Proofs.NextVertex
import TableauSimplex.Proofs.Tableau.BasicPoint
import TableauSimplex.Proofs.OtherOptima
import TableauSimplex.Proofs.Tableau.SameBasis
import TableauSimplex.Proofs.Tableau.StandardForm
import TableauSimplex.Proofs.Trace
import TableauSimplex.Proofs.Limit
import TableauSimplex.Proofs.MorePivots
import TableauSimplex.Proofs.Search.MoreNodes
import TableauSimplex.Proofs.Elimination
import TableauSimplex.Proofs.Tableau.ExtremePoint
import TableauSimplex.Proofs.Plane.Line
import TableauSimplex.Proofs.Sorting
import TableauSimplex.Proofs.Plane.Corners
import TableauSimplex.Proofs.Plane.Region
import TableauSimplex.Proofs.Plane.Extreme
import TableauSimplex.Proofs.Plane.Angle
import TableauSimplex.Proofs.Plane.Centroid
import TableauSimplex.Proofs.Plane.Polygon
import TableauSimplex.Proofs.Plane.Optimum
import TableauSimplex.Proofs.Description
import TableauSimplex.Proofs.DoubleDual
import TableauSimplex.Proofs.LinearSystem
import TableauSimplex.Proofs.Plane.Clip
import TableauSimplex.Proofs.Plane.Scaling
import TableauSimplex.Proofs.Double
import TableauSimplex.Proofs.Approximation
