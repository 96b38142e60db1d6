import LatticeGrid.Shape.Basic
import LatticeGrid.Failure
import LatticeGrid.Word
import LatticeGrid.Lattice.Coord
import LatticeGrid.Lattice.Point
import LatticeGrid.Shape.Measure
import LatticeGrid.Lattice.Box.Basic
import LatticeGrid.Lattice.Box.Points
import LatticeGrid.Layout.Strides
import LatticeGrid.Layout.Visit
import LatticeGrid.Layout.Rows
import LatticeGrid.Grid.Basic
import LatticeGrid.Grid.Access
import LatticeGrid.Grid.Fill
import LatticeGrid.Copy.Overlap
import LatticeGrid.Copy.Placement
import LatticeGrid.Copy.Region
import LatticeGrid.Copy.Pointwise
import LatticeGrid.Bytes.LittleEndian
import LatticeGrid.Bytes.Element
import LatticeGrid.Bytes.Grid
import LatticeGrid.Record.Datum
import LatticeGrid.Record.Lattice
import LatticeGrid.Record.Element
import LatticeGrid.Record.Filler
import LatticeGrid.Workspace
import LatticeGrid.Proofs.Lattice.Lengths
import LatticeGrid.Proofs.Lattice.Intersection
import LatticeGrid.Proofs.Lattice.Points
import LatticeGrid.Proofs.Lattice.IntersectionLaws
import LatticeGrid.Proofs.Lattice.Enumeration
import LatticeGrid.Proofs.Lattice.Inclusion
import LatticeGrid.Proofs.Lattice.Translation
import LatticeGrid.Proofs.Lattice.Bounds
import LatticeGrid.Proofs.Layout.Position
import LatticeGrid.Proofs.Layout.Numbering
import LatticeGrid.Proofs.Layout.Boxes
import LatticeGrid.Proofs.Layout.Visit
import LatticeGrid.Proofs.Layout.VisitLoop
import LatticeGrid.Proofs.Layout.VisitBoundary
import LatticeGrid.Proofs.Layout.Clipping
import LatticeGrid.Proofs.Layout.Rows
import LatticeGrid.Proofs.Layout.RowCells
import LatticeGrid.Proofs.Outcomes
import LatticeGrid.Proofs.Faults
import LatticeGrid.Proofs.Grid.Element
import LatticeGrid.Proofs.Grid.Access
import LatticeGrid.Proofs.Grid.Construction
import LatticeGrid.Proofs.Grid.Acceptance
import LatticeGrid.Proofs.Grid.FillWith
import LatticeGrid.Proofs.Grid.Counting
import LatticeGrid.Proofs.Grid.Writes
import LatticeGrid.Proofs.Grid.FillRegion
import LatticeGrid.Proofs.Copy.Placement
import LatticeGrid.Proofs.Copy.Progress
import LatticeGrid.Proofs.Copy.Overlap
import LatticeGrid.Proofs.Copy.SharedBox
import LatticeGrid.Proofs.Copy.LatticeBox
import LatticeGrid.Proofs.Copy.CoveredBox
import LatticeGrid.Proofs.Copy.Region
import LatticeGrid.Proofs.Copy.Pointwise
import LatticeGrid.Proofs.Copy.RoundTrip
import LatticeGrid.Proofs.Copy.Sequence
import LatticeGrid.Proofs.Copy.Chunks
import LatticeGrid.Proofs.Copy.Exchange
import LatticeGrid.Proofs.Bytes.LittleEndian
import LatticeGrid.Proofs.Bytes.Element
import LatticeGrid.Proofs.Bytes.RoundTrip
import LatticeGrid.Proofs.Bytes.Acceptance
import LatticeGrid.Proofs.Workspace.Runs
import LatticeGrid.Proofs.Workspace.Counted
import LatticeGrid.Proofs.Grid.BoxRanks
