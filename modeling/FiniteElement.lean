import FiniteElement.Catalogue
import FiniteElement.Form.Probe
import FiniteElement.Mesh.Basic
import FiniteElement.Mesh.Boundary
import FiniteElement.Mesh.Unit
import FiniteElement.Assembly.Serial
import FiniteElement.Assembly.Parallel
import FiniteElement.Assembly.Request
import FiniteElement.Json.Formats
import FiniteElement.Proofs.Mesh.EntityTable
import FiniteElement.Proofs.Mesh.WellFormed
import FiniteElement.Proofs.Mesh.Unit
import FiniteElement.Proofs.Mesh.Entities
import FiniteElement.Proofs.Mesh.EntityNumbering
import FiniteElement.Proofs.Mesh.View
import FiniteElement.Proofs.Mesh.Boundary
import FiniteElement.Proofs.DofMap.Dof
import FiniteElement.Proofs.DofMap.Tabulation
import FiniteElement.Proofs.DofMap.FacetDofs
import FiniteElement.Proofs.DofMap.GlobalNumbering
import FiniteElement.Proofs.Mesh.BoundaryNodes
import FiniteElement.Proofs.SparseMatrix
import FiniteElement.Proofs.DofMap.Buffers
import FiniteElement.Proofs.Assembly.Workspace
import FiniteElement.Proofs.Assembly.Collection
import FiniteElement.Proofs.Assembly.Triplets
import FiniteElement.Proofs.Assembly.SerialParallel
import FiniteElement.Proofs.Assembly.Reuse
import FiniteElement.Proofs.Assembly.Acceptance
import FiniteElement.Proofs.Assembly.CellDimension
import FiniteElement.Proofs.Assembly.ElementTensor
import FiniteElement.Proofs.Assembly.MatrixEntries
import FiniteElement.Proofs.Assembly.SerialMatrix
import FiniteElement.Proofs.Assembly.HandOver
import FiniteElement.Proofs.Assembly.SerialVector
import FiniteElement.Proofs.Form.Linear
import FiniteElement.Proofs.Assembly.Safety
import FiniteElement.Proofs.Assembly.Answers
import FiniteElement.Proofs.Mesh.SharedFacets
import FiniteElement.Proofs.Lattice.Dissection
import FiniteElement.Proofs.Lattice.Facets
import FiniteElement.Proofs.Mesh.RoundTrip
import FiniteElement.Proofs.Mesh.UnitBox
import FiniteElement.Proofs.Mesh.UnitSquare
import FiniteElement.Proofs.Assembly.Regrouping
import FiniteElement.Proofs.Assembly.ExactSums
import FiniteElement.Proofs.DofMap.Piecewise
import FiniteElement.Proofs.Form.Assembled
import FiniteElement.Proofs.Form.Loads
import FiniteElement.Proofs.Form.Mass
import FiniteElement.Proofs.Form.Relisting
import FiniteElement.Proofs.Form.Stiffness
import FiniteElement.Proofs.Form.UnitMeasure
import FiniteElement.Proofs.Assembly.Policies
import FiniteElement.Proofs.Assembly.Cancellation
import FiniteElement.Proofs.DofMap.Flatten
import FiniteElement.Proofs.DofMap.SharedPoints
import FiniteElement.Proofs.DofMap.NodeRange
import FiniteElement.Proofs.DofMap.UsedEntities
import FiniteElement.Proofs.DofMap.FacetTables
import FiniteElement.Proofs.Geometry.CellMap
import FiniteElement.Proofs.Mesh.BoundaryFacets
import FiniteElement.Proofs.Mesh.BoundaryComponents
import FiniteElement.Proofs.Mesh.Validation
import FiniteElement.Proofs.Mesh.CellViews
