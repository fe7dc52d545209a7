import Gridding.Allocation.Basic
import Gridding.Allocation.Dense
import Gridding.Allocation.Engine
import Gridding.Allocation.Merge
import Gridding.Allocation.Records
import Gridding.Cache.Memo
import Gridding.Cache.Recent
import Gridding.Cache.Routine
import Gridding.Cache.SingleFlight
import Gridding.Cache.Threads
import Gridding.Document.Access
import Gridding.Document.Basic
import Gridding.Document.Display
import Gridding.Document.Reader
import Gridding.Document.Writer
import Gridding.Entries
import Gridding.Geometry.Arrangement
import Gridding.Geometry.Basic
import Gridding.Geometry.Crossing
import Gridding.Geometry.GeoJson
import Gridding.Geometry.Location
import Gridding.Geometry.Orientation
import Gridding.Geometry.Overlay
import Gridding.Geometry.Relation
import Gridding.Geometry.Simplify
import Gridding.Geometry.Tracing
import Gridding.Geometry.WellKnownBinary
import Gridding.Grid.Attributes
import Gridding.Grid.Basic
import Gridding.Grid.Described
import Gridding.Grid.Description
import Gridding.Grid.Irregular
import Gridding.Grid.Locate
import Gridding.Grid.Reading
import Gridding.Grid.Regular
import Gridding.Hashing.LocationId
import Gridding.Hashing.Sha1
import Gridding.Numeric.Binary
import Gridding.Numeric.Decimal
import Gridding.Numeric.Hypotenuse
import Gridding.Numeric.IntegerPart
import Gridding.Numeric.Reading
import Gridding.Numeric.Sum
import Gridding.Numeric.Tally
import Gridding.Plot.Figure
import Gridding.Pool.Striped
import Gridding.Projection.Lambert
import Gridding.Projection.Reading
import Gridding.Projection.System
import Gridding.Region.Basic
import Gridding.Region.Frail
import Gridding.Request.Calls
import Gridding.Request.Evaluation
import Gridding.Request.Gridder
import Gridding.Request.Layers
import Gridding.Settings.Defaults
import Gridding.Settings.Environment
import Gridding.Settings.Store
import Gridding.Sphere.Footprint
import Gridding.Sphere.Measure
import Gridding.Sphere.Reading
import Gridding.Sphere.RingArea
import Gridding.Store.Directory
import Gridding.Store.Granules
import Gridding.Store.Home
import Gridding.Store.Path
import Gridding.Store.Signature
import Gridding.Store.Threads
import Gridding.Surrogate.Archive
import Gridding.Surrogate.Basic
import Gridding.Surrogate.Filter
import Gridding.Surrogate.Layer
import Gridding.Surrogate.Listing
import Gridding.Surrogate.Reading
import Gridding.Surrogate.Registry
import Gridding.Surrogate.Source
import Gridding.Surrogate.Weights
import Gridding.Table.Amounts
import Gridding.Table.Column
import Gridding.Text.Alphanumeric
import Gridding.Text.Blank
import Gridding.Text.CodePoints
import Gridding.Text.Digit
import Gridding.Text.Hex
import Gridding.Text.Printable
import Gridding.Text.Quoted
import Gridding.Text.Slug
import Gridding.Yaml.Cursor
import Gridding.Yaml.Node
import Gridding.Yaml.Plain
import Gridding.Yaml.Scalar
import Gridding.Yaml.Token
import Gridding.Yaml.Value
import Gridding.Proofs.Entries
import Gridding.Proofs.Fallible
import Gridding.Proofs.Pool.Schedule
import Gridding.Proofs.Pool.Visit
import Gridding.Proofs.Allocation.Sequential
import Gridding.Proofs.Numeric.Exact
import Gridding.Proofs.Region.Mosaic
import Gridding.Proofs.Allocation.Schedules
import Gridding.Proofs.Grid.Accepted
import Gridding.Proofs.Allocation.Survey
import Gridding.Proofs.Allocation.Index
import Gridding.Proofs.Numeric.Sums
import Gridding.Proofs.Region.Content
import Gridding.Proofs.Allocation.Exact
import Gridding.Proofs.Allocation.Measured
import Gridding.Proofs.Allocation.Conservation
import Gridding.Proofs.Cache.Recent
import Gridding.Proofs.Cache.Turns
import Gridding.Proofs.Cache.Crew
import Gridding.Proofs.Cache.History
import Gridding.Proofs.Cache.SingleFlight
import Gridding.Proofs.Cache.Freshness
import Gridding.Proofs.Allocation.Merge
import Gridding.Proofs.Request.Evaluation
import Gridding.Proofs.Allocation.Dense
import Gridding.Proofs.Allocation.Outcome
import Gridding.Proofs.Cache.Fetch
import Gridding.Proofs.Cache.Staff
import Gridding.Proofs.Request.Gridder
import Gridding.Proofs.Request.Gridded
import Gridding.Proofs.Pool.Completion
import Gridding.Proofs.Region.Spatial
import Gridding.Proofs.Grid.Placement
import Gridding.Proofs.Grid.Shares
import Gridding.Proofs.Grid.Fractions
import Gridding.Proofs.Grid.Regular
import Gridding.Proofs.Grid.Coverage
import Gridding.Proofs.Allocation.Located
import Gridding.Proofs.Request.Calls
import Gridding.Proofs.Request.Course
import Gridding.Proofs.Request.Failure
import Gridding.Proofs.Store.Directory
import Gridding.Proofs.Store.Granules
import Gridding.Proofs.Store.Publication
import Gridding.Proofs.Request.Transparent
import Gridding.Store.Reader
import Gridding.Proofs.Store.Reader
import Gridding.Proofs.Surrogate.References
import Gridding.Proofs.Surrogate.Registry
import Gridding.Proofs.Text.Trimming
import Gridding.Proofs.Numeric.Reading
import Gridding.Proofs.Numeric.Doubles
import Gridding.Proofs.Numeric.Rounding
import Gridding.Proofs.Numeric.Signs
import Gridding.Proofs.Numeric.Shortest
import Gridding.Proofs.Numeric.Written
import Gridding.Proofs.Grid.Rendering
import Gridding.Proofs.Grid.Blocks
import Gridding.Proofs.Grid.Description
import Gridding.Proofs.Surrogate.Listing
import Gridding.Proofs.Surrogate.Rows
import Gridding.Proofs.Allocation.Restriction
import Gridding.Proofs.Allocation.Partition
import Gridding.Proofs.Allocation.Portions
import Gridding.Proofs.Allocation.Entries
import Gridding.Proofs.Allocation.Memory
import Gridding.Proofs.Allocation.Linear
import Gridding.Proofs.Grid.Places
import Gridding.Proofs.Surrogate.Archive
import Gridding.Proofs.Surrogate.Indexes
import Gridding.Proofs.Surrogate.FilterText
import Gridding.Proofs.Sphere.Nesting
import Gridding.Proofs.Table.Keys
import Gridding.Proofs.Sphere.RingArea
import Gridding.Proofs.Cache.Recency
import Gridding.Proofs.Numeric.Overflow
import Gridding.Proofs.Settings.Defaults
import Gridding.Proofs.Document.Reader
import Gridding.Proofs.Settings.Store
import Gridding.Proofs.Text.Slug
import Gridding.Proofs.Store.Location
import Gridding.Proofs.Store.Interruption
import Gridding.Proofs.Grid.Names
