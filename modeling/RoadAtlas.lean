import RoadAtlas.Config.Basic
import RoadAtlas.Config.Document
import RoadAtlas.Container.Catalog
import RoadAtlas.Container.Section
import RoadAtlas.Container.Writing
import RoadAtlas.Format
import RoadAtlas.Geometry
import RoadAtlas.Json.Basic
import RoadAtlas.Json.Number
import RoadAtlas.Json.Record
import RoadAtlas.Network.Atlas
import RoadAtlas.Network.Block
import RoadAtlas.Network.Border
import RoadAtlas.Network.Box
import RoadAtlas.Network.Draft
import RoadAtlas.Network.Record
import RoadAtlas.Network.Section
import RoadAtlas.Network.Writing
import RoadAtlas.Pool
import RoadAtlas.Profile.Basic
import RoadAtlas.Profile.Expression
import RoadAtlas.Profile.Registry
import RoadAtlas.Profile.TypeSet
import RoadAtlas.Proofs.Config.Answers
import RoadAtlas.Proofs.Config.Compilation
import RoadAtlas.Proofs.Config.Meaning
import RoadAtlas.Proofs.Config.Order
import RoadAtlas.Proofs.Config.Reading
import RoadAtlas.Proofs.Config.Refinement
import RoadAtlas.Proofs.Container.Catalog
import RoadAtlas.Proofs.Container.Writing
import RoadAtlas.Proofs.Network.Access
import RoadAtlas.Proofs.Network.Block
import RoadAtlas.Proofs.Network.Border
import RoadAtlas.Proofs.Network.Box
import RoadAtlas.Proofs.Network.Isolation
import RoadAtlas.Proofs.Network.Locality
import RoadAtlas.Proofs.Network.Nesting
import RoadAtlas.Proofs.Network.Offsets
import RoadAtlas.Proofs.Network.Record
import RoadAtlas.Proofs.Network.Resolution
import RoadAtlas.Proofs.Network.Section
import RoadAtlas.Proofs.Pool
import RoadAtlas.Proofs.Profile.Evaluation
import RoadAtlas.Proofs.Profile.Numbering
import RoadAtlas.Proofs.Profile.Registry
import RoadAtlas.Proofs.Session.Coherence
import RoadAtlas.Proofs.Session.Fresh
import RoadAtlas.Proofs.Session.History
import RoadAtlas.Proofs.Session.Transparency
import RoadAtlas.Proofs.SortedMap
import RoadAtlas.Proofs.Wire.Folding
import RoadAtlas.Proofs.Wire.Locality
import RoadAtlas.Proofs.Wire.Message
import RoadAtlas.Proofs.Wire.Reading
import RoadAtlas.Quantity
import RoadAtlas.Quantity.Numeral
import RoadAtlas.Road.Basic
import RoadAtlas.Road.Bearing
import RoadAtlas.Road.Polyline
import RoadAtlas.Road.Restriction
import RoadAtlas.Road.Rule
import RoadAtlas.Session.Basic
import RoadAtlas.Session.Evaluation
import RoadAtlas.Session.Memo
import RoadAtlas.Session.Query
import RoadAtlas.SortedMap
import RoadAtlas.Text
import RoadAtlas.Wire.Cursor
import RoadAtlas.Wire.Decoder
import RoadAtlas.Wire.Error
import RoadAtlas.Wire.Field
import RoadAtlas.Wire.Reader
import RoadAtlas.Wire.Scalar
import RoadAtlas.Wire.Varint
import RoadAtlas.Wire.Writing
import RoadAtlas.Wire.Zigzag
import RoadAtlas.Proofs.Network.RuleReading
import RoadAtlas.Proofs.Network.Legible
import RoadAtlas.Proofs.Network.UnknownFields
import RoadAtlas.Proofs.Container.Confirmation
import RoadAtlas.Proofs.Wire.FieldTree
import RoadAtlas.Proofs.Network.BorderReading
import RoadAtlas.Proofs.Network.BorderQuery
import RoadAtlas.Proofs.Road.Polyline
import RoadAtlas.Proofs.Network.AreaLoading
import RoadAtlas.Proofs.Network.BlockLoading
import RoadAtlas.Proofs.Network.Redirection
import RoadAtlas.Proofs.Traversal
import RoadAtlas.Proofs.Road.Splitting
import RoadAtlas.Proofs.Road.Bearing
import RoadAtlas.Proofs.Session.Obstacles
import RoadAtlas.Proofs.Network.RecordFields
import RoadAtlas.Proofs.Network.FieldOrder
import RoadAtlas.Proofs.Wire.Lengths
import RoadAtlas.Proofs.Container.Partition
import RoadAtlas.Proofs.Wire.Regions
import RoadAtlas.Proofs.Config.WrittenPairs
import RoadAtlas.Proofs.Session.Staleness
import RoadAtlas.Proofs.Session.Work
import RoadAtlas.Proofs.Quantity.Numeral
import RoadAtlas.Proofs.Wire.Varint
import RoadAtlas.Proofs.Wire.Rounds
import RoadAtlas.Proofs.Wire.Consumption
import RoadAtlas.Proofs.Network.PointSums
import RoadAtlas.Proofs.Network.BorderSums
import RoadAtlas.Proofs.Network.Descent
import RoadAtlas.Proofs.Network.Progress
