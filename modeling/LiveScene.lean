import LiveScene.Server.Machine
import LiveScene.Proofs.Store.Rebuild
import LiveScene.Proofs.Store.Marks
import LiveScene.Proofs.Store.Crossing
import LiveScene.Proofs.Store.Replay
import LiveScene.Proofs.Store.Slots
import LiveScene.Proofs.Server.Edits
import LiveScene.Proofs.Server.Turns
import LiveScene.Proofs.Server.Told
import LiveScene.Proofs.Server.Acts
import LiveScene.Proofs.Server.Sessions
import LiveScene.Proofs.Server.Transports
import LiveScene.Proofs.Server.Replica
import LiveScene.Proofs.Server.Dragging
import LiveScene.Proofs.Server.Viewer
import LiveScene.Proofs.Server.Listeners
import LiveScene.Proofs.Server.Scenes
import LiveScene.Proofs.Server.Batching
import LiveScene.Proofs.Server.Delivery
import LiveScene.Proofs.Decimal.Value
import LiveScene.Proofs.Double.Bits
import LiveScene.Proofs.Decimal.Notation
import LiveScene.Proofs.Json.Numeral
import LiveScene.Proofs.Json.Number
import LiveScene.Proofs.Json.Quoted
import LiveScene.Proofs.Json.Tokens
import LiveScene.Proofs.Json.Document
import LiveScene.Proofs.Wire.Field
import LiveScene.Proofs.Wire.Record
import LiveScene.Proofs.Object.Fields
import LiveScene.Proofs.Command.Text
import LiveScene.Proofs.ViewerMessage
import LiveScene.Proofs.ViewerMessage.Format
import LiveScene.Proofs.Wire.RoundTrip
import LiveScene.Proofs.Command.Message
import LiveScene.Proofs.Server.Outbox
import LiveScene.Proofs.Asset.Regions
import LiveScene.Proofs.Asset.Textures
import LiveScene.Proofs.Asset.WellFormed
import LiveScene.Proofs.Server.Meshes
import LiveScene.Proofs.Server.Entries
import LiveScene.Proofs.Server.Widgets
import LiveScene.Proofs.Server.Joining
import LiveScene.Proofs.Server.Messages
import LiveScene.Proofs.Server.Returns
import LiveScene.Proofs.Server.Leftovers
import LiveScene.Proofs.Server.Dispatch
import LiveScene.Proofs.Server.Locality
import LiveScene.Proofs.Server.History
import LiveScene.Proofs.Server.Removal
import LiveScene.Proofs.Object.Attributes
import LiveScene.Proofs.Server.Shapes
import LiveScene.Proofs.Server.Frames
import LiveScene.Proofs.Server.Worlds
import LiveScene.Proofs.Server.Forces
import LiveScene.Proofs.Server.Surfaces
import LiveScene.Proofs.Object.Accessors
import LiveScene.Proofs.Server.Calls
import LiveScene.Proofs.Server.Registrations
import LiveScene.Proofs.Server.Requests
import LiveScene.Proofs.Server.Waiting
