import PlContainer.Common.Channel.RoundTrip
import PlContainer.Common.Connectivity.Session
import PlContainer.FunctionCache
import PlContainer.FunctionCache.NoStaleCode
import PlContainer.Calls.Protocol
import PlContainer.Calls.Synchrony
import PlContainer.Calls.Pairing
import PlContainer.Calls.Errors
import PlContainer.Clients.Messages
import PlContainer.Clients.Python
import PlContainer.Clients.Python.Frame
import PlContainer.Clients.Python.Terminal
import PlContainer.Clients.R
import PlContainer.Clients.R.Terminal
import PlContainer.Common.Channel.Decoded
import PlContainer.Backend.Datums
import PlContainer.Backend.TypeSafety
import PlContainer.Common.Channel.Counts
import PlContainer.Common.Channel.ArrayBlocks
import PlContainer.Backend.Plans
import PlContainer.Calls.Subtransactions
import PlContainer.FunctionCache.Frames
import PlContainer.FunctionCache.InUse
import PlContainer.Config.Loader
import PlContainer.Config.Privilege
import PlContainer.Config.Rules
import PlContainer.Config.Tool
import PlContainer.Config.Distribution
import PlContainer.Backend.Composite
import PlContainer.Library.Json
import PlContainer.Library.JsonTemplate
import PlContainer.Docker.CreateRequest
import PlContainer.Docker.RequestDocument
import PlContainer.FunctionCache.Bindings
import PlContainer.Library.LruArray
import PlContainer.Library.LruMap
import PlContainer.FunctionCache.Arrays
import PlContainer.Backend.ProcedureInfo
import PlContainer.Backend.Validity
import PlContainer.Backend.Handlers
import PlContainer.Backend.ArrayDatums
import PlContainer.Backend.ArrayRoundTrip
import PlContainer.Clients.Python.Arrays
import PlContainer.Clients.Python.ArrayEcho
import PlContainer.Clients.Python.ListLeaves
import PlContainer.Clients.Python.Outputs
import PlContainer.Clients.Python.Streaming
import PlContainer.Clients.Python.StreamedReply
import PlContainer.Clients.Python.ExactScalars
import PlContainer.Clients.Python.CallResults
import PlContainer.Clients.Python.SetReturning
import PlContainer.Config.Acceptance
import PlContainer.Config.RepeatedChecks
import PlContainer.Config.RepeatedElements
import PlContainer.Calls.PrepareReply
import PlContainer.Clients.Python.TextEcho
import PlContainer.Clients.R.Conversions
import PlContainer.Clients.ArrayRanks
import PlContainer.Clients.R.NaPattern
import PlContainer.Clients.R.SpiResults
import PlContainer.Clients.R.Composites
import PlContainer.Config.DefaultBackend
import PlContainer.Docker.DeviceRequests
import PlContainer.Containers.Info
import PlContainer.Containers.Cleanup
import PlContainer.Containers.Connect
import PlContainer.Containers.Meta
import PlContainer.Clients.Python.WrapperText
import PlContainer.Containers.Slots
import PlContainer.Containers.SharedMap
import PlContainer.Library.CInt
import PlContainer.Common.Connectivity.IntRange
import PlContainer.Docker.RequestLength
import PlContainer.Clients.R.FunctionText
import PlContainer.Common.Connectivity.Capacity
import PlContainer.Library.Fetch
import PlContainer.Common.Channel.Fetching
import PlContainer.Common.Connectivity.Transport
import PlContainer.Backend.FunctionHandler
import PlContainer.Docker.Response
