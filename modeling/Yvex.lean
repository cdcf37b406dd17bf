import Yvex.Graph.PageAccounting
import Yvex.Runtime.TransactionRuns
import Yvex.Graph.AllocationFrontier
import Yvex.Deployment.Validation
import Yvex.Runtime.ResourceRuns
import Yvex.Runtime.ProgressRuns
import Yvex.Ir.Reordering
import Yvex.Ir.PathRuns
import Yvex.Runtime.SpeculationRuns
import Yvex.Server.RequestQueueRuns
import Yvex.Provider.RequestIdentity
import Yvex.Server.ClientRequestCodec
import Yvex.Server.OpenAi.HttpFraming
import Yvex.Server.OpenAi.GenerationOrder
import Yvex.Runtime.Coordination
import Yvex.Source.PayloadPoison
import Yvex.Source.PayloadTrust
import Yvex.Runtime.SamplingRuns
import Yvex.Tokenizer.ReasoningStream
import Yvex.Server.ProviderResult
import Yvex.Tokenizer.AddedTokens
import Yvex.Tokenizer.Decoder
import Yvex.Gguf.QuantPolicy
import Yvex.Core.FilePublish
import Yvex.Server.SessionRestore
import Yvex.Server.TurnCancellation
import Yvex.Server.Telemetry
import Yvex.Server.MediaResult
import Yvex.Deployment.Periodic
import Yvex.Graph.StateIdentity
import Yvex.Runtime.BatchFormation
import Yvex.Server.EngineSlots
import Yvex.Graph.ParameterView
