import Stasis.Runtime.Text
import Stasis.Migration.Semantics
import Stasis.Migration.TextShrink
import Stasis.Migration.DevelopmentSwap
import Stasis.Jit.Recovery
import Stasis.Collections.Circular
import Stasis.Collections.Keyed
import Stasis.Collections.PriorityQueue
import Stasis.Backends.Fixed32
import Stasis.Recording.InitialState
import Stasis.Live.Transaction
import Stasis.Swap.Shutdown
import Stasis.Realtime.Convergence
import Stasis.Realtime.Controls
import Stasis.Patch.Exact
import Stasis.Compiler.Index
import Stasis.DataFlow.HostCalls
import Stasis.DataFlow.ParameterStorage
import Stasis.Realtime.Codec
import Stasis.Realtime.NativeRange
import Stasis.Network.Archive
import Stasis.Network.HostAccounting
import Stasis.Network.ClientDelivery
import Stasis.Recording.Accepted
import Stasis.Stdlib.Text
import Stasis.Compiler.ModuleGraph
import Stasis.LanguageService.TextEdit
import Stasis.Live.FramePacer
import Stasis.Collections.Packed
import Stasis.Compiler.ExpressionSplit
import Stasis.Wasm.Binary
