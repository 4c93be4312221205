import EtsiMec.Library.Effect
import EtsiMec.Library.Run
import EtsiMec.Library.Log
import EtsiMec.Library.KeyedMap
import EtsiMec.Library.KeyedStore
import EtsiMec.Library.Fallback
import EtsiMec.Library.OrderedMap
import EtsiMec.Library.Separator
import EtsiMec.Library.Scanner
import EtsiMec.Library.Lines
import EtsiMec.Library.Refinement
import EtsiMec.Library.Directory
import EtsiMec.Json
import EtsiMec.Rest
import EtsiMec.AppInfo
import EtsiMec.AppContext
import EtsiMec.UeAppLcmProxy
import EtsiMec.Registry
import EtsiMec.StaticUeAppLcmProxy
import EtsiMec.Steps
import EtsiMec.Routing
import EtsiMec.ContextIndex
import EtsiMec.Notifications
import EtsiMec.Handlers
import EtsiMec.Posting
import EtsiMec.GrpcUeAppLcmProxy
import EtsiMec.AppContextManager
import EtsiMec.Exchange
import EtsiMec.Transitions
import EtsiMec.Convergence
import EtsiMec.Draining
import EtsiMec.Creation
import EtsiMec.Provenance
import EtsiMec.Decoding
import EtsiMec.Requests
import EtsiMec.Addressing
import EtsiMec.Purging
import EtsiMec.Associations
import EtsiMec.Handshake
import EtsiMec.Traffic
import EtsiMec.Independence
import EtsiMec.Service
import EtsiMec.ServiceRefinement
import EtsiMec.Confluence
import EtsiMec.Redelivery
import EtsiMec.GrpcUeAppLcmProxyClient
import EtsiMec.Console
import EtsiMec.ConsoleSessions
import EtsiMec.Counting
import EtsiMec.Managers
import EtsiMec.Coherence
import EtsiMec.Lifecycle
import EtsiMec.ApiRoot
import EtsiMec.ReferenceUris
import EtsiMec.Iterators
import EtsiMec.StaticFileUeAppLcmProxy
import EtsiMec.Reloading
import EtsiMec.AppListClient
import EtsiMec.MattermostProxy
import EtsiMec.Validity
import EtsiMec.OpenWhisk.Action
import EtsiMec.OpenWhisk.Lister
import EtsiMec.OpenWhisk.Invoker
