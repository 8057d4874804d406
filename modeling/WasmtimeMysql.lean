import WasmtimeMysql.HostSocketsWindows
import WasmtimeMysql.Theorems.Accessors
import WasmtimeMysql.Theorems.AddressBuffers
import WasmtimeMysql.Theorems.BindAddress
import WasmtimeMysql.Theorems.Confinement
import WasmtimeMysql.Theorems.Encoding
import WasmtimeMysql.Theorems.FailedReceives
import WasmtimeMysql.Theorems.FailedSockets
import WasmtimeMysql.Theorems.FlagThreads
import WasmtimeMysql.Theorems.Frame
import WasmtimeMysql.Theorems.Freshness
import WasmtimeMysql.Theorems.GracefulShutdown
import WasmtimeMysql.Theorems.HostParity
import WasmtimeMysql.Theorems.LockNames
import WasmtimeMysql.Theorems.LockWindows
import WasmtimeMysql.Theorems.Mkstemp
import WasmtimeMysql.Theorems.NameLedger
import WasmtimeMysql.Theorems.NameRoundTrip
import WasmtimeMysql.Theorems.Namespaces
import WasmtimeMysql.Theorems.NoNetwork
import WasmtimeMysql.Theorems.NormalForm
import WasmtimeMysql.Theorems.Ownership
import WasmtimeMysql.Theorems.ParentDirectory
import WasmtimeMysql.Theorems.PendingError
import WasmtimeMysql.Theorems.Poll
import WasmtimeMysql.Theorems.Ppoll
import WasmtimeMysql.Theorems.QsortR
import WasmtimeMysql.Theorems.ReadOnly
import WasmtimeMysql.Theorems.Selection
import WasmtimeMysql.Theorems.ServicePort
import WasmtimeMysql.Theorems.Shutdown
import WasmtimeMysql.Theorems.SocketAddresses
import WasmtimeMysql.Theorems.SocketIdentity
import WasmtimeMysql.Theorems.SocketTypes
import WasmtimeMysql.Theorems.StatusFlags
import WasmtimeMysql.Theorems.Storage
import WasmtimeMysql.Theorems.StorageThreads
import WasmtimeMysql.Theorems.Symlinks
import WasmtimeMysql.Theorems.ThreadIds
import WasmtimeMysql.Theorems.ThreadLinking
import WasmtimeMysql.Theorems.Timeouts
import WasmtimeMysql.Theorems.WorkingDirectory
