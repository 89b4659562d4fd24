import Librsi.Lib.Interaction
import Librsi.Lib.Interleaving
import Librsi.Lib.Ledger
import Librsi.Lib.Format
import Librsi.Lib.SortedVec
import Librsi.Abi
import Librsi.Pkm
import Librsi.System
import Librsi.Request
import Librsi.Request.Refinement
import Librsi.Request.PayloadView
import Librsi.Request.Borrowing
import Librsi.Response.Layout
import Librsi.Response.Arguments
import Librsi.Response.Validation
import Librsi.Response.Encoding
import Librsi.Response.Responders
import Librsi.Response.Calls
import Librsi.Response.Outcome
import Librsi.Response.Status
import Librsi.Response.Acceptance
import Librsi.Response.FrameSize
import Librsi.Response.Rearrangement
import Librsi.Response.RoundTrip
import Librsi.Response.EndToEnd
import Librsi.Response.Session
import Librsi.Response.Concurrent
import Librsi.Response.Progress
import Librsi.Protocol
import Librsi.Transport
import Librsi.Source
import Librsi.Source.Descriptors
import Librsi.Allocation
import Librsi.Api
