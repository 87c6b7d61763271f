import ChimneyPost.Lib.Replay
import ChimneyPost.Lib.Ledger
import ChimneyPost.Text.Str
import ChimneyPost.Error
import ChimneyPost.Queue.Store
import ChimneyPost.Queue.Worker
import ChimneyPost.Queue.System
import ChimneyPost.Queue.Conservation
import ChimneyPost.Queue.Backed
import ChimneyPost.Queue.Budget
import ChimneyPost.Queue.StorageErrors
import ChimneyPost.Queue.Accounting
import ChimneyPost.Queue.Wakeup
import ChimneyPost.Queue.Order
import ChimneyPost.Queue.Drain
import ChimneyPost.Text.Utf8
import ChimneyPost.Lib.Lines
import ChimneyPost.Smtp.Reader
import ChimneyPost.Smtp.Data
import ChimneyPost.Smtp.Mime
import ChimneyPost.Smtp.Parser
import ChimneyPost.Smtp.Session
import ChimneyPost.Lib.History
import ChimneyPost.Smtp.Transcript
import ChimneyPost.Smtp.Acknowledged
import ChimneyPost.Smtp.Content
import ChimneyPost.Smtp.Isolation
import ChimneyPost.Queue.RoundTrip
import ChimneyPost.Smtp.RoundTrip
import ChimneyPost.Lib.Transaction
import ChimneyPost.Queue.Connection
import ChimneyPost.Queue.Idempotency
import ChimneyPost.Queue.Capacity
import ChimneyPost.Smtp.Reference
import ChimneyPost.Queue.Timing
import ChimneyPost.Smtp.Transparency
import ChimneyPost.Lib.WriteAhead
import ChimneyPost.Smtp.Machine
import ChimneyPost.Smtp.PowerLoss
import ChimneyPost.Smtp.Tidy
import ChimneyPost.Smtp.Selection
import ChimneyPost.Smtp.Omissions
import ChimneyPost.Lib.Search
import ChimneyPost.Smtp.Html
import ChimneyPost.Smtp.Visible
import ChimneyPost.Smtp.Lookalikes
import ChimneyPost.Queue.Backoff
import ChimneyPost.Lib.Rows
import ChimneyPost.Text.Words
import ChimneyPost.Smtp.NormalForm
import ChimneyPost.Smtp.Escaping
import ChimneyPost.Smtp.Ampersands
import ChimneyPost.Lib.FirstMatch
import ChimneyPost.Matrix.Routing
import ChimneyPost.Config
import ChimneyPost.Matrix.Client
import ChimneyPost.Text.Uppercase
import ChimneyPost.Smtp.Envelope
import ChimneyPost.Lib.Loop
import ChimneyPost.Text.Offset
import ChimneyPost.Smtp.Checked
import ChimneyPost.Smtp.Headers
import ChimneyPost.Smtp.Fallback
import ChimneyPost.Lib.Dialogue
import ChimneyPost.Matrix.Send
import ChimneyPost.Smtp.Provenance
import ChimneyPost.Lib.Receipt
import ChimneyPost.Matrix.Timeline
import ChimneyPost.Matrix.Handshake
import ChimneyPost.Smtp.Listener
import ChimneyPost.Daemon
import ChimneyPost.Monitor
import ChimneyPost.Startup
import ChimneyPost.Lib.Progress
import ChimneyPost.Queue.Progress
import ChimneyPost.Smtp.Client
import ChimneyPost.Smtp.Replies
import ChimneyPost.Matrix.Arrival
