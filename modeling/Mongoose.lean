import Mongoose.IsoTp.RoundTrip
import Mongoose.IsoTp.Isolation
import Mongoose.IsoTp.Sound
import Mongoose.Codec.Stream
import Mongoose.Can
import Mongoose.Session.Outcome
import Mongoose.Session.Matching
import Mongoose.Session.Confirm
import Mongoose.Session.Mistaken
import Mongoose.Session.Sequences
import Mongoose.Session.Closing
import Mongoose.Session.Waits
import Mongoose.Api.Periodic
import Mongoose.Api.Bounds
import Mongoose.Api.Whitelist
import Mongoose.Api.ReadBack
import Mongoose.Api.Reopen
import Mongoose.Api.Registry
import Mongoose.Tools.SocketCan
import Mongoose.Tools.ScriptRunner
import Mongoose.Can.Refusal
import Mongoose.Can.Echo
import Mongoose.Api.Counts
import Mongoose.IsoTp.Table
import Mongoose.Tty.Send
import Mongoose.Api.Deadlines
import Mongoose.Tools.Observer
import Mongoose.Link.Inbound
import Mongoose.Session.Reads
import Mongoose.Replay
import Mongoose.Tools.DryRun
import Mongoose.Usb.Ledger
import Mongoose.Link.Progress
import Mongoose.Tools.Bridge.Accounts
import Mongoose.Tools.Bridge.Stopping
import Mongoose.Selector
