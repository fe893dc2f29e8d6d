import SipEcho.Lib.Loop
import SipEcho.Lib.Framing
import SipEcho.Common.Libc
import SipEcho.Osip.Message
import SipEcho.Net.Mem
import SipEcho.Net.SipRead
import SipEcho.Mqtt.Unpack
import SipEcho.Proto.Transport
import SipEcho.Net.Event
import SipEcho.Net.Progress
import SipEcho.Net.Cursors
import SipEcho.Net.Frames
import SipEcho.Net.Segmentation
import SipEcho.Lib.RBTree
import SipEcho.Lib.Comparator
import SipEcho.Map.Search
import SipEcho.Map.Delete
import SipEcho.Lib.Chain
import SipEcho.Map.Map
import SipEcho.Map.Index
import SipEcho.Map.Invariant
import SipEcho.Map.Run
import SipEcho.Sip.Aor
import SipEcho.Lib.RoundTrip
import SipEcho.Bridge.Types
import SipEcho.Bridge.Head
import SipEcho.Bridge.Sdp
import SipEcho.Lib.Writer
import SipEcho.Xml.Seed
import SipEcho.Xml.Print
import SipEcho.Bridge.Dtmf
import SipEcho.Bridge.Content
import SipEcho.Bridge.Message
import SipEcho.Bridge.Payloads
import SipEcho.Net.FrameLength
import SipEcho.Net.Reclaim
import SipEcho.Mqtt.Prefix
import SipEcho.Net.BusSegmentation
import SipEcho.Map.Insertion
import SipEcho.Map.PushFind
import SipEcho.Map.AddKey
import SipEcho.Map.Items
import SipEcho.Dns.Lookup
import SipEcho.Dns.Ownership
import SipEcho.Net.Outgoing
import SipEcho.Mqtt.Pack
import SipEcho.Net.Sockets
import SipEcho.Net.Ownership
import SipEcho.Net.Reconnect
import SipEcho.Cmd.Session
import SipEcho.Sip.Callback
import SipEcho.Sip.TransactionRules
import SipEcho.Sip.Answers
import SipEcho.Sip.Bookkeeping
import SipEcho.Xml.Read
import SipEcho.Xml.TreeRoundTrip
import SipEcho.Net.Peer
import SipEcho.Net.Port
import SipEcho.Sip.Retransmission
import SipEcho.Sip.Contacts
import SipEcho.Sip.Registrar
import SipEcho.Sip.Register
import SipEcho.Sip.Report
import SipEcho.Sip.Proxy
import SipEcho.Sip.Invite
import SipEcho.Sip.Relay
import SipEcho.Xml.Feed
import SipEcho.Xml.Plain
import SipEcho.Xml.Printed
import SipEcho.Xml.Tokens
import SipEcho.Xml.SeedLimit
import SipEcho.Xml.TextRoundTrip
import SipEcho.Map.MapMap
import SipEcho.Lib.Scan
import SipEcho.Lib.Linked
import SipEcho.Xml.Buffer
import SipEcho.Xml.Nodes
import SipEcho.Xml.Safety
import SipEcho.Lib.Arena
import SipEcho.Proto.Message
import SipEcho.Proto.Clone
import SipEcho.Proto.SipTypes
import SipEcho.Lib.Quoting
import SipEcho.Bridge.Quoted
import SipEcho.Proto.Readiness
import SipEcho.Mqtt.Emit
import SipEcho.Proto.Invoke
import SipEcho.Proto.Dispatch
import SipEcho.Lib.Keyed
import SipEcho.Notify.Store
import SipEcho.Notify.Links
import SipEcho.Notify.Deletion
import SipEcho.Notify.Update
import SipEcho.Notify.Run
import SipEcho.Lib.Block
import SipEcho.Map.TreeRun
import SipEcho.Xml.Attributes
import SipEcho.Xml.Entities
import SipEcho.Xml.FieldName
import SipEcho.Xml.Merge
import SipEcho.Xml.NodeText
import SipEcho.Xml.Escape
import SipEcho.Log.Hexit
import SipEcho.Config.IniLine
import SipEcho.Config.IniRead
import SipEcho.Mqtt.Requests
import SipEcho.Mqtt.RoundTrip
import SipEcho.Proto.Calls
import SipEcho.Notify.Watch
import SipEcho.Notify.Table
import SipEcho.Notify.Note
import SipEcho.Notify.Unwatch
import SipEcho.Notify.Refinement
import SipEcho.Notify.Change
import SipEcho.Notify.Free
import SipEcho.Sip.Replies
import SipEcho.Mqtt.PacketId
import SipEcho.Mqtt.QueueRun
import SipEcho.Lib.Ledger
import SipEcho.Mqtt.Client
import SipEcho.Mqtt.Moves
import SipEcho.Mqtt.Calls
import SipEcho.Mqtt.InMemory
import SipEcho.Mqtt.Delivery
import SipEcho.Mqtt.Stream
import SipEcho.Lib.Cut
import SipEcho.Mqtt.Packets
