import DeflateTrial.Bytes
import DeflateTrial.Close
import DeflateTrial.CommandLine.Execute
import DeflateTrial.CommandLine.Offline
import DeflateTrial.CommandLine.Options
import DeflateTrial.CommandLine.Program
import DeflateTrial.Configuration
import DeflateTrial.Deflate.Bits
import DeflateTrial.Deflate.Block
import DeflateTrial.Deflate.Code
import DeflateTrial.Deflate.Compressor
import DeflateTrial.Deflate.Deflater
import DeflateTrial.Deflate.Inflater
import DeflateTrial.Deflate.Matcher
import DeflateTrial.Deflate.Reading
import DeflateTrial.Deflate.StreamError
import DeflateTrial.Deflate.Symbols
import DeflateTrial.Deflate.Token
import DeflateTrial.Deflate.Window
import DeflateTrial.Digest.Base64
import DeflateTrial.Digest.Md5
import DeflateTrial.Digest.Sha1
import DeflateTrial.Digest.Words
import DeflateTrial.Event
import DeflateTrial.Extension.Agreement
import DeflateTrial.Extension.Offer
import DeflateTrial.Extension.Problem
import DeflateTrial.Failure
import DeflateTrial.Fault
import DeflateTrial.Frame.Basic
import DeflateTrial.Frame.Capture
import DeflateTrial.Frame.Head
import DeflateTrial.Frame.Mask
import DeflateTrial.Frame.Reader
import DeflateTrial.Frame.Wire
import DeflateTrial.Handshake.Fields
import DeflateTrial.Handshake.HeadReader
import DeflateTrial.Handshake.Problem
import DeflateTrial.Handshake.Request
import DeflateTrial.Handshake.Response
import DeflateTrial.Handshake.Writing
import DeflateTrial.Limits
import DeflateTrial.Line
import DeflateTrial.Listening
import DeflateTrial.Live
import DeflateTrial.Loopback
import DeflateTrial.Main
import DeflateTrial.Message.Assembler
import DeflateTrial.Message.Basic
import DeflateTrial.Message.Reader
import DeflateTrial.Message.Writer
import DeflateTrial.Network
import DeflateTrial.Outgoing
import DeflateTrial.Proofs.Deflate.Blocks
import DeflateTrial.Proofs.Deflate.Decoding
import DeflateTrial.Proofs.Deflate.Direction
import DeflateTrial.Proofs.Deflate.FixedCode
import DeflateTrial.Proofs.Deflate.Limit
import DeflateTrial.Proofs.Deflate.Matching
import DeflateTrial.Proofs.Deflate.Resuming
import DeflateTrial.Proofs.Deflate.Soundness
import DeflateTrial.Proofs.Deflate.Steps
import DeflateTrial.Proofs.Deflate.Streams
import DeflateTrial.Proofs.Deflate.Truncation
import DeflateTrial.Proofs.Digest.Base64
import DeflateTrial.Proofs.Extension.Acceptance
import DeflateTrial.Proofs.Extension.Entries
import DeflateTrial.Proofs.Extension.Forms
import DeflateTrial.Proofs.Extension.Headers
import DeflateTrial.Proofs.Extension.Legible
import DeflateTrial.Proofs.Extension.Negotiation
import DeflateTrial.Proofs.Extension.Parameters
import DeflateTrial.Proofs.Extension.Printing
import DeflateTrial.Proofs.Extension.Selection
import DeflateTrial.Proofs.Frame.Attempts
import DeflateTrial.Proofs.Frame.Codec
import DeflateTrial.Proofs.Frame.Encoding
import DeflateTrial.Proofs.Frame.Growth
import DeflateTrial.Proofs.Frame.Incremental
import DeflateTrial.Proofs.Frame.Indexed
import DeflateTrial.Proofs.Frame.Masking
import DeflateTrial.Proofs.Frame.Passing
import DeflateTrial.Proofs.Frame.Promptness
import DeflateTrial.Proofs.Frame.Verdict
import DeflateTrial.Proofs.Handshake.Consent
import DeflateTrial.Proofs.Handshake.Exchange
import DeflateTrial.Proofs.Handshake.Granting
import DeflateTrial.Proofs.Handshake.HeadEnd
import DeflateTrial.Proofs.Handshake.HeadSearch
import DeflateTrial.Proofs.Handshake.Heads
import DeflateTrial.Proofs.Handshake.Injection
import DeflateTrial.Proofs.Handshake.Lists
import DeflateTrial.Proofs.Handshake.Repeated
import DeflateTrial.Proofs.Handshake.RoundTrip
import DeflateTrial.Proofs.Handshake.Shown
import DeflateTrial.Proofs.Line.Exchange
import DeflateTrial.Proofs.Line.Lanes
import DeflateTrial.Proofs.Line.Opening
import DeflateTrial.Proofs.Message.Acceptance
import DeflateTrial.Proofs.Message.Bounds
import DeflateTrial.Proofs.Message.Calls
import DeflateTrial.Proofs.Message.Dealing
import DeflateTrial.Proofs.Message.Fragments
import DeflateTrial.Proofs.Message.Intake
import DeflateTrial.Proofs.Message.Later
import DeflateTrial.Proofs.Message.Lifecycle
import DeflateTrial.Proofs.Message.Reassembly
import DeflateTrial.Proofs.Message.Refusal
import DeflateTrial.Proofs.Message.Sending
import DeflateTrial.Proofs.Message.SizeLimit
import DeflateTrial.Proofs.Message.Transport
import DeflateTrial.Proofs.Queue.Delivery
import DeflateTrial.Proofs.Queue.Waking
import DeflateTrial.Proofs.Reception
import DeflateTrial.Proofs.Server.Answering
import DeflateTrial.Proofs.Server.Conversation
import DeflateTrial.Proofs.Session.Closing
import DeflateTrial.Proofs.Session.Line
import DeflateTrial.Proofs.Session.Opening
import DeflateTrial.Proofs.Session.Telling
import DeflateTrial.Proofs.Session.Turns
import DeflateTrial.Proofs.Session.Unanswered
import DeflateTrial.Proofs.Session.Wire
import DeflateTrial.Proofs.Target.Parts
import DeflateTrial.Proofs.Text.Ends
import DeflateTrial.Proofs.Trial.Addresses
import DeflateTrial.Proofs.Trial.Conformance
import DeflateTrial.Proofs.Trial.Endpoints
import DeflateTrial.Proofs.Trial.Repeating
import DeflateTrial.Proofs.Trial.Sequence
import DeflateTrial.Proofs.Trial.Steps
import DeflateTrial.Queue
import DeflateTrial.Queue.Sharing
import DeflateTrial.Report
import DeflateTrial.Role
import DeflateTrial.Scenario
import DeflateTrial.Server.Answer
import DeflateTrial.Server.Conversation
import DeflateTrial.Session.Basic
import DeflateTrial.Session.Life
import DeflateTrial.Session.Opening
import DeflateTrial.Session.Run
import DeflateTrial.Session.Scene
import DeflateTrial.Source
import DeflateTrial.Target
import DeflateTrial.Text.Blank
import DeflateTrial.Text.Decimal
import DeflateTrial.Text.Extender
import DeflateTrial.Text.Quoted
import DeflateTrial.Text.Replacement
import DeflateTrial.Text.Split
import DeflateTrial.Text.Unprintable
import DeflateTrial.Trial.Basic
import DeflateTrial.Trial.Run
import DeflateTrial.Trial.Script
import DeflateTrial.Trouble
