import MetricIntake.Backoff
import MetricIntake.Connection.Basic
import MetricIntake.Connection.Pickle
import MetricIntake.Connection.Text
import MetricIntake.DecodeError
import MetricIntake.Descriptor.Kernel
import MetricIntake.Descriptor.Table
import MetricIntake.Drain.Schedule
import MetricIntake.Drain.Tracker
import MetricIntake.Http
import MetricIntake.IoError
import MetricIntake.Line.Basic
import MetricIntake.Line.Datagram
import MetricIntake.Line.Point
import MetricIntake.Line.Reader
import MetricIntake.Line.Stream
import MetricIntake.Listen
import MetricIntake.Listener.Accept
import MetricIntake.Listener.Datagrams
import MetricIntake.Main
import MetricIntake.Manifest
import MetricIntake.Number.Binary64
import MetricIntake.Number.Decimal
import MetricIntake.Number.Literal
import MetricIntake.Options.Basic
import MetricIntake.Options.Reading
import MetricIntake.Pickle.Batch
import MetricIntake.Pickle.Bytes
import MetricIntake.Pickle.Fault
import MetricIntake.Pickle.Framer
import MetricIntake.Pickle.Instruction
import MetricIntake.Pickle.Layout
import MetricIntake.Pickle.Machine
import MetricIntake.Pickle.Reader
import MetricIntake.Pickle.Resolve
import MetricIntake.Pickle.TextArgument
import MetricIntake.Pickle.Value
import MetricIntake.Point
import MetricIntake.Program
import MetricIntake.Proofs.Backoff
import MetricIntake.Proofs.Checked
import MetricIntake.Proofs.Connection.Datagram
import MetricIntake.Proofs.Connection.Delivery
import MetricIntake.Proofs.Connection.Halt
import MetricIntake.Proofs.Connection.Limit
import MetricIntake.Proofs.Connection.Pickle
import MetricIntake.Proofs.Connection.Text
import MetricIntake.Proofs.Connection.Timeline
import MetricIntake.Proofs.Descriptor.Custody
import MetricIntake.Proofs.Descriptor.Kernel
import MetricIntake.Proofs.Descriptor.Table
import MetricIntake.Proofs.Drain.Schedule
import MetricIntake.Proofs.Drain.Tracker
import MetricIntake.Proofs.Line.Arrival
import MetricIntake.Proofs.Line.Bounds
import MetricIntake.Proofs.Line.Datagram
import MetricIntake.Proofs.Line.Grammar
import MetricIntake.Proofs.Line.Point
import MetricIntake.Proofs.Line.Reader
import MetricIntake.Proofs.Line.Stream
import MetricIntake.Proofs.Line.Text
import MetricIntake.Proofs.Listener.Accept
import MetricIntake.Proofs.Listener.Datagrams
import MetricIntake.Proofs.Manifest
import MetricIntake.Proofs.Number.Decimal
import MetricIntake.Proofs.Number.Digits
import MetricIntake.Proofs.Number.Rounding
import MetricIntake.Proofs.Number.Text
import MetricIntake.Proofs.Pickle.Batch
import MetricIntake.Proofs.Pickle.Bounds
import MetricIntake.Proofs.Pickle.Calls
import MetricIntake.Proofs.Pickle.Frame
import MetricIntake.Proofs.Pickle.Framer
import MetricIntake.Proofs.Pickle.Grammar
import MetricIntake.Proofs.Pickle.Machine
import MetricIntake.Proofs.Pickle.Opcode
import MetricIntake.Proofs.Pickle.Record
import MetricIntake.Proofs.Pickle.Unpickler
import MetricIntake.Proofs.Restart.Custody
import MetricIntake.Proofs.Restart.Successor
import MetricIntake.Proofs.Service.Activity
import MetricIntake.Proofs.Service.Adoption
import MetricIntake.Proofs.Service.Deadline
import MetricIntake.Proofs.Service.Drain
import MetricIntake.Proofs.Service.Handover
import MetricIntake.Proofs.Service.Inheritance
import MetricIntake.Proofs.Service.Manager
import MetricIntake.Proofs.Service.Ownership
import MetricIntake.Proofs.Service.Resumption
import MetricIntake.Proofs.Service.Serving
import MetricIntake.Proofs.Service.Start
import MetricIntake.Proofs.Service.Succession
import MetricIntake.Proofs.Socket.Lifecycle
import MetricIntake.Proofs.Successor
import MetricIntake.Proofs.Text.Blank
import MetricIntake.Proofs.Text.Fields
import MetricIntake.Proofs.Text.Pieces
import MetricIntake.Proofs.Text.Printable
import MetricIntake.Proofs.Text.Trim
import MetricIntake.Proofs.Text.Utf8
import MetricIntake.Protocol
import MetricIntake.Restart
import MetricIntake.Service.Activity
import MetricIntake.Service.Basic
import MetricIntake.Service.Drain
import MetricIntake.Service.Manager
import MetricIntake.Settings
import MetricIntake.Signal
import MetricIntake.Sink
import MetricIntake.Socket.Error
import MetricIntake.Socket.Listening
import MetricIntake.Span
import MetricIntake.Successor
import MetricIntake.Text.Blank
import MetricIntake.Text.CodeRange
import MetricIntake.Text.Combining
import MetricIntake.Text.Json
import MetricIntake.Text.Printable
import MetricIntake.Text.Quoted
import MetricIntake.Text.Unassigned
import MetricIntake.Text.Utf8
