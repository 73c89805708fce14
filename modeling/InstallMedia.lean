import InstallMedia.Address
import InstallMedia.Attempt
import InstallMedia.CommandLine.Arguments
import InstallMedia.CommandLine.Grammar
import InstallMedia.CommandLine.Run
import InstallMedia.Counted
import InstallMedia.Error
import InstallMedia.Fault
import InstallMedia.Files.Path
import InstallMedia.Files.Tree
import InstallMedia.Ftp.Connection
import InstallMedia.Ftp.Fault
import InstallMedia.Ftp.Listing
import InstallMedia.Ftp.Passive
import InstallMedia.Ftp.Reply
import InstallMedia.Http.Client
import InstallMedia.Http.Exchange
import InstallMedia.Http.Fault
import InstallMedia.Http.Status
import InstallMedia.Json.Cursor
import InstallMedia.Json.Fault
import InstallMedia.Json.Numeral
import InstallMedia.Json.Reader
import InstallMedia.Json.Text
import InstallMedia.Json.Value
import InstallMedia.Main
import InstallMedia.Mount.Candidate
import InstallMedia.Mount.Fault
import InstallMedia.Mount.Mounter
import InstallMedia.Mount.Rehearsed
import InstallMedia.Mount.Script
import InstallMedia.Number.Binary64
import InstallMedia.Number.Shortest
import InstallMedia.Proofs.Address
import InstallMedia.Proofs.Attempt
import InstallMedia.Proofs.CommandLine.Fetch
import InstallMedia.Proofs.CommandLine.Release
import InstallMedia.Proofs.CommandLine.Transfer
import InstallMedia.Proofs.Counted
import InstallMedia.Proofs.Files.Place
import InstallMedia.Proofs.Files.Reach
import InstallMedia.Proofs.Files.Transfer
import InstallMedia.Proofs.Files.Tree
import InstallMedia.Proofs.Ftp.Access
import InstallMedia.Proofs.Ftp.Closing
import InstallMedia.Proofs.Ftp.Conformity
import InstallMedia.Proofs.Ftp.Data
import InstallMedia.Proofs.Ftp.Dialogue
import InstallMedia.Proofs.Ftp.Discipline
import InstallMedia.Proofs.Ftp.Framing
import InstallMedia.Proofs.Ftp.Hearing
import InstallMedia.Proofs.Ftp.History
import InstallMedia.Proofs.Ftp.Keeping
import InstallMedia.Proofs.Ftp.Late
import InstallMedia.Proofs.Ftp.Lifecycle
import InstallMedia.Proofs.Ftp.Listing
import InstallMedia.Proofs.Ftp.Login
import InstallMedia.Proofs.Ftp.Missing
import InstallMedia.Proofs.Ftp.Obliging
import InstallMedia.Proofs.Ftp.Passive
import InstallMedia.Proofs.Ftp.ReadBack
import InstallMedia.Proofs.Ftp.Session
import InstallMedia.Proofs.Ftp.Speech
import InstallMedia.Proofs.Ftp.Storage
import InstallMedia.Proofs.Ftp.Telling
import InstallMedia.Proofs.Ftp.Wire
import InstallMedia.Proofs.Json.Grammar
import InstallMedia.Proofs.Json.Numbers
import InstallMedia.Proofs.Json.Reading
import InstallMedia.Proofs.Json.Record
import InstallMedia.Proofs.Json.Shapes
import InstallMedia.Proofs.Json.Writing
import InstallMedia.Proofs.Mount.Candidate
import InstallMedia.Proofs.Mount.Contract
import InstallMedia.Proofs.Scheme
import InstallMedia.Proofs.Source.Any
import InstallMedia.Proofs.Source.Basic
import InstallMedia.Proofs.Source.Call
import InstallMedia.Proofs.Source.Candidates
import InstallMedia.Proofs.Source.Config
import InstallMedia.Proofs.Source.Credentials
import InstallMedia.Proofs.Source.Directory
import InstallMedia.Proofs.Source.Dispatch
import InstallMedia.Proofs.Source.Frame
import InstallMedia.Proofs.Source.GivingUp
import InstallMedia.Proofs.Source.Http
import InstallMedia.Proofs.Source.MountCalls
import InstallMedia.Proofs.Source.Mounted
import InstallMedia.Proofs.Source.Probing
import InstallMedia.Proofs.Source.ReadOnly
import InstallMedia.Proofs.Source.Release
import InstallMedia.Proofs.Source.Storage
import InstallMedia.Proofs.Stream.Copy
import InstallMedia.Proofs.Stream.Course
import InstallMedia.Proofs.Text.Lines
import InstallMedia.Proofs.Text.Percent
import InstallMedia.Proofs.Text.Split
import InstallMedia.Proofs.Text.Utf8
import InstallMedia.Proofs.Url.Path
import InstallMedia.Proofs.Url.Plain
import InstallMedia.Proofs.Url.Reader
import InstallMedia.Proofs.Url.Scheme
import InstallMedia.Proofs.Url.Userinfo
import InstallMedia.Proofs.Url.Written
import InstallMedia.Scheme
import InstallMedia.Source.Any
import InstallMedia.Source.Basic
import InstallMedia.Source.Config
import InstallMedia.Source.Device
import InstallMedia.Source.Directory
import InstallMedia.Source.Ftp
import InstallMedia.Source.Http
import InstallMedia.Source.Mounted
import InstallMedia.Source.Options
import InstallMedia.Source.Recorded
import InstallMedia.Stream.Copy
import InstallMedia.Stream.Feed
import InstallMedia.Stream.Gauged
import InstallMedia.Stream.Sink
import InstallMedia.Text.Base64
import InstallMedia.Text.Lines
import InstallMedia.Text.Percent
import InstallMedia.Text.Printable
import InstallMedia.Text.Quoted
import InstallMedia.Text.Split
import InstallMedia.Text.Utf8
import InstallMedia.Url.Basic
import InstallMedia.Url.DrivePath
import InstallMedia.Url.Host
import InstallMedia.Url.Path
import InstallMedia.Url.Reader
import InstallMedia.Url.Resolve
import InstallMedia.World
