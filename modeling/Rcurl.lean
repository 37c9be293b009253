import Rcurl.App.Process
import Rcurl.Disk.Columns
import Rcurl.Dns.Handler
import Rcurl.Ftp.Protocol
import Rcurl.Ftp.Ranges
import Rcurl.History.Concurrency
import Rcurl.History.LineWords
import Rcurl.History.Unreadable
import Rcurl.Http.Credentials
import Rcurl.Http.FormParts
import Rcurl.Http.GivenHeaders
import Rcurl.Http.HopHost
import Rcurl.Http.NoProxy
import Rcurl.Http.OutputFile
import Rcurl.Http.ProxySpelling
import Rcurl.Http.Timing
import Rcurl.Http.TlsTrust
import Rcurl.Http.Verbosity
import Rcurl.Ping.Handler
import Rcurl.Port.Owners
import Rcurl.Port.Table
import Rcurl.Telnet.Record
import Rcurl.Telnet.Typed
import Rcurl.Tls.Display
import Rcurl.Whois.Decoding
