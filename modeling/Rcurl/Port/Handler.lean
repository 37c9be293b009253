import Mathlib.Data.List.Sort
import Rcurl.Foundation.RustText

/-!
# Ports and their processes

`port::handler`: the listening sockets of the system, the search for the process that uses a port, and
its end. The socket table and the processes come from outside; what the commands print is a list of
lines.
-/

namespace Rcurl

open RustText (Text)

/-- `TcpState`. -/
inductive TcpState where
  | closed | listen | synSent | synReceived | established | finWait1 | finWait2 | closeWait | closing
  | lastAck | timeWait | deleteTcb | unknown
  deriving DecidableEq, Repr

/-- A state as `{:?}` writes it. -/
def TcpState.debug : TcpState → Text
  | .closed => "Closed".toList
  | .listen => "Listen".toList
  | .synSent => "SynSent".toList
  | .synReceived => "SynReceived".toList
  | .established => "Established".toList
  | .finWait1 => "FinWait1".toList
  | .finWait2 => "FinWait2".toList
  | .closeWait => "CloseWait".toList
  | .closing => "Closing".toList
  | .lastAck => "LastAck".toList
  | .timeWait => "TimeWait".toList
  | .deleteTcb => "DeleteTcb".toList
  | .unknown => "Unknown".toList

/-- An `IpAddr` as it is displayed. -/
structure IpText where
  /-- Four numbers with dots, or groups with colons. -/
  text : Text
  /-- Every letter takes one byte and one column. -/
  ascii : ∀ c ∈ text, c.toNat < 128
  deriving DecidableEq, Repr

/-- `TcpSocketInfo`. -/
structure TcpSocketInfo where
  /-- What the socket is bound to; an unspecified address stands for all of them. -/
  localAddr : IpText
  /-- The port that is taken on this machine. -/
  localPort : UInt16
  /-- 0 until a peer is known. -/
  remotePort : UInt16
  /-- How far the connection has come. -/
  state : TcpState
  deriving DecidableEq, Repr

/-- `UdpSocketInfo`. -/
structure UdpSocketInfo where
  /-- What the socket is bound to. -/
  localAddr : IpText
  /-- The port that is taken on this machine. -/
  localPort : UInt16
  deriving DecidableEq, Repr

/-- `ProtocolSocketInfo`. -/
inductive ProtocolSocketInfo where
  /-- It may listen, or be one end of a connection. -/
  | tcp (info : TcpSocketInfo)
  /-- It is bound, and has no state. -/
  | udp (info : UdpSocketInfo)
  deriving DecidableEq, Repr

/-- `SocketInfo`. -/
structure SocketInfo where
  /-- What only one of the protocols knows of it. -/
  protocolSocketInfo : ProtocolSocketInfo
  /-- The processes that have the socket open. -/
  associatedPids : List UInt32
  deriving DecidableEq, Repr

/-- `PortInfo`. -/
structure PortInfo where
  /-- `TCP` or `UDP`. -/
  protocol : Text
  /-- As it is displayed, before the table cuts it. -/
  localAddress : IpText
  /-- The key that the table is sorted by. -/
  localPort : UInt16
  /-- `Listen`, or `LISTENING` for UDP, which has no states. -/
  state : Text
  /-- The first process that has the socket open, or 0 when none is known. -/
  pid : UInt32
  deriving DecidableEq, Repr

/-- A process. -/
structure Process where
  /-- What it is called in the table of processes. -/
  name : Text
  /-- Its command line. -/
  cmd : List Text
  /-- `Process::kill` ends it. -/
  kills : Bool
  deriving DecidableEq, Repr

/-- The ways the commands fail. -/
inductive PortError where
  /-- The sockets cannot be read. -/
  | sockets (error : Text)
  /-- 0 is no process. -/
  | invalidPid
  /-- The process does not end. -/
  | notKilled (pid : UInt32)
  /-- There is no such process. -/
  | notFound (pid : UInt32)
  deriving DecidableEq, Repr

/-- The texts of the errors. -/
def PortError.text : PortError → Text
  | .sockets error => "Failed to get socket info: ".toList ++ error
  | .invalidPid => "Invalid PID".toList
  | .notKilled pid => "Failed to kill process: ".toList ++ RustText.decimal pid.toNat
  | .notFound pid => "Process not found: ".toList ++ RustText.decimal pid.toNat

/-- What the commands see of the system. -/
structure PortWorld where
  /-- `get_sockets_info`, for both protocols and both address families. -/
  getSocketsInfo : Except Text (List SocketInfo)
  /-- `System::process`. -/
  process : UInt32 → Option Process

/-- What a command prints, the processes it ends, and how it returns. -/
structure PortRun where
  /-- What goes to standard output, line by line. -/
  printed : List Text
  /-- The processes that got a signal and ended. -/
  killed : List UInt32
  /-- What the caller of the command sees. -/
  result : Except PortError Unit

/-- The entry of a socket, when it listens. -/
def listedAs (info : SocketInfo) : Option PortInfo :=
  let pid := info.associatedPids.head?.getD 0
  match info.protocolSocketInfo with
  | .tcp tcp =>
    if tcp.localPort > 0 ∧ tcp.remotePort = 0 ∧ tcp.state = .listen then
      some { protocol := "TCP".toList, localAddress := tcp.localAddr, localPort := tcp.localPort,
             state := tcp.state.debug, pid }
    else none
  | .udp udp =>
    if udp.localPort > 0 then
      some { protocol := "UDP".toList, localAddress := udp.localAddr, localPort := udp.localPort,
             state := "LISTENING".toList, pid }
    else none

/-- `get_listening_ports`. -/
def getListeningPorts (world : PortWorld) : Except PortError (List PortInfo) :=
  match world.getSocketsInfo with
  | .ok sockets => .ok (sockets.filterMap listedAs)
  | .error error => .error (.sockets error)

/-- The process of the first entry with a port. -/
def firstPid (ports : List PortInfo) (port : UInt16) : Option UInt32 :=
  (ports.find? (·.localPort = port)).map (·.pid)

/-- `find_pid_by_port`. -/
def findPidByPort (world : PortWorld) (port : UInt16) : Except PortError (Option UInt32) :=
  (getListeningPorts world).map (firstPid · port)

/-- `kill_process`. -/
def killProcess (world : PortWorld) (pid : UInt32) : Except PortError Unit :=
  if pid = 0 then .error .invalidPid
  else
    match world.process pid with
    | some process => if process.kills then .ok () else .error (.notKilled pid)
    | none => .error (.notFound pid)

/-- An address, cut when it is long. -/
def addrDisplay (address : Text) : Text :=
  if address.length > 25 then address.take 22 ++ "...".toList else address

/-- The line of an entry. -/
def portLine (entry : PortInfo) : Text :=
  let address :=
    addrDisplay entry.localAddress.text ++ ':' :: RustText.decimal entry.localPort.toNat
  let pid := if entry.pid > 0 then RustText.decimal entry.pid.toNat else "N/A".toList
  RustText.padRight 10 entry.protocol ++ ' ' :: (RustText.padRight 25 address ++
    ' ' :: (RustText.padRight 10 entry.state ++ ' ' :: RustText.padRight 10 pid))

/-- The entries in the order they are displayed. -/
def sortedPorts (ports : List PortInfo) : List PortInfo :=
  ports.mergeSort fun a b => a.localPort ≤ b.localPort

/-- `display_all_ports`. -/
def displayAllPorts (ports : List PortInfo) : List Text :=
  if ports = [] then ["No listening ports found.".toList]
  else
    ["Listening ports:".toList, [],
      RustText.padRight 10 "Protocol".toList ++ ' ' ::
        (RustText.padRight 25 "Address".toList ++ ' ' ::
          (RustText.padRight 10 "State".toList ++ ' ' :: RustText.padRight 10 "PID".toList)),
      List.replicate 60 '-'] ++
      (sortedPorts ports).map portLine ++
      [[], "Total: ".toList ++ RustText.decimal (sortedPorts ports).length ++
        " listening port(s)".toList]

/-- `get_process_command`. -/
def getProcessCommand (world : PortWorld) (pid : UInt32) : Option Text :=
  (world.process pid).map fun process =>
    if process.cmd ≠ [] then List.intercalate [' '] process.cmd else process.name

/-- `display_port_result`. -/
def displayPortResult (world : PortWorld) (port : UInt16) (pid : Option UInt32) : List Text :=
  match pid with
  | some pid =>
    if pid > 0 then
      ("Port ".toList ++ RustText.decimal port.toNat ++ " is in use by process ID: ".toList ++
        RustText.decimal pid.toNat) ::
          ((getProcessCommand world pid).map ("Command: ".toList ++ ·)).toList
    else
      ["Port ".toList ++ RustText.decimal port.toNat ++
        " is in use (PID information not available).".toList]
  | none => ["Port ".toList ++ RustText.decimal port.toNat ++ " is not in use.".toList]

/-- A command that ends no process. -/
def PortRun.printing (lines : Except PortError (List Text)) : PortRun :=
  match lines with
  | .ok lines => { printed := lines, killed := [], result := .ok () }
  | .error error => { printed := [], killed := [], result := .error error }

/-- `port_list_command`. -/
def portListCommand (world : PortWorld) : PortRun :=
  .printing ((getListeningPorts world).map displayAllPorts)

/-- `port_find_command`. -/
def portFindCommand (world : PortWorld) (port : UInt16) : PortRun :=
  .printing ((findPidByPort world port).map (displayPortResult world port))

/-- The line before a process is killed. -/
def killingLine (port : UInt16) (pid : UInt32) : Text :=
  "Killing process ".toList ++ RustText.decimal pid.toNat ++ " using port ".toList ++
    RustText.decimal port.toNat ++ "...".toList

/-- The line after it. -/
def killedLine (pid : UInt32) : Text :=
  "Successfully killed process ".toList ++ RustText.decimal pid.toNat ++ ".".toList

/-- `port_kill_command`. -/
def portKillCommand (world : PortWorld) (port : UInt16) : PortRun :=
  match findPidByPort world port with
  | .error error => { printed := [], killed := [], result := .error error }
  | .ok (some pid) =>
    if pid > 0 then
      match killProcess world pid with
      | .ok () => { printed := [killingLine port pid, killedLine pid], killed := [pid], result := .ok () }
      | .error error => { printed := [killingLine port pid], killed := [], result := .error error }
    else
      { printed := ["Port ".toList ++ RustText.decimal port.toNat ++
          " is in use but PID information is not available.".toList],
        killed := [], result := .ok () }
  | .ok none =>
    { printed := ["Port ".toList ++ RustText.decimal port.toNat ++
        " is not in use. No process to kill.".toList],
      killed := [], result := .ok () }

section Listing

variable {world : PortWorld}

/-- The entries that are displayed are those that are listed. -/
theorem mem_sortedPorts {ports : List PortInfo} {entry : PortInfo} :
    entry ∈ sortedPorts ports ↔ entry ∈ ports := List.mem_mergeSort

/-- A socket that is listed is a listening TCP socket or a UDP socket with the port of its entry, and
the entry names the first of its processes or none. -/
theorem listedAs_some {info : SocketInfo} {entry : PortInfo} (listed : listedAs info = some entry) :
    entry.pid = info.associatedPids.head?.getD 0 ∧
      ((∃ tcp, info.protocolSocketInfo = .tcp tcp ∧ tcp.localPort = entry.localPort ∧
          tcp.state = .listen) ∨
        ∃ udp, info.protocolSocketInfo = .udp udp ∧ udp.localPort = entry.localPort) := by
  rw [listedAs] at listed
  cases kind : info.protocolSocketInfo with
  | tcp tcp =>
    rw [kind] at listed
    dsimp only at listed
    split_ifs at listed with listens
    rw [← Option.some.inj listed]
    exact ⟨rfl, .inl ⟨tcp, rfl, rfl, listens.2.2⟩⟩
  | udp udp =>
    rw [kind] at listed
    dsimp only at listed
    split_ifs at listed
    rw [← Option.some.inj listed]
    exact ⟨rfl, .inr ⟨udp, rfl, rfl⟩⟩

/-- A process that an entry names has its socket open. -/
theorem mem_of_listedAs {info : SocketInfo} {entry : PortInfo} (listed : listedAs info = some entry)
    (known : 0 < entry.pid) : entry.pid ∈ info.associatedPids := by
  rw [(listedAs_some listed).1] at known ⊢
  cases pids : info.associatedPids with
  | nil =>
    rw [pids] at known
    exact absurd known (by decide)
  | cons first rest => exact List.mem_cons_self

/-- A process is killed only when it exists and ends. -/
theorem killProcess_ok {pid : UInt32} (killed : killProcess world pid = .ok ()) :
    (world.process pid).isSome = true := by
  rw [killProcess] at killed
  split_ifs at killed
  cases found : world.process pid with
  | none =>
    rw [found] at killed
    contradiction
  | some process => rfl

end Listing

end Rcurl
