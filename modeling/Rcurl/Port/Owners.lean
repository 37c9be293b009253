import Rcurl.Port.Handler

/-!
# Whoever uses a port

The search for the process of a port takes the first entry with the port, and the first process of its
socket. An entry whose process is not known hides the others that have one, `known_owner_iff`; and all
other processes with the port survive a kill, `port_kill_iff`.
-/

namespace Rcurl

open RustText (Text)

/-- A socket listens on a port: over TCP in the listening state, over UDP always. -/
def SocketInfo.Serves (info : SocketInfo) (port : UInt16) : Prop :=
  match info.protocolSocketInfo with
  | .tcp tcp => tcp.localPort = port ∧ tcp.state = .listen
  | .udp udp => udp.localPort = port

/-- A process has a socket open that listens on a port. -/
def PortWorld.Owns (world : PortWorld) (port : UInt16) (pid : UInt32) : Prop :=
  ∃ sockets info, world.getSocketsInfo = .ok sockets ∧ info ∈ sockets ∧ info.Serves port ∧
    pid ∈ info.associatedPids

/-- A process is there, and still is after a command. -/
def PortRun.Survives (world : PortWorld) (run : PortRun) (pid : UInt32) : Prop :=
  (world.process pid).isSome = true ∧ pid ∉ run.killed

/-- A kill frees its port: no process that is left owns it. -/
def PortWorld.Freed (world : PortWorld) (port : UInt16) (run : PortRun) : Prop :=
  ∀ pid, run.Survives world pid → ¬ world.Owns port pid

/-- A command reports that it killed a process. -/
def PortRun.Reports (run : PortRun) : Prop := ∃ pid, killedLine pid ∈ run.printed

/-- The entries of a socket table that are displayed. -/
def shownEntries (sockets : List SocketInfo) : List PortInfo := sortedPorts (sockets.filterMap listedAs)

/-- The search finds a known owner, whenever the list shows one. -/
structure OwnerFound (sockets : List SocketInfo) (port : UInt16) (found : Option UInt32) : Prop where
  /-- Nothing is found when the list shows no entry with the port. -/
  absent : found = none ↔ ∀ entry ∈ shownEntries sockets, entry.localPort ≠ port
  /-- An owner is found when the list shows one. -/
  known : ∀ entry ∈ shownEntries sockets, entry.localPort = port → 0 < entry.pid →
    ∃ pid, found = some pid ∧ 0 < pid ∧ ∃ info ∈ sockets, ∃ shown ∈ shownEntries sockets,
      listedAs info = some shown ∧ shown.localPort = port ∧ pid ∈ info.associatedPids
  /-- 0 is found only when the list shows entries without one. -/
  unknown : found = some 0 → (∃ entry ∈ shownEntries sockets, entry.localPort = port) ∧
    ∀ entry ∈ shownEntries sockets, entry.localPort = port → entry.pid = 0

section Search

variable {sockets : List SocketInfo} {port : UInt16}

/-- The entries that are displayed come from the sockets. -/
theorem mem_shownEntries {entry : PortInfo} :
    entry ∈ shownEntries sockets ↔ ∃ info ∈ sockets, listedAs info = some entry := by
  rw [shownEntries, mem_sortedPorts, List.mem_filterMap]

/-- A listed socket listens on the port of its entry. -/
theorem serves_of_listedAs {info : SocketInfo} {entry : PortInfo}
    (listed : listedAs info = some entry) : info.Serves entry.localPort := by
  rw [SocketInfo.Serves]
  rcases (listedAs_some listed).2 with ⟨tcp, kind, port, state⟩ | ⟨udp, kind, port⟩
  · rw [kind]
    exact ⟨port, state⟩
  · rw [kind]
    exact port

/-- The list command prints a line for every entry that is displayed. -/
theorem portList_lines {world : PortWorld} (table : world.getSocketsInfo = .ok sockets) :
    ∀ entry ∈ shownEntries sockets, portLine entry ∈ (portListCommand world).printed := by
  intro entry shown
  have listed : entry ∈ sockets.filterMap listedAs := mem_sortedPorts.mp shown
  rw [portListCommand, getListeningPorts, table]
  show portLine entry ∈ displayAllPorts (sockets.filterMap listedAs)
  rw [displayAllPorts, if_neg (List.ne_nil_of_mem listed)]
  apply List.mem_append_left
  apply List.mem_append_right
  exact List.mem_map_of_mem shown

/-- Nothing is found when no entry has the port. -/
theorem firstPid_none {ports : List PortInfo} :
    firstPid ports port = none ↔ ∀ entry ∈ ports, entry.localPort ≠ port := by
  rw [firstPid, Option.map_eq_none_iff, List.find?_eq_none]
  apply forall₂_congr
  intro entry member
  rw [decide_eq_true_eq]

/-- The find command calls a port unused exactly when it finds nothing. -/
theorem displayPortResult_free_iff {world : PortWorld} {found : Option UInt32} :
    displayPortResult world port found =
      ["Port ".toList ++ RustText.decimal port.toNat ++ " is not in use.".toList] ↔ found = none := by
  cases found with
  | none => exact iff_of_true rfl rfl
  | some pid =>
    refine iff_of_false (fun same => ?_) nofun
    -- The lines part after the port: `i` of `in` stands where `n` of `not` does.
    have part : ∀ rest : Text, "Port ".toList ++ RustText.decimal port.toNat ++ " is in".toList ++ rest ≠
        "Port ".toList ++ RustText.decimal port.toNat ++ " is not in use.".toList := by
      intro rest equal
      rw [List.append_assoc] at equal
      have letters : some 'i' = some 'n' :=
        congrArg (fun text : Text => (text.drop 4).head?) (List.append_cancel_left equal)
      exact absurd letters (by decide)
    rw [displayPortResult] at same
    by_cases positive : pid > 0
    · rw [if_pos positive] at same
      apply part (" use by process ID: ".toList ++ RustText.decimal pid.toNat)
      rw [← (List.cons.inj same).1, ← List.append_assoc, List.append_assoc _ " is in".toList]
      rfl
    · rw [if_neg positive] at same
      apply part " use (PID information not available).".toList
      rw [← (List.cons.inj same).1, List.append_assoc _ " is in".toList]
      rfl

/-- The find command calls a port unused exactly when the list shows no entry with it. -/
theorem portFind_free_iff {world : PortWorld} (table : world.getSocketsInfo = .ok sockets) :
    (portFindCommand world port).printed =
        ["Port ".toList ++ RustText.decimal port.toNat ++ " is not in use.".toList] ↔
      ∀ entry ∈ shownEntries sockets, entry.localPort ≠ port := by
  have printed : (portFindCommand world port).printed =
      displayPortResult world port (firstPid (sockets.filterMap listedAs) port) := by
    rw [portFindCommand, findPidByPort, getListeningPorts, table]
    rfl
  rw [printed, displayPortResult_free_iff, firstPid_none]
  simp only [shownEntries, mem_sortedPorts]

/-- A first entry with the port is found. -/
theorem firstPid_cons {entry : PortInfo} {ports : List PortInfo} (here : entry.localPort = port) :
    firstPid (entry :: ports) port = some entry.pid := by
  simp [firstPid, here]

/-- What is found is the process of an entry with the port. -/
theorem firstPid_some {ports : List PortInfo} {pid : UInt32} (found : firstPid ports port = some pid) :
    ∃ entry ∈ ports, entry.localPort = port ∧ entry.pid = pid := by
  obtain ⟨entry, first, same⟩ := Option.map_eq_some_iff.mp found
  have here := List.find?_some first
  exact ⟨entry, List.mem_of_find?_eq_some first, of_decide_eq_true here, same⟩

/-- An owner is found in one order of the sockets when the first entry with the port has one, or none
has. -/
theorem ownerFound_of (first : ∀ pid, firstPid (sockets.filterMap listedAs) port = some pid →
    0 < pid ∨ ∀ entry ∈ shownEntries sockets, entry.localPort = port → entry.pid = 0) :
    OwnerFound sockets port (firstPid (sockets.filterMap listedAs) port) where
  absent := by
    rw [firstPid_none]
    simp only [shownEntries, mem_sortedPorts]
  known := by
    intro entry member same known
    cases found : firstPid (sockets.filterMap listedAs) port with
    | none =>
      rw [shownEntries, mem_sortedPorts] at member
      exact absurd same (firstPid_none.mp found entry member)
    | some pid =>
      have positive : 0 < pid := by
        rcases first pid found with positive | none_known
        · exact positive
        · rw [none_known entry member same] at known
          exact absurd known (by decide)
      obtain ⟨shown, listed, here, rfl⟩ := firstPid_some found
      obtain ⟨info, socket, entered⟩ := List.mem_filterMap.mp listed
      exact ⟨shown.pid, rfl, positive, info, socket, shown, mem_sortedPorts.mpr listed, entered, here,
        mem_of_listedAs entered positive⟩
  unknown := by
    intro found
    obtain ⟨entry, listed, here, _⟩ := firstPid_some found
    refine ⟨⟨entry, mem_sortedPorts.mpr listed, here⟩, ?_⟩
    exact (first 0 found).resolve_left (by decide)

end Search

/-- In every order of the sockets the search finds a known owner, exactly when all entries with the
port have one or none has. -/
theorem known_owner_iff (process : UInt32 → Option Process) (sockets : List SocketInfo) (port : UInt16) :
    (∀ order : List SocketInfo, order.Perm sockets →
      ∃ found, findPidByPort { getSocketsInfo := .ok order, process } port = .ok found ∧
        OwnerFound order port found) ↔
    (∀ entry ∈ shownEntries sockets, entry.localPort = port → 0 < entry.pid) ∨
      ∀ entry ∈ shownEntries sockets, entry.localPort = port → entry.pid = 0 := by
  constructor
  · intro finds
    by_contra mixed
    have parts := not_or.mp mixed
    simp only [not_forall] at parts
    obtain ⟨⟨hidden, shown, here, unknown⟩, known, visible, there, positive⟩ := parts
    obtain ⟨info, socket, entered⟩ := mem_shownEntries.mp shown
    -- The socket without a known process is reported first.
    have order : (info :: sockets.erase info).Perm sockets := (List.perm_cons_erase socket).symm
    obtain ⟨found, searched, right⟩ := finds _ order
    have zero : hidden.pid = 0 := UInt32.le_zero_iff.mp (UInt32.not_lt.mp unknown)
    have first : found = some 0 := by
      have same : firstPid ((info :: sockets.erase info).filterMap listedAs) port = found :=
        Except.ok.inj searched
      rw [← same, List.filterMap_cons_some entered, firstPid_cons here, zero]
    have again : known ∈ shownEntries (info :: sockets.erase info) := by
      obtain ⟨other, member, listed⟩ := mem_shownEntries.mp visible
      exact mem_shownEntries.mpr ⟨other, order.mem_iff.mpr member, listed⟩
    exact positive ((right.unknown first).2 known again there)
  · intro uniform order same
    refine ⟨_, rfl, ownerFound_of fun pid found => ?_⟩
    obtain ⟨entry, listed, here, rfl⟩ := firstPid_some found
    have member : ∀ {other}, other ∈ shownEntries order → other ∈ shownEntries sockets := by
      intro other shown
      obtain ⟨info, socket, entered⟩ := mem_shownEntries.mp shown
      exact mem_shownEntries.mpr ⟨info, same.mem_iff.mp socket, entered⟩
    rcases uniform with all_known | none_known
    · exact .inl (all_known entry (member (mem_sortedPorts.mpr listed)) here)
    · exact .inr fun other shown there => none_known other (member shown) there

section Kill

variable {world : PortWorld} {port : UInt16}

/-- What is found owns a socket that listens on the port. -/
theorem findPidByPort_owns {pid : UInt32} (found : findPidByPort world port = .ok (some pid))
    (positive : 0 < pid) : world.Owns port pid := by
  rw [findPidByPort, getListeningPorts] at found
  cases table : world.getSocketsInfo with
  | error error =>
    rw [table] at found
    contradiction
  | ok sockets =>
    rw [table] at found
    obtain ⟨entry, listed, here, rfl⟩ := firstPid_some (Except.ok.inj found)
    obtain ⟨info, socket, entered⟩ := List.mem_filterMap.mp listed
    refine ⟨sockets, info, table, socket, ?_, mem_of_listedAs entered positive⟩
    rw [← here]
    exact serves_of_listedAs entered

/-- A single line that starts in another way reports no kill. -/
theorem not_killedLine {line : Text} {first : Char} {pid : UInt32} (begins : line.head? = some first)
    (other : first ≠ 'S') : killedLine pid ∉ [line] := by
  intro member
  rw [← List.mem_singleton.mp member] at begins
  exact other (Option.some.inj begins).symm

/-- A kill that is reported ended one process, which owned a socket on the port. -/
theorem portKill_reports (reports : (portKillCommand world port).Reports) :
    ∃ pid, (portKillCommand world port).killed = [pid] ∧ world.Owns port pid ∧
      (world.process pid).isSome = true := by
  obtain ⟨reported, line⟩ := reports
  rw [portKillCommand] at line ⊢
  cases found : findPidByPort world port with
  | error error =>
    rw [found] at line
    exact absurd line List.not_mem_nil
  | ok search =>
    cases search with
    | none =>
      rw [found] at line
      exact absurd line (not_killedLine rfl (by decide))
    | some pid =>
      rw [found] at line
      dsimp only at line ⊢
      by_cases positive : pid > 0
      · rw [if_pos positive] at line ⊢
        cases killed : killProcess world pid with
        | error error =>
          rw [killed] at line
          exact absurd line (not_killedLine rfl (by decide))
        | ok done =>
          exact ⟨pid, rfl, findPidByPort_owns found positive, killProcess_ok killed⟩
      · rw [if_neg positive] at line
        exact absurd line (not_killedLine rfl (by decide))

end Kill

/-- A reported kill ends an owner of the port only, and it frees the port exactly when all processes
that own it are one. -/
theorem port_kill_iff (world : PortWorld) (port : UInt16)
    (reports : (portKillCommand world port).Reports) :
    (∀ pid ∈ (portKillCommand world port).killed, world.Owns port pid) ∧
    (world.Freed port (portKillCommand world port) ↔
      ∀ first second, (world.process first).isSome = true → (world.process second).isSome = true →
        world.Owns port first → world.Owns port second → first = second) := by
  obtain ⟨pid, killed, owns, alive⟩ := portKill_reports reports
  constructor
  · intro other member
    rw [killed] at member
    rw [List.mem_singleton.mp member]
    exact owns
  · constructor
    · intro freed first second firstAlive secondAlive firstOwns secondOwns
      have only : ∀ other, (world.process other).isSome = true → world.Owns port other →
          other = pid := by
        intro other otherAlive otherOwns
        by_contra apart
        refine freed other ⟨otherAlive, fun member => apart ?_⟩ otherOwns
        rw [killed] at member
        exact List.mem_singleton.mp member
      rw [only first firstAlive firstOwns, only second secondAlive secondOwns]
    · intro unique other survives otherOwns
      apply survives.2
      rw [killed]
      exact List.mem_singleton.mpr (unique other pid survives.1 alive otherOwns owns)

/-! ## Two sockets with one port -/

/-- Every address, of IPv4 and of IPv6. -/
def anyAddress (v6 : Bool) : IpText :=
  if v6 then ⟨"::".toList, by decide⟩ else ⟨"0.0.0.0".toList, by decide⟩

/-- A listening TCP socket on port 80. -/
def webSocket (v6 : Bool) (pids : List UInt32) : SocketInfo :=
  { protocolSocketInfo := .tcp { localAddr := anyAddress v6, localPort := 80, remotePort := 0,
                                 state := .listen },
    associatedPids := pids }

/-- Every process is there, and ends. -/
def webWorld (sockets : List SocketInfo) : PortWorld :=
  { getSocketsInfo := .ok sockets,
    process := fun _ => some { name := "w".toList, cmd := [], kills := true } }

/-- The socket whose process is not known hides the other one. -/
theorem hidden_owner : ¬ ∀ (process : UInt32 → Option Process) (sockets : List SocketInfo)
    (port : UInt16), ∃ found,
      findPidByPort { getSocketsInfo := .ok sockets, process } port = .ok found ∧
        OwnerFound sockets port found := by
  intro finds
  obtain ⟨found, searched, right⟩ := finds (fun _ => none) [webSocket true [], webSocket true [7]] 80
  have zero : found = some 0 := (Except.ok.inj searched).symm
  have known := (right.unknown zero).2 ((listedAs (webSocket true [7])).get rfl)
    (mem_shownEntries.mpr ⟨webSocket true [7], by decide, rfl⟩) rfl
  contradiction

/-- The sockets of one process, over IPv4 and IPv6. -/
def dualSockets : List SocketInfo := [webSocket false [7], webSocket true [7]]

/-- A single owner of both is killed. -/
theorem port_kill_single :
    (webWorld dualSockets).Freed 80 (portKillCommand (webWorld dualSockets) 80) := by
  have owner : ∀ pid, (webWorld dualSockets).Owns 80 pid → pid = 7 := by
    rintro pid ⟨sockets, info, same, member, _, opened⟩
    rw [← Except.ok.inj same] at member
    have pids : info.associatedPids = [7] := by
      rcases List.mem_cons.mp member with rfl | later
      · rfl
      · rw [List.mem_singleton.mp later]
        rfl
    rw [pids] at opened
    exact List.mem_singleton.mp opened
  refine (port_kill_iff (webWorld dualSockets) 80 ⟨7, by decide⟩).2.mpr ?_
  intro first second _ _ firstOwns secondOwns
  rw [owner first firstOwns, owner second secondOwns]

/-- A second worker survives. -/
theorem second_worker_survives : ¬ ∀ (world : PortWorld) (port : UInt16),
    (portKillCommand world port).Reports → world.Freed port (portKillCommand world port) := by
  intro freed
  have survives : (portKillCommand (webWorld [webSocket true [7, 8]]) 80).Survives
      (webWorld [webSocket true [7, 8]]) 8 := ⟨rfl, by decide⟩
  exact freed (webWorld [webSocket true [7, 8]]) 80 ⟨7, by decide⟩ 8 survives
    ⟨[webSocket true [7, 8]], webSocket true [7, 8], rfl, by decide, ⟨rfl, rfl⟩, by decide⟩

end Rcurl
