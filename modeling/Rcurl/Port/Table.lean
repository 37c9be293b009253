import Rcurl.Foundation.StableSort
import Rcurl.Port.Handler

/-!
# The table of the ports

What a reader has of the table that `port` prints: every row gives back its protocol, its port, its state
and its process, whatever the address is cut to, the rows are in order of the ports, and the process that
`port <p>` reports is that of the first row with the port. `port_table` is about all of it.
-/

namespace Rcurl

open RustText (Text)

/-- A row of the table, as it is read. -/
structure PortRow where
  /-- `TCP` or `UDP`. -/
  protocol : Text
  /-- The number behind the address. -/
  port : Nat
  /-- `Listen` for TCP, `LISTENING` for UDP. -/
  state : Text
  /-- The first process that has the socket open, 0 for none. -/
  pid : Nat
  deriving DecidableEq, Repr

/-- The row that a socket has to have: a listening TCP socket without a remote port, or a UDP socket,
with a local port. -/
def SocketInfo.tableRow (info : SocketInfo) : Option PortRow :=
  let pid := (info.associatedPids.head?.map UInt32.toNat).getD 0
  match info.protocolSocketInfo with
  | .tcp tcp =>
    if tcp.localPort ≠ 0 ∧ tcp.remotePort = 0 ∧ tcp.state = .listen then
      some { protocol := "TCP".toList, port := tcp.localPort.toNat, state := "Listen".toList, pid }
    else none
  | .udp udp =>
    if udp.localPort ≠ 0 then
      some { protocol := "UDP".toList, port := udp.localPort.toNat, state := "LISTENING".toList, pid }
    else none

/-- The words of a text, between blanks. -/
def blankWords (text : Text) : List Text := (text.splitOn ' ').filter (· ≠ [])

/-- A number, 0 for anything else. -/
def readNumber (text : Text) : Nat := if text.all Char.isDigit then Nat.ofDigitChars 10 text 0 else 0

/-- A row from its line, from behind: the address may be anything. -/
def readRow (line : Text) : Option PortRow :=
  match (blankWords line).head?, (blankWords line).reverse with
  | some protocol, pid :: state :: address :: _ =>
    some { protocol, port := readNumber (RustText.afterLast ':' address), state, pid := readNumber pid }
  | _, _ => none

/-- The rows of what was printed: the lines from the fourth on, up to the blank one. -/
def readTable (printed : List Text) : List PortRow :=
  ((printed.drop 4).takeWhile (· ≠ [])).filterMap readRow

/-- The row of an entry. -/
def PortInfo.row (entry : PortInfo) : PortRow where
  protocol := entry.protocol
  port := entry.localPort.toNat
  state := entry.state
  pid := entry.pid.toNat

/-! ## Words -/

/-- A word is not empty and has no blank. -/
structure IsWord (text : Text) : Prop where
  /-- It is not empty. -/
  some : text ≠ []
  /-- It has no blank. -/
  whole : ' ' ∉ text

/-- Texts around a blank have their words one behind the other. -/
theorem blankWords_append (front back : Text) :
    blankWords (front ++ ' ' :: back) = blankWords front ++ blankWords back := by
  rw [blankWords, List.splitOn_append_cons_self, List.filter_append]
  rfl

/-- A word has itself as its only word. -/
theorem blankWords_word {word : Text} (isWord : IsWord word) : blankWords word = [word] := by
  rw [blankWords, List.splitOn_eq_singleton isWord.whole]
  exact List.filter_eq_self.mpr fun other member => by
    rw [List.mem_singleton.mp member]
    exact decide_eq_true isWord.some

/-- Blanks have no words. -/
theorem blankWords_blanks (count : Nat) : blankWords (List.replicate count ' ') = [] := by
  induction count with
  | zero => rfl
  | succ count ih =>
    rw [List.replicate_succ, ← List.nil_append (' ' :: _), blankWords_append, ih]
    rfl

/-- Padding makes no words. -/
theorem blankWords_padRight (width : Nat) (text : Text) :
    blankWords (RustText.padRight width text) = blankWords text := by
  rw [RustText.padRight]
  cases width - text.length with
  | zero => rw [List.replicate_zero, List.append_nil]
  | succ count =>
    rw [List.replicate_succ, blankWords_append, blankWords_blanks, List.append_nil]

/-- The last word of an address and a port has the port behind its last colon, whatever the address. -/
theorem blankWords_address (address : Text) {port : Text} (whole : ' ' ∉ port) (absent : ':' ∉ port) :
    ∃ before last, blankWords (address ++ ':' :: port) = before ++ [last] ∧
      RustText.afterLast ':' last = port := by
  have isWord : ∀ tail, ' ' ∉ tail → IsWord (tail ++ ':' :: port) := by
    intro tail free
    refine ⟨List.append_ne_nil_of_right_ne_nil tail (List.cons_ne_nil _ _), ?_⟩
    rw [List.mem_append, List.mem_cons, not_or, not_or]
    exact ⟨free, by decide, whole⟩
  by_cases blank : ' ' ∈ address
  · obtain ⟨tail, front, split, free⟩ :=
      List.eq_append_cons_of_mem (List.mem_reverse.mpr blank)
    have same : address = front.reverse ++ ' ' :: tail.reverse := by
      rw [← List.reverse_reverse address, split, List.reverse_append, List.reverse_cons,
        List.append_assoc, List.singleton_append]
    refine ⟨blankWords front.reverse, tail.reverse ++ ':' :: port, ?_, RustText.afterLast_append _ absent⟩
    rw [same, List.append_assoc, List.cons_append, blankWords_append,
      blankWords_word (isWord _ fun member => free (List.mem_reverse.mp member))]
  · exact ⟨[], address ++ ':' :: port, blankWords_word (isWord address blank),
      RustText.afterLast_append _ absent⟩

/-! ## Rows -/

/-- A number is a word. -/
theorem isWord_decimal (number : Nat) : IsWord (RustText.decimal number) :=
  ⟨RustText.decimal_ne_nil number, RustText.notMem_decimal rfl number⟩

/-- A number is read back. -/
theorem readNumber_decimal (number : Nat) : readNumber (RustText.decimal number) = number := by
  rw [readNumber, if_pos (List.all_eq_true.mpr fun c member => RustText.isDigit_decimal member),
    RustText.ofDigitChars_decimal]

/-- The process as it is written. -/
def pidText (pid : UInt32) : Text :=
  if pid > 0 then RustText.decimal pid.toNat else "N/A".toList

/-- It is a word, and read back. -/
theorem pidText_reads (pid : UInt32) : IsWord (pidText pid) ∧ readNumber (pidText pid) = pid.toNat := by
  rw [pidText]
  split_ifs with known
  · exact ⟨isWord_decimal _, readNumber_decimal _⟩
  · have zero : pid.toNat = 0 := by
      rw [gt_iff_lt, UInt32.lt_iff_toNat_lt] at known
      exact Nat.eq_zero_of_not_pos known
    rw [zero]
    exact ⟨⟨by decide, by decide⟩, by decide⟩

/-- The protocol and the state of an entry that is listed are words. -/
theorem listedAs_words {info : SocketInfo} {entry : PortInfo} (listed : listedAs info = some entry) :
    IsWord entry.protocol ∧ IsWord entry.state := by
  have tcp_word : IsWord "TCP".toList := ⟨by decide, by decide⟩
  have udp_word : IsWord "UDP".toList := ⟨by decide, by decide⟩
  have listen_word : IsWord TcpState.listen.debug := ⟨by decide, by decide⟩
  have listening_word : IsWord "LISTENING".toList := ⟨by decide, by decide⟩
  rw [listedAs] at listed
  cases kind : info.protocolSocketInfo with
  | tcp tcp =>
    rw [kind] at listed
    dsimp only at listed
    split_ifs at listed with listens
    rw [← Option.some.inj listed]
    refine ⟨tcp_word, ?_⟩
    show IsWord tcp.state.debug
    rw [listens.2.2]
    exact listen_word
  | udp udp =>
    rw [kind] at listed
    dsimp only at listed
    split_ifs at listed
    rw [← Option.some.inj listed]
    exact ⟨udp_word, listening_word⟩

/-- The line of an entry gives back its row, whatever its address. -/
theorem readRow_portLine {entry : PortInfo} (protocol : IsWord entry.protocol)
    (state : IsWord entry.state) : readRow (portLine entry) = some entry.row := by
  obtain ⟨before, last, address, port⟩ := @blankWords_address (addrDisplay entry.localAddress.text)
    (RustText.decimal entry.localPort.toNat) (RustText.notMem_decimal rfl _) (RustText.notMem_decimal rfl _)
  obtain ⟨pid, known⟩ := pidText_reads entry.pid
  have words : blankWords (portLine entry) =
      entry.protocol :: (before ++ [last, entry.state, pidText entry.pid]) := by
    rw [portLine, blankWords_append, blankWords_append, blankWords_append, blankWords_padRight,
      blankWords_padRight, blankWords_padRight, blankWords_padRight, blankWords_word protocol, address,
      blankWords_word state]
    show _ ++ (_ ++ (_ ++ blankWords (pidText entry.pid))) = _
    rw [blankWords_word pid]
    simp
  have back : (blankWords (portLine entry)).reverse =
      pidText entry.pid :: entry.state :: last :: (before.reverse ++ [entry.protocol]) := by
    rw [words]
    simp
  rw [readRow, words, List.head?_cons, ← words, back]
  simp only [port, known, readNumber_decimal]
  rfl

/-! ## The table -/

/-- Ports are compared by their numbers. -/
theorem port_order : StableSort.TotalPreorder fun a b : PortInfo => decide (a.localPort ≤ b.localPort)
    where
  trans a b c first second := by
    rw [decide_eq_true_eq] at first second ⊢
    exact UInt16.le_trans first second
  total a b := by
    rw [Bool.or_eq_true, decide_eq_true_eq, decide_eq_true_eq]
    exact UInt16.le_total a.localPort b.localPort

/-- The first entry with a port is displayed first. -/
theorem find?_sortedPorts (ports : List PortInfo) (port : UInt16) :
    (sortedPorts ports).find? (·.localPort = port) = ports.find? (·.localPort = port) := by
  apply port_order.find?_mergeSort
  intro a b first second
  rw [decide_eq_true_eq] at first second ⊢
  rw [first, second]
  exact UInt16.le_refl port

/-- The table that is displayed gives back the rows of the entries, in order. -/
theorem readTable_displayAllPorts {ports : List PortInfo}
    (words : ∀ entry ∈ ports, IsWord entry.protocol ∧ IsWord entry.state) :
    readTable (displayAllPorts ports) = (sortedPorts ports).map PortInfo.row := by
  rw [displayAllPorts]
  split_ifs with empty
  · rw [empty, sortedPorts, List.mergeSort_nil]
    rfl
  · have lines : ∀ line ∈ (sortedPorts ports).map portLine, decide (line ≠ []) = true := by
      intro line member
      obtain ⟨entry, _, rfl⟩ := List.mem_map.mp member
      apply decide_eq_true
      exact List.append_ne_nil_of_right_ne_nil _ (List.cons_ne_nil _ _)
    have rows : ((sortedPorts ports).map portLine).filterMap readRow =
        (sortedPorts ports).map PortInfo.row := by
      rw [List.filterMap_map, ← List.filterMap_eq_map]
      apply List.filterMap_congr
      intro entry member
      obtain ⟨protocol, state⟩ := words entry (mem_sortedPorts.mp member)
      exact readRow_portLine protocol state
    rw [readTable, List.append_assoc]
    simp only [List.cons_append, List.nil_append, List.drop_succ_cons, List.drop_zero]
    rw [List.takeWhile_append_of_pos lines, List.takeWhile_cons_of_neg (by decide), List.append_nil,
      rows]

/-- The entry of a socket has the row of the socket. -/
theorem tableRow_eq (info : SocketInfo) : info.tableRow = (listedAs info).map PortInfo.row := by
  have positive : ∀ port : UInt16, port > 0 ↔ port ≠ 0 := by
    intro port
    rw [gt_iff_lt, UInt16.lt_iff_toNat_lt, Ne, ← UInt16.toNat_inj]
    exact Nat.pos_iff_ne_zero
  have first : (info.associatedPids.head?.getD 0).toNat =
      (info.associatedPids.head?.map UInt32.toNat).getD 0 := by
    cases info.associatedPids.head? <;> rfl
  rw [SocketInfo.tableRow, listedAs]
  cases info.protocolSocketInfo with
  | tcp tcp =>
    simp only [positive]
    split_ifs with listens
    · rw [Option.map_some, PortInfo.row, first, listens.2.2]
      rfl
    · rfl
  | udp udp =>
    simp only [positive]
    split_ifs
    · rw [Option.map_some, PortInfo.row, first]
    · rfl

/-- What a reader has of the table of a command. -/
structure TableReads (world : PortWorld) (run : PortRun) : Prop where
  /-- The rows are those of the sockets, and no others. -/
  rows : ∀ sockets, world.getSocketsInfo = .ok sockets →
    (readTable run.printed).Perm (sockets.filterMap SocketInfo.tableRow) ∧ run.result = .ok ()
  /-- They are in order of the ports. -/
  ordered : (readTable run.printed).Pairwise fun earlier later => earlier.port ≤ later.port
  /-- The process that is found for a port is that of the first row with the port, and none is found
  without such a row. -/
  found : ∀ sockets, world.getSocketsInfo = .ok sockets → ∀ port, ∃ pid,
    findPidByPort world port = .ok pid ∧ pid.map UInt32.toNat =
      ((readTable run.printed).find? (·.port = port.toNat)).map PortRow.pid
  /-- Without sockets nothing is printed. -/
  failed : ∀ error, world.getSocketsInfo = .error error →
    run.printed = [] ∧ run.result = .error (.sockets error)

/-- The table of the listed entries reads as those of the sockets. -/
theorem tableReads_ok {world : PortWorld} {sockets : List SocketInfo}
    (table : world.getSocketsInfo = .ok sockets) : TableReads world (portListCommand world) := by
  have listing : getListeningPorts world = .ok (sockets.filterMap listedAs) := by
    rw [getListeningPorts, table]
  have words : ∀ entry ∈ sockets.filterMap listedAs, IsWord entry.protocol ∧ IsWord entry.state := by
    intro entry member
    obtain ⟨info, _, listed⟩ := List.mem_filterMap.mp member
    exact listedAs_words listed
  have read := readTable_displayAllPorts words
  have rows : (sockets.filterMap listedAs).map PortInfo.row =
      sockets.filterMap SocketInfo.tableRow := by
    rw [List.map_filterMap]
    exact List.filterMap_congr fun info _ => (tableRow_eq info).symm
  have run : portListCommand world =
      { printed := displayAllPorts (sockets.filterMap listedAs), killed := [], result := .ok () } := by
    rw [portListCommand, listing]
    rfl
  rw [run]
  constructor
  · intro others same
    obtain rfl := Except.ok.inj (table.symm.trans same)
    refine ⟨?_, rfl⟩
    rw [read, ← rows]
    exact (List.mergeSort_perm _ _).map _
  · rw [read, List.pairwise_map]
    exact (port_order.sorted _).imp fun le => UInt16.le_iff_toNat_le.mp (of_decide_eq_true le)
  · intro others _ port
    refine ⟨firstPid (sockets.filterMap listedAs) port, ?_, ?_⟩
    · rw [findPidByPort, listing]
      rfl
    · have keys : ((fun row : PortRow => decide (row.port = port.toNat)) ∘ PortInfo.row) =
          fun entry => decide (entry.localPort = port) := by
        funext entry
        exact decide_eq_decide.mpr UInt16.toNat_inj
      rw [read, List.find?_map, keys, find?_sortedPorts, firstPid, Option.map_map, Option.map_map]
      rfl
  · intro error same
    rw [table] at same
    contradiction

/-- The table of `port` gives back every listening socket, in order, and agrees with `port <p>` about
every port. -/
theorem port_table (world : PortWorld) : TableReads world (portListCommand world) := by
  cases table : world.getSocketsInfo with
  | ok sockets => exact tableReads_ok table
  | error error =>
    have run : portListCommand world =
        { printed := [], killed := [], result := .error (.sockets error) } := by
      rw [portListCommand, getListeningPorts, table]
      rfl
    rw [run]
    constructor
    · intro sockets same
      rw [table] at same
      contradiction
    · exact List.Pairwise.nil
    · intro sockets same
      rw [table] at same
      contradiction
    · intro other same
      rw [Except.error.inj (table.symm.trans same)]
      exact ⟨rfl, rfl⟩

end Rcurl
