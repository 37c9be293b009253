import Rcurl.Foundation.Numerals

/-!
# Pings

`ping::handler::ping_command`: a host is resolved, its first address gets four probes one after another,
and what came back is counted. `ping_statistics` is about what a reader of the printed lines has of it:
the counts and the times at the end are those of the lines above them.

An address is the text it is displayed as, and a time is in whole milliseconds, which is all the handler
keeps of it.
-/

namespace Rcurl

open RustText (Text)

/-- What `ping` meets. -/
structure PingWorld where
  /-- `to_socket_addrs`: the addresses of a host and port, unless it fails. -/
  toSocketAddrs : Text → Option (List Text)
  /-- The probes to an address, from 1 on: the time until the echo, unless none comes. -/
  send : Text → Nat → Option Nat

/-- The probes so far. -/
structure PingTally where
  /-- How many were sent. -/
  transmitted : Nat
  /-- How many came back. -/
  received : Nat
  /-- The times of those. -/
  rtts : List Nat
  /-- No more come back than are sent. -/
  within : received ≤ transmitted
  /-- Every one that comes back has a time. -/
  timed : rtts.length = received

/-- `count`. -/
def pingCount : Nat := 4

/-- `payload_size`. -/
def payloadSize : Nat := 32

/-- `resolve_host`. -/
def resolveHost (world : PingWorld) (host : Text) : Except Text Text :=
  match world.toSocketAddrs (host ++ ":0".toList) with
  | none => .error ("ping: cannot resolve host: ".toList ++ host)
  | some addresses =>
    match addresses.head? with
    | some ip => .ok ip
    | none => .error ("ping: cannot resolve host: ".toList ++ host)

/-- Before the first probe. -/
def PingTally.start : PingTally where
  transmitted := 0
  received := 0
  rtts := []
  within := Nat.le_refl 0
  timed := rfl

/-- One more probe. -/
def PingTally.probe (tally : PingTally) : Option Nat → PingTally
  | some rtt =>
    { transmitted := tally.transmitted + 1
      received := tally.received + 1
      rtts := tally.rtts ++ [rtt]
      within := Nat.succ_le_succ tally.within
      timed := by rw [List.length_append, tally.timed]; rfl }
  | none =>
    { tally with
      transmitted := tally.transmitted + 1
      within := Nat.le_succ_of_le tally.within }

/-- The line about a probe. -/
def probeLine (ip : Text) : Option Nat → Text
  | some rtt =>
    "Reply from ".toList ++ ip ++ ": bytes=".toList ++ RustText.decimal payloadSize ++
      " time=".toList ++ RustText.decimal rtt ++ "ms".toList
  | none => "Request timed out.".toList

/-- The loop over the probes: the count at its end and the lines it prints. -/
def probeLoop (world : PingWorld) (ip : Text) : List Nat → PingTally → PingTally × List Text
  | [], tally => (tally, [])
  | seq :: seqs, tally =>
    let rest := probeLoop world ip seqs (tally.probe (world.send ip seq))
    (rest.1, probeLine ip (world.send ip seq) :: rest.2)

/-- The line with the counts. -/
def packetsLine (tally : PingTally) : Text :=
  "    Packets: Sent = ".toList ++ (RustText.decimal tally.transmitted ++ (", Received = ".toList ++
    (RustText.decimal tally.received ++ (", Lost = ".toList ++
      (RustText.decimal (tally.transmitted - tally.received) ++ (" (".toList ++
        (RustText.decimal ((tally.transmitted - tally.received) * 100 / tally.transmitted) ++
          "% loss),".toList)))))))

/-- The line with the times. -/
def timesLine (rtts : List Nat) : Text :=
  "    Minimum = ".toList ++ (RustText.decimal (rtts.min?.getD 0) ++ ("ms, Maximum = ".toList ++
    (RustText.decimal (rtts.max?.getD 0) ++ ("ms, Average = ".toList ++
      (RustText.decimal (rtts.sum / rtts.length) ++ "ms".toList)))))

/-- The lines behind the probes. -/
def statisticsLines (ip : Text) (tally : PingTally) : List Text :=
  [[], "Ping statistics for ".toList ++ ip ++ ":".toList, packetsLine tally] ++
    if tally.rtts = [] then []
    else ["Approximate round trip times in milli-seconds:".toList, timesLine tally.rtts]

/-- The first line. -/
def pingingLine (host ip : Text) : Text :=
  "Pinging ".toList ++ host ++ " [".toList ++ ip ++ "] with ".toList ++
    RustText.decimal payloadSize ++ " bytes of data:".toList

/-- `ping_command`: its result and what it prints. -/
def pingCommand (world : PingWorld) (host : Text) : Except Text Unit × List Text :=
  match resolveHost world host with
  | .error error => (.error error, [])
  | .ok ip =>
    let probes := probeLoop world ip (List.range' 1 pingCount) .start
    (.ok (), pingingLine host ip :: (probes.2 ++ statisticsLines ip probes.1))

/-! ## The loop -/

/-- What the loop counts: every probe, those that come back, and their times in order. -/
theorem probeLoop_counts (world : PingWorld) (ip : Text) (seqs : List Nat) : ∀ tally : PingTally,
    (probeLoop world ip seqs tally).1.transmitted = tally.transmitted + seqs.length ∧
      (probeLoop world ip seqs tally).1.rtts = tally.rtts ++ seqs.filterMap (world.send ip) := by
  induction seqs with
  | nil => exact fun tally => ⟨rfl, (List.append_nil _).symm⟩
  | cons seq seqs ih =>
    intro tally
    have rest := ih (tally.probe (world.send ip seq))
    rw [probeLoop, rest.1, rest.2, List.length_cons]
    cases answer : world.send ip seq with
    | none =>
      rw [List.filterMap_cons_none answer]
      exact ⟨Nat.add_right_comm _ _ _, rfl⟩
    | some rtt =>
      rw [List.filterMap_cons_some answer]
      refine ⟨Nat.add_right_comm _ _ _, ?_⟩
      rw [PingTally.probe, List.append_assoc, List.singleton_append]

/-- The loop prints a line for each probe. -/
theorem probeLoop_lines (world : PingWorld) (ip : Text) (seqs : List Nat) : ∀ tally : PingTally,
    (probeLoop world ip seqs tally).2 = seqs.map fun seq => probeLine ip (world.send ip seq) := by
  induction seqs with
  | nil => exact fun tally => rfl
  | cons seq seqs ih =>
    intro tally
    rw [probeLoop, ih, List.map_cons]

/-! ## The reader -/

/-- A line about a probe: the time of a reply. -/
def readProbe (line : Text) : Option Nat :=
  if line.take 5 = "Reply".toList then
    (Numerals.read (RustText.afterLast '=' line)).head?
  else none

/-- The probes: the lines from the second on, up to the blank one. -/
def readProbes (printed : List Text) : List (Option Nat) :=
  ((printed.drop 1).takeWhile (· ≠ [])).map readProbe

/-- The lines from the blank one on. -/
def readStatistics (printed : List Text) : List Text := (printed.drop 1).dropWhile (· ≠ [])

/-- The counts. -/
def readCounts (printed : List Text) : Option (List Nat) :=
  ((readStatistics printed).drop 2).head?.map Numerals.read

/-- The times, if there are any. -/
def readTimes (printed : List Text) : Option (List Nat) :=
  ((readStatistics printed).drop 4).head?.map Numerals.read

/-- A line about a probe is not blank, and gives back what came of the probe, whatever the address. -/
theorem readProbe_probeLine (ip : Text) (answer : Option Nat) :
    probeLine ip answer ≠ [] ∧ readProbe (probeLine ip answer) = answer := by
  cases answer with
  | none =>
    have timeout : ∀ text : Text, text = "Request timed out.".toList →
        text ≠ [] ∧ readProbe text = none := by
      rintro text rfl
      decide
    exact timeout _ rfl
  | some rtt =>
    have free : '=' ∉ RustText.decimal rtt ++ "ms".toList := by
      rw [List.mem_append, not_or]
      exact ⟨RustText.notMem_decimal rfl rtt, by decide⟩
    have unit : Numerals.Between "ms".toList := ⟨by decide, by decide⟩
    have line : probeLine ip (some rtt) =
        ("Reply from ".toList ++ ip ++ ": bytes=".toList ++ RustText.decimal payloadSize ++
          " time".toList) ++ '=' :: (RustText.decimal rtt ++ "ms".toList) := by
      have sign : " time=".toList = " time".toList ++ ['='] := by decide
      unfold probeLine
      rw [sign]
      simp only [List.append_assoc, List.cons_append, List.nil_append]
    have reply : (probeLine ip (some rtt)).take 5 = "Reply".toList := by
      have long : 5 ≤ "Reply from ".toList.length := by decide
      unfold probeLine
      simp only [List.append_assoc]
      rw [List.take_append_of_le_length long]
      decide
    refine ⟨fun blank => ?_, ?_⟩
    · rw [blank] at reply
      exact absurd reply (by decide)
    · rw [readProbe, if_pos reply, line, RustText.afterLast_append _ free,
        Numerals.read_last rtt unit, List.head?_cons]

/-- The counts are read back. -/
theorem read_packetsLine (tally : PingTally) :
    Numerals.read (packetsLine tally) =
      [tally.transmitted, tally.received, tally.transmitted - tally.received,
        (tally.transmitted - tally.received) * 100 / tally.transmitted] := by
  have first : Numerals.Plain "    Packets: Sent = ".toList := by decide
  have received : Numerals.Between ", Received = ".toList := ⟨by decide, by decide⟩
  have lost : Numerals.Between ", Lost = ".toList := ⟨by decide, by decide⟩
  have share : Numerals.Between " (".toList := ⟨by decide, by decide⟩
  have last : Numerals.Between "% loss),".toList := ⟨by decide, by decide⟩
  unfold packetsLine
  rw [Numerals.read_plain first, Numerals.read_decimal _ received,
    Numerals.read_decimal _ lost, Numerals.read_decimal _ share, Numerals.read_last _ last]

/-- The times are read back. -/
theorem read_timesLine (rtts : List Nat) :
    Numerals.read (timesLine rtts) =
      [rtts.min?.getD 0, rtts.max?.getD 0, rtts.sum / rtts.length] := by
  have first : Numerals.Plain "    Minimum = ".toList := by decide
  have greatest : Numerals.Between "ms, Maximum = ".toList := ⟨by decide, by decide⟩
  have mean : Numerals.Between "ms, Average = ".toList := ⟨by decide, by decide⟩
  have last : Numerals.Between "ms".toList := ⟨by decide, by decide⟩
  unfold timesLine
  rw [Numerals.read_plain first, Numerals.read_decimal _ greatest,
    Numerals.read_decimal _ mean, Numerals.read_last _ last]

/-! ## What is printed -/

/-- What a reader has of a ping. -/
structure PingReads (world : PingWorld) (host : Text) (run : Except Text Unit × List Text) : Prop where
  /-- It fails without a word when the host has no address. -/
  unresolved : ∀ error, run.1 = .error error →
    run.2 = [] ∧ error = "ping: cannot resolve host: ".toList ++ host ∧
      (world.toSocketAddrs (host ++ ":0".toList)).getD [] = []
  /-- The probes that are read are four, to the first address, one after another. -/
  probes : run.1 = .ok () → ∃ ip others,
    world.toSocketAddrs (host ++ ":0".toList) = some (ip :: others) ∧
      readProbes run.2 = [world.send ip 1, world.send ip 2, world.send ip 3, world.send ip 4]
  /-- The counts are those of the probes that are read. -/
  counts : run.1 = .ok () → ∀ replies, replies = (readProbes run.2).filterMap id →
    readCounts run.2 = some [4, replies.length, 4 - replies.length, 25 * (4 - replies.length)] ∧
      replies.length ≤ 4
  /-- There are no times without a reply. -/
  silent : (readProbes run.2).filterMap id = [] → readTimes run.2 = none
  /-- The times sum up those of the replies that are read. -/
  times : (readProbes run.2).filterMap id ≠ [] → ∃ least greatest mean,
    readTimes run.2 = some [least, greatest, mean] ∧
      Numerals.Summary ((readProbes run.2).filterMap id) least greatest mean ∧
        least ≤ mean ∧ mean ≤ greatest

/-- What is printed of four probes is read in two parts. -/
theorem read_printed (host ip : Text) (answers : List (Option Nat)) (tally : PingTally) :
    readProbes (pingingLine host ip :: (answers.map (probeLine ip) ++ statisticsLines ip tally)) =
        answers ∧
      readStatistics
          (pingingLine host ip :: (answers.map (probeLine ip) ++ statisticsLines ip tally)) =
        statisticsLines ip tally := by
  have lines : ∀ line ∈ answers.map (probeLine ip), decide (line ≠ []) = true := by
    intro line member
    obtain ⟨answer, _, rfl⟩ := List.mem_map.mp member
    exact decide_eq_true (readProbe_probeLine ip answer).1
  have back : (answers.map (probeLine ip)).map readProbe = answers := by
    rw [List.map_map]
    conv_rhs => rw [← List.map_id answers]
    exact List.map_congr_left fun answer _ => (readProbe_probeLine ip answer).2
  rw [readProbes, readStatistics, List.drop_succ_cons, List.drop_zero,
    List.takeWhile_append_of_pos lines, List.dropWhile_append_of_pos lines, statisticsLines]
  constructor
  · rw [List.cons_append, List.takeWhile_cons_of_neg (by decide), List.append_nil, back]
  · rw [List.cons_append, List.dropWhile_cons_of_neg (by decide)]

/-- The counts and the times stand in their lines. -/
theorem statisticsLines_at (ip : Text) (tally : PingTally) :
    ((statisticsLines ip tally).drop 2).head? = some (packetsLine tally) ∧
      ((statisticsLines ip tally).drop 4).head? =
        if tally.rtts = [] then none else some (timesLine tally.rtts) := by
  unfold statisticsLines
  refine ⟨rfl, ?_⟩
  split_ifs with silent
  · rfl
  · rfl

/-- A host resolves to the first of its addresses. -/
theorem resolveHost_ok {world : PingWorld} {host ip : Text} (resolved : resolveHost world host = .ok ip) :
    ∃ others, world.toSocketAddrs (host ++ ":0".toList) = some (ip :: others) := by
  unfold resolveHost at resolved
  cases addresses : world.toSocketAddrs (host ++ ":0".toList) with
  | none =>
    rw [addresses] at resolved
    contradiction
  | some list =>
    rw [addresses] at resolved
    cases list with
    | nil => contradiction
    | cons first others => exact ⟨others, by rw [Except.ok.inj resolved]⟩

/-- A host that does not resolve has no address. -/
theorem resolveHost_error {world : PingWorld} {host error : Text}
    (resolved : resolveHost world host = .error error) :
    error = "ping: cannot resolve host: ".toList ++ host ∧
      (world.toSocketAddrs (host ++ ":0".toList)).getD [] = [] := by
  unfold resolveHost at resolved
  cases addresses : world.toSocketAddrs (host ++ ":0".toList) with
  | none =>
    rw [addresses] at resolved
    exact ⟨(Except.error.inj resolved).symm, rfl⟩
  | some list =>
    rw [addresses] at resolved
    cases list with
    | nil => exact ⟨(Except.error.inj resolved).symm, rfl⟩
    | cons first others => contradiction

/-- The statistics of a ping are those of the lines above them: whatever comes back, the counts are
those of the replies that were printed, and the times are the least, the greatest and the mean of their
times. -/
theorem ping_statistics (world : PingWorld) (host : Text) :
    PingReads world host (pingCommand world host) := by
  unfold pingCommand
  cases resolved : resolveHost world host with
  | error text =>
    obtain ⟨message, empty⟩ := resolveHost_error resolved
    refine ⟨fun error failed => ?_, fun ok => ?_, fun ok => ?_, fun _ => rfl, fun answered => ?_⟩
    · rw [← Except.error.inj failed]
      exact ⟨rfl, message, empty⟩
    · contradiction
    · contradiction
    · exact absurd rfl answered
  | ok ip =>
    have seqs : List.range' 1 pingCount = [1, 2, 3, 4] := by decide
    obtain ⟨sent, times⟩ := probeLoop_counts world ip [1, 2, 3, 4] .start
    have lines := probeLoop_lines world ip [1, 2, 3, 4] .start
    dsimp only
    rw [seqs]
    generalize probeLoop world ip [1, 2, 3, 4] .start = probes at sent times lines
    have answers : probes.2 = ([1, 2, 3, 4].map (world.send ip)).map (probeLine ip) := by
      rw [lines, List.map_map]
      rfl
    obtain ⟨read, statistics⟩ := read_printed host ip ([1, 2, 3, 4].map (world.send ip)) probes.1
    have replies : ([1, 2, 3, 4].map (world.send ip)).filterMap id = probes.1.rtts := by
      rw [times, List.filterMap_map]
      rfl
    have received : probes.1.rtts.length = probes.1.received := probes.1.timed
    have within := probes.1.within
    have four : probes.1.transmitted = 4 := sent
    rw [answers]
    refine ⟨fun error failed => ?_, fun _ => ?_, fun _ found same => ?_, fun silent => ?_,
        fun answered => ?_⟩
    · contradiction
    · obtain ⟨others, first⟩ := resolveHost_ok resolved
      exact ⟨ip, others, first, read⟩
    · have share : (4 - probes.1.received) * 100 / 4 = 25 * (4 - probes.1.received) := by omega
      rw [same, read, replies, received]
      unfold readCounts
      rw [statistics, (statisticsLines_at ip probes.1).1, Option.map_some, read_packetsLine, four, share]
      exact ⟨rfl, four ▸ within⟩
    · rw [read, replies] at silent
      unfold readTimes
      rw [statistics, (statisticsLines_at ip probes.1).2, if_pos silent]
      rfl
    · rw [read, replies] at answered ⊢
      have summary := Numerals.summary_of_some answered
      unfold readTimes
      rw [statistics, (statisticsLines_at ip probes.1).2, if_neg answered, Option.map_some, read_timesLine]
      exact ⟨_, _, _, rfl, summary, summary.ordered⟩

end Rcurl
