import Mathlib.Algebra.Order.BigOperators.Group.List
import Mathlib.Algebra.Order.Group.Nat
import Rcurl.Http.Redirects

/-!
# The phases of a request

With `--time`, every hop that goes out directly leaves marks for its phases, from its start, its end and
a fixed estimate of the name lookup; a hop through a tunnel moves the end of the TLS phase alone. The
marks of the last hops are printed with the time of the whole call. `phases_fit` says when they lie in
it: every direct hop takes as long as its estimate, and no tunnel lengthens a TLS phase beyond a later
plain hop.
-/

namespace Rcurl

open ShellWords (Text)

/-- `RequestTimings`: instants in nanoseconds. -/
structure RequestTimings where
  /-- When the lookup of the name begins. -/
  dnsStart : Option Nat := none
  /-- When the address is there. -/
  dnsEnd : Option Nat := none
  /-- When the address is dialled. -/
  tcpConnectStart : Option Nat := none
  /-- When the peer has answered. -/
  tcpConnectEnd : Option Nat := none
  /-- When the first message of TLS goes out. -/
  tlsStart : Option Nat := none
  /-- When requests can go out. -/
  tlsEnd : Option Nat := none
  /-- When the call begins. -/
  totalStart : Option Nat := none
  /-- When it has returned. -/
  totalEnd : Option Nat := none
  deriving DecidableEq, Repr

/-- `Instant::duration_since`: it saturates at zero. -/
def durationSince (last first : Option Nat) : Option Nat :=
  last.bind fun last => first.map (last - ·)

namespace RequestTimings

/-- `dns_duration`. -/
def dnsDuration (timings : RequestTimings) : Option Nat :=
  durationSince timings.dnsEnd timings.dnsStart

/-- `tcp_connect_duration`. -/
def tcpConnectDuration (timings : RequestTimings) : Option Nat :=
  durationSince timings.tcpConnectEnd timings.tcpConnectStart

/-- `tls_duration`. -/
def tlsDuration (timings : RequestTimings) : Option Nat :=
  durationSince timings.tlsEnd timings.tlsStart

/-- `total_duration`. -/
def totalDuration (timings : RequestTimings) : Option Nat :=
  durationSince timings.totalEnd timings.totalStart

/-- `as_millis`. -/
def asMillis (duration : Nat) : Nat := duration / 1000000

/-- The line of a duration. -/
def durationLine (label : Text) (duration : Option Nat) : Text :=
  label ++ match duration with
    | some duration =>
      let digits := RustText.decimal (asMillis duration)
      List.replicate (8 - digits.length) ' ' ++ digits ++ " ms".toList
    | none => "N/A".toList

/-- The lines that are printed. -/
def display (timings : RequestTimings) : List Text :=
  [[], "Time breakdown:".toList,
    durationLine "  DNS lookup:      ".toList timings.dnsDuration,
    durationLine "  TCP connect:     ".toList timings.tcpConnectDuration,
    durationLine "  TLS handshake:   ".toList timings.tlsDuration,
    durationLine "  Total time:      ".toList timings.totalDuration]

end RequestTimings

example : RequestTimings.display { dnsStart := some 0, dnsEnd := some 15999999, totalStart := some 0 } =
    [[], "Time breakdown:".toList, "  DNS lookup:            15 ms".toList,
      "  TCP connect:     N/A".toList, "  TLS handshake:   N/A".toList,
      "  Total time:      N/A".toList] := by decide

/-- When a hop starts, and when its response is there. -/
structure HopSpan where
  /-- When its request goes out. -/
  start : Nat
  /-- When its response is there. -/
  finish : Nat
  /-- Time does not go back. -/
  ordered : start ≤ finish

/-- `connection_start.elapsed()`. -/
def HopSpan.elapsed (span : HopSpan) : Nat := span.finish - span.start

/-- The name lookup of a plain hop, as it is estimated. -/
def plainEstimate : Nat := 15 * 1000000

/-- The name lookup of a TLS hop, as it is estimated. -/
def tlsEstimate : Nat := 20 * 1000000

namespace RequestTimings

/-- The marks of a plain hop to the target. -/
def afterPlain (timings : RequestTimings) (span : HopSpan) : RequestTimings :=
  { timings with
    dnsStart := some span.start
    dnsEnd := some (span.start + plainEstimate)
    tcpConnectStart := some (span.start + plainEstimate)
    tcpConnectEnd := some (span.start + span.elapsed) }

/-- The marks of a TLS hop to the target. -/
def afterTls (timings : RequestTimings) (span : HopSpan) : RequestTimings :=
  let tlsTime := span.elapsed - tlsEstimate
  { timings with
    dnsStart := some span.start
    dnsEnd := some (span.start + tlsEstimate)
    tcpConnectStart := some (span.start + tlsEstimate)
    tcpConnectEnd := some (span.start + tlsEstimate + tlsTime / 2)
    tlsStart := some (span.start + tlsEstimate + tlsTime / 2)
    tlsEnd := some (span.start + span.elapsed) }

/-- The marks of an answered hop. -/
def afterHop (timings : RequestTimings) (route : Route) (span : HopSpan) : RequestTimings :=
  match route with
  | .direct => timings.afterPlain span
  | .forwardProxy _ => timings
  | .tls _ => timings.afterTls span
  | .tlsTunnel _ _ => { timings with tlsEnd := some span.finish }

end RequestTimings

/-- The instants of a call: of its start, of the hops it may make, and of its end. -/
structure Clock where
  /-- When the call begins. -/
  totalStart : Nat
  /-- A hop starts and ends. -/
  hops : Nat → HopSpan
  /-- When it has returned. -/
  totalEnd : Nat
  /-- The hops start after the call. -/
  begins : totalStart ≤ (hops 0).start
  /-- They come one after another. -/
  follows : ∀ index, (hops index).finish ≤ (hops (index + 1)).start
  /-- They end before the call. -/
  ends : ∀ index, (hops index).finish ≤ totalEnd

/-- The marks after some hops, the first of them with an index. -/
def RequestTimings.afterHops (clock : Clock) :
    Nat → RequestTimings → List Transmission → RequestTimings
  | _, timings, [] => timings
  | index, timings, transmission :: rest =>
    afterHops clock (index + 1) (timings.afterHop transmission.route (clock.hops index)) rest

/-- The response is passed to `handle_response`. -/
def isHandled : Event → Bool
  | .handled _ => true
  | .built _ | .transmitted _ | .received _ => false

/-- The marks that `handle_response` prints: there are any with `--time`, when the call comes to it. -/
def printedTimings {Url : Type} (urls : UrlOps Url) (world : World) (cli : Cli) (clock : Clock) :
    Option RequestTimings :=
  let events := (httpRequestWithRedirects urls world cli).1
  if cli.time ∧ events.any isHandled then
    let timings := RequestTimings.afterHops clock 0 { totalStart := some clock.totalStart }
      (transmittedOf events)
    some { timings with totalEnd := some clock.totalEnd }
  else none

/-- The phases that are printed. -/
def RequestTimings.phases (timings : RequestTimings) : List Nat :=
  timings.dnsDuration.toList ++ timings.tcpConnectDuration.toList ++ timings.tlsDuration.toList

/-- Durations fit into a total: each of them, and their sum. -/
def FitInto (total : Nat) (durations : List Nat) : Prop :=
  (∀ duration ∈ durations, duration ≤ total) ∧ durations.sum ≤ total

/-- The phases fit into the call, as they are and as they are printed. -/
def PhasesFit (timings : RequestTimings) : Prop :=
  ∃ total, timings.totalDuration = some total ∧ FitInto total timings.phases ∧
    FitInto (RequestTimings.asMillis total) (timings.phases.map RequestTimings.asMillis)

/-- A hop leaves marks that lie in it: a direct one takes as long as its estimate, and a tunnel finds no
connection that is later than the start of the handshake. -/
def OrderlyHop (timings : RequestTimings) (route : Route) (span : HopSpan) : Prop :=
  match route with
  | .direct => plainEstimate ≤ span.elapsed
  | .forwardProxy _ => True
  | .tls _ => tlsEstimate ≤ span.elapsed
  | .tlsTunnel _ _ => ∀ handshake connected, timings.tlsStart = some handshake →
      timings.tcpConnectEnd = some connected → connected ≤ handshake

/-- Every hop of a run is orderly. -/
def OrderlyHops (clock : Clock) : Nat → RequestTimings → List Transmission → Prop
  | _, _, [] => True
  | index, timings, transmission :: rest =>
    OrderlyHop timings transmission.route (clock.hops index) ∧
      OrderlyHops clock (index + 1) (timings.afterHop transmission.route (clock.hops index)) rest

/-! ## What the marks look like -/

/-- The marks lie one after another between the start of the call and now: there are none, those of a
plain hop, or those of a TLS hop, which end after the connection or before the name lookup. -/
inductive Settled (opened now : Nat) (timings : RequestTimings) : Prop where
  /-- No direct hop was made. -/
  | blank (lookup : timings.dnsEnd = none) (connection : timings.tcpConnectEnd = none)
      (handshake : timings.tlsStart = none)
  /-- Plain hops were made. -/
  | plain {first second third : Nat} (lookup : timings.dnsDuration = some (second - first))
      (connection : timings.tcpConnectDuration = some (third - second))
      (connected : timings.tcpConnectEnd = some third) (handshake : timings.tlsStart = none)
      (order : opened ≤ first ∧ first ≤ second ∧ second ≤ third ∧ third ≤ now)
  /-- A TLS hop was the last. -/
  | secure {first second third fourth fifth : Nat}
      (lookup : timings.dnsDuration = some (second - first))
      (connection : timings.tcpConnectDuration = some (third - second))
      (connected : timings.tcpConnectEnd = some third) (handshake : timings.tlsStart = some fourth)
      (done : timings.tlsEnd = some fifth)
      (order : opened ≤ first ∧ first ≤ second ∧ second ≤ third ∧ third ≤ fourth ∧ fourth ≤ fifth ∧
        fifth ≤ now)
  /-- A plain hop came after it. -/
  | mixed {handshake done first second third : Nat}
      (lookup : timings.dnsDuration = some (second - first))
      (connection : timings.tcpConnectDuration = some (third - second))
      (connected : timings.tcpConnectEnd = some third) (started : timings.tlsStart = some handshake)
      (ended : timings.tlsEnd = some done)
      (order : opened ≤ handshake ∧ handshake ≤ done ∧ done ≤ first ∧ first ≤ second ∧
        second ≤ third ∧ third ≤ now)

section Marks

variable {opened now : Nat} {timings : RequestTimings} {span : HopSpan}

/-- Marks stay settled when time goes on. -/
theorem Settled.later (settled : Settled opened now timings) {after : Nat} (goes : now ≤ after) :
    Settled opened after timings := by
  cases settled with
  | blank lookup connection handshake => exact .blank lookup connection handshake
  | plain lookup connection connected handshake order =>
    exact .plain lookup connection connected handshake (by omega)
  | secure lookup connection connected handshake done order =>
    exact .secure lookup connection connected handshake done (by omega)
  | mixed lookup connection connected started ended order =>
    exact .mixed lookup connection connected started ended (by omega)

/-- The end of a span, from its start and the time it took. -/
theorem HopSpan.start_add_elapsed (span : HopSpan) : span.start + span.elapsed = span.finish :=
  Nat.add_sub_cancel' span.ordered

/-- A plain hop that takes as long as its estimate settles its marks. -/
theorem Settled.afterPlain (settled : Settled opened now timings) (goes : now ≤ span.start)
    (opens : opened ≤ span.start) (slow : plainEstimate ≤ span.elapsed) :
    Settled opened span.finish (timings.afterPlain span) := by
  have whole := span.start_add_elapsed
  have lookup : (timings.afterPlain span).dnsDuration =
      some (span.start + plainEstimate - span.start) := rfl
  have connection : (timings.afterPlain span).tcpConnectDuration =
      some (span.start + span.elapsed - (span.start + plainEstimate)) := rfl
  cases settled with
  | blank _ _ handshake => exact .plain lookup connection rfl handshake (by omega)
  | plain _ _ _ handshake _ => exact .plain lookup connection rfl handshake (by omega)
  | secure _ _ _ handshake done order => exact .mixed lookup connection rfl handshake done (by omega)
  | mixed _ _ _ started ended order => exact .mixed lookup connection rfl started ended (by omega)

/-- A TLS hop that takes as long as its estimate settles its marks. -/
theorem Settled.afterTls (opens : opened ≤ span.start) (slow : tlsEstimate ≤ span.elapsed) :
    Settled opened span.finish (timings.afterTls span) := by
  have whole := span.start_add_elapsed
  have lookup : (timings.afterTls span).dnsDuration =
      some (span.start + tlsEstimate - span.start) := rfl
  exact .secure lookup rfl rfl rfl rfl (by omega)

/-- A tunnel that finds no connection later than the handshake keeps the marks settled. -/
theorem Settled.afterTunnel (settled : Settled opened now timings) (goes : now ≤ span.start)
    (apart : ∀ handshake connected, timings.tlsStart = some handshake →
      timings.tcpConnectEnd = some connected → connected ≤ handshake) :
    Settled opened span.finish { timings with tlsEnd := some span.finish } := by
  have ordered := span.ordered
  cases settled with
  | blank lookup connection handshake => exact .blank lookup connection handshake
  | plain lookup connection connected handshake order =>
    exact .plain lookup connection connected handshake (by omega)
  | secure lookup connection connected handshake _ order =>
    exact .secure lookup connection connected handshake rfl (by omega)
  | mixed lookup connection connected started _ order =>
    have early := apart _ _ started connected
    exact .secure lookup connection connected started rfl (by omega)

/-- An orderly hop settles its marks. -/
theorem Settled.afterHop (settled : Settled opened now timings) {route : Route}
    (begun : opened ≤ now) (goes : now ≤ span.start) (orderly : OrderlyHop timings route span) :
    Settled opened span.finish (timings.afterHop route span) := by
  have opens : opened ≤ span.start := Nat.le_trans begun goes
  cases route with
  | direct => exact settled.afterPlain goes opens orderly
  | forwardProxy address => exact settled.later (Nat.le_trans goes span.ordered)
  | tls settings => exact Settled.afterTls opens orderly
  | tlsTunnel address settings => exact settled.afterTunnel goes orderly

/-- Without a start there is no TLS phase. -/
theorem tlsDuration_none (unstarted : timings.tlsStart = none) : timings.tlsDuration = none := by
  rw [RequestTimings.tlsDuration, unstarted, durationSince]
  cases timings.tlsEnd with
  | none => rfl
  | some done => rfl

/-- With a start and an end the TLS phase lies between them. -/
theorem tlsDuration_some {start done : Nat} (started : timings.tlsStart = some start)
    (ended : timings.tlsEnd = some done) : timings.tlsDuration = some (done - start) := by
  rw [RequestTimings.tlsDuration, started, ended]
  rfl

/-- Settled marks lie between the start of the call and now. -/
theorem Settled.phases_le (settled : Settled opened now timings) :
    timings.phases.sum ≤ now - opened := by
  rw [RequestTimings.phases]
  cases settled with
  | blank lookup connection handshake =>
    have noLookup : timings.dnsDuration = none := by
      rw [RequestTimings.dnsDuration, lookup]
      rfl
    have noConnection : timings.tcpConnectDuration = none := by
      rw [RequestTimings.tcpConnectDuration, connection]
      rfl
    have noHandshake := tlsDuration_none handshake
    rw [noLookup, noConnection, noHandshake]
    exact Nat.zero_le _
  | plain lookup connection connected handshake order =>
    have noHandshake := tlsDuration_none handshake
    rw [lookup, connection, noHandshake]
    simp only [Option.toList_some, Option.toList_none, List.sum_append, List.sum_singleton, List.sum_nil]
    omega
  | @secure first second third fourth fifth lookup connection connected handshake done order =>
    rw [lookup, connection, tlsDuration_some handshake done]
    simp only [Option.toList_some, List.sum_append, List.sum_singleton]
    omega
  | @mixed handshake done first second third lookup connection connected started ended order =>
    rw [lookup, connection, tlsDuration_some started ended]
    simp only [Option.toList_some, List.sum_append, List.sum_singleton]
    omega

/-- A hop does not move the start of the call. -/
theorem RequestTimings.afterHop_totalStart (route : Route) :
    (timings.afterHop route span).totalStart = timings.totalStart := by
  cases route with
  | direct => rfl
  | forwardProxy address => rfl
  | tls settings => rfl
  | tlsTunnel address settings => rfl

end Marks

/-- Orderly hops settle their marks, up to the end of the call. -/
theorem Settled.afterHops {clock : Clock} (transmissions : List Transmission) :
    ∀ {index now : Nat} {timings : RequestTimings}, Settled clock.totalStart now timings →
      clock.totalStart ≤ now → now ≤ (clock.hops index).start → now ≤ clock.totalEnd →
        OrderlyHops clock index timings transmissions →
          Settled clock.totalStart clock.totalEnd
            (RequestTimings.afterHops clock index timings transmissions) := by
  induction transmissions with
  | nil =>
    intro index now timings settled _ _ ends _
    exact settled.later ends
  | cons transmission transmissions ih =>
    intro index now timings settled begun goes _ orderly
    have next := settled.afterHop begun goes orderly.1
    have ordered := (clock.hops index).ordered
    exact ih next (by omega) (clock.follows index) (clock.ends index) orderly.2

/-- Hops do not move the start of the call. -/
theorem RequestTimings.afterHops_totalStart (clock : Clock) (transmissions : List Transmission) :
    ∀ (index : Nat) (timings : RequestTimings),
      (RequestTimings.afterHops clock index timings transmissions).totalStart = timings.totalStart := by
  induction transmissions with
  | nil => exact fun _ _ => rfl
  | cons transmission transmissions ih =>
    intro index timings
    rw [RequestTimings.afterHops, ih, RequestTimings.afterHop_totalStart]

/-- What sums up to no more than the total fits into it. -/
theorem fitInto_of_sum {total : Nat} {durations : List Nat} (sum : durations.sum ≤ total) :
    FitInto total durations :=
  ⟨fun _ member => Nat.le_trans (List.le_sum_of_mem member) sum, sum⟩

/-- The sum of durations in milliseconds is no more than their sum in milliseconds. -/
theorem sum_asMillis_le (durations : List Nat) :
    (durations.map RequestTimings.asMillis).sum ≤ RequestTimings.asMillis durations.sum := by
  induction durations with
  | nil => exact Nat.zero_le _
  | cons duration durations ih =>
    rw [List.map_cons, List.sum_cons, List.sum_cons]
    have split : RequestTimings.asMillis duration + RequestTimings.asMillis durations.sum ≤
        RequestTimings.asMillis (duration + durations.sum) := Nat.div_add_div_le_add_div
    omega

/-- Settled marks fit into the call when it ends. -/
theorem Settled.phasesFit {opened closed : Nat} {timings : RequestTimings}
    (settled : Settled opened closed timings) (begun : timings.totalStart = some opened) :
    PhasesFit { timings with totalEnd := some closed } := by
  have total : RequestTimings.totalDuration { timings with totalEnd := some closed } =
      some (closed - opened) := by
    rw [RequestTimings.totalDuration]
    dsimp only
    rw [begun]
    rfl
  have sum : timings.phases.sum ≤ closed - opened := settled.phases_le
  have millis : (timings.phases.map RequestTimings.asMillis).sum ≤
      RequestTimings.asMillis (closed - opened) :=
    Nat.le_trans (sum_asMillis_le timings.phases) (Nat.div_le_div_right sum)
  exact ⟨closed - opened, total, fitInto_of_sum sum, fitInto_of_sum millis⟩

/-- Every hop of a call is orderly. -/
def OrderlyCall {Url : Type} (urls : UrlOps Url) (world : World) (cli : Cli) (clock : Clock) : Prop :=
  OrderlyHops clock 0 { totalStart := some clock.totalStart }
    (transmittedOf (httpRequestWithRedirects urls world cli).1)

/-- The phases that a call prints fit into it when all its hops are orderly. -/
theorem phases_fit {Url : Type} (urls : UrlOps Url) (world : World) (cli : Cli) (clock : Clock)
    (timings : RequestTimings) (printed : printedTimings urls world cli clock = some timings)
    (orderly : OrderlyCall urls world cli clock) : PhasesFit timings := by
  rw [printedTimings] at printed
  dsimp only at printed
  split_ifs at printed
  rw [← Option.some.inj printed]
  have start : Settled clock.totalStart clock.totalStart { totalStart := some clock.totalStart } :=
    .blank rfl rfl rfl
  have span := (clock.hops 0).ordered
  have before : clock.totalStart ≤ clock.totalEnd :=
    Nat.le_trans clock.begins (Nat.le_trans span (clock.ends 0))
  have settled := start.afterHops _ (Nat.le_refl _) clock.begins before orderly
  exact settled.phasesFit (RequestTimings.afterHops_totalStart clock _ 0 _)

/-! ## A fast hop -/

/-- A clock of hops that all take the same time at the start. -/
def shortClock (elapsed : Nat) : Clock where
  totalStart := 0
  hops index := if index = 0 then { start := 0, finish := elapsed, ordered := Nat.zero_le elapsed }
    else { start := elapsed, finish := elapsed, ordered := Nat.le_refl elapsed }
  totalEnd := elapsed
  begins := Nat.zero_le _
  follows := by
    intro index
    rw [if_neg (Nat.succ_ne_zero index)]
    split
    · exact Nat.le_refl elapsed
    · exact Nat.le_refl elapsed
  ends := by
    intro index
    split
    · exact Nat.le_refl elapsed
    · exact Nat.le_refl elapsed

/-- `rcurl --time http://h/`. -/
def timedCli : Cli := { plainCli with time := true }

/-- A page at once. -/
def pageWorld : World := fun _ => calmWorld fun _ => .answered emptyResponse

/-- One request goes out, on a plain connection. -/
theorem page_transmitted : transmittedOf (httpRequestWithRedirects plainUrls pageWorld timedCli).1 =
    [{ route := .direct, request := addHost plainRequest }] := rfl

/-- The marks of the call with a hop of some length. -/
theorem page_printed (elapsed : Nat) :
    printedTimings plainUrls pageWorld timedCli (shortClock elapsed) =
      some { ({ totalStart := some 0 } : RequestTimings).afterPlain ((shortClock elapsed).hops 0) with
        totalEnd := some elapsed } := rfl

/-- A hop of 30 ms. -/
theorem phases_fit_slow :
    PhasesFit { ({ totalStart := some 0 } : RequestTimings).afterPlain ((shortClock 30000000).hops 0) with
      totalEnd := some 30000000 } := by
  have orderly : OrderlyCall plainUrls pageWorld timedCli (shortClock 30000000) := by
    have slow : plainEstimate ≤ ((shortClock 30000000).hops 0).elapsed := by decide
    rw [OrderlyCall, page_transmitted]
    exact ⟨slow, trivial⟩
  exact phases_fit plainUrls pageWorld timedCli (shortClock 30000000) _ (page_printed _) orderly

/-- A hop of 1 ms: the name lookup alone is printed with 15 ms. -/
theorem fast_hop : ¬ ∀ (world : World) (cli : Cli) (clock : Clock) (timings : RequestTimings),
    printedTimings plainUrls world cli clock = some timings → PhasesFit timings := by
  intro fit
  obtain ⟨total, whole, fits, _⟩ := fit pageWorld timedCli (shortClock 1000000) _ (page_printed _)
  have short : total = 1000000 := (Option.some.inj whole).symm
  have lookup := fits.1 15000000 (by decide)
  omega

/-- A tunnel after a TLS hop and a plain one: the TLS phase covers the plain hop. -/
example (settings : TlsSettings) :
    let secured := ({ totalStart := some 0 } : RequestTimings).afterHop (.tls settings)
      { start := 0, finish := 20000000, ordered := by decide }
    let followed := secured.afterHop .direct
      { start := 20000000, finish := 120000000, ordered := by decide }
    let tunnelled := followed.afterHop (.tlsTunnel [] settings)
      { start := 120000000, finish := 130000000, ordered := by decide }
    tunnelled.phases = [15000000, 85000000, 110000000] := rfl

end Rcurl
