import Rcurl.History.Replay

/-!
# The words of a recorded line

Whatever stands between quotes in the line of a request is one word of it, so that no value reaches
into its neighbours: `split_line`. The order is the encoder's, where two flags come before the range.
-/

namespace Rcurl

open ShellWords

/-- With a plain URL, the line spells all its words. -/
theorem request_spells (cli : Cli)
    (plain : ∀ method, cli.methodOption = some method → Plain method)
    (target : ∀ url, cli.url = some url → Plain url) :
    Spells (pushRaw "-X".toList cli.methodOption ++ (pushOptions cli ++ pushUrl cli.url))
      (requestWords cli) := by
  have url : Spells (pushUrl cli.url) cli.url.toList := by
    cases present : cli.url with
    | none => exact .nil
    | some url =>
      have written := Spells.plain (target url present) .nil
      rwa [List.append_nil] at written
  have whole := (line_spells cli plain).append url
  rwa [List.append_assoc, List.append_assoc] at whole

/-- The line of a request with a plain method and a plain URL splits to the program, each option with
its value as one word, the flags and the URL, in the encoder's order, whatever the values hold. -/
theorem split_line (cli : Cli) (request : cli.quickCmd = none)
    (plain : ∀ method, cli.methodOption = some method → Plain method)
    (target : ∀ url, cli.url = some url → Plain url) :
    split (commandFromCli cli) = some ("rcurl".toList :: requestWords cli) := by
  rw [commandFromCli_request request, split, plain_writes plain_program]
  exact (request_spells cli plain target).scan_end "rcurl".toList

/-- The words of a line with every value before the flags. -/
def valuesFirst (cli : Cli) : List Text :=
  valueWords "-X".toList cli.methodOption ++ valueWords "-d".toList cli.bodyOption ++
  eachWords "-F".toList cli.formOption ++ eachWords "-H".toList cli.headers ++
  valueWords "-c".toList cli.certificatePathOption ++ valueWords "-u".toList cli.authorityOption ++
  valueWords "-A".toList cli.userAgentOption ++ valueWords "-b".toList cli.cookieOption ++
  valueWords "-e".toList cli.referOption ++ valueWords "-o".toList cli.filePathOption ++
  valueWords "-T".toList cli.uploadfileOption ++ valueWords "-Q".toList cli.quoteOption ++
  valueWords "-r".toList cli.rangeOption ++
  flagWords "-k".toList cli.skipCertificateValidate ++ flagWords "-I".toList cli.headerOption ++
  List.replicate cli.verbosity.toNat "-v".toList ++ flagWords "--http2".toList cli.http2 ++
  flagWords "--http2-prior-knowledge".toList cli.http2PriorKnowledge ++
  flagWords "--noproxy".toList cli.noproxy ++ flagWords "--time".toList cli.time ++
  flagWords "--tls-info".toList cli.tlsInfo ++ flagWords "--cert-info".toList cli.certInfo ++
  flagWords "--tls-info-json".toList cli.tlsInfoJson ++
  flagWords "--cert-info-json".toList cli.certInfoJson ++ cli.url.toList

/-- A body of quotes and text that looks like options is one word. -/
theorem split_line_quotes :
    split (commandFromCli { url := some "http://h/".toList, bodyOption := some "'' -k '#".toList }) =
      some ["rcurl".toList, "-d".toList, "'' -k '#".toList, "http://h/".toList] :=
  split_line { url := some "http://h/".toList, bodyOption := some "'' -k '#".toList } rfl nofun
    fun url given => by rw [← Option.some.inj given]; decide

/-- With `-k` and `-r`, the flag comes before the range. -/
theorem flag_before_range : ¬ ∀ cli : Cli, cli.quickCmd = none →
    (∀ method, cli.methodOption = some method → Plain method) →
      (∀ url, cli.url = some url → Plain url) →
        split (commandFromCli cli) = some ("rcurl".toList :: valuesFirst cli) := by
  intro described
  have same := described { skipCertificateValidate := true, rangeOption := some "0-1".toList } rfl nofun
    nofun
  exact absurd same (by decide)

end Rcurl
