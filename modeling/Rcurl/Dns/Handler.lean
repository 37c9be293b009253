import Rcurl.Foundation.Numerals

/-!
# DNS lookups

`dns::handler::dns_command`: the records of a name are looked up and printed the way `dig` prints them. The
header counts every record, the section of answers lists those with an address only;
`dns_transcript` is about what a reader has of the two, and when they agree.

The resolver and the clocks are the world's. A record is an address or anything else, which is all the
handler looks at.
-/

namespace Rcurl

open RustText (Text)

/-- The address of an A record. -/
structure Ipv4Addr where
  /-- The bytes, the first one first. -/
  octets : UInt8 × UInt8 × UInt8 × UInt8
  deriving DecidableEq, Repr

/-- The data of a record. -/
inductive RData where
  /-- An A record. -/
  | a (address : Ipv4Addr)
  /-- Any other record, as it is displayed. -/
  | other (text : Text)
  deriving DecidableEq, Repr

/-- What `dns` meets. -/
structure DnsWorld where
  /-- The configuration of the system can be read: its servers, each an address as it is displayed and a
  port. -/
  nameServers : Option (List (Text × UInt16))
  /-- The A records of a name, and what leads to them, unless the lookup fails. -/
  lookup : Text → Option (List RData)
  /-- The milliseconds the lookup takes. -/
  elapsed : Nat
  /-- The nanoseconds of the clock behind the full second. -/
  nanos : UInt32
  /-- The date as it is displayed. -/
  now : Text

/-- The ways a lookup fails. -/
inductive DnsError where
  | config | lookup
  deriving DecidableEq, Repr

/-- The bytes of an address, in order. -/
def Ipv4Addr.numbers (address : Ipv4Addr) : List Nat :=
  [address.octets.1.toNat, address.octets.2.1.toNat, address.octets.2.2.1.toNat,
    address.octets.2.2.2.toNat]

/-- An address as it is displayed. -/
def Ipv4Addr.display (address : Ipv4Addr) : Text :=
  RustText.decimal address.octets.1.toNat ++ (".".toList ++
    (RustText.decimal address.octets.2.1.toNat ++ (".".toList ++
      (RustText.decimal address.octets.2.2.1.toNat ++ (".".toList ++
        RustText.decimal address.octets.2.2.2.toNat)))))

/-- A record as it is displayed. -/
def RData.display : RData → Text
  | .a address => address.display
  | .other text => text

/-- `is_a`. -/
def RData.isA : RData → Bool
  | .a _ => true
  | .other _ => false

/-- `rand_id`. -/
def randId (nanos : UInt32) : UInt16 := (nanos % 65535).toUInt16

/-- `estimate_msg_size`. -/
def estimateMsgSize (response : List RData) : Nat := 32 + response.length * 16

/-- The line with the identifier. -/
def headerLine (id : UInt16) : Text :=
  ";; ->>HEADER<<- opcode: QUERY, status: NOERROR, id: ".toList ++ RustText.decimal id.toNat

/-- The line with the number of answers. -/
def flagsLine (answers : Nat) : Text :=
  ";; flags: qr rd ra; QUERY: 1, ANSWER: ".toList ++ (RustText.decimal answers ++
    ", AUTHORITY: 0, ADDITIONAL: 1".toList)

/-- The line of an answer. -/
def answerLine (domain : Text) (record : RData) : Text :=
  domain ++ " \t600\tIN\tA\t".toList ++ record.display

/-- The line with the size. -/
def sizeLine (size : Nat) : Text := ";; MSG SIZE  rcvd: ".toList ++ RustText.decimal size

/-- The lines in front of the answers. -/
def questionLines (world : DnsWorld) (domain : Text) (response : List RData) : List Text :=
  ["; <<>> Rust DiG (hickory-resolver 0.25.2) <<>> ".toList ++ domain,
    ";; global options: +cmd".toList,
    ";; Got answer:".toList,
    headerLine (randId world.nanos),
    flagsLine response.length,
    [],
    ";; QUESTION SECTION:".toList,
    ";".toList ++ domain ++ " \t\tIN\tA".toList,
    [],
    ";; ANSWER SECTION:".toList]

/-- The lines behind the answers. -/
def closingLines (world : DnsWorld) (servers : List (Text × UInt16)) (response : List RData) :
    List Text :=
  [[], ";; Query time: ".toList ++ RustText.decimal world.elapsed ++ " msec".toList] ++
    (match servers.head? with
    | some (ip, port) =>
      [";; SERVER: ".toList ++ ip ++ "#".toList ++ RustText.decimal port.toNat ++ " (".toList ++ ip ++
        ")".toList]
    | none => []) ++
    [";; WHEN: ".toList ++ world.now, sizeLine (estimateMsgSize response)]

/-- `dns_command`: its result and what it prints. -/
def dnsCommand (world : DnsWorld) (domain : Text) : Except DnsError Unit × List Text :=
  match world.nameServers with
  | none => (.error .config, [])
  | some servers =>
    match world.lookup domain with
    | none => (.error .lookup, [])
    | some response =>
      (.ok (), questionLines world domain response ++
        ((response.filter RData.isA).map (answerLine domain) ++ closingLines world servers response))

/-! ## The reader -/

/-- The number of answers, from the line of flags. -/
def readAnswerCount (printed : List Text) : Option Nat :=
  (printed[4]?.map Numerals.read).bind (·[1]?)

/-- The identifier. -/
def readId (printed : List Text) : Option Nat := (printed[3]?.map Numerals.read).bind (·.head?)

/-- The addresses, from the lines of the answers. -/
def readAnswers (printed : List Text) : List (List Nat) :=
  ((printed.drop 10).takeWhile (· ≠ [])).map fun line => Numerals.read (RustText.afterLast '\t' line)

/-- The size, from the last line. -/
def readMsgSize (printed : List Text) : Option Nat :=
  (printed.getLast?.map Numerals.read).bind (·.head?)

/-- An address is read back. -/
theorem read_display (address : Ipv4Addr) : Numerals.read address.display = address.numbers := by
  have dot : Numerals.Between ".".toList := ⟨by decide, by decide⟩
  unfold Ipv4Addr.display Ipv4Addr.numbers
  rw [Numerals.read_decimal _ dot, Numerals.read_decimal _ dot, Numerals.read_decimal _ dot,
    Numerals.read_end]

/-- An address has no tab. -/
theorem tab_notMem_display (address : Ipv4Addr) : '\t' ∉ address.display := by
  have digits : ∀ number, '\t' ∉ RustText.decimal number := RustText.notMem_decimal rfl
  have dot : '\t' ∉ ".".toList := by decide
  unfold Ipv4Addr.display
  simp only [List.mem_append, not_or]
  exact ⟨digits _, dot, digits _, dot, digits _, dot, digits _⟩

/-- The line of an address gives it back, whatever the name. -/
theorem read_answerLine (domain : Text) (address : Ipv4Addr) :
    answerLine domain (.a address) ≠ [] ∧
      Numerals.read (RustText.afterLast '\t' (answerLine domain (.a address))) = address.numbers := by
  have fields : " \t600\tIN\tA\t".toList = " \t600\tIN\tA".toList ++ ['\t'] := by decide
  have line : answerLine domain (.a address) =
      (domain ++ " \t600\tIN\tA".toList) ++ '\t' :: address.display := by
    unfold answerLine RData.display
    rw [fields]
    simp only [List.append_assoc, List.cons_append, List.nil_append]
  rw [line]
  refine ⟨List.append_ne_nil_of_right_ne_nil _ (List.cons_ne_nil _ _), ?_⟩
  rw [RustText.afterLast_append _ (tab_notMem_display address), read_display]

/-! ## What is printed -/

/-- The addresses of the records that have one, in order. -/
def addressesOf (response : List RData) : List Ipv4Addr :=
  response.filterMap fun record =>
    match record with
    | .a address => some address
    | .other _ => none

/-- What a reader has of a lookup. -/
structure DnsReads (world : DnsWorld) (domain : Text) (run : Except DnsError Unit × List Text) :
    Prop where
  /-- The command succeeds exactly when there is a configuration and the name is found. -/
  succeeds : run.1 = .ok () ↔
    world.nameServers.isSome = true ∧ (world.lookup domain).isSome = true
  /-- A lookup that fails prints nothing. -/
  failed : ∀ error, run.1 = .error error → run.2 = []
  /-- The answers that are read are the addresses of the records, in order. -/
  answers : run.1 = .ok () → ∃ response, world.lookup domain = some response ∧
    readAnswers run.2 = (addressesOf response).map Ipv4Addr.numbers
  /-- The number of answers is not below the answers that are read, and it is theirs exactly when every
  record is one of an address. -/
  counted : run.1 = .ok () → ∃ response, world.lookup domain = some response ∧
    readAnswerCount run.2 = some response.length ∧ (readAnswers run.2).length ≤ response.length ∧
      ((readAnswers run.2).length = response.length ↔ ∀ record ∈ response, record.isA = true)
  /-- The size goes with the number of answers. -/
  sized : readMsgSize run.2 = (readAnswerCount run.2).map fun count => 32 + count * 16
  /-- There is an identifier, and it is not the largest one. -/
  identified : run.1 = .ok () → ∃ id, readId run.2 = some id ∧ id < 65535

/-- The records with an address are listed by it. -/
theorem map_answers {β : Type} (line : RData → β) (response : List RData) :
    (response.filter RData.isA).map line = (addressesOf response).map fun address => line (.a address) := by
  induction response with
  | nil => rfl
  | cons record response ih =>
    cases record with
    | a address =>
      rw [List.filter_cons_of_pos rfl, List.map_cons, ih]
      rfl
    | other text =>
      rw [List.filter_cons_of_neg Bool.false_ne_true, ih]
      rfl

/-- What is printed of a response is read in two parts. -/
theorem read_dnsLines (world : DnsWorld) (domain : Text) (servers : List (Text × UInt16))
    (response : List RData) :
    readAnswers (questionLines world domain response ++
        ((response.filter RData.isA).map (answerLine domain) ++ closingLines world servers response)) =
      (addressesOf response).map Ipv4Addr.numbers := by
  have lines : ∀ line ∈ (addressesOf response).map fun address => answerLine domain (.a address),
      decide (line ≠ []) = true := by
    intro line member
    obtain ⟨address, _, rfl⟩ := List.mem_map.mp member
    exact decide_eq_true (read_answerLine domain address).1
  have head : (questionLines world domain response).length = 10 := rfl
  have stops : (closingLines world servers response).takeWhile (· ≠ []) = [] := by
    unfold closingLines
    rw [List.append_assoc, List.cons_append, List.takeWhile_cons_of_neg (by decide)]
  unfold readAnswers
  rw [List.drop_left' head, map_answers, List.takeWhile_append_of_pos lines, stops, List.append_nil,
    List.map_map]
  exact List.map_congr_left fun address _ => (read_answerLine domain address).2

/-- The identifier is below the largest one. -/
theorem randId_lt (nanos : UInt32) : (randId nanos).toNat < 65535 := by
  have bound : (nanos % 65535).toNat < 65535 := by
    rw [UInt32.toNat_mod]
    exact Nat.mod_lt _ (by decide)
  have fits : (nanos % 65535).toNat < 2 ^ 16 := by omega
  unfold randId
  rw [UInt32.toNat_toUInt16, Nat.mod_eq_of_lt fits]
  exact bound

/-- The line of flags gives back the number of answers. -/
theorem read_flagsLine (answers : Nat) : Numerals.read (flagsLine answers) = [1, answers, 0, 1] := by
  have fields : ";; flags: qr rd ra; QUERY: 1, ANSWER: ".toList =
      ";; flags: qr rd ra; QUERY: 1, ANSWER:".toList ++ [' '] := by decide
  have query : Numerals.read ";; flags: qr rd ra; QUERY: 1, ANSWER:".toList = [1] := by decide
  have authority : ", AUTHORITY: 0, ADDITIONAL: 1".toList =
      ", AUTHORITY: ".toList ++ "0, ADDITIONAL: 1".toList := by decide
  have between : Numerals.Between ", AUTHORITY: ".toList := ⟨by decide, by decide⟩
  have others : Numerals.read "0, ADDITIONAL: 1".toList = [0, 1] := by decide
  unfold flagsLine
  rw [fields, List.append_assoc, List.singleton_append, Numerals.read_append _ (by decide), query,
    authority, Numerals.read_decimal _ between, others]
  rfl

section Lines

variable (world : DnsWorld) (domain : Text) (response : List RData) (lines : List Text)

/-- The number of answers is read in the header. -/
theorem readAnswerCount_dnsLines :
    readAnswerCount (questionLines world domain response ++ lines) = some response.length := by
  have line : (questionLines world domain response ++ lines)[4]? =
    some (flagsLine response.length) := rfl
  unfold readAnswerCount
  rw [line, Option.map_some, read_flagsLine]
  rfl

/-- The identifier is read in the header. -/
theorem readId_dnsLines :
    readId (questionLines world domain response ++ lines) = some (randId world.nanos).toNat := by
  have line : (questionLines world domain response ++ lines)[3]? =
    some (headerLine (randId world.nanos)) := rfl
  have front : Numerals.Plain ";; ->>HEADER<<- opcode: QUERY, status: NOERROR, id: ".toList := by decide
  have read : Numerals.read (headerLine (randId world.nanos)) = [(randId world.nanos).toNat] := by
    unfold headerLine
    rw [Numerals.read_plain front, Numerals.read_end]
  unfold readId
  rw [line, Option.map_some, read]
  rfl

/-- The size is read in the last line. -/
theorem readMsgSize_dnsLines (servers : List (Text × UInt16)) :
    readMsgSize (questionLines world domain response ++ (lines ++ closingLines world servers response)) =
      some (estimateMsgSize response) := by
  have line : (questionLines world domain response ++
      (lines ++ closingLines world servers response)).getLast? =
        some (sizeLine (estimateMsgSize response)) := by
    unfold closingLines
    rw [List.getLast?_append, List.getLast?_append, List.getLast?_append]
    rfl
  have front : Numerals.Plain ";; MSG SIZE  rcvd: ".toList := by decide
  have read : Numerals.read (sizeLine (estimateMsgSize response)) = [estimateMsgSize response] := by
    unfold sizeLine
    rw [Numerals.read_plain front, Numerals.read_end]
  unfold readMsgSize
  rw [line, Option.map_some, read]
  rfl

end Lines

/-- The answers are as many as the records exactly when every record has an address. -/
theorem length_addressesOf (response : List RData) :
    (addressesOf response).length ≤ response.length ∧
      ((addressesOf response).length = response.length ↔ ∀ record ∈ response, record.isA = true) := by
  have same : (addressesOf response).length = (response.filter RData.isA).length := by
    have lengths := congrArg List.length (map_answers id response)
    rw [List.length_map, List.length_map] at lengths
    exact lengths.symm
  rw [same]
  exact ⟨List.length_filter_le _ _, List.length_filter_eq_length_iff⟩

/-- What `dns` prints is what was found: the answers are the addresses in order, the number in the
header is theirs unless a record of another kind was found, and the size goes with that number. -/
theorem dns_transcript (world : DnsWorld) (domain : Text) :
    DnsReads world domain (dnsCommand world domain) := by
  unfold dnsCommand
  have silent : ∀ error : DnsError,
      ¬(world.nameServers.isSome = true ∧ (world.lookup domain).isSome = true) →
        DnsReads world domain (.error error, []) := by
    intro error missing
    refine ⟨iff_of_false (fun ok => ?_) missing, fun _ _ => rfl, fun ok => ?_, fun ok => ?_, rfl,
      fun ok => ?_⟩
    all_goals contradiction
  cases configured : world.nameServers with
  | none => exact silent .config fun known => by simp [configured] at known
  | some servers =>
    cases found : world.lookup domain with
    | none => exact silent .lookup fun known => by simp [found] at known
    | some response =>
      dsimp only
      have answers := read_dnsLines world domain servers response
      have counted := readAnswerCount_dnsLines world domain response
        ((response.filter RData.isA).map (answerLine domain) ++ closingLines world servers response)
      have sized := readMsgSize_dnsLines world domain response
        ((response.filter RData.isA).map (answerLine domain)) servers
      obtain ⟨fewer, all⟩ := length_addressesOf response
      constructor
      · exact iff_of_true rfl ⟨by rw [configured]; rfl, by rw [found]; rfl⟩
      · intro error failed
        contradiction
      · exact fun _ => ⟨response, found, answers⟩
      · intro _
        rw [answers, List.length_map]
        exact ⟨response, found, counted, fewer, all⟩
      · rw [sized, counted]
        rfl
      · intro _
        rw [readId_dnsLines]
        exact ⟨_, rfl, randId_lt world.nanos⟩

end Rcurl
