import Rcurl.App.Run
import Rcurl.History.Replay

/-!
# Replaying a recorded quick command

A quick command is recorded with its arguments bare. The line is split and parsed again, and the
handler it is dispatched to is compared with the one it was recorded for: `replay_quick_iff`. A
subcommand keeps at most the words it is given, and a splitting holds no more than its text, so an
argument that comes back at all was the only word of its text.
-/

namespace Rcurl

open ShellWords

/-- A quick command whose recorded line dispatches as the command did: its argument splits to
itself, which for the host before a port means that it is plain, and is no dashed word. -/
def ReplayableQuick : QuickCommand → Prop
  | .ping target | .disk target | .ns target | .whois target =>
    SelfWord target ∧ isDashed target = false
  | .telnet host _ => Plain host ∧ isDashed host = false
  | .port _ _ => True

/-! ## Ports in decimal -/

/-- The digits of a number are digits. -/
theorem portText_digits (port : UInt16) : (portText port).all Char.isDigit = true := by
  rw [List.all_eq_true]
  intro c member
  exact RustText.isDigit_decimal member

/-- A number has at least one digit. -/
theorem portText_ne_nil (port : UInt16) : portText port ≠ [] := RustText.decimal_ne_nil port.toNat

/-- The characters that would be read as something else than part of a number. -/
def disturbing : List Char := [' ', '\t', '\n', '\'', '"', '\\', '#', '+', '-']

/-- A digit separates, quotes, comments and signs nothing. -/
theorem digit_quiet {c : Char} (digit : c.isDigit = true) : c ∉ disturbing := by
  intro member
  have never : ∀ d ∈ disturbing, d.isDigit = false := by decide
  rw [never c member] at digit
  contradiction

/-- A digit is plain inside a word. -/
theorem digit_plain {c : Char} (digit : c.isDigit = true) :
    isSeparator c = false ∧ isQuoting c = false := by
  have quiet := digit_quiet digit
  simp only [disturbing, List.mem_cons, not_or] at quiet
  simp [isSeparator, isQuoting, quiet]

/-- A written port is a plain word. -/
theorem plain_portText (port : UInt16) : Plain (portText port) := by
  have digits := List.all_eq_true.mp (portText_digits port)
  refine ⟨portText_ne_nil port, ?_, fun c member => digit_plain (digits c member)⟩
  intro mark
  exact digit_quiet (digits '#' (List.mem_of_mem_head? mark)) (by decide)

/-- A written port is no dashed word. -/
theorem bare_portText (port : UInt16) : isDashed (portText port) = false := by
  have digits := List.all_eq_true.mp (portText_digits port)
  rw [isDashed, Bool.and_eq_false_iff, beq_eq_false_iff_ne]
  left
  intro sign
  exact digit_quiet (digits '-' (List.mem_of_mem_head? sign)) (by decide)

/-- A text that starts with a digit is read without a sign. -/
theorem parsePort_unsigned {c : Char} (digit : c.isDigit = true) (text : Text) :
    parsePort (c :: text) = (parseDigits (c :: text)).bind narrowPort := by
  have quiet := digit_quiet digit
  unfold parsePort
  split
  · rename_i same
    rw [(List.cons.inj same).1] at quiet
    exact absurd (by decide) quiet
  · rename_i same
    rw [(List.cons.inj same).1] at quiet
    exact absurd (by decide) quiet
  · rfl

/-- A written port parses back to itself. -/
theorem parsePort_portText (port : UInt16) : parsePort (portText port) = some port := by
  have all := portText_digits port
  have value : Nat.ofDigitChars 10 (portText port) 0 = port.toNat :=
    RustText.ofDigitChars_decimal port.toNat
  cases shape : portText port with
  | nil => exact absurd shape (portText_ne_nil port)
  | cons c text =>
    rw [shape] at all value
    have digit : c.isDigit = true := by
      rw [List.all_cons, Bool.and_eq_true] at all
      exact all.1
    rw [parsePort_unsigned digit, parseDigits, if_pos ⟨List.cons_ne_nil c text, all⟩,
      Option.bind_some, narrowPort, value, if_pos port.toNat_lt, UInt16.ofNat_toNat]

/-- Digits spell a number below the power of ten of their count. -/
theorem ofDigitChars_lt (text : Text) (digits : text.all Char.isDigit = true) :
    Nat.ofDigitChars 10 text 0 < 10 ^ text.length := by
  induction text with
  | nil => decide
  | cons c text ih =>
    rw [List.all_cons, Bool.and_eq_true] at digits
    have tail := ih digits.2
    have head : c.toNat - '0'.toNat ≤ 9 := by
      have range := digits.1
      simp only [Char.isDigit, ge_iff_le, Bool.and_eq_true, decide_eq_true_eq] at range
      have upper : c.toNat ≤ '9'.toNat := range.2
      have nine : '9'.toNat = 57 := rfl
      have zero : '0'.toNat = 48 := rfl
      omega
    rw [Nat.ofDigitChars_cons, Nat.ofDigitChars_eq_ofDigitChars_zero, Nat.mul_zero, Nat.zero_add,
      List.length_cons, Nat.pow_succ]
    have scaled := Nat.mul_le_mul_left (10 ^ text.length) head
    omega

/-- Digits that read as a number are at least as many as that number is written with. -/
theorem toDigits_length_le {text : Text} {number : Nat} (read : parseDigits text = some number) :
    (Nat.toDigits 10 number).length ≤ text.length := by
  rw [parseDigits, Option.ite_none_right_eq_some, Option.some.injEq] at read
  obtain ⟨⟨inhabited, digits⟩, rfl⟩ := read
  rw [Nat.length_toDigits_le_iff (by decide) (List.length_pos_iff.mpr inhabited)]
  exact ofDigitChars_lt text digits

/-- A text that reads as a port is at least as long as the port is written. -/
theorem portText_length_le {text : Text} {port : UInt16} (read : parsePort text = some port) :
    (portText port).length ≤ text.length := by
  have narrow : ∀ digits : Text, (parseDigits digits).bind narrowPort = some port →
      (portText port).length ≤ digits.length := by
    intro digits parsed
    obtain ⟨number, known, narrowed⟩ := Option.bind_eq_some_iff.mp parsed
    rw [narrowPort, Option.ite_none_right_eq_some, Option.some.injEq] at narrowed
    obtain ⟨bound, rfl⟩ := narrowed
    rw [portText, UInt16.toNat_ofNat_of_lt' bound]
    exact toDigits_length_le known
  unfold parsePort at read
  split at read
  · exact Nat.le_succ_of_le (narrow _ read)
  · obtain ⟨number, known, zero⟩ := Option.bind_eq_some_iff.mp read
    rw [Option.ite_none_right_eq_some, Option.some.injEq] at zero
    obtain ⟨rfl, rfl⟩ := zero
    exact Nat.le_succ_of_le (toDigits_length_le known)
  · exact narrow _ read

/-! ## The words a subcommand keeps -/

section Subcommand

variable {name : Subcommand}

/-- A pushed word goes to the end of the positional words. -/
theorem SubMatches.push_eq_some {word : Text} {found next : SubMatches} :
    found.push name word = some next ↔
      found.positionals.length < name.arity ∧
        { found with positionals := found.positionals ++ [word] } = next := by
  rw [SubMatches.push, Option.ite_none_right_eq_some, Option.some.injEq]

/-- After `--` every word is kept. -/
theorem trailSubcommand_taken (words : List Text) : ∀ {found last : SubMatches},
    trailSubcommand name words found = some last →
      last.positionals = found.positionals ++ words := by
  induction words with
  | nil =>
    intro found last parsed
    rw [trailSubcommand, Option.some.injEq] at parsed
    rw [parsed, List.append_nil]
  | cons word words ih =>
    intro found last parsed
    obtain ⟨next, pushed, later⟩ := Option.bind_eq_some_iff.mp parsed
    rw [SubMatches.push_eq_some] at pushed
    rw [ih later, ← pushed.2, List.append_assoc]
    rfl

/-- The positional words of a subcommand are among its words, in their order. -/
theorem scanSubcommand_taken (words : List Text) : ∀ {found last : SubMatches},
    scanSubcommand name words found = some last →
      ∃ taken, last.positionals = found.positionals ++ taken ∧ taken.Sublist words := by
  induction words using List.twoStepInduction with
  | nil =>
    intro found last parsed
    rw [scanSubcommand, Option.some.injEq] at parsed
    exact ⟨[], by rw [parsed, List.append_nil], List.nil_sublist _⟩
  | singleton word =>
    intro found last parsed
    rw [scanSubcommand] at parsed
    split_ifs at parsed with escape output kill twice dashed
    · exact ⟨[], by rw [trailSubcommand_taken [] parsed], List.nil_sublist _⟩
    · rw [scanSubcommand, Option.some.injEq] at parsed
      exact ⟨[], by rw [← parsed, List.append_nil], List.nil_sublist _⟩
    · obtain ⟨next, pushed, later⟩ := Option.bind_eq_some_iff.mp parsed
      rw [SubMatches.push_eq_some] at pushed
      rw [scanSubcommand, Option.some.injEq] at later
      exact ⟨[word], by rw [← later, ← pushed.2], List.Sublist.refl _⟩
  | cons_cons word value words ih later =>
    intro found last parsed
    rw [scanSubcommand] at parsed
    split_ifs at parsed with escape output kill twice dashed
    · exact ⟨value :: words, trailSubcommand_taken _ parsed, List.sublist_cons_self _ _⟩
    · obtain ⟨taken, kept, part⟩ := ih parsed
      exact ⟨taken, kept, (part.cons value).cons word⟩
    · obtain ⟨taken, kept, part⟩ := later value parsed
      exact ⟨taken, kept, part.cons word⟩
    · obtain ⟨next, pushed, rest⟩ := Option.bind_eq_some_iff.mp parsed
      rw [SubMatches.push_eq_some] at pushed
      obtain ⟨taken, kept, part⟩ := later value rest
      refine ⟨word :: taken, ?_, part.cons_cons word⟩
      rw [kept, ← pushed.2, List.append_assoc]
      rfl

/-- A dashed word is never kept as the first of all words. -/
theorem bare_of_taken {word : Text} {words : List Text} {found last : SubMatches}
    (parsed : scanSubcommand name (word :: words) found = some last)
    (kept : last.positionals = found.positionals ++ (word :: words)) : isDashed word = false := by
  have never : ∀ {rest : List Text} {next : SubMatches}, scanSubcommand name rest next = some last →
      next.positionals = found.positionals → rest.length ≤ words.length → False := by
    intro rest next later same fewer
    obtain ⟨taken, whole, part⟩ := scanSubcommand_taken rest later
    rw [same, kept, List.append_cancel_left_eq] at whole
    have counted := part.length_le
    rw [← whole, List.length_cons] at counted
    omega
  rw [scanSubcommand.eq_def] at parsed
  dsimp only at parsed
  split_ifs at parsed with escape output given kill twice dashed
  · have whole := trailSubcommand_taken words parsed
    rw [kept, List.append_cancel_left_eq] at whole
    have counted := congrArg List.length whole
    rw [List.length_cons] at counted
    omega
  · cases words <;> contradiction
  · cases words with
    | nil => contradiction
    | cons value rest => exact (never parsed rfl (Nat.le_succ _)).elim
  · exact (never parsed rfl (Nat.le_refl _)).elim
  · exact Bool.eq_false_iff.mpr dashed

/-- A bare word is kept while there is room. -/
theorem scanSubcommand_bare {word : Text} (bare : isDashed word = false) (found : SubMatches)
    (room : found.positionals.length < name.arity) (rest : List Text) :
    scanSubcommand name (word :: rest) found =
      scanSubcommand name rest { found with positionals := found.positionals ++ [word] } := by
  have unlike : ∀ dashed : Text, isDashed dashed = true → word ≠ dashed := by
    intro dashed marked same
    rw [← same, bare] at marked
    contradiction
  rw [scanSubcommand.eq_def]
  dsimp only
  rw [if_neg (unlike _ rfl),
    if_neg (not_or.mpr ⟨unlike _ rfl, unlike _ rfl⟩), if_neg (fun kill => unlike _ rfl kill.1),
    if_neg (Bool.eq_false_iff.mp bare), SubMatches.push, if_pos room, Option.bind_some]

end Subcommand

/-! ## The quick commands whose line dispatches as they did -/

/-- The line of a quick command with arguments splits to the program, the subcommand, and whatever
the arguments split to. -/
theorem split_quick {letter : Text} (plain : Plain letter) (rest : Text) :
    split ("rcurl".toList ++ ' ' :: (letter ++ ' ' :: rest)) =
      (split rest).map (["rcurl".toList, letter] ++ ·) := by
  have written := Spells.plain plain .nil
  have read := written.scan_space "rcurl".toList rest
  rw [split, plain_writes plain_program]
  simpa [split] using read

/-- The words behind a subcommand's name are its own. -/
theorem parse_quick {name : Subcommand} {letter : Text} (spelled : roleOf letter = .subcommand name)
    (words : List Text) :
    Cli.tryParseFrom ("rcurl".toList :: letter :: words) = parseSubcommand name words {} := by
  rw [Cli.tryParseFrom, List.tail_cons, parseWords.eq_def]
  dsimp only
  rw [spelled]

/-- A subcommand is built from the words its text splits to. -/
theorem replay_quick_built {name : Subcommand} {letter rest : Text} {words : List Text}
    {found : SubMatches} {quickCmd : QuickCommand} (plain : Plain letter)
    (spelled : roleOf letter = .subcommand name) (read : split rest = some words)
    (scanned : scanSubcommand name words {} = some found)
    (known : name.build found = some quickCmd) (unset : found.output = none) :
    replay ("rcurl".toList ++ ' ' :: (letter ++ ' ' :: rest)) =
      some { quickCmd := some quickCmd } := by
  have parsed := parse_quick spelled words
  rw [parseSubcommand, scanned, Option.bind_some, known, Option.map_some, unset] at parsed
  rw [replay, split_quick plain, read, Option.map_some, Option.bind_some]
  exact parsed

/-- A quick command that a line comes back to was built from the words of its text. -/
theorem built_of_replay {name : Subcommand} {letter rest : Text} {again : Cli} (plain : Plain letter)
    (spelled : roleOf letter = .subcommand name)
    (back : replay ("rcurl".toList ++ ' ' :: (letter ++ ' ' :: rest)) = some again) :
    ∃ words found quickCmd, split rest = some words ∧ scanSubcommand name words {} = some found ∧
      name.build found = some quickCmd ∧ again.quickCmd = some quickCmd := by
  rw [replay, split_quick plain, Option.bind_map] at back
  obtain ⟨words, read, later⟩ := Option.bind_eq_some_iff.mp back
  have built := (parse_quick spelled words).symm.trans later
  obtain ⟨found, scanned, made⟩ := Option.bind_eq_some_iff.mp built
  obtain ⟨quickCmd, known, rfl⟩ := Option.map_eq_some_iff.mp made
  exact ⟨words, found, quickCmd, read, scanned, known, rfl⟩

section Dispatch

variable {parseScheme : Text → Option (Option Text)}

/-- A handler is that of the quick command. -/
theorem executeRequest_quick {cli : Cli} {quickCmd : QuickCommand}
    (quick : cli.quickCmd = some quickCmd) : executeRequest parseScheme cli = quickCmd.handler := by
  rw [executeRequest, quick]

/-- An argument that splits to itself and is bare is the one word of its subcommand. -/
theorem replay_single_self {name : Subcommand} {letter target : Text} {quickCmd : QuickCommand}
    (plain : Plain letter) (spelled : roleOf letter = .subcommand name) (room : 0 < name.arity)
    (builds : name.build { positionals := [target] } = some quickCmd) (self : SelfWord target)
    (bare : isDashed target = false) :
    replay ("rcurl".toList ++ ' ' :: (letter ++ ' ' :: target)) =
      some { quickCmd := some quickCmd } :=
  replay_quick_built plain spelled ((split_eq_self_iff target).mpr self)
    (scanSubcommand_bare bare {} room []) builds rfl

/-- A plain and bare host comes back with its port. -/
theorem replay_telnet_self {name : Text} (plain : Plain name) (bare : isDashed name = false)
    (port : UInt16) :
    replay ("rcurl".toList ++ ' ' :: ("t".toList ++ ' ' :: (name ++ ' ' :: portText port))) =
      some { quickCmd := some (.telnet name port) } := by
  have digits := plain_portText port
  have read : split (name ++ ' ' :: portText port) = some [name, portText port] := by
    rw [split, plain_writes plain]
    have written := (Spells.plain digits .nil).scan_end name
    rwa [List.append_nil] at written
  have scanned : scanSubcommand .telnet [name, portText port] {} =
      some { positionals := [name, portText port] } := by
    rw [scanSubcommand_bare bare {} (show 0 < Subcommand.telnet.arity by decide)]
    exact scanSubcommand_bare (bare_portText port) { positionals := [name] }
      (show 1 < Subcommand.telnet.arity by decide) []
  refine replay_quick_built (by decide) (by decide) read scanned ?_ rfl
  simp only [Subcommand.build, parsePort_portText, Option.map_some]

/-- A written port number comes back, with `--kill` when it was given. -/
theorem replay_port_self (number : UInt16) (kill : Bool) :
    replay ("rcurl".toList ++ pushQuick (.port (some number) kill)) =
      some { quickCmd := some (.port (some number) kill) } := by
  have plain : Plain "port".toList := by decide
  have digits := plain_portText number
  have spelled : roleOf "port".toList = .subcommand .port := by decide
  have bare := scanSubcommand_bare (bare_portText number) {}
    (show 0 < Subcommand.port.arity by decide)
  cases kill with
  | false =>
    have read : split (portText number) = some [portText number] := by
      have written := plain_writes digits []
      rw [List.append_nil] at written
      rw [split, written]
      rfl
    have built : Subcommand.port.build { positionals := [portText number] } =
        some (.port (some number) false) := by
      simp only [Subcommand.build, parsePort_portText, Option.map_some]
    have back : replay ("rcurl".toList ++ ' ' :: ("port".toList ++ ' ' :: portText number)) =
        some { quickCmd := some (.port (some number) false) } :=
      replay_quick_built plain spelled read (bare []) built rfl
    exact back
  | true =>
    have read : split (portText number ++ " --kill".toList) =
        some [portText number, "--kill".toList] := by
      rw [split, plain_writes digits]
      rfl
    have built : Subcommand.port.build { positionals := [portText number], kill := true } =
        some (.port (some number) true) := by
      simp only [Subcommand.build, parsePort_portText, Option.map_some]
    have back : replay
        ("rcurl".toList ++ ' ' :: ("port".toList ++ ' ' :: (portText number ++ " --kill".toList))) =
          some { quickCmd := some (.port (some number) true) } :=
      replay_quick_built plain spelled read (bare _) built rfl
    exact back

/-- A quick command whose argument needs no quoting reads back; only `--kill` without a port is
not written. -/
theorem replay_quick_self {quickCmd : QuickCommand} (replayable : ReplayableQuick quickCmd)
    (written : quickCmd ≠ .port none true) :
    replay ("rcurl".toList ++ pushQuick quickCmd) = some { quickCmd := some quickCmd } := by
  cases quickCmd with
  | ping target =>
    have spelled : roleOf "p".toList = .subcommand .ping := by decide
    have back : replay ("rcurl".toList ++ ' ' :: ("p".toList ++ ' ' :: target)) =
        some { quickCmd := some (.ping target) } :=
      replay_single_self (by decide) spelled (by decide) rfl replayable.1 replayable.2
    exact back
  | disk target =>
    have spelled : roleOf "d".toList = .subcommand .disk := by decide
    have back : replay ("rcurl".toList ++ ' ' :: ("d".toList ++ ' ' :: target)) =
        some { quickCmd := some (.disk target) } :=
      replay_single_self (by decide) spelled (by decide) rfl replayable.1 replayable.2
    exact back
  | telnet name port => exact replay_telnet_self replayable.1 replayable.2 port
  | ns domain =>
    have spelled : roleOf "ns".toList = .subcommand .ns := by decide
    have back : replay ("rcurl".toList ++ ' ' :: ("ns".toList ++ ' ' :: domain)) =
        some { quickCmd := some (.ns domain) } :=
      replay_single_self (by decide) spelled (by decide) rfl replayable.1 replayable.2
    exact back
  | whois target =>
    have spelled : roleOf "w".toList = .subcommand .whois := by decide
    have back : replay ("rcurl".toList ++ ' ' :: ("w".toList ++ ' ' :: target)) =
        some { quickCmd := some (.whois target) } :=
      replay_single_self (by decide) spelled (by decide) rfl replayable.1 replayable.2
    exact back
  | port number kill =>
    cases number with
    | some number => exact replay_port_self number kill
    | none =>
      cases kill with
      | false =>
        show replay "rcurl port".toList = some { quickCmd := some (.port none false) }
        decide
      | true => exact (written rfl).elim

/-- A port query is handled by no handler of a subcommand with one argument. -/
theorem port_handler (number : Option UInt16) (kill : Bool) (target : Text) :
    ∀ quickCmd ∈ [QuickCommand.ping target, .disk target, .ns target, .whois target],
      (QuickCommand.port number kill).handler ≠ quickCmd.handler := by
  cases number <;> cases kill <;> simp [QuickCommand.handler]

/-- A subcommand that is built for one argument has found it, or is `disk` with its default. -/
theorem positionals_of_single {name : Subcommand} {found : SubMatches} {made quickCmd : QuickCommand}
    {target : Text}
    (single : quickCmd ∈ [QuickCommand.ping target, .disk target, .ns target, .whois target])
    (known : name.build found = some made) (same : made.handler = quickCmd.handler) :
    found.positionals = [target] ∨ target = ['.'] := by
  cases made with
  | port number kill => exact absurd same (port_handler number kill target quickCmd single)
  | ping | disk | telnet | ns | whois =>
    simp only [List.mem_cons, List.not_mem_nil, or_false] at single
    unfold Subcommand.build at known
    split at known <;>
      simp only [Option.some.injEq, reduceCtorEq, Option.map_eq_some_iff] at known <;>
        grind [QuickCommand.handler]

/-- A subcommand with one argument comes back only when the argument splits to itself and is bare.
Only `disk` can find its argument without reading it, and then it is the default. -/
theorem single_of_replay {name : Subcommand} {letter target : Text} {quickCmd : QuickCommand}
    {again : Cli} (plain : Plain letter) (spelled : roleOf letter = .subcommand name)
    (single : quickCmd ∈ [QuickCommand.ping target, .disk target, .ns target, .whois target])
    (back : replay ("rcurl".toList ++ ' ' :: (letter ++ ' ' :: target)) = some again)
    (same : executeRequest parseScheme again = quickCmd.handler) :
    SelfWord target ∧ isDashed target = false := by
  obtain ⟨words, found, made, read, scanned, known, quick⟩ := built_of_replay plain spelled back
  rw [executeRequest_quick quick] at same
  rcases positionals_of_single single known same with only | default
  · obtain ⟨taken, kept, part⟩ := scanSubcommand_taken words scanned
    have whole : taken = [target] := kept.symm.trans only
    rw [whole, List.singleton_sublist] at part
    have alone := split_eq_of_mem read part
    rw [alone] at read scanned
    exact ⟨(split_eq_self_iff target).mp read, bare_of_taken scanned only⟩
  · rw [default]
    exact ⟨.inl (by decide), by decide⟩

/-- A host before a port comes back only when it is plain and bare. -/
theorem telnet_of_replay {name : Text} {port : UInt16} {again : Cli}
    (back : replay ("rcurl".toList ++ ' ' :: ("t".toList ++ ' ' :: (name ++ ' ' :: portText port))) =
      some again)
    (same : executeRequest parseScheme again = .telnetCommand name port) :
    Plain name ∧ isDashed name = false := by
  obtain ⟨words, found, made, read, scanned, known, quick⟩ := built_of_replay (by decide)
    (show roleOf "t".toList = .subcommand .telnet by decide) back
  rw [executeRequest_quick quick] at same
  obtain ⟨text, only, parsed⟩ : ∃ text, found.positionals = [name, text] ∧
      parsePort text = some port := by
    unfold Subcommand.build at known
    split at known <;> simp only [Option.some.injEq, reduceCtorEq, Option.map_eq_some_iff] at known
      <;> grind [QuickCommand.handler]
  obtain ⟨taken, kept, part⟩ := scanSubcommand_taken words scanned
  obtain rfl : taken = [name, text] := kept.symm.trans only
  have light := split_weight read
  have long := portText_length_le parsed
  have whole : words = [name, text] := by
    apply eq_of_sublist_weight (κ := fun _ => 1) part
    simp only [weight_cons, weight_nil, cost_one, List.length_append, List.length_cons] at light ⊢
    omega
  rw [whole] at read scanned
  refine ⟨?_, bare_of_taken scanned only⟩
  apply plain_of_first (κ := fun _ => 1) (fun _ _ => Nat.le_refl 1) (Nat.le_refl 1) read
  simp only [weight_cons, weight_nil, cost_one, List.length_append, List.length_cons]
  omega

/-- What comes back to the handler of a quick command needs no quoting. -/
theorem replayable_of_replay {quickCmd : QuickCommand} {again : Cli}
    (back : replay ("rcurl".toList ++ pushQuick quickCmd) = some again)
    (same : executeRequest parseScheme again = quickCmd.handler) : ReplayableQuick quickCmd := by
  cases quickCmd with
  | ping target =>
    exact single_of_replay (by decide) (show roleOf "p".toList = .subcommand .ping by decide)
      (by simp) back same
  | disk target =>
    exact single_of_replay (by decide) (show roleOf "d".toList = .subcommand .disk by decide)
      (by simp) back same
  | telnet name port => exact telnet_of_replay back same
  | ns domain =>
    exact single_of_replay (by decide) (show roleOf "ns".toList = .subcommand .ns by decide)
      (by simp) back same
  | whois target =>
    exact single_of_replay (by decide) (show roleOf "w".toList = .subcommand .whois by decide)
      (by simp) back same
  | port number kill => trivial

end Dispatch

/-- A recorded quick command dispatches as it did exactly when its argument needs no quoting
and is no dashed word; a port query always does. -/
theorem replay_quick_iff (cli : Cli) (quickCmd : QuickCommand)
    (quick : cli.quickCmd = some quickCmd)
    (parseScheme : Text → Option (Option Text)) :
    (∃ again, replay (commandFromCli cli) = some again ∧
        executeRequest parseScheme again = executeRequest parseScheme cli) ↔
      ReplayableQuick quickCmd := by
  rw [executeRequest_quick quick, commandFromCli_quick quick]
  constructor
  · rintro ⟨again, back, same⟩
    exact replayable_of_replay back same
  · intro replayable
    by_cases written : quickCmd = .port none true
    · have listed : replay ("rcurl".toList ++ pushQuick (.port none false)) =
          some { quickCmd := some (.port none false) } :=
        replay_quick_self trivial (by decide)
      rw [written]
      exact ⟨_, listed, rfl⟩
    · exact ⟨_, replay_quick_self replayable written, rfl⟩

/-- The characterization at a host and port, which are plain. -/
theorem replay_quick_telnet :
    ∃ again, replay (commandFromCli { quickCmd := some (.telnet "example.com".toList 80) }) =
        some again ∧ executeRequest (fun _ => none) again =
          executeRequest (fun _ => none) { quickCmd := some (.telnet "example.com".toList 80) } :=
  (replay_quick_iff { quickCmd := some (.telnet "example.com".toList 80) } _ rfl _).mpr
    ⟨by decide, by decide⟩

/-- A path with a backslash comes back without it, and another path is measured. -/
theorem replay_quick_backslash :
    ¬∃ again, replay (commandFromCli { quickCmd := some (.disk "C:\\Users".toList) }) = some again ∧
      executeRequest (fun _ => none) again =
        executeRequest (fun _ => none) { quickCmd := some (.disk "C:\\Users".toList) } := by
  rintro ⟨again, back, same⟩
  have line : commandFromCli { quickCmd := some (.disk "C:\\Users".toList) } =
      "rcurl d C:\\Users".toList := rfl
  have words : split "rcurl d C:\\Users".toList =
      some (["rcurl", "d", "C:Users"].map String.toList) := by decide
  have parsed : Cli.tryParseFrom (["rcurl", "d", "C:Users"].map String.toList) =
      some { quickCmd := some (.disk "C:Users".toList) } := by decide
  rw [line, replay, words, Option.bind_some, parsed, Option.some.injEq] at back
  have apart : (QuickCommand.disk "C:Users".toList).handler ≠
      (QuickCommand.disk "C:\\Users".toList).handler := by decide
  rw [← back] at same
  exact apart same

end Rcurl
