import MwBtcSwap.Swap.Amounts

/-! `parser.rs`: the command that the arguments of the program name. -/

namespace MwBtcSwap

open Interaction Machine Grin

/-- `ArgMatches`: the values of the arguments by their names, and the subcommand with its own. -/
structure ArgMatches where
  values : String → Option String
  subcommand : Option (String × ArgMatches)

namespace ArgMatches

/-- `value_of`, unwrapped. -/
def valueOf (args : ArgMatches) (name : String) : Outcome String :=
  Outcome.unwrap unwrapNone (args.values name)

/-- `str::parse::<u32>` -/
def parseU32 (text : String) : Option ℕ := (parseU64 text).filter fun n => n < 2 ^ 32

/-- The id of a swap. -/
def swapid (args : ArgMatches) : Outcome ℕ := do
  let swapidArg ← args.valueOf "swapid"
  Outcome.unwrap unwrapErr (parseU64 swapidArg)

/-- The arguments of `import btc`. -/
def importBtc (args : ArgMatches) : Outcome Command := do
  let swapidArg ← args.valueOf "swapid"
  let txid ← args.valueOf "txid"
  let voutArg ← args.valueOf "vout"
  let valueArg ← args.valueOf "value"
  let skWif ← args.valueOf "sk"
  let pubScript ← args.valueOf "pub_script"
  let swapid ← Outcome.unwrap unwrapErr (parseU64 swapidArg)
  let vout ← Outcome.unwrap unwrapErr (parseU32 voutArg)
  let value ← Outcome.unwrap unwrapErr (parseU64 valueArg)
  return .importBtc swapid txid vout value skWif pubScript

/-- The arguments of `import grin`. -/
def importGrin (args : ArgMatches) : Outcome Command := do
  let swapidArg ← args.valueOf "swapid"
  let commitment ← args.valueOf "commitment"
  let blindingFactor ← args.valueOf "blinding_factor"
  let valueArg ← args.valueOf "value"
  let swapid ← Outcome.unwrap unwrapErr (parseU64 swapidArg)
  let value ← Outcome.unwrap unwrapErr (parseU64 valueArg)
  return .importGrin swapid { commitment, blindingFactor, value }

/-- The arguments of `init`. -/
def init (args : ArgMatches) : Outcome Init := do
  let fromCurrencyArg ← args.valueOf "from-currency"
  let toCurrencyArg ← args.valueOf "to-currency"
  let fromAmountArg ← args.valueOf "from-amount"
  let toAmountArg ← args.valueOf "to-amount"
  let timeoutArg ← args.valueOf "timeout"
  MwBtcSwap.parseArguments fromCurrencyArg toCurrencyArg fromAmountArg toAmountArg timeoutArg

/-- `parse_arguments`, with the id that `init` draws when it runs and the number of clients that `listen`
then serves. -/
def parseArguments (args : ArgMatches) (drawn clients : ℕ) : Outcome Command :=
  match args.subcommand with
  | some ("init", args) => do
    let init ← args.init
    return .init drawn init
  | some ("import", args) =>
    match args.subcommand with
    | some ("btc", args) => args.importBtc
    | some ("grin", args) => args.importGrin
    | _ => .error (.err "Invalid subcommand for import supplied")
  | some ("listen", args) => do
    let swapid ← args.swapid
    return .listen swapid clients
  | some ("accept", args) => do
    let swapid ← args.swapid
    return .accept swapid
  | some ("lock", args) => do
    let swapid ← args.swapid
    return .lock swapid
  | some ("cancel", args) => do
    let swapid ← args.swapid
    return .cancel swapid
  | some ("execute", args) => do
    let swapid ← args.swapid
    return .execute swapid
  | _ => .error (.err "Invalid command supplied")

end ArgMatches

/-- The numbers that a command is given fit their types. -/
def Command.InRange : Command → Prop
  | .init _ args => args.fromAmount < 2 ^ 64 ∧ args.toAmount < 2 ^ 64 ∧ args.timeoutBtc < 2 ^ 64 ∧
      args.timeoutGrin < 2 ^ 64
  | .importBtc _ _ vout value _ _ => vout < 2 ^ 32 ∧ value < 2 ^ 64
  | .importGrin _ coin => coin.value < 2 ^ 64
  | _ => True

theorem ArgMatches.parseU32_lt {text : String} {n : ℕ} (h : parseU32 text = some n) : n < 2 ^ 32 := by
  obtain ⟨-, hn⟩ := Option.filter_eq_some_iff.mp h
  simpa using hn

theorem ArgMatches.init_inRange {args : ArgMatches} {init : Init} {drawn : ℕ}
    (h : args.init = .ok init) : (Command.init drawn init).InRange := by
  simp only [ArgMatches.init, MwBtcSwap.parseArguments, Outcome.bind_eq_ok, Outcome.unwrap_eq_ok,
    Outcome.throw_eq_error, Outcome.error_bind, Outcome.error_ite_eq_ok, Outcome.pure_eq_ok,
    Except.ok.injEq] at h
  obtain ⟨_, -, _, -, _, -, _, -, _, -, _, -, _, -, fromAmount, hfrom, toAmount, hto, timeout, htimeout,
    -, -, -, rfl⟩ := h
  have htime := parseU64_lt htimeout
  exact ⟨parseU64_lt hfrom, parseU64_lt hto, (Nat.div_le_self _ _).trans_lt htime,
    (Nat.div_le_self _ _).trans_lt htime⟩

/-- The numbers of a command that is parsed are in range. -/
theorem ArgMatches.parseArguments_inRange {args : ArgMatches} {drawn clients : ℕ} {command : Command}
    (h : args.parseArguments drawn clients = .ok command) : command.InRange := by
  unfold ArgMatches.parseArguments at h
  split at h
  · obtain ⟨init, hinit, heq⟩ := Outcome.bind_eq_ok.mp h
    cases heq
    exact init_inRange hinit
  · split at h
    · simp only [ArgMatches.importBtc, Outcome.bind_eq_ok, Outcome.unwrap_eq_ok, Outcome.pure_eq_ok,
        Except.ok.injEq] at h
      obtain ⟨_, -, _, -, _, -, _, -, _, -, _, -, _, -, vout, hvout, value, hvalue, rfl⟩ := h
      exact ⟨parseU32_lt hvout, parseU64_lt hvalue⟩
    · simp only [ArgMatches.importGrin, Outcome.bind_eq_ok, Outcome.unwrap_eq_ok, Outcome.pure_eq_ok,
        Except.ok.injEq] at h
      obtain ⟨_, -, _, -, _, -, _, -, _, -, value, hvalue, rfl⟩ := h
      exact parseU64_lt hvalue
    · cases h
  all_goals
    first
    | cases h
    | obtain ⟨_, -, heq⟩ := Outcome.bind_eq_ok.mp h
      cases heq
      trivial

end MwBtcSwap
