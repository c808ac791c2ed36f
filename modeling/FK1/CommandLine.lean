import FK1.DiskFiles
import FK1.SerialTcp

/-!
# FK1.CommandLine

`parse_options` of `main.cpp`, with `parse_tcp_endpoint` of `serial_tcp.cpp`: the options that the
arguments give, or the error text for the first argument that is wrong.
-/

namespace FK1

structure Options where
  romPath : Option Path := none
  printerPath : Option Path := none
  serialEndpoint : Option TcpEndpoint := none
  serialMode : TcpSerialMode := .listen
  diskA : MountedDisk := {}
  diskB : MountedDisk := {}
  indexPulseUs : Nat := 1700
  showHelp : Bool := false
  showRomInfo : Bool := false
  deriving DecidableEq, Repr

/-- `from_chars` for a `std::uint32_t`: the value of the leading digits, and what follows them. -/
def fromChars (text : List Char) : Option (Nat × List Char) :=
  let digits := text.takeWhile Char.isDigit
  let value := digits.foldl (fun value digit => 10 * value + (digit.toNat - '0'.toNat)) 0
  if digits.isEmpty || decide (value ≥ 2 ^ 32) then none
  else some (value, text.dropWhile Char.isDigit)

/-! ## `parse_tcp_endpoint` -/

/-- The host and the port text of an endpoint. -/
def splitEndpoint (text : List Char) : Except String (List Char × List Char) :=
  match text with
  | '[' :: rest =>
    match rest.dropWhile (· ≠ ']') with
    | ']' :: ':' :: portText => .ok (rest.takeWhile (· ≠ ']'), portText)
    | _ => .error "TCP endpoint must use [address]:port for IPv6"
  | text =>
    if !text.contains ':' then .error "TCP endpoint must use host:port"
    else
      let portText := (text.reverse.takeWhile (· ≠ ':')).reverse
      let host := text.take (text.length - (portText.length + 1))
      if host.contains ':' then .error "TCP endpoint must use [address]:port for IPv6"
      else .ok (host, portText)

def parseTcpEndpoint (text : String) : Except String TcpEndpoint := do
  let (host, portText) ← splitEndpoint text.toList
  match fromChars portText with
  | some (port, []) =>
    if host.isEmpty || port == 0 || decide (port > 65535) then
      .error "TCP endpoint requires a host and port from 1 through 65535"
    else .ok { host := String.ofList host, port := port }
  | _ => .error "TCP endpoint requires a host and port from 1 through 65535"

/-! ## The values of options -/

/-- `parse_path_option`: the path is the next argument. -/
def parsePathOption (name : String) : Option String → Except String Path
  | none => .error (name ++ " requires a file path")
  | some path => .ok path

/-- A path after `=`. -/
def parsePathValue (name value : String) : Except String Path :=
  if value.isEmpty then .error (name ++ " requires a file path") else .ok value

def parseDiskOption (name : String) (next : Option String) (access : FloppyAccess) :
    Except String MountedDisk := do
  let path ← parsePathOption name next
  return { path := some path, access := access }

def parseDiskOptionValue (value name : String) (access : FloppyAccess) : Except String MountedDisk := do
  let path ← parsePathValue name value
  return { path := some path, access := access }

def parseIndexWidth (text : String) : Option Nat :=
  match fromChars text.toList with
  | some (parsed, []) => if parsed * 12 ≥ revolutionTicks then none else some parsed
  | _ => none

def indexWidthError : String := "--index-us requires an integer from 0 through 166666"

def parseIndexOption (text : Option String) : Except String Nat :=
  match text.bind parseIndexWidth with
  | none => .error indexWidthError
  | some width => .ok width

def parseSerialOption (value name : String) (mode : TcpSerialMode) (options : Options) :
    Except String Options :=
  if options.serialEndpoint.isSome then
    .error "--serial-listen and --serial-connect are mutually exclusive"
  else match parseTcpEndpoint value with
    | .error error => .error (name ++ ": " ++ error)
    | .ok endpoint => .ok { options with serialEndpoint := some endpoint, serialMode := mode }

/-! ## The arguments -/

/-- What follows `name=` in an argument that starts so. -/
def optionValue (name argument : String) : Option String :=
  let start := name.toList ++ ['=']
  if start.isPrefixOf argument.toList then some (String.ofList (argument.toList.drop start.length))
  else none

/-- An argument that is a whole option; `next` is its value if it takes one. -/
def parseWholeArgument (argument : String) (next : Option String) (options : Options) :
    Option (Except String Options × Bool) :=
  if argument == "--help" || argument == "-h" then
    some (.ok { options with showHelp := true }, false)
  else if argument == "--rom-info" then some (.ok { options with showRomInfo := true }, false)
  else if argument == "--rom" then
    let parsed := parsePathOption argument next
    some (parsed.map fun path => { options with romPath := some path }, true)
  else if argument == "--printer" then
    let parsed := parsePathOption argument next
    some (parsed.map fun path => { options with printerPath := some path }, true)
  else if argument == "--serial-listen" || argument == "--serial-connect" then
    some (match next with
      | none => .error (argument ++ " requires host:port")
      | some value =>
        parseSerialOption value argument
          (if argument == "--serial-listen" then .listen else .connect) options, true)
  else if argument == "--disk-a" then
    let parsed := parseDiskOption argument next .readOnly
    some (parsed.map fun disk => { options with diskA := disk }, true)
  else if argument == "--disk-b" then
    let parsed := parseDiskOption argument next .readOnly
    some (parsed.map fun disk => { options with diskB := disk }, true)
  else if argument == "--disk-a-rw" then
    let parsed := parseDiskOption argument next .readWrite
    some (parsed.map fun disk => { options with diskA := disk }, true)
  else if argument == "--disk-b-rw" then
    let parsed := parseDiskOption argument next .readWrite
    some (parsed.map fun disk => { options with diskB := disk }, true)
  else if argument == "--index-us" then
    let parsed := parseIndexOption next
    some (parsed.map fun width => { options with indexPulseUs := width }, true)
  else none

/-- An argument of the form `name=value`. -/
def parseValueArgument (argument : String) (options : Options) : Except String Options :=
  if let some value := optionValue "--rom" argument then do
    return { options with romPath := some (← parsePathValue "--rom" value) }
  else if let some value := optionValue "--printer" argument then do
    return { options with printerPath := some (← parsePathValue "--printer" value) }
  else if let some value := optionValue "--serial-listen" argument then
    parseSerialOption value "--serial-listen" .listen options
  else if let some value := optionValue "--serial-connect" argument then
    parseSerialOption value "--serial-connect" .connect options
  else if let some value := optionValue "--disk-a" argument then do
    return { options with diskA := ← parseDiskOptionValue value "--disk-a" .readOnly }
  else if let some value := optionValue "--disk-b" argument then do
    return { options with diskB := ← parseDiskOptionValue value "--disk-b" .readOnly }
  else if let some value := optionValue "--disk-a-rw" argument then do
    return { options with diskA := ← parseDiskOptionValue value "--disk-a-rw" .readWrite }
  else if let some value := optionValue "--disk-b-rw" argument then do
    return { options with diskB := ← parseDiskOptionValue value "--disk-b-rw" .readWrite }
  else if let some value := optionValue "--index-us" argument then do
    return { options with indexPulseUs := ← parseIndexOption (some value) }
  else .error ("unknown argument: " ++ argument)

/-- The loop over the arguments after the program's name. -/
def parseOptions : List String → Options → Except String Options
  | [], options => .ok options
  | argument :: rest, options =>
    match parseWholeArgument argument rest.head? options with
    | none => do parseOptions rest (← parseValueArgument argument options)
    | some (parsed, false) => do parseOptions rest (← parsed)
    | some (parsed, true) =>
      match rest with
      | [] => parsed
      | _ :: rest => do parseOptions rest (← parsed)

/-! ## The Index pulse width -/

theorem map_eq_ok {ε α β : Type} {x : Except ε α} {f : α → β} {b : β} :
    x.map f = .ok b ↔ ∃ a, x = .ok a ∧ f a = b := by
  cases x with
  | error e => exact ⟨nofun, fun ⟨_, h, _⟩ => nomatch h⟩
  | ok a => exact ⟨fun h => ⟨a, rfl, Except.ok.inj h⟩, fun ⟨_, h, hf⟩ => by cases h; rw [← hf]; rfl⟩

theorem bind_eq_ok {ε α β : Type} {x : Except ε α} {f : α → Except ε β} {b : β} :
    x >>= f = .ok b ↔ ∃ a, x = .ok a ∧ f a = .ok b := by
  cases x with
  | error e => exact ⟨nofun, fun ⟨_, h, _⟩ => nomatch h⟩
  | ok a => exact ⟨fun h => ⟨a, rfl, h⟩, fun ⟨_, h, hf⟩ => by cases h; exact hf⟩

/-- The Index pulse is shorter than a turn of the medium. -/
def Options.IndexFits (options : Options) : Prop := options.indexPulseUs * 12 < revolutionTicks

theorem default_fits : ({} : Options).IndexFits := by
  unfold Options.IndexFits
  decide

variable {options options' : Options} {argument value name : String} {next : Option String}

theorem parseIndexOption_fits {text : Option String} {width : Nat}
    (h : parseIndexOption text = .ok width) : width * 12 < revolutionTicks := by
  unfold parseIndexOption at h
  split at h
  · cases h
  · rename_i parsed hparsed
    cases h
    obtain ⟨text, -, hparsed⟩ := Option.bind_eq_some_iff.mp hparsed
    unfold parseIndexWidth at hparsed
    split at hparsed
    · split at hparsed
      · cases hparsed
      · rename_i hwidth
        cases hparsed
        exact Nat.not_le.mp hwidth
    · cases hparsed

theorem parseSerialOption_indexPulse {mode : TcpSerialMode}
    (h : parseSerialOption value name mode options = .ok options') :
    options'.indexPulseUs = options.indexPulseUs := by
  unfold parseSerialOption at h
  split at h
  · cases h
  · split at h
    · cases h
    · cases h
      rfl

/-- Options that a parse accepts fit. -/
def AcceptsFit (parsed : Except String Options) : Prop :=
  ∀ options', parsed = .ok options' → options'.IndexFits

theorem acceptsFit_map {α : Type} (parsed : Except String α) {f : α → Options}
    (hf : ∀ a, (f a).IndexFits) : AcceptsFit (parsed.map f) := by
  intro options' h
  obtain ⟨a, -, rfl⟩ := map_eq_ok.mp h
  exact hf a

theorem acceptsFit_serial (hfits : options.IndexFits) (value name : String) (mode : TcpSerialMode) :
    AcceptsFit (parseSerialOption value name mode options) := by
  intro options' h
  rw [Options.IndexFits, parseSerialOption_indexPulse h]
  exact hfits

theorem acceptsFit_index (text : Option String) :
    AcceptsFit ((parseIndexOption text).map fun width => { options with indexPulseUs := width }) := by
  intro options' h
  obtain ⟨width, hwidth, rfl⟩ := map_eq_ok.mp h
  exact parseIndexOption_fits hwidth

/-- The same of an argument that is a whole option, if it is one. -/
def WholeFits (whole : Option (Except String Options × Bool)) : Prop :=
  ∀ parsed takesNext, whole = some (parsed, takesNext) → AcceptsFit parsed

theorem parseWholeArgument_fits (hfits : options.IndexFits) :
    WholeFits (parseWholeArgument argument next options) := by
  have hwhole : ∀ {parsed : Except String Options} {takesNext : Bool}, AcceptsFit parsed →
      WholeFits (some (parsed, takesNext)) := by
    rintro parsed takesNext h _ _ ⟨⟩
    exact h
  have hflag : ∀ {options' : Options}, options'.IndexFits → AcceptsFit (.ok options') := by
    rintro options' h _ ⟨⟩
    exact h
  unfold parseWholeArgument
  refine iteInduction (fun _ => hwhole (hflag hfits)) fun _ => ?_
  refine iteInduction (fun _ => hwhole (hflag hfits)) fun _ => ?_
  refine iteInduction (fun _ => hwhole (acceptsFit_map _ fun _ => hfits)) fun _ => ?_
  refine iteInduction (fun _ => hwhole (acceptsFit_map _ fun _ => hfits)) fun _ => ?_
  refine iteInduction (fun _ => hwhole ?_) fun _ => ?_
  · cases next with
    | none =>
      intro options' h
      cases h
    | some value => exact acceptsFit_serial hfits value argument _
  refine iteInduction (fun _ => hwhole (acceptsFit_map _ fun _ => hfits)) fun _ => ?_
  refine iteInduction (fun _ => hwhole (acceptsFit_map _ fun _ => hfits)) fun _ => ?_
  refine iteInduction (fun _ => hwhole (acceptsFit_map _ fun _ => hfits)) fun _ => ?_
  refine iteInduction (fun _ => hwhole (acceptsFit_map _ fun _ => hfits)) fun _ => ?_
  refine iteInduction (fun _ => hwhole (acceptsFit_index next)) fun _ => ?_
  intro parsed takesNext h
  cases h

theorem parseValueArgument_fits (hfits : options.IndexFits)
    (h : parseValueArgument argument options = .ok options') : options'.IndexFits := by
  have hkept : ∀ {α : Type} {e : Except String α} {f : α → Options},
      (e >>= fun a => pure (f a)) = Except.ok options' →
      (∀ a, (f a).indexPulseUs = options.indexPulseUs) → options'.IndexFits := by
    intro α e f he hf
    obtain ⟨a, -, ha⟩ := bind_eq_ok.mp he
    cases ha
    rw [Options.IndexFits, hf]
    exact hfits
  unfold parseValueArgument at h
  repeat' split at h
  · exact hkept h fun _ => rfl
  · exact hkept h fun _ => rfl
  · rw [Options.IndexFits, parseSerialOption_indexPulse h]
    exact hfits
  · rw [Options.IndexFits, parseSerialOption_indexPulse h]
    exact hfits
  · exact hkept h fun _ => rfl
  · exact hkept h fun _ => rfl
  · exact hkept h fun _ => rfl
  · exact hkept h fun _ => rfl
  · obtain ⟨width, hwidth, ha⟩ := bind_eq_ok.mp h
    cases ha
    exact parseIndexOption_fits hwidth
  · cases h

/-- The Index pulse width of accepted arguments is one that the drives take. -/
theorem parseOptions_fits {arguments : List String} (hfits : options.IndexFits)
    (h : parseOptions arguments options = .ok options') : options'.IndexFits := by
  fun_induction parseOptions arguments options with
  | case1 options =>
    cases h
    exact hfits
  | case2 argument rest options hwhole ih =>
    obtain ⟨options₁, hvalue, hrest⟩ := bind_eq_ok.mp h
    exact ih options₁ (parseValueArgument_fits hfits hvalue) hrest
  | case3 argument rest options parsed hwhole ih =>
    obtain ⟨options₁, hparsed, hrest⟩ := bind_eq_ok.mp h
    exact ih options₁ (parseWholeArgument_fits hfits _ _ hwhole _ hparsed) hrest
  | case4 argument options parsed hwhole => exact parseWholeArgument_fits hfits _ _ hwhole _ h
  | case5 argument options parsed value rest hwhole ih =>
    obtain ⟨options₁, hparsed, hrest⟩ := bind_eq_ok.mp h
    exact ih options₁ (parseWholeArgument_fits hfits _ _ hwhole _ hparsed) hrest

end FK1
