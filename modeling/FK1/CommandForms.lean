import FK1.CommandLine
import FK1.Lib.Record
import Mathlib.Data.List.TakeWhile

/-!
# FK1.CommandForms

What the command line accepts, and what it means.

* `command_lines`: it is a sequence of options, each in one of its spellings, and their meanings in order.
* `endpoint_syntax`: a TCP endpoint is `host:port` or `[host]:port`; which endpoints read back as they
  are printed.
-/

namespace FK1

/-! ## Endpoints -/

theorem fromChars_iff {text : List Char} {value : Nat} :
    fromChars text = some (value, []) ↔
      text ≠ [] ∧ (∀ c ∈ text, c.isDigit = true) ∧ Nat.ofDigitChars 10 text 0 = value ∧
        value < 2 ^ 32 := by
  unfold fromChars
  dsimp only
  rw [← Nat.ofDigitChars_eq_foldl]
  constructor
  · intro h
    split at h
    · cases h
    next hfits =>
      obtain ⟨hvalue, hrest⟩ := Prod.mk.inj (Option.some.inj h)
      have hall : ∀ c ∈ text, c.isDigit = true := List.dropWhile_eq_nil_iff.mp hrest
      have htaken : text.takeWhile Char.isDigit = text := List.takeWhile_eq_self_iff.mpr hall
      rw [htaken] at hvalue hfits
      simp only [Bool.or_eq_true, List.isEmpty_iff, decide_eq_true_eq, not_or, Nat.not_le] at hfits
      exact ⟨hfits.1, hall, hvalue, hvalue ▸ hfits.2⟩
  · rintro ⟨hne, hall, hvalue, hfits⟩
    have htaken : text.takeWhile Char.isDigit = text := List.takeWhile_eq_self_iff.mpr hall
    rw [htaken, List.dropWhile_eq_nil_iff.mpr hall, hvalue, if_neg]
    simpa using ⟨hne, hfits⟩

/-- A text without `stop` before a `stop`. -/
theorem takeWhile_ne {stop : Char} {before : List Char} (h : stop ∉ before) (after : List Char) :
    (before ++ stop :: after).takeWhile (· ≠ stop) = before := by
  rw [List.takeWhile_append_of_pos]
  · simp
  · intro c hc
    simpa using ne_of_mem_of_not_mem hc h

theorem dropWhile_ne {stop : Char} {before : List Char} (h : stop ∉ before) (after : List Char) :
    (before ++ stop :: after).dropWhile (· ≠ stop) = stop :: after := by
  rw [List.dropWhile_append_of_pos]
  · simp
  · intro c hc
    simpa using ne_of_mem_of_not_mem hc h

/-- A text is split at its first `stop`. -/
theorem split_first {stop : Char} {text after : List Char}
    (h : text.dropWhile (· ≠ stop) = stop :: after) :
    text = text.takeWhile (· ≠ stop) ++ stop :: after ∧ stop ∉ text.takeWhile (· ≠ stop) := by
  refine ⟨?_, fun hmem => ?_⟩
  · rw [← h, List.takeWhile_append_dropWhile]
  · have hne := List.mem_takeWhile_imp hmem
    simp at hne

/-- In brackets, or before the only colon. -/
inductive Split (text host portText : List Char) : Prop where
  | bracketed (htext : text = '[' :: host ++ ']' :: ':' :: portText) (hhost : ']' ∉ host)
  | plain (htext : text = host ++ ':' :: portText) (hhost : ':' ∉ host) (hport : ':' ∉ portText)
    (hopen : text.head? ≠ some '[')

theorem splitEndpoint_bracketed {rest host portText : List Char} :
    splitEndpoint ('[' :: rest) = .ok (host, portText) ↔
      rest = host ++ ']' :: ':' :: portText ∧ ']' ∉ host := by
  simp only [splitEndpoint]
  constructor
  · intro h
    split at h
    next after hafter =>
      obtain ⟨hrest, hhost⟩ := split_first hafter
      obtain ⟨rfl, rfl⟩ := Prod.mk.inj (Except.ok.inj h)
      exact ⟨hrest, hhost⟩
    · cases h
  · rintro ⟨rfl, hhost⟩
    rw [dropWhile_ne hhost, takeWhile_ne hhost]
    rfl

/-- The last colon of a text that has one. -/
theorem split_last {text : List Char} (h : ':' ∈ text) :
    let portText := (text.reverse.takeWhile (· ≠ ':')).reverse
    text = text.take (text.length - (portText.length + 1)) ++ ':' :: portText ∧ ':' ∉ portText := by
  intro portText
  have hcolon : ∃ before, text.reverse.dropWhile (· ≠ ':') = ':' :: before := by
    cases hdrop : text.reverse.dropWhile (· ≠ ':') with
    | nil =>
      have hall := List.dropWhile_eq_nil_iff.mp hdrop ':' (List.mem_reverse.mpr h)
      simp at hall
    | cons c before =>
      have hc := List.head?_dropWhile_not (· ≠ ':') text.reverse
      rw [hdrop] at hc
      exact ⟨before, by simpa using hc⟩
  obtain ⟨before, hbefore⟩ := hcolon
  obtain ⟨hreverse, hfree⟩ := split_first hbefore
  have htext : text = before.reverse ++ ':' :: portText := by
    rw [← text.reverse_reverse, hreverse]
    simp [portText]
  refine ⟨?_, fun hmem => hfree (List.mem_reverse.mp hmem)⟩
  have htake : text.take (text.length - (portText.length + 1)) = before.reverse := by
    rw [htext, List.length_append, List.length_cons, Nat.add_sub_cancel, List.take_left]
  rw [htake]
  exact htext

theorem splitEndpoint_plain {text host portText : List Char} (hopen : text.head? ≠ some '[') :
    splitEndpoint text = .ok (host, portText) ↔
      text = host ++ ':' :: portText ∧ ':' ∉ host ∧ ':' ∉ portText := by
  unfold splitEndpoint
  split
  next => exact absurd rfl hopen
  next =>
    constructor
    · intro h
      split at h
      · cases h
      next hcolon =>
        have hmem : ':' ∈ text := by simpa using hcolon
        dsimp only at h
        split at h
        · cases h
        next hhost =>
          obtain ⟨rfl, rfl⟩ := Prod.mk.inj (Except.ok.inj h)
          obtain ⟨htext, hport⟩ := split_last hmem
          exact ⟨htext, by simpa using hhost, hport⟩
    · rintro ⟨htext, hhost, hport⟩
      have hmem : ':' ∈ text := by
        rw [htext]
        simp
      have hreverse : (text.reverse.takeWhile (· ≠ ':')).reverse = portText := by
        have hsplit : text.reverse = portText.reverse ++ ':' :: host.reverse := by
          rw [htext]
          simp
        rw [hsplit, takeWhile_ne (fun h => hport (List.mem_reverse.mp h)), List.reverse_reverse]
      have htake : text.take (text.length - (portText.length + 1)) = host := by
        rw [htext, List.length_append, List.length_cons, Nat.add_sub_cancel, List.take_left]
      rw [if_neg (by simpa using hmem)]
      dsimp only
      rw [hreverse, htake, if_neg (by simpa using hhost)]

theorem splitEndpoint_iff {text host portText : List Char} :
    splitEndpoint text = .ok (host, portText) ↔ Split text host portText := by
  by_cases hopen : text.head? = some '['
  · obtain ⟨rest, rfl⟩ := List.head?_eq_some_iff.mp hopen
    rw [splitEndpoint_bracketed]
    constructor
    · rintro ⟨rfl, hhost⟩
      exact .bracketed rfl hhost
    · intro h
      cases h with
      | bracketed htext hhost => exact ⟨(List.cons.inj htext).2, hhost⟩
      | plain htext hhost hport hplain => exact absurd rfl hplain
  · rw [splitEndpoint_plain hopen]
    constructor
    · rintro ⟨htext, hhost, hport⟩
      exact .plain htext hhost hport hopen
    · intro h
      cases h with
      | bracketed htext hhost => exact absurd (by rw [htext]; rfl) hopen
      | plain htext hhost hport _ => exact ⟨htext, hhost, hport⟩

/-- The text is one of the endpoint's: any digits that have its port as their value. -/
def TcpEndpoint.Written (endpoint : TcpEndpoint) (text : List Char) : Prop :=
  ∃ digits : List Char, Split text endpoint.host.toList digits ∧ digits ≠ [] ∧
    (∀ c ∈ digits, c.isDigit = true) ∧ Nat.ofDigitChars 10 digits 0 = endpoint.port

/-- A host and a port. -/
def TcpEndpoint.Valid (endpoint : TcpEndpoint) : Prop :=
  endpoint.host ≠ "" ∧ 1 ≤ endpoint.port ∧ endpoint.port ≤ 65535

theorem parseTcpEndpoint_iff {text : String} {endpoint : TcpEndpoint} :
    parseTcpEndpoint text = .ok endpoint ↔ endpoint.Written text.toList ∧ endpoint.Valid := by
  have hempty : ∀ host : List Char, host.isEmpty = true ↔ String.ofList host = "" := by
    intro host
    rw [List.isEmpty_iff, ← String.toList_inj, String.toList_ofList]
    rfl
  unfold parseTcpEndpoint
  rw [bind_eq_ok]
  constructor
  · rintro ⟨⟨host, portText⟩, hsplit, h⟩
    dsimp only at h
    split at h
    next port hport =>
      obtain ⟨hne, hdigits, hvalue, -⟩ := fromChars_iff.mp hport
      split at h
      · cases h
      next hvalid =>
        cases h
        simp only [Bool.or_eq_true, beq_iff_eq, decide_eq_true_eq, not_or, hempty] at hvalid
        obtain ⟨⟨hhost, hzero⟩, hlarge⟩ := hvalid
        refine ⟨⟨portText, ?_, hne, hdigits, hvalue⟩, hhost, ?_, ?_⟩
        · rw [String.toList_ofList]
          exact splitEndpoint_iff.mp hsplit
        · exact Nat.pos_of_ne_zero hzero
        · exact Nat.not_lt.mp hlarge
    · cases h
  · rintro ⟨⟨digits, hsplit, hne, hdigits, hvalue⟩, hhost, hpositive, hsmall⟩
    refine ⟨(endpoint.host.toList, digits), splitEndpoint_iff.mpr hsplit, ?_⟩
    have hparsed : fromChars digits = some (endpoint.port, []) :=
      fromChars_iff.mpr ⟨hne, hdigits, hvalue, by omega⟩
    dsimp only
    rw [hparsed]
    dsimp only
    rw [if_neg, String.ofList_toList]
    simp only [Bool.or_eq_true, beq_iff_eq, decide_eq_true_eq, not_or, hempty, String.ofList_toList]
    exact ⟨⟨hhost, by omega⟩, by omega⟩

/-- The text that `endpointText` gives can be read back. -/
def TcpEndpoint.Printable (endpoint : TcpEndpoint) : Prop :=
  if ':' ∈ endpoint.host.toList then ']' ∉ endpoint.host.toList
  else endpoint.host.toList.head? ≠ some '['

theorem digits_free {digits : List Char} (h : ∀ c ∈ digits, c.isDigit = true) : ':' ∉ digits :=
  fun hmem => absurd (h ':' hmem) (by decide)

theorem endpointText_toList (endpoint : TcpEndpoint) :
    (endpointText endpoint).toList =
      if ':' ∈ endpoint.host.toList then
        '[' :: endpoint.host.toList ++ ']' :: ':' :: Nat.toDigits 10 endpoint.port
      else endpoint.host.toList ++ ':' :: Nat.toDigits 10 endpoint.port := by
  unfold endpointText
  rw [String.contains_char_eq]
  simp only [decide_eq_true_eq]
  split <;> simp

theorem endpointText_written {endpoint : TcpEndpoint} (hhost : endpoint.host ≠ "") :
    endpoint.Written (endpointText endpoint).toList ↔ endpoint.Printable := by
  have hnumber : ∀ c ∈ Nat.toDigits 10 endpoint.port, c.isDigit = true := fun c hc =>
    Nat.isDigit_of_mem_toDigits (by decide) (by decide) hc
  have hwritten : ∀ {text : List Char}, Split text endpoint.host.toList (Nat.toDigits 10 endpoint.port) →
      endpoint.Written text := fun hsplit =>
    ⟨_, hsplit, Nat.toDigits_ne_nil, hnumber, Nat.ofDigitChars_ten_toDigits⟩
  obtain ⟨first, rest, hfirst⟩ : ∃ first rest, endpoint.host.toList = first :: rest :=
    List.exists_cons_of_ne_nil fun h => hhost (String.toList_inj.mp h)
  rw [endpointText_toList, TcpEndpoint.Printable]
  split
  next hcolon =>
    constructor
    · rintro ⟨digits, hsplit, -⟩
      cases hsplit with
      | bracketed _ hclosing => exact hclosing
      | plain _ hfree => exact absurd hcolon hfree
    · exact fun hclosing => hwritten (.bracketed rfl hclosing)
  next hcolon =>
    constructor
    · rintro ⟨digits, hsplit, -⟩
      cases hsplit with
      | bracketed htext _ =>
        -- The first colon comes after the host on one side, and after the bracket on the other.
        have hbracketed : ':' ∉ '[' :: endpoint.host.toList ++ [']'] := by simpa using hcolon
        have hleft := takeWhile_ne hcolon (Nat.toDigits 10 endpoint.port)
        have hright := takeWhile_ne hbracketed digits
        rw [List.append_assoc, List.singleton_append, ← htext, hleft] at hright
        have hlength := congrArg List.length hright
        simp only [List.length_append, List.length_cons, List.length_nil] at hlength
        omega
      | plain _ _ _ hopen =>
        rw [hfirst] at hopen ⊢
        exact hopen
    · intro hopen
      refine hwritten (.plain rfl hcolon (digits_free hnumber) ?_)
      rw [hfirst] at hopen ⊢
      exact hopen

/-- An endpoint is read from exactly the texts `host:digits` and `[host]:digits`, with a host and a port
from 1 to 65535. It reads back as it is printed unless its host has a colon and a closing bracket, or
begins with a bracket and has no colon. -/
theorem endpoint_syntax :
    (∀ text endpoint, parseTcpEndpoint text = .ok endpoint ↔
      endpoint.Written text.toList ∧ endpoint.Valid) ∧
      ∀ endpoint : TcpEndpoint, parseTcpEndpoint (endpointText endpoint) = .ok endpoint ↔
        endpoint.Valid ∧ endpoint.Printable := by
  refine ⟨fun text endpoint => parseTcpEndpoint_iff, fun endpoint => ?_⟩
  rw [parseTcpEndpoint_iff, and_comm]
  exact and_congr_right fun hvalid => endpointText_written hvalid.1

example : parseTcpEndpoint "[::1]:0080" = .ok { host := "::1", port := 80 } := by decide +kernel

/-! ## Options -/

/-- The options that take a value. -/
inductive OptionName where
  | rom
  | printer
  | serialListen
  | serialConnect
  | diskA
  | diskB
  | diskARw
  | diskBRw
  | indexUs
  deriving DecidableEq, Repr

namespace OptionName

def text : OptionName → String
  | .rom => "--rom"
  | .printer => "--printer"
  | .serialListen => "--serial-listen"
  | .serialConnect => "--serial-connect"
  | .diskA => "--disk-a"
  | .diskB => "--disk-b"
  | .diskARw => "--disk-a-rw"
  | .diskBRw => "--disk-b-rw"
  | .indexUs => "--index-us"

def takesPath : OptionName → Bool
  | .serialListen | .serialConnect | .indexUs => false
  | _ => true

def accepts (value : String) : OptionName → Bool
  | .serialListen | .serialConnect => (parseTcpEndpoint value).isOk
  | .indexUs => (parseIndexWidth value).isSome
  | _ => true

/-- What an option says. -/
def apply (value : String) (options : Options) : OptionName → Except String Options
  | .rom => .ok { options with romPath := some value }
  | .printer => .ok { options with printerPath := some value }
  | .serialListen => parseSerialOption value "--serial-listen" .listen options
  | .serialConnect => parseSerialOption value "--serial-connect" .connect options
  | .diskA => .ok { options with diskA := { path := some value, access := .readOnly } }
  | .diskB => .ok { options with diskB := { path := some value, access := .readOnly } }
  | .diskARw => .ok { options with diskA := { path := some value, access := .readWrite } }
  | .diskBRw => .ok { options with diskB := { path := some value, access := .readWrite } }
  | .indexUs =>
    match parseIndexWidth value with
    | none => .error indexWidthError
    | some width => .ok { options with indexPulseUs := width }

end OptionName

/-- An option as it is spelled: the value is the next argument, or joined to the name. -/
inductive Spelling where
  | help
  | shortHelp
  | romInfo
  | spaced (name : OptionName) (value : String)
  | joined (name : OptionName) (value : String)
  deriving DecidableEq, Repr

namespace Spelling

def arguments : Spelling → List String
  | .help => ["--help"]
  | .shortHelp => ["-h"]
  | .romInfo => ["--rom-info"]
  | .spaced name value => [name.text, value]
  | .joined name value => [name.text ++ "=" ++ value]

/-- Only a joined path has to be there. -/
def meaning (options : Options) : Spelling → Except String Options
  | .help | .shortHelp => .ok { options with showHelp := true }
  | .romInfo => .ok { options with showRomInfo := true }
  | .spaced name value => name.apply value options
  | .joined name value =>
    if name.takesPath && value.isEmpty then .error (name.text ++ " requires a file path")
    else name.apply value options

end Spelling

/-! ### One option -/

/-- The names of the options have no `=`. -/
theorem text_free (name : OptionName) : '=' ∉ name.text.toList := by
  cases name <;> decide

theorem text_injective {name name' : OptionName} (h : name.text = name'.text) : name = name' := by
  cases name <;> cases name' <;> first | rfl | exact absurd h (by decide)

theorem optionValue_iff {name argument value : String} :
    optionValue name argument = some value ↔ argument = name ++ "=" ++ value := by
  have hlists : argument = name ++ "=" ++ value ↔
      name.toList ++ ['='] ++ value.toList = argument.toList := by
    rw [← String.toList_inj, String.toList_append, String.toList_append]
    exact eq_comm
  rw [hlists]
  unfold optionValue
  dsimp only
  constructor
  · intro h
    split at h
    next hstart =>
      obtain ⟨after, hafter⟩ := List.isPrefixOf_iff_prefix.mp hstart
      rw [← hafter, List.drop_left] at h
      rw [← Option.some.inj h, String.toList_ofList, hafter]
    · cases h
  · intro h
    rw [← h, if_pos (List.isPrefixOf_iff_prefix.mpr ⟨_, rfl⟩), List.drop_left, String.ofList_toList]

/-- A joined option is not one of another name. -/
theorem optionValue_joined (name name' : OptionName) (value : String) :
    optionValue name'.text (name.text ++ "=" ++ value) = if name' = name then some value else none := by
  split
  next h => rw [optionValue_iff, h]
  next h =>
    rw [Option.eq_none_iff_forall_not_mem]
    intro value' hvalue'
    have hsame := congrArg String.toList (optionValue_iff.mp hvalue')
    simp only [String.toList_append, List.append_assoc] at hsame
    have hname := congrArg (List.takeWhile (· ≠ '=')) hsame
    have hleft := takeWhile_ne (text_free name) value.toList
    have hright := takeWhile_ne (text_free name') value'.toList
    have htext : name.text = name'.text :=
      String.toList_inj.mp (hleft.symm.trans (hname.trans hright))
    exact h (text_injective htext).symm

theorem parseIndexOption_apply (value : String) (options : Options) :
    (parseIndexOption (some value)).map (fun width => { options with indexPulseUs := width }) =
      OptionName.apply value options .indexUs := by
  unfold parseIndexOption OptionName.apply
  rw [Option.bind_some]
  cases parseIndexWidth value <;> rfl

theorem parseWholeArgument_spaced (name : OptionName) (value : String) (options : Options) :
    parseWholeArgument name.text (some value) options = some (name.apply value options, true) := by
  cases name with
  | indexUs =>
    rw [← parseIndexOption_apply]
    rfl
  | _ => rfl

theorem parseWholeArgument_joined {argument : String} (h : '=' ∈ argument.toList)
    (next : Option String) (options : Options) : parseWholeArgument argument next options = none := by
  have hother : ∀ name : String, '=' ∉ name.toList → (argument == name) = false := by
    intro name hname
    rw [beq_eq_false_iff_ne]
    rintro rfl
    exact hname h
  simp only [parseWholeArgument, hother "--help" (by decide), hother "-h" (by decide),
    hother "--rom-info" (by decide), hother "--rom" (by decide), hother "--printer" (by decide),
    hother "--serial-listen" (by decide), hother "--serial-connect" (by decide),
    hother "--disk-a" (by decide), hother "--disk-b" (by decide), hother "--disk-a-rw" (by decide),
    hother "--disk-b-rw" (by decide), hother "--index-us" (by decide), Bool.or_self,
    Bool.false_eq_true, if_false]

theorem parseValueArgument_joined (name : OptionName) (value : String) (options : Options) :
    parseValueArgument (name.text ++ "=" ++ value) options =
      (Spelling.joined name value).meaning options := by
  have hvalue := fun name' => optionValue_joined name name' value
  generalize name.text ++ "=" ++ value = argument at hvalue ⊢
  have hrom : optionValue "--rom" argument = _ := hvalue .rom
  have hprinter : optionValue "--printer" argument = _ := hvalue .printer
  have hlisten : optionValue "--serial-listen" argument = _ := hvalue .serialListen
  have hconnect : optionValue "--serial-connect" argument = _ := hvalue .serialConnect
  have hreadA : optionValue "--disk-a" argument = _ := hvalue .diskA
  have hreadB : optionValue "--disk-b" argument = _ := hvalue .diskB
  have hwriteA : optionValue "--disk-a-rw" argument = _ := hvalue .diskARw
  have hwriteB : optionValue "--disk-b-rw" argument = _ := hvalue .diskBRw
  have hindex : optionValue "--index-us" argument = _ := hvalue .indexUs
  have hpath : ∀ (text : String) (f : Path → Options),
      (parsePathValue text value >>= fun path => pure (f path)) =
        if value.isEmpty then .error (text ++ " requires a file path") else .ok (f value) := by
    intro text f
    unfold parsePathValue
    split <;> rfl
  have hdisk : ∀ (text : String) (access : FloppyAccess) (f : MountedDisk → Options),
      (parseDiskOptionValue value text access >>= fun disk => pure (f disk)) =
        if value.isEmpty then .error (text ++ " requires a file path")
        else .ok (f { path := some value, access := access }) := by
    intro text access f
    unfold parseDiskOptionValue parsePathValue
    split <;> rfl
  have hindexed : ∀ (parsed : Except String Nat) (f : Nat → Options),
      (parsed >>= fun width => pure (f width)) = parsed.map f := by
    intro parsed f
    cases parsed <;> rfl
  unfold parseValueArgument
  rw [hrom, hprinter, hlisten, hconnect, hreadA, hreadB, hwriteA, hwriteB, hindex]
  cases name with
  | rom => exact hpath "--rom" _
  | printer => exact hpath "--printer" _
  | serialListen => rfl
  | serialConnect => rfl
  | diskA => exact hdisk "--disk-a" .readOnly _
  | diskB => exact hdisk "--disk-b" .readOnly _
  | diskARw => exact hdisk "--disk-a-rw" .readWrite _
  | diskBRw => exact hdisk "--disk-b-rw" .readWrite _
  | indexUs => exact (hindexed _ _).trans (parseIndexOption_apply value options)

/-! ### The whole line -/

theorem parse_spelling (spelling : Spelling) (rest : List String) (options : Options) :
    parseOptions (spelling.arguments ++ rest) options =
      spelling.meaning options >>= parseOptions rest := by
  cases spelling with
  | help | shortHelp | romInfo => rfl
  | spaced name value =>
    have hwhole := parseWholeArgument_spaced name value options
    show parseOptions (name.text :: value :: rest) options = _
    rw [parseOptions, List.head?_cons, hwhole]
    rfl
  | joined name value =>
    have hequals : '=' ∈ (name.text ++ "=" ++ value).toList := by simp
    show parseOptions ((name.text ++ "=" ++ value) :: rest) options = _
    rw [parseOptions, parseWholeArgument_joined hequals]
    show parseValueArgument _ options >>= parseOptions rest = _
    rw [parseValueArgument_joined]

/-- The meanings in order, up to the first that is an error. -/
theorem parse_spellings (spellings : List Spelling) (options : Options) :
    parseOptions (spellings.flatMap Spelling.arguments) options =
      spellings.foldlM Spelling.meaning options := by
  induction spellings generalizing options with
  | nil => rfl
  | cons spelling spellings ih =>
    rw [List.flatMap_cons, parse_spelling, List.foldlM_cons]
    exact congrArg _ (funext ih)

theorem parseWholeArgument_flag {argument : String} {next : Option String} {options : Options}
    {parsed : Except String Options}
    (h : parseWholeArgument argument next options = some (parsed, false)) :
    ∃ spelling : Spelling, spelling.arguments = [argument] := by
  unfold parseWholeArgument at h
  split at h
  next hhelp =>
    obtain rfl | rfl : argument = "--help" ∨ argument = "-h" := by simpa using hhelp
    · exact ⟨.help, rfl⟩
    · exact ⟨.shortHelp, rfl⟩
  next =>
    split at h
    next hinfo => exact ⟨.romInfo, congrArg (fun text => [text]) (eq_of_beq hinfo).symm⟩
    next =>
      repeat' split at h
      all_goals cases h

/-- An option that takes the next argument is one of the names, and fails if there is none. -/
def TakesNext (argument : String) (next : Option String)
    (whole : Option (Except String Options × Bool)) : Prop :=
  ∀ parsed, whole = some (parsed, true) →
    (∃ name : OptionName, name.text = argument) ∧ (next = none → ∃ error, parsed = .error error)

theorem parseWholeArgument_name (argument : String) (next : Option String) (options : Options) :
    TakesNext argument next (parseWholeArgument argument next options) := by
  have hflag : ∀ options' : Options, TakesNext argument next (some (.ok options', false)) := by
    rintro options' parsed ⟨⟩
  have hname : ∀ (name : OptionName) {parsed : Except String Options},
      (argument == name.text) = true → (next = none → ∃ error, parsed = .error error) →
      TakesNext argument next (some (parsed, true)) := by
    rintro name parsed hargument hmissing _ ⟨⟩
    exact ⟨⟨name, (eq_of_beq hargument).symm⟩, hmissing⟩
  unfold parseWholeArgument
  refine iteInduction (fun _ => hflag _) fun _ => ?_
  refine iteInduction (fun _ => hflag _) fun _ => ?_
  refine iteInduction (fun h => hname .rom h ?_) fun _ => ?_
  · rintro rfl
    exact ⟨_, rfl⟩
  refine iteInduction (fun h => hname .printer h ?_) fun _ => ?_
  · rintro rfl
    exact ⟨_, rfl⟩
  refine iteInduction (fun h => ?_) fun _ => ?_
  · obtain hlisten | hconnect := Bool.or_eq_true_iff.mp h
    · refine hname .serialListen hlisten ?_
      rintro rfl
      exact ⟨_, rfl⟩
    · refine hname .serialConnect hconnect ?_
      rintro rfl
      exact ⟨_, rfl⟩
  refine iteInduction (fun h => hname .diskA h ?_) fun _ => ?_
  · rintro rfl
    exact ⟨_, rfl⟩
  refine iteInduction (fun h => hname .diskB h ?_) fun _ => ?_
  · rintro rfl
    exact ⟨_, rfl⟩
  refine iteInduction (fun h => hname .diskARw h ?_) fun _ => ?_
  · rintro rfl
    exact ⟨_, rfl⟩
  refine iteInduction (fun h => hname .diskBRw h ?_) fun _ => ?_
  · rintro rfl
    exact ⟨_, rfl⟩
  refine iteInduction (fun h => hname .indexUs h ?_) fun _ => ?_
  · rintro rfl
    exact ⟨_, rfl⟩
  intro parsed h
  cases h

theorem parseValueArgument_name {argument : String} {options options' : Options}
    (h : parseValueArgument argument options = .ok options') :
    ∃ (name : OptionName) (value : String), argument = name.text ++ "=" ++ value := by
  unfold parseValueArgument at h
  split at h
  next value hvalue => exact ⟨.rom, value, optionValue_iff.mp hvalue⟩
  split at h
  next value hvalue => exact ⟨.printer, value, optionValue_iff.mp hvalue⟩
  split at h
  next value hvalue => exact ⟨.serialListen, value, optionValue_iff.mp hvalue⟩
  split at h
  next value hvalue => exact ⟨.serialConnect, value, optionValue_iff.mp hvalue⟩
  split at h
  next value hvalue => exact ⟨.diskA, value, optionValue_iff.mp hvalue⟩
  split at h
  next value hvalue => exact ⟨.diskB, value, optionValue_iff.mp hvalue⟩
  split at h
  next value hvalue => exact ⟨.diskARw, value, optionValue_iff.mp hvalue⟩
  split at h
  next value hvalue => exact ⟨.diskBRw, value, optionValue_iff.mp hvalue⟩
  split at h
  next value hvalue => exact ⟨.indexUs, value, optionValue_iff.mp hvalue⟩
  cases h

theorem spelled_of_accepted {arguments : List String} {options options' : Options}
    (h : parseOptions arguments options = .ok options') :
    ∃ spellings : List Spelling, arguments = spellings.flatMap Spelling.arguments := by
  fun_induction parseOptions arguments options with
  | case1 options => exact ⟨[], rfl⟩
  | case2 argument rest options hwhole ih =>
    obtain ⟨options₁, hvalue, hrest⟩ := bind_eq_ok.mp h
    obtain ⟨name, value, rfl⟩ := parseValueArgument_name hvalue
    obtain ⟨spellings, rfl⟩ := ih options₁ hrest
    exact ⟨.joined name value :: spellings, rfl⟩
  | case3 argument rest options parsed hwhole ih =>
    obtain ⟨options₁, -, hrest⟩ := bind_eq_ok.mp h
    obtain ⟨spelling, hspelling⟩ := parseWholeArgument_flag hwhole
    obtain ⟨spellings, rfl⟩ := ih options₁ hrest
    exact ⟨spelling :: spellings, by rw [List.flatMap_cons, hspelling]; rfl⟩
  | case4 argument options parsed hwhole =>
    obtain ⟨error, rfl⟩ := (parseWholeArgument_name argument none options parsed hwhole).2 rfl
    cases h
  | case5 argument options parsed value rest hwhole ih =>
    obtain ⟨options₁, -, hrest⟩ := bind_eq_ok.mp h
    obtain ⟨⟨name, rfl⟩, -⟩ := parseWholeArgument_name argument (some value) options parsed hwhole
    obtain ⟨spellings, rfl⟩ := ih options₁ hrest
    exact ⟨.spaced name value :: spellings, rfl⟩

/-! ### What an accepted line says -/

namespace Spelling

def named : Spelling → Option (OptionName × String)
  | .spaced name value | .joined name value => some (name, value)
  | _ => none

def romPath (spelling : Spelling) : Option Path :=
  match spelling.named with
  | some (.rom, value) => some value
  | _ => none

def printerPath (spelling : Spelling) : Option Path :=
  match spelling.named with
  | some (.printer, value) => some value
  | _ => none

def diskA (spelling : Spelling) : Option MountedDisk :=
  match spelling.named with
  | some (.diskA, value) => some { path := some value, access := .readOnly }
  | some (.diskARw, value) => some { path := some value, access := .readWrite }
  | _ => none

def diskB (spelling : Spelling) : Option MountedDisk :=
  match spelling.named with
  | some (.diskB, value) => some { path := some value, access := .readOnly }
  | some (.diskBRw, value) => some { path := some value, access := .readWrite }
  | _ => none

def indexPulseUs (spelling : Spelling) : Option Nat :=
  match spelling.named with
  | some (.indexUs, value) => parseIndexWidth value
  | _ => none

def serial (spelling : Spelling) : Option (TcpSerialMode × TcpEndpoint) :=
  match spelling.named with
  | some (.serialListen, value) => (parseTcpEndpoint value).toOption.map (TcpSerialMode.listen, ·)
  | some (.serialConnect, value) => (parseTcpEndpoint value).toOption.map (TcpSerialMode.connect, ·)
  | _ => none

def showsHelp : Spelling → Bool
  | .help | .shortHelp => true
  | _ => false

def showsRomInfo : Spelling → Bool
  | .romInfo => true
  | _ => false

/-- The value is one of its option; a joined path is not empty. -/
def valid : Spelling → Bool
  | .spaced name value => name.accepts value
  | .joined name value => name.accepts value && !(name.takesPath && value.isEmpty)
  | _ => true

/-- The options after one more. -/
def change (options : Options) (spelling : Spelling) : Options :=
  { romPath := (spelling.romPath.map some).getD options.romPath
    printerPath := (spelling.printerPath.map some).getD options.printerPath
    serialEndpoint := (spelling.serial.map fun given => some given.2).getD options.serialEndpoint
    serialMode := (spelling.serial.map Prod.fst).getD options.serialMode
    diskA := spelling.diskA.getD options.diskA
    diskB := spelling.diskB.getD options.diskB
    indexPulseUs := spelling.indexPulseUs.getD options.indexPulseUs
    showHelp := options.showHelp || spelling.showsHelp
    showRomInfo := options.showRomInfo || spelling.showsRomInfo }

end Spelling

theorem parseSerialOption_iff {value name : String} {mode : TcpSerialMode} {options options' : Options} :
    parseSerialOption value name mode options = .ok options' ↔
      options.serialEndpoint = none ∧ ∃ endpoint, parseTcpEndpoint value = .ok endpoint ∧
        options' = { options with serialEndpoint := some endpoint, serialMode := mode } := by
  unfold parseSerialOption
  cases hgiven : options.serialEndpoint with
  | some endpoint => simp
  | none =>
    cases parseTcpEndpoint value with
    | error error => simp
    | ok endpoint => simp [eq_comm]

theorem apply_iff {spelling : Spelling} {name : OptionName} {value : String} {options options' : Options}
    (hnamed : spelling.named = some (name, value)) :
    name.apply value options = .ok options' ↔
      name.accepts value = true ∧ (spelling.serial.isSome = true → options.serialEndpoint = none) ∧
        options' = spelling.change options := by
  have hflags : spelling.showsHelp = false ∧ spelling.showsRomInfo = false := by
    cases spelling with
    | help | shortHelp | romInfo => cases hnamed
    | spaced | joined => exact ⟨rfl, rfl⟩
  have hok : ∀ {result : Options}, (.ok result : Except String Options) = .ok options' ↔
      options' = result := fun {result} => ⟨fun h => (Except.ok.inj h).symm, fun h => h ▸ rfl⟩
  unfold Spelling.change Spelling.romPath Spelling.printerPath Spelling.diskA Spelling.diskB
    Spelling.indexPulseUs Spelling.serial
  rw [hnamed, hflags.1, hflags.2]
  cases name with
  | serialListen =>
    refine parseSerialOption_iff.trans ?_
    unfold OptionName.accepts
    dsimp only
    cases parseTcpEndpoint value with
    | error error => simp [Except.isOk, Except.toBool]
    | ok endpoint => simp [Except.isOk, Except.toBool, Except.toOption]
  | serialConnect =>
    refine parseSerialOption_iff.trans ?_
    unfold OptionName.accepts
    dsimp only
    cases parseTcpEndpoint value with
    | error error => simp [Except.isOk, Except.toBool]
    | ok endpoint => simp [Except.isOk, Except.toBool, Except.toOption]
  | indexUs =>
    unfold OptionName.apply OptionName.accepts
    dsimp only
    cases parseIndexWidth value with
    | none => simp
    | some width => simp [hok]
  | _ => simp [OptionName.apply, OptionName.accepts, hok]

theorem meaning_iff {spelling : Spelling} {options options' : Options} :
    spelling.meaning options = .ok options' ↔
      spelling.valid = true ∧ (spelling.serial.isSome = true → options.serialEndpoint = none) ∧
        options' = spelling.change options := by
  have hok : ∀ {result : Options}, (.ok result : Except String Options) = .ok options' ↔
      options' = result := fun {result} => ⟨fun h => (Except.ok.inj h).symm, fun h => h ▸ rfl⟩
  cases spelling with
  | help | shortHelp | romInfo =>
    refine hok.trans ?_
    simp [Spelling.valid, Spelling.serial, Spelling.named, Spelling.change, Spelling.romPath,
      Spelling.printerPath, Spelling.diskA, Spelling.diskB, Spelling.indexPulseUs, Spelling.showsHelp,
      Spelling.showsRomInfo]
  | spaced name value => exact apply_iff rfl
  | joined name value =>
    show (if name.takesPath && value.isEmpty then _ else _) = _ ↔ _
    have happly := @apply_iff (.joined name value) name value options options' rfl
    cases hmissing : name.takesPath && value.isEmpty with
    | true => simp [Spelling.valid, hmissing]
    | false =>
      rw [if_neg Bool.false_ne_true, happly, Spelling.valid, hmissing, Bool.not_false, Bool.and_true]

/-- The options that a line says: what it says last of each, and the flags it has. -/
def settings (spellings : List Spelling) : Options :=
  { romPath := Run.last (fun spelling => spelling.romPath.map some) none spellings
    printerPath := Run.last (fun spelling => spelling.printerPath.map some) none spellings
    serialEndpoint :=
      Run.last (fun spelling => spelling.serial.map fun given => some given.2) none spellings
    serialMode := Run.last (fun spelling => spelling.serial.map Prod.fst) .listen spellings
    diskA := Run.last Spelling.diskA {} spellings
    diskB := Run.last Spelling.diskB {} spellings
    indexPulseUs := Run.last Spelling.indexPulseUs 1700 spellings
    showHelp := spellings.any Spelling.showsHelp
    showRomInfo := spellings.any Spelling.showsRomInfo }

theorem settings_eq (spellings : List Spelling) :
    spellings.foldl Spelling.change {} = settings spellings := by
  have hfold : ∀ options : Options, spellings.foldl Spelling.change options =
      { romPath := Run.last (fun spelling => spelling.romPath.map some) options.romPath spellings
        printerPath :=
          Run.last (fun spelling => spelling.printerPath.map some) options.printerPath spellings
        serialEndpoint := Run.last (fun spelling => spelling.serial.map fun given => some given.2)
          options.serialEndpoint spellings
        serialMode :=
          Run.last (fun spelling => spelling.serial.map Prod.fst) options.serialMode spellings
        diskA := Run.last Spelling.diskA options.diskA spellings
        diskB := Run.last Spelling.diskB options.diskB spellings
        indexPulseUs := Run.last Spelling.indexPulseUs options.indexPulseUs spellings
        showHelp := options.showHelp || spellings.any Spelling.showsHelp
        showRomInfo := options.showRomInfo || spellings.any Spelling.showsRomInfo } := by
    induction spellings with
    | nil => simp [Run.last]
    | cons spelling spellings ih =>
      intro options
      rw [List.foldl_cons, ih]
      simp only [Spelling.change, Run.last_cons, List.any_cons, Bool.or_assoc]
  rw [hfold]
  simp [settings]

/-- The options of an accepted line, by what is spelled. -/
theorem meanings_iff {spellings : List Spelling} {options options' : Options} :
    spellings.foldlM Spelling.meaning options = .ok options' ↔
      (∀ spelling ∈ spellings, spelling.valid = true) ∧
        spellings.countP (fun spelling => spelling.serial.isSome) + options.serialEndpoint.toList.length
          ≤ 1 ∧
        options' = spellings.foldl Spelling.change options := by
  induction spellings generalizing options with
  | nil =>
    have hgiven : options.serialEndpoint.toList.length ≤ 1 := by
      cases options.serialEndpoint <;> simp
    simp only [List.foldlM_nil, List.not_mem_nil, false_implies, implies_true, true_and,
      List.countP_nil, Nat.zero_add, hgiven, List.foldl_nil]
    exact ⟨fun h => (Except.ok.inj h).symm, fun h => h ▸ rfl⟩
  | cons spelling spellings ih =>
    rw [List.foldlM_cons, bind_eq_ok, List.forall_mem_cons, List.foldl_cons, List.countP_cons]
    have hserial : (spelling.change options).serialEndpoint =
        (spelling.serial.map fun given => some given.2).getD options.serialEndpoint := rfl
    constructor
    · rintro ⟨options₁, hfirst, hrest⟩
      obtain ⟨hvalid, hfree, rfl⟩ := meaning_iff.mp hfirst
      obtain ⟨hvalids, hcount, hresult⟩ := ih.mp hrest
      refine ⟨⟨hvalid, hvalids⟩, ?_, hresult⟩
      rw [hserial] at hcount
      cases hgiven : spelling.serial with
      | none => simpa [hgiven] using hcount
      | some given =>
        have hnone := hfree (by rw [hgiven]; rfl)
        simpa [hgiven, hnone] using hcount
    · rintro ⟨⟨hvalid, hvalids⟩, hcount, hresult⟩
      have hfree : spelling.serial.isSome = true → options.serialEndpoint = none := by
        intro hgiven
        rw [if_pos hgiven] at hcount
        cases hendpoint : options.serialEndpoint with
        | none => rfl
        | some endpoint =>
          rw [hendpoint] at hcount
          simp at hcount
      refine ⟨spelling.change options, meaning_iff.mpr ⟨hvalid, hfree, rfl⟩,
        ih.mpr ⟨hvalids, ?_, hresult⟩⟩
      rw [hserial]
      cases hgiven : spelling.serial with
      | none => simpa [hgiven] using hcount
      | some given =>
        have hnone := hfree (by rw [hgiven]; rfl)
        simpa [hgiven, hnone] using hcount

/-- The accepted command lines are the sequences of options, each in any of its spellings, with valid
values and at most one serial endpoint; the result is what is said last of each. The result of any
sequence, also its error text, is that of the meanings in order. -/
theorem command_lines :
    (∀ (spellings : List Spelling) (options : Options),
      parseOptions (spellings.flatMap Spelling.arguments) options =
        spellings.foldlM Spelling.meaning options) ∧
      ∀ (arguments : List String) (options : Options),
        parseOptions arguments {} = .ok options ↔
          ∃ spellings : List Spelling, arguments = spellings.flatMap Spelling.arguments ∧
            (∀ spelling ∈ spellings, spelling.valid = true) ∧
            spellings.countP (fun spelling => spelling.serial.isSome) ≤ 1 ∧
            options = settings spellings := by
  have hmeanings : ∀ (spellings : List Spelling) (options : Options),
      spellings.foldlM Spelling.meaning {} = .ok options ↔
        (∀ spelling ∈ spellings, spelling.valid = true) ∧
          spellings.countP (fun spelling => spelling.serial.isSome) ≤ 1 ∧
          options = settings spellings := by
    intro spellings options
    rw [meanings_iff, settings_eq]
    rfl
  refine ⟨parse_spellings, fun arguments options => ⟨fun h => ?_, ?_⟩⟩
  · obtain ⟨spellings, rfl⟩ := spelled_of_accepted h
    rw [parse_spellings] at h
    exact ⟨spellings, rfl, (hmeanings spellings options).mp h⟩
  · rintro ⟨spellings, rfl, h⟩
    rw [parse_spellings]
    exact (hmeanings spellings options).mpr h

end FK1
