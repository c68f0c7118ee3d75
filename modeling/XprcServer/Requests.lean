import XprcServer.Channels.Basic

/-!
# Parsing request lines

`requests.c`: a request line is `CHAN COMD[;key=value]...[ param[;param]...]`.  The line is not
terminated; `length` says how much of the memory behind `line` belongs to it, and memory behind
the line is read in some places (`line[length]`, and `strcmp` on an option name).

Every allocation may fail; `alloc n` is the outcome of the `n`-th one.  A failed parse destroys
the partial request, so only the error code remains.
-/

namespace XprcServer

/-- `command_option_t` -/
structure CommandOption where
  name : List UInt8
  value : List UInt8
  deriving DecidableEq, Repr

/-- `request_t` -/
structure Request where
  channelId : ChannelId
  commandName : List UInt8
  options : List CommandOption
  parameters : List (List UInt8)
  deriving DecidableEq, Repr

/-- `CHANNEL_ID_LENGTH` -/
def channelIdLength : ℕ := 4

/-- `COMMAND_NAME_LENGTH` -/
def commandNameLength : ℕ := 4

/-- `MINIMUM_REQUEST_LENGTH` -/
def minimumRequestLength : ℕ := channelIdLength + 1 + commandNameLength

/-- `PARAMETER_SEPARATOR`, `;` -/
def parameterSeparator : UInt8 := 59

/-- `OPTION_SEPARATOR`, `;` -/
def optionSeparator : UInt8 := 59

/-- `OPTION_END_OF_KEY`, `=` -/
def optionEndOfKey : UInt8 := 61

/-- `REQUEST_PART_SEPARATOR`, a space -/
def requestPartSeparator : UInt8 := 32

/-- Parsing counts the allocations made so far and stops at the first error. -/
abbrev ParseM := StateT ℕ (Except ErrorCode)

/-- One allocation. -/
def allocate (alloc : ℕ → Bool) : ParseM Unit := do
  let n ← get
  set (n + 1)
  if alloc n then return () else throw .memoryAllocation

section

variable (alloc : ℕ → Bool) (line : ℕ → UInt8) (length : ℕ)

/-- The memory behind `line + start`. -/
def lineFrom (start : ℕ) : ℕ → UInt8 := fun i => line (start + i)

/-- `add_option`.  The search for the end of the list compares all entries but the last one, and
compares the unterminated `name`. -/
def addOption (options : List CommandOption) (nameStart nameLength valueStart valueLength : ℕ) :
    ParseM (List CommandOption) :=
  if options.dropLast.any fun option => strEq (lineFrom line nameStart) option.name then
    throw .requestDuplicateOption
  else do
    allocate alloc -- the list item
    allocate alloc -- its name
    allocate alloc -- its value
    return options ++ [⟨copyPartialString (lineFrom line nameStart) nameLength,
      copyPartialString (lineFrom line valueStart) valueLength⟩]

/-- `add_parameter` -/
def addParameter (parameters : List (List UInt8)) (start parameterLength : ℕ) :
    ParseM (List (List UInt8)) := do
  allocate alloc -- the list item
  allocate alloc -- its text
  return parameters ++ [copyPartialString (lineFrom line start) parameterLength]

/-- The variables of the option loop; a start of `0` means "not seen yet". -/
structure OptionScan where
  offset : ℕ
  keyStart : ℕ
  keyLength : ℕ
  valueStart : ℕ
  options : List CommandOption

/-- The start of a key or of a value is noted at its first character. -/
def OptionScan.noteStart (s : OptionScan) : OptionScan :=
  if s.keyStart = 0 then { s with keyStart := s.offset }
  else if s.keyLength ≠ 0 ∧ s.valueStart = 0 then { s with valueStart := s.offset }
  else s

/-- An option ends: it is recorded, and the scan is ready for the next one. -/
def endOption (s : OptionScan) : ParseM OptionScan :=
  if s.keyStart = 0 ∨ s.keyLength = 0 ∨ s.valueStart = 0 then throw .requestInvalidSyntax
  else do
    let options ← addOption alloc line s.options s.keyStart s.keyLength s.valueStart
      (s.offset - s.valueStart)
    return { s with keyStart := 0, keyLength := 0, valueStart := 0, options := options }

/-- The `while` loop over the options; every pass that does not leave it advances `offset`, so
`length + 1 - offset` passes are enough. -/
def optionLoop : ℕ → OptionScan → ParseM OptionScan
  | 0, s => return s
  | fuel + 1, s =>
    if length < s.offset then return s
    else do
      let ch := line s.offset
      let isEndOfKey := s.keyLength == 0 && ch == optionEndOfKey
      let isEndOfLine := s.offset == length
      let isEndOfOptions := isEndOfLine || ch == requestPartSeparator
      let isEndOfOption := isEndOfOptions || ch == optionSeparator
      let s ← if isEndOfOption then endOption alloc line s.noteStart else pure s.noteStart
      let s := if isEndOfKey then { s with keyLength := s.offset - s.keyStart } else s
      let s := if isEndOfLine then s else { s with offset := s.offset + 1 }
      if isEndOfOptions then return s else optionLoop fuel s

/-- The `while` loop over the parameters, from `offset` on; `start = 0` means that no parameter
has been started. -/
def parameterLoop : ℕ → ℕ → ℕ → List (List UInt8) → ParseM (List (List UInt8))
  | 0, _, _, parameters => return parameters
  | fuel + 1, offset, start, parameters =>
    if length < offset then return parameters
    else do
      let isEndOfLine := offset == length
      let isEndOfParameter := isEndOfLine || line offset == parameterSeparator
      let start := if start = 0 then offset else start
      if isEndOfParameter then do
        let parameters ← addParameter alloc line parameters start (offset - start)
        if isEndOfLine then return parameters
        else parameterLoop fuel (offset + 1) 0 parameters
      else parameterLoop fuel (offset + 1) start parameters

/-- The options of a line, and the offset behind them. -/
def parseOptions : ParseM (ℕ × List CommandOption) :=
  let offset := minimumRequestLength + 1
  if line minimumRequestLength = optionSeparator then do
    let s ← optionLoop alloc line length (length + 1 - offset) ⟨offset, 0, 0, 0, []⟩
    return (s.offset, s.options)
  else return (offset, [])

/-- `parse_request` of a line of non-negative length. -/
def parseLine : ParseM Request :=
  if length < minimumRequestLength then throw .requestInvalidSyntax
  else if line channelIdLength ≠ requestPartSeparator then throw .requestInvalidSyntax
  else if minimumRequestLength < length ∧ line minimumRequestLength ≠ requestPartSeparator ∧
      line minimumRequestLength ≠ optionSeparator then
    throw .requestInvalidSyntax
  else if stringToChannelId line = badChannelId then throw .requestInvalidSyntax
  else do
    allocate alloc -- the command name
    allocate alloc -- the request
    let commandName := copyPartialString (lineFrom line (channelIdLength + 1)) commandNameLength
    let (offset, options) ← parseOptions alloc line length
    let parameters ← parameterLoop alloc line length (length + 1 - offset) offset 0 []
    return ⟨stringToChannelId line, commandName, options, parameters⟩

end

/-- `parse_request` -/
def parseRequest (alloc : ℕ → Bool) (line : Option (ℕ → UInt8)) (length : ℤ) :
    Except ErrorCode Request :=
  match line with
  | none => .error .unspecific
  | some line =>
    if length < 0 then .error .unspecific
    else (parseLine alloc line length.toNat).run' 0

end XprcServer
