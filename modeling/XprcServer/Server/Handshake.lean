import XprcServer.Network.Receive
import XprcServer.Requests
import XprcServer.Server.HandleRequest

/-!
# The handshake

`on_line_received`: the first line of a client is its protocol version, the second one the
password, and all others are requests.  A line is not terminated; `atoi` reads on behind it.

The lines come from the receive loop (`Receiver.receive`), and the outcome of every call into the
C library and of every transmission is arbitrary.

* `version_text` : a version line that is accepted with the version of the server is `v1`;
* `handshake_guards_requests` : a request is parsed only after the version and the password were
  received, and what follows these two lines does not change the outcome.
-/

namespace XprcServer

open Lib

/-- `SESSION_PHASE_*` -/
inductive SessionPhase where
  | awaitVersion
  | awaitPassword
  | failed
  | loggedIn
  deriving DecidableEq, Repr

/-- `SERVER_PROTOCOL_VERSION` -/
def serverProtocolVersion : ℤ := 1

/-- `HANDSHAKE_COMPLETION_BUFFER_SIZE` -/
def handshakeCompletionBufferSize : ℕ := 50

/-! ### Passwords -/

/-- The character classes that `validate_password` counts. -/
structure PasswordCounts where
  numLowerCase : ℕ
  numUpperCase : ℕ
  numNumbers : ℕ
  numSpecial : ℕ

/-- The loop of `validate_password`; line ends are reserved characters. -/
def countPassword : List UInt8 → PasswordCounts → Option PasswordCounts
  | [], counts => some counts
  | ch :: chs, counts =>
    if 97 ≤ ch ∧ ch ≤ 122 then
      countPassword chs { counts with numLowerCase := counts.numLowerCase + 1 }
    else if 65 ≤ ch ∧ ch ≤ 90 then
      countPassword chs { counts with numUpperCase := counts.numUpperCase + 1 }
    else if 48 ≤ ch ∧ ch ≤ 57 then
      countPassword chs { counts with numNumbers := counts.numNumbers + 1 }
    else if ch = 13 ∨ ch = 10 then none
    else countPassword chs { counts with numSpecial := counts.numSpecial + 1 }

/-- `validate_password` -/
def validatePassword : Option (List UInt8) → Bool
  | none => false
  | some password =>
    if strlen password < 15 ∨ 1000 < strlen password then false
    else
      match countPassword (cString password) ⟨0, 0, 0, 0⟩ with
      | none => false
      | some counts => 3 ≤ counts.numLowerCase && 3 ≤ counts.numUpperCase &&
          2 ≤ counts.numNumbers && 1 ≤ counts.numSpecial

/-! ### The C library -/

/-- What the C library decides. -/
structure Library where
  /-- `atoi` on a number that is no `int` -/
  atoiOverflow : ℤ → ℤ
  /-- `strftime` for the time in seconds; nothing if it returns 0 -/
  strftime : ℤ → Option (List UInt8)
  /-- The result of `snprintf` on the text to write -/
  snprintf : List UInt8 → ℤ
  /-- The outcomes of the allocations for the `n`-th request -/
  alloc : ℕ → ℕ → Bool

/-- The string at an address, as far as it lies in `n` bytes of memory. -/
def stringAt : ℕ → (ℕ → UInt8) → List UInt8
  | 0, _ => []
  | n + 1, p => if p 0 = 0 then [] else p 0 :: stringAt n fun i => p (i + 1)

/-- `isspace` -/
def isSpace (ch : UInt8) : Bool := ch = 32 || (9 ≤ ch && ch ≤ 13)

/-- `isdigit` -/
def isDigit (ch : UInt8) : Bool := 48 ≤ ch && ch ≤ 57

/-- The value of the decimal digits at the start of a text. -/
def digitsValue (s : List UInt8) : ℤ :=
  (s.takeWhile isDigit).foldl (fun value ch => 10 * value + (ch.toNat - 48 : ℕ)) 0

/-- `atoi`: white space is skipped, and a sign may stand before the digits. -/
def atoi (lib : Library) (s : List UInt8) : ℤ :=
  let s := s.dropWhile isSpace
  let value := match s with
    | 45 :: s => -digitsValue s
    | 43 :: s => digitsValue s
    | s => digitsValue s
  if -2 ^ 31 ≤ value ∧ value < 2 ^ 31 then value else toInt32 (lib.atoiOverflow value)

/-- `!strncmp(p, s, n)` for a pointer `p` into memory and an allocated string `s`. -/
def strncmpEq (p : ℕ → UInt8) : List UInt8 → ℕ → Bool
  | _, 0 => true
  | [], _ + 1 => p 0 == 0
  | c :: cs, n + 1 => p 0 == c && (c == 0 || strncmpEq (fun i => p (i + 1)) cs n)

/-- `%03d` -/
def threeDigits (n : ℕ) : List UInt8 :=
  List.replicate (3 - (decimal n).length) 48 ++ decimal n

/-! ### The code -/

/-- The fields of a session that the handshake works on, and the lines it has handed to
`parse_request`. -/
structure ServerSession (μ : Type) where
  world : World μ
  phase : SessionPhase
  clientVersion : ℤ
  referenceTime : Timespec
  requests : List (List UInt8)

namespace ServerSession

variable {μ : Type}

/-- A session as `new_connection` leaves it. -/
def start (w : World μ) : ServerSession μ where
  world := w
  phase := .awaitVersion
  clientVersion := 0
  referenceTime := ⟨0, 0⟩
  requests := []

/-- Code that works on the rest of the session. -/
def exec {α : Type} (s : ServerSession μ) (p : M μ α) : ServerSession μ :=
  { s with world := (p.run s.world).state }

/-- The handshake fails, and the connection is closed. -/
def fail (s : ServerSession μ) : ServerSession μ :=
  { s with phase := .failed }.exec Server.closeNetworkConnection

/-- The handshake fails with a message to the client. -/
def failWith (s : ServerSession μ) (text : String) : ServerSession μ :=
  (({ s with phase := .failed }).exec (Session.sendToNetwork (bytes text))).exec
    Server.closeNetworkConnection

/-- The phase `SESSION_PHASE_AWAIT_VERSION` -/
def receiveVersion (lib : Library) (s : ServerSession μ) (line : ℕ → UInt8) (length : ℕ) :
    ServerSession μ :=
  if length < 2 ∨ line 0 ≠ 118 then s.fail
  else
    let s := { s with
      clientVersion := atoi lib (stringAt receiveMaxLineLength fun i => line (i + 1)) }
    if numDigits s.clientVersion ≠ length - 1 then s.fail
    else { s with phase := .awaitPassword }

/-- The text that completes the handshake. -/
def completionText (coarseTimestamp : List UInt8) (referenceTime : Timespec) : List UInt8 :=
  bytes "v1;OK;" ++ coarseTimestamp ++ [46] ++
    threeDigits (referenceTime.nsec.tdiv 1000000).toNat ++ bytes "+00:00\n"

/-- The completion of the handshake is sent. -/
def sendCompletion (lib : Library) (s : ServerSession μ) (text : List UInt8) : ServerSession μ :=
  if lib.snprintf text < 0 ∨ handshakeCompletionBufferSize ≤ lib.snprintf text then
    s.failWith "v1;ERR:internal server error\n"
  else
    let send := Session.sendToNetwork (text.take (handshakeCompletionBufferSize - 1))
    if (send.run s.world).val ≠ .none then (s.exec send).fail
    else { s.exec send with phase := .loggedIn }

/-- The end of the phase `SESSION_PHASE_AWAIT_PASSWORD`, after the checks of what the client sent:
the reference time is set. -/
def completeHandshake (lib : Library) (s : ServerSession μ) : ServerSession μ :=
  let timespecGet : M μ (Option Timespec) := ask fun env tick => env.clock tick
  match (timespecGet.run s.world).val with
  | none => (s.exec timespecGet).failWith "v1;ERR:internal server error\n"
  | some referenceTime =>
    let s := { s.exec timespecGet with referenceTime := referenceTime }
    let s := s.exec (Logged.update fun w =>
      { w with referenceMillis := millisOfTimespec referenceTime })
    if millisOfTimespec referenceTime < 0 then s.failWith "v1;ERR:internal server error\n"
    else
      match lib.strftime referenceTime.sec with
      | none => s.failWith "v1;ERR:internal server error\n"
      | some coarseTimestamp => s.sendCompletion lib (completionText coarseTimestamp referenceTime)

/-- The phase `SESSION_PHASE_AWAIT_PASSWORD` -/
def receivePassword (lib : Library) (password : List UInt8) (s : ServerSession μ)
    (line : ℕ → UInt8) (length : ℕ) : ServerSession μ :=
  let expectedPasswordLength := toInt32 (strlen password)
  if length = 0 then s.fail
  else if length ≠ expectedPasswordLength ∨
      strncmpEq line password expectedPasswordLength.toNat = false then s.fail
  else if s.clientVersion ≠ serverProtocolVersion then
    s.failWith "v1;ERR:unsupported protocol version\n"
  else s.completeHandshake lib

/-- The phase `SESSION_PHASE_LOGGED_IN` -/
def receiveRequest (cmds : Commands μ) (lib : Library) (s : ServerSession μ) (line : ℕ → UInt8)
    (length : ℕ) : ServerSession μ :=
  let alloc := lib.alloc s.requests.length
  let s := { s with requests := s.requests ++ [copyPartialString line length] }
  match parseRequest alloc (some line) length with
  | .error _ => s.exec (Server.sendTimestamped fun timestamp =>
      bytes "*ERR " ++ decimalInt timestamp ++ bytes " invalid syntax\n")
  | .ok request => s.exec (Server.handleRequest cmds request)

/-- `on_line_received` -/
def onLineReceived (cmds : Commands μ) (lib : Library) (password : List UInt8)
    (s : ServerSession μ) (line : ℕ → UInt8) (length : ℕ) : ServerSession μ :=
  match s.phase with
  | .loggedIn => s.receiveRequest cmds lib line length
  | .failed => s
  | .awaitVersion => s.receiveVersion lib line length
  | .awaitPassword => s.receivePassword lib password line length

end ServerSession

/-! ### What the checks accept -/

theorem digitsValue_single (c : UInt8) :
    digitsValue [c] = if isDigit c then ((c.toNat - 48 : ℕ) : ℤ) else 0 := by
  by_cases h : isDigit c <;> simp [digitsValue, h]

theorem isDigit_iff (c : UInt8) : isDigit c = true ↔ 48 ≤ c.toNat ∧ c.toNat ≤ 57 := by
  simp [isDigit, UInt8.le_iff_toNat_le]

/-- One character is read as the number one only if it is the digit. -/
theorem atoi_single (lib : Library) {c : UInt8} (h : atoi lib [c] = 1) : c = 49 := by
  have hnone : digitsValue [] = 0 := rfl
  by_cases hspace : isSpace c
  · simp [atoi, hspace, hnone] at h
  by_cases hminus : c = 45
  · simp [atoi, hminus, hnone, isSpace] at h
  by_cases hplus : c = 43
  · simp [atoi, hplus, hnone, isSpace] at h
  have hvalue : (match [c] with
      | 45 :: s => -digitsValue s
      | 43 :: s => digitsValue s
      | s => digitsValue s) = digitsValue [c] := by
    split
    · simp_all
    · simp_all
    · rfl
  by_cases hdigit : isDigit c
  · have hrange := (isDigit_iff c).1 hdigit
    simp only [atoi, hspace, List.dropWhile_cons, Bool.false_eq_true, ↓reduceIte, hvalue,
      digitsValue_single, hdigit] at h
    rw [if_pos (by omega)] at h
    apply UInt8.toNat_inj.1
    change c.toNat = 49
    omega
  · simp [atoi, hspace, hvalue, digitsValue_single, hdigit] at h

theorem strncmpEq_strlen {p : ℕ → UInt8} {s : List UInt8}
    (h : strncmpEq p s (strlen s) = true) : copyPartialString p (strlen s) = cString s := by
  induction s generalizing p with
  | nil => rfl
  | cons c cs ih =>
    by_cases hc : c = 0
    · simp [strlen, cString, hc, copyPartialString]
    · have hstring : cString (c :: cs) = c :: cString cs := by simp [cString, hc]
      have hlength : strlen (c :: cs) = strlen cs + 1 := by simp [strlen, hstring]
      rw [hlength] at h ⊢
      simp only [strncmpEq, beq_eq_false_iff_ne.2 hc, Bool.false_or, Bool.and_eq_true,
        beq_iff_eq] at h
      have hrest := ih h.2
      simp only [copyPartialString] at hrest ⊢
      rw [List.range_succ_eq_map, List.map_cons, List.map_map, h.1, hstring, ← hrest]
      rfl

/-- A valid password is short enough for its length to be an `int`. -/
theorem toInt32_strlen {password : List UInt8} (h : validatePassword (some password) = true) :
    toInt32 (strlen password) = strlen password := by
  have hlength : strlen password ≤ 1000 := by
    by_contra hlong
    simp [validatePassword, Nat.lt_of_not_le hlong] at h
  unfold toInt32
  rw [Int.bmod_eq_of_le] <;> omega

namespace ServerSession

variable {μ : Type} {cmds : Commands μ} {lib : Library} {password : List UInt8}
  {s : ServerSession μ} {line : ℕ → UInt8} {length : ℕ}

theorem receiveVersion_spec (lib : Library) (s : ServerSession μ) (line : ℕ → UInt8) (length : ℕ) :
    let version := atoi lib (stringAt receiveMaxLineLength fun i => line (i + 1))
    let s' := s.receiveVersion lib line length
    (s'.phase = .failed ∧ s'.requests = s.requests) ∨
      (2 ≤ length ∧ line 0 = 118 ∧ numDigits version = length - 1 ∧
        s' = { s with clientVersion := version, phase := .awaitPassword }) := by
  intro version s'
  by_cases hformat : length < 2 ∨ line 0 ≠ 118
  · left
    simp only [s', receiveVersion, if_pos hformat]
    exact ⟨rfl, rfl⟩
  · by_cases hdigits : numDigits version ≠ length - 1
    · left
      simp only [s', receiveVersion, if_neg hformat, if_pos hdigits, version]
      exact ⟨rfl, rfl⟩
    · right
      have hs' : s' = { s with clientVersion := version, phase := .awaitPassword } := by
        simp only [s', receiveVersion, if_neg hformat, if_neg hdigits, version]
      simp only [not_or, Nat.not_lt, Classical.not_not] at hformat hdigits
      exact ⟨hformat.1, hformat.2, hdigits, hs'⟩

/-- The text of a version line that the server accepts is `v1`. -/
theorem version_text (hzero : ∀ i, length ≤ i → i < receiveMaxLineLength → line i = 0)
    (hlength : 2 ≤ length) (hv : line 0 = 118)
    (hdigits : numDigits (atoi lib (stringAt receiveMaxLineLength fun i => line (i + 1))) =
      length - 1)
    (hversion : atoi lib (stringAt receiveMaxLineLength fun i => line (i + 1)) =
      serverProtocolVersion) :
    copyPartialString line length = bytes "v1" := by
  -- the version has one digit, so the line has two characters
  have hone : numDigits serverProtocolVersion = 1 := by decide
  obtain rfl : length = 2 := by
    rw [hversion, hone] at hdigits
    omega
  have hend : line 2 = 0 := hzero 2 (Nat.le_refl _) (by decide)
  have hstring : stringAt receiveMaxLineLength (fun i => line (i + 1)) =
      if line 1 = 0 then [] else [line 1] := by
    simp [receiveMaxLineLength, stringAt, hend]
  rw [hstring] at hversion
  split_ifs at hversion with hnull
  · cases hversion
  · have hdigit : line 1 = 49 := atoi_single lib hversion
    simp [copyPartialString, List.range_succ, hv, hdigit, bytes]

/-- The handshake is over, one way or the other, and nothing was requested in it. -/
def Decided (s s' : ServerSession μ) : Prop :=
  (s'.phase = .failed ∨ s'.phase = .loggedIn) ∧ s'.requests = s.requests

theorem sendCompletion_decided (lib : Library) (s : ServerSession μ) (text : List UInt8) :
    s.Decided (s.sendCompletion lib text) := by
  unfold sendCompletion
  split_ifs
  · exact ⟨.inl rfl, rfl⟩
  · dsimp only
    split_ifs
    · exact ⟨.inl rfl, rfl⟩
    · exact ⟨.inr rfl, rfl⟩

theorem completeHandshake_decided (lib : Library) (s : ServerSession μ) :
    s.Decided (s.completeHandshake lib) := by
  unfold completeHandshake
  dsimp only
  split
  · exact ⟨.inl rfl, rfl⟩
  · split_ifs
    · exact ⟨.inl rfl, rfl⟩
    · split
      · exact ⟨.inl rfl, rfl⟩
      · exact sendCompletion_decided lib _ _

theorem receivePassword_spec (hvalid : validatePassword (some password) = true) (lib : Library)
    (s : ServerSession μ) (line : ℕ → UInt8) (length : ℕ) :
    let s' := s.receivePassword lib password line length
    s.Decided s' ∧ (s'.phase = .loggedIn →
      s.clientVersion = serverProtocolVersion ∧
        copyPartialString line length = cString password) := by
  intro s'
  have hfail : s.Decided s.fail ∧ (s.fail.phase = .loggedIn →
      s.clientVersion = serverProtocolVersion ∧
        copyPartialString line length = cString password) :=
    ⟨⟨.inl rfl, rfl⟩, nofun⟩
  simp only [s', receivePassword, toInt32_strlen hvalid]
  split_ifs with hempty hpassword hversion
  · exact hfail
  · exact hfail
  · exact ⟨⟨.inl rfl, rfl⟩, nofun⟩
  · simp only [not_or, Classical.not_not, Bool.not_eq_false, Int.toNat_natCast,
      Int.natCast_inj] at hpassword hversion
    refine ⟨completeHandshake_decided lib s, fun _ => ⟨hversion, ?_⟩⟩
    rw [hpassword.1]
    exact strncmpEq_strlen hpassword.2

theorem receiveRequest_phase (cmds : Commands μ) (lib : Library) (s : ServerSession μ)
    (line : ℕ → UInt8) (length : ℕ) :
    (s.receiveRequest cmds lib line length).phase = s.phase := by
  unfold receiveRequest
  dsimp only
  split
  · rfl
  · rfl

/-- What the lines received so far have led to. -/
inductive HandshakeInvariant (password : List UInt8) : List (List UInt8) → ServerSession μ → Prop
  | version {s : ServerSession μ} (hs : s.phase = .awaitVersion) (hr : s.requests = []) :
      HandshakeInvariant password [] s
  | password {line : List UInt8} {s : ServerSession μ} (hs : s.phase = .awaitPassword)
      (hr : s.requests = []) (hline : s.clientVersion = serverProtocolVersion → line = bytes "v1") :
      HandshakeInvariant password [line] s
  | failed {lines : List (List UInt8)} {s : ServerSession μ} (hs : s.phase = .failed)
      (hr : s.requests = []) : HandshakeInvariant password lines s
  | loggedIn {lines : List (List UInt8)} {s : ServerSession μ} (hs : s.phase = .loggedIn) :
      HandshakeInvariant password (bytes "v1" :: cString password :: lines) s

theorem HandshakeInvariant.onLineReceived (hvalid : validatePassword (some password) = true)
    {lines : List (List UInt8)} (h : HandshakeInvariant password lines s)
    (hzero : lines = [] → ∀ i, length ≤ i → i < receiveMaxLineLength → line i = 0) :
    HandshakeInvariant password (lines ++ [copyPartialString line length])
      (s.onLineReceived cmds lib password line length) := by
  unfold ServerSession.onLineReceived
  cases h with
  | version hs hr =>
    rw [hs]
    rcases receiveVersion_spec lib s line length with ⟨hfailed, hr'⟩ | ⟨hlength, hv, hdigits, hs'⟩
    · exact .failed hfailed (hr'.trans hr)
    · rw [hs']
      exact .password rfl hr fun hversion => version_text (hzero rfl) hlength hv hdigits hversion
  | @password first _ hs hr hfirst =>
    rw [hs]
    obtain ⟨⟨hphase, hr'⟩, hlogin⟩ := receivePassword_spec hvalid lib s line length
    rcases hphase with hphase | hphase
    · exact .failed hphase (hr'.trans hr)
    · obtain ⟨hversion, htext⟩ := hlogin hphase
      rw [hfirst hversion, htext]
      exact .loggedIn hphase
  | failed hs hr =>
    rw [hs]
    exact .failed hs hr
  | loggedIn hs =>
    rw [hs]
    exact .loggedIn ((receiveRequest_phase cmds lib s line length).trans hs)

theorem HandshakeInvariant.first_lines {lines : List (List UInt8)}
    (h : HandshakeInvariant password lines s) (hs : s.phase = .loggedIn ∨ s.requests ≠ []) :
    lines[0]? = some (bytes "v1") ∧ lines[1]? = some (cString password) := by
  cases h with
  | version hphase hr => simp [hphase, hr] at hs
  | password hphase hr => simp [hphase, hr] at hs
  | failed hphase hr => simp [hphase, hr] at hs
  | loggedIn => exact ⟨rfl, rfl⟩

theorem HandshakeInvariant.decided {lines : List (List UInt8)}
    (h : HandshakeInvariant password lines s) (hlines : 2 ≤ lines.length) :
    s.phase = .failed ∨ s.phase = .loggedIn := by
  cases h with
  | version => simp at hlines
  | password => simp at hlines
  | failed hs => exact .inl hs
  | loggedIn hs => exact .inr hs

/-- After the handshake no line changes the phase. -/
theorem onLineReceived_phase (h : s.phase = .failed ∨ s.phase = .loggedIn) :
    (s.onLineReceived cmds lib password line length).phase = s.phase := by
  unfold onLineReceived
  rcases h with h | h
  · rw [h]
    exact h
  · rw [h]
    exact (receiveRequest_phase cmds lib s line length).trans h

end ServerSession

open ServerSession in
/-- **The handshake guards the requests.**  Whatever a client sends: a line is parsed as a request
only if its first line was `v1` and its second one the password.  A failed handshake stays failed,
and after two lines the handshake is over. -/
theorem handshake_guards_requests {μ : Type} (cmds : Commands μ) (lib : Library)
    (password : List UInt8) (hvalid : validatePassword (some password) = true) (w : World μ)
    (stack : ℕ → UInt8) (stream more : List UInt8) :
    let receive := (Receiver.start stack (ServerSession.start w)).receive
      (onLineReceived cmds lib password)
    let r := receive stream
    let r' := receive (stream ++ more)
    ((r.handler.phase = .loggedIn ∨ r.handler.requests ≠ []) →
      r.lines[0]? = some (bytes "v1") ∧ r.lines[1]? = some (cString password)) ∧
    (r.handler.phase = .failed → r'.handler.phase = .failed) ∧
    (2 ≤ r.lines.length → (r.handler.phase = .failed ∨ r.handler.phase = .loggedIn) ∧
      r'.handler.phase = r.handler.phase) := by
  intro receive r r'
  have hstart := Receiver.start_collecting stack (ServerSession.start w)
  have hr : HandshakeInvariant password r.lines r.handler :=
    Receiver.receive_invariant (fun lines s buffer length h _ hzero =>
      h.onLineReceived hvalid hzero) hstart (.version rfl rfl) stream
  have hstays : r.handler.phase = .failed ∨ r.handler.phase = .loggedIn →
      r'.handler.phase = r.handler.phase := by
    intro hphase
    have happend : r' = r.receive (onLineReceived cmds lib password) more :=
      Receiver.receive_append _ stream more
    rw [happend]
    refine Receiver.receive_invariant (I := fun _ s => s.phase = r.handler.phase) ?_
      (Receiver.receive_collecting hstart stream) rfl more
    intro _ s _ _ hs _ _
    rw [onLineReceived_phase (hs ▸ hphase), hs]
  exact ⟨hr.first_lines, fun h => (hstays (.inl h)).trans h,
    fun h => ⟨hr.decided h, hstays (hr.decided h)⟩⟩

/-- A C library in which nothing fails. -/
def Library.calm : Library where
  atoiOverflow value := value
  strftime _ := some (bytes "1970-01-01T00:00:00")
  snprintf text := text.length
  alloc _ _ := true

/-- A client logs in and sends a request. -/
theorem handshake_guards_requests_login :
    let receive := (Receiver.start (fun _ => 255) (ServerSession.start (World.idle ()))).receive
      (ServerSession.onLineReceived (.inert Unit) .calm (bytes "abcABC12-secret"))
    let r := receive (bytes "v1\nabcABC12-secret\naaaa SRID\n")
    r.handler.phase = .loggedIn ∧ r.handler.requests = [bytes "aaaa SRID"] ∧
      r.lines[0]? = some (bytes "v1") ∧ r.lines[1]? = some (bytes "abcABC12-secret") := by
  intro receive r
  have hphase : r.handler.phase = .loggedIn := by decide +kernel
  have hguard := handshake_guards_requests (.inert Unit) .calm (bytes "abcABC12-secret") (by decide)
    (World.idle ()) (fun _ => 255) (bytes "v1\nabcABC12-secret\naaaa SRID\n") []
  exact ⟨hphase, by decide +kernel, hguard.1 (.inl hphase)⟩

end XprcServer
