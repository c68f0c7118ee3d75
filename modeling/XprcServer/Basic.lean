import Mathlib.Algebra.Group.Int.Defs
import Mathlib.Algebra.Group.Nat.Defs
import Mathlib.Data.List.Basic

/-!
# Bytes, C strings and error codes

The protocol is byte oriented, so a `char` is a `UInt8`.  All comparisons the plugin makes on a
`char` are against ASCII characters, for which signed and unsigned `char` agree.

A `char *` that is only read is modelled by the memory it points to, `ℕ → UInt8`: what lies
behind the part a caller meant to pass is whatever memory holds there.  A string the plugin
allocated by itself is the list of its bytes; C functions see it up to its first NUL
(`cString`).
-/

namespace XprcServer

/-- The bytes of an ASCII text. -/
def bytes (s : String) : List UInt8 := s.toList.map fun c => UInt8.ofNat c.toNat

/-- What the C string functions see of an allocated string: everything up to the first NUL. -/
def cString (s : List UInt8) : List UInt8 := s.takeWhile (· ≠ 0)

/-- A list without the character passes the tests of `takeWhile` and `dropWhile` for it. -/
theorem forall_ne_of_not_mem {sep : UInt8} {l : List UInt8} (h : sep ∉ l) :
    ∀ c ∈ l, decide (c ≠ sep) = true := by
  intro c hc
  simp only [decide_eq_true_eq]
  rintro rfl
  exact h hc

/-- `strlen` of an allocated string. -/
def strlen (s : List UInt8) : ℕ := (cString s).length

/-- `!strcmp(p, s)` for a pointer `p` into memory and an allocated string `s`. -/
def strEq (p : ℕ → UInt8) : List UInt8 → Bool
  | [] => p 0 == 0
  | c :: cs => p 0 == c && (c == 0 || strEq (fun i => p (i + 1)) cs)

/-- `copy_partial_string`: `length` bytes copied from `s` (NULs included). -/
def copyPartialString (s : ℕ → UInt8) (length : ℕ) : List UInt8 :=
  (List.range length).map s

/-- The value of an `int64_t` or `long` converted to a (32-bit) `int`. -/
def toInt32 (value : ℤ) : ℤ := value.bmod (2 ^ 32)

/-- The loop of `num_digits`; the first argument bounds the number of rounds. -/
def numDigitsLoop : ℕ → ℕ → ℕ
  | 0, _ => 0
  | fuel + 1, value => if 0 < value then numDigitsLoop fuel (value / 10) + 1 else 0

/-- `num_digits` of an `int`, which has at most ten digits.  The least `int` is its own negative,
so that its loop makes no round. -/
def numDigits (value : ℤ) : ℕ :=
  if value = 0 then 1 else numDigitsLoop 10 (if value < 0 then toInt32 (-value) else value).toNat

/-- The decimal digits that `printf` writes for a number. -/
def decimal (n : ℕ) : List UInt8 := (Nat.toDigits 10 n).map fun c => UInt8.ofNat c.toNat

example : numDigits (toInt32 4294967306) = 2 ∧ numDigits (toInt32 (2 ^ 31)) = 0 ∧
    decimal 4294967306 = bytes "4294967306" := by decide

/-- `error_t`, with the constants of `errors.h` and of the modules. -/
inductive ErrorCode where
  | none
  | unspecific
  | memoryAllocation
  | mutexFailed
  | destructionPending
  | incomplete
  | mutexTimeout
  | requestInvalidSyntax
  | requestDuplicateOption
  | networkNoSocket
  | networkBindFailed
  | networkListenFailed
  | networkBadAddress
  | networkThreadFailed
  | networkShutdown
  | networkCapacity
  | taskScheduleStillScheduled
  | taskScheduleInvalidPhase
  | sessionNoSuchChannel
  | sessionInvalidChannelState
  | dataproxyInvalidState
  | dataproxyPermissionDenied
  | dataproxyRegistrationFailed
  | dataproxyArrayOutOfBounds
  | dataproxyUnsupportedType
  deriving DecidableEq, Repr

end XprcServer
