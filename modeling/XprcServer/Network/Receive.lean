import XprcServer.Basic

/-!
# Lines from the network

`run_receive_thread` collects the characters of a connection in `line_buffer` and hands every
complete line to `on_line_received`.  The buffer is zeroed once, when the thread starts, and its
contents are not cleared between lines: behind a line stands what is left of earlier ones.

The loop works through the characters one at a time, so the chunks in which `recv` returns them
do not matter.  It ends when the connection is closed or closing; what it did until then is a run
over the characters it has seen.

* `receive_invariant` : what the handler keeps for every line is kept over any stream; a line is
  not empty, has no line end in it, and the memory behind the first line is zero.
-/

namespace XprcServer

/-- `RECEIVE_MAX_LINE_LENGTH` -/
def receiveMaxLineLength : ℕ := 64 * 1024

/-- A carriage return or a line feed -/
def isLineEnd (ch : UInt8) : Bool := ch = 10 || ch = 13

/-- The variables of the receive loop, the state `σ` of the handler of the lines, and the lines it
was handed so far. -/
structure Receiver (σ : Type) where
  lineBuffer : ℕ → UInt8
  lineWriteOffset : ℕ
  /-- A line was too long. -/
  abort : Bool
  handler : σ
  lines : List (List UInt8)

namespace Receiver

variable {σ : Type}

/-- The start of `run_receive_thread`; `stack` is the memory behind the zeroed buffer. -/
def start (stack : ℕ → UInt8) (handler : σ) : Receiver σ where
  lineBuffer i := if i < receiveMaxLineLength then 0 else stack i
  lineWriteOffset := 0
  abort := false
  handler := handler
  lines := []

variable (onLineReceived : σ → (ℕ → UInt8) → ℕ → σ)

/-- The line is complete. -/
def deliver (r : Receiver σ) : Receiver σ :=
  { r with
    lineWriteOffset := 0
    handler := onLineReceived r.handler r.lineBuffer r.lineWriteOffset
    lines := r.lines ++ [copyPartialString r.lineBuffer r.lineWriteOffset] }

/-- The character is transferred to the line; excessively long lines cannot be handled. -/
def transfer (r : Receiver σ) (ch : UInt8) : Receiver σ :=
  { r with
    lineBuffer := Function.update r.lineBuffer r.lineWriteOffset ch
    lineWriteOffset := r.lineWriteOffset + 1
    abort := decide (receiveMaxLineLength ≤ r.lineWriteOffset + 1) }

/-- One character of the stream. -/
def receiveByte (r : Receiver σ) (ch : UInt8) : Receiver σ :=
  if r.abort then r
  else if isLineEnd ch then
    if r.lineWriteOffset = 0 then r -- an empty line is ignored
    else r.deliver onLineReceived
  else r.transfer ch

/-- The loop of `run_receive_thread`. -/
def receive (r : Receiver σ) (stream : List UInt8) : Receiver σ :=
  stream.foldl (receiveByte onLineReceived) r

end Receiver

/-- A line as the handler gets it: `length` characters without a line end, at the start of a
buffer. -/
structure IsLine (buffer : ℕ → UInt8) (length : ℕ) : Prop where
  pos : 0 < length
  fits : length < receiveMaxLineLength
  text : ∀ i, i < length → isLineEnd (buffer i) = false

/-- The line that is being collected. -/
structure Collecting {σ : Type} (r : Receiver σ) : Prop where
  fits : r.abort = false → r.lineWriteOffset < receiveMaxLineLength
  text : ∀ i, i < r.lineWriteOffset → isLineEnd (r.lineBuffer i) = false
  zeroed : r.lines = [] → ∀ i, r.lineWriteOffset ≤ i → i < receiveMaxLineLength →
    r.lineBuffer i = 0

namespace Receiver

variable {σ : Type} {onLineReceived : σ → (ℕ → UInt8) → ℕ → σ} {r : Receiver σ}

theorem start_collecting (stack : ℕ → UInt8) (handler : σ) : Collecting (start stack handler) :=
  ⟨fun _ => by simp [start, receiveMaxLineLength], fun _ hi => absurd hi (Nat.not_lt_zero _),
    fun _ _ _ hi => if_pos hi⟩

theorem deliver_collecting (r : Receiver σ) : Collecting (r.deliver onLineReceived) :=
  ⟨fun _ => by simp [deliver, receiveMaxLineLength], fun _ hi => absurd hi (Nat.not_lt_zero _),
    fun h => by simp [deliver] at h⟩

theorem transfer_collecting (h : Collecting r) {ch : UInt8} (hch : isLineEnd ch = false) :
    Collecting (r.transfer ch) where
  fits habort := by
    simpa [transfer] using habort
  text i hi := by
    simp only [transfer] at hi ⊢
    by_cases heq : i = r.lineWriteOffset
    · rw [heq, Function.update_self]
      exact hch
    · rw [Function.update_of_ne heq]
      exact h.text i (by omega)
  zeroed hlines i hi hfits := by
    simp only [transfer] at hi ⊢
    rw [Function.update_of_ne (by omega)]
    exact h.zeroed hlines i (by omega) hfits

theorem receiveByte_collecting (h : Collecting r) (ch : UInt8) :
    Collecting (r.receiveByte onLineReceived ch) := by
  unfold receiveByte
  split_ifs with habort hend
  · exact h
  · exact h
  · exact deliver_collecting r
  · exact transfer_collecting h (by simpa using hend)

/-- A handler that keeps `I` for every line keeps it over every stream. -/
theorem receive_invariant {I : List (List UInt8) → σ → Prop}
    (hline : ∀ lines s buffer length, I lines s → IsLine buffer length →
      (lines = [] → ∀ i, length ≤ i → i < receiveMaxLineLength → buffer i = 0) →
      I (lines ++ [copyPartialString buffer length]) (onLineReceived s buffer length))
    (h : Collecting r) (hr : I r.lines r.handler) (stream : List UInt8) :
    I (r.receive onLineReceived stream).lines (r.receive onLineReceived stream).handler := by
  induction stream generalizing r with
  | nil => exact hr
  | cons ch stream ih =>
    refine ih (receiveByte_collecting h ch) ?_
    unfold receiveByte
    split_ifs with habort hend hoffset
    · exact hr
    · exact hr
    · have hfits := h.fits (by simpa using habort)
      exact hline _ _ _ _ hr ⟨Nat.pos_of_ne_zero hoffset, hfits, h.text⟩ h.zeroed
    · exact hr

theorem receive_append (r : Receiver σ) (stream more : List UInt8) :
    r.receive onLineReceived (stream ++ more) =
      (r.receive onLineReceived stream).receive onLineReceived more :=
  List.foldl_append

/-- A character leaves the handler alone, or it completes a line. -/
theorem receiveByte_handler (r : Receiver σ) (ch : UInt8) :
    (r.receiveByte onLineReceived ch).handler = r.handler ∨
      ((r.receiveByte onLineReceived ch).lines ≠ [] ∧
        (r.receiveByte onLineReceived ch).handler =
          onLineReceived r.handler r.lineBuffer r.lineWriteOffset) := by
  unfold receiveByte
  split_ifs
  · exact .inl rfl
  · exact .inl rfl
  · exact .inr ⟨by simp [deliver], rfl⟩
  · exact .inl rfl

theorem lines_of_receive {stream : List UInt8} (h : (r.receive onLineReceived stream).lines = []) :
    r.lines = [] := by
  induction stream generalizing r with
  | nil => exact h
  | cons ch stream ih =>
    have hlines := ih h
    unfold receiveByte at hlines
    split_ifs at hlines
    · exact hlines
    · exact hlines
    · simp [deliver] at hlines
    · exact hlines

/-- What decides where lines end, whatever is done with them. -/
def shape (r : Receiver σ) : ℕ × Bool × ℕ := (r.lineWriteOffset, r.abort, r.lines.length)

theorem receiveByte_shape {τ : Type} {g : τ → (ℕ → UInt8) → ℕ → τ} {r' : Receiver τ}
    (h : r.shape = r'.shape) (ch : UInt8) :
    (r.receiveByte onLineReceived ch).shape = (r'.receiveByte g ch).shape := by
  simp only [shape, Prod.mk.injEq] at h
  obtain ⟨hoffset, habort, hlines⟩ := h
  unfold receiveByte
  rw [habort, hoffset]
  split_ifs
  · simp [shape, hoffset, habort, hlines]
  · simp [shape, hoffset, habort, hlines]
  · simp [shape, deliver, habort, hlines]
  · simp [shape, transfer, hoffset, hlines]

theorem receive_collecting (h : Collecting r) (stream : List UInt8) :
    Collecting (r.receive onLineReceived stream) := by
  induction stream generalizing r with
  | nil => exact h
  | cons ch stream ih => exact ih (receiveByte_collecting h ch)

end Receiver

end XprcServer
