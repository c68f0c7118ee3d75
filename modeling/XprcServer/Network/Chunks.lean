import XprcServer.Network.Receive

/-!
# Lines from chunks

`run_receive_thread` gets the stream in the chunks that `recv` makes of it, each into the same
`chunk_buffer`, and carries the line that is being collected from one chunk to the next.  What it
hands on is determined by the stream alone:

* `streamLines` : the stream cut at every line end, without empty lines, without the rest behind the
  last line end, and up to the first line that is too long;
* `receive_lines` : characters taken one at a time make these lines;
* `runReceiveThread_lines` : so does the thread, for every division into chunks; it leaves its loop
  by itself exactly for a line that is too long, and never writes behind `line_buffer`.

The connection is not closing while the thread runs: `closing` and `shutdown` stay false.
-/

namespace XprcServer

/-- `RECEIVE_CHUNK_SIZE` -/
def receiveChunkSize : ℕ := 512

/-! ### Lines of a stream -/

/-- The lines the stream stands for. -/
def streamLines (stream : List UInt8) : List (List UInt8) :=
  ((stream.splitOnP isLineEnd).dropLast.filter (· ≠ [])).takeWhile (·.length < receiveMaxLineLength)

/-- The stream has a line, maybe an unterminated one, that reaches the maximum length. -/
def Overlong (stream : List UInt8) : Prop :=
  ∃ piece ∈ stream.splitOnP isLineEnd, receiveMaxLineLength ≤ piece.length

section

variable {text stream : List UInt8} {ch : UInt8}

/-- A text without a line end becomes the start of the first piece. -/
theorem pieces_append (h : ∀ c ∈ text, isLineEnd c = false) (stream : List UInt8) :
    (text ++ stream).splitOnP isLineEnd =
      (stream.splitOnP isLineEnd).modifyHead (text ++ ·) := by
  obtain ⟨piece, pieces, hpieces⟩ :=
    List.exists_cons_of_ne_nil (List.splitOnP_ne_nil isLineEnd stream)
  induction text with
  | nil => simp [hpieces]
  | cons c text ih =>
    rw [List.cons_append, List.splitOnP_cons_eq_if_modifyHead,
      if_neg (by simp [h c List.mem_cons_self]), ih fun x hx => h x (List.mem_cons_of_mem _ hx),
      hpieces]
    rfl

/-- At a line end, the text before it is a line unless it is empty. -/
theorem streamLines_lineEnd (h : ∀ c ∈ text, isLineEnd c = false)
    (hfits : text.length < receiveMaxLineLength) (hend : isLineEnd ch = true) :
    streamLines (text ++ ch :: stream) =
      (if text = [] then [] else [text]) ++ streamLines stream := by
  obtain ⟨piece, pieces, hpieces⟩ :=
    List.exists_cons_of_ne_nil (List.splitOnP_ne_nil isLineEnd stream)
  rw [streamLines, List.splitOnP_append_cons_of_forall_mem h ch hend, streamLines, hpieces,
    List.dropLast_cons_of_ne_nil (List.cons_ne_nil _ _)]
  by_cases hempty : text = []
  · simp [hempty]
  · simp [hempty, hfits]

theorem overlong_lineEnd (h : ∀ c ∈ text, isLineEnd c = false)
    (hfits : text.length < receiveMaxLineLength) (hend : isLineEnd ch = true) :
    Overlong (text ++ ch :: stream) ↔ Overlong stream := by
  rw [Overlong, List.splitOnP_append_cons_of_forall_mem h ch hend]
  simp only [List.mem_cons, exists_eq_or_imp, Nat.not_le.2 hfits, false_or]
  rfl

/-- A rest without a line end is no line yet. -/
theorem streamLines_rest (h : ∀ c ∈ text, isLineEnd c = false) : streamLines text = [] := by
  rw [streamLines, List.splitOnP_eq_singleton h]
  rfl

theorem overlong_rest (h : ∀ c ∈ text, isLineEnd c = false) :
    Overlong text ↔ receiveMaxLineLength ≤ text.length := by
  rw [Overlong, List.splitOnP_eq_singleton h]
  simp

/-- Behind a text that reaches the maximum length there are no lines any more. -/
theorem streamLines_overlong (h : ∀ c ∈ text, isLineEnd c = false)
    (hlong : receiveMaxLineLength ≤ text.length) (stream : List UInt8) :
    streamLines (text ++ stream) = [] ∧ Overlong (text ++ stream) := by
  obtain ⟨piece, pieces, hpieces⟩ :=
    List.exists_cons_of_ne_nil (List.splitOnP_ne_nil isLineEnd stream)
  have hpiece : receiveMaxLineLength ≤ (text ++ piece).length := by
    rw [List.length_append]
    omega
  have hne : text ++ piece ≠ [] := by
    intro hnil
    rw [hnil] at hpiece
    exact absurd hpiece (by decide)
  rw [streamLines, Overlong, pieces_append h, hpieces, List.modifyHead_cons]
  refine ⟨?_, _, List.mem_cons_self, hpiece⟩
  cases pieces with
  | nil => rfl
  | cons next pieces =>
    rw [List.dropLast_cons_of_ne_nil (List.cons_ne_nil _ _),
      List.filter_cons, if_pos (decide_eq_true hne),
      List.takeWhile_cons_of_neg (by simpa using hpiece)]

end

namespace Receiver

variable {σ : Type} {onLineReceived : σ → (ℕ → UInt8) → ℕ → σ} {r : Receiver σ}

/-- The line collected so far. -/
def collected (r : Receiver σ) : List UInt8 := copyPartialString r.lineBuffer r.lineWriteOffset

theorem collected_length (r : Receiver σ) : r.collected.length = r.lineWriteOffset := by
  simp [collected, copyPartialString]

theorem collected_free (h : Collecting r) : ∀ ch ∈ r.collected, isLineEnd ch = false := by
  intro ch hch
  simp only [collected, copyPartialString, List.mem_map, List.mem_range] at hch
  obtain ⟨i, hi, rfl⟩ := hch
  exact h.text i hi

theorem collected_transfer (r : Receiver σ) (ch : UInt8) :
    (r.transfer ch).collected = r.collected ++ [ch] := by
  simp only [collected, transfer, copyPartialString, List.range_succ, List.map_append,
    List.map_cons, List.map_nil, Function.update_self]
  congr 1
  refine List.map_congr_left fun i hi => ?_
  rw [Function.update_of_ne]
  rw [List.mem_range] at hi
  omega

theorem receive_aborted (h : r.abort = true) (stream : List UInt8) :
    r.receive onLineReceived stream = r := by
  induction stream with
  | nil => rfl
  | cons ch stream ih =>
    have hbyte : r.receiveByte onLineReceived ch = r := if_pos h
    rw [receive, List.foldl_cons, hbyte]
    exact ih

/-- **Characters make the lines of their stream**, behind what was collected before, and stop for a
line that is too long. -/
theorem receive_lines (onLineReceived : σ → (ℕ → UInt8) → ℕ → σ) {r : Receiver σ}
    (h : Collecting r) (habort : r.abort = false) (stream : List UInt8) :
    (r.receive onLineReceived stream).lines = r.lines ++ streamLines (r.collected ++ stream) ∧
      ((r.receive onLineReceived stream).abort = true ↔ Overlong (r.collected ++ stream)) := by
  induction stream generalizing r with
  | nil =>
    have hfits := h.fits habort
    rw [List.append_nil, streamLines_rest (collected_free h), overlong_rest (collected_free h),
      collected_length]
    simp only [receive, List.foldl_nil, List.append_nil, habort, Bool.false_eq_true, false_iff,
      true_and]
    omega
  | cons ch stream ih =>
    have hfits := h.fits habort
    rw [← collected_length] at hfits
    rw [receive, List.foldl_cons, ← receive]
    by_cases hend : isLineEnd ch = true
    · rw [streamLines_lineEnd (collected_free h) hfits hend,
        overlong_lineEnd (collected_free h) hfits hend]
      by_cases hempty : r.lineWriteOffset = 0
      · have hbyte : r.receiveByte onLineReceived ch = r := by
          simp [receiveByte, habort, hend, hempty]
        have hnil : r.collected = [] := List.length_eq_zero_iff.1 (by rw [collected_length, hempty])
        rw [hbyte, if_pos hnil]
        simpa [hnil] using ih h habort
      · have hbyte : r.receiveByte onLineReceived ch = r.deliver onLineReceived := by
          simp [receiveByte, habort, hend, hempty]
        have hne : r.collected ≠ [] := by
          intro hnil
          rw [← collected_length, hnil] at hempty
          exact hempty rfl
        have hrest :=
          ih (show Collecting (r.deliver onLineReceived) from deliver_collecting r) habort
        have hnil : (r.deliver onLineReceived).collected = [] := rfl
        have hlines : (r.deliver onLineReceived).lines = r.lines ++ [r.collected] := rfl
        rw [hnil, List.nil_append, hlines, List.append_assoc] at hrest
        rw [hbyte, if_neg hne]
        exact hrest
    · -- the character goes into the line
      rw [Bool.not_eq_true] at hend
      have hbyte : r.receiveByte onLineReceived ch = r.transfer ch := by
        simp [receiveByte, habort, hend]
      have htransfer := transfer_collecting h hend
      have hcollected : r.collected ++ ch :: stream = (r.transfer ch).collected ++ stream := by
        rw [collected_transfer, List.append_assoc]
        rfl
      rw [hbyte, hcollected]
      cases hlong : (r.transfer ch).abort with
      | false => exact ih htransfer hlong
      | true =>
        have hreached : receiveMaxLineLength ≤ (r.transfer ch).collected.length := by
          rw [collected_length]
          simpa [transfer] using hlong
        obtain ⟨hnone, hover⟩ := streamLines_overlong (collected_free htransfer) hreached stream
        rw [receive_aborted hlong, hnone, List.append_nil, hlong]
        exact ⟨rfl, fun _ => hover, fun _ => rfl⟩

/-- The handler is called once for each line, with a buffer and a length that tell the line. -/
def Handed (onLineReceived : σ → (ℕ → UInt8) → ℕ → σ) (handler handler' : σ)
    (lines : List (List UInt8)) : Prop :=
  ∃ calls : List ((ℕ → UInt8) × ℕ),
    handler' = calls.foldl (fun handler call => onLineReceived handler call.1 call.2) handler ∧
      calls.map (fun call => copyPartialString call.1 call.2) = lines

/-- The lines that are recorded are those that the handler is handed. -/
theorem receive_handed (onLineReceived : σ → (ℕ → UInt8) → ℕ → σ) (r : Receiver σ)
    (stream : List UInt8) :
    ∃ lines, (r.receive onLineReceived stream).lines = r.lines ++ lines ∧
      Handed onLineReceived r.handler (r.receive onLineReceived stream).handler lines := by
  induction stream generalizing r with
  | nil => exact ⟨[], (List.append_nil _).symm, [], rfl, rfl⟩
  | cons ch stream ih =>
    rw [receive, List.foldl_cons, ← receive]
    obtain ⟨lines, hlines, hhanded⟩ := ih (r.receiveByte onLineReceived ch)
    have hsame : (r.receiveByte onLineReceived ch).lines = r.lines →
        (r.receiveByte onLineReceived ch).handler = r.handler →
        ∃ lines, ((r.receiveByte onLineReceived ch).receive onLineReceived stream).lines =
          r.lines ++ lines ∧ Handed onLineReceived r.handler
            ((r.receiveByte onLineReceived ch).receive onLineReceived stream).handler lines := by
      intro hkept hhandler
      rw [hkept] at hlines
      rw [hhandler] at hhanded
      exact ⟨lines, hlines, hhanded⟩
    by_cases hdelivers : r.abort = false ∧ isLineEnd ch = true ∧ r.lineWriteOffset ≠ 0
    · obtain ⟨habort, hend, hfilled⟩ := hdelivers
      have hbyte : r.receiveByte onLineReceived ch = r.deliver onLineReceived := by
        simp [receiveByte, habort, hend, hfilled]
      rw [hbyte] at hlines hhanded ⊢
      obtain ⟨calls, hhandler, hcalls⟩ := hhanded
      refine ⟨copyPartialString r.lineBuffer r.lineWriteOffset :: lines, ?_,
        (r.lineBuffer, r.lineWriteOffset) :: calls, hhandler, ?_⟩
      · rw [hlines, deliver, List.append_assoc]
        rfl
      · rw [List.map_cons, hcalls]
    · refine hsame ?_ ?_
      all_goals
        unfold receiveByte
        split_ifs with habort hend hempty
        · rfl
        · rfl
        · exact absurd ⟨by simpa using habort, hend, hempty⟩ hdelivers
        · rfl

end Receiver

/-! ### The thread -/

/-- The variables of `run_receive_thread`. -/
structure ReceiveThread (σ : Type) where
  receiver : Receiver σ
  chunkBuffer : ℕ → UInt8
  /-- The loop was left and the connection is closed. -/
  ended : Bool
  /-- The places in `line_buffer` that were written, in their order. -/
  written : List ℕ

/-- What `recv` may return for a part of the stream. -/
structure IsChunk (chunk : List UInt8) : Prop where
  pos : 0 < chunk.length
  fits : chunk.length ≤ receiveChunkSize

namespace ReceiveThread

variable {σ : Type}

/-- The start of the thread; `stack` is the memory behind the zeroed `line_buffer`. -/
def begin (stack : ℕ → UInt8) (handler : σ) : ReceiveThread σ where
  receiver := .start stack handler
  chunkBuffer _ := 0
  ended := false
  written := []

/-- `recv` overwrites the start of `chunk_buffer`. -/
def recv (t : ReceiveThread σ) (chunk : List UInt8) : ReceiveThread σ :=
  { t with chunkBuffer := fun i => chunk.getD i (t.chunkBuffer i) }

variable (onLineReceived : σ → (ℕ → UInt8) → ℕ → σ)

/-- One character. -/
def take (t : ReceiveThread σ) (ch : UInt8) : ReceiveThread σ :=
  { t with
    receiver := t.receiver.receiveByte onLineReceived ch
    written := if isLineEnd ch then t.written else t.written ++ [t.receiver.lineWriteOffset] }

/-- The loop over the chunk; the first argument is the number of characters left, `i` the index of
the next one. -/
def chunkLoop : ℕ → ℕ → ReceiveThread σ → ReceiveThread σ
  | 0, _, t => t
  | left + 1, i, t =>
    let t := t.take onLineReceived (t.chunkBuffer i)
    if t.receiver.abort then t else chunkLoop left (i + 1) t

/-- `run_receive_thread` for what `recv` returns one after the other: `none` is an error, an empty
chunk the end of the connection.  Behind the last one the thread waits in `recv`. -/
def runReceiveThread : List (Option (List UInt8)) → ReceiveThread σ → ReceiveThread σ
  | [], t => t
  | none :: _, t => { t with ended := true }
  | some chunk :: rest, t =>
    if chunk.length = 0 then { t with ended := true }
    else
      let t := chunkLoop onLineReceived chunk.length 0 (t.recv chunk)
      if t.receiver.abort then { t with ended := true } else runReceiveThread rest t

variable {onLineReceived}

/-- What holds between two characters: every place written so far is in `line_buffer`, and so is the
next one. -/
structure InBuffer (t : ReceiveThread σ) : Prop where
  collecting : Collecting t.receiver
  written : ∀ i ∈ t.written, i < receiveMaxLineLength
  offset : t.receiver.lineWriteOffset ≤ receiveMaxLineLength

theorem begin_inBuffer (stack : ℕ → UInt8) (handler : σ) : InBuffer (begin stack handler) :=
  ⟨Receiver.start_collecting stack handler, by simp [begin], Nat.zero_le _⟩

theorem take_inBuffer (onLineReceived : σ → (ℕ → UInt8) → ℕ → σ) {t : ReceiveThread σ}
    (h : InBuffer t) (habort : t.receiver.abort = false)
    (ch : UInt8) : InBuffer (t.take onLineReceived ch) where
  collecting := Receiver.receiveByte_collecting h.collecting ch
  written i hi := by
    simp only [take] at hi
    split_ifs at hi
    · exact h.written i hi
    · rcases List.mem_append.1 hi with hi | hi
      · exact h.written i hi
      · rw [List.mem_singleton.1 hi]
        exact h.collecting.fits habort
  offset := by
    have hfits := h.collecting.fits habort
    simp only [take, Receiver.receiveByte, habort, Bool.false_eq_true, if_false]
    split_ifs
    · exact h.offset
    · exact Nat.zero_le _
    · exact hfits

/-- The loop over a chunk takes its characters until it gives up. -/
theorem chunkLoop_spec (onLineReceived : σ → (ℕ → UInt8) → ℕ → σ) {t : ReceiveThread σ}
    {chunk : List UInt8} {i : ℕ} (h : InBuffer t) (habort : t.receiver.abort = false)
    (hended : t.ended = false)
    (hchunk : ∀ j (hj : j < chunk.length), t.chunkBuffer (i + j) = chunk[j]) :
    InBuffer (chunkLoop onLineReceived chunk.length i t) ∧
      (chunkLoop onLineReceived chunk.length i t).ended = false ∧
      (chunkLoop onLineReceived chunk.length i t).receiver =
        t.receiver.receive onLineReceived chunk := by
  induction chunk generalizing t i with
  | nil => exact ⟨h, hended, rfl⟩
  | cons ch chunk ih =>
    have hhead : t.chunkBuffer i = ch := hchunk 0 (by simp)
    have htake := take_inBuffer onLineReceived h habort ch
    rw [List.length_cons, chunkLoop, hhead]
    cases hlong : (t.take onLineReceived ch).receiver.abort with
    | true =>
      simp only [if_true]
      refine ⟨htake, hended, ?_⟩
      rw [Receiver.receive, List.foldl_cons]
      exact (Receiver.receive_aborted hlong chunk).symm
    | false =>
      simp only [Bool.false_eq_true, if_false]
      refine ih htake hlong hended fun j hj => ?_
      have := hchunk (j + 1) (by simpa using hj)
      rwa [List.getElem_cons_succ, show i + (j + 1) = i + 1 + j by omega] at this

/-- The thread takes the characters of all chunks. -/
theorem runReceiveThread_spec (onLineReceived : σ → (ℕ → UInt8) → ℕ → σ) {t : ReceiveThread σ}
    {chunks : List (List UInt8)}
    {ending : List (Option (List UInt8))} (hchunks : ∀ chunk ∈ chunks, IsChunk chunk)
    (hending : ending = [] ∨ ending = [none] ∨ ending = [some []]) (h : InBuffer t)
    (habort : t.receiver.abort = false) (hended : t.ended = false) :
    InBuffer (runReceiveThread onLineReceived (chunks.map some ++ ending) t) ∧
      (runReceiveThread onLineReceived (chunks.map some ++ ending) t).receiver =
        t.receiver.receive onLineReceived chunks.flatten ∧
      ((runReceiveThread onLineReceived (chunks.map some ++ ending) t).ended = true ↔
        (t.receiver.receive onLineReceived chunks.flatten).abort = true ∨ ending ≠ []) := by
  induction chunks generalizing t with
  | nil =>
    rcases hending with rfl | rfl | rfl
    · exact ⟨h, rfl, by simp [runReceiveThread, Receiver.receive, hended, habort]⟩
    · exact ⟨⟨h.collecting, h.written, h.offset⟩, rfl, by simp [runReceiveThread]⟩
    · exact ⟨⟨h.collecting, h.written, h.offset⟩, rfl, by simp [runReceiveThread]⟩
  | cons chunk chunks ih =>
    have hpos := (hchunks chunk List.mem_cons_self).pos
    have hbuffer : ∀ j (hj : j < chunk.length), (t.recv chunk).chunkBuffer (0 + j) = chunk[j] := by
      intro j hj
      simp [recv, hj]
    obtain ⟨hin, hopen, hreceiver⟩ := chunkLoop_spec onLineReceived (t := t.recv chunk)
      (i := 0) ⟨h.collecting, h.written, h.offset⟩ habort hended hbuffer
    rw [List.map_cons, List.cons_append, runReceiveThread, if_neg (by omega), List.flatten_cons,
      Receiver.receive_append]
    have hrecv : (t.recv chunk).receiver = t.receiver := rfl
    rw [hrecv] at hreceiver
    cases hlong : (chunkLoop onLineReceived chunk.length 0 (t.recv chunk)).receiver.abort with
    | true =>
      simp only [hlong, if_true]
      rw [← hreceiver, Receiver.receive_aborted hlong]
      exact ⟨⟨hin.collecting, hin.written, hin.offset⟩, rfl, by simp [hlong]⟩
    | false =>
      simp only [hlong, Bool.false_eq_true, if_false]
      rw [← hreceiver]
      exact ih (fun other hother => hchunks other (List.mem_cons_of_mem _ hother)) hin hlong hopen

/-- **The lines are those of the stream, however it is divided.** For every sequence of chunks and
whatever comes behind it (nothing yet, an error, or the end of the connection), the handler is
called once for each line of the stream, in their order; the thread has ended iff a line was too
long or nothing more can come; and all places written are in the buffer. -/
theorem runReceiveThread_lines (onLineReceived : σ → (ℕ → UInt8) → ℕ → σ) (stack : ℕ → UInt8)
    (handler : σ) (chunks : List (List UInt8)) (ending : List (Option (List UInt8)))
    (hchunks : ∀ chunk ∈ chunks, IsChunk chunk)
    (hending : ending = [] ∨ ending = [none] ∨ ending = [some []]) :
    let t := runReceiveThread onLineReceived (chunks.map some ++ ending) (begin stack handler)
    t.receiver.lines = streamLines chunks.flatten ∧
      Receiver.Handed onLineReceived handler t.receiver.handler (streamLines chunks.flatten) ∧
      (t.ended = true ↔ Overlong chunks.flatten ∨ ending ≠ []) ∧
      (∀ i ∈ t.written, i < receiveMaxLineLength) ∧
      t.receiver.lineWriteOffset ≤ receiveMaxLineLength := by
  obtain ⟨hin, hreceiver, hended⟩ := runReceiveThread_spec onLineReceived hchunks hending
    (begin_inBuffer stack handler) rfl rfl
  obtain ⟨hlines, habort⟩ := Receiver.receive_lines onLineReceived
    (begin_inBuffer stack handler).collecting rfl chunks.flatten
  rw [habort] at hended
  rw [← hreceiver] at hlines
  obtain ⟨lines, hrecorded, hhanded⟩ :=
    Receiver.receive_handed onLineReceived (begin stack handler).receiver chunks.flatten
  rw [← hreceiver] at hrecorded hhanded
  obtain rfl : streamLines chunks.flatten = lines := hlines.symm.trans hrecorded
  exact ⟨hlines, hhanded, hended, hin.written, hin.offset⟩

theorem runReceiveThread_lines_split :
    let t := runReceiveThread (fun handler _ length => handler + length)
      ([bytes "ab\r", bytes "\ncd", bytes "e\n\nf"].map some ++ [some []])
      (begin (fun _ => 7) 0)
    t.receiver.lines = streamLines (bytes "ab\r\ncde\n\nf") ∧
      Receiver.Handed (fun handler _ length => handler + length) 0 t.receiver.handler
        (streamLines (bytes "ab\r\ncde\n\nf")) ∧
      (t.ended = true ↔ Overlong (bytes "ab\r\ncde\n\nf") ∨ [some []] ≠
        ([] : List (Option (List UInt8)))) ∧
      (∀ i ∈ t.written, i < receiveMaxLineLength) ∧
      t.receiver.lineWriteOffset ≤ receiveMaxLineLength :=
  runReceiveThread_lines (fun handler _ length => handler + length) (fun _ => 7) 0
    [bytes "ab\r", bytes "\ncd", bytes "e\n\nf"] [some []]
    (List.forall_mem_cons.2 ⟨⟨by decide, by decide⟩, List.forall_mem_cons.2
      ⟨⟨by decide, by decide⟩, List.forall_mem_singleton.2 ⟨by decide, by decide⟩⟩⟩)
    (.inr (.inr rfl))

end ReceiveThread

end XprcServer
