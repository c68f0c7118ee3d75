import XprcServer.Fileio
import XprcServer.Lib.Heap

/-!
# Reading and writing files

`read_file` reads a file in segments of up to 64 KiB, keeps a copy of each in a list, and
concatenates them; `read_lines_from_file` cuts the result into lines, each of which is copied and
appended to a list.  Every allocation may fail, and so may the calls of the C library: a file can be
opened or not, `fread` may stop with an error behind any number of bytes, and `fclose` may fail.

The platform is one with the functions of `fileio_standard.c`.

* `FileReading.readFile_spec` : `read_file` has the bytes of the file, or an error;
* `FileReading.readLines_owns` : what is left on the heap;
* `FileReading.writeLines_read` : lines that were written without an error are read as they were.
-/

namespace XprcServer

open Lib

/-- `BUFFER_SIZE` -/
def fileBufferSize : ℕ := 64 * 1024

/-- What the C library does -/
structure FileLibrary where
  /-- The `n`-th allocation succeeds. -/
  alloc : ℕ → Bool
  /-- `fopen` succeeds. -/
  fopen : Bool
  /-- The number of bytes behind which the `n`-th call of `fread` stops with an error -/
  fread : ℕ → Option ℕ
  /-- The number of bytes behind which `fwrite` stops with an error -/
  fwrite : Option ℕ
  /-- `fclose` succeeds. -/
  fclose : Bool
  /-- The number of bytes that are in the file if it does not. -/
  flushed : ℕ

/-- A `FILE` that is read: the bytes that are left, and the indicators of `feof` and `ferror` -/
structure FileStream where
  rest : List UInt8
  eof : Bool
  error : Bool
  deriving DecidableEq

/-- `segment_t` with its bytes, and the blocks of the copy, of the segment and of its list item -/
structure FileSegment where
  data : List UInt8
  copyBlock : ℕ
  segmentBlock : ℕ
  itemBlock : ℕ

/-- The blocks in the order in which `destroy_list` frees them -/
def FileSegment.blocks (segment : FileSegment) : List ℕ :=
  [segment.copyBlock, segment.segmentBlock, segment.itemBlock]

/-- A string of a list, with the blocks of its characters and of the list item -/
structure ListedLine where
  text : List UInt8
  textBlock : ℕ
  itemBlock : ℕ

/-- The blocks in the order in which `destroy_list` frees them -/
def ListedLine.blocks (line : ListedLine) : List ℕ := [line.textBlock, line.itemBlock]

namespace FileReading

/-- `fread` of up to `room` bytes: fewer are read at the end of the file, or before an error. -/
def fread (failure : Option ℕ) (room : ℕ) (stream : FileStream) : List UInt8 × FileStream :=
  match failure with
  | none => (stream.rest.take room,
      { stream with rest := stream.rest.drop room, eof := stream.eof || stream.rest.length < room })
  | some n => (stream.rest.take (min n (room - 1)),
      { stream with rest := stream.rest.drop (min n (room - 1)), error := true })

/-- `read_bytes` of an open file -/
def readBytes (failure : Option ℕ) (room : ℕ) (stream : FileStream) :
    ErrorCode × List UInt8 × FileStream :=
  let r := fread failure room stream
  (if r.1.length < room ∧ r.2.error then .unspecific else .none, r)

/-- What the loop of `read_file` works on -/
structure State where
  heap : Heap
  stream : FileStream
  reads : ℕ
  segments : List FileSegment

/-- The part of the loop that keeps a copy of what was read -/
def keep (lib : FileLibrary) (chunk : List UInt8) (s : State) : Access (ErrorCode × State) :=
  match s.heap.alloc lib.alloc with
  | (none, heap) => some (.memoryAllocation, { s with heap := heap })
  | (some copy, heap) =>
    match heap.alloc lib.alloc with
    | (none, heap) => do
      let heap ← heap.free copy
      return (.memoryAllocation, { s with heap := heap })
    | (some segment, heap) =>
      match heap.alloc lib.alloc with
      | (none, heap) => do
        let heap ← heap.freeAll [copy, segment]
        return (.memoryAllocation, { s with heap := heap })
      | (some item, heap) =>
        some (.none,
          { s with heap := heap, segments := s.segments ++ [⟨chunk, copy, segment, item⟩] })

/-- The loop of `read_file`, with the error it ends with -/
def loop (lib : FileLibrary) : ℕ → State → Access (ErrorCode × State)
  | 0, _ => none
  | rounds + 1, s =>
    let r := readBytes (lib.fread s.reads) fileBufferSize s.stream
    let s := { s with stream := r.2.2, reads := s.reads + 1 }
    if r.2.1.length = 0 ∨ r.1 ≠ .none then some (r.1, s)
    else do
      let k ← keep lib r.2.1 s
      if k.1 ≠ .none then return k else loop lib rounds k.2

/-- The bytes of the segments one behind the other -/
def concatenate (segments : List FileSegment) : List UInt8 := segments.flatMap FileSegment.data

/-- The part of `read_file` behind the loop: `*data`, with its block -/
def finish (lib : FileLibrary) (err : ErrorCode) (s : State) :
    ErrorCode × Option (ℕ × List UInt8) × State :=
  if err ≠ .none then (err, none, s)
  else if !s.stream.eof then (.unspecific, none, s)
  else
    match s.heap.alloc lib.alloc with
    | (none, heap) => (.memoryAllocation, none, { s with heap := heap })
    | (some block, heap) => (.none, some (block, concatenate s.segments ++ [0]),
        { s with heap := heap })

/-- `close_file` at the end of `read_file` -/
def close (lib : FileLibrary) (err : ErrorCode) : ErrorCode :=
  if !lib.fclose && err = .none then .incomplete else err

/-- `read_file` from where the file is open, with the blocks of the buffer and of the list -/
def readOpened (lib : FileLibrary) (content : List UInt8) (buffer list : ℕ) (heap : Heap) :
    Access (ErrorCode × Option (ℕ × List UInt8) × Heap) := do
  let l ← loop lib (content.length + 1) ⟨heap, ⟨content, false, false⟩, 0, []⟩
  let f := finish lib l.1 l.2
  let heap ← f.2.2.heap.freeAll (f.2.2.segments.flatMap FileSegment.blocks ++ [list, buffer])
  return (close lib f.1, f.2.1, heap)

/-- `read_file` of a file with the bytes `content`: the error, `*data` and its block, and the
heap -/
def readFile (lib : FileLibrary) (content : List UInt8) (heap : Heap) :
    Access (ErrorCode × Option (ℕ × List UInt8) × Heap) :=
  match heap.alloc lib.alloc with
  | (none, heap) => some (.memoryAllocation, none, heap)
  | (some buffer, heap) =>
    match heap.alloc lib.alloc with
    | (none, heap) => do
      let heap ← heap.free buffer
      return (.memoryAllocation, none, heap)
    | (some list, heap) =>
      if lib.fopen then readOpened lib content buffer list heap
      else do
        let heap ← heap.freeAll [list, buffer]
        return (.unspecific, none, heap)

/-! ### Lines -/

/-- `split_lines` where the lines of the text are copied one by one, and appended to the list
`list` -/
def listLines (lib : FileLibrary) (list : ℕ) :
    List (List UInt8) → List ListedLine → Heap → Access (Option (List ListedLine) × Heap)
  | [], listed, heap => some (some listed, heap)
  | line :: rest, listed, heap =>
    match heap.alloc lib.alloc with
    | (none, heap) => do
      let heap ← heap.freeAll (listed.flatMap ListedLine.blocks ++ [list])
      return (none, heap)
    | (some text, heap) =>
      match heap.alloc lib.alloc with
      | (none, heap) => do
        let heap ← heap.free text
        let heap ← heap.freeAll (listed.flatMap ListedLine.blocks ++ [list])
        return (none, heap)
      | (some item, heap) => listLines lib list rest (listed ++ [⟨line, text, item⟩]) heap

/-- `split_lines`: the list with its block -/
def splitToList (lib : FileLibrary) (text : List UInt8) (heap : Heap) :
    Access (ErrorCode × Option (ℕ × List ListedLine) × Heap) :=
  match heap.alloc lib.alloc with
  | (none, heap) => some (.memoryAllocation, none, heap)
  | (some list, heap) => do
    let r ← listLines lib list (splitLines text) [] heap
    match r.1 with
    | none => return (.memoryAllocation, none, r.2)
    | some lines => return (.none, some (list, lines), r.2)

/-- `read_lines_from_file` -/
def readLines (lib : FileLibrary) (content : List UInt8) (heap : Heap) :
    Access (ErrorCode × Option (ℕ × List ListedLine) × Heap) := do
  let r ← readFile lib content heap
  match r.1, r.2.1 with
  | .none, some (block, data) =>
    let l ← splitToList lib data.dropLast r.2.2
    let heap ← l.2.2.free block
    return (l.1, l.2.1, heap)
  | err, _ => return (err, none, r.2.2)

/-! ### Writing -/

/-- `fwrite`: what is written, and whether there was an error -/
def fwrite (failure : Option ℕ) (data : List UInt8) : List UInt8 × Bool :=
  match failure with
  | none => (data, false)
  | some n => (data.take (min n (data.length - 1)), true)

/-- `write_bytes`, which does not write nothing -/
def writeBytes (failure : Option ℕ) (data : List UInt8) : ErrorCode × List UInt8 :=
  if data.length = 0 then (.none, [])
  else
    let r := fwrite failure data
    (if r.1.length < data.length ∧ r.2 then .incomplete else .none, r.1)

/-- `write_file`: the error, and what the file that was `file` holds then -/
def writeFile (lib : FileLibrary) (data file : List UInt8) : ErrorCode × List UInt8 :=
  if !lib.fopen then (.unspecific, file)
  else
    let w := writeBytes lib.fwrite data
    let err := close lib w.1
    (if w.2.length ≠ data.length ∧ err = .none then .unspecific else err,
      if lib.fclose then w.2 else w.2.take lib.flushed)

/-- `write_lines_to_file` -/
def writeLines (lib : FileLibrary) (lineEnd : LineEndSequence) (lines : List (List UInt8))
    (file : List UInt8) (heap : Heap) : Access (ErrorCode × List UInt8 × Heap) :=
  match heap.alloc lib.alloc with
  | (none, heap) => some (.memoryAllocation, file, heap)
  | (some block, heap) => do
    let w := writeFile lib (writeLinesToFile lineEnd lines) file
    let heap ← heap.free block
    return (w.1, w.2, heap)

/-! ### What is read -/

/-- Nothing fails while a file is read. -/
structure Calm (lib : FileLibrary) : Prop where
  alloc : ∀ n, lib.alloc n = true
  fopen : lib.fopen = true
  fread : ∀ n, lib.fread n = none

section

variable {lib : FileLibrary} {base : Multiset ℕ} {tail : List ℕ} {s : State} {content : List UInt8}

/-- On the heap are the segments, and the blocks `tail`. -/
def Holds (base : Multiset ℕ) (tail : List ℕ) (s : State) : Prop :=
  s.heap.Owns base (s.segments.flatMap FileSegment.blocks ++ tail)

theorem Calm.alloc_ne (h : Calm lib) {n : ℕ} : lib.alloc n ≠ false := by
  rw [h.alloc n]
  exact Bool.false_ne_true.symm

theorem keep_spec (h : Holds base tail s) (chunk : List UInt8) :
    ∃ err s', keep lib chunk s = some (err, s') ∧ Holds base tail s' ∧ s'.stream = s.stream ∧
      s'.reads = s.reads ∧
      ((err = .none ∧ concatenate s'.segments = concatenate s.segments ++ chunk) ∨
        (err = .memoryAllocation ∧ ¬ Calm lib)) := by
  unfold keep
  rcases h.alloc lib.alloc with ⟨heap₁, hcopy, hown₁, hno⟩ | ⟨copy, heap₁, hcopy, hown₁⟩
  · rw [hcopy]
    exact ⟨_, _, rfl, hown₁, rfl, rfl, .inr ⟨rfl, fun hcalm => hcalm.alloc_ne hno⟩⟩
  rw [hcopy]
  dsimp only
  rcases hown₁.alloc lib.alloc with ⟨heap₂, hsegment, hown₂, hno⟩ | ⟨segment,
    heap₂, hsegment, hown₂⟩
  · obtain ⟨heap', hfree, hown'⟩ := hown₂.free
    rw [hsegment]
    dsimp only
    rw [hfree]
    exact ⟨_, _, rfl, hown', rfl, rfl, .inr ⟨rfl, fun hcalm => hcalm.alloc_ne hno⟩⟩
  rw [hsegment]
  dsimp only
  rcases hown₂.alloc lib.alloc with ⟨heap₃, hitem, hown₃, hno⟩ | ⟨item, heap₃, hitem, hown₃⟩
  · obtain ⟨heap', hfree, hown'⟩ := @Heap.Owns.freeAll _ _ _ [copy, segment]
      (hown₃.perm (.swap _ _ _))
    rw [hitem]
    dsimp only
    rw [hfree]
    exact ⟨_, _, rfl, hown', rfl, rfl, .inr ⟨rfl, fun hcalm => hcalm.alloc_ne hno⟩⟩
  rw [hitem]
  refine ⟨_, _, rfl, hown₃.perm ?_, rfl, rfl, .inl ⟨rfl, ?_⟩⟩
  · dsimp only
    rw [List.flatMap_append, List.flatMap_singleton, List.append_assoc]
    have hmoved : (item :: segment :: copy :: (s.segments.flatMap FileSegment.blocks ++ tail)).Perm
        (copy :: segment :: item :: (s.segments.flatMap FileSegment.blocks ++ tail)) :=
      (List.reverse_perm [copy, segment, item]).append_right _
    refine hmoved.trans ?_
    change ([copy, segment, item] ++ (s.segments.flatMap FileSegment.blocks ++ tail)).Perm
      (s.segments.flatMap FileSegment.blocks ++ ([copy, segment, item] ++ tail))
    rw [← List.append_assoc, ← List.append_assoc]
    exact List.perm_append_comm.append_right tail
  · change (s.segments ++ [_]).flatMap FileSegment.data = s.segments.flatMap FileSegment.data ++
      chunk
    rw [List.flatMap_append, List.flatMap_singleton]

/-- A call of `read_bytes`: it stops with an error, or it reads what is next. -/
theorem readBytes_cases (failure : Option ℕ) {room : ℕ} (hroom : 0 < room) {stream : FileStream}
    (herror : stream.error = false) :
    ((readBytes failure room stream).1 = .unspecific ∧ failure ≠ none) ∨
      ∃ eof, (stream.rest.length < room → eof = true) ∧ readBytes failure room stream =
        (.none, stream.rest.take room, ⟨stream.rest.drop room, eof, false⟩) := by
  cases failure with
  | none =>
    refine .inr ⟨stream.eof || decide (stream.rest.length < room), fun hlt => ?_, ?_⟩
    · rw [decide_eq_true hlt, Bool.or_true]
    · unfold readBytes fread
      dsimp only
      rw [herror, if_neg (fun hand => Bool.false_ne_true hand.2)]
  | some n =>
    refine .inl ⟨if_pos ⟨?_, rfl⟩, Option.some_ne_none n⟩
    change (stream.rest.take (min n (room - 1))).length < room
    rw [List.length_take]
    omega

/-- The loop reads the rest of the file, unless it ends with an error. -/
theorem loop_spec {rounds : ℕ} (h : Holds base tail s) (herror : s.stream.error = false)
    (hrounds : s.stream.rest.length < rounds) :
    ∃ err s', loop lib rounds s = some (err, s') ∧ Holds base tail s' ∧ err ≠ .incomplete ∧
      (Calm lib → err = .none) ∧ (err = .none → s'.stream.eof = true ∧
        concatenate s'.segments = concatenate s.segments ++ s.stream.rest) := by
  induction rounds generalizing s with
  | zero => omega
  | succ rounds ih =>
    have hroom : 0 < fileBufferSize := by decide
    rw [loop]
    rcases readBytes_cases (lib.fread s.reads) hroom herror with ⟨herr,
      hfailure⟩ | ⟨eof, heof, hread⟩
    · rw [if_pos (.inr (by rw [herr]; decide))]
      refine ⟨_, _, rfl, h, ?_, fun hcalm => absurd (hcalm.fread s.reads) hfailure, ?_⟩
      all_goals rw [herr]
      · decide
      · intro himpossible
        cases himpossible
    rw [hread]
    by_cases hend : s.stream.rest = []
    · rw [hend, List.take_nil]
      rw [hend] at heof
      exact ⟨.none, _, rfl, h, by decide, fun _ => rfl,
        fun _ => ⟨heof hroom, (List.append_nil _).symm⟩⟩
    · have hpos : 0 < s.stream.rest.length := List.length_pos_iff.2 hend
      have hlength : ¬ ((s.stream.rest.take fileBufferSize).length = 0 ∨
          ErrorCode.none ≠ .none) := by
        rintro (hzero | hne)
        · rw [List.length_take] at hzero
          omega
        · exact hne rfl
      rw [if_neg hlength]
      obtain ⟨err, s', hkeep, hholds, hstream, hreads, hcases⟩ := @keep_spec lib base tail
        { s with stream := ⟨s.stream.rest.drop fileBufferSize, eof, false⟩, reads := s.reads + 1 } h
        (s.stream.rest.take fileBufferSize)
      rw [hkeep]
      rcases hcases with ⟨rfl, hdata⟩ | ⟨rfl, hno⟩
      · obtain ⟨err, s'', hloop, hholds', hne, hcalm, hdone⟩ := @ih s' hholds (by rw [hstream]) (by
          rw [hstream, List.length_drop]
          omega)
        refine ⟨err, s'', hloop, hholds', hne, hcalm, fun hnone => ⟨(hdone hnone).1, ?_⟩⟩
        rw [(hdone hnone).2, hdata, hstream, List.append_assoc, List.take_append_drop]
      · refine ⟨.memoryAllocation, _, rfl, hholds, by decide, fun hcalm => absurd hcalm hno, ?_⟩
        intro himpossible
        cases himpossible

theorem finish_spec (h : Holds base tail s) {err : ErrorCode} (hne : err ≠ .incomplete)
    (hcalm : Calm lib → err = .none) (hdone : err = .none → s.stream.eof = true) :
    ∃ err' data s', finish lib err s = (err', data, s') ∧
      Holds base (data.toList.map Prod.fst ++ tail) s' ∧ s'.segments = s.segments ∧
      err' ≠ .incomplete ∧
      (err' = .none ↔ data ≠ none) ∧ (Calm lib → err' = .none) ∧
      (∀ d, data = some d → err = .none ∧ d.2 = concatenate s.segments ++ [0]) := by
  unfold finish
  by_cases herr : err ≠ .none
  · rw [if_pos herr]
    exact ⟨err, none, s, rfl, h, rfl, hne, iff_of_false herr (not_not.2 rfl), hcalm,
      fun _ h => nomatch h⟩
  have hnone := not_not.1 herr
  rw [if_neg herr, hdone hnone, if_neg (by decide)]
  rcases h.alloc lib.alloc with ⟨heap', hrun, hown, hno⟩ | ⟨block, heap', hrun, hown⟩
  · rw [hrun]
    exact ⟨_, _, _, rfl, hown, rfl, by decide, by decide, fun hcalm => absurd hno hcalm.alloc_ne,
      fun _ h => nomatch h⟩
  · rw [hrun]
    refine ⟨_, _, _, rfl, ?_, rfl, by decide, iff_of_true rfl (Option.some_ne_none _),
      fun _ => rfl, ?_⟩
    · refine hown.perm ?_
      exact List.perm_middle.symm
    · intro d hd
      cases hd
      exact ⟨hnone, rfl⟩

/-- The outcome of `read_file`: its data is the content of the file.  All blocks but that of the
data are freed; there is data without an error, and with the one for a file that was not closed. -/
structure Reads (lib : FileLibrary) (content : List UInt8) (heap : Heap) (err : ErrorCode)
    (data : Option (ℕ × List UInt8)) (heap' : Heap) : Prop where
  owns : heap'.Owns heap.live (data.toList.map Prod.fst)
  content : ∀ d, data = some d → d.2 = content ++ [0]
  data : data ≠ none ↔ err = .none ∨ err = .incomplete
  closed : err = .incomplete → lib.fclose = false
  calm : Calm lib → err = if lib.fclose then .none else .incomplete

/-- The outcome without data, when the file was not opened -/
theorem reads_nothing {heap heap' : Heap} {err : ErrorCode} (hown : heap'.Owns heap.live [])
    (hnone : err ≠ .none) (hne : err ≠ .incomplete) (hfailed : ¬ Calm lib) :
    Reads lib content heap err none heap' where
  owns := hown
  content _ himpossible := nomatch himpossible
  data := iff_of_false (not_not.2 rfl) (not_or.2 ⟨hnone, hne⟩)
  closed himpossible := absurd himpossible hne
  calm hcalm := absurd hcalm hfailed

theorem readOpened_spec {heap₀ heap : Heap} {buffer list : ℕ}
    (hown : heap.Owns heap₀.live [list, buffer]) :
    ∃ err data heap', readOpened lib content buffer list heap = some (err, data, heap') ∧
      Reads lib content heap₀ err data heap' := by
  have hstart : Holds heap₀.live [list, buffer] ⟨heap, ⟨content, false, false⟩, 0, []⟩ := hown
  obtain ⟨err, s, hloop, hholds, hne, hcalm, hdone⟩ :=
    @loop_spec lib _ _ _ (content.length + 1) hstart rfl (Nat.lt_succ_self _)
  obtain ⟨err', data, s', hfinish, hholds', hsegments, hne', hdata, hcalm', hcontent⟩ :=
    finish_spec hholds hne hcalm fun hnone => (hdone hnone).1
  have hperm :
      (s'.segments.flatMap FileSegment.blocks ++ (data.toList.map Prod.fst ++ [list, buffer])).Perm
      (s'.segments.flatMap FileSegment.blocks ++ [list, buffer] ++ data.toList.map Prod.fst) := by
    rw [List.append_assoc]
    exact List.perm_append_comm.append_left _
  obtain ⟨heap', hfree, hown'⟩ := Heap.Owns.freeAll (Heap.Owns.perm hholds' hperm)
  refine ⟨close lib err', data, heap', ?_, ⟨hown', ?_, ?_, ?_, ?_⟩⟩
  · unfold readOpened
    rw [hloop]
    dsimp only [Option.bind_eq_bind, Option.bind_some]
    rw [hfinish]
    dsimp only
    rw [hfree]
    rfl
  · intro d hd
    obtain ⟨hnone, hbytes⟩ := hcontent d hd
    rw [hbytes, (hdone hnone).2]
    rfl
  all_goals unfold close
  · rw [← hdata]
    cases hclosed : lib.fclose with
    | true => exact ⟨.inl, fun h => h.resolve_right hne'⟩
    | false =>
      by_cases hnone : err' = .none
      · rw [hnone]
        exact iff_of_true rfl (.inr rfl)
      · rw [if_neg (by rw [decide_eq_false hnone]; decide)]
        exact iff_of_false hnone (not_or.2 ⟨hnone, hne'⟩)
  · intro hincomplete
    cases hclosed : lib.fclose with
    | true =>
      rw [hclosed] at hincomplete
      exact absurd hincomplete hne'
    | false => rfl
  · intro hcalm
    rw [hcalm' hcalm]
    cases lib.fclose <;> rfl

/-- **`read_file` reads the file, or reports an error.** -/
theorem readFile_spec (lib : FileLibrary) (content : List UInt8) (heap : Heap) :
    ∃ err data heap', readFile lib content heap = some (err, data, heap') ∧
      Reads lib content heap err data heap' := by
  unfold readFile
  rcases (Heap.owns_nil heap).alloc lib.alloc with ⟨heap₁, hbuffer, hown₁, hno⟩ | ⟨buffer,
    heap₁, hbuffer, hown₁⟩
  · rw [hbuffer]
    exact ⟨_, _, _, rfl, reads_nothing hown₁ (by decide) (by decide) fun hcalm =>
      hcalm.alloc_ne hno⟩
  rw [hbuffer]
  dsimp only
  rcases hown₁.alloc lib.alloc with ⟨heap₂, hlist, hown₂, hno⟩ | ⟨list, heap₂, hlist, hown₂⟩
  · obtain ⟨heap', hfree, hown'⟩ := hown₂.free
    rw [hlist]
    dsimp only
    rw [hfree]
    exact ⟨_, _, _, rfl, reads_nothing hown' (by decide) (by decide) fun hcalm =>
      hcalm.alloc_ne hno⟩
  rw [hlist]
  dsimp only
  cases hopen : lib.fopen with
  | true =>
    rw [if_pos rfl]
    exact readOpened_spec hown₂
  | false =>
    obtain ⟨heap', hfree, hown'⟩ := @Heap.Owns.freeAll _ _ _ [list, buffer] hown₂
    rw [if_neg Bool.false_ne_true, hfree]
    refine ⟨_, _, _, rfl, reads_nothing hown' (by decide) (by decide) fun hcalm => ?_⟩
    rw [hcalm.fopen] at hopen
    cases hopen

/-! ### What is left of the lines -/

theorem destroyLines_spec {list : ℕ} {listed : List ListedLine} {heap : Heap}
    (hown : heap.Owns base (listed.flatMap ListedLine.blocks ++ list :: tail)) :
    ∃ heap', heap.freeAll (listed.flatMap ListedLine.blocks ++ [list]) = some heap' ∧
      heap'.Owns base tail := by
  rw [List.append_cons] at hown
  exact hown.freeAll

theorem listLines_spec {list : ℕ} {listed : List ListedLine} {heap : Heap}
    (rest : List (List UInt8))
    (hown : heap.Owns base (listed.flatMap ListedLine.blocks ++ list :: tail)) :
    ∃ r heap', listLines lib list rest listed heap = some (r, heap') ∧
      ((∃ lines, r = some lines ∧ lines.map ListedLine.text = listed.map ListedLine.text ++ rest ∧
          heap'.Owns base (lines.flatMap ListedLine.blocks ++ list :: tail)) ∨
        (r = none ∧ heap'.Owns base tail ∧ ¬ Calm lib)) := by
  induction rest generalizing listed heap with
  | nil => exact ⟨_, _, rfl, .inl ⟨listed, rfl, (List.append_nil _).symm, hown⟩⟩
  | cons line rest ih =>
    rw [listLines]
    rcases hown.alloc lib.alloc with ⟨heap₁, htext, hown₁, hno⟩ | ⟨text, heap₁, htext, hown₁⟩
    · obtain ⟨heap', hfree, hown'⟩ := destroyLines_spec hown₁
      rw [htext]
      dsimp only
      rw [hfree]
      exact ⟨_, _, rfl, .inr ⟨rfl, hown', fun hcalm => hcalm.alloc_ne hno⟩⟩
    rw [htext]
    dsimp only
    rcases hown₁.alloc lib.alloc with ⟨heap₂, hitem, hown₂, hno⟩ | ⟨item, heap₂, hitem, hown₂⟩
    · obtain ⟨heap₃, hfree, hown₃⟩ := hown₂.free
      obtain ⟨heap', hfree', hown'⟩ := destroyLines_spec hown₃
      rw [hitem]
      dsimp only
      rw [hfree]
      dsimp only [Option.bind_eq_bind, Option.bind_some]
      rw [hfree']
      exact ⟨_, _, rfl, .inr ⟨rfl, hown', fun hcalm => hcalm.alloc_ne hno⟩⟩
    rw [hitem]
    dsimp only
    have hown' : heap₂.Owns base
        ((listed ++ [(⟨line, text, item⟩ : ListedLine)]).flatMap ListedLine.blocks ++
          list :: tail) := by
      refine hown₂.perm ?_
      rw [List.flatMap_append, List.flatMap_singleton, List.append_assoc]
      refine (List.Perm.swap text item _).trans ?_
      change ([text, item] ++ (listed.flatMap ListedLine.blocks ++ list :: tail)).Perm
        (listed.flatMap ListedLine.blocks ++ ([text, item] ++ list :: tail))
      rw [← List.append_assoc, ← List.append_assoc]
      exact List.perm_append_comm.append_right _
    obtain ⟨r, heap', hrest, ⟨lines, hr, htexts, hown''⟩ | hfailed⟩ := ih hown'
    · refine ⟨r, heap', hrest, .inl ⟨lines, hr, ?_, hown''⟩⟩
      rw [htexts, List.map_append, List.append_assoc]
      rfl
    · exact ⟨r, heap', hrest, .inr hfailed⟩

/-- The blocks of a list of lines, if there is one -/
def listBlocks : Option (ℕ × List ListedLine) → List ℕ
  | none => []
  | some (list, lines) => lines.flatMap ListedLine.blocks ++ [list]

theorem splitToList_spec {heap : Heap} (hown : heap.Owns base tail) (text : List UInt8) :
    ∃ err lines heap', splitToList lib text heap = some (err, lines, heap') ∧
      heap'.Owns base (listBlocks lines ++ tail) ∧ (err = .none ∨ err = .memoryAllocation) ∧
      (lines ≠ none ↔ err = .none) ∧
      (∀ l, lines = some l → l.2.map ListedLine.text = splitLines text) ∧
        (Calm lib → err = .none) := by
  unfold splitToList
  rcases hown.alloc lib.alloc with ⟨heap₁, hlist, hown₁, hno⟩ | ⟨list, heap₁, hlist, hown₁⟩
  · rw [hlist]
    refine ⟨_, _, _, rfl, hown₁, .inr rfl, by decide, fun l hl => ?_,
      fun hcalm => absurd hno hcalm.alloc_ne⟩
    cases hl
  rw [hlist]
  dsimp only
  obtain ⟨r, heap', hlines, ⟨lines, rfl, htexts, hown'⟩ | ⟨rfl, hown', hno⟩⟩ :=
    @listLines_spec lib base tail list [] heap₁ (splitLines text) hown₁
  · rw [hlines]
    refine ⟨_, _, _, rfl, ?_, .inl rfl, iff_of_true (Option.some_ne_none _) rfl, ?_, fun _ => rfl⟩
    · rw [listBlocks, List.append_assoc]
      exact hown'
    · intro l hl
      cases hl
      exact htexts
  · rw [hlines]
    refine ⟨_, _, _, rfl, hown', .inr rfl, by decide, fun l hl => ?_, fun hcalm => absurd hcalm hno⟩
    cases hl

/-- The outcome of `read_lines_from_file`: the lines of the file are in a list, or there is an
error.  All other blocks are freed but that of the content, which `read_file` returns with the error
for a file that was not closed, and which is lost then. -/
structure ReadsLines (lib : FileLibrary) (content : List UInt8) (heap : Heap) (err : ErrorCode)
    (lines : Option (ℕ × List ListedLine)) (heap' : Heap) : Prop where
  texts : ∀ l, lines = some l → l.2.map ListedLine.text = splitLines content
  listed : lines ≠ none ↔ err = .none
  owns : err ≠ .incomplete → heap'.live = heap.live + (listBlocks lines : Multiset ℕ)
  lost : err = .incomplete → lib.fclose = false ∧
    ∃ b, readFile lib content heap = some (.incomplete, some (b, content ++ [0]), heap') ∧
      heap'.live = heap.live + {b}
  calm : Calm lib → err = if lib.fclose then .none else .incomplete

theorem readLines_spec (lib : FileLibrary) (content : List UInt8) (heap : Heap) :
    ∃ err lines heap', readLines lib content heap = some (err, lines, heap') ∧
      ReadsLines lib content heap err lines heap' := by
  obtain ⟨err, data, heap₁, hread, hreads⟩ := readFile_spec lib content heap
  unfold readLines
  rw [hread]
  dsimp only [Option.bind_eq_bind, Option.bind_some]
  by_cases hnone : err = .none
  · obtain ⟨⟨block, bytes⟩, hdata⟩ := Option.ne_none_iff_exists'.1 (hreads.data.2 (.inl hnone))
    have hbytes : bytes = content ++ [0] := hreads.content _ hdata
    have hown : heap₁.Owns heap.live [block] := by
      have hown := hreads.owns
      rw [hdata] at hown
      exact hown
    obtain ⟨err', lines, heap₂, hsplit, hown₂, herr, hlines, htexts, hcalm⟩ :=
      @splitToList_spec lib _ _ _ hown bytes.dropLast
    obtain ⟨heap', hfree, hown'⟩ := Heap.Owns.free (hown₂.perm List.perm_append_comm)
    rw [hbytes, List.dropLast_concat] at hsplit htexts
    rw [hnone, hdata]
    dsimp only
    rw [hbytes, List.dropLast_concat, hsplit, Option.bind_some, hfree]
    refine ⟨err', lines, heap', rfl, htexts, hlines, fun _ => hown', fun hincomplete => ?_,
      fun hc => ?_⟩
    · rcases herr with rfl | rfl
      all_goals cases hincomplete
    · have hclosed := hreads.calm hc
      rw [hnone] at hclosed
      rw [← hclosed]
      exact hcalm hc
  · refine ⟨err, none, heap₁, ?_, fun l hl => ?_, iff_of_false (not_not.2 rfl) hnone, fun hne => ?_,
      fun hincomplete => ⟨hreads.closed hincomplete, ?_⟩, hreads.calm⟩
    · cases err with
      | none => exact absurd rfl hnone
      | _ => rfl
    · cases hl
    · have hdata : data = none := not_not.1 fun h => (hreads.data.1 h).elim hnone hne
      have hown := hreads.owns
      rw [hdata] at hown
      exact hown
    · obtain ⟨⟨block, bytes⟩, hdata⟩ :=
        Option.ne_none_iff_exists'.1 (hreads.data.2 (.inr hincomplete))
      have hown := hreads.owns
      have hbytes : bytes = content ++ [0] := hreads.content _ hdata
      rw [hdata] at hown
      rw [hincomplete, hdata, hbytes] at hread
      exact ⟨block, hread, hown⟩

/-- **What `read_lines_from_file` leaves.**  Whatever fails, it has the lines of the file in a list
or an error, and nothing but the list is left on the heap, unless the error is that the file was not
closed: then there is no list, and one block is lost, that of the content which `read_file` has
returned.  This happens whenever nothing but `fclose` fails. -/
theorem readLines_owns (lib : FileLibrary) (content : List UInt8) (heap : Heap) :
    ∃ err lines heap', readLines lib content heap = some (err, lines, heap') ∧
      (err = .none → ∃ l, lines = some l ∧ l.2.map ListedLine.text = splitLines content) ∧
      (err ≠ .none → lines = none) ∧
      (heap'.live = heap.live + (listBlocks lines : Multiset ℕ) ↔ err ≠ .incomplete) ∧
      (err = .incomplete → lib.fclose = false ∧
        ∃ b, readFile lib content heap = some (.incomplete, some (b, content ++ [0]), heap') ∧
          heap'.live = heap.live + {b}) ∧
      (Calm lib → err = if lib.fclose then .none else .incomplete) := by
  obtain ⟨err, lines, heap', hrun, htexts, hlines, howns, hlost, hcalm⟩ :=
    readLines_spec lib content heap
  refine ⟨err, lines, heap', hrun, fun hnone => ?_, fun hne => not_not.1 fun h => hne (hlines.1 h),
    ⟨fun hlive hincomplete => ?_, howns⟩, hlost, hcalm⟩
  · obtain ⟨l, hl⟩ := Option.ne_none_iff_exists'.1 (hlines.2 hnone)
    exact ⟨l, hl, htexts l hl⟩
  · obtain ⟨-, b, -, hb⟩ := hlost hincomplete
    have hnone : lines = none := not_not.1 fun h => by
      rw [hlines.1 h] at hincomplete
      cases hincomplete
    have hcard := congrArg Multiset.card (hlive.symm.trans hb)
    rw [hnone, Multiset.card_add, Multiset.card_add, Multiset.card_singleton] at hcard
    exact absurd (Nat.add_left_cancel hcard) (by decide)

/-! ### What was written -/

theorem writeBytes_spec (failure : Option ℕ) (data : List UInt8) :
    (writeBytes failure data).2 <+: data ∧
      ((writeBytes failure data).1 = .none → (writeBytes failure data).2 = data) := by
  unfold writeBytes fwrite
  by_cases hempty : data.length = 0
  · rw [if_pos hempty, List.length_eq_zero_iff.1 hempty]
    exact ⟨List.prefix_refl [], fun _ => rfl⟩
  rw [if_neg hempty]
  cases failure with
  | none => exact ⟨List.prefix_refl data, fun _ => rfl⟩
  | some n =>
    refine ⟨List.take_prefix _ _, fun hnone => ?_⟩
    dsimp only at hnone
    rw [if_pos ⟨by rw [List.length_take]; omega, rfl⟩] at hnone
    cases hnone

theorem close_none {err : ErrorCode} (h : close lib err = .none) : err = .none ∧
    lib.fclose = true := by
  unfold close at h
  cases hclosed : lib.fclose with
  | true =>
    rw [hclosed] at h
    exact ⟨h, rfl⟩
  | false =>
    rw [hclosed] at h
    split_ifs at h with hnone
    rw [h] at hnone
    exact absurd rfl hnone

/-- The file is written, or there is an error and the file holds a part of the data. -/
theorem writeFile_spec (lib : FileLibrary) (data file : List UInt8) :
    ((writeFile lib data file).1 = .none → (writeFile lib data file).2 = data) ∧
      ((writeFile lib data file).2 = file ∨ (writeFile lib data file).2 <+: data) := by
  obtain ⟨hstart, hall⟩ := writeBytes_spec lib.fwrite data
  unfold writeFile
  by_cases hopen : (!lib.fopen) = true
  · rw [if_pos hopen]
    refine ⟨fun hnone => ?_, .inl rfl⟩
    cases hnone
  rw [if_neg hopen]
  dsimp only
  refine ⟨fun hnone => ?_, .inr ?_⟩
  · split_ifs at hnone
    obtain ⟨hwritten, hclosed⟩ := close_none hnone
    rw [if_pos hclosed]
    exact hall hwritten
  · split_ifs
    · exact hstart
    · exact (List.take_prefix _ _).trans hstart

/-- **Lines are read as they were written.**  Whatever fails, `write_lines_to_file` leaves the heap
as it was, and the file as it was or with a part of the lines; without an error,
`read_lines_from_file` finds these lines in the file, unless it reports an error.  Where there are
no lines, it finds an empty one. -/
theorem writeLines_read (lib : FileLibrary) (lineEnd : LineEndSequence) {lines : List (List UInt8)}
    (hlines : ∀ line ∈ lines, PlainLine line) (file : List UInt8) (heap : Heap) :
    ∃ err file' heap', writeLines lib lineEnd lines file heap = some (err, file', heap') ∧
      heap'.live = heap.live ∧ (file' = file ∨ file' <+: joinLines lineEnd lines) ∧
      (err = .none → ∀ lib' heap₁ err' l heap₂, readLines lib' file' heap₁ = some (err', l, heap₂) →
        err' = .none ∧
            (∃ list, l = some list ∧
              list.2.map ListedLine.text = if lines = [] then [[]] else lines) ∨
          err' ≠ .none ∧ l = none) := by
  unfold writeLines
  rcases (Heap.owns_nil heap).alloc lib.alloc with ⟨heap₁, hrun, hown, -⟩ | ⟨block,
    heap₁, hrun, hown⟩
  · rw [hrun]
    refine ⟨_, _, _, rfl, hown.live_eq, .inl rfl, fun himpossible => ?_⟩
    cases himpossible
  obtain ⟨heap', hfree, hown'⟩ := hown.free
  obtain ⟨hall, hpart⟩ := writeFile_spec lib (writeLinesToFile lineEnd lines) file
  rw [hrun]
  dsimp only
  rw [hfree]
  rw [writeLinesToFile_eq] at hall hpart ⊢
  refine ⟨_, _, _, rfl, hown'.live_eq, hpart, fun hnone lib' heap₁ err' l heap₂ hread => ?_⟩
  rw [hall hnone] at hread
  obtain ⟨err, listed, heap', hrun', htexts, hlisted, -⟩ :=
    readLines_spec lib' (joinLines lineEnd lines) heap₁
  rw [hrun'] at hread
  cases hread
  have hsplit : splitLines (joinLines lineEnd lines) = if lines = [] then [[]] else lines := by
    split_ifs with hempty
    · rw [hempty]
      cases lineEnd <;> rfl
    · exact splitLines_joinLines lineEnd hempty hlines
  rw [hsplit] at htexts
  by_cases herr : err' = .none
  · obtain ⟨list, hlist⟩ := Option.ne_none_iff_exists'.1 (hlisted.2 herr)
    exact .inl ⟨herr, list, hlist, htexts list hlist⟩
  · exact .inr ⟨herr, not_not.1 fun h => herr (hlisted.1 h)⟩

/-- Two lines, which are written behind an allocation -/
theorem writeLines_read_two :
    let lib : FileLibrary := ⟨fun _ => true, true, fun _ => none, none, true, 0⟩
    ∃ file heap, writeLines lib .crLf [bytes "ab", bytes "c"] (bytes "old") ⟨0, 0⟩ =
      some (.none, file, heap) ∧
      file = bytes "ab\r\nc" ∧ heap.live = 0 := by
  have hplain : ∀ line ∈ [bytes "ab", bytes "c"], PlainLine line := by
    intro line hline
    rcases List.mem_cons.1 hline with rfl | hline
    · exact ⟨by decide, by decide, by decide⟩
    · rw [List.mem_singleton] at hline
      rw [hline]
      exact ⟨by decide, by decide, by decide⟩
  intro lib
  obtain ⟨err, file, heap, hrun, hlive, -⟩ :=
    writeLines_read lib .crLf hplain (bytes "old") ⟨0, 0⟩
  have heval : (writeLines lib .crLf [bytes "ab", bytes "c"] (bytes "old") ⟨0, 0⟩).map
      (fun r => (r.1, r.2.1)) =
      some (.none, bytes "ab\r\nc") := by decide +kernel
  rw [hrun, Option.map_some, Option.some.injEq, Prod.mk.injEq] at heval
  obtain ⟨rfl, rfl⟩ := heval
  exact ⟨_, heap, hrun, rfl, hlive⟩

end

end FileReading

end XprcServer
