import XprcServer.Fileio

/-!
# Lines by their breaks

`split_lines` walks the text with two indices, of which the one of the loop is advanced by the body
too, and computes lengths by subtraction of `size_t`.  `join_lines` first adds up the lengths, then
copies into memory of that size.  Both are followed here on memory: an access outside of it has no
result.

* `Cut` : a text is cut at each CR LF, each CR before anything else, and each other LF, with nothing
  left to cut in the pieces; there is only one way to do so (`Cut.unique`);
* `SplitLines.run_eq` : the walk never leaves the text and has the lines that `splitLines` has;
* `cut_splitLines` : these are the pieces of the text;
* `JoinLines.run_eq` : the computed size is just what is written.
-/

namespace XprcServer

/-! ### The text and its breaks -/

/-- A line break in a text. -/
inductive LineBreak where
  | crLf
  | cr
  | lf
  deriving DecidableEq

/-- The characters of a line break -/
def LineBreak.bytes : LineBreak → List UInt8
  | .crLf => [13, 10]
  | .cr => [13]
  | .lf => [10]

/-- A text is cut into pieces at all its line breaks.  A CR is a break of its own only before
anything else than LF. -/
inductive Cut : List UInt8 → List (List UInt8) → List LineBreak → Prop where
  | last {piece : List UInt8} (cr : 13 ∉ piece) (lf : 10 ∉ piece) : Cut piece [piece] []
  | next {piece rest : List UInt8} {pieces : List (List UInt8)} {breaks : List LineBreak}
      (lineBreak : LineBreak) (cr : 13 ∉ piece) (lf : 10 ∉ piece)
      (alone : lineBreak = .cr → rest.head? ≠ some 10) (cut : Cut rest pieces breaks) :
      Cut (piece ++ (lineBreak.bytes ++ rest)) (piece :: pieces) (lineBreak :: breaks)

/-- Not a character of a line break -/
def isPlain (ch : UInt8) : Bool := ch ≠ 13 && ch ≠ 10

/-- The number of the breaks of a text: every LF, and every CR that does not stand before one. -/
def countBreaks : List UInt8 → ℕ
  | [] => 0
  | ch :: s => (if isPlain ch ∨ ch = 13 ∧ s.head? = some 10 then 0 else 1) + countBreaks s

/-! ### `split_lines` -/

/-- The difference of two `size_t` -/
def sizeSub (a b : ℕ) : ℕ := if b ≤ a then a - b else a + 2 ^ 64 - b

theorem sizeSub_eq {a b : ℕ} (h : b ≤ a) : sizeSub a b = a - b := if_pos h

/-- `copy_partial_string` for a part of the memory `s` -/
def copyPart (s : List UInt8) (start length : ℕ) : Option (List UInt8) :=
  if start + length ≤ s.length then some ((s.drop start).take length) else none

theorem copyPart_eq (before piece behind : List UInt8) :
    copyPart (before ++ (piece ++ behind)) before.length piece.length = some piece := by
  rw [copyPart, if_pos (by simp), List.drop_left, List.take_left]

namespace SplitLines

/-- The variables of the loop -/
structure State where
  i : ℕ
  startOfLine : ℕ
  lines : List (List UInt8)

/-- A line is being terminated: it is copied and appended. -/
def terminate (s : List UInt8) (st : State) : Option State :=
  (copyPart s st.startOfLine (sizeSub st.i st.startOfLine)).map fun line =>
    { st with lines := st.lines ++ [line], startOfLine := st.i + 1 }

/-- The LF of a sequence CR LF is skipped. -/
def skipLineFeed (s : List UInt8) (length : ℕ) (ch : UInt8) (st : State) : Option State :=
  if ch = 13 ∧ st.i < sizeSub length 1 then
    match s[st.i + 1]? with
    | none => none
    | some next =>
      some (if next = 10 then { st with i := st.i + 1, startOfLine := st.startOfLine + 1 } else st)
  else some st

/-- The body of the loop -/
def body (s : List UInt8) (length : ℕ) (st : State) : Option State :=
  match s[st.i]? with
  | none => none
  | some ch =>
    (if ch = 13 ∨ ch = 10 then terminate s st else some st).bind (skipLineFeed s length ch)

/-- The loop; the first argument bounds the number of rounds. -/
def loop (s : List UInt8) (length : ℕ) : ℕ → State → Option State
  | 0, st => if st.i < length then none else some st
  | rounds + 1, st =>
    if st.i < length then
      (body s length st).bind fun st => loop s length rounds { st with i := st.i + 1 }
    else some st

/-- What follows on the loop: the final line is added. -/
def finish (s : List UInt8) (length : ℕ) (st : State) : Option (List (List UInt8)) :=
  (copyPart s st.startOfLine (sizeSub length st.startOfLine)).map fun line => st.lines ++ [line]

/-- `split_lines` on the first `length` bytes of the memory `s` -/
def run (s : List UInt8) (length : ℕ) : Option (List (List UInt8)) :=
  (loop s length length ⟨0, 0, []⟩).bind (finish s length)

variable {s before line rest behind : List UInt8} {lines : List (List UInt8)} {length rounds : ℕ}
  {ch : UInt8}

/-- Where the loop stands: the text lies in memory, passed up to `i`, with the current line begun at
`start_of_line`. -/
structure Stands (s before line rest behind : List UInt8) (length : ℕ) : Prop where
  memory : s = before ++ (line ++ (rest ++ behind))
  length_eq : length = before.length + line.length + rest.length

/-- The state with the current line begun behind `before`. -/
def here (before line : List UInt8) (lines : List (List UInt8)) : State :=
  ⟨before.length + line.length, before.length, lines⟩

theorem Stands.char (h : Stands s before line (ch :: rest) behind length) :
    s[before.length + line.length]? = some ch := by
  rw [h.memory, ← List.append_assoc, List.getElem?_append_right (by simp)]
  simp

/-- The character was no line break. -/
theorem Stands.pass (h : Stands s before line (ch :: rest) behind length) :
    Stands s before (line ++ [ch]) rest behind length where
  memory := by rw [h.memory]; simp
  length_eq := by rw [h.length_eq]; simp; omega

/-- A new line begins behind a line break. -/
theorem Stands.next (lineBreak : List UInt8)
    (h : Stands s before line (lineBreak ++ rest) behind length) :
    Stands s (before ++ (line ++ lineBreak)) [] rest behind length where
  memory := by rw [h.memory]; simp
  length_eq := by rw [h.length_eq]; simp; omega

theorem Stands.copy (h : Stands s before line rest behind length) :
    copyPart s before.length (sizeSub (before.length + line.length) before.length) = some line := by
  rw [sizeSub_eq (by omega), Nat.add_sub_cancel_left, h.memory]
  exact copyPart_eq before line (rest ++ behind)

theorem body_plain (h : Stands s before line (ch :: rest) behind length)
    (hch : ¬ (ch = 13 ∨ ch = 10)) :
    body s length (here before line lines) = some (here before line lines) := by
  have hchar : s[(here before line lines).i]? = some ch := h.char
  have hcr : ¬ (ch = 13 ∧ (here before line lines).i < sizeSub length 1) := fun h => hch (.inl h.1)
  simp only [body, hchar, if_neg hch, Option.bind_some, skipLineFeed, if_neg hcr]

theorem terminate_here (h : Stands s before line rest behind length) :
    terminate s (here before line lines) =
      some ⟨before.length + line.length, before.length + line.length + 1, lines ++ [line]⟩ := by
  simp only [terminate, here, h.copy, Option.map_some]

/-- `length-1` does not wrap around, since a character has been read. -/
theorem Stands.last_iff (h : Stands s before line (ch :: rest) behind length) :
    before.length + line.length < sizeSub length 1 ↔ rest ≠ [] := by
  have hlength : length = before.length + line.length + (rest.length + 1) := h.length_eq
  rw [sizeSub_eq (by omega), ← List.length_pos_iff]
  omega

/-- A line break of one character ends the line. -/
theorem body_break (h : Stands s before line (ch :: rest) behind length)
    (hch : ch = 13 ∨ ch = 10) (halone : ¬ (ch = 13 ∧ rest.head? = some 10)) :
    body s length (here before line lines) =
      some ⟨before.length + line.length, before.length + line.length + 1, lines ++ [line]⟩ := by
  have hchar : s[(here before line lines).i]? = some ch := h.char
  simp only [body, hchar, if_pos hch, terminate_here h, Option.bind_some, skipLineFeed, h.last_iff]
  cases rest with
  | nil => simp
  | cons next rest =>
    have hnext : s[before.length + line.length + 1]? = some next := by
      have := h.pass.char
      rwa [List.length_append, List.length_singleton, ← Nat.add_assoc] at this
    split_ifs with hcr
    · have hlf : next ≠ 10 := fun hlf => halone ⟨hcr.1, by rw [hlf]; rfl⟩
      simp only [hnext, if_neg hlf]
    · rfl

/-- CR LF ends the line, and its LF is skipped. -/
theorem body_crLf (h : Stands s before line (13 :: 10 :: rest) behind length) :
    body s length (here before line lines) =
      some ⟨before.length + line.length + 1, before.length + line.length + 2, lines ++ [line]⟩ := by
  have hchar : s[(here before line lines).i]? = some 13 := h.char
  have hnext : s[before.length + line.length + 1]? = some 10 := by
    have := h.pass.char
    rwa [List.length_append, List.length_singleton, ← Nat.add_assoc] at this
  have hlast := h.last_iff.2 (List.cons_ne_nil 10 rest)
  simp only [body, hchar, true_or, if_true, terminate_here h, Option.bind_some, skipLineFeed,
    true_and, hlast, hnext]

theorem finish_here (h : Stands s before line [] behind length) :
    finish s length (here before line lines) = some (lines ++ [line]) := by
  have hlength : length = before.length + line.length := h.length_eq
  have hcopy := h.copy
  rw [← hlength] at hcopy
  simp only [finish, here, hcopy, Option.map_some]

theorem loop_here (h : Stands s before line [] behind length) :
    loop s length rounds (here before line lines) = some (here before line lines) := by
  have hlength : length = before.length + line.length := h.length_eq
  have hover : ¬ (here before line lines).i < length := by
    rw [hlength]
    exact Nat.lt_irrefl _
  cases rounds <;> simp only [loop, if_neg hover]

end SplitLines

theorem splitLinesLoop_cons (line : List UInt8) (ch : UInt8) (rest : List UInt8) :
    splitLinesLoop line (ch :: rest) =
      if ch = 13 ∧ rest.head? = some 10 then line :: splitLinesLoop [] rest.tail
      else if ch = 13 ∨ ch = 10 then line :: splitLinesLoop [] rest
      else splitLinesLoop (line ++ [ch]) rest := by
  cases rest with
  | nil => simp [splitLinesLoop]
  | cons next rest => simp [splitLinesLoop]

namespace SplitLines

variable {s before line rest behind : List UInt8} {lines : List (List UInt8)} {length rounds : ℕ}
  {ch : UInt8}

/-- The loop and the final line, from where the walk stands.  A round passes one character, or both
of CR LF. -/
theorem loop_finish (h : Stands s before line rest behind length) (hrounds : rest.length ≤ rounds)
    (lines : List (List UInt8)) :
    (loop s length rounds (here before line lines)).bind (finish s length) =
      some (lines ++ splitLinesLoop line rest) := by
  induction rounds generalizing before line rest lines with
  | zero =>
    obtain rfl : rest = [] := List.length_eq_zero_iff.1 (by omega)
    rw [loop_here h, Option.bind_some, finish_here h, splitLinesLoop]
  | succ rounds ih =>
    cases rest with
    | nil => rw [loop_here h, Option.bind_some, finish_here h, splitLinesLoop]
    | cons ch rest =>
      rw [List.length_cons] at hrounds
      have hgoes : (here before line lines).i < length := by
        simp only [here, h.length_eq, List.length_cons]
        omega
      rw [loop, if_pos hgoes, splitLinesLoop_cons]
      by_cases hpair : ch = 13 ∧ rest.head? = some 10
      · obtain ⟨rfl, hhead⟩ := hpair
        obtain ⟨rest, rfl⟩ : ∃ s, rest = 10 :: s := by
          cases rest with
          | nil => cases hhead
          | cons next rest => exact ⟨rest, by rw [Option.some.inj hhead]⟩
        rw [List.length_cons] at hrounds
        have hbehind := ih (h.next [13, 10]) (by omega) (lines ++ [line])
        rw [body_crLf h, if_pos ⟨rfl, rfl⟩, Option.bind_some]
        simpa [here, Nat.add_assoc] using hbehind
      · rw [if_neg hpair]
        by_cases hch : ch = 13 ∨ ch = 10
        · have hbehind := ih (h.next [ch]) (by omega) (lines ++ [line])
          rw [body_break h hch hpair, if_pos hch, Option.bind_some]
          simpa [here, Nat.add_assoc] using hbehind
        · have hpass := ih h.pass (by omega) lines
          rw [body_plain h hch, if_neg hch, Option.bind_some]
          simpa [here, Nat.add_assoc] using hpass

/-- **The walk stays within the text and has its lines.** -/
theorem run_eq (text behind : List UInt8) :
    run (text ++ behind) text.length = some (splitLines text) := by
  have h : Stands (text ++ behind) [] [] text behind text.length :=
    ⟨by rw [List.nil_append, List.nil_append], (Nat.zero_add _).symm⟩
  have hwalk := loop_finish h (Nat.le_refl _) []
  rw [here, List.length_nil, List.nil_append] at hwalk
  rw [run, splitLines]
  exact hwalk

end SplitLines

/-! ### The lines are the pieces -/

variable {line passed rest text : List UInt8} {lines pieces pieces' : List (List UInt8)}
  {breaks breaks' : List LineBreak} {ch : UInt8}

/-- The part of a line that was already passed belongs to the first piece. -/
theorem cut_splitLinesLoop (hcr : 13 ∉ passed) (hlf : 10 ∉ passed) :
    ∃ breaks, Cut (passed ++ rest) (splitLinesLoop passed rest) breaks ∧
      breaks.length = countBreaks rest := by
  induction hn : rest.length using Nat.strongRecOn generalizing passed rest with
  | ind n ih =>
    subst hn
    cases rest with
    | nil =>
      rw [List.append_nil, splitLinesLoop]
      exact ⟨[], .last hcr hlf, rfl⟩
    | cons ch rest =>
      rw [splitLinesLoop_cons]
      by_cases hpair : ch = 13 ∧ rest.head? = some 10
      · obtain ⟨rfl, hhead⟩ := hpair
        obtain ⟨rest, rfl⟩ : ∃ s, rest = 10 :: s := List.head?_eq_some_iff.1 hhead
        obtain ⟨breaks, hcut, hbreaks⟩ := ih rest.length
          (by rw [List.length_cons, List.length_cons]; omega) List.not_mem_nil List.not_mem_nil rfl
        rw [if_pos ⟨rfl, rfl⟩]
        refine ⟨.crLf :: breaks, .next .crLf hcr hlf (fun h => by cases h) hcut, ?_⟩
        rw [List.length_cons, hbreaks]
        simp [countBreaks, isPlain, Nat.add_comm]
      · rw [if_neg hpair]
        by_cases hch : ch = 13 ∨ ch = 10
        · obtain ⟨breaks, hcut, hbreaks⟩ := ih rest.length (by simp) List.not_mem_nil
            List.not_mem_nil rfl
          have hcount : countBreaks (ch :: rest) = 1 + countBreaks rest := by
            rw [countBreaks, if_neg]
            rcases hch with rfl | rfl
            · simpa [isPlain] using hpair
            · simp [isPlain]
          rw [if_pos hch]
          rcases hch with rfl | rfl
          · refine ⟨.cr :: breaks, .next .cr hcr hlf (fun _ h => hpair ⟨rfl, h⟩) hcut, ?_⟩
            rw [hcount, List.length_cons, hbreaks, Nat.add_comm]
          · refine ⟨.lf :: breaks, .next .lf hcr hlf (fun h => by cases h) hcut, ?_⟩
            rw [hcount, List.length_cons, hbreaks, Nat.add_comm]
        · have hplain : isPlain ch = true := by simpa [isPlain] using hch
          obtain ⟨h13, h10⟩ := not_or.1 hch
          have hcr' : 13 ∉ passed ++ [ch] := by simpa [hcr] using Ne.symm h13
          have hlf' : 10 ∉ passed ++ [ch] := by simpa [hlf] using Ne.symm h10
          obtain ⟨breaks, hcut, hbreaks⟩ := ih rest.length (by simp) hcr' hlf' rfl
          rw [if_neg hch, countBreaks, if_pos (.inl hplain), Nat.zero_add]
          exact ⟨breaks, by simpa using hcut, hbreaks⟩

/-- **The lines are the pieces of the text.** -/
theorem cut_splitLines (text : List UInt8) :
    ∃ breaks, Cut text (splitLines text) breaks ∧ breaks.length = countBreaks text :=
  cut_splitLinesLoop List.not_mem_nil List.not_mem_nil

theorem Cut.length (h : Cut text pieces breaks) : pieces.length = breaks.length + 1 := by
  induction h with
  | last => rfl
  | next _ _ _ _ _ ih => rw [List.length_cons, ih, List.length_cons]

theorem filter_isPlain (hcr : 13 ∉ line) (hlf : 10 ∉ line) : line.filter isPlain = line := by
  refine List.filter_eq_self.2 fun ch h => ?_
  have h13 : ch ≠ 13 := fun heq => hcr (heq ▸ h)
  have h10 : ch ≠ 10 := fun heq => hlf (heq ▸ h)
  simp [isPlain, h13, h10]

/-- The pieces in a row are the text without its breaks. -/
theorem Cut.flatten (h : Cut text pieces breaks) : pieces.flatten = text.filter isPlain := by
  induction h with
  | last cr lf => rw [filter_isPlain cr lf, List.flatten_cons, List.flatten_nil, List.append_nil]
  | next lineBreak cr lf _ _ ih =>
    have hbreak : lineBreak.bytes.filter isPlain = [] := by cases lineBreak <;> rfl
    rw [List.filter_append, List.filter_append, hbreak, List.nil_append, filter_isPlain cr lf,
      List.flatten_cons, ih]

theorem LineBreak.splitLinesLoop (lineBreak : LineBreak)
    (halone : lineBreak = .cr → rest.head? ≠ some 10) :
    splitLinesLoop passed (lineBreak.bytes ++ rest) = passed :: splitLinesLoop [] rest := by
  cases lineBreak with
  | crLf => exact splitLinesLoop_lineEnd .crLf passed rest
  | lf => exact splitLinesLoop_lineEnd .lf passed rest
  | cr =>
    rw [LineBreak.bytes, List.singleton_append, splitLinesLoop_cons,
      if_neg fun h => halone rfl h.2, if_pos (.inl rfl)]

/-- **There is only one way to cut a text.** -/
theorem Cut.unique (h : Cut text pieces breaks) : pieces = splitLines text := by
  induction h with
  | last cr lf => exact (splitLines_of_noLineEnd cr lf).symm
  | next lineBreak cr lf alone _ ih =>
    rw [splitLines, splitLinesLoop_append [] cr lf, lineBreak.splitLinesLoop alone, List.nil_append,
      ih, splitLines]

/-! ### `join_lines` -/

namespace JoinLines

/-- The memory to be returned, written up to `offset`. -/
structure State where
  out : List UInt8
  offset : ℕ

/-- `memcpy` behind what has been written; nothing if the memory is too small -/
def put (chars : List UInt8) (st : State) : Option State :=
  if st.offset + chars.length ≤ st.out.length then
    some
      { out := st.out.take st.offset ++ (chars ++ st.out.drop (st.offset + chars.length))
        offset := st.offset + chars.length }
  else none

/-- The loop over the lengths -/
def totalLength (lineEnd : LineEndSequence) : ℕ → List (List UInt8) → ℕ
  | total, [] => total
  | total, [line] => (total + strlen line) % 2 ^ 64
  | total, line :: next :: lines =>
    totalLength lineEnd ((total + strlen line + lineEnd.bytes.length) % 2 ^ 64) (next :: lines)

/-- The loop that copies -/
def copyLines (lineEnd : LineEndSequence) : List (List UInt8) → State → Option State
  | [], st => some st
  | [line], st => if 0 < strlen line then put (cString line) st else some st
  | line :: next :: lines, st =>
    ((if 0 < strlen line then put (cString line) st else some st).bind (put lineEnd.bytes)).bind
      (copyLines lineEnd (next :: lines))

/-- `join_lines`: the memory that is returned -/
def run (lineEnd : LineEndSequence) (lines : List (List UInt8)) : Option (List UInt8) :=
  ((copyLines lineEnd lines ⟨List.replicate ((totalLength lineEnd 0 lines + 1) % 2 ^ 64) 0, 0⟩).bind
    (put [0])).map State.out

variable {lineEnd : LineEndSequence} {done chars behind : List UInt8} {n total : ℕ}

theorem put_eq (done chars : List UInt8) (n : ℕ) :
    put chars ⟨done ++ List.replicate (chars.length + n) 0, done.length⟩ =
      some ⟨done ++ chars ++ List.replicate n 0, (done ++ chars).length⟩ := by
  rw [put, if_pos (by simp), List.take_left, List.drop_append, List.drop_of_length_le (by simp),
    Nat.add_sub_cancel_left, List.drop_replicate, Nat.add_sub_cancel_left, List.nil_append,
    List.append_assoc, List.length_append]

/-- Nothing is copied for an empty line, which is what copying would do. -/
theorem put_line (line done : List UInt8) (n : ℕ) :
    (if 0 < strlen line then
        put (cString line) ⟨done ++ List.replicate ((cString line).length + n) 0, done.length⟩
      else some ⟨done ++ List.replicate ((cString line).length + n) 0, done.length⟩) =
      some ⟨done ++ cString line ++ List.replicate n 0, (done ++ cString line).length⟩ := by
  split_ifs with h
  · exact put_eq done (cString line) n
  · have hnil : cString line = [] := List.length_eq_zero_iff.1 (Nat.eq_zero_of_not_pos h)
    simp [hnil]

/-- The first loop computes the size of what the second one writes. -/
theorem totalLength_eq (hfits : total + (joinLines lineEnd lines).length < 2 ^ 64) :
    totalLength lineEnd total lines = total + (joinLines lineEnd lines).length := by
  induction lines generalizing total with
  | nil => simp [totalLength, joinLines]
  | cons line lines ih =>
    cases lines with
    | nil =>
      rw [joinLines] at hfits ⊢
      exact Nat.mod_eq_of_lt hfits
    | cons next lines =>
      rw [joinLines, List.length_append, List.length_append] at hfits ⊢
      have hmod : (total + strlen line + lineEnd.bytes.length) % 2 ^ 64 =
          total + strlen line + lineEnd.bytes.length := by
        refine Nat.mod_eq_of_lt ?_
        rw [strlen]
        omega
      rw [totalLength, hmod, ih (by rw [strlen]; omega), strlen]
      omega

theorem copyLines_eq (lineEnd : LineEndSequence) (lines : List (List UInt8))
    (done : List UInt8) (n : ℕ) :
    copyLines lineEnd lines
        ⟨done ++ List.replicate ((joinLines lineEnd lines).length + n) 0, done.length⟩ =
      some ⟨done ++ joinLines lineEnd lines ++ List.replicate n 0,
        (done ++ joinLines lineEnd lines).length⟩ := by
  induction lines generalizing done with
  | nil => simp [copyLines, joinLines]
  | cons line lines ih =>
    cases lines with
    | nil => exact put_line line done n
    | cons next lines =>
      have hsize : (joinLines lineEnd (line :: next :: lines)).length + n =
          (cString line).length + (lineEnd.bytes.length +
            ((joinLines lineEnd (next :: lines)).length + n)) := by
        rw [joinLines, List.length_append, List.length_append]
        omega
      rw [copyLines, hsize, put_line, Option.bind_some, put_eq, Option.bind_some, ih, joinLines]
      simp only [List.append_assoc]

/-- **The size that was computed is just what is written**, with the NUL behind it. -/
theorem run_eq (hfits : (joinLines lineEnd lines).length + 1 < 2 ^ 64) :
    run lineEnd lines = some (joinLines lineEnd lines ++ [0]) := by
  have hcopy := copyLines_eq lineEnd lines [] 1
  rw [List.nil_append, List.nil_append, List.length_nil] at hcopy
  have hput := put_eq (joinLines lineEnd lines) [0] 0
  rw [run, totalLength_eq (by omega), Nat.zero_add, Nat.mod_eq_of_lt hfits, hcopy, Option.bind_some]
  simpa using congrArg (Option.map State.out) hput

end JoinLines

/-- **Lines are what lies between the breaks of a text**, and what is joined is split into the same
lines again. -/
theorem splitLines_pieces :
    (∀ (lineEnd : LineEndSequence) (lines : List (List UInt8)), lines ≠ [] →
      (∀ line ∈ lines, PlainLine line) → (joinLines lineEnd lines).length + 1 < 2 ^ 64 →
      ∃ text, JoinLines.run lineEnd lines = some (text ++ [0]) ∧
        SplitLines.run (text ++ [0]) text.length = some lines) ∧
    ∀ text behind : List UInt8,
      ∃ lines, SplitLines.run (text ++ behind) text.length = some lines ∧
        (∃ breaks, Cut text lines breaks) ∧
        (∀ pieces breaks, Cut text pieces breaks → pieces = lines) ∧
        lines.length = countBreaks text + 1 ∧ lines.flatten = text.filter isPlain := by
  constructor
  · intro lineEnd lines hne hlines hfits
    refine ⟨joinLines lineEnd lines, JoinLines.run_eq hfits, ?_⟩
    rw [SplitLines.run_eq, splitLines_joinLines lineEnd hne hlines]
  · intro text behind
    obtain ⟨breaks, hcut, hbreaks⟩ := cut_splitLines text
    refine ⟨splitLines text, SplitLines.run_eq text behind, ⟨breaks, hcut⟩,
      fun _ _ h => h.unique, ?_, hcut.flatten⟩
    rw [hcut.length, hbreaks]

theorem splitLines_pieces_emptyLines :
    ∃ text, JoinLines.run .crLf [bytes "a", [], bytes "b", []] = some (text ++ [0]) ∧
      SplitLines.run (text ++ [0]) text.length = some [bytes "a", [], bytes "b", []] :=
  splitLines_pieces.1 .crLf [bytes "a", [], bytes "b", []] (by decide)
    (by
      simp only [List.forall_mem_cons]
      exact ⟨⟨by decide, by decide, by decide⟩, ⟨by decide, by decide, by decide⟩,
        ⟨by decide, by decide, by decide⟩, ⟨by decide, by decide, by decide⟩, by simp⟩)
    (by decide)

end XprcServer
