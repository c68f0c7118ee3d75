import XprcServer.Decimal

/-!
# Files of lines

`fileio.c`: lines are joined by the line end of the platform for writing, and a text that was read
is cut at every line end, be it CR, LF or both.  A file that can be read is the list of its bytes;
the allocations succeed.

* `splitLines_joinLines` : what is written as lines is read as the same lines;
* `splitLines_of_noLineEnd` : a text without line ends is one line.
-/

namespace XprcServer

/-- `LINE_END_SEQUENCE`: that of Windows, or that of the other platforms -/
inductive LineEndSequence where
  | lf
  | crLf
  deriving DecidableEq

/-- The characters of a line end -/
def LineEndSequence.bytes : LineEndSequence → List UInt8
  | .lf => [10]
  | .crLf => [13, 10]

/-- The loop of `split_lines`, with the part of the current line that was already passed -/
def splitLinesLoop : List UInt8 → List UInt8 → List (List UInt8)
  | line, [] => [line]
  | line, [ch] => if ch = 13 ∨ ch = 10 then [line, []] else [line ++ [ch]]
  | line, ch :: next :: s =>
    if ch = 13 ∧ next = 10 then line :: splitLinesLoop [] s
    else if ch = 13 ∨ ch = 10 then line :: splitLinesLoop [] (next :: s)
    else splitLinesLoop (line ++ [ch]) (next :: s)

/-- `split_lines` -/
def splitLines (s : List UInt8) : List (List UInt8) := splitLinesLoop [] s

/-- `join_lines` -/
def joinLines (lineEnd : LineEndSequence) : List (List UInt8) → List UInt8
  | [] => []
  | [line] => cString line
  | line :: next :: lines => cString line ++ lineEnd.bytes ++ joinLines lineEnd (next :: lines)

/-- `write_lines_to_file`: the bytes that the file holds afterwards -/
def writeLinesToFile (lineEnd : LineEndSequence) (lines : List (List UInt8)) : List UInt8 :=
  cString (joinLines lineEnd lines)

/-- `read_lines_from_file`, if the file can be read -/
def readLinesFromFile (file : Option (List UInt8)) : Option (List (List UInt8)) :=
  file.map splitLines

/-- `read_first_line_from_file` -/
def readFirstLineFromFile (file : Option (List UInt8)) : Option (List UInt8) :=
  (readLinesFromFile file).bind List.head?

example : splitLines (bytes "a\r\nb\n\rc\r") = [bytes "a", bytes "b", [], bytes "c", []] :=
  by decide

/-- A text that can be written as one line: neither line ends nor a NUL. -/
structure PlainLine (line : List UInt8) : Prop where
  cr : 13 ∉ line
  lf : 10 ∉ line
  nul : 0 ∉ line

variable {line : List UInt8} {lines : List (List UInt8)}

instance (line : List UInt8) : Decidable (PlainLine line) :=
  decidable_of_iff (13 ∉ line ∧ 10 ∉ line ∧ 0 ∉ line)
    ⟨fun ⟨hcr, hlf, hnul⟩ => ⟨hcr, hlf, hnul⟩, fun h => ⟨h.cr, h.lf, h.nul⟩⟩

theorem PlainLine.cString (h : PlainLine line) : cString line = line := cString_eq_self h.nul

/-- What is read up to a line end, or to the end of the text, is one line. -/
theorem splitLinesLoop_append (passed : List UInt8) {rest : List UInt8} (hcr : 13 ∉ line)
    (hlf : 10 ∉ line) :
    splitLinesLoop passed (line ++ rest) = splitLinesLoop (passed ++ line) rest := by
  induction line generalizing passed with
  | nil => simp
  | cons ch line ih =>
    have hch : ¬ (ch = 13 ∨ ch = 10) := by
      rintro (rfl | rfl)
      · exact hcr (by simp)
      · exact hlf (by simp)
    have hline := ih (passed ++ [ch]) (fun h => hcr (by simp [h])) fun h => hlf (by simp [h])
    rw [List.append_assoc] at hline
    rw [List.cons_append]
    cases hrest : line ++ rest with
    | nil =>
      obtain ⟨rfl, rfl⟩ := List.append_eq_nil_iff.1 hrest
      simp [splitLinesLoop, hch]
    | cons next s =>
      have hcrlf : ¬ (ch = 13 ∧ next = 10) := fun h => hch (.inl h.1)
      rw [splitLinesLoop, if_neg hcrlf, if_neg hch, ← hrest]
      exact hline

theorem splitLinesLoop_lineEnd (lineEnd : LineEndSequence) (passed rest : List UInt8) :
    splitLinesLoop passed (lineEnd.bytes ++ rest) = passed :: splitLinesLoop [] rest := by
  cases lineEnd with
  | lf => cases rest <;> simp [LineEndSequence.bytes, splitLinesLoop]
  | crLf => simp [LineEndSequence.bytes, splitLinesLoop]

theorem splitLines_of_noLineEnd (hcr : 13 ∉ line) (hlf : 10 ∉ line) : splitLines line = [line] := by
  have h : splitLinesLoop [] (line ++ []) = splitLinesLoop ([] ++ line) [] :=
    splitLinesLoop_append [] hcr hlf
  rw [List.append_nil, List.nil_append] at h
  rw [splitLines, h, splitLinesLoop]

/-- **What is written as lines is read as the same lines.** -/
theorem splitLines_joinLines (lineEnd : LineEndSequence) (hne : lines ≠ [])
    (hlines : ∀ line ∈ lines, PlainLine line) : splitLines (joinLines lineEnd lines) = lines := by
  induction lines with
  | nil => exact absurd rfl hne
  | cons line lines ih =>
    have hline := hlines line List.mem_cons_self
    cases lines with
    | nil =>
      rw [joinLines, hline.cString]
      exact splitLines_of_noLineEnd hline.cr hline.lf
    | cons next lines =>
      rw [joinLines, hline.cString, splitLines, List.append_assoc,
        splitLinesLoop_append [] hline.cr hline.lf, List.nil_append, splitLinesLoop_lineEnd]
      exact congrArg _ (ih (by simp) fun line h => hlines line (List.mem_cons_of_mem _ h))

theorem LineEndSequence.nul_not_mem (lineEnd : LineEndSequence) : 0 ∉ lineEnd.bytes := by
  cases lineEnd <;> decide

theorem nul_not_mem_joinLines (lineEnd : LineEndSequence) (lines : List (List UInt8)) :
    0 ∉ joinLines lineEnd lines := by
  induction lines with
  | nil => simp [joinLines]
  | cons line lines ih =>
    have hline := zero_not_mem_cString line
    cases lines with
    | nil => exact hline
    | cons next lines =>
      rw [joinLines, List.mem_append, List.mem_append]
      rintro ((h | h) | h)
      · exact hline h
      · exact lineEnd.nul_not_mem h
      · exact ih h

theorem writeLinesToFile_eq (lineEnd : LineEndSequence) (lines : List (List UInt8)) :
    writeLinesToFile lineEnd lines = joinLines lineEnd lines :=
  cString_eq_self (nul_not_mem_joinLines lineEnd lines)

/-- A file of no lines is read as one empty line. -/
theorem readLinesFromFile_writeLinesToFile (lineEnd : LineEndSequence)
    (hlines : ∀ line ∈ lines, PlainLine line) :
    readLinesFromFile (some (writeLinesToFile lineEnd lines)) =
      some (if lines = [] then [[]] else lines) := by
  rw [readLinesFromFile, Option.map_some, writeLinesToFile_eq]
  split_ifs with hne
  · rw [hne]
    rfl
  · rw [splitLines_joinLines lineEnd hne hlines]

end XprcServer
