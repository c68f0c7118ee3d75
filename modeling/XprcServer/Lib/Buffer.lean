import Mathlib.Data.List.Basic

/-!
# Buffers written front to back

A buffer of fixed size whose cells start as zeros, and a position that moves forward as pieces are
written.  Writing behind the end is outside the buffer and yields `none`, so that staying inside is
something to prove.

* `Buffer.Holds.put` : a piece that fits is appended to what has been written;
* `Buffer.Holds.putAll`, `Buffer.Holds.putAll_eq_none` : pieces written one after the other fit
  exactly if all of them together do.
-/

namespace Lib

/-- The cells of a buffer and the position of the next one to write. -/
structure Buffer (α : Type) where
  cells : List α
  position : ℕ

namespace Buffer

variable {α : Type}

/-- A fresh buffer of zeros. -/
def zeroed (zero : α) (size : ℕ) : Buffer α := ⟨List.replicate size zero, 0⟩

/-- A piece written at the position, which moves behind it. -/
def put (b : Buffer α) (piece : List α) : Option (Buffer α) :=
  if b.position + piece.length ≤ b.cells.length then
    some ⟨b.cells.take b.position ++ piece ++ b.cells.drop (b.position + piece.length),
      b.position + piece.length⟩
  else none

/-- Pieces written one after the other. -/
def putAll (b : Buffer α) : List (List α) → Option (Buffer α)
  | [] => some b
  | piece :: pieces => b.put piece >>= fun b => b.putAll pieces

/-- `text` has been written, and `room` zeros are left. -/
structure Holds (zero : α) (b : Buffer α) (text : List α) (room : ℕ) : Prop where
  cells : b.cells = text ++ List.replicate room zero
  position : b.position = text.length

variable {zero : α} {b : Buffer α} {text : List α} {room : ℕ}

theorem holds_zeroed (zero : α) (size : ℕ) : Holds zero (zeroed zero size) [] size := ⟨rfl, rfl⟩

theorem Holds.put (h : Holds zero b text room) {piece : List α} (hfit : piece.length ≤ room) :
    ∃ b', b.put piece = some b' ∧ Holds zero b' (text ++ piece) (room - piece.length) := by
  have hlen : b.position + piece.length ≤ b.cells.length := by
    rw [h.cells, h.position, List.length_append, List.length_replicate]
    omega
  refine ⟨_, if_pos hlen, ?_, ?_⟩
  · simp only [h.cells, h.position, List.take_left, List.append_assoc, List.append_cancel_left_eq]
    rw [List.drop_append, List.drop_eq_nil_of_le (by omega), List.nil_append, List.drop_replicate]
    rw [show room - (text.length + piece.length - text.length) = room - piece.length by omega]
  · simp [h.position]

theorem Holds.put_eq_none (h : Holds zero b text room) {piece : List α}
    (hfit : room < piece.length) :
    b.put piece = none := by
  refine if_neg ?_
  rw [h.cells, h.position, List.length_append, List.length_replicate]
  omega

/-- Pieces that fit all together are written one behind the other. -/
theorem Holds.putAll (h : Holds zero b text room) {pieces : List (List α)}
    (hfit : pieces.flatten.length ≤ room) :
    ∃ b', b.putAll pieces = some b' ∧
      Holds zero b' (text ++ pieces.flatten) (room - pieces.flatten.length) := by
  induction pieces generalizing b text room with
  | nil => exact ⟨b, rfl, by simpa using h⟩
  | cons piece pieces ih =>
    simp only [List.flatten_cons, List.length_append] at hfit ⊢
    obtain ⟨b', hput, h'⟩ := h.put (show piece.length ≤ room by omega)
    obtain ⟨b'', hall, h''⟩ := ih h' (by omega)
    refine ⟨b'', by rw [Buffer.putAll, hput]; exact hall, ?_⟩
    rw [List.append_assoc] at h''
    rwa [Nat.sub_sub] at h''

/-- Pieces that do not fit all together leave the buffer somewhere on the way. -/
theorem Holds.putAll_eq_none (h : Holds zero b text room) {pieces : List (List α)}
    (hfit : room < pieces.flatten.length) : b.putAll pieces = none := by
  induction pieces generalizing b text room with
  | nil => simp at hfit
  | cons piece pieces ih =>
    simp only [List.flatten_cons, List.length_append] at hfit
    rw [Buffer.putAll]
    rcases Nat.lt_or_ge room piece.length with hlt | hle
    · rw [h.put_eq_none hlt]
      rfl
    · obtain ⟨b', hput, h'⟩ := h.put hle
      rw [hput]
      exact ih h' (by omega)

end Buffer

end Lib
