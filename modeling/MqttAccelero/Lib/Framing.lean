import Mathlib.Data.List.Basic

/-!
# Framing over a packet link

A link carries packets of at most `size` elements. A frame is sent as packets of
exactly `size` elements followed by one shorter packet, which is empty when the
length of the frame is a multiple of `size`.

`packetize` is the sender. `reassemble` is a receiver which collects packets
until its rule `ends` closes the frame; the rule sees the number of elements
collected so far and the length of the packet just added, so that a receiver
may also close a frame early once it is long enough.
-/

namespace MqttAccelero.Framing

universe u

variable {α : Type u}

/-- The packet of `frame` which follows `index` full packets. -/
def packetAt (size : ℕ) (frame : List α) (index : ℕ) : List α :=
  (frame.drop (index * size)).take size

/-- The packets of one frame, ended by a packet shorter than `size`. -/
def packetize (size : ℕ) (frame : List α) : List (List α) :=
  (List.range (frame.length / size + 1)).map (packetAt size frame)

/-- Collect packets into frames, starting with the elements `pending`. -/
def reassemble (ends : ℕ → ℕ → Bool) : List α → List (List α) → List (List α) × List α
  | pending, [] => ([], pending)
  | pending, packet :: rest =>
      if ends (pending ++ packet).length packet.length then
        ((pending ++ packet) :: (reassemble ends [] rest).1, (reassemble ends [] rest).2)
      else
        reassemble ends (pending ++ packet) rest

def endsAtShort (size : ℕ) (_total length : ℕ) : Bool :=
  decide (length < size)

/-- A frame ends at a packet shorter than `size`, or once `limit` elements are collected. -/
def endsAtShortOr (size limit : ℕ) (total length : ℕ) : Bool :=
  decide (length < size) || decide (limit ≤ total)

/-! ## The packets of one frame -/

theorem length_packetAt (size : ℕ) (frame : List α) (index : ℕ) :
    (packetAt size frame index).length = min size (frame.length - index * size) := by
  simp [packetAt]

theorem length_packetAt_of_lt {size : ℕ} {frame : List α} {index : ℕ}
    (positive : 0 < size) (inside : index < frame.length / size) :
    (packetAt size frame index).length = size := by
  have room : (index + 1) * size ≤ frame.length :=
    (Nat.le_div_iff_mul_le positive).mp inside
  rw [Nat.add_mul, Nat.one_mul] at room
  rw [length_packetAt]
  omega

theorem length_packetAt_last_lt {size : ℕ} (frame : List α) (positive : 0 < size) :
    (packetAt size frame (frame.length / size)).length < size := by
  have division := Nat.div_add_mod frame.length size
  have short := Nat.mod_lt frame.length positive
  rw [Nat.mul_comm] at division
  rw [length_packetAt]
  omega

theorem packetize_eq_append_last (size : ℕ) (frame : List α) :
    packetize size frame =
      (List.range (frame.length / size)).map (packetAt size frame) ++
        [packetAt size frame (frame.length / size)] := by
  simp [packetize, List.range_succ]

/-! ## Reassembly -/

@[simp]
theorem reassemble_nil (ends : ℕ → ℕ → Bool) (pending : List α) :
    reassemble ends pending [] = ([], pending) := rfl

theorem reassemble_append (ends : ℕ → ℕ → Bool) (pending : List α)
    (first second : List (List α)) :
    reassemble ends pending (first ++ second) =
      ((reassemble ends pending first).1 ++
          (reassemble ends (reassemble ends pending first).2 second).1,
        (reassemble ends (reassemble ends pending first).2 second).2) := by
  induction first generalizing pending with
  | nil => simp
  | cons packet rest ih =>
      simp only [List.cons_append, reassemble]
      split
      · rw [ih]
        rfl
      · exact ih _

/-- More packets only add frames. -/
theorem reassemble_initial (ends : ℕ → ℕ → Bool) (pending : List α)
    {first all : List (List α)} (initial : first <+: all) :
    (reassemble ends pending first).1 <+: (reassemble ends pending all).1 := by
  rcases initial with ⟨second, rfl⟩
  rw [reassemble_append]
  exact List.prefix_append _ _

theorem reassemble_concat_ends {ends : ℕ → ℕ → Bool} {packets frames : List (List α)}
    {start pending packet : List α} (before : reassemble ends start packets = (frames, pending))
    (closed : ends (pending ++ packet).length packet.length = true) :
    reassemble ends start (packets ++ [packet]) = (frames ++ [pending ++ packet], []) := by
  rw [reassemble_append, before]
  simp only [reassemble, closed, if_true]

theorem reassemble_concat_open {ends : ℕ → ℕ → Bool} {packets frames : List (List α)}
    {start pending packet : List α} (before : reassemble ends start packets = (frames, pending))
    (unclosed : ends (pending ++ packet).length packet.length = false) :
    reassemble ends start (packets ++ [packet]) = (frames, pending ++ packet) := by
  rw [reassemble_append, before]
  simp only [reassemble, unclosed, Bool.false_eq_true, if_false, List.append_nil]

theorem reassemble_full_packets {ends : ℕ → ℕ → Bool} {size : ℕ} {frame : List α} {count : ℕ}
    (positive : 0 < size) (inside : count ≤ frame.length / size)
    (unclosed : ∀ index, index * size ≤ frame.length → ends (index * size) size = false) :
    reassemble ends [] ((List.range count).map (packetAt size frame)) =
      ([], frame.take (count * size)) := by
  induction count with
  | zero => simp
  | succ count ih =>
      have fullLength : (packetAt size frame count).length = size :=
        length_packetAt_of_lt positive inside
      have room : (count + 1) * size ≤ frame.length :=
        (Nat.le_div_iff_mul_le positive).mp inside
      have joined : frame.take (count * size) ++ packetAt size frame count =
          frame.take ((count + 1) * size) := by
        rw [Nat.add_mul, Nat.one_mul, List.take_add, packetAt]
      rw [List.range_succ, List.map_append, List.map_singleton,
        reassemble_concat_open (ih (Nat.le_of_succ_le inside)), joined]
      rw [joined, fullLength, List.length_take, Nat.min_eq_left room]
      exact unclosed _ room

/-- A receiver that closes no frame early recovers one frame from its packets. -/
theorem reassemble_packetize {ends : ℕ → ℕ → Bool} {size : ℕ} {frame : List α}
    (positive : 0 < size)
    (short : ∀ total length, length < size → ends total length = true)
    (unclosed : ∀ index, index * size ≤ frame.length → ends (index * size) size = false) :
    reassemble ends [] (packetize size frame) = ([frame], []) := by
  have opened := reassemble_full_packets positive (Nat.le_refl _) unclosed
  have joined : frame.take (frame.length / size * size) ++
      packetAt size frame (frame.length / size) = frame := by
    rw [packetAt, ← List.take_add, List.take_of_length_le]
    have covered := Nat.lt_mul_div_succ frame.length positive
    rw [Nat.mul_add, Nat.mul_one, Nat.mul_comm] at covered
    exact Nat.le_of_lt covered
  rw [packetize_eq_append_last, reassemble_concat_ends opened, joined]
  · rfl
  · exact short _ _ (length_packetAt_last_lt frame positive)

/-- The receiver recovers any sequence of frames from the sender's packets. -/
theorem reassemble_flatMap_packetize {ends : ℕ → ℕ → Bool} {size : ℕ} {frames : List (List α)}
    (positive : 0 < size)
    (short : ∀ total length, length < size → ends total length = true)
    (unclosed : ∀ frame ∈ frames, ∀ index, index * size ≤ frame.length →
      ends (index * size) size = false) :
    reassemble ends [] (frames.flatMap (packetize size)) = (frames, []) := by
  induction frames with
  | nil => rfl
  | cons frame rest ih =>
      have head := reassemble_packetize positive short (unclosed frame List.mem_cons_self)
      have tail := ih fun other member => unclosed other (List.mem_cons_of_mem _ member)
      rw [List.flatMap_cons, reassemble_append, head]
      simp [tail]

theorem endsAtShort_of_lt {size total length : ℕ} (short : length < size) :
    endsAtShort size total length = true := by
  simp [endsAtShort, short]

theorem endsAtShort_full (size total : ℕ) : endsAtShort size total size = false := by
  simp [endsAtShort]

theorem endsAtShortOr_of_lt {size limit total length : ℕ} (short : length < size) :
    endsAtShortOr size limit total length = true := by
  simp [endsAtShortOr, short]

theorem endsAtShortOr_full {size limit total : ℕ} (below : total < limit) :
    endsAtShortOr size limit total size = false := by
  simp [endsAtShortOr]
  omega

end MqttAccelero.Framing
