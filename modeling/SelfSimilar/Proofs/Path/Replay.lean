import SelfSimilar.Path.Basic

/-!
# Replaying the hash of a path

A path keeps its hash up to date as segments are drawn, from where the pen is. The segments can
also be read off the commands afterwards, and the hash computed from them. `Path.InStep` says that
both ways agree, and the operations on paths keep it.

* `PathHash.count_ofStrokes`: the count of a replayed hash
* `Path.InStep.moveTo`, `Path.InStep.lineTo`, `Path.inStep_startingAt`: the operations keep step
* `Path.adds_lineTo`, `Path.Adds.trans`: the segments that a path has more than another one
-/

namespace SelfSimilar

variable {α : Type} [Scalar α]

/-- The segments that commands draw, in order. -/
def Command.strokes (commands : Array (Command α)) : Array (Stroke α) :=
  (commands.foldl Path.follow (⟨0, 0⟩, #[])).2

namespace PathHash

/-- The hash of segments, folded in one after another. -/
def ofStrokes (strokes : Array (Stroke α)) : PathHash α :=
  strokes.foldl (fun h s => h.add s.start s.stop) .fresh

/-- The last segment is folded in last. -/
theorem ofStrokes_push (strokes : Array (Stroke α)) (s : Stroke α) :
    ofStrokes (strokes.push s) = (ofStrokes strokes).add s.start s.stop := by
  simp [ofStrokes]

/-- A replayed hash counts its segments, modulo the prime. -/
theorem count_ofStrokes (strokes : Array (Stroke α)) :
    (ofStrokes strokes).count = strokes.size % modulus := by
  refine Array.foldl_induction (fun i (h : PathHash α) => h.count = i % modulus) rfl
    fun i h hcount => ?_
  -- the count is reduced at each step, and once would be enough
  show (h.count + 1) % modulus = _
  rw [hcount, Nat.mod_add_mod]

end PathHash

namespace Path

/-- The commands of a path begin with a move, and its hash is that of the segments drawn. -/
structure InStep (p : Path α) : Prop where
  /-- The first command is a move. -/
  begins : ∃ place rest, p.commands.toList = .moveTo place :: rest
  /-- The hash is the one that the segments give. -/
  hash_eq : p.hash = .ofStrokes p.segments

/-- A path begins with a move to where it starts, and its hash is that of no segments. -/
theorem inStep_startingAt (place : Position α) : (startingAt place).InStep :=
  ⟨⟨place, [], rfl⟩, rfl⟩

variable {p : Path α}

/-- A move keeps step. -/
theorem InStep.moveTo (h : p.InStep) (place : Position α) : (p.moveTo place).InStep where
  begins := by
    obtain ⟨first, rest, hcommands⟩ := h.begins
    exact ⟨first, rest ++ [.moveTo place], by simp [Path.moveTo, hcommands]⟩
  hash_eq := by rw [hash_moveTo, segments_moveTo, h.hash_eq]

/-- A line keeps step. -/
theorem InStep.lineTo (h : p.InStep) (place : Position α) : (p.lineTo place).InStep where
  begins := by
    obtain ⟨first, rest, hcommands⟩ := h.begins
    exact ⟨first, rest ++ [.lineTo place], by simp [Path.lineTo, hcommands]⟩
  -- the segment that is read off starts where the pen is, as the one that is folded in
  hash_eq := by rw [hash_lineTo, segments_lineTo, PathHash.ofStrokes_push, h.hash_eq]

/-- The count of a hash that is in step is the number of lines, modulo the prime. -/
theorem InStep.count_eq (h : p.InStep) : p.hash.count = p.segmentCount % PathHash.modulus := by
  rw [h.hash_eq, PathHash.count_ofStrokes, size_segments]

end Path

/-! ## Segments that are added -/

/-- The path `q` is the path `p` with more segments drawn after those of `p`. -/
structure Path.Adds (p q : Path α) (drawn : List (Stroke α)) : Prop where
  segments_eq : q.segments.toList = p.segments.toList ++ drawn
  /-- The segments are folded into the hash, one after another. -/
  hash_eq : q.hash = drawn.foldl (fun h s => h.add s.start s.stop) p.hash

namespace Path

variable {p q r : Path α} {drawn later : List (Stroke α)}

theorem Adds.refl (p : Path α) : p.Adds p [] := ⟨by simp, rfl⟩

theorem Adds.trans (h : p.Adds q drawn) (h' : q.Adds r later) : p.Adds r (drawn ++ later) where
  segments_eq := by rw [h'.segments_eq, h.segments_eq, List.append_assoc]
  hash_eq := by rw [h'.hash_eq, h.hash_eq, List.foldl_append]

/-- A line adds the segment from where the pen is. -/
theorem adds_lineTo (p : Path α) (place : Position α) : p.Adds (p.lineTo place) [⟨p.pen, place⟩] :=
  ⟨by simp, rfl⟩

/-- To move the pen first adds nothing. -/
theorem Adds.of_moveTo {place : Position α} (h : (p.moveTo place).Adds q drawn) : p.Adds q drawn :=
  ⟨by rw [h.segments_eq, segments_moveTo], h.hash_eq⟩

end Path

end SelfSimilar
