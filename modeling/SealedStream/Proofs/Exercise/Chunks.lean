import SealedStream.Exercise.Chunks
import SealedStream.Proofs.Stream.Pieces

/-!
# A text cut into chunks

Cutting takes a chunk off the text for one size after the other, over and over, until
nothing is left. Since a chunk holds a byte at least, it comes to an end; nothing of the
text is lost, and a sealed stream is the same whether it is written in chunks or at once.
-/

namespace SealedStream

namespace Exercise

/-- The size of the chunk that is cut in a turn. -/
def sizeAt (sizes : List Nat) (turn : Nat) : Nat := max 1 (sizes.getD (turn % sizes.length) 1)

/-- A cutting on its way. -/
structure Cutting where
  /-- How many chunks have been cut. -/
  turn : Nat := 0
  /-- What is left of the text. -/
  rest : Bytes
  cut : List Bytes := []

/-- One chunk is cut off. -/
def Cutting.next (sizes : List Nat) (c : Cutting) : Cutting where
  turn := c.turn + 1
  rest := c.rest.drop (sizeAt sizes c.turn)
  cut := c.cut ++ [c.rest.take (sizeAt sizes c.turn)]

variable {sizes : List Nat} {turn : Nat} {text : Bytes}

theorem sizeAt_of_getElem? {size : Nat} (h : sizes[turn % sizes.length]? = some size) :
    sizeAt sizes turn = max 1 size := by
  rw [sizeAt, List.getD_eq_getElem?_getD, h, Option.getD_some]

/-- Turn after turn, a cutting makes the chunks of its text, and it is then that nothing is
left. -/
theorem iterate_next (hs : sizes ≠ []) (turn : Nat) (text : Bytes) (cut : List Bytes) :
    (Cutting.next sizes)^[(chunksFrom sizes turn text).length] ⟨turn, text, cut⟩ =
        ⟨turn + (chunksFrom sizes turn text).length, [], cut ++ chunksFrom sizes turn text⟩ ∧
      ∀ n < (chunksFrom sizes turn text).length,
        ((Cutting.next sizes)^[n] ⟨turn, text, cut⟩).rest ≠ [] := by
  fun_induction chunksFrom sizes turn text generalizing cut with
  | case1 turn text h =>
    obtain rfl := h.resolve_right hs
    exact ⟨by simp, nofun⟩
  | case2 turn text h size ih =>
    have hnext : Cutting.next sizes ⟨turn, text, cut⟩ =
        ⟨turn + 1, text.drop size, cut ++ [text.take size]⟩ := rfl
    obtain ⟨hdone, hbefore⟩ := ih (cut ++ [text.take size])
    constructor
    · rw [List.length_cons, Function.iterate_succ_apply, hnext, hdone, List.append_assoc,
        List.singleton_append, Nat.add_right_comm, Nat.add_assoc]
    · intro n hn
      cases n with
      | zero => exact (not_or.mp h).1
      | succ n =>
        rw [Function.iterate_succ_apply, hnext]
        exact hbefore n (Nat.lt_of_succ_lt_succ hn)

theorem flatten_chunksFrom (hs : sizes ≠ []) (turn : Nat) (text : Bytes) :
    (chunksFrom sizes turn text).flatten = text := by
  fun_induction chunksFrom sizes turn text with
  | case1 turn text h => rw [h.resolve_right hs, List.flatten_nil]
  | case2 turn text h size ih => rw [List.flatten_cons, ih, List.take_append_drop]

/-- A chunk has its turn's size, and the last one what is left. -/
theorem length_of_getElem?_chunksFrom (turn : Nat) (text : Bytes) :
    ∀ i chunk, (chunksFrom sizes turn text)[i]? = some chunk →
      chunk ≠ [] ∧ chunk.length ≤ sizeAt sizes (turn + i) ∧
        (i + 1 < (chunksFrom sizes turn text).length →
          chunk.length = sizeAt sizes (turn + i)) := by
  fun_induction chunksFrom sizes turn text with
  | case1 turn text h => exact fun i chunk hchunk => by cases hchunk
  | case2 turn text h size ih =>
    intro i chunk hchunk
    cases i with
    | zero =>
      obtain rfl : text.take size = chunk := Option.some.inj hchunk
      have htext := List.length_pos_iff.mpr (not_or.mp h).1
      have hsize : 0 < size := Nat.le_max_left ..
      refine ⟨?_, List.length_take_le _ _, fun hmore => ?_⟩
      · rw [← List.length_pos_iff, List.length_take]
        omega
      · -- Where another chunk follows, more was left than this one took.
        have hrest : text.drop size ≠ [] := by
          intro hnone
          rw [hnone, chunksFrom] at hmore
          simp at hmore
        have := List.length_pos_iff.mpr hrest
        rw [List.length_drop] at this
        exact List.length_take_of_le (by omega)
    | succ i =>
      have hturn : turn + (i + 1) = turn + 1 + i := by omega
      rw [hturn]
      obtain ⟨hne, hle, hmore⟩ := ih i chunk hchunk
      exact ⟨hne, hle, fun hi => hmore (Nat.lt_of_succ_lt_succ hi)⟩

theorem length_le_of_flatten {chunks : List Bytes} (hne : ∀ chunk ∈ chunks, chunk ≠ []) :
    chunks.length ≤ chunks.flatten.length := by
  induction chunks with
  | nil => exact Nat.zero_le _
  | cons chunk chunks ih =>
    obtain ⟨hchunk, hrest⟩ := List.forall_mem_cons.mp hne
    have := List.length_pos_iff.mpr hchunk
    have := ih hrest
    rw [List.length_cons, List.flatten_cons, List.length_append]
    omega

end Exercise

namespace SealingStream

theorem writeAll_some (bytes : Bytes) (s : Sealing) (sink : Sink) :
    writeAll bytes ⟨some s, sink⟩ =
      if bytes = [] then (.ok (), ⟨some s, sink⟩)
      else if s.finished then (.error Sealing.writtenAfterEnd, ⟨some s, sink⟩)
      else (.ok (), ⟨some { s with buffer := s.buffer ++ bytes }, sink⟩) := by
  by_cases hb : bytes = []
  · subst hb
    rfl
  · obtain ⟨key, iv, buffer, finished⟩ := s
    simp only [writeAll, Action.bind_apply, Action.get_apply, hb, if_false]
    rw [if_pos hb]
    cases finished <;> rfl

/-- A sealed stream holds back what is written, and cannot tell pieces from the whole. -/
theorem forM_writeAll (pieces : List Bytes) (s : Sealing) (sink : Sink) :
    pieces.forM writeAll ⟨some s, sink⟩ = writeAll pieces.flatten ⟨some s, sink⟩ := by
  induction pieces generalizing s with
  | nil => rfl
  | cons piece pieces ih =>
    rw [List.forM_eq_forM, List.forM_cons, ← List.forM_eq_forM, Action.bind_apply,
      List.flatten_cons, writeAll_some piece, writeAll_some (piece ++ pieces.flatten)]
    by_cases hpiece : piece = []
    · rw [if_pos hpiece, hpiece, List.nil_append]
      exact (ih s).trans (writeAll_some ..)
    · have hne : piece ++ pieces.flatten ≠ [] := fun h => hpiece (List.append_eq_nil_iff.mp h).1
      rw [if_neg hpiece, if_neg hne]
      cases hf : s.finished with
      | true => rfl
      | false =>
        simp only [Bool.false_eq_true, if_false]
        rw [ih, writeAll_some]
        by_cases hrest : pieces.flatten = []
        · rw [if_pos hrest, hrest, List.append_nil]
        · simp [hrest]

end SealingStream

namespace Exercise

/--
Cutting by sizes that are used over and over ends as soon as nothing is left of the text, after no
more turns than the text has bytes. Its chunks are the whole text; each holds a byte at least, and
has the size of its turn unless it is the last one. To a sealed stream it is all one whether they
are written or the text at once.
-/
theorem chunks_lose_nothing (sizes : List Nat) (hs : sizes ≠ []) (text : Bytes) :
    let chunks := chunks sizes text
    (chunks.length ≤ text.length ∧
      (Cutting.next sizes)^[chunks.length] { rest := text } = ⟨chunks.length, [], chunks⟩ ∧
      ∀ n < chunks.length, ((Cutting.next sizes)^[n] { rest := text }).rest ≠ []) ∧
    chunks.flatten = text ∧ (∀ chunk ∈ chunks, chunk ≠ []) ∧
    (∀ i chunk size, chunks[i]? = some chunk → sizes[i % sizes.length]? = some size →
      chunk.length ≤ max 1 size ∧ (i + 1 < chunks.length → chunk.length = max 1 size)) ∧
    ∀ (s : Sealing) (sink : Sink),
      (do chunks.forM SealingStream.writeAll; SealingStream.finish) ⟨some s, sink⟩ =
        (do SealingStream.writeAll text; SealingStream.finish) ⟨some s, sink⟩ := by
  intro chunks
  have hflatten : chunks.flatten = text := flatten_chunksFrom hs 0 text
  have hne : ∀ chunk ∈ chunks, chunk ≠ [] := fun chunk hchunk => by
    obtain ⟨i, hi⟩ := List.mem_iff_getElem?.mp hchunk
    exact (length_of_getElem?_chunksFrom 0 text i chunk hi).1
  obtain ⟨hdone, hbefore⟩ := iterate_next hs 0 text []
  rw [Nat.zero_add, List.nil_append] at hdone
  refine ⟨⟨?_, hdone, hbefore⟩, hflatten, hne, fun i chunk size hchunk hsize => ?_,
    fun s sink => ?_⟩
  · rw [← hflatten]
    exact length_le_of_flatten hne
  · obtain ⟨-, hlength⟩ := length_of_getElem?_chunksFrom 0 text i chunk hchunk
    rwa [Nat.zero_add, sizeAt_of_getElem? hsize] at hlength
  · rw [Action.bind_apply, Action.bind_apply, SealingStream.forM_writeAll, hflatten]

/-- Seven bytes by sizes of which one is zero and one more than is left. -/
theorem chunks_lose_nothing_zero :
    let sizes := [0, 2, 9]
    let text : Bytes := [1, 2, 3, 4, 5, 6, 7]
    let pieces : List Bytes := [[1], [2, 3], [4, 5, 6, 7]]
    sizes ≠ [] ∧ chunks sizes text = pieces ∧ pieces.flatten = text ∧
      ∀ (s : Sealing) (sink : Sink),
        (do pieces.forM SealingStream.writeAll; SealingStream.finish) ⟨some s, sink⟩ =
          (do SealingStream.writeAll text; SealingStream.finish) ⟨some s, sink⟩ := by
  intro sizes text pieces
  have hsizes : sizes ≠ [] := by decide
  have hchunks : chunks sizes text = pieces := by decide +kernel
  obtain ⟨-, hflatten, -, -, hsealed⟩ := chunks_lose_nothing sizes hsizes text
  rw [hchunks] at hflatten hsealed
  exact ⟨hsizes, hchunks, hflatten, hsealed⟩

end Exercise

end SealedStream
