import Mathlib
import SealedStream.Proofs.Stream.Reading
import SealedStream.Proofs.Stream.Writing

/-!
# Headers at the front of any source

A header is read exactly. What comes of it depends on the bytes that the source
delivers before it ends or breaks off, and on nothing else: not on how they are cut,
nor on where reading is interrupted. A reader stands right behind the last byte that
it has used, so what follows a header is not touched.
-/

namespace SealedStream

namespace Source

variable {source mid rest : Source} {bytes more : Bytes} {e : IoError}

-- ----------------------------------------------------------------------------
-- Where a reader stands
-- ----------------------------------------------------------------------------

/-- A reader that has got just these bytes of a source stands at the rest: it has gone over the
interruptions before the last of them, and over nothing that comes behind it. -/
inductive Passed : Source → Bytes → Source → Prop
  | nothing (source : Source) : Passed source [] source
  | front (bytes more : Bytes) (rest : Source) :
      Passed (.chunk (bytes ++ more) :: rest) bytes (.chunk more :: rest)
  | chunk (bytes : Bytes) {more : Bytes} {source rest : Source} :
      more ≠ [] → Passed source more rest → Passed (.chunk bytes :: source) (bytes ++ more) rest
  | interrupted {e : IoError} {bytes : Bytes} {source rest : Source} :
      e.isInterrupted → bytes ≠ [] → Passed source bytes rest →
        Passed (.fault e :: source) bytes rest

/-- A reader that has met the end of a source stands at nothing, one that has met the error at
which it breaks off stands at what comes behind. -/
inductive Spent : Source → Source → Prop
  | ended : Spent [] []
  | chunk {bytes : Bytes} {source rest : Source} :
      Spent source rest → Spent (.chunk bytes :: source) rest
  | interrupted {e : IoError} {source rest : Source} :
      e.isInterrupted → Spent source rest → Spent (.fault e :: source) rest
  | broken {e : IoError} {source : Source} : ¬ e.isInterrupted → Spent (.fault e :: source) source

namespace Passed

theorem delivered (h : source.Passed bytes rest) :
    source.delivered = bytes ++ rest.delivered := by
  induction h with
  | nothing source => rfl
  | front bytes more rest => simp [Source.delivered]
  | chunk bytes _ _ ih => simp [Source.delivered, ih]
  | interrupted hi _ _ ih => rw [Source.delivered, if_pos hi, ih]

theorem breakOff? (h : source.Passed bytes rest) : rest.breakOff? = source.breakOff? := by
  induction h with
  | nothing source => rfl
  | front bytes more rest => rfl
  | chunk bytes _ _ ih => rw [ih, Source.breakOff?]
  | interrupted hi _ _ ih => rw [ih, Source.breakOff?, if_pos hi]

theorem size (h : source.Passed bytes rest) : source.size = bytes.length + rest.size := by
  induction h with
  | nothing source => simp
  | front bytes more rest => simp [Source.size, Nat.add_assoc]
  | chunk bytes _ _ ih => simp [Source.size, ih, Nat.add_assoc]
  | interrupted _ _ _ ih => rw [Source.size, ih]

theorem trans (h : source.Passed bytes mid) (h' : mid.Passed more rest) :
    source.Passed (bytes ++ more) rest := by
  induction h with
  | nothing source => exact h'
  | front bytes back source =>
    cases h' with
    | nothing => simpa using Passed.front bytes back source
    | front more back => simpa using Passed.front (bytes ++ more) back source
    | chunk more hne h' => simpa using Passed.chunk (bytes ++ back) hne h'
  | chunk bytes hne _ ih => simpa using Passed.chunk bytes (by simp [hne]) (ih h')
  | interrupted hi hne _ ih => exact .interrupted hi (by simp [hne]) (ih h')

theorem spent (h : source.Passed bytes mid) (h' : mid.Spent rest) : source.Spent rest := by
  induction h with
  | nothing source => exact h'
  | front bytes more source =>
    cases h' with
    | chunk h' => exact .chunk h'
  | chunk bytes _ _ ih => exact .chunk (ih h')
  | interrupted hi _ _ ih => exact .interrupted hi (ih h')

end Passed

theorem Spent.size (h : source.Spent rest) : source.size = source.delivered.length + rest.size := by
  induction h with
  | ended => rfl
  | chunk _ ih => simp [Source.size, delivered, ih, Nat.add_assoc]
  | interrupted hi _ ih => rw [Source.size, delivered, if_pos hi, ih]
  | broken hi => simp [Source.size, delivered, hi]

-- ----------------------------------------------------------------------------
-- Exact reads
-- ----------------------------------------------------------------------------

theorem readExact_passed {n : Nat} (h : n ≤ source.delivered.length) :
    ∃ rest, readExact n source = (.ok (source.delivered.take n), rest) ∧
      source.Passed (source.delivered.take n) rest := by
  induction source generalizing n with
  | nil =>
    obtain rfl : n = 0 := Nat.le_zero.mp h
    exact ⟨[], rfl, .nothing []⟩
  | cons item source ih =>
    cases n with
    | zero => exact ⟨_, rfl, .nothing _⟩
    | succ n =>
      cases item with
      | chunk piece =>
        rw [delivered, List.length_append] at h
        rw [delivered, readExact]
        by_cases hpiece : n + 1 ≤ piece.length
        · rw [if_pos hpiece, List.take_append_of_le_length hpiece]
          refine ⟨_, rfl, ?_⟩
          have := Passed.front (piece.take (n + 1)) (piece.drop (n + 1)) source
          rwa [List.take_append_drop] at this
        · obtain ⟨rest, hread, hpassed⟩ := ih (n := n + 1 - piece.length) (by omega)
          have hfull : piece.take (n + 1) = piece := List.take_of_length_le (by omega)
          rw [if_neg hpiece, hread, List.take_append, hfull]
          refine ⟨rest, rfl, .chunk piece ?_ hpassed⟩
          rw [← List.length_pos_iff, List.length_take]
          omega
      | fault e =>
        rw [delivered] at h ⊢
        rw [readExact]
        by_cases hi : e.isInterrupted
        · rw [if_pos hi] at h ⊢
          rw [if_pos hi]
          obtain ⟨rest, hread, hpassed⟩ := ih h
          refine ⟨rest, hread, .interrupted hi ?_ hpassed⟩
          rw [← List.length_pos_iff, List.length_take]
          omega
        · rw [if_neg hi] at h
          exact absurd h (Nat.not_succ_le_zero n)

theorem readExact_spent {n : Nat} (h : source.delivered.length < n) :
    ∃ rest, readExact n source = (.error (source.breakOff?.getD .unfilled), rest) ∧
      source.Spent rest := by
  obtain ⟨n, rfl⟩ := Nat.exists_eq_succ_of_ne_zero (Nat.ne_of_gt (Nat.zero_lt_of_lt h))
  induction source generalizing n with
  | nil => exact ⟨[], rfl, .ended⟩
  | cons item source ih =>
    cases item with
    | chunk piece =>
      rw [delivered, List.length_append] at h
      obtain ⟨m, hm⟩ : ∃ m, n + 1 - piece.length = m + 1 := ⟨n - piece.length, by omega⟩
      obtain ⟨rest, hread, hspent⟩ := ih m (by omega)
      rw [readExact, if_neg (by omega), hm, hread]
      exact ⟨rest, rfl, .chunk hspent⟩
    | fault e =>
      rw [readExact, breakOff?]
      by_cases hi : e.isInterrupted
      · rw [delivered, if_pos hi] at h
        obtain ⟨rest, hread, hspent⟩ := ih n h
        rw [if_pos hi, if_pos hi]
        exact ⟨rest, hread, .interrupted hi hspent⟩
      · rw [if_neg hi, if_neg hi]
        exact ⟨source, rfl, .broken hi⟩

end Source

namespace Header

variable {source : Source} {iv more : Bytes} {count : UInt8}

-- ----------------------------------------------------------------------------
-- One header
-- ----------------------------------------------------------------------------

/-- The first byte of a header decides whether a vector is read behind it. -/
theorem read_delivered (hd : source.delivered = count :: more) :
    ∃ mid, source.Passed [count] mid ∧ mid.delivered = more ∧
      (count ≠ 12 → read source = (.error (.invalidIvLength ivSize count.toNat), mid)) ∧
      (count = 12 → read source = (Source.readExact ivSize).mapError readError mid) := by
  obtain ⟨mid, hread, hpassed⟩ := source.readExact_passed (n := 1) (by simp [hd])
  rw [hd] at hread hpassed
  have hmid : count :: more = [count] ++ mid.delivered := hd ▸ hpassed.delivered
  have hcount : count = 12 ↔ count.toNat = ivSize := UInt8.toNat_inj.symm
  have hrest : read source =
      (if count.toNat = ivSize then (Source.readExact ivSize).mapError readError
        else throw (.invalidIvLength ivSize count.toNat) : Action Source SealError Bytes) mid := by
    rw [read, Action.bind_apply, Action.mapError_apply, hread]
    rfl
  refine ⟨mid, hpassed, (List.cons.inj hmid).2.symm, fun hc => ?_, fun hc => ?_⟩
  · rw [hrest, if_neg (mt hcount.mpr hc)]
    rfl
  · rw [hrest, if_pos (hcount.mp hc)]

theorem read_passed_other (hc : count ≠ 12) (hd : source.delivered = count :: more) :
    ∃ rest, read source = (.error (.invalidIvLength ivSize count.toNat), rest) ∧
      source.Passed [count] rest := by
  obtain ⟨mid, hpassed, -, hother, -⟩ := read_delivered hd
  exact ⟨mid, hother hc, hpassed⟩

theorem read_passed_whole (hiv : iv.length = ivSize) (hd : source.delivered = bytes iv ++ more) :
    ∃ rest, read source = (.ok iv, rest) ∧ source.Passed (bytes iv) rest := by
  obtain ⟨mid, hfirst, hmid, -, htwelve⟩ := read_delivered hd
  replace hmid : mid.delivered = iv ++ more := hmid
  obtain ⟨rest, hvector, hpassed⟩ := mid.readExact_passed (n := ivSize) (by simp [hmid, hiv])
  rw [hmid, List.take_left' hiv] at hvector hpassed
  refine ⟨rest, ?_, hfirst.trans hpassed⟩
  rw [htwelve rfl, Action.mapError_apply, hvector]
  rfl

/-- What a header is refused with where its source ends or breaks off in it. -/
def cutOff (source : Source) : SealError := readError (source.breakOff?.getD .unfilled)

theorem read_spent_empty (hd : source.delivered = []) :
    ∃ rest, read source = (.error (cutOff source), rest) ∧ source.Spent rest := by
  obtain ⟨rest, hread, hspent⟩ := source.readExact_spent (n := 1) (by simp [hd])
  exact ⟨rest, by rw [read, Action.bind_apply, Action.mapError_apply, hread]; rfl, hspent⟩

theorem read_spent_cut (hmore : more.length < ivSize) (hd : source.delivered = 12 :: more) :
    ∃ rest, read source = (.error (cutOff source), rest) ∧ source.Spent rest := by
  obtain ⟨mid, hfirst, hmid, -, htwelve⟩ := read_delivered hd
  obtain ⟨rest, hvector, hspent⟩ := mid.readExact_spent (n := ivSize) (by rwa [hmid])
  rw [hfirst.breakOff?] at hvector
  refine ⟨rest, ?_, hfirst.spent hspent⟩
  rw [htwelve rfl, Action.mapError_apply, hvector]
  rfl

theorem cutOff_eq (source : Source) :
    cutOff source = match source.breakOff? with
      | none => .truncatedHeader
      | some e => if e.kind = .unexpectedEof then .truncatedHeader else .io e := by
  rw [cutOff]
  cases source.breakOff? <;> rfl

-- ----------------------------------------------------------------------------
-- From any source
-- ----------------------------------------------------------------------------

theorem write_took {sink sink' : Sink} (h : write iv sink = (.ok (), sink')) :
    iv.length = ivSize ∧ sink.Took sink' (bytes iv) := by
  by_cases hiv : iv.length = ivSize
  · obtain ⟨front, -, htook, hall⟩ := Sink.writeAll_took (bytes iv) sink
    rw [write_apply hiv, Prod.mk.injEq, mapError_eq_ok] at h
    obtain ⟨hok, rfl⟩ := h
    obtain rfl := hall.mp hok
    exact ⟨hiv, htook⟩
  · rw [write, if_neg hiv] at h
    cases h

/-- Sources that deliver the same and break off alike give the same header, or the same error. -/
theorem read_answer_congr {other : Source} (hd : other.delivered = source.delivered)
    (hb : other.breakOff? = source.breakOff?) : (read other).1 = (read source).1 := by
  have hcut : cutOff other = cutOff source := by rw [cutOff, cutOff, hb]
  have hfront := front source.delivered
  generalize hdelivered : source.delivered = stream at hd hfront
  cases hfront with
  | empty =>
    obtain ⟨_, h, -⟩ := read_spent_empty hdelivered
    obtain ⟨_, h', -⟩ := read_spent_empty hd
    rw [h, h', hcut]
  | other count more hc =>
    obtain ⟨_, h, -⟩ := read_passed_other hc hdelivered
    obtain ⟨_, h', -⟩ := read_passed_other hc hd
    rw [h, h']
  | cut more hmore =>
    obtain ⟨_, h, -⟩ := read_spent_cut hmore hdelivered
    obtain ⟨_, h', -⟩ := read_spent_cut hmore hd
    rw [h, h', hcut]
  | whole iv body hiv =>
    obtain ⟨_, h, -⟩ := read_passed_whole hiv hdelivered
    obtain ⟨_, h', -⟩ := read_passed_whole hiv hd
    rw [h, h']

/-- A header is read from any source by the bytes that it delivers. A first byte other than twelve
is refused, and is all that has been used of the source; a whole header gives its vector, and the
source stands right behind it; a header that is cut off has used up the source, and is refused as
cut off or with the source's own error. What has been written as a header is read as that header. -/
theorem read_from_any_source :
    (∀ source : Source,
      (∀ count more, source.delivered = count :: more → count ≠ 12 →
        ∃ rest, read source = (.error (.invalidIvLength 12 count.toNat), rest) ∧
          source.Passed [count] rest ∧ source.size = 1 + rest.size) ∧
      (∀ iv more, iv.length = 12 → source.delivered = 12 :: iv ++ more →
        ∃ rest, read source = (.ok iv, rest) ∧ source.Passed (12 :: iv) rest ∧
          source.size = 13 + rest.size ∧ rest.delivered = more ∧
          rest.breakOff? = source.breakOff?) ∧
      (source.delivered = [] ∨ source.delivered.head? = some 12 ∧ source.delivered.length < 13 →
        ∃ rest, read source = (.error (match source.breakOff? with
            | none => .truncatedHeader
            | some e => if e.kind = .unexpectedEof then .truncatedHeader else .io e), rest) ∧
          source.Spent rest ∧ source.size = source.delivered.length + rest.size) ∧
      ∀ other : Source, other.delivered = source.delivered →
        other.breakOff? = source.breakOff? → (read other).1 = (read source).1) ∧
    (∀ iv sink sink', write iv sink = (.ok (), sink') →
      ∃ written, sink'.content = sink.content ++ written ∧
        ∀ (source : Source) tail, source.delivered = written ++ tail →
          ∃ rest, read source = (.ok iv, rest) ∧ source.Passed written rest ∧
            rest.delivered = tail) ∧
    ∀ iv sink, iv.length = 12 → sink.Endless → (write iv sink).1 = .ok () := by
  refine ⟨fun source => ⟨?other, ?whole, ?cut, fun other => read_answer_congr⟩, ?written, ?writes⟩
  case other =>
    intro count more hd hc
    obtain ⟨rest, hread, hpassed⟩ := read_passed_other hc hd
    exact ⟨rest, hread, hpassed, hpassed.size⟩
  case whole =>
    intro iv more hiv hd
    obtain ⟨rest, hread, hpassed⟩ := read_passed_whole hiv hd
    have hsize := hpassed.size
    rw [bytes, List.length_cons, hiv] at hsize
    have hrest : bytes iv ++ more = bytes iv ++ rest.delivered := hd ▸ hpassed.delivered
    exact ⟨rest, hread, hpassed, hsize, (List.append_cancel_left hrest).symm, hpassed.breakOff?⟩
  case cut =>
    intro hfront
    rw [← cutOff_eq]
    obtain hempty | ⟨hhead, hlength⟩ := hfront
    · obtain ⟨rest, hread, hspent⟩ := read_spent_empty hempty
      exact ⟨rest, hread, hspent, hspent.size⟩
    · obtain ⟨more, hd⟩ := List.head?_eq_some_iff.mp hhead
      have hmore : more.length < ivSize := by
        rw [hd] at hlength
        exact Nat.lt_of_succ_lt_succ hlength
      obtain ⟨rest, hread, hspent⟩ := read_spent_cut hmore hd
      exact ⟨rest, hread, hspent, hspent.size⟩
  case written =>
    intro iv sink sink' hwrite
    obtain ⟨hiv, htook⟩ := write_took hwrite
    refine ⟨bytes iv, htook, fun source tail hd => ?_⟩
    obtain ⟨rest, hread, hpassed⟩ := read_passed_whole hiv hd
    have hrest : bytes iv ++ tail = bytes iv ++ rest.delivered := hd ▸ hpassed.delivered
    exact ⟨rest, hread, hpassed, (List.append_cancel_left hrest).symm⟩
  case writes =>
    intro iv sink hiv hendless
    obtain ⟨sink', hwrite, -⟩ := Sink.writeAll_endless hendless (bytes iv)
    rw [write_apply hiv, hwrite]
    rfl

/-- Cut in two and interrupted in the middle, with an error behind it. -/
example :
    read [.chunk [12, 1, 2, 3], .fault (.system .interrupted),
      .chunk [4, 5, 6, 7, 8, 9, 10, 11, 12], .fault (.system .brokenPipe)] =
        (.ok [1, 2, 3, 4, 5, 6, 7, 8, 9, 10, 11, 12],
          [.chunk [], .fault (.system .brokenPipe)]) := by
  rfl

end Header

end SealedStream
