import Mathlib
import SealedStream.Stream.Opening

/-!
# Reads from a stream that is opened

A reader of a sealed stream gets all of its text or none of it. Which of the two
is settled by the first read, from the bytes that the source delivers before it
ends or breaks off; from then on the answers come from what the reader keeps, and
the source has no say in them.
-/

namespace SealedStream

namespace Source

/-- The bytes up to the end, or up to the first error that is no interruption. -/
def delivered : Source → Bytes
  | [] => []
  | .chunk bytes :: rest => bytes ++ delivered rest
  | .fault e :: rest => if e.isInterrupted then delivered rest else []

/-- The first error that is no interruption, if there is one before the end. -/
def breakOff? : Source → Option IoError
  | [] => none
  | .chunk _ :: rest => breakOff? rest
  | .fault e :: rest => if e.isInterrupted then breakOff? rest else some e

/-- How the bytes are cut and where reading is interrupted does not matter. -/
theorem readToEnd_answer (source : Source) :
    (readToEnd source).1 = match source.breakOff? with
      | some e => .error e
      | none => .ok source.delivered := by
  induction source with
  | nil => rfl
  | cons item rest ih =>
    cases item with
    | chunk bytes =>
      simp only [readToEnd, breakOff?, delivered, ih]
      cases breakOff? rest <;> rfl
    | fault e =>
      simp only [readToEnd, breakOff?, delivered]
      split
      · exact ih
      · rfl

theorem kind_of_breakOff {source : Source} {e : IoError} (h : source.breakOff? = some e) :
    e.kind ≠ .interrupted := by
  induction source with
  | nil => cases h
  | cons item rest ih =>
    cases item with
    | chunk bytes => exact ih h
    | fault e' =>
      rw [breakOff?] at h
      split at h
      · exact ih h
      · next hi =>
        obtain rfl := Option.some.inj h
        simpa [IoError.isInterrupted] using hi

end Source

namespace Opening

/-- All bytes arrive, and they are the sealed form of a text. -/
def Yields (o : Opening) (source : Source) (text : Bytes) : Prop :=
  source.breakOff? = none ∧ o.key.openText o.params source.delivered = .ok text

/-- The source breaks off, or what arrives is not to be opened. -/
def Fails (o : Opening) (source : Source) (e : IoError) : Prop :=
  source.breakOff? = some e ∨ source.breakOff? = none ∧ ∃ defect,
    o.key.openText o.params source.delivered = .error defect ∧
      e = .custom .invalidData defect.message

variable {o : Opening} {source : Source}

theorem yields_or_fails (o : Opening) (source : Source) :
    (∃ text, o.Yields source text) ∨ ∃ e, o.Fails source e := by
  cases hb : source.breakOff? with
  | some e => exact .inr ⟨e, .inl hb⟩
  | none =>
    cases hopen : o.key.openText o.params source.delivered with
    | ok text => exact .inl ⟨text, hb, hopen⟩
    | error defect => exact .inr ⟨_, .inr ⟨hb, defect, hopen, rfl⟩⟩

theorem Yields.not_fails {text : Bytes} {e : IoError} (hy : o.Yields source text) :
    ¬ o.Fails source e := by
  obtain ⟨hb, hopen⟩ := hy
  rintro (hbreak | ⟨-, defect, hdefect, -⟩)
  · rw [hb] at hbreak
    cases hbreak
  · rw [hopen] at hdefect
    cases hdefect

theorem Fails.kind_ne {e : IoError} (hf : o.Fails source e) : e.kind ≠ .interrupted := by
  obtain hbreak | ⟨-, defect, -, rfl⟩ := hf
  · exact Source.kind_of_breakOff hbreak
  · exact nofun

theorem openRest_answer (o : Opening) (source : Source) :
    (o.openRest source).1 = match source.breakOff? with
      | some e => .error e
      | none => (o.key.openText o.params source.delivered).mapError fun e =>
          .custom .invalidData e.message := by
  have hanswer := source.readToEnd_answer
  rw [openRest, Action.bind_apply]
  generalize Source.readToEnd source = outcome at hanswer ⊢
  obtain ⟨answer, rest⟩ := outcome
  subst hanswer
  cases source.breakOff? <;> rfl

theorem Yields.openRest {text : Bytes} (hy : o.Yields source text) :
    ∃ rest, o.openRest source = (.ok text, rest) := by
  obtain ⟨hb, hopen⟩ := hy
  refine ⟨(o.openRest source).2, Prod.ext ?_ rfl⟩
  rw [openRest_answer, hb, hopen]
  rfl

theorem Fails.openRest {e : IoError} (hf : o.Fails source e) :
    ∃ rest, o.openRest source = (.error e, rest) := by
  refine ⟨(o.openRest source).2, Prod.ext ?_ rfl⟩
  obtain hbreak | ⟨hb, defect, hdefect, rfl⟩ := hf
  · rw [openRest_answer, hbreak]
  · rw [openRest_answer, hb, hdefect]
    rfl

end Opening

namespace OpeningStream

-- ----------------------------------------------------------------------------
-- One read
-- ----------------------------------------------------------------------------

variable {key : SymmetricKey} {params : CipherParams} {source : Source}

theorem read_opened (text : Bytes) (position n : Nat) :
    read n ⟨some ⟨key, params, .opened text position⟩, source⟩ =
      (.ok ((text.drop position).take n),
        ⟨some ⟨key, params, .opened text (position + ((text.drop position).take n).length)⟩,
          source⟩) := rfl

theorem read_failed (e : IoError) (n : Nat) :
    read n ⟨some ⟨key, params, .failed e⟩, source⟩ =
      (.error e, ⟨some ⟨key, params, .failed e⟩, source⟩) := rfl

theorem read_of_yields {text : Bytes} (hy : Opening.Yields { key, params } source text) (n : Nat) :
    ∃ rest, read n ⟨some { key, params }, source⟩ =
      read n ⟨some ⟨key, params, .opened text 0⟩, rest⟩ := by
  obtain ⟨rest, hopen⟩ := hy.openRest
  refine ⟨rest, ?_⟩
  simp only [read, available, Action.bind_apply, Action.get_apply, Action.attempt_apply, onSource,
    Action.zoom_apply, hopen]
  rfl

theorem read_of_fails {e : IoError} (hf : Opening.Fails { key, params } source e) (n : Nat) :
    ∃ rest, read n ⟨some { key, params }, source⟩ =
      (.error e, ⟨some ⟨key, params, .failed (Opening.again e)⟩, rest⟩) := by
  obtain ⟨rest, hopen⟩ := hf.openRest
  refine ⟨rest, ?_⟩
  simp only [read, available, Action.bind_apply, Action.get_apply, Action.attempt_apply, onSource,
    Action.zoom_apply, hopen]
  rfl

-- ----------------------------------------------------------------------------
-- A sequence of reads
-- ----------------------------------------------------------------------------

/-- Reads into buffers of the given sizes, whatever the reads before answered. -/
def reads : List Nat → OpeningStream → List (Except IoError Bytes) × OpeningStream
  | [], stream => ([], stream)
  | n :: sizes, stream =>
    let (answer, stream) := read n stream
    let (answers, stream) := reads sizes stream
    (answer :: answers, stream)

/--
A caller that reads up to the end: it reads on over interruptions and stops where
nothing more comes or a read fails. Nothing is answered while the buffers given
did not do.
-/
def drain : List Nat → OpeningStream → Option (Except IoError Bytes)
  | [], _ => none
  | n :: sizes, stream =>
    match read n stream with
    | (.ok [], _) => some (.ok [])
    | (.ok bytes, stream) => (drain sizes stream).map fun answer => answer.map (bytes ++ ·)
    | (.error e, stream) => if e.isInterrupted then drain sizes stream else some (.error e)

/-- The reads of a stream give a text from its beginning on, and then nothing more. -/
structure Gives (stream : OpeningStream) (text : Bytes) : Prop where
  pieces : ∀ sizes, ∃ pieces : List Bytes, (reads sizes stream).1 = pieces.map .ok ∧
    pieces.flatten = text.take sizes.sum
  ended : ∀ sizes n, ∀ pieces : List Bytes, 0 < n → (reads sizes stream).1 = pieces.map .ok →
    (read n (reads sizes stream).2).1 = .ok [] → pieces.flatten = text
  within : ∀ sizes opening, (reads sizes stream).2.opening = some opening →
    opening.position ≤ text.length
  drained : ∀ sizes, (∀ n ∈ sizes, 0 < n) → text.length < sizes.length →
    drain sizes stream = some (.ok text)
  whole : (readToEnd stream).1 = .ok text

/-- All reads of a stream fail in the same way. -/
structure Refuses (stream : OpeningStream) (e : IoError) : Prop where
  answers : ∀ sizes, ∀ answer ∈ (reads sizes stream).1,
    ∃ e', answer = .error e' ∧ e'.kind = e.kind ∧ e'.message = e.message
  remembered : ∀ n sizes, ∃ opening e', (reads (n :: sizes) stream).2.opening = some opening ∧
    opening.state = .failed e' ∧ e'.kind ≠ .interrupted
  drained : ∀ n sizes, drain (n :: sizes) stream = some (.error e)
  whole : (readToEnd stream).1 = .error e

/-- What is left behind the position after a read. -/
theorem drop_read {text : Bytes} {position : Nat} (hp : position ≤ text.length) (n : Nat) :
    text.drop (position + ((text.drop position).take n).length) = (text.drop position).drop n := by
  rw [List.drop_drop, List.length_take, List.length_drop]
  obtain hn | hn := Nat.le_total n (text.length - position)
  · rw [Nat.min_eq_left hn]
  · rw [Nat.min_eq_right hn, Nat.add_sub_cancel' hp, List.drop_length,
      List.drop_of_length_le (by omega)]

theorem reads_cons (n : Nat) (sizes : List Nat) (stream : OpeningStream) :
    reads (n :: sizes) stream =
      ((read n stream).1 :: (reads sizes (read n stream).2).1,
        (reads sizes (read n stream).2).2) := rfl

theorem reads_opened (key : SymmetricKey) (params : CipherParams) (source : Source) {text : Bytes}
    {position : Nat} (hp : position ≤ text.length) (sizes : List Nat) :
    ∃ pieces : List Bytes, ∃ position',
      reads sizes ⟨some ⟨key, params, .opened text position⟩, source⟩ =
        (pieces.map .ok, ⟨some ⟨key, params, .opened text position'⟩, source⟩) ∧
      pieces.flatten = (text.drop position).take sizes.sum ∧
      position' = min (position + sizes.sum) text.length := by
  induction sizes generalizing position with
  | nil => exact ⟨[], position, rfl, by simp, by simp [hp]⟩
  | cons n sizes ih =>
    have hlength : ((text.drop position).take n).length = min n (text.length - position) := by
      rw [List.length_take, List.length_drop]
    have hp' : position + ((text.drop position).take n).length ≤ text.length := by omega
    obtain ⟨pieces, position', hreads, hpieces, hposition⟩ := ih hp'
    refine ⟨(text.drop position).take n :: pieces, position', ?_, ?_, ?_⟩
    · rw [reads_cons, read_opened, hreads, List.map_cons]
    · rw [List.flatten_cons, hpieces, drop_read hp, List.sum_cons, List.take_add]
    · rw [hposition, hlength, List.sum_cons]
      omega

theorem drain_opened {text : Bytes} {position : Nat} (hp : position ≤ text.length)
    {sizes : List Nat} (hpos : ∀ n ∈ sizes, 0 < n) (hlong : text.length - position < sizes.length) :
    drain sizes ⟨some ⟨key, params, .opened text position⟩, source⟩ =
      some (.ok (text.drop position)) := by
  induction sizes generalizing position with
  | nil => exact absurd hlong (Nat.not_lt_zero _)
  | cons n sizes ih =>
    have hn : 0 < n := hpos n List.mem_cons_self
    have hlength : ((text.drop position).take n).length = min n (text.length - position) := by
      rw [List.length_take, List.length_drop]
    rw [drain, read_opened]
    cases hpiece : (text.drop position).take n with
    | nil =>
      rw [hpiece, List.length_nil] at hlength
      have hend : text.drop position = [] := List.drop_of_length_le (by omega)
      rw [hend]
    | cons b rest =>
      rw [hpiece, List.length_cons] at hlength
      rw [List.length_cons] at hlong
      have hp' : position + ((text.drop position).take n).length ≤ text.length := by
        rw [hpiece, List.length_cons]
        omega
      have hlong' : text.length - (position + ((text.drop position).take n).length) <
          sizes.length := by
        rw [hpiece, List.length_cons]
        omega
      have hrest := ih hp' (fun m hm => hpos m (List.mem_cons_of_mem n hm)) hlong'
      rw [drop_read hp, hpiece] at hrest
      simp only [hrest, Option.map_some, Except.map]
      rw [← hpiece, List.take_append_drop]

theorem reads_failed (e : IoError) (sizes : List Nat) :
    reads sizes ⟨some ⟨key, params, .failed e⟩, source⟩ =
      (sizes.map fun _ => .error e, ⟨some ⟨key, params, .failed e⟩, source⟩) := by
  induction sizes with
  | nil => rfl
  | cons n sizes ih =>
    rw [reads_cons, read_failed, ih, List.map_cons]

-- ----------------------------------------------------------------------------
-- From the first read on
-- ----------------------------------------------------------------------------

/-- What has been read so far, and where the next read goes on. -/
theorem reads_of_yields {text : Bytes} (hy : Opening.Yields { key, params } source text)
    (sizes : List Nat) :
    ∃ pieces : List Bytes, ∃ position,
      (reads sizes ⟨some { key, params }, source⟩).1 = pieces.map .ok ∧
      pieces.flatten = text.take sizes.sum ∧ position = min sizes.sum text.length ∧
      (∀ n, (read n (reads sizes ⟨some { key, params }, source⟩).2).1 =
        .ok ((text.drop position).take n)) ∧
      ∀ opening, (reads sizes ⟨some { key, params }, source⟩).2.opening = some opening →
        opening.position = position := by
  cases sizes with
  | nil =>
    refine ⟨[], 0, rfl, rfl, (Nat.zero_min _).symm, fun n => ?_, ?_⟩
    · obtain ⟨rest, hread⟩ := read_of_yields hy n
      rw [reads, hread, read_opened]
    · rintro opening ⟨⟩
      rfl
  | cons n sizes =>
    obtain ⟨rest, hread⟩ := read_of_yields hy n
    obtain ⟨pieces, position, hreads, hpieces, hposition⟩ :=
      reads_opened key params rest (Nat.zero_le text.length) (n :: sizes)
    rw [Nat.zero_add] at hposition
    have hsame : reads (n :: sizes) ⟨some { key, params }, source⟩ =
        reads (n :: sizes) ⟨some ⟨key, params, .opened text 0⟩, rest⟩ := by
      rw [reads_cons, hread, reads_cons]
    rw [hsame, hreads]
    refine ⟨pieces, position, rfl, hpieces, hposition, fun m => ?_, ?_⟩
    · rw [read_opened]
    · rintro opening ⟨⟩
      rfl

theorem gives_of_yields {text : Bytes} (hy : Opening.Yields { key, params } source text) :
    Gives ⟨some { key, params }, source⟩ text where
  pieces sizes := by
    obtain ⟨pieces, _, hpieces, hflatten, -⟩ := reads_of_yields hy sizes
    exact ⟨pieces, hpieces, hflatten⟩
  ended sizes n pieces hn hpieces hend := by
    obtain ⟨pieces', position, hpieces', hflatten, hposition, hnext, -⟩ := reads_of_yields hy sizes
    have hsame : pieces = pieces' :=
      (List.map_inj_right fun _ _ => Except.ok.inj).mp (hpieces.symm.trans hpieces')
    rw [hnext] at hend
    have hlength := congrArg List.length (Except.ok.inj hend)
    rw [List.length_take, List.length_drop, List.length_nil] at hlength
    rw [hsame, hflatten, List.take_of_length_le (by omega)]
  within sizes opening hopening := by
    obtain ⟨_, _, -, -, hposition, -, hwithin⟩ := reads_of_yields hy sizes
    rw [hwithin opening hopening, hposition]
    exact Nat.min_le_right ..
  drained sizes hpos hlong := by
    cases sizes with
    | nil => exact absurd hlong (Nat.not_lt_zero _)
    | cons n sizes =>
      obtain ⟨rest, hread⟩ := read_of_yields hy n
      rw [drain, hread, ← drain]
      exact drain_opened (Nat.zero_le _) hpos hlong
  whole := by
    obtain ⟨rest, hopen⟩ := hy.openRest
    simp only [readToEnd, available, Action.bind_apply, Action.get_apply, Action.attempt_apply,
      onSource, Action.zoom_apply, hopen]
    rfl

theorem refuses_of_fails {e : IoError} (hf : Opening.Fails { key, params } source e) :
    Refuses ⟨some { key, params }, source⟩ e where
  answers sizes answer hmem := by
    cases sizes with
    | nil => cases hmem
    | cons n sizes =>
      obtain ⟨rest, hread⟩ := read_of_fails hf n
      rw [reads_cons, hread, reads_failed] at hmem
      obtain rfl | hmem := List.mem_cons.mp hmem
      · exact ⟨e, rfl, rfl, rfl⟩
      · obtain ⟨_, -, rfl⟩ := List.mem_map.mp hmem
        exact ⟨_, rfl, rfl, rfl⟩
  remembered n sizes := by
    obtain ⟨rest, hread⟩ := read_of_fails hf n
    rw [reads_cons, hread, reads_failed]
    exact ⟨_, _, rfl, rfl, hf.kind_ne⟩
  drained n sizes := by
    obtain ⟨rest, hread⟩ := read_of_fails hf n
    have hi : e.isInterrupted = false := decide_eq_false hf.kind_ne
    rw [drain, hread]
    simp only [hi, Bool.false_eq_true, if_false]
  whole := by
    obtain ⟨rest, hopen⟩ := hf.openRest
    simp only [readToEnd, available, Action.bind_apply, Action.get_apply, Action.attempt_apply,
      onSource, Action.zoom_apply, hopen]
    rfl

/-- Once it is settled whether there is a text, the source has no say in a read. -/
theorem read_settled {opening : Opening} (h : opening.state ≠ .unread) (n : Nat) :
    ∃ answer opening', opening'.state ≠ .unread ∧ ∀ source,
      read n ⟨some opening, source⟩ = (answer, ⟨some opening', source⟩) := by
  obtain ⟨key, params, state⟩ := opening
  cases state with
  | unread => exact absurd rfl h
  | opened text position =>
    refine ⟨_, _, ?_, fun source => read_opened text position n⟩
    exact nofun
  | failed e =>
    refine ⟨_, _, ?_, fun source => read_failed e n⟩
    exact nofun

theorem reads_settled {opening : Opening} (h : opening.state ≠ .unread) (sizes : List Nat) :
    ∃ answers opening', ∀ source,
      reads sizes ⟨some opening, source⟩ = (answers, ⟨some opening', source⟩) := by
  induction sizes generalizing opening with
  | nil => exact ⟨[], opening, fun _ => rfl⟩
  | cons n sizes ih =>
    obtain ⟨answer, next, hnext, hread⟩ := read_settled h n
    obtain ⟨answers, last, hreads⟩ := ih hnext
    exact ⟨answer :: answers, last, fun source => by rw [reads_cons, hread, hreads]⟩

theorem settled_of_read (key : SymmetricKey) (params : CipherParams) (source : Source) (n : Nat) :
    ∃ answer opening rest, opening.state ≠ .unread ∧
      read n ⟨some { key, params }, source⟩ = (answer, ⟨some opening, rest⟩) := by
  obtain ⟨text, hy⟩ | ⟨e, hf⟩ := Opening.yields_or_fails { key, params } source
  · obtain ⟨rest, hread⟩ := read_of_yields hy n
    refine ⟨_, _, rest, ?_, hread.trans (read_opened text 0 n)⟩
    exact nofun
  · obtain ⟨rest, hread⟩ := read_of_fails hf n
    refine ⟨_, _, rest, ?_, hread⟩
    exact nofun

/-- Exactly one of two things becomes of a stream that is read: it gives the text that it is the
sealed form of, from its beginning on and piece by piece, or it gives nothing and fails each time in
the same way, with what its source broke off with or as data that is not authentic. After the first
read the source is neither asked nor changed. -/
theorem gives_all_or_nothing (key : SymmetricKey) (params : CipherParams) (source : Source) :
    let stream : OpeningStream := ⟨some { key, params }, source⟩
    Xor (∃ text, source.breakOff? = none ∧ key.openText params source.delivered = .ok text ∧
        stream.Gives text)
      (∃ e, (source.breakOff? = some e ∨ source.breakOff? = none ∧ ∃ defect,
          key.openText params source.delivered = .error defect ∧
            e = .custom .invalidData defect.message) ∧ stream.Refuses e) ∧
      ∀ n sizes, ∃ answers opening, ∀ other,
        reads sizes { (read n stream).2 with source := other } =
          (answers, ⟨some opening, other⟩) := by
  intro stream
  constructor
  · obtain ⟨text, hy⟩ | ⟨e, hf⟩ := Opening.yields_or_fails { key, params } source
    · exact .inl ⟨⟨text, hy.1, hy.2, gives_of_yields hy⟩, fun ⟨_, hf, _⟩ => hy.not_fails hf⟩
    · refine .inr ⟨⟨e, hf, refuses_of_fails hf⟩, ?_⟩
      rintro ⟨text, hb, hopen, -⟩
      exact Opening.Yields.not_fails ⟨hb, hopen⟩ hf
  · intro n sizes
    obtain ⟨answer, opening, rest, hsettled, hread⟩ := settled_of_read key params source n
    rw [show read n stream = _ from hread]
    exact reads_settled hsettled sizes

end OpeningStream

end SealedStream
