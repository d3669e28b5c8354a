import SealedStream.Proofs.Stream.Fronts

/-!
# Streams that need no key

Below the baseline a stream is its sink or its source and nothing else. On every other
host a stream to be opened has to show a whole header before the key is asked for. In
both cases the answer is the same whatever the stores hold, whether the vault is locked,
what is cached and where the random sources stand, and all of that stays as it is.
-/

namespace SealedStream

-- ----------------------------------------------------------------------------
-- Steps in turn
-- ----------------------------------------------------------------------------

namespace Action

variable {σ τ ε α β : Type}

/-- Steps one after the other, whatever they answer. -/
def inTurn : List (Action σ ε α) → σ → List (Except ε α) × σ
  | [], s => ([], s)
  | x :: steps, s =>
    let (answer, s) := x s
    let (answers, s) := inTurn steps s
    (answer :: answers, s)

theorem inTurn_cons (x : Action σ ε α) (steps : List (Action σ ε α)) (s : σ) :
    inTurn (x :: steps) s =
      ((x s).1 :: (inTurn steps (x s).2).1, (inTurn steps (x s).2).2) := rfl

/-- Where each step on a whole is a step on its part, so are all of them in turn. -/
theorem inTurn_on {part : σ → τ} {x : β → Action σ ε α} {y : β → Action τ ε α}
    (h : ∀ b s, y b (part s) = ((x b s).1, part (x b s).2)) (calls : List β) (s : σ) :
    inTurn (calls.map y) (part s) =
      ((inTurn (calls.map x) s).1, part (inTurn (calls.map x) s).2) := by
  induction calls generalizing s with
  | nil => rfl
  | cons call calls ih => simp only [List.map_cons, inTurn_cons, h, ih]

end Action

-- ----------------------------------------------------------------------------
-- Bytes that pass
-- ----------------------------------------------------------------------------

namespace StreamCall

/-- A call of a stream, which tells how many bytes were taken. A flush takes none. -/
def ask : StreamCall → SealingStream.WriteAction Nat
  | .write bytes => SealingStream.write bytes
  | .flush => do
    SealingStream.flush
    return 0

/-- The same call of a sink. -/
def askSink : StreamCall → Action Sink IoError Nat
  | .write bytes => Sink.write bytes
  | .flush => do
    Sink.flush
    return 0

/-- The bytes of a call that were taken, by its answer. -/
def taken : StreamCall → Except IoError Nat → Bytes
  | .write bytes, .ok n => bytes.take n
  | _, _ => []

theorem ask_unsealed (call : StreamCall) (sink : Sink) :
    call.ask ⟨none, sink⟩ = ((call.askSink sink).1, ⟨none, (call.askSink sink).2⟩) := by
  cases call with
  | write bytes => rfl
  | flush =>
    simp only [ask, askSink, SealingStream.flush, SealingStream.onSink, Action.bind_apply,
      Action.zoom_apply]
    rcases Sink.flush sink with ⟨_ | _, _⟩ <;> rfl

theorem askSink_took (call : StreamCall) (sink : Sink) :
    sink.Took (call.askSink sink).2 (call.taken (call.askSink sink).1) := by
  cases call with
  | write bytes =>
    rcases hwrite : Sink.write bytes sink with ⟨e | n, after⟩
    · simp only [askSink, hwrite]
      exact Sink.write_error hwrite
    · simp only [askSink, hwrite]
      exact (Sink.write_ok hwrite).2
  | flush =>
    have hcontent := Sink.content_flush sink
    simp only [askSink, Action.bind_apply]
    rcases hflush : Sink.flush sink with ⟨_ | _, after⟩ <;>
      simpa [hflush, Sink.Took, taken, Action.pure_apply] using hcontent

/-- A sink holds what it has taken of each call, one behind the other. -/
theorem inTurn_took (calls : List StreamCall) (sink : Sink) :
    sink.Took (Action.inTurn (calls.map askSink) sink).2
      (List.zipWith taken calls (Action.inTurn (calls.map askSink) sink).1).flatten := by
  induction calls generalizing sink with
  | nil => exact (List.append_nil _).symm
  | cons call calls ih =>
    rw [List.map_cons, Action.inTurn_cons, List.zipWith_cons_cons, List.flatten_cons]
    exact (call.askSink_took sink).append (ih _)

end StreamCall

namespace Source

/-- All bytes that a source holds, also behind its errors. -/
def held : Source → Bytes
  | [] => []
  | .chunk bytes :: rest => bytes ++ held rest
  | .fault _ :: rest => held rest

/-- The bytes that an answer gives. -/
def given : Except IoError Bytes → Bytes
  | .ok bytes => bytes
  | .error _ => []

theorem held_read (length : Nat) (source : Source) :
    source.held = given (read length source).1 ++ (read length source).2.held := by
  induction source with
  | nil => rfl
  | cons item rest ih =>
    match item with
    | .chunk [] => exact ih
    | .chunk (b :: bytes) =>
      show b :: bytes ++ held rest =
        (b :: bytes).take length ++ ((b :: bytes).drop length ++ held rest)
      rw [← List.append_assoc, List.take_append_drop]
    | .fault e => rfl

/-- What is read in turn, and what is left, is what a source holds. -/
theorem held_inTurn (sizes : List Nat) (source : Source) :
    source.held = (Action.inTurn (sizes.map read) source).1.flatMap given ++
      (Action.inTurn (sizes.map read) source).2.held := by
  induction sizes generalizing source with
  | nil => rfl
  | cons n sizes ih =>
    rw [List.map_cons, Action.inTurn_cons, List.flatMap_cons, List.append_assoc, ← ih]
    exact held_read n source

end Source

-- ----------------------------------------------------------------------------
-- Streams that are begun
-- ----------------------------------------------------------------------------

namespace Custody

variable {p : Custody}

theorem isProtected_iff :
    p.isProtected ↔ ¬ p.custodian.platform.level < p.custodian.config.baselineLevel := by
  rw [isProtected, Custodian.hostTier, Thresholds.tierAt, Config.thresholds]
  split
  · next h => simp [Tier.isSupported, h]
  · next h =>
    split <;> simp [Tier.isSupported, h]

end Custody

theorem Outgoing.start_unprotected {p : Custody} (hp : ¬ p.isProtected) (sink : Sink) :
    Outgoing.start ⟨p, sink⟩ = (.ok none, ⟨p, sink⟩) := by
  rw [start_eq, Action.bind_apply, Action.get_apply]
  simp only [hp]
  rfl

namespace Incoming

variable {p p' : Custody} {source rest : Source}

theorem start_unprotected (hp : ¬ p.isProtected) (source : Source) :
    start ⟨p, source⟩ = (.ok none, ⟨p, source⟩) := by
  rw [start_eq, Action.bind_apply, Action.get_apply]
  simp only [hp]
  rfl

theorem start_unheaded {e : SealError} (hp : p.isProtected)
    (hread : Header.read source = (.error e, rest)) :
    start ⟨p, source⟩ = (.error (.error e), ⟨p, rest⟩) := by
  simp [start_eq, Action.bind_apply, Action.get_apply, hp, onSource, Failure.lift,
    Action.mapError_apply, Action.zoom_apply, hread, Except.mapError]

theorem start_unresolved {iv : Bytes} {e : Failure SealError} (hp : p.isProtected)
    (hread : Header.read source = (.ok iv, rest)) (hresolve : Custody.resolve p = (.error e, p')) :
    start ⟨p, source⟩ = (.error e, ⟨p', rest⟩) := by
  simp [start_eq, Action.bind_apply, Action.get_apply, hp, onSource, onCustody, Failure.lift,
    Action.mapError_apply, Action.zoom_apply, hread, hresolve, Except.mapError]

theorem start_headed {iv : Bytes} {k : ContentKey} (hp : p.isProtected)
    (hread : Header.read source = (.ok iv, rest)) (hresolve : Custody.resolve p = (.ok k, p')) :
    start ⟨p, source⟩ =
      (.ok (some { key := k.key, params := k.tier.cipherParams iv }), ⟨p', rest⟩) := by
  simp [start_eq, Action.bind_apply, Action.get_apply, hp, onSource, onCustody, Failure.lift,
    Action.mapError_apply, Action.zoom_apply, hread, hresolve, Except.mapError, Action.pure_apply]

end Incoming

theorem Header.read_unheaded {source : Source} (h : ¬ Begins source.delivered) :
    ∃ e rest, read source = (.error e, rest) := by
  have hfront := front source.delivered
  generalize hdelivered : source.delivered = stream at h hfront
  cases hfront with
  | empty =>
    obtain ⟨rest, hread, -⟩ := read_spent_empty hdelivered
    exact ⟨_, rest, hread⟩
  | other count more hc =>
    obtain ⟨rest, hread, -⟩ := read_passed_other hc hdelivered
    exact ⟨_, rest, hread⟩
  | cut more hmore =>
    obtain ⟨rest, hread, -⟩ := read_spent_cut hmore hdelivered
    exact ⟨_, rest, hread⟩
  | whole iv body hiv => exact absurd (begins_whole hiv body) h

namespace Custody

variable {p : Custody} {bytes : Bytes}

theorem encrypt_unprotected (hp : ¬ p.isProtected) (text : Bytes) :
    encrypt text p = (.ok text, p) := by
  obtain ⟨written, hwrite, hwritten, hcontent⟩ :=
    Sink.writeAll_endless Sink.endless_empty text
  obtain ⟨flushed, hflush, hsame⟩ := Sink.flush_endless hwritten
  have hwriteAll : SealingStream.writeAll text ⟨none, {}⟩ = (.ok (), ⟨none, written⟩) := by
    show SealingStream.onSink (Sink.writeAll text) ⟨none, {}⟩ = _
    rw [SealingStream.onSink_writeAll, hwrite]
  have hfinish : SealingStream.finish ⟨none, written⟩ = (.ok (), ⟨none, flushed⟩) := by
    show SealingStream.onSink Sink.flush ⟨none, written⟩ = _
    rw [SealingStream.onSink, Action.zoom_apply, hflush]
  simp only [encrypt, Outgoing.start_unprotected hp, Action.bind_apply, hwriteAll, hfinish, hsame,
    hcontent]
  rfl

theorem decrypt_unprotected (hp : ¬ p.isProtected) (bytes : Bytes) :
    decrypt bytes p = (.ok bytes, p) := by
  simp [decrypt, Incoming.start_unprotected hp, OpeningStream.readToEnd, Action.bind_apply,
    Action.get_apply, OpeningStream.onSource, Action.zoom_apply, Source.readToEnd_ofBytes,
    Except.mapError]

theorem decrypt_unheaded (h : ¬ Header.Begins bytes) :
    ∃ e rest, Header.read (.ofBytes bytes) = (.error e, rest) ∧
      ∀ p : Custody, p.isProtected → decrypt bytes p = (.error (.error e), p) := by
  obtain ⟨e, rest, hread⟩ := Header.read_of_not_begins h
  exact ⟨e, rest, hread, fun p hp => decrypt_of_header_error hp hread⟩

/-- Below the baseline no stream has a header, and its sink and source do all that is asked of it;
on every other host a stream without a whole header is refused with what its header shows. In both
cases the answer is the same for any two states of the stores, the vault's lock, the cache and the
random sources, and the state is left as it is. -/
theorem key_left_alone :
    (∀ p : Custody, p.custodian.platform.level < p.custodian.config.baselineLevel →
      (∀ sink, Outgoing.start ⟨p, sink⟩ = (.ok none, ⟨p, sink⟩)) ∧
      (∀ source, Incoming.start ⟨p, source⟩ = (.ok none, ⟨p, source⟩)) ∧
      ∀ bytes, encrypt bytes p = (.ok bytes, p) ∧ decrypt bytes p = (.ok bytes, p)) ∧
    (∀ (calls : List StreamCall) (sink : Sink),
      let inner := Action.inTurn (calls.map StreamCall.askSink) sink
      Action.inTurn (calls.map StreamCall.ask) ⟨none, sink⟩ = (inner.1, ⟨none, inner.2⟩) ∧
      SealingStream.finish ⟨none, inner.2⟩ =
        ((Sink.flush inner.2).1, ⟨none, (Sink.flush inner.2).2⟩) ∧
      (Sink.flush inner.2).2.content =
        sink.content ++ (List.zipWith StreamCall.taken calls inner.1).flatten) ∧
    (∀ (sizes : List Nat) (source : Source),
      let inner := Action.inTurn (sizes.map Source.read) source
      Action.inTurn (sizes.map OpeningStream.read) ⟨none, source⟩ = (inner.1, ⟨none, inner.2⟩) ∧
      source.held = inner.1.flatMap Source.given ++ inner.2.held) ∧
    (∀ source : Source, ¬ Header.Begins source.delivered →
      ∃ e rest, Header.read source = (.error e, rest) ∧
        ∀ p : Custody, ¬ p.custodian.platform.level < p.custodian.config.baselineLevel →
          Incoming.start ⟨p, source⟩ = (.error (.error e), ⟨p, rest⟩)) ∧
    (∀ bytes, ¬ Header.Begins bytes →
      ∃ e rest, Header.read (.ofBytes bytes) = (.error e, rest) ∧
        ∀ p : Custody, ¬ p.custodian.platform.level < p.custodian.config.baselineLevel →
          decrypt bytes p = (.error (.error e), p)) ∧
    ∀ p q : Custody, p.custodian.platform = q.custodian.platform →
      p.custodian.config = q.custodian.config →
      (p.custodian.platform.level < p.custodian.config.baselineLevel → ∀ sink,
        (Outgoing.start ⟨p, sink⟩).1 = (Outgoing.start ⟨q, sink⟩).1 ∧
        (Outgoing.start ⟨p, sink⟩).2.sink = (Outgoing.start ⟨q, sink⟩).2.sink) ∧
      ∀ source : Source,
        p.custodian.platform.level < p.custodian.config.baselineLevel ∨
          ¬ Header.Begins source.delivered →
        (Incoming.start ⟨p, source⟩).1 = (Incoming.start ⟨q, source⟩).1 ∧
        (Incoming.start ⟨p, source⟩).2.source = (Incoming.start ⟨q, source⟩).2.source := by
  have hbelow {p : Custody} (h : p.custodian.platform.level < p.custodian.config.baselineLevel) :
      ¬ p.isProtected := fun hp => isProtected_iff.mp hp h
  refine ⟨fun p hp => ?below, fun calls sink => ?writes, fun sizes source => ?reads,
    fun source hsource => ?unheaded, fun bytes hbytes => ?slice, fun p q hplatform hconfig => ?two⟩
  case below =>
    exact ⟨Outgoing.start_unprotected (hbelow hp), Incoming.start_unprotected (hbelow hp),
      fun bytes => ⟨encrypt_unprotected (hbelow hp) bytes, decrypt_unprotected (hbelow hp) bytes⟩⟩
  case writes =>
    refine ⟨Action.inTurn_on (fun call sink => call.ask_unsealed sink) calls sink, rfl, ?_⟩
    rw [Sink.content_flush]
    exact StreamCall.inTurn_took calls sink
  case reads =>
    exact ⟨Action.inTurn_on (fun n source => rfl) sizes source, Source.held_inTurn sizes source⟩
  case unheaded =>
    obtain ⟨e, rest, hread⟩ := Header.read_unheaded hsource
    exact ⟨e, rest, hread, fun p hp => Incoming.start_unheaded (isProtected_iff.mpr hp) hread⟩
  case slice =>
    obtain ⟨e, rest, hread, hdecrypt⟩ := decrypt_unheaded hbytes
    exact ⟨e, rest, hread, fun p hp => hdecrypt p (isProtected_iff.mpr hp)⟩
  case two =>
    have hlevel : p.custodian.platform.level < p.custodian.config.baselineLevel ↔
        q.custodian.platform.level < q.custodian.config.baselineLevel := by rw [hplatform, hconfig]
    refine ⟨fun hp sink => ?_, fun source hcase => ?_⟩
    · rw [Outgoing.start_unprotected (hbelow hp),
        Outgoing.start_unprotected (hbelow (hlevel.mp hp))]
      exact ⟨rfl, rfl⟩
    · by_cases hp : p.custodian.platform.level < p.custodian.config.baselineLevel
      · rw [Incoming.start_unprotected (hbelow hp),
          Incoming.start_unprotected (hbelow (hlevel.mp hp))]
        exact ⟨rfl, rfl⟩
      · obtain ⟨e, rest, hread⟩ := Header.read_unheaded (hcase.resolve_left hp)
        rw [Incoming.start_unheaded (isProtected_iff.mpr hp) hread,
          Incoming.start_unheaded (isProtected_iff.mpr (mt hlevel.mpr hp)) hread]
        exact ⟨rfl, rfl⟩

end Custody

end SealedStream
