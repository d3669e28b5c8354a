import SealedStream.Proofs.Stream.Whole

/-!
# Writes to a stream that is sealed

The sink of a sealed stream takes the header when the stream is begun and the
sealed text when it is finished. In between it takes nothing, whatever is written
and however often it is flushed. A sink that fails in the middle has taken the
front of what was meant for it.
-/

namespace SealedStream

namespace Sink

-- ----------------------------------------------------------------------------
-- One write
-- ----------------------------------------------------------------------------

variable {s s' : Sink} {bytes : Bytes} {taken : Nat} {e : IoError}

/-- One sink is another one that has taken some more bytes. -/
def Took (s s' : Sink) (bytes : Bytes) : Prop := s'.content = s.content ++ bytes

theorem regularTake_le {length : Nat} (h : s.regularTake length = .ok taken) :
    taken ≤ length := by
  have hroom : s.room length ≤ length := by
    rw [room]
    split <;> omega
  rw [regularTake] at h
  split at h
  · split at h
    · cases h
    · cases h
      omega
  · cases h
    omega

theorem nextTake_le {length : Nat} (h : s.nextTake length = .ok taken) : taken ≤ length := by
  rw [nextTake] at h
  split at h
  · cases h
  · cases hregular : s.regularTake length with
    | error e =>
      rw [hregular] at h
      cases h
    | ok regular =>
      have hle := regularTake_le hregular
      rw [hregular] at h
      cases h
      omega
  · exact regularTake_le h

theorem write_ok (h : write bytes s = (.ok taken, s')) :
    taken ≤ bytes.length ∧ s.Took s' (bytes.take taken) := by
  rw [write] at h
  split at h
  · cases h
  · next htake =>
    cases h
    exact ⟨nextTake_le htake, rfl⟩

theorem write_error (h : write bytes s = (.error e, s')) : s.Took s' [] := by
  rw [write] at h
  split at h
  · cases h
    exact (List.append_nil _).symm
  · cases h

theorem content_flush (s : Sink) : (flush s).2.content = s.content := by
  rw [flush]
  split <;> rfl

-- ----------------------------------------------------------------------------
-- All writes
-- ----------------------------------------------------------------------------

/-- The sink after so many of the writes that `writeAll` makes. -/
def afterWrites : Nat → Bytes → Sink → Sink
  | 0, _, s => s
  | n + 1, bytes, s =>
    if bytes.isEmpty then s
    else
      match write bytes s with
      | (.ok taken, after) =>
        if taken = 0 then after else afterWrites n (bytes.drop taken) after
      | (.error e, after) =>
        if e.isInterrupted ∧ s.coming ≠ [] then afterWrites n bytes after else after

/-- It makes no more writes than there are bytes and events in store. -/
theorem afterWrites_enough {n : Nat} (h : bytes.length + s.coming.length ≤ n) :
    afterWrites n bytes s = (writeAll bytes s).2 := by
  -- each write that is followed by another uses up an event, if not a byte
  induction n generalizing bytes s with
  | zero =>
    obtain rfl : bytes = [] := List.eq_nil_of_length_eq_zero (by omega)
    rw [afterWrites, writeAll]
    rfl
  | succ n ih =>
    rw [afterWrites, writeAll]
    split
    · rfl
    · next hne =>
      have hpos : 0 < bytes.length :=
        List.length_pos_iff.mpr fun hnil => hne (List.isEmpty_iff.mpr hnil)
      have hcoming := coming_write bytes s
      rcases hw : write bytes s with ⟨e | taken, after⟩
      · rw [hw] at hcoming
        simp only
        split
        · next hagain =>
          have := List.length_pos_iff.mpr hagain.2
          refine ih ?_
          rw [hcoming, List.length_tail]
          omega
        · rfl
      · rw [hw] at hcoming
        simp only
        split
        · rfl
        · refine ih ?_
          rw [hcoming, List.length_tail, List.length_drop]
          omega

theorem Took.append {t : Sink} {first rest : Bytes} (h : s.Took s' first) (h' : s'.Took t rest) :
    s.Took t (first ++ rest) := by
  rw [Took, ← List.append_assoc, ← h]
  exact h'

theorem take_drop_prefix {rest : Bytes} (h : rest <+: bytes.drop taken) :
    bytes.take taken ++ rest <+: bytes := by
  conv => rhs; rw [← List.take_append_drop taken bytes]
  exact (List.prefix_append_right_inj _).mpr h

theorem afterWrites_took (n : Nat) (bytes : Bytes) (s : Sink) :
    ∃ front, front <+: bytes ∧ s.Took (afterWrites n bytes s) front := by
  have hnone (s : Sink) (bytes : Bytes) : ∃ front, front <+: bytes ∧ s.Took s front :=
    ⟨[], List.nil_prefix, (List.append_nil _).symm⟩
  induction n generalizing bytes s with
  | zero => exact hnone s bytes
  | succ n ih =>
    rw [afterWrites]
    split
    · exact hnone s bytes
    · split
      · next taken after hw =>
        obtain ⟨-, htook⟩ := write_ok hw
        split
        · exact ⟨_, List.take_prefix taken bytes, htook⟩
        · obtain ⟨rest, hrest, htook'⟩ := ih (bytes.drop taken) after
          exact ⟨_, take_drop_prefix hrest, htook.append htook'⟩
      · next e after hw =>
        have htook := write_error hw
        split
        · obtain ⟨rest, hrest, htook'⟩ := ih bytes after
          exact ⟨rest, hrest, htook.append htook'⟩
        · exact ⟨[], List.nil_prefix, htook⟩

theorem writeAll_took (bytes : Bytes) (s : Sink) :
    ∃ front, front <+: bytes ∧ s.Took (writeAll bytes s).2 front ∧
      ((writeAll bytes s).1 = .ok () ↔ front = bytes) := by
  fun_induction writeAll bytes s with
  | case1 bytes s hempty =>
    obtain rfl := List.isEmpty_iff.mp hempty
    exact ⟨[], List.nil_prefix, (List.append_nil _).symm, by simp⟩
  | case2 bytes s hne after hw =>
    obtain ⟨-, htook⟩ := write_ok hw
    refine ⟨[], List.nil_prefix, htook, ?_⟩
    simpa using fun h : [] = bytes => hne (List.isEmpty_iff.mpr h.symm)
  | case3 bytes s hne taken after hw hpos ih =>
    obtain ⟨hle, htook⟩ := write_ok hw
    obtain ⟨rest, hrest, htook', hiff⟩ := ih
    refine ⟨_, take_drop_prefix hrest, htook.append htook', hiff.trans ?_⟩
    conv => rhs; rhs; rw [← List.take_append_drop taken bytes]
    exact (List.append_right_inj _).symm
  | case4 bytes s hne e after hw hagain ih =>
    obtain ⟨rest, hrest, htook', hiff⟩ := ih
    exact ⟨rest, hrest, (write_error hw).append htook', hiff⟩
  | case5 bytes s hne e after hw hstop =>
    refine ⟨[], List.nil_prefix, write_error hw, ?_⟩
    simpa using fun h : [] = bytes => hne (List.isEmpty_iff.mpr h.symm)

/-- The same sink with other flushes before and in store. -/
def withFlushes (s : Sink) (faults : List (Option IoError)) (calls : Nat) : Sink :=
  { s with flushFaults := faults, flushCalls := calls }

theorem flush_withFlushes (s : Sink) :
    ∃ faults calls, (flush s).2 = s.withFlushes faults calls := by
  rw [flush]
  split <;> exact ⟨_, _, rfl⟩

/-- A flush has no influence on the writes after it. -/
theorem writeAll_withFlushes (bytes : Bytes) (s : Sink) (faults : List (Option IoError))
    (calls : Nat) :
    writeAll bytes (s.withFlushes faults calls) =
      ((writeAll bytes s).1, (writeAll bytes s).2.withFlushes faults calls) := by
  have hwrite (bytes : Bytes) (s : Sink) : write bytes (s.withFlushes faults calls) =
      ((write bytes s).1, (write bytes s).2.withFlushes faults calls) := by
    have htake : (s.withFlushes faults calls).nextTake bytes.length = s.nextTake bytes.length := rfl
    rw [write, write, htake]
    cases s.nextTake bytes.length <;> rfl
  fun_induction writeAll bytes s with
  | case1 bytes s hempty =>
    rw [writeAll, if_pos hempty]
  | case2 bytes s hne after hw =>
    rw [writeAll, if_neg hne, hwrite, hw]
    rfl
  | case3 bytes s hne taken after hw hpos ih =>
    rw [writeAll, if_neg hne, hwrite, hw]
    simp only [if_neg hpos, ih]
  | case4 bytes s hne e after hw hagain ih =>
    rw [writeAll, if_neg hne, hwrite, hw]
    exact (if_pos hagain).trans ih
  | case5 bytes s hne e after hw hstop =>
    rw [writeAll, if_neg hne, hwrite, hw]
    exact if_neg hstop

end Sink

-- ----------------------------------------------------------------------------
-- One stream
-- ----------------------------------------------------------------------------

/-- What a caller does with a stream before its end. -/
inductive StreamCall where
  | write (bytes : Bytes)
  | flush

namespace StreamCall

def text : StreamCall → Bytes
  | .write bytes => bytes
  | .flush => []

def run : StreamCall → SealingStream.WriteAction Unit
  | .write bytes => discard (SealingStream.write bytes)
  | .flush => SealingStream.flush

end StreamCall

namespace SealingStream

/-- A stream after calls, whatever they answered. -/
def after (calls : List StreamCall) (stream : SealingStream) : SealingStream :=
  calls.foldl (fun stream call => (call.run stream).2) stream

variable {key : SymmetricKey} {iv text body : Bytes} {s headed : Sink} {stream : SealingStream}

theorem after_sealing (key : SymmetricKey) (iv : Bytes) (calls : List StreamCall) (buffer : Bytes)
    (headed : Sink) :
    ∃ faults count, after calls ⟨some { key, iv, buffer }, headed⟩ =
      ⟨some { key, iv, buffer := buffer ++ calls.flatMap StreamCall.text },
        headed.withFlushes faults count⟩ := by
  induction calls generalizing buffer headed with
  | nil => exact ⟨headed.flushFaults, headed.flushCalls, by simp [after, Sink.withFlushes]⟩
  | cons call calls ih =>
    cases call with
    | write bytes =>
      obtain ⟨faults, count, h⟩ := ih (buffer ++ bytes) headed
      refine ⟨faults, count, ?_⟩
      rw [List.flatMap_cons, ← List.append_assoc]
      exact h
    | flush =>
      obtain ⟨faults, count, hflush⟩ := headed.flush_withFlushes
      obtain ⟨faults', count', h⟩ := ih buffer (headed.withFlushes faults count)
      refine ⟨faults', count', ?_⟩
      rw [List.flatMap_cons]
      have hrun : StreamCall.run .flush ⟨some { key, iv, buffer }, headed⟩ =
          ((Sink.flush headed).1, ⟨some { key, iv, buffer }, headed.withFlushes faults count⟩) := by
        rw [← hflush]
        rfl
      rw [after, List.foldl_cons, hrun]
      exact h

theorem finish_defect {defect : SealDefect} (h : key.sealText iv text = .error defect) :
    finish ⟨some { key, iv, buffer := text }, headed⟩ =
      (.error (.custom .other (SealError.encryptionFailed defect).message),
        ⟨some { key, iv, buffer := text, finished := true }, headed⟩) := by
  simp [finish, finishSealing, Action.bind_apply, Action.get_apply, h, setSealing,
    Action.modify_apply, Action.throw_apply]

theorem finish_sealed (h : key.sealText iv text = .ok body) :
    finish ⟨some { key, iv, buffer := text }, headed⟩ =
      match Sink.writeAll body headed with
      | (.error e, written) => (.error e, ⟨some { key, iv, finished := true }, written⟩)
      | (.ok _, written) =>
        ((Sink.flush written).1, ⟨some { key, iv, finished := true }, (Sink.flush written).2⟩) := by
  simp only [finish, finishSealing, Action.bind_apply, Action.get_apply, h, setSealing,
    Bool.false_eq_true, if_false, Action.modify_apply, onSink_writeAll, flush]
  rcases Sink.writeAll body headed with ⟨e | _, written⟩ <;> rfl

theorem content_finish_sealed (h : key.sealText iv text = .ok body) (headed : Sink) :
    (finish ⟨some { key, iv, buffer := text }, headed⟩).2.sink.content =
      (Sink.writeAll body headed).2.content := by
  rw [finish_sealed h]
  rcases Sink.writeAll body headed with ⟨e | _, written⟩
  · rfl
  · exact Sink.content_flush written

theorem took_of_finish_ok (h : key.sealText iv text = .ok body)
    (hfinish : finish ⟨some { key, iv, buffer := text }, headed⟩ = (.ok (), stream)) :
    headed.Took stream.sink body := by
  obtain ⟨front, -, htook, hall⟩ := Sink.writeAll_took body headed
  have hcontent := content_finish_sealed h headed
  rw [hfinish] at hcontent
  rw [finish_sealed h] at hfinish
  rcases hwrite : Sink.writeAll body headed with ⟨e | _, written⟩
  · rw [hwrite] at hfinish
    cases hfinish
  · rw [hwrite] at hall
    obtain rfl : front = body := hall.mp rfl
    exact hcontent.trans htook

/-- An error leaves less than everything, unless it is the last flush that raised it. -/
theorem took_of_finish_error {e : IoError} (h : key.sealText iv text = .ok body)
    (hfinish : finish ⟨some { key, iv, buffer := text }, headed⟩ = (.error e, stream)) :
    ∃ front, front <+: body ∧ headed.Took stream.sink front ∧
      (front = body ↔ ∃ written, Sink.writeAll body headed = (.ok (), written) ∧
        (Sink.flush written).1 = .error e) := by
  obtain ⟨front, hfront, htook, hall⟩ := Sink.writeAll_took body headed
  have hcontent := content_finish_sealed h headed
  rw [hfinish] at hcontent
  refine ⟨front, hfront, hcontent.trans htook, ?_⟩
  rw [finish_sealed h] at hfinish
  rcases hwrite : Sink.writeAll body headed with ⟨e' | _, written⟩
  · rw [hwrite] at hall
    simpa using hall
  · rw [hwrite] at hfinish hall
    exact ⟨fun _ => ⟨written, rfl, (Prod.mk.inj hfinish).1⟩, fun _ => hall.mp rfl⟩

/-- What a stream with a header leaves on its sink, over all that a caller may do with it. -/
structure Carries (key : SymmetricKey) (iv : Bytes) (s headed : Sink) : Prop where
  held : ∀ calls, s.Took (after calls ⟨some { key, iv }, headed⟩).sink (Header.bytes iv)
  abandoned : ∀ calls,
    s.Took (after calls ⟨some { key, iv }, headed⟩).abandon.sink (Header.bytes iv)
  /-- Each of the last writes leaves a front part of the sealed text. -/
  growing : ∀ calls body, key.sealText iv (calls.flatMap StreamCall.text) = .ok body →
    let stream := after calls ⟨some { key, iv }, headed⟩
    (∀ n, ∃ front, front <+: body ∧
      s.Took (Sink.afterWrites n body stream.sink) (Header.bytes iv ++ front)) ∧
    ∃ n, (finish stream).2.sink.content = (Sink.afterWrites n body stream.sink).content
  finished : ∀ calls body stream, key.sealText iv (calls.flatMap StreamCall.text) = .ok body →
    finish (after calls ⟨some { key, iv }, headed⟩) = (.ok (), stream) →
      s.Took stream.sink (Header.bytes iv ++ body)
  /-- Everything is there exactly if it was the last flush that failed. -/
  broken : ∀ calls body e stream, key.sealText iv (calls.flatMap StreamCall.text) = .ok body →
    finish (after calls ⟨some { key, iv }, headed⟩) = (.error e, stream) →
      ∃ front, front <+: body ∧ s.Took stream.sink (Header.bytes iv ++ front) ∧
        (front = body ↔ ∃ written,
          Sink.writeAll body (after calls ⟨some { key, iv }, headed⟩).sink = (.ok (), written) ∧
            (Sink.flush written).1 = .error e)
  unsealed : ∀ calls defect, key.sealText iv (calls.flatMap StreamCall.text) = .error defect →
    ∃ e stream, finish (after calls ⟨some { key, iv }, headed⟩) = (.error e, stream) ∧
      s.Took stream.sink (Header.bytes iv)
  settled : ∀ calls calls', calls.flatMap StreamCall.text = calls'.flatMap StreamCall.text →
    (finish (after calls ⟨some { key, iv }, headed⟩)).2.sink.content =
      (finish (after calls' ⟨some { key, iv }, headed⟩)).2.sink.content

theorem content_finish (calls : List StreamCall) (headed : Sink) :
    (finish (after calls ⟨some { key, iv }, headed⟩)).2.sink.content =
      match key.sealText iv (calls.flatMap StreamCall.text) with
      | .ok body => (Sink.writeAll body headed).2.content
      | .error _ => headed.content := by
  obtain ⟨faults, count, hafter⟩ := after_sealing key iv calls [] headed
  rw [hafter, List.nil_append]
  cases hseal : key.sealText iv (calls.flatMap StreamCall.text) with
  | error defect =>
    rw [finish_defect hseal]
    rfl
  | ok body =>
    rw [content_finish_sealed hseal, Sink.writeAll_withFlushes]
    rfl

theorem carries_of_headed (hs : s.Took headed (Header.bytes iv)) : Carries key iv s headed := by
  have hstream (calls : List StreamCall) :
      ∃ sink, after calls ⟨some { key, iv }, headed⟩ =
        ⟨some { key, iv, buffer := calls.flatMap StreamCall.text }, sink⟩ ∧
          s.Took sink (Header.bytes iv) := by
    obtain ⟨faults, count, hafter⟩ := after_sealing key iv calls [] headed
    exact ⟨_, hafter, hs⟩
  constructor
  case held =>
    intro calls
    obtain ⟨sink, hafter, htook⟩ := hstream calls
    rw [hafter]
    exact htook
  case abandoned =>
    intro calls
    obtain ⟨sink, hafter, htook⟩ := hstream calls
    rw [hafter]
    exact htook
  case growing =>
    intro calls body hseal
    obtain ⟨sink, hafter, htook⟩ := hstream calls
    rw [hafter]
    refine ⟨fun n => ?_, body.length + sink.coming.length, ?_⟩
    · obtain ⟨front, hfront, htook'⟩ := Sink.afterWrites_took n body sink
      exact ⟨front, hfront, htook.append htook'⟩
    · rw [content_finish_sealed hseal, Sink.afterWrites_enough (Nat.le_refl _)]
  case finished =>
    intro calls body stream hseal hfinish
    obtain ⟨sink, hafter, htook⟩ := hstream calls
    rw [hafter] at hfinish
    exact htook.append (took_of_finish_ok hseal hfinish)
  case broken =>
    intro calls body e stream hseal hfinish
    obtain ⟨sink, hafter, htook⟩ := hstream calls
    rw [hafter] at hfinish ⊢
    obtain ⟨front, hfront, htook', hiff⟩ := took_of_finish_error hseal hfinish
    exact ⟨front, hfront, htook.append htook', hiff⟩
  case unsealed =>
    intro calls defect hseal
    obtain ⟨sink, hafter, htook⟩ := hstream calls
    rw [hafter]
    exact ⟨_, _, finish_defect hseal, htook⟩
  case settled =>
    intro calls calls' htext
    rw [content_finish, content_finish, htext]

end SealingStream

namespace Outgoing

-- ----------------------------------------------------------------------------
-- From the beginning
-- ----------------------------------------------------------------------------

variable {p p' : Custody} {k : ContentKey} {iv : Bytes} {host : Host}

theorem start_unresolved {e : Failure SealError} (hp : p.isProtected)
    (h : Custody.resolve p = (.error e, p')) (s : Sink) : start ⟨p, s⟩ = (.error e, ⟨p', s⟩) := by
  simp [start_eq, Action.bind_apply, Action.get_apply, hp, onCustody, Action.zoom_apply, h]

theorem start_resolved (hp : p.isProtected) (h : Custody.resolve p = (.ok k, p'))
    (hfresh : k.tier.freshIv p'.host = (.ok iv, host)) (hiv : iv.length = Header.ivSize)
    (s : Sink) :
    start ⟨p, s⟩ =
      match Sink.writeAll (Header.bytes iv) s with
      | (.error e, headed) => (.error (.error (.io e)), ⟨{ p' with host }, headed⟩)
      | (.ok _, headed) => (.ok (some { key := k.key, iv }), ⟨{ p' with host }, headed⟩) := by
  simp only [start_eq, Action.bind_apply, Action.get_apply, hp, if_true, onCustody,
    Action.zoom_apply, h, Custody.onHost, hfresh, onSink, Failure.lift, Action.mapError_apply,
    Header.write_apply hiv]
  rcases Sink.writeAll (Header.bytes iv) s with ⟨e | _, headed⟩ <;> rfl

/-- What a sealed stream leaves on a sink from its beginning on, under a key and a fresh vector. -/
structure Leaves (p : Custody) (s : Sink) (key : SymmetricKey) (iv : Bytes) : Prop where
  growing : (∀ n, ∃ front, front <+: Header.bytes iv ∧
      s.Took (Sink.afterWrites n (Header.bytes iv) s) front) ∧
    ∃ n, (start ⟨p, s⟩).2.sink = Sink.afterWrites n (Header.bytes iv) s
  broken : ∀ e out, start ⟨p, s⟩ = (.error e, out) →
    ∃ front, front <+: Header.bytes iv ∧ front ≠ Header.bytes iv ∧ s.Took out.sink front
  begun : ∀ sealing out, start ⟨p, s⟩ = (.ok sealing, out) →
    sealing = some { key, iv } ∧ SealingStream.Carries key iv s out.sink
  /-- It is what a whole text is sealed to. -/
  whole : ∀ text body, key.sealText iv text = .ok body →
    (p.encrypt text).1 = .ok (Header.bytes iv ++ body)

theorem leaves_of_resolve (hp : p.isProtected) (h : Custody.resolve p = (.ok k, p')) (s : Sink) :
    ∃ iv host, k.tier.freshIv p'.host = (.ok iv, host) ∧ iv.length = Header.ivSize ∧
      Leaves p s k.key iv := by
  obtain ⟨iv, host, hfresh, hiv⟩ := k.tier.freshIv_ok p'.host
  have hstart := start_resolved hp h hfresh hiv s
  obtain ⟨front, hfront, htook, hall⟩ := Sink.writeAll_took (Header.bytes iv) s
  refine ⟨iv, host, hfresh, hiv, ?_⟩
  constructor
  case growing =>
    refine ⟨fun n => Sink.afterWrites_took n _ s,
      (Header.bytes iv).length + s.coming.length, ?_⟩
    rw [Sink.afterWrites_enough (Nat.le_refl _), hstart]
    rcases Sink.writeAll (Header.bytes iv) s with ⟨_ | _, headed⟩ <;> rfl
  case broken =>
    intro e out hout
    rw [hstart] at hout
    rcases hwrite : Sink.writeAll (Header.bytes iv) s with ⟨_ | _, headed⟩
    · rw [hwrite] at hout htook hall
      cases hout
      refine ⟨front, hfront, fun hfull => ?_, htook⟩
      cases hall.mpr hfull
    · rw [hwrite] at hout
      cases hout
  case begun =>
    intro sealing out hout
    rw [hstart] at hout
    rcases hwrite : Sink.writeAll (Header.bytes iv) s with ⟨_ | _, headed⟩
    · rw [hwrite] at hout
      cases hout
    · rw [hwrite] at hout htook hall
      cases hout
      obtain rfl : front = Header.bytes iv := hall.mp rfl
      exact ⟨rfl, SealingStream.carries_of_headed htook⟩
  case whole =>
    intro text body hseal
    obtain ⟨iv', host', hfresh', -, hencrypt⟩ := Custody.encrypt_of_resolve hp h text
    rw [hfresh] at hfresh'
    cases hfresh'
    rw [hencrypt, hseal]
    rfl

/-- A header with nothing behind it is refused, whoever is to open it. -/
theorem decrypt_header (hiv : iv.length = Header.ivSize) (q : Custody) (hq : q.isProtected)
    (text : Bytes) : (q.decrypt (Header.bytes iv)).1 ≠ .ok text := by
  have hstream : Header.bytes iv = Header.bytes iv ++ [] := (List.append_nil _).symm
  rw [hstream]
  rcases hresolve : Custody.resolve q with ⟨e | k, q'⟩
  · rw [Custody.decrypt_of_resolve_error hq hiv hresolve]
    exact nofun
  · rw [Custody.decrypt_of_resolve hq hiv hresolve, SymmetricKey.openText_of_short _ (by decide)]
    exact nofun

/-- A sink gets nothing from a stream whose key cannot be had. Otherwise it gets a fresh header
and, when the stream is finished, the sealed text behind it; at every moment it has got a front
part of the two, and an abandoned stream's header is refused by every reader. -/
theorem sink_receives {p : Custody} (hp : p.isProtected) (s : Sink) :
    (∀ e p', Custody.resolve p = (.error e, p') → start ⟨p, s⟩ = (.error e, ⟨p', s⟩)) ∧
    (∀ k p', Custody.resolve p = (.ok k, p') →
      ∃ iv host, k.tier.freshIv p'.host = (.ok iv, host) ∧ iv.length = 12 ∧
        Leaves p s k.key iv ∧
        ∀ q : Custody, q.isProtected → ∀ text, (q.decrypt (Header.bytes iv)).1 ≠ .ok text) := by
  refine ⟨fun e p' h => start_unresolved hp h s, fun k p' h => ?_⟩
  obtain ⟨iv, host, hfresh, hiv, hleaves⟩ := leaves_of_resolve hp h s
  exact ⟨iv, host, hfresh, hiv, hleaves, decrypt_header hiv⟩

/-- On a modern host with nothing stored, and a sink that takes one byte at a time. -/
theorem sink_receives_dripping :
    ∃ p : Custody, p.isProtected ∧ ∃ iv key, iv.length = 12 ∧
      Leaves p { perCall := some 1 } key iv := by
  let p : Custody :=
    ⟨{ platform := ⟨23⟩, config := {} }, .fresh { entropy := .ofSeed 0, now := .epoch }⟩
  obtain ⟨iv, host, -, hiv, hleaves, -⟩ :=
    (sink_receives (p := p) rfl { perCall := some 1 }).2 _ _ rfl
  exact ⟨p, rfl, iv, _, hiv, hleaves⟩

end Outgoing

end SealedStream
