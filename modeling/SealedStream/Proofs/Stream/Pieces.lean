import SealedStream.Proofs.Ciphers
import SealedStream.Stream.Protected

/-!
# The pieces of a stream

The header at the front of a source, the body under the cipher, and the sink
that takes both. What is wrong with a byte string is told from its front: a
first byte other than twelve, an end inside the header, and only then a body
that is no sealed text.
-/

namespace SealedStream

namespace RandomSource

theorem length_words (seed : Bytes) (position count : Nat) :
    (Cipher.ChaCha.words seed position count).length = count := by
  have hblocks (first blocks : Nat) :
      ((List.range blocks).flatMap fun i => (Cipher.ChaCha.block seed (first + i)).toList).length =
        16 * blocks := by
    induction blocks with
    | zero => rfl
    | succ blocks ih => simp [List.range_succ, ih, Nat.mul_succ]
  rw [Cipher.ChaCha.words, List.length_take, List.length_drop, hblocks]
  omega

theorem length_bytes (r : RandomSource) (length : Nat) : (r.bytes length).1.length = length := by
  rw [bytes, List.length_take, Cipher.length_bytesLE, length_words, wordsFor]
  omega

end RandomSource

namespace Tier

/-- A fresh vector has its length, whichever source it comes from. -/
theorem freshIv_ok (tier : Tier) (host : Host) :
    ∃ iv host', tier.freshIv host = (.ok iv, host') ∧ iv.length = Header.ivSize := by
  cases tier with
  | modernDirect => exact ⟨_, _, rfl, host.machine.entropy.length_draw Header.ivSize⟩
  | unsupported => exact ⟨_, _, rfl, host.random.length_bytes Header.ivSize⟩
  | legacyWrapped => exact ⟨_, _, rfl, host.random.length_bytes Header.ivSize⟩

theorem vector_cipherParams (tier : Tier) (iv : Bytes) : (tier.cipherParams iv).vector = iv := by
  cases tier <;> rfl

theorem tagBits_cipherParams (tier : Tier) (iv : Bytes) :
    (tier.cipherParams iv).tagBits = Cipher.Gcm.tagSize * 8 := by
  cases tier <;> rfl

end Tier

namespace SymmetricKey

variable {key : SymmetricKey} {iv text body : Bytes}

theorem sealText_ok (key : SymmetricKey) (iv : Bytes) (h : text.length ≤ longestText) :
    ∃ body, key.sealText iv text = .ok body ∧
      body.length = text.length + Cipher.Gcm.tagSize := by
  refine ⟨_, if_pos h, ?_⟩
  rw [Cipher.Gcm.length_sealed]

/-- Under the parameters of any tier, a body opens to the text that it is the sealed form of. -/
theorem openText_eq_ok_iff (tier : Tier) (hb : body.length ≤ longestText + Cipher.Gcm.tagSize) :
    key.openText (tier.cipherParams iv) body = .ok text ↔ key.sealText iv text = .ok body := by
  have hlimit : ¬ longestText + Cipher.Gcm.tagSize < body.length - Cipher.Gcm.tagSize := by omega
  rw [openText, tier.tagBits_cipherParams, tier.vector_cipherParams, if_neg (fun h => h rfl),
    if_neg hlimit, sealText]
  constructor
  · intro h
    split at h
    · cases h
    · split at h
      · next hopen =>
        cases h
        have hbody := Cipher.Gcm.opened_eq_some_iff.mp hopen
        rw [if_pos, ← hbody]
        rw [hbody, Cipher.Gcm.length_sealed] at hb
        omega
      · cases h
  · intro h
    split at h
    · cases h
      rw [Cipher.Gcm.length_sealed, if_neg (by omega), Cipher.Gcm.opened_sealed]
    · cases h

/-- The tag of a ciphertext under a key and a vector. -/
def tagOf (key : SymmetricKey) (iv ciphertext : Bytes) : Bytes :=
  Cipher.Gcm.tag (Cipher.Aes.encipherWith (Cipher.Aes.schedule key.bytes)) iv ciphertext

/-- A body ends with the tag of what stands before it. -/
def Authentic (key : SymmetricKey) (iv body : Bytes) : Prop :=
  body.drop (body.length - Cipher.Gcm.tagSize) =
    key.tagOf iv (body.take (body.length - Cipher.Gcm.tagSize))

theorem openText_of_short (tier : Tier) (h : body.length < Cipher.Gcm.tagSize) :
    key.openText (tier.cipherParams iv) body = .error (.decryptionFailed .tooShort) := by
  rw [openText, tier.tagBits_cipherParams, if_neg (fun h => h rfl), if_pos h]

theorem openText_of_not_authentic (tier : Tier) (hb : Cipher.Gcm.tagSize ≤ body.length)
    (h : ¬ key.Authentic iv body) :
    key.openText (tier.cipherParams iv) body = .error (.decryptionFailed .notAuthentic) := by
  rw [openText, tier.tagBits_cipherParams, tier.vector_cipherParams, if_neg (fun h => h rfl),
    if_neg (Nat.not_lt.mpr hb)]
  split
  · rfl
  · have hopen : Cipher.Gcm.opened (Cipher.Aes.encipherWith (Cipher.Aes.schedule key.bytes)) iv
        body = none := if_neg fun hin => h hin.2
    rw [hopen]

end SymmetricKey

namespace Header

/-- A byte string begins with a header, or its front tells that it does not. -/
inductive Front : Bytes → Prop
  | empty : Front []
  | other (count : UInt8) (rest : Bytes) : count ≠ 12 → Front (count :: rest)
  | cut (rest : Bytes) : rest.length < ivSize → Front (12 :: rest)
  | whole (iv body : Bytes) : iv.length = ivSize → Front (bytes iv ++ body)

theorem front (stream : Bytes) : Front stream := by
  cases stream with
  | nil => exact .empty
  | cons count rest =>
    by_cases hc : count = 12
    · subst hc
      by_cases hr : rest.length < ivSize
      · exact .cut rest hr
      · have := Front.whole (rest.take ivSize) (rest.drop ivSize)
          (by rw [List.length_take]; omega)
        rwa [bytes, List.cons_append, List.take_append_drop] at this
    · exact .other count rest hc

end Header

namespace Source

theorem readExact_ofBytes {bytes : Bytes} {length : Nat} (hpos : 0 < length)
    (h : length ≤ bytes.length) :
    readExact length (.ofBytes bytes) =
      (.ok (bytes.take length), .ofBytes (bytes.drop length)) := by
  obtain ⟨n, rfl⟩ := Nat.exists_eq_succ_of_ne_zero hpos.ne'
  rw [ofBytes, readExact, if_pos h]
  rfl

theorem readExact_short {bytes : Bytes} {length : Nat} (h : bytes.length < length) :
    readExact length (.ofBytes bytes) = (.error .unfilled, []) := by
  obtain ⟨n, rfl⟩ := Nat.exists_eq_succ_of_ne_zero (Nat.ne_of_gt (Nat.zero_lt_of_lt h))
  obtain ⟨m, hm⟩ := Nat.exists_eq_succ_of_ne_zero (Nat.sub_ne_zero_of_lt h)
  rw [ofBytes, readExact, if_neg (Nat.not_le.mpr h), hm]
  rfl

theorem readToEnd_ofBytes (bytes : Bytes) : readToEnd (.ofBytes bytes) = (.ok bytes, []) := by
  simp [ofBytes, readToEnd, Except.map]

end Source

namespace Header

theorem read_empty : read (.ofBytes []) = (.error .truncatedHeader, []) := rfl

theorem read_cons (count : UInt8) (rest : Bytes) :
    read (.ofBytes (count :: rest)) =
      if count = 12 then (Source.readExact ivSize).mapError readError (.ofBytes rest)
      else (.error (.invalidIvLength ivSize count.toNat), .ofBytes rest) := by
  have hcount : count = 12 ↔ count.toNat = ivSize := UInt8.toNat_inj.symm
  rw [read, Action.bind_apply, Action.mapError_apply,
    Source.readExact_ofBytes Nat.one_pos (Nat.le_add_left ..)]
  by_cases hc : count.toNat = ivSize
  · rw [if_pos (hcount.mpr hc)]
    show (if count.toNat = ivSize then (Source.readExact ivSize).mapError readError
      else throw (.invalidIvLength ivSize count.toNat)) _ = _
    rw [if_pos hc]
    rfl
  · rw [if_neg (mt hcount.mp hc)]
    show (if count.toNat = ivSize then (Source.readExact ivSize).mapError readError
      else throw (.invalidIvLength ivSize count.toNat)) _ = _
    rw [if_neg hc]
    rfl

theorem read_other {count : UInt8} (h : count ≠ 12) (rest : Bytes) :
    read (.ofBytes (count :: rest)) =
      (.error (.invalidIvLength ivSize count.toNat), .ofBytes rest) := by
  rw [read_cons, if_neg h]

theorem read_cut {rest : Bytes} (h : rest.length < ivSize) :
    read (.ofBytes (12 :: rest)) = (.error .truncatedHeader, []) := by
  rw [read_cons, if_pos rfl, Action.mapError_apply, Source.readExact_short h]
  rfl

theorem read_whole {iv : Bytes} (h : iv.length = ivSize) (body : Bytes) :
    read (.ofBytes (bytes iv ++ body)) = (.ok iv, .ofBytes body) := by
  have hlength : ivSize ≤ (iv ++ body).length := by simp [h]
  rw [bytes, List.cons_append, read_cons, if_pos (show UInt8.ofNat ivSize = 12 from rfl),
    Action.mapError_apply, Source.readExact_ofBytes (by decide) hlength, List.take_left' h,
    List.drop_left' h]
  rfl

end Header

namespace Sink

/-- The sink keeps whatever it is given. -/
def Endless (s : Sink) : Prop :=
  s.coming = [] ∧ s.perCall = none ∧ s.capacity = none ∧ s.whenFull = none ∧ s.flushFaults = []

theorem endless_empty : ({} : Sink).Endless := ⟨rfl, rfl, rfl, rfl, rfl⟩

theorem write_endless {s : Sink} (hs : s.Endless) (bytes : Bytes) :
    ∃ s', write bytes s = (.ok bytes.length, s') ∧ s'.Endless ∧
      s'.content = s.content ++ bytes := by
  obtain ⟨hcoming, hcall, hcapacity, hfull, hflush⟩ := hs
  have htake : s.nextTake bytes.length = .ok bytes.length := by
    simp [nextTake, regularTake, room, hcoming, hcall, hcapacity, hfull]
  refine ⟨{ s with
    content := s.content ++ bytes
    coming := s.coming.tail
    writeCalls := s.writeCalls + 1 }, ?_, ⟨by simp [hcoming], hcall, hcapacity, hfull, hflush⟩, rfl⟩
  simp only [write, htake, List.take_length]

theorem writeAll_endless {s : Sink} (hs : s.Endless) (bytes : Bytes) :
    ∃ s', writeAll bytes s = (.ok (), s') ∧ s'.Endless ∧ s'.content = s.content ++ bytes := by
  cases bytes with
  | nil => exact ⟨s, by rw [writeAll]; rfl, hs, (List.append_nil _).symm⟩
  | cons b rest =>
    obtain ⟨s', hwrite, hs', hcontent⟩ := write_endless hs (b :: rest)
    refine ⟨s', ?_, hs', hcontent⟩
    rw [writeAll, if_neg (by simp)]
    split
    · next taken after h =>
      rw [hwrite] at h
      cases h
      rw [if_neg (by simp), List.drop_length, writeAll]
      rfl
    · next e after h =>
      rw [hwrite] at h
      cases h

theorem flush_endless {s : Sink} (hs : s.Endless) :
    ∃ s', flush s = (.ok (), s') ∧ s'.content = s.content := by
  obtain ⟨-, -, -, -, hflush⟩ := hs
  exact ⟨{ s with flushFaults := s.flushFaults.tail, flushCalls := s.flushCalls + 1 },
    by simp [flush, hflush], rfl⟩

end Sink

namespace Header

/-- A byte string begins with a whole header. -/
def Begins (stream : Bytes) : Prop := stream.head? = some 12 ∧ ivSize < stream.length

instance (stream : Bytes) : Decidable (Begins stream) := inferInstanceAs (Decidable (_ ∧ _))

theorem begins_whole {iv : Bytes} (h : iv.length = ivSize) (body : Bytes) :
    Begins (bytes iv ++ body) := by
  refine ⟨rfl, ?_⟩
  simp only [bytes, List.cons_append, List.length_cons, List.length_append, h]
  omega

theorem whole_of_begins {stream : Bytes} (h : Begins stream) :
    ∃ iv body, iv.length = ivSize ∧ stream = bytes iv ++ body := by
  obtain ⟨hhead, hlength⟩ := h
  cases front stream with
  | empty => cases hhead
  | other count rest hc => exact absurd (Option.some.inj hhead) hc
  | cut rest hr =>
    rw [List.length_cons] at hlength
    omega
  | whole iv body hiv => exact ⟨iv, body, hiv, rfl⟩

theorem read_of_not_begins {stream : Bytes} (h : ¬ Begins stream) :
    ∃ e source, read (.ofBytes stream) = (.error e, source) := by
  cases front stream with
  | empty => exact ⟨_, _, read_empty⟩
  | other count rest hc => exact ⟨_, _, read_other hc rest⟩
  | cut rest hr => exact ⟨_, _, read_cut hr⟩
  | whole iv body hiv => exact absurd (begins_whole hiv body) h

end Header

theorem Header.write_apply {iv : Bytes} (h : iv.length = ivSize) (sink : Sink) :
    write iv sink =
      ((Sink.writeAll (bytes iv) sink).1.mapError .io, (Sink.writeAll (bytes iv) sink).2) := by
  rw [write, if_pos h]
  exact Action.mapError_apply ..

namespace SealingStream

variable {key : SymmetricKey} {iv text body : Bytes} {sink : Sink}

theorem onSink_writeAll (stream : SealingStream) :
    onSink (Sink.writeAll body) stream =
      ((Sink.writeAll body stream.sink).1,
        { stream with sink := (Sink.writeAll body stream.sink).2 }) := rfl

/-- Writing only holds the text back. -/
theorem writeAll_sealing :
    writeAll text ⟨some { key, iv }, sink⟩ =
      (.ok (), ⟨some { key, iv, buffer := text }, sink⟩) := by
  by_cases ht : text = []
  · subst ht
    rfl
  · simp [writeAll, Action.bind_apply, Action.get_apply, ht]
    rfl

theorem finish_of_seal_error {defect : SealDefect} (h : key.sealText iv text = .error defect) :
    (finish ⟨some { key, iv, buffer := text }, sink⟩).1 =
      .error (.custom .other (SealError.encryptionFailed defect).message) := by
  simp [finish, finishSealing, Action.bind_apply, Action.get_apply, h, setSealing,
    Action.modify_apply, Action.throw_apply]

theorem finish_of_seal (hs : sink.Endless) (h : key.sealText iv text = .ok body) :
    ∃ stream, finish ⟨some { key, iv, buffer := text }, sink⟩ = (.ok (), stream) ∧
      stream.sink.content = sink.content ++ body := by
  obtain ⟨written, hwrite, hwritten, hcontent⟩ := Sink.writeAll_endless hs body
  obtain ⟨flushed, hflush, hsame⟩ := Sink.flush_endless hwritten
  refine ⟨⟨some { key, iv, finished := true }, flushed⟩, ?_, hsame.trans hcontent⟩
  simp [finish, finishSealing, Action.bind_apply, Action.get_apply, h, setSealing,
    Action.modify_apply, onSink_writeAll, hwrite, flush]
  simp [onSink, Action.zoom_apply, hflush]

end SealingStream

end SealedStream
