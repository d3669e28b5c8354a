import SealedStream.Proofs.Stream.Pieces

/-!
# Draws of random bytes

Random bytes come from springs: the operating system's entropy, and the key stream of
each random source that was seeded from it. A draw is a segment of one of them. Whoever
draws takes what comes next, so that the draws of a whole log lie one behind the other.
-/

namespace SealedStream

-- ----------------------------------------------------------------------------
-- Key streams
-- ----------------------------------------------------------------------------

theorem getElem?_flatMap_range {α : Type} {size : Nat} {block : Nat → List α}
    (hsize : ∀ i, (block i).length = size) (count : Nat) {j : Nat} (hj : j < size * count) :
    ((List.range count).flatMap block)[j]? = (block (j / size))[j % size]? := by
  have hlength (count : Nat) : ((List.range count).flatMap block).length = size * count := by
    induction count with
    | zero => rfl
    | succ count ih => simp [List.range_succ, ih, hsize, Nat.mul_succ]
  induction count with
  | zero => simp at hj
  | succ count ih =>
    rw [List.range_succ, List.flatMap_append, List.flatMap_singleton]
    by_cases hlt : j < size * count
    · rw [List.getElem?_append_left (by rwa [hlength]), ih hlt]
    · -- the index lies in the last block
      have hle : size * count ≤ j := Nat.le_of_not_lt hlt
      have hrest : j - size * count < size := by
        rw [Nat.mul_succ] at hj
        omega
      have hj' : j = (j - size * count) + size * count := by omega
      rw [List.getElem?_append_right (by rwa [hlength]), hlength]
      conv => rhs; rw [hj', Nat.add_mul_div_left _ _ (by omega), Nat.add_mul_mod_self_left,
        Nat.div_eq_of_lt hrest, Nat.mod_eq_of_lt hrest, Nat.zero_add]

namespace Cipher.ChaCha

/-- One word of the stream. -/
def word (key : Bytes) (position : Nat) : UInt32 := (block key (position / 16)).word (position % 16)

theorem words_eq (key : Bytes) (position count : Nat) :
    words key position count = (List.range count).map fun i => word key (position + i) := by
  refine List.ext_getElem? fun i => ?_
  rw [words, List.getElem?_take, List.getElem?_map]
  split
  · next hi =>
    have hbound : position % 16 + i < 16 * ((position % 16 + count + 15) / 16) := by omega
    have hblock : position / 16 + (position % 16 + i) / 16 = (position + i) / 16 := by omega
    have hword : (position % 16 + i) % 16 = (position + i) % 16 := by omega
    rw [List.getElem?_drop, getElem?_flatMap_range (fun _ => Vector.length_toList) _ hbound,
      List.getElem?_range hi, hblock, hword, Option.map_some, word, State.word]
    have hlt : (position + i) % 16 < 16 := Nat.mod_lt _ (by decide)
    simp [Vector.getD, hlt]
  · next hi =>
    rw [List.getElem?_eq_none (by simpa using hi)]
    rfl

end Cipher.ChaCha

namespace RandomSource

/-- One byte of the source's key stream, of which every word is four bytes. -/
def byte (r : RandomSource) (i : Nat) : UInt8 :=
  (Bytes.ofNatLE 4 (Cipher.ChaCha.word r.seed (i / 4)).toNat).getD (i % 4) 0

/-- What is served is the segment of the key stream behind the words that have been used. -/
theorem bytes_eq (r : RandomSource) (length : Nat) :
    (r.bytes length).1 = (List.range length).map fun i => r.byte (4 * r.position + i) := by
  refine List.ext_getElem? fun i => ?_
  rw [bytes, List.getElem?_take, List.getElem?_map]
  split
  · next hi =>
    have hbound : i < 4 * wordsFor length := by
      rw [wordsFor]
      omega
    have hword : (4 * r.position + i) / 4 = r.position + i / 4 := by omega
    have hbyte : (4 * r.position + i) % 4 = i % 4 := by omega
    rw [Cipher.bytesLE, Cipher.ChaCha.words_eq, List.flatMap_map,
      getElem?_flatMap_range (fun _ => Bytes.length_ofNatLE _ _) _ hbound, List.getElem?_range hi,
      Option.map_some, byte, hword, hbyte]
    have hlt : i % 4 < (Bytes.ofNatLE 4
        (Cipher.ChaCha.word r.seed (r.position + i / 4)).toNat).length := by
      rw [Bytes.length_ofNatLE]
      exact Nat.mod_lt _ (by decide)
    rw [List.getD_eq_getElem?_getD, List.getElem?_eq_getElem hlt]
    rfl
  · next hi =>
    rw [List.getElem?_eq_none (by simpa using hi)]
    rfl

end RandomSource

-- ----------------------------------------------------------------------------
-- Springs
-- ----------------------------------------------------------------------------

/-- Where random bytes come from. -/
inductive Spring where
  /-- The operating system's entropy. -/
  | system
  /-- The key stream of a random source. -/
  | own (number : Nat)
  deriving DecidableEq, Repr

/-- Bytes of a spring, from one of its bytes on. -/
structure Draw where
  spring : Spring
  start : Nat
  bytes : Bytes
  deriving DecidableEq

namespace Draw

def stop (d : Draw) : Nat := d.start + d.bytes.length

/-- Two draws have no byte of a spring in common. -/
def Apart (d d' : Draw) : Prop := d.spring = d'.spring → d.stop ≤ d'.start ∨ d'.stop ≤ d.start

end Draw

/-- All that random bytes are drawn from. -/
structure Supply where
  entropy : Entropy
  randoms : Array RandomSource

namespace Supply

/-- A byte of a spring. -/
def byte (s : Supply) : Spring → Nat → UInt8
  | .system, i => s.entropy.byte i
  | .own number, i => s.randoms[number]?.elim 0 (·.byte i)

/-- How many bytes of a spring have been used. A source uses whole words. -/
def used (s : Supply) : Spring → Nat
  | .system => s.entropy.position
  | .own number => s.randoms[number]?.elim 0 (4 * ·.position)

/-- A draw is a segment of its spring, and lies in what has been used. -/
structure Served (s : Supply) (d : Draw) : Prop where
  bytes : d.bytes = (List.range d.bytes.length).map fun i => s.byte d.spring (d.start + i)
  used : d.stop ≤ s.used d.spring

/-- One draw. What seeds a source is drawn from the entropy. -/
inductive Serves : Supply → Draw → Supply → Prop
  | system (s : Supply) (length : Nat) :
      Serves s ⟨.system, s.entropy.position, (s.entropy.draw length).1⟩
        { s with entropy := (s.entropy.draw length).2 }
  | own {s : Supply} {number : Nat} {r : RandomSource} (length : Nat) :
      s.randoms[number]? = some r →
      Serves s ⟨.own number, 4 * r.position, (r.bytes length).1⟩
        { s with randoms := s.randoms.setIfInBounds number (r.bytes length).2 }
  | seed (s : Supply) :
      Serves s ⟨.system, s.entropy.position, (RandomSource.create s.entropy).1.seed⟩
        ⟨(RandomSource.create s.entropy).2, s.randoms.push (RandomSource.create s.entropy).1⟩

/-- The draws of a log, one after the other. -/
inductive Draws : Supply → List Draw → Supply → Prop
  | nil (s : Supply) : Draws s [] s
  | cons {s s' s'' : Supply} {d : Draw} {log : List Draw} :
      Serves s d s' → Draws s' log s'' → Draws s (d :: log) s''

/-- The springs of one supply have come further in another one, and are the same as far as they had
been used. -/
structure Grown (s s' : Supply) : Prop where
  used : ∀ spring, s.used spring ≤ s'.used spring
  byte : ∀ spring, ∀ i < s.used spring, s'.byte spring i = s.byte spring i

variable {s s' s'' : Supply} {d : Draw} {log log' : List Draw}

theorem Grown.refl (s : Supply) : s.Grown s := ⟨fun _ => Nat.le_refl _, fun _ _ _ => rfl⟩

theorem Grown.trans (h : s.Grown s') (h' : s'.Grown s'') : s.Grown s'' where
  used spring := Nat.le_trans (h.used spring) (h'.used spring)
  byte spring i hi :=
    (h'.byte spring i (Nat.lt_of_lt_of_le hi (h.used spring))).trans (h.byte spring i hi)

theorem Served.grown (hd : s.Served d) (h : s.Grown s') : s'.Served d where
  bytes := by
    refine hd.bytes.trans (List.map_congr_left fun i hi => (h.byte _ _ ?_).symm)
    have hlt := List.mem_range.mp hi
    have hused := hd.used
    rw [Draw.stop] at hused
    omega
  used := Nat.le_trans hd.used (h.used _)

-- ----------------------------------------------------------------------------
-- One draw
-- ----------------------------------------------------------------------------

theorem Serves.start (h : s.Serves d s') : d.start = s.used d.spring := by
  cases h with
  | system => rfl
  | own length hr => simp [used, hr]
  | seed => rfl

theorem Serves.grown (h : s.Serves d s') : s.Grown s' := by
  cases h with
  | system length =>
    refine ⟨fun spring => ?_, fun spring i _ => ?_⟩
    · cases spring with
      | system => exact Nat.le_add_right _ _
      | own number => exact Nat.le_refl _
    · cases spring <;> rfl
  | @own number r length hr =>
    obtain ⟨hsize, rfl⟩ := Array.getElem?_eq_some_iff.mp hr
    refine ⟨fun spring => ?_, fun spring i _ => ?_⟩
    · cases spring with
      | system => exact Nat.le_refl _
      | own other =>
        by_cases hother : number = other
        · subst hother
          simp [used, hsize, RandomSource.bytes]
        · simp [used, Array.getElem?_setIfInBounds_ne hother]
    · cases spring with
      | system => rfl
      | own other =>
        by_cases hother : number = other
        · subst hother
          simp [byte, hsize, RandomSource.bytes, RandomSource.byte]
        · simp [byte, Array.getElem?_setIfInBounds_ne hother]
  | seed =>
    refine ⟨fun spring => ?_, fun spring i hi => ?_⟩
    · cases spring with
      | system => exact Nat.le_add_right _ _
      | own number =>
        cases hr : s.randoms[number]? with
        | none => simp [used, hr]
        | some r =>
          have hne : number ≠ s.randoms.size := Nat.ne_of_lt (Array.getElem?_eq_some_iff.mp hr).1
          simp [used, hr, Array.getElem?_push, hne]
    · cases spring with
      | system => rfl
      | own number =>
        cases hr : s.randoms[number]? with
        | none => simp [used, hr] at hi
        | some r =>
          have hne : number ≠ s.randoms.size := Nat.ne_of_lt (Array.getElem?_eq_some_iff.mp hr).1
          simp [byte, hr, Array.getElem?_push, hne]

theorem Serves.served (h : s.Serves d s') : s'.Served d := by
  cases h with
  | system length =>
    refine ⟨?_, ?_⟩
    · simp only [Entropy.length_draw]
      rfl
    · simp only [Draw.stop, Entropy.length_draw]
      exact Nat.le_refl _
  | @own number r length hr =>
    have hsize := (Array.getElem?_eq_some_iff.mp hr).1
    refine ⟨?_, ?_⟩
    · simp only [RandomSource.bytes_eq]
      simp [byte, hsize, RandomSource.bytes, RandomSource.byte]
    · simp only [Draw.stop, RandomSource.length_bytes]
      simp [used, hsize, RandomSource.bytes, RandomSource.wordsFor]
      omega
  | seed =>
    have hlength : (RandomSource.create s.entropy).1.seed.length = RandomSource.seedSize :=
      s.entropy.length_draw _
    refine ⟨?_, ?_⟩
    · simp only [hlength]
      rfl
    · simp only [Draw.stop, hlength]
      exact Nat.le_refl _

-- ----------------------------------------------------------------------------
-- Many draws
-- ----------------------------------------------------------------------------

theorem Draws.one (h : s.Serves d s') : s.Draws [d] s' := .cons h (.nil s')

theorem Draws.append (h : s.Draws log s') (h' : s'.Draws log' s'') : s.Draws (log ++ log') s'' := by
  induction h with
  | nil s => exact h'
  | cons hserves _ ih => exact .cons hserves (ih h')

theorem Draws.grown (h : s.Draws log s') : s.Grown s' := by
  induction h with
  | nil s => exact .refl s
  | cons hserves _ ih => exact hserves.grown.trans ih

theorem Draws.served (h : s.Draws log s') : ∀ d ∈ log, s'.Served d := by
  induction h with
  | nil s => exact nofun
  | cons hserves hrest ih =>
    exact List.forall_mem_cons.mpr ⟨hserves.served.grown hrest.grown, ih⟩

/-- A draw begins where its spring has not been used. -/
theorem Draws.unused (h : s.Draws log s') : ∀ d ∈ log, s.used d.spring ≤ d.start := by
  induction h with
  | nil s => exact nofun
  | cons hserves _ ih =>
    refine List.forall_mem_cons.mpr ⟨Nat.le_of_eq hserves.start.symm, fun d hd => ?_⟩
    exact Nat.le_trans (hserves.grown.used d.spring) (ih d hd)

theorem Draws.apart (h : s.Draws log s') : log.Pairwise Draw.Apart := by
  induction h with
  | nil s => exact .nil
  | @cons _ s' _ d log hserves hrest ih =>
    refine .cons (fun d' hd' hspring => .inl ?_) ih
    calc d.stop ≤ s'.used d.spring := hserves.served.used
      _ = s'.used d'.spring := by rw [hspring]
      _ ≤ d'.start := hrest.unused d' hd'

end Supply

end SealedStream
