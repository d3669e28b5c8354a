import SealedStream.Action
import SealedStream.Text.Base64
import SealedStream.Text.Blank

/-!
# Base64 reads back what it writes, and nothing else

Every byte that `encodeBytes` writes is a symbol or an equals sign, so the text
has no blank to lose. All but the last group of four symbols is read by
`values`, the last one by `decodeLast`. What either of them reads is what the
bytes that it gives are written as, so each text stands for bytes in one form.
-/

namespace SealedStream.Text.Base64

theorem valueOf?_symbolOf {value : Nat} (h : value < 64) :
    valueOf? (symbolOf value) = some value := by
  revert value
  decide

theorem symbolOf_ne_pad {value : Nat} (h : value < 64) : symbolOf value ≠ pad := by
  revert value
  decide

-- ----------------------------------------------------------------------------
-- Groups
-- ----------------------------------------------------------------------------

theorem byte_lt (b : UInt8) : b.toNat < 256 := UInt8.toNat_lt_size b

/-- A byte is the lowest digit of a number. -/
theorem ofNat_add_toNat (n : Nat) (b : UInt8) : UInt8.ofNat (n * 256 + b.toNat) = b := by
  apply UInt8.toNat_inj.mp
  rw [UInt8.toNat_ofNat']
  have := byte_lt b
  omega

theorem bytesOfGroup_digits (a b c : UInt8) :
    let n := (a.toNat * 256 + b.toNat) * 256 + c.toNat
    bytesOfGroup (n / 262144) (n / 4096 % 64) (n / 64 % 64) (n % 64) = [a, b, c] := by
  intro n
  have ha := byte_lt a
  have hb := byte_lt b
  have hc := byte_lt c
  have hjoin : ((n / 262144 * 64 + n / 4096 % 64) * 64 + n / 64 % 64) * 64 + n % 64 = n := by omega
  have hhigh : n / 65536 = 0 * 256 + a.toNat := by omega
  have hmid : n / 256 = a.toNat * 256 + b.toNat := by omega
  simp only [bytesOfGroup, hjoin, hhigh, hmid, ofNat_add_toNat]
  exact congrArg _ (congrArg _ (congrArg (· :: []) (ofNat_add_toNat _ c)))

variable {start place pads : Nat} {digits : List Nat}

theorem readLast_pads (first : Option Nat) (h : 2 ≤ place) :
    readLast start place first (List.replicate pads pad) = .ok ⟨[], pads⟩ := by
  induction pads generalizing place first with
  | zero => rfl
  | succ pads ih =>
    have hplace : ¬ place < 2 := by omega
    unfold readLast
    simp only [List.replicate_succ, if_true, hplace, if_false, ih _ (Nat.le_succ_of_le h)]
    rfl

theorem readLast_symbols (h : ∀ v ∈ digits, v < 64) (hp : pads = 0 ∨ 2 ≤ place + digits.length) :
    readLast start place none (digits.map symbolOf ++ List.replicate pads pad) =
      .ok ⟨digits, pads⟩ := by
  induction digits generalizing place with
  | nil =>
    obtain rfl | hp := hp
    · rfl
    · exact readLast_pads none hp
  | cons v digits ih =>
    have hv : v < 64 := h v List.mem_cons_self
    have hrest : readLast start (place + 1) none _ = _ :=
      ih (fun w hw => h w (List.mem_cons_of_mem v hw))
        (by simp only [List.length_cons] at hp; omega)
    rw [List.map_cons, List.cons_append, readLast, if_neg (symbolOf_ne_pad hv)]
    simp only [valueOf?_symbolOf hv, hrest]
    rfl

theorem decodeLast_symbols (h : ∀ v ∈ digits, v < 64) (hd : 2 ≤ digits.length)
    (hp : digits.length + pads = 4) (hextra : (bytesOfLast digits).2 = 0) :
    decodeLast start (digits.map symbolOf ++ List.replicate pads pad) =
      .ok (bytesOfLast digits).1 := by
  rw [decodeLast, readLast_symbols h (.inr (by omega))]
  simp [bind, Except.bind, pure, Except.pure, hp, hextra, Nat.not_lt.mpr hd]

theorem values_symbols (h : ∀ v ∈ digits, v < 64) (offset : Nat) :
    values offset (digits.map symbolOf) = .ok digits := by
  induction digits generalizing offset with
  | nil => rfl
  | cons v digits ih =>
    rw [List.map_cons, values, valueOf?_symbolOf (h v List.mem_cons_self)]
    simp only [ih fun w hw => h w (List.mem_cons_of_mem v hw)]
    rfl

-- ----------------------------------------------------------------------------
-- Texts
-- ----------------------------------------------------------------------------

/-- A written text in the parts that are read one by one: all groups but the last, and the last. -/
structure Parts (bytes : Bytes) where
  front : List Nat
  last : List Nat
  pads : Nat
  front_lt : ∀ v ∈ front, v < 64
  last_lt : ∀ v ∈ last, v < 64
  two_le : 2 ≤ last.length
  length_last : last.length + pads = 4
  four_dvd : 4 ∣ front.length
  encodeBytes_eq : encodeBytes bytes =
    front.map symbolOf ++ (last.map symbolOf ++ List.replicate pads pad)
  extra : (bytesOfLast last).2 = 0
  bytes_eq : bytesOfValues front ++ (bytesOfLast last).1 = bytes

theorem exists_parts {bytes : Bytes} (h : bytes ≠ []) : Nonempty (Parts bytes) := by
  fun_induction encodeBytes bytes with
  | case1 => exact absurd rfl h
  | case2 a n =>
    have ha := byte_lt a
    have hjoin : (n / 64 * 64 + n % 64) / 16 = a.toNat := by omega
    exact ⟨{
      front := [], last := [n / 64, n % 64], pads := 2
      front_lt := by simp
      last_lt := by simp; omega
      two_le := by simp
      length_last := by simp
      four_dvd := by simp
      encodeBytes_eq := rfl
      extra := by simp only [bytesOfLast]; omega
      bytes_eq := by simp [bytesOfLast, bytesOfValues, hjoin] }⟩
  | case3 a b n =>
    have ha := byte_lt a
    have hb := byte_lt b
    have hjoin : (n / 4096 * 64 + n / 64 % 64) * 64 + n % 64 = n := by omega
    have hhigh : n / 1024 = a.toNat := by omega
    have hlow : n / 4 = a.toNat * 256 + b.toNat := by omega
    exact ⟨{
      front := [], last := [n / 4096, n / 64 % 64, n % 64], pads := 1
      front_lt := by simp
      last_lt := by simp; omega
      two_le := by simp
      length_last := by simp
      four_dvd := by simp
      encodeBytes_eq := rfl
      extra := by simp only [bytesOfLast]; omega
      bytes_eq := by
        simp [bytesOfLast, bytesOfValues, hjoin, hhigh, hlow, -UInt8.ofNat_add, ofNat_add_toNat] }⟩
  | case4 a b c rest n ih =>
    have ha := byte_lt a
    have hb := byte_lt b
    have hc := byte_lt c
    have hgroup : bytesOfGroup (n / 262144) (n / 4096 % 64) (n / 64 % 64) (n % 64) = [a, b, c] :=
      bytesOfGroup_digits a b c
    have hlt : ∀ v ∈ [n / 262144, n / 4096 % 64, n / 64 % 64, n % 64], v < 64 := by
      simp
      omega
    by_cases hrest : rest = []
    · subst hrest
      exact ⟨{
        front := [], last := [n / 262144, n / 4096 % 64, n / 64 % 64, n % 64], pads := 0
        front_lt := by simp
        last_lt := hlt
        two_le := by simp
        length_last := by simp
        four_dvd := by simp
        encodeBytes_eq := rfl
        extra := rfl
        bytes_eq := hgroup }⟩
    · obtain ⟨parts⟩ := ih hrest
      exact ⟨{ parts with
        front := [n / 262144, n / 4096 % 64, n / 64 % 64, n % 64] ++ parts.front
        front_lt := fun v hv => (List.mem_append.mp hv).elim (hlt v) (parts.front_lt v)
        four_dvd := by
          have := parts.four_dvd
          simp only [List.length_append, List.length_cons, List.length_nil]
          omega
        encodeBytes_eq := by
          rw [encodeBytes, parts.encodeBytes_eq]
          rfl
        bytes_eq := by
          rw [List.cons_append, List.cons_append, List.cons_append, List.cons_append,
            List.nil_append, bytesOfValues, hgroup, List.append_assoc, parts.bytes_eq]
          rfl }⟩

theorem decodeBytes_encodeBytes (bytes : Bytes) : decodeBytes (encodeBytes bytes) = .ok bytes := by
  by_cases h : bytes = []
  · subst h
    rfl
  · obtain ⟨parts⟩ := exists_parts h
    have hfour := parts.four_dvd
    have hlast := parts.length_last
    have hlength : (encodeBytes bytes).length = parts.front.length + 4 := by
      simp [parts.encodeBytes_eq, hlast]
    have hstart : ((encodeBytes bytes).length - 1) / 4 * 4 = parts.front.length := by omega
    have hstray : strayLast (encodeBytes bytes) = none := by
      rw [strayLast]
      split
      · rfl
      · rw [if_neg]
        omega
    have hempty : (encodeBytes bytes).isEmpty = false := by
      rw [List.isEmpty_eq_false_iff, ← List.length_pos_iff]
      omega
    have htake : (encodeBytes bytes).take parts.front.length = parts.front.map symbolOf := by
      rw [parts.encodeBytes_eq, List.take_left' (List.length_map ..)]
    have hdrop : (encodeBytes bytes).drop parts.front.length =
        parts.last.map symbolOf ++ List.replicate parts.pads pad := by
      rw [parts.encodeBytes_eq, List.drop_left' (List.length_map ..)]
    simp [decodeBytes, hempty, hstray, hstart, htake, hdrop, values_symbols parts.front_lt,
      decodeLast_symbols parts.last_lt parts.two_le hlast parts.extra, bind, Except.bind, pure,
      Except.pure, parts.bytes_eq]

/-- Every written byte is a symbol or an equals sign. -/
theorem mem_encodeBytes {bytes : Bytes} {b : UInt8} (h : b ∈ encodeBytes bytes) :
    b = pad ∨ ∃ v < 64, b = symbolOf v := by
  by_cases hb : bytes = []
  · subst hb
    simp [encodeBytes] at h
  · obtain ⟨parts⟩ := exists_parts hb
    rw [parts.encodeBytes_eq] at h
    simp only [List.mem_append, List.mem_map] at h
    rcases h with ⟨v, hv, rfl⟩ | ⟨v, hv, rfl⟩ | hpad
    · exact .inr ⟨v, parts.front_lt v hv, rfl⟩
    · exact .inr ⟨v, parts.last_lt v hv, rfl⟩
    · exact .inl (List.eq_of_mem_replicate hpad)

theorem plain_encodeBytes {bytes : Bytes} {b : UInt8} (h : b ∈ encodeBytes bytes) :
    b < 128 ∧ isBlank (Char.ofNat b.toNat) = false := by
  rcases mem_encodeBytes h with rfl | ⟨v, hv, rfl⟩
  · decide
  · clear h
    revert v
    decide

-- ----------------------------------------------------------------------------
-- Nothing else is read
-- ----------------------------------------------------------------------------

theorem symbolOf_of_valueOf? {b : UInt8} {v : Nat} (h : valueOf? b = some v) :
    v < 64 ∧ symbolOf v = b := by
  have hall : ∀ n < 256, ∀ v ∈ valueOf? (UInt8.ofNat n), v < 64 ∧ symbolOf v = UInt8.ofNat n := by
    decide +kernel
  have hb := hall b.toNat (byte_lt b) v
  rw [UInt8.ofNat_toNat] at hb
  exact hb h

theorem values_ok {offset : Nat} {bytes : Bytes} {digits : List Nat}
    (h : values offset bytes = .ok digits) :
    (∀ v ∈ digits, v < 64) ∧ bytes = digits.map symbolOf := by
  induction bytes generalizing offset digits with
  | nil =>
    cases h
    exact ⟨List.forall_mem_nil _, rfl⟩
  | cons b rest ih =>
    rw [values] at h
    cases hv : valueOf? b with
    | none =>
      rw [hv] at h
      cases h
    | some v =>
      rw [hv] at h
      obtain ⟨others, hothers, rfl⟩ := map_eq_ok.mp h
      obtain ⟨hlt, rfl⟩ := ih hothers
      obtain ⟨hv64, rfl⟩ := symbolOf_of_valueOf? hv
      exact ⟨List.forall_mem_cons.mpr ⟨hv64, hlt⟩, rfl⟩

/-- Behind an equals sign there are only equals signs. -/
theorem readLast_ok {start place : Nat} {first : Option Nat} {bytes : Bytes} {g : LastGroup}
    (h : readLast start place first bytes = .ok g) :
    (∀ v ∈ g.values, v < 64) ∧ bytes = g.values.map symbolOf ++ List.replicate g.pads pad ∧
      (first.isSome → g.values = []) := by
  induction bytes generalizing place first g with
  | nil =>
    cases h
    exact ⟨List.forall_mem_nil _, rfl, fun _ => rfl⟩
  | cons b rest ih =>
    unfold readLast at h
    split at h
    · next hpad =>
      split at h
      · cases h
      · obtain ⟨g', hrest, rfl⟩ := map_eq_ok.mp h
        obtain ⟨hlt, hbytes, hnone⟩ := ih hrest
        have hvalues : g'.values = [] := hnone rfl
        refine ⟨hlt, ?_, fun _ => hvalues⟩
        rw [hbytes, hvalues, hpad]
        rfl
    · cases first with
      | some first => cases h
      | none =>
        cases hv : valueOf? b with
        | none =>
          simp only [hv] at h
          cases h
        | some v =>
          simp only [hv] at h
          obtain ⟨g', hrest, rfl⟩ := map_eq_ok.mp h
          obtain ⟨hlt, hbytes, -⟩ := ih hrest
          obtain ⟨hv64, rfl⟩ := symbolOf_of_valueOf? hv
          refine ⟨List.forall_mem_cons.mpr ⟨hv64, hlt⟩, ?_, by rintro ⟨⟩⟩
          rw [hbytes]
          rfl

theorem decodeLast_ok {start : Nat} {bytes decoded : Bytes}
    (h : decodeLast start bytes = .ok decoded) :
    ∃ digits pads, (∀ v ∈ digits, v < 64) ∧ 2 ≤ digits.length ∧ (digits.length + pads) % 4 = 0 ∧
      bytes = digits.map symbolOf ++ List.replicate pads pad ∧
      bytesOfLast digits = (decoded, 0) := by
  unfold decodeLast at h
  obtain ⟨g, hread, h⟩ := bind_eq_ok.mp h
  obtain ⟨hlt, hbytes, -⟩ := readLast_ok hread
  obtain ⟨hlength, h⟩ := check_ok.mp h
  obtain ⟨hpads, h⟩ := check_ok.mp h
  obtain ⟨hextra, h⟩ := check_ok.mp h
  refine ⟨g.values, g.pads, hlt, Nat.le_of_not_lt hlength, Decidable.not_not.mp hpads, hbytes, ?_⟩
  exact Prod.ext (Except.ok.inj h) (Decidable.not_not.mp hextra)

theorem encodeBytes_bytesOfGroup {a b c d : Nat} (ha : a < 64) (hb : b < 64) (hc : c < 64)
    (hd : d < 64) (rest : Bytes) :
    encodeBytes (bytesOfGroup a b c d ++ rest) =
      symbolOf a :: symbolOf b :: symbolOf c :: symbolOf d :: encodeBytes rest := by
  let n := ((a * 64 + b) * 64 + c) * 64 + d
  have hjoin : (n / 65536 % 256 * 256 + n / 256 % 256) * 256 + n % 256 = n := by omega
  have ha : n / 262144 = a := by omega
  have hb : n / 4096 % 64 = b := by omega
  have hc : n / 64 % 64 = c := by omega
  have hd : n % 64 = d := by omega
  show encodeBytes (UInt8.ofNat (n / 65536) :: UInt8.ofNat (n / 256) :: UInt8.ofNat n :: rest) = _
  simp only [encodeBytes, UInt8.toNat_ofNat', Nat.reducePow, hjoin, ha, hb, hc, hd]

/-- Whole groups are written as they were read. -/
theorem encodeBytes_bytesOfValues {groups : List Nat} (h : ∀ v ∈ groups, v < 64)
    (hfour : 4 ∣ groups.length) (rest : Bytes) :
    encodeBytes (bytesOfValues groups ++ rest) = groups.map symbolOf ++ encodeBytes rest := by
  fun_induction bytesOfValues groups with
  | case1 a b c d groups ih =>
    simp only [List.forall_mem_cons] at h
    obtain ⟨ha, hb, hc, hd, hgroups⟩ := h
    have hrest : 4 ∣ groups.length := by
      simp only [List.length_cons] at hfour
      omega
    rw [List.append_assoc, encodeBytes_bytesOfGroup ha hb hc hd, ih hgroups hrest]
    rfl
  | case2 groups hshort =>
    match groups with
    | [] => rfl
    | [_] | [_, _] | [_, _, _] => exact absurd hfour (by simp)
    | a :: b :: c :: d :: groups => exact absurd rfl (hshort a b c d groups)

theorem encodeBytes_bytesOfLast {digits : List Nat} {pads : Nat} {decoded : Bytes}
    (h : ∀ v ∈ digits, v < 64) (hd : 2 ≤ digits.length) (hp : digits.length + pads = 4)
    (hlast : bytesOfLast digits = (decoded, 0)) :
    encodeBytes decoded = digits.map symbolOf ++ List.replicate pads pad := by
  match digits with
  | [] | [_] => exact absurd hd (by simp)
  | [a, b] =>
    obtain ⟨rfl, hextra⟩ := Prod.mk.inj hlast
    simp only [List.mem_cons, List.not_mem_nil, or_false, forall_eq_or_imp, forall_eq] at h
    obtain rfl : pads = 2 := Nat.add_left_cancel hp
    have hjoin : (a * 64 + b) / 16 % 256 * 16 = a * 64 + b := by omega
    have ha : (a * 64 + b) / 64 = a := by omega
    have hb : (a * 64 + b) % 64 = b := by omega
    simp only [encodeBytes, UInt8.toNat_ofNat', Nat.reducePow, hjoin, ha, hb]
    rfl
  | [a, b, c] =>
    obtain ⟨rfl, hextra⟩ := Prod.mk.inj hlast
    simp only [List.mem_cons, List.not_mem_nil, or_false, forall_eq_or_imp, forall_eq] at h
    obtain rfl : pads = 1 := Nat.add_left_cancel hp
    let n := (a * 64 + b) * 64 + c
    have hjoin : (n / 1024 % 256 * 256 + n / 4 % 256) * 4 = n := by omega
    have ha : n / 4096 = a := by omega
    have hb : n / 64 % 64 = b := by omega
    have hc : n % 64 = c := by omega
    show encodeBytes [UInt8.ofNat (n / 1024), UInt8.ofNat (n / 4)] = _
    simp only [encodeBytes, UInt8.toNat_ofNat', Nat.reducePow, hjoin, ha, hb, hc]
    rfl
  | [a, b, c, d] =>
    obtain ⟨rfl, -⟩ := Prod.mk.inj hlast
    simp only [List.mem_cons, List.not_mem_nil, or_false, forall_eq_or_imp, forall_eq] at h
    obtain rfl : pads = 0 := Nat.add_left_cancel hp
    obtain ⟨ha, hb, hc, hd⟩ := h
    have hgroup := encodeBytes_bytesOfGroup ha hb hc hd []
    rwa [List.append_nil] at hgroup
  | _ :: _ :: _ :: _ :: _ :: _ =>
    simp only [List.length_cons] at hp
    omega

theorem decodeBytes_eq_ok_iff {bytes decoded : Bytes} :
    decodeBytes bytes = .ok decoded ↔ bytes = encodeBytes decoded := by
  constructor
  · intro h
    rw [decodeBytes] at h
    split at h
    · next hempty =>
      cases h
      exact List.isEmpty_iff.mp hempty
    · next hempty =>
      split at h
      · cases h
      · obtain ⟨groups, hgroups, h⟩ := bind_eq_ok.mp h
        obtain ⟨last, hlast, h⟩ := bind_eq_ok.mp h
        generalize hstart : (bytes.length - 1) / 4 * 4 = start at hgroups hlast
        have hpos : 0 < bytes.length :=
          List.length_pos_iff.mpr fun hnil => hempty (List.isEmpty_iff.mpr hnil)
        obtain ⟨hlt, htake⟩ := values_ok hgroups
        obtain ⟨digits, pads, hdigits, htwo, hfour, hdrop, hdecoded⟩ := decodeLast_ok hlast
        have hfront : groups.length = start := by
          rw [← List.length_map (f := symbolOf), ← htake, List.length_take]
          omega
        have hback : digits.length + pads = bytes.length - start := by
          rw [← List.length_drop, hdrop, List.length_append, List.length_map, List.length_replicate]
        have hwhole : 4 ∣ groups.length := by omega
        have hsymbols : digits.length + pads = 4 := by omega
        cases h
        rw [encodeBytes_bytesOfValues hlt hwhole,
          encodeBytes_bytesOfLast hdigits htwo hsymbols hdecoded, ← htake, ← hdrop,
          List.take_append_drop]
  · rintro rfl
    exact decodeBytes_encodeBytes decoded

end SealedStream.Text.Base64

namespace SealedStream.Bytes

theorem ofString_ofList_of_ascii {bytes : Bytes} (h : ∀ b ∈ bytes, b < 128) :
    ofString (String.ofList (bytes.map fun b => Char.ofNat b.toNat)) = bytes := by
  have hascii : ∀ n < 128, String.utf8EncodeChar (Char.ofNat n) = [UInt8.ofNat n] := by decide
  have hchar (b : UInt8) (hb : b < 128) : String.utf8EncodeChar (Char.ofNat b.toNat) = [b] := by
    rw [hascii b.toNat hb, UInt8.ofNat_toNat]
  have hchars : (bytes.map fun b => Char.ofNat b.toNat).flatMap String.utf8EncodeChar = bytes := by
    induction bytes with
    | nil => rfl
    | cons b bytes ih =>
      rw [List.map_cons, List.flatMap_cons, hchar b (h b List.mem_cons_self),
        ih fun c hc => h c (List.mem_cons_of_mem b hc)]
      rfl
  simp [ofString, List.utf8Encode, hchars]

theorem ofString_inj {text other : String} (h : ofString text = ofString other) : text = other := by
  have htext := toString?_ofString text
  rw [h, toString?_ofString] at htext
  exact (Option.some.inj htext).symm

end SealedStream.Bytes

namespace SealedStream.Text.Base64

theorem decode_encode (bytes : Bytes) : decode (encode bytes) = .ok bytes := by
  rw [decode, encode, Bytes.ofString_ofList_of_ascii fun b hb => (plain_encodeBytes hb).1,
    decodeBytes_encodeBytes]

/-- The texts that are read are those that are written. -/
theorem decode_eq_ok_iff {text : String} {bytes : Bytes} :
    decode text = .ok bytes ↔ text = encode bytes := by
  constructor
  · intro h
    refine Bytes.ofString_inj ?_
    rw [decodeBytes_eq_ok_iff.mp h, encode,
      Bytes.ofString_ofList_of_ascii fun b hb => (plain_encodeBytes hb).1]
  · rintro rfl
    exact decode_encode bytes

theorem withoutBlanks_encode (bytes : Bytes) : withoutBlanks (encode bytes) = encode bytes := by
  rw [withoutBlanks, encode, String.toList_ofList, List.filter_eq_self.mpr]
  intro c hc
  obtain ⟨b, hb, rfl⟩ := List.mem_map.mp hc
  rw [(plain_encodeBytes hb).2]
  rfl

end SealedStream.Text.Base64
