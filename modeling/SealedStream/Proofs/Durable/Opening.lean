import SealedStream.Proofs.Durable.VaultCalls

/-!
# Documents that cannot be opened

A document that is opened as a vault has been written by anybody. Most of what can be wrong with
it is reported. What is not is a time of a key pair that the clock cannot show: `Record.Late`
says of which records that is all that is wrong, and `opening_aborts_iff` that the process ends
where such a record is the first visited that no entry can be made of.
-/

namespace SealedStream

theorem Files.found?_of_read {files : Files} {path : Path} {document : Bytes}
    (h : (read path files).1 = .ok document) : files.found? path = some (.ok document) := by
  cases hfound : files.found? path with
  | some answer =>
    rw [read_apply hfound] at h
    have hmet : files.met answer = .ok document := h
    obtain hanswer | ⟨e, he⟩ := files.met_end answer
    · rw [← hanswer, hmet]
    · rw [he] at hmet
      cases hmet
  | none =>
    rw [found?, Option.map_eq_none_iff] at hfound
    have hcontent : ∀ rest : Files, rest.stat path = files.stat path →
        rest.content? path ≠ .ok document := by
      intro rest hrest hok
      obtain ⟨node, hnode, -⟩ := bind_eq_ok.mp hok
      rw [← hrest, hnode] at hfound
      cases hfound
    rw [read, callOrNothing, call] at h
    split at h
    · cases h
    · exact absurd h (hcontent _ rfl)

theorem Time.ofEpochSeconds?_eq_none {seconds : Nat} :
    ofEpochSeconds? seconds = none ↔ 2 ^ 63 ≤ seconds := by
  have hmin : Int64.minValue.toInt = -2 ^ 63 := by decide
  have hmax : Int64.maxValue.toInt = 2 ^ 63 - 1 := by decide
  rw [ofEpochSeconds?_eq]
  split
  · next hrange =>
    rw [InRange, seconds_of, hmin, hmax] at hrange
    simp only [reduceCtorEq, false_iff]
    omega
  · next hrange =>
    rw [InRange, seconds_of, hmin, hmax] at hrange
    simp only [true_iff]
    omega

theorem SecretKey.bytes_of_ofBytes? {bytes : Bytes} {secret : SecretKey}
    (h : ofBytes? bytes = some secret) : secret.bytes = bytes := by
  rw [ofBytes?] at h
  split at h
  · cases h
    rfl
  · cases h

namespace Vault

-- ----------------------------------------------------------------------------
-- Records
-- ----------------------------------------------------------------------------

namespace Record

/-- A key pair with nothing wrong but a time past the range of the clock. -/
def Late : Record → Prop
  | symmetric _ => False
  | keyPair encoded _ notBefore notAfter =>
    (∃ secret : SecretKey, Text.Base64.decode encoded = .ok secret.bytes) ∧
      (2 ^ 63 ≤ notBefore ∨ 2 ^ 63 ≤ notAfter)

variable {keyName : String} {why : Abort}

theorem timeOf_aborts {seconds : Nat} :
    timeOf seconds = .error (.abort why) ↔ why = .timeOverflow ∧ 2 ^ 63 ≤ seconds := by
  rw [timeOf_eq, ← Time.ofEpochSeconds?_eq_none]
  cases h : Time.ofEpochSeconds? seconds with
  | none => simp [h, eq_comm]
  | some t => simp [h]

theorem times_abort {notBefore notAfter : Nat} {f : Time → Time → VaultEntry} :
    (do
      let before ← timeOf notBefore
      let after ← timeOf notAfter
      return f before after : Except (Failure VaultDefect) VaultEntry) = .error (.abort why) ↔
      why = .timeOverflow ∧ (2 ^ 63 ≤ notBefore ∨ 2 ^ 63 ≤ notAfter) := by
  have hafter (before : Time) : (do
      let after ← timeOf notAfter
      return f before after : Except (Failure VaultDefect) VaultEntry) = .error (.abort why) ↔
        why = .timeOverflow ∧ 2 ^ 63 ≤ notAfter := by
    rw [bind_eq_error, timeOf_aborts]
    exact or_iff_left fun ⟨_, _, h⟩ => nomatch h
  simp only [bind_eq_error (x := timeOf notBefore), timeOf_aborts, hafter, timeOf_ok]
  constructor
  · rintro (⟨hwhy, h⟩ | ⟨_, -, hwhy, h⟩)
    · exact ⟨hwhy, .inl h⟩
    · exact ⟨hwhy, .inr h⟩
  · rintro ⟨hwhy, h⟩
    cases hbefore : Time.ofEpochSeconds? notBefore with
    | none => exact .inl ⟨hwhy, Time.ofEpochSeconds?_eq_none.mp hbefore⟩
    | some before =>
      refine .inr ⟨before, rfl, hwhy, h.resolve_left fun hlate => ?_⟩
      rw [Time.ofEpochSeconds?_eq_none.mpr hlate] at hbefore
      cases hbefore

theorem material_ne_abort (keyName encoded : String) (why : Abort) :
    material keyName encoded ≠ .error (.abort why) := by
  intro h
  obtain ⟨_, -, h⟩ := mapError_eq_error.mp h
  cases h

/-- Of a late record there is no entry and nothing to report; of any other there is one or the
other. -/
theorem toEntry_aborts {record : Record} :
    record.toEntry keyName = .error (.abort why) ↔ why = .timeOverflow ∧ record.Late := by
  cases record with
  | symmetric encoded =>
    rw [toEntry, bind_eq_error, Late, and_false, iff_false]
    rintro (h | ⟨bytes, -, h⟩)
    · exact material_ne_abort keyName encoded why h
    · split at h <;> cases h
  | keyPair encoded sizeBits notBefore notAfter =>
    rw [toEntry, bind_eq_error, or_iff_right (material_ne_abort keyName encoded why), Late]
    constructor
    · rintro ⟨bytes, hbytes, h⟩
      split at h
      · cases h
      · next secret hsecret =>
        obtain ⟨hwhy, hlate⟩ := times_abort.mp h
        refine ⟨hwhy, ⟨secret, ?_⟩, hlate⟩
        rw [mapError_eq_ok.mp hbytes, SecretKey.bytes_of_ofBytes? hsecret]
    · rintro ⟨hwhy, ⟨secret, hbytes⟩, hlate⟩
      refine ⟨secret.bytes, mapError_eq_ok.mpr hbytes, ?_⟩
      rw [SecretKey.ofBytes?_bytes]
      exact times_abort.mpr ⟨hwhy, hlate⟩

end Record

variable {document : Bytes} {why : Abort} {path : Path} {files : Files}

-- ----------------------------------------------------------------------------
-- Documents
-- ----------------------------------------------------------------------------

/-- Any record may be the first that is visited. -/
theorem Visit.exists_first {records : Dict Record} {record : String × Record}
    (h : record ∈ records.entries) :
    ∃ (visit : Visit) (rest : List (String × Record)), visit.order records = record :: rest := by
  let order (other : Dict Record) : List (String × Record) :=
    if record ∈ other.entries then record :: other.entries.erase record else other.entries
  have hperm (other : Dict Record) : (order other).Perm other.entries := by
    by_cases hmem : record ∈ other.entries
    · simp only [order, if_pos hmem]
      exact (List.perm_cons_erase hmem).symm
    · simp only [order, if_neg hmem]
      exact .refl _
  exact ⟨⟨order, hperm⟩, records.entries.erase record, if_pos h⟩

theorem made_aborts {records : List (String × Record)} :
    made records = .error (.abort why) ↔ why = .timeOverflow ∧
      ∃ before record after, records = before ++ record :: after ∧
        (∀ other ∈ before, ∃ entry, other.2.toEntry other.1 = .ok entry) ∧ record.2.Late := by
  have hok (record : String × Record) :
      (∃ entry, (record.2.toEntry record.1).map (record.1, ·) = .ok entry) ↔
        ∃ entry, record.2.toEntry record.1 = .ok entry := by
    simp only [map_eq_ok]
    exact ⟨fun ⟨_, entry, h, _⟩ => ⟨entry, h⟩, fun ⟨entry, h⟩ => ⟨_, entry, h, rfl⟩⟩
  simp only [made, mapM_eq_error, hok, map_eq_error, Record.toEntry_aborts]
  constructor
  · rintro ⟨before, record, after, hrecords, hbefore, hwhy, hlate⟩
    exact ⟨hwhy, before, record, after, hrecords, hbefore, hlate⟩
  · rintro ⟨hwhy, before, record, after, hrecords, hbefore, hlate⟩
    exact ⟨before, record, after, hrecords, hbefore, hwhy, hlate⟩

/-- Which record is met first hangs on the order of the visit. That there is an order in which
the process ends hangs on nothing but a late one. -/
theorem made_aborts_in_some_order {records : Dict Record} :
    (∃ visit : Visit, made (visit.order records) = .error (.abort why)) ↔
      why = .timeOverflow ∧ ∃ record ∈ records.entries, record.2.Late := by
  constructor
  · rintro ⟨visit, haborts⟩
    obtain ⟨hwhy, before, record, after, horder, -, hlate⟩ := made_aborts.mp haborts
    refine ⟨hwhy, record, (visit.perm records).mem_iff.mp ?_, hlate⟩
    rw [horder]
    exact List.mem_append_right _ List.mem_cons_self
  · rintro ⟨hwhy, record, hmem, hlate⟩
    obtain ⟨visit, rest, horder⟩ := Visit.exists_first hmem
    exact ⟨visit, made_aborts.mpr ⟨hwhy, [], record, rest, horder, List.forall_mem_nil _, hlate⟩⟩

/-- The process ends in whatever order the records are visited where nothing but being late is
wrong with any of them. -/
theorem made_aborts_in_every_order {records : Dict Record} :
    (∀ visit : Visit, made (visit.order records) = .error (.abort why)) ↔
      why = .timeOverflow ∧ (∃ record ∈ records.entries, record.2.Late) ∧
        ∀ record ∈ records.entries,
          record.2.Late ∨ ∃ entry, record.2.toEntry record.1 = .ok entry := by
  constructor
  · intro haborts
    obtain ⟨hwhy, hlate⟩ := made_aborts_in_some_order.mp ⟨.byName, haborts .byName⟩
    refine ⟨hwhy, hlate, fun record hmem => ?_⟩
    obtain ⟨visit, rest, horder⟩ := Visit.exists_first hmem
    obtain ⟨-, before, late, after, hsplit, hbefore, hlate⟩ := made_aborts.mp (haborts visit)
    rw [horder] at hsplit
    cases before with
    | nil =>
      cases hsplit
      exact .inl hlate
    | cons first before =>
      cases hsplit
      exact .inr (hbefore record List.mem_cons_self)
  · rintro ⟨hwhy, ⟨record, hmem, hlate⟩, hrest⟩ visit
    classical
    -- Records before the first late one are not late, so there is an entry of each.
    have hsome : ((visit.order records).find? fun record => record.2.Late).isSome :=
      List.find?_isSome.mpr
        ⟨record, (visit.perm records).mem_iff.mpr hmem, decide_eq_true hlate⟩
    obtain ⟨late, hfind⟩ := Option.isSome_iff_exists.mp hsome
    obtain ⟨hlate, before, after, horder, hbefore⟩ := List.find?_eq_some_iff_append.mp hfind
    refine made_aborts.mpr
      ⟨hwhy, before, late, after, horder, fun other hother => ?_, of_decide_eq_true hlate⟩
    have hmem : other ∈ records.entries := by
      rw [← (visit.perm records).mem_iff, horder]
      exact List.mem_append_left _ hother
    have hnot : ¬ other.2.Late := by simpa using hbefore other hother
    exact (hrest other hmem).resolve_left hnot

theorem decode_aborts {visit : Visit} : decode document visit = .error (.abort why) ↔
    ∃ records, records? document = some records ∧
      made (visit.order records) = .error (.abort why) := by
  rw [decode_eq]
  cases records? document with
  | none => simp
  | some records => simp [map_eq_error]

theorem format_decode_aborts {visit : Visit} :
    (format visit).decode document = .error (.abort why) ↔
      decode document visit = .error (.abort why) := by
  rw [decode_format, mapError_eq_error]
  constructor
  · rintro ⟨e | why', hdecode, h⟩
    · cases h
    · cases h
      exact hdecode
  · exact fun hdecode => ⟨_, hdecode, rfl⟩

/-- A file that cannot be read is reported as that. -/
theorem opening_aborts {visit : Visit} :
    (openVisiting visit path files).1 = .error (.abort why) ↔
      ∃ document records, (Files.read path files).1 = .ok document ∧
        records? document = some records ∧ made (visit.order records) = .error (.abort why) := by
  have hdecode {document : Bytes} : (format visit).decode document = .error (.abort why) ↔
      ∃ records, records? document = some records ∧
        made (visit.order records) = .error (.abort why) :=
    format_decode_aborts.trans decode_aborts
  rw [openVisiting_eq, map_eq_error]
  constructor
  · intro h
    cases hfound : files.found? path with
    | none =>
      rw [Format.opening_missing hfound] at h
      cases h
    | some answer =>
      rw [Format.opening_present hfound] at h
      rw [Files.read_apply hfound]
      obtain h | ⟨document, hread, h⟩ := bind_eq_error.mp h
      · obtain ⟨_, -, h⟩ := mapError_eq_error.mp h
        cases h
      · obtain ⟨records, hrecords, h⟩ := hdecode.mp h
        exact ⟨document, records, mapError_eq_ok.mp hread, hrecords, h⟩
  · rintro ⟨document, records, hread, hrecords, h⟩
    have hfound := Files.found?_of_read hread
    rw [Files.read_apply hfound] at hread
    rw [Format.opening_present hfound]
    exact bind_eq_error.mpr
      (.inr ⟨document, mapError_eq_ok.mpr hread, hdecode.mpr ⟨records, hrecords, h⟩⟩)

/--
An opening that visits the records in a given order ends the process exactly where the document has
a late record, and an entry can be made of every record visited before it. In some order it does
where there is a late record at all, and in every order where nothing worse is wrong with any.
Whatever else is wrong with a file is reported.
-/
theorem opening_aborts_iff (path : Path) (files : Files) (why : Abort) :
    (∀ visit, (openVisiting visit path files).1 = .error (.abort why) ↔ why = .timeOverflow ∧
      ∃ document records, (Files.read path files).1 = .ok document ∧
        records? document = some records ∧
          ∃ before record after, visit.order records = before ++ record :: after ∧
            (∀ other ∈ before, ∃ entry, other.2.toEntry other.1 = .ok entry) ∧
              record.2.Late) ∧
    ((∃ visit, (openVisiting visit path files).1 = .error (.abort why)) ↔ why = .timeOverflow ∧
      ∃ document records, (Files.read path files).1 = .ok document ∧
        records? document = some records ∧ ∃ record ∈ records.entries, record.2.Late) ∧
    ((∀ visit, (openVisiting visit path files).1 = .error (.abort why)) ↔ why = .timeOverflow ∧
      ∃ document records, (Files.read path files).1 = .ok document ∧
        records? document = some records ∧ (∃ record ∈ records.entries, record.2.Late) ∧
          ∀ record ∈ records.entries,
            record.2.Late ∨ ∃ entry, record.2.toEntry record.1 = .ok entry) := by
  refine ⟨fun visit => ?_, ?_, ?_⟩
  · rw [opening_aborts]
    constructor
    · rintro ⟨document, records, hread, hrecords, h⟩
      obtain ⟨hwhy, hlate⟩ := made_aborts.mp h
      exact ⟨hwhy, document, records, hread, hrecords, hlate⟩
    · rintro ⟨hwhy, document, records, hread, hrecords, hlate⟩
      exact ⟨document, records, hread, hrecords, made_aborts.mpr ⟨hwhy, hlate⟩⟩
  · constructor
    · rintro ⟨visit, h⟩
      obtain ⟨document, records, hread, hrecords, h⟩ := opening_aborts.mp h
      obtain ⟨hwhy, hlate⟩ := made_aborts_in_some_order.mp ⟨visit, h⟩
      exact ⟨hwhy, document, records, hread, hrecords, hlate⟩
    · rintro ⟨hwhy, document, records, hread, hrecords, hlate⟩
      obtain ⟨visit, h⟩ := made_aborts_in_some_order.mpr ⟨hwhy, hlate⟩
      exact ⟨visit, opening_aborts.mpr ⟨document, records, hread, hrecords, h⟩⟩
  · constructor
    · intro h
      obtain ⟨document, records, hread, hrecords, -⟩ := opening_aborts.mp (h .byName)
      have hevery (visit : Visit) : made (visit.order records) = .error (.abort why) := by
        obtain ⟨document', records', hread', hrecords', h⟩ := opening_aborts.mp (h visit)
        cases hread.symm.trans hread'
        cases hrecords.symm.trans hrecords'
        exact h
      obtain ⟨hwhy, hlate⟩ := made_aborts_in_every_order.mp hevery
      exact ⟨hwhy, document, records, hread, hrecords, hlate⟩
    · rintro ⟨hwhy, document, records, hread, hrecords, hlate⟩ visit
      exact opening_aborts.mpr
        ⟨document, records, hread, hrecords, made_aborts_in_every_order.mpr ⟨hwhy, hlate⟩ visit⟩

/-- A vault that can be opened is the same in whatever order its records are visited. -/
theorem openVisiting_ok {visit : Visit} {vault : Vault} {files' : Files} :
    openVisiting visit path files = (.ok vault, files') ↔
      openAt path files = (.ok vault, files') := by
  have hvisit (visit visit' : Visit) (h : openVisiting visit path files = (.ok vault, files')) :
      openVisiting visit' path files = (.ok vault, files') := by
    rw [openVisiting_eq] at h ⊢
    cases hfound : files.found? path with
    | none =>
      rw [Format.opening_missing hfound] at h ⊢
      exact h
    | some answer =>
      rw [Format.opening_present hfound] at h ⊢
      obtain ⟨hvault, hfiles⟩ := Prod.mk.inj h
      obtain ⟨entries, hentries, rfl⟩ := map_eq_ok.mp hvault
      obtain ⟨document, hread, hdecode⟩ := bind_eq_ok.mp hentries
      have hdecode' : (format visit').decode document = .ok entries :=
        mapError_eq_ok.mpr (decode_visit (mapError_eq_ok.mp hdecode) visit')
      exact Prod.ext (map_eq_ok.mpr ⟨entries, bind_eq_ok.mpr ⟨document, hread, hdecode'⟩, rfl⟩)
        hfiles
  exact ⟨hvisit visit .byName, hvisit .byName visit⟩

open Text (Json)

theorem records?_keyPair (keyName encoded : String) (sizeBits : UInt32) {notBefore notAfter : Nat}
    (hbefore : notBefore < 2 ^ 64) (hafter : notAfter < 2 ^ 64) :
    let record : Record := .keyPair encoded sizeBits notBefore notAfter
    records? (Bytes.ofString (Json.object [(keyName, record.toJson)]).written) =
      some (Dict.ofList [(keyName, record)]) := by
  intro record
  have hplain : Json.Plain 126 record.toJson :=
    Record.plain_keyPair encoded sizeBits hbefore hafter
  have hread := Json.read?_written (.object 126 [(keyName, record.toJson)] (by simpa using hplain))
  rw [records?, hread]
  simp only [List.mapM_cons, List.mapM_nil, record,
    Record.ofJson?_keyPair encoded sizeBits hbefore hafter]
  rfl

/-- A document whose only pair is valid for a second longer than the clock goes. -/
theorem opening_aborts_late :
    let secret : SecretKey := ⟨List.replicate 32 0, rfl⟩
    let record : Record := .keyPair (Text.Base64.encode secret.bytes) 256 0 (2 ^ 63)
    let document := Bytes.ofString (Json.object [("pair", record.toJson)]).written
    let files : Files := ⟨[(["vault.json"], .file 0)], [document], [], []⟩
    ∀ visit, (openVisiting visit ⟨false, ["vault.json"]⟩ files).1 =
      .error (.abort .timeOverflow) := by
  intro secret record document files visit
  have hlate : record.Late := ⟨⟨secret, Text.Base64.decode_encode _⟩, .inr (Nat.le_refl _)⟩
  have hrecords : records? document = some (Dict.ofList [("pair", record)]) :=
    records?_keyPair "pair" _ 256 (by decide) (by decide)
  refine opening_aborts.mpr ⟨document, _, rfl, hrecords, ?_⟩
  exact made_aborts_in_every_order.mpr ⟨rfl, ⟨("pair", record), List.mem_singleton_self _, hlate⟩,
    List.forall_mem_singleton.mpr (.inl hlate)⟩ visit

end Vault

end SealedStream
