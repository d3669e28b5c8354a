import SealedStream.Proofs.Base64
import SealedStream.Proofs.Json
import SealedStream.Settings.Document
import SealedStream.Vault.Document

/-!
# Stores come back from their documents

The settings come back from their document as they were. So do the entries of a
vault, but for the parts of a second in the times of a key pair, which its
document does not hold.
-/

namespace SealedStream

-- ----------------------------------------------------------------------------
-- Lists and maps
-- ----------------------------------------------------------------------------

section Lists

variable {α β γ ε : Type}

theorem mapM_map_pure {m : Type → Type} [Monad m] [LawfulMonad m] {f : α → β} {g : β → m γ}
    {h : α → γ} {xs : List α} (hg : ∀ x ∈ xs, g (f x) = pure (h x)) :
    (xs.map f).mapM g = pure (xs.map h) := by
  induction xs with
  | nil => rfl
  | cons x xs ih =>
    rw [List.map_cons, List.mapM_cons, hg x List.mem_cons_self, pure_bind,
      ih fun x hx => hg x (List.mem_cons_of_mem _ hx), pure_bind]
    rfl

/-- A list of steps fails with the first of them that does. -/
theorem mapM_eq_error {f : α → Except ε β} {xs : List α} {e : ε} :
    xs.mapM f = .error e ↔ ∃ before x after, xs = before ++ x :: after ∧
      (∀ y ∈ before, ∃ b, f y = .ok b) ∧ f x = .error e := by
  constructor
  · intro h
    induction xs with
    | nil => cases h
    | cons x xs ih =>
      rw [List.mapM_cons, bind_eq_error] at h
      obtain hx | ⟨b, hx, h⟩ := h
      · exact ⟨[], x, xs, rfl, List.forall_mem_nil _, hx⟩
      · obtain hxs | ⟨_, -, h⟩ := bind_eq_error.mp h
        · obtain ⟨before, y, after, rfl, hbefore, hy⟩ := ih hxs
          exact ⟨x :: before, y, after, rfl, List.forall_mem_cons.mpr ⟨⟨b, hx⟩, hbefore⟩, hy⟩
        · cases h
  · rintro ⟨before, x, after, rfl, hbefore, hx⟩
    induction before with
    | nil => rw [List.nil_append, List.mapM_cons, hx]; rfl
    | cons y before ih =>
      obtain ⟨⟨b, hy⟩, hbefore⟩ := List.forall_mem_cons.mp hbefore
      rw [List.cons_append, List.mapM_cons, hy, ok_bind, ih hbefore]
      rfl

/-- Whatever comes out of a list of steps comes out of one of them. -/
theorem mem_of_mapM_ok {f : α → Except ε β} {xs : List α} {ys : List β}
    (h : xs.mapM f = .ok ys) {y : β} (hy : y ∈ ys) : ∃ x ∈ xs, f x = .ok y := by
  induction xs generalizing ys with
  | nil =>
    cases h
    cases hy
  | cons x xs ih =>
    rw [List.mapM_cons] at h
    obtain ⟨first, hx, h⟩ := bind_eq_ok.mp h
    obtain ⟨rest, hrest, h⟩ := bind_eq_ok.mp h
    cases h
    obtain rfl | hy := List.mem_cons.mp hy
    · exact ⟨x, List.mem_cons_self, hx⟩
    · obtain ⟨x', hx', hf⟩ := ih hrest hy
      exact ⟨x', List.mem_cons_of_mem _ hx', hf⟩

/-- Steps that all end well do so in every order. -/
theorem mapM_perm {f : α → Except ε β} {xs xs' : List α} (hperm : xs.Perm xs') {ys : List β}
    (h : xs.mapM f = .ok ys) : ∃ ys', xs'.mapM f = .ok ys' ∧ ys.Perm ys' := by
  induction hperm generalizing ys with
  | nil => exact ⟨ys, h, .refl ys⟩
  | cons x _ ih =>
    rw [List.mapM_cons] at h
    obtain ⟨y, hx, h⟩ := bind_eq_ok.mp h
    obtain ⟨rest, hrest, h⟩ := bind_eq_ok.mp h
    cases h
    obtain ⟨rest', hrest', hperm⟩ := ih hrest
    refine ⟨y :: rest', ?_, hperm.cons y⟩
    rw [List.mapM_cons, hx, ok_bind, hrest']
    rfl
  | swap x x' xs =>
    rw [List.mapM_cons] at h
    obtain ⟨y', hx', h⟩ := bind_eq_ok.mp h
    obtain ⟨rest, hrest, h⟩ := bind_eq_ok.mp h
    cases h
    rw [List.mapM_cons] at hrest
    obtain ⟨y, hx, hrest⟩ := bind_eq_ok.mp hrest
    obtain ⟨rest, hxs, hrest⟩ := bind_eq_ok.mp hrest
    cases hrest
    refine ⟨y :: y' :: rest, ?_, .swap y y' rest⟩
    rw [List.mapM_cons, List.mapM_cons, hx, ok_bind, hx', ok_bind, hxs]
    rfl
  | trans _ _ ih ih' =>
    obtain ⟨ys', hys', hperm⟩ := ih h
    obtain ⟨ys'', hys'', hperm'⟩ := ih' hys'
    exact ⟨ys'', hys'', hperm.trans hperm'⟩

end Lists

namespace Dict

variable {α β : Type} {d : Dict α} {name : String} {value : α} {entry : String × α}

/-- The same names with other values. -/
def map (f : α → β) (d : Dict α) : Dict β where
  entries := d.entries.map fun entry => (entry.1, f entry.2)
  sorted := List.pairwise_map.mpr d.sorted

theorem get?_map (f : α → β) (d : Dict α) (name : String) :
    (d.map f).get? name = (d.get? name).map f := by
  simp only [get?, map]
  induction d.entries with
  | nil => rfl
  | cons head rest ih =>
    rw [List.map_cons, List.lookup_cons, List.lookup_cons]
    split
    · rfl
    · exact ih

theorem map_map {γ : Type} (g : β → γ) (f : α → β) (d : Dict α) :
    (d.map f).map g = d.map (g ∘ f) := by
  refine eq_of_get? fun other => ?_
  rw [get?_map, get?_map, get?_map, Option.map_map]

theorem mem_insert (h : entry ∈ (d.insert name value).entries) :
    entry = (name, value) ∨ entry ∈ d.entries := mem_insertEntry h

theorem mem_erase (h : entry ∈ (d.erase name).entries) : entry ∈ d.entries :=
  (List.mem_filter.mp h).1

theorem mem_insertAll {entries : List (String × α)} (h : entry ∈ (d.insertAll entries).entries) :
    entry ∈ entries ∨ entry ∈ d.entries := by
  induction entries generalizing d with
  | nil => exact .inr h
  | cons head rest ih =>
    obtain hrest | hd := ih h
    · exact .inl (List.mem_cons_of_mem _ hrest)
    · obtain rfl | hd := mem_insert hd
      · exact .inl List.mem_cons_self
      · exact .inr hd

theorem get?_insertAll {entries : List (String × α)}
    (hsorted : entries.Pairwise fun a b => a.1 < b.1) (d : Dict α) (name : String) :
    (d.insertAll entries).get? name = (entries.lookup name).or (d.get? name) := by
  induction entries generalizing d with
  | nil => rfl
  | cons head rest ih =>
    obtain ⟨hfirst, hrest⟩ := List.pairwise_cons.mp hsorted
    have hstep : (d.insertAll (head :: rest)).get? name =
        (rest.lookup name).or ((d.insert head.1 head.2).get? name) := ih hrest _
    rw [hstep, get?_insert, List.lookup_cons]
    by_cases hname : name = head.1
    · subst hname
      rw [lookup_eq_none_of_lt hfirst]
      simp
    · rw [if_neg hname, beq_eq_false_iff_ne.mpr hname]

/-- The entries of a map make up the map. -/
theorem ofList_entries (d : Dict α) : ofList d.entries = d := by
  refine eq_of_get? fun name => ?_
  rw [ofList, get?_insertAll d.sorted, get?_empty, Option.or_none]
  rfl

theorem nodup_names (d : Dict α) : (d.entries.map Prod.fst).Nodup := by
  refine List.pairwise_map.mpr (d.sorted.imp fun {a b} hlt heq => ?_)
  rw [heq] at hlt
  exact String.lt_irrefl b.1 hlt

theorem insert_comm {name other : String} (h : name ≠ other) (d : Dict α) (value value' : α) :
    (d.insert name value).insert other value' = (d.insert other value').insert name value := by
  refine eq_of_get? fun asked => ?_
  simp only [get?_insert]
  split_ifs with hother hname
  · exact absurd (hname.symm.trans hother) h
  all_goals rfl

/-- Where each name stands once, the order of the entries makes no difference. -/
theorem ofList_perm {entries entries' : List (String × α)} (hperm : entries.Perm entries')
    (hnames : (entries.map Prod.fst).Nodup) : ofList entries = ofList entries' := by
  refine hperm.foldl_eq' (fun x hx y hy d => ?_) empty
  by_cases hname : x.1 = y.1
  · rw [List.inj_on_of_nodup_map hnames hx hy hname]
  · exact insert_comm hname d x.2 y.2

end Dict

namespace Text.Json

theorem plain_member {levels : Nat} {α : Type} {entries : List (String × α)} {f : α → Json}
    (h : ∀ entry ∈ entries, Plain levels (f entry.2)) :
    ∀ m ∈ entries.map fun entry => (entry.1, f entry.2), Plain levels m.2 := by
  intro m hm
  obtain ⟨entry, hentry, rfl⟩ := List.mem_map.mp hm
  exact h entry hentry

end Text.Json

open Text (Json)

-- ----------------------------------------------------------------------------
-- The settings
-- ----------------------------------------------------------------------------

theorem SettingValue.plain_toJson (levels : Nat) (value : SettingValue) :
    Json.Plain levels value.toJson := by
  cases value with
  | int value =>
    have hlow := value.le_toInt
    have hhigh := value.toInt_lt
    exact .integer _ _ (by omega) (by omega)
  | string text => exact .string _ _

namespace Settings

theorem decode_encode (values : Dict SettingValue) : decode (encode values) = .ok values := by
  have hread := Json.read?_written (.object 126 _
    (Json.plain_member fun entry (_ : entry ∈ values.entries) => entry.2.plain_toJson 126))
  have hempty : (encode values).isEmpty = false := by
    cases hencoded : encode values with
    | nil =>
      have hnone : Json.read? (Bytes.ofString "") = none := by
        rw [Json.read?, Bytes.toString?_ofString]
        rfl
      have hnil : Bytes.ofString "" = [] := rfl
      rw [encode] at hencoded
      rw [hencoded, ← hnil, hnone] at hread
      cases hread
    | cons b rest => rfl
  have hmembers : (values.entries.map fun entry => (entry.1, entry.2.toJson)).mapM
      (fun m : String × Json => (SettingValue.ofJson? m.2).map (m.1, ·)) = some values.entries := by
    have hentry : ∀ entry ∈ values.entries,
        (SettingValue.ofJson? entry.2.toJson).map (entry.1, ·) = pure (id entry) := by
      intro entry _
      rw [SettingValue.ofJson?_toJson]
      rfl
    have := mapM_map_pure (f := fun entry : String × SettingValue => (entry.1, entry.2.toJson))
      (g := fun m : String × Json => (SettingValue.ofJson? m.2).map (m.1, ·)) hentry
    rwa [List.map_id] at this
  rw [decode, hempty]
  simp only [Bool.false_eq_true, if_false]
  rw [encode, hread]
  simp only [hmembers]
  rw [Dict.ofList_entries]

end Settings

-- ----------------------------------------------------------------------------
-- The vault
-- ----------------------------------------------------------------------------

namespace Time

/-- The last whole second of a time that is not before the epoch. -/
def cut (t : Time) : Time := of t.epochSeconds 0

theorem seconds_of (seconds : Nat) : (of seconds 0).seconds = seconds := by
  rw [Time.seconds, of, Int.fdiv_eq_ediv_of_nonneg _ (by decide)]
  simp [Duration.nanosecondsPerSecond]

theorem ofEpochSeconds?_eq (seconds : Nat) :
    ofEpochSeconds? seconds = if (of seconds 0).InRange then some (of seconds 0) else none := by
  have hlater : (⟨epoch.nanoseconds + (Duration.ofSeconds seconds).nanoseconds⟩ : Time) =
      of seconds 0 := by
    simp [epoch, Duration.ofSeconds, of]
  rw [ofEpochSeconds?, add?, hlater]

theorem inRange_cut {t : Time} (h : t.InRange) : t.cut.InRange := by
  obtain ⟨-, hhigh⟩ := h
  rw [cut, InRange, seconds_of, epochSeconds]
  have hlow : Int64.minValue.toInt ≤ 0 := by decide
  have hzero : 0 ≤ Int64.maxValue.toInt := by decide
  omega

theorem ofEpochSeconds?_cut {t : Time} (h : t.InRange) :
    ofEpochSeconds? t.epochSeconds = some t.cut := by
  rw [ofEpochSeconds?_eq, if_pos]
  · rfl
  · exact inRange_cut h

theorem epochSeconds_lt {t : Time} (h : t.InRange) : t.epochSeconds < 2 ^ 63 := by
  obtain ⟨-, hhigh⟩ := h
  have hmax : Int64.maxValue.toInt = 2 ^ 63 - 1 := by decide
  rw [epochSeconds]
  omega

theorem inRange_of_epochSeconds {seconds : Nat} {t : Time} (h : ofEpochSeconds? seconds = some t) :
    t.InRange := by
  rw [ofEpochSeconds?_eq] at h
  split at h
  · next hrange =>
    cases h
    exact hrange
  · cases h

end Time

namespace VaultEntry

/-- The clock can show the times of an entry. -/
def InRange : VaultEntry → Prop
  | symmetric _ => True
  | keyPair _ spec => spec.notBefore.InRange ∧ spec.notAfter.InRange

/-- What a document holds of an entry. -/
def cut : VaultEntry → VaultEntry
  | symmetric key => .symmetric key
  | keyPair secret spec =>
    .keyPair secret ⟨spec.sizeBits, spec.notBefore.cut, spec.notAfter.cut⟩

theorem inRange_cut {entry : VaultEntry} (h : entry.InRange) : entry.cut.InRange := by
  cases entry with
  | symmetric key => exact trivial
  | keyPair secret spec => exact ⟨Time.inRange_cut h.1, Time.inRange_cut h.2⟩

end VaultEntry

namespace Vault

namespace Record

variable {entry : VaultEntry}

theorem plain_keyPair (secret : String) (sizeBits : UInt32) {notBefore notAfter : Nat}
    (hbefore : notBefore < 2 ^ 64) (hafter : notAfter < 2 ^ 64) :
    Json.Plain 126 (keyPair secret sizeBits notBefore notAfter).toJson := by
  have hsize := sizeBits.toNat_lt
  refine .object 125 _ fun m hm => ?_
  simp only [List.mem_cons, List.not_mem_nil, or_false] at hm
  rcases hm with rfl | rfl | rfl | rfl | rfl
  · exact .string _ _
  · exact .string _ _
  · exact .integer _ _ (by omega) (by omega)
  · exact .integer _ _ (by omega) (by omega)
  · exact .integer _ _ (by omega) (by omega)

theorem plain_toJson (h : entry.InRange) : Json.Plain 126 (ofEntry entry).toJson := by
  cases entry with
  | symmetric key =>
    refine .object 125 _ fun m hm => ?_
    simp only [List.mem_cons, List.not_mem_nil, or_false] at hm
    rcases hm with rfl | rfl <;> exact .string _ _
  | keyPair secret spec =>
    have hbefore := Time.epochSeconds_lt h.1
    have hafter := Time.epochSeconds_lt h.2
    exact plain_keyPair _ _ (by omega) (by omega)

theorem ofJson?_keyPair (secret : String) (sizeBits : UInt32) {notBefore notAfter : Nat}
    (hbefore : notBefore < 2 ^ 64) (hafter : notAfter < 2 ^ 64) :
    ofJson? (keyPair secret sizeBits notBefore notAfter).toJson =
      some (keyPair secret sizeBits notBefore notAfter) := by
  have hsize := sizeBits.toNat_lt
  have hfields : fields? (keyPair secret sizeBits notBefore notAfter).toJson =
      some ("key_pair", [.string secret, .integer sizeBits.toNat, .integer notBefore,
        .integer notAfter]) := rfl
  have hbounds : (0 : Int) ≤ sizeBits.toNat ∧ (sizeBits.toNat : Int) < UInt32.size ∧
      isSeconds notBefore ∧ isSeconds notAfter := by
    simp only [isSeconds, decide_eq_true_eq, UInt32.size, UInt64.size]
    omega
  rw [ofJson?, hfields, Option.bind_eq_bind, Option.bind_some]
  simp only [ofFields?, String.reduceEq, if_false, if_true, if_pos hbounds, Int.toNat_natCast,
    UInt32.ofNat_toNat]

theorem ofJson?_toJson (h : entry.InRange) :
    ofJson? (ofEntry entry).toJson = some (ofEntry entry) := by
  cases entry with
  | symmetric key => rfl
  | keyPair secret spec =>
    have hbefore := Time.epochSeconds_lt h.1
    have hafter := Time.epochSeconds_lt h.2
    exact ofJson?_keyPair _ _ (by omega) (by omega)

/-- The function as a whole: applied to a number it would be run by whoever checks this. -/
theorem timeOf_eq : timeOf = fun seconds =>
    match Time.ofEpochSeconds? seconds with
    | some t => .ok t
    | none => .error (.abort .timeOverflow) := rfl

theorem timeOf_ok {seconds : Nat} {t : Time} :
    timeOf seconds = .ok t ↔ Time.ofEpochSeconds? seconds = some t := by
  rw [timeOf_eq]
  cases h : Time.ofEpochSeconds? seconds with
  | none => simp only [h, reduceCtorEq]
  | some other => simp only [h, Except.ok.injEq, Option.some.injEq]

theorem toEntry_ofEntry (keyName : String) (h : entry.InRange) :
    toEntry keyName (ofEntry entry) = .ok entry.cut := by
  have hmaterial (bytes : Bytes) : material keyName (Text.Base64.encode bytes) = .ok bytes := by
    rw [material, Text.Base64.decode_encode]
    rfl
  cases entry with
  | symmetric key =>
    rw [ofEntry, toEntry, hmaterial, ok_bind]
    simp only [SymmetricKey.ofBytes_bytes]
    rfl
  | keyPair secret spec =>
    have hbefore := timeOf_ok.mpr (Time.ofEpochSeconds?_cut h.1)
    have hafter := timeOf_ok.mpr (Time.ofEpochSeconds?_cut h.2)
    rw [ofEntry, toEntry, hmaterial, ok_bind]
    simp only [SecretKey.ofBytes?_bytes]
    rw [hbefore, ok_bind, hafter, ok_bind]
    rfl

theorem inRange_toEntry {keyName : String} {record : Record}
    (h : record.toEntry keyName = .ok entry) : entry.InRange := by
  cases record with
  | symmetric encoded =>
    rw [toEntry] at h
    obtain ⟨bytes, -, h⟩ := bind_eq_ok.mp h
    split at h
    · cases h
      exact trivial
    · cases h
  | keyPair encoded sizeBits notBefore notAfter =>
    rw [toEntry] at h
    obtain ⟨bytes, -, h⟩ := bind_eq_ok.mp h
    split at h
    · cases h
    · obtain ⟨before, hbefore, h⟩ := bind_eq_ok.mp h
      obtain ⟨after, hafter, h⟩ := bind_eq_ok.mp h
      cases h
      exact ⟨Time.inRange_of_epochSeconds (timeOf_ok.mp hbefore),
        Time.inRange_of_epochSeconds (timeOf_ok.mp hafter)⟩

end Record

/-- The clock can show the times of all entries. -/
def InRange (entries : Dict VaultEntry) : Prop := ∀ entry ∈ entries.entries, entry.2.InRange

theorem InRange.insert {entries : Dict VaultEntry} {keyName : String} {entry : VaultEntry}
    (h : InRange entries) (he : entry.InRange) : InRange (entries.insert keyName entry) := by
  intro other hother
  obtain rfl | hother := Dict.mem_insert hother
  · exact he
  · exact h other hother

theorem InRange.erase {entries : Dict VaultEntry} (h : InRange entries) (keyName : String) :
    InRange (entries.erase keyName) := fun other hother => h other (Dict.mem_erase hother)

/-- The entries of records, made one after the other. -/
def made (records : List (String × Record)) :
    Except (Failure VaultDefect) (List (String × VaultEntry)) :=
  records.mapM fun record => (record.2.toEntry record.1).map (record.1, ·)

theorem decode_eq (document : Bytes) (visit : Visit) :
    decode document visit =
      match records? document with
      | none => .error (.error .malformed)
      | some records => (made (visit.order records)).map Dict.ofList := by
  rw [decode]
  cases records? document with
  | none => rfl
  | some records =>
    simp only
    show made (visit.order records) >>= _ = _
    cases made (visit.order records) <;> rfl

theorem names_of_made {records : List (String × Record)} {entries : List (String × VaultEntry)}
    (h : made records = .ok entries) : entries.map Prod.fst = records.map Prod.fst := by
  induction records generalizing entries with
  | nil =>
    cases h
    rfl
  | cons record records ih =>
    rw [made, List.mapM_cons] at h
    obtain ⟨entry, hentry, h⟩ := bind_eq_ok.mp h
    obtain ⟨rest, hrest, h⟩ := bind_eq_ok.mp h
    cases h
    obtain ⟨_, -, rfl⟩ := map_eq_ok.mp hentry
    rw [List.map_cons, List.map_cons, ih hrest]

/-- A document that can be decoded has the same entries in whatever order it is visited. -/
theorem decode_visit {document : Bytes} {entries : Dict VaultEntry} {visit : Visit}
    (h : decode document visit = .ok entries) (visit' : Visit) :
    decode document visit' = .ok entries := by
  rw [decode_eq] at h ⊢
  cases hrecords : records? document with
  | none => rw [hrecords] at h; cases h
  | some records =>
    rw [hrecords] at h
    obtain ⟨made, hmade, rfl⟩ := map_eq_ok.mp h
    have hperm := visit.perm records
    obtain ⟨made', hmade', hmades⟩ := mapM_perm (hperm.trans (visit'.perm records).symm) hmade
    have hnames : (made.map Prod.fst).Nodup := by
      rw [names_of_made hmade, (hperm.map Prod.fst).nodup_iff]
      exact Dict.nodup_names records
    refine map_eq_ok.mpr ⟨made', hmade', ?_⟩
    rw [Dict.ofList_perm hmades hnames]

theorem inRange_decode {document : Bytes} {entries : Dict VaultEntry} {visit : Visit}
    (h : decode document visit = .ok entries) : InRange entries := by
  rw [decode_eq] at h
  split at h
  · cases h
  · obtain ⟨made, hmade, rfl⟩ := map_eq_ok.mp h
    intro entry hentry
    obtain hentry | hentry := Dict.mem_insertAll hentry
    · obtain ⟨record, -, hrecord⟩ := mem_of_mapM_ok hmade hentry
      cases htoEntry : record.2.toEntry record.1 with
      | error e =>
        rw [htoEntry] at hrecord
        cases hrecord
      | ok made =>
        rw [htoEntry] at hrecord
        cases hrecord
        exact Record.inRange_toEntry htoEntry
    · cases hentry

/-- The records of entries, which may be written in any order. -/
theorem records?_written {entries : Dict VaultEntry} (h : InRange entries)
    {order : List (String × VaultEntry)} (hperm : order.Perm entries.entries) :
    records? (Bytes.ofString (Json.object
      (order.map fun entry => (entry.1, (Record.ofEntry entry.2).toJson))).written) =
        some (entries.map Record.ofEntry) := by
  have hread := Json.read?_written (.object 126 _
    (Json.plain_member (f := fun entry => (Record.ofEntry entry).toJson)
      fun entry (hentry : entry ∈ order) =>
        Record.plain_toJson (h entry (hperm.mem_iff.mp hentry))))
  have hentry : ∀ entry ∈ order,
      (Record.ofJson? (Record.ofEntry entry.2).toJson).map (entry.1, ·) =
        pure (entry.1, Record.ofEntry entry.2) := by
    intro entry hentry
    rw [Record.ofJson?_toJson (h entry (hperm.mem_iff.mp hentry))]
    rfl
  have hmembers := mapM_map_pure
    (f := fun entry : String × VaultEntry => (entry.1, (Record.ofEntry entry.2).toJson))
    (g := fun m : String × Json => (Record.ofJson? m.2).map (m.1, ·)) hentry
  have hrecords := hperm.map fun entry => (entry.1, Record.ofEntry entry.2)
  have hnames := (hrecords.map Prod.fst).nodup_iff.mpr
    (Dict.nodup_names (entries.map Record.ofEntry))
  rw [records?, hread]
  simp only [hmembers]
  exact congrArg some
    ((Dict.ofList_perm hrecords hnames).trans (Dict.ofList_entries (entries.map Record.ofEntry)))

theorem records?_encode {entries : Dict VaultEntry} (h : InRange entries) :
    records? (encode entries) = some (entries.map Record.ofEntry) :=
  records?_written h (.refl _)

/-- A vault comes back from its document with its times cut to whole seconds. -/
theorem decode_encode {entries : Dict VaultEntry} (h : InRange entries) :
    decode (encode entries) = .ok (entries.map VaultEntry.cut) := by
  have hentry : ∀ entry ∈ entries.entries,
      ((Record.ofEntry entry.2).toEntry entry.1).map (entry.1, ·) =
        pure (entry.1, entry.2.cut) := by
    intro entry hentry
    rw [Record.toEntry_ofEntry entry.1 (h entry hentry)]
    rfl
  have hmade := mapM_map_pure
    (f := fun entry : String × VaultEntry => (entry.1, Record.ofEntry entry.2))
    (g := fun record : String × Record => (record.2.toEntry record.1).map (record.1, ·)) hentry
  have hmade : made (entries.map Record.ofEntry).entries =
      .ok (entries.map VaultEntry.cut).entries := hmade
  rw [decode_eq, records?_encode h]
  simp only [Visit.byName, hmade]
  exact congrArg Except.ok (Dict.ofList_entries (entries.map VaultEntry.cut))

end Vault

end SealedStream
