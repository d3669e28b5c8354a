/-!
# Finite maps from names

The entries stand in the order of their names, each name once, so that two maps
with the same look-ups are equal and a written map has one form.
-/

namespace SealedStream

structure Dict (α : Type) where
  entries : List (String × α) := []
  sorted : entries.Pairwise (fun a b => a.1 < b.1) := by exact List.Pairwise.nil

namespace Dict

variable {α β : Type}

def empty : Dict α := {}

instance : Inhabited (Dict α) := ⟨empty⟩

/-- Puts an entry in its place, over one of the same name. -/
def insertEntry (name : String) (value : α) : List (String × α) → List (String × α)
  | [] => [(name, value)]
  | (n, v) :: rest =>
    if name < n then (name, value) :: (n, v) :: rest
    else if name = n then (name, value) :: rest
    else (n, v) :: insertEntry name value rest

theorem mem_insertEntry {name : String} {value : α} {entry : String × α}
    {entries : List (String × α)} (h : entry ∈ insertEntry name value entries) :
    entry = (name, value) ∨ entry ∈ entries := by
  induction entries with
  | nil => simpa [insertEntry] using h
  | cons head rest ih =>
    obtain ⟨n, v⟩ := head
    simp only [insertEntry] at h
    split at h
    · simpa using h
    · split at h <;> grind

theorem sorted_insertEntry (name : String) (value : α) {entries : List (String × α)}
    (h : entries.Pairwise (fun a b => a.1 < b.1)) :
    (insertEntry name value entries).Pairwise (fun a b => a.1 < b.1) := by
  induction entries with
  | nil => simp [insertEntry]
  | cons head rest ih =>
    obtain ⟨n, v⟩ := head
    obtain ⟨first, tail⟩ := List.pairwise_cons.mp h
    simp only [insertEntry]
    split
    · next hlt =>
      refine List.pairwise_cons.mpr ⟨fun entry hentry => ?_, h⟩
      rcases List.mem_cons.mp hentry with rfl | hrest
      · exact hlt
      · exact String.lt_trans hlt (first entry hrest)
    · next hnot =>
      split
      · next heq => exact List.pairwise_cons.mpr ⟨fun entry hentry => heq ▸ first entry hentry, tail⟩
      · next hne =>
        have hlt : n < name := by
          refine String.not_le.mp fun hle => hne ?_
          exact String.le_antisymm hle (String.not_lt.mp hnot)
        refine List.pairwise_cons.mpr ⟨fun entry hentry => ?_, ih tail⟩
        rcases mem_insertEntry hentry with rfl | hrest
        · exact hlt
        · exact first entry hrest

theorem lookup_insertEntry (name other : String) (value : α) (entries : List (String × α)) :
    (insertEntry name value entries).lookup other =
      if other = name then some value else entries.lookup other := by
  induction entries with
  | nil => grind [insertEntry]
  | cons head rest ih =>
    obtain ⟨n, v⟩ := head
    simp only [insertEntry]
    split
    · grind
    · split
      · grind
      · next hne => grind

def insert (d : Dict α) (name : String) (value : α) : Dict α where
  entries := insertEntry name value d.entries
  sorted := sorted_insertEntry name value d.sorted

def erase (d : Dict α) (name : String) : Dict α where
  entries := d.entries.filter fun entry => entry.1 ≠ name
  sorted := d.sorted.filter _

def get? (d : Dict α) (name : String) : Option α := d.entries.lookup name

theorem get?_empty (name : String) : (empty : Dict α).get? name = none := rfl

theorem get?_insert (d : Dict α) (name other : String) (value : α) :
    (d.insert name value).get? other = if other = name then some value else d.get? other :=
  lookup_insertEntry name other value d.entries

theorem get?_erase (d : Dict α) (name other : String) :
    (d.erase name).get? other = if other = name then none else d.get? other := by
  simp only [get?, erase]
  induction d.entries with
  | nil => simp
  | cons head rest ih =>
    grind

theorem lookup_eq_none_of_lt {name : String} {entries : List (String × α)}
    (h : ∀ entry ∈ entries, name < entry.1) : entries.lookup name = none := by
  induction entries with
  | nil => rfl
  | cons head rest ih =>
    have hne : name ≠ head.1 := fun he => String.lt_irrefl name (he ▸ h head (by simp))
    have := ih fun entry hentry => h entry (by simp [hentry])
    grind

theorem entries_eq_of_lookup {xs ys : List (String × α)}
    (hx : xs.Pairwise (fun a b => a.1 < b.1)) (hy : ys.Pairwise (fun a b => a.1 < b.1))
    (h : ∀ name, xs.lookup name = ys.lookup name) : xs = ys := by
  induction xs generalizing ys with
  | nil =>
    cases ys with
    | nil => rfl
    | cons head rest => have := h head.1; grind
  | cons x xs ih =>
    cases ys with
    | nil => have := h x.1; grind
    | cons y ys =>
      obtain ⟨hxs, hx⟩ := List.pairwise_cons.mp hx
      obtain ⟨hys, hy⟩ := List.pairwise_cons.mp hy
      have hnx := lookup_eq_none_of_lt hxs
      have hny := lookup_eq_none_of_lt hys
      have hname : x.1 = y.1 := by
        refine String.le_antisymm (String.not_lt.mp fun hlt => ?_) (String.not_lt.mp fun hlt => ?_)
        · have hnone := lookup_eq_none_of_lt fun entry hentry => String.lt_trans hlt (hxs entry hentry)
          have := h y.1
          grind
        · have hnone := lookup_eq_none_of_lt fun entry hentry => String.lt_trans hlt (hys entry hentry)
          have := h x.1
          grind
      have hhead : x = y := by
        have := h x.1
        grind
      have htail : xs = ys := ih hx hy fun name => by
        have := h name
        by_cases hn : name = x.1 <;> grind
      rw [hhead, htail]

/-- Maps with the same look-ups are equal. -/
theorem eq_of_get? {d e : Dict α} (h : ∀ name, d.get? name = e.get? name) : d = e := by
  obtain ⟨xs, hx⟩ := d
  obtain ⟨ys, hy⟩ := e
  obtain rfl := entries_eq_of_lookup hx hy h
  rfl

theorem insert_insert_of_some {d : Dict α} {name : String} {previous : α}
    (h : d.get? name = some previous) (value : α) :
    (d.insert name value).insert name previous = d := by
  refine eq_of_get? fun other => ?_
  by_cases hname : other = name <;> simp [get?_insert, hname, h]

theorem erase_insert_of_none {d : Dict α} {name : String} (h : d.get? name = none) (value : α) :
    (d.insert name value).erase name = d := by
  refine eq_of_get? fun other => ?_
  by_cases hname : other = name <;> simp [get?_insert, get?_erase, hname, h]

theorem insert_erase_of_some {d : Dict α} {name : String} {previous : α}
    (h : d.get? name = some previous) : (d.erase name).insert name previous = d := by
  refine eq_of_get? fun other => ?_
  by_cases hname : other = name <;> simp [get?_insert, get?_erase, hname, h]

def contains (d : Dict α) (name : String) : Bool := (d.get? name).isSome

def size (d : Dict α) : Nat := d.entries.length

def names (d : Dict α) : List String := d.entries.map Prod.fst

/-- All entries inserted in order; a later one replaces an earlier one of the same name. -/
def insertAll (d : Dict α) (entries : List (String × α)) : Dict α :=
  entries.foldl (fun d entry => d.insert entry.1 entry.2) d

def ofList (entries : List (String × α)) : Dict α := empty.insertAll entries

end Dict

end SealedStream
