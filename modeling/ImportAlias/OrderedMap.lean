import ImportAlias.Text.Basic

/-!
# Insertion-ordered maps

A table whose order is part of its meaning: looking something up may try the entries one after
another, so a key has to stay where it was first declared. Inserting a present key replaces its
value in place; inserting a new key puts it last. That no key occurs twice is a field of the
type, so that it need not be carried through the program.

The two observations of a map are `keys` and `get?`; what `insert` does to each is stated beside
it.
-/

namespace ImportAlias

/-- Insert into a list of entries: a present key keeps its place. -/
def insertEntry {α : Type} (key : Text) (value : α) : List (Text × α) → List (Text × α)
  | [] => [(key, value)]
  | entry :: rest =>
    if entry.1 = key then (key, value) :: rest else entry :: insertEntry key value rest

/-- The keys after an insertion: a present key adds nothing, a new one comes last. -/
theorem map_fst_insertEntry {α : Type} (key : Text) (value : α) (entries : List (Text × α)) :
    (insertEntry key value entries).map Prod.fst =
      if key ∈ entries.map Prod.fst then entries.map Prod.fst
      else entries.map Prod.fst ++ [key] := by
  induction entries with
  | nil => simp [insertEntry]
  | cons entry rest ih =>
    by_cases h : entry.1 = key
    · simp [insertEntry, h]
    · simp only [insertEntry, if_neg h, List.map_cons, ih, List.mem_cons, Ne.symm h, false_or]
      split <;> simp

/-- Insertion keeps the keys distinct. -/
theorem nodup_insertEntry {α : Type} (key : Text) (value : α) {entries : List (Text × α)}
    (h : (entries.map Prod.fst).Nodup) : ((insertEntry key value entries).map Prod.fst).Nodup := by
  rw [map_fst_insertEntry]
  split
  · exact h
  · rename_i hk
    refine List.nodup_append.mpr ⟨h, by simp, fun a ha b hb hab => hk ?_⟩
    rw [List.mem_singleton] at hb
    rwa [← hb, ← hab]

/-- One step of a look-up: the first entry answers if it bears the key. -/
private theorem lookup_entry_cons {α : Type} (key : Text) (entry : Text × α)
    (rest : List (Text × α)) :
    (entry :: rest).lookup key = if key = entry.1 then some entry.2 else rest.lookup key := by
  rw [List.lookup_cons]
  by_cases h : key = entry.1
  · simp [h]
  · rw [if_neg h, show (key == entry.1) = false by simpa using h]

/-- What a key looks up after an insertion. -/
theorem lookup_insertEntry {α : Type} (key other : Text) (value : α)
    (entries : List (Text × α)) :
    (insertEntry key value entries).lookup other =
      if other = key then some value else entries.lookup other := by
  induction entries with
  | nil => rw [insertEntry, lookup_entry_cons]
  | cons entry rest ih =>
    rw [insertEntry]
    split
    · rename_i hk
      rw [lookup_entry_cons, lookup_entry_cons, hk]
      split <;> rfl
    · rename_i hk
      rw [lookup_entry_cons, lookup_entry_cons, ih]
      by_cases h : other = entry.1
      · rw [if_pos h, if_pos h, if_neg (h ▸ hk)]
      · rw [if_neg h, if_neg h]

/-- A map from texts that remembers in which order its keys were first inserted. -/
structure OrderedMap (α : Type) where
  /-- The entries, in the order in which their keys were first inserted. -/
  entries : List (Text × α)
  /-- No key occurs twice. -/
  nodup_keys : (entries.map Prod.fst).Nodup

namespace OrderedMap

variable {α : Type}

/-- The map without entries. -/
def empty : OrderedMap α := ⟨[], List.nodup_nil⟩

instance : Inhabited (OrderedMap α) := ⟨empty⟩

/-- The keys, in the order of their first insertion. -/
def keys (m : OrderedMap α) : List Text := m.entries.map Prod.fst

/-- The value of a key, if the key is present. -/
def get? (m : OrderedMap α) (key : Text) : Option α := m.entries.lookup key

/-- The map in which `key` has the value `value`. -/
def insert (m : OrderedMap α) (key : Text) (value : α) : OrderedMap α :=
  ⟨insertEntry key value m.entries, nodup_insertEntry key value m.nodup_keys⟩

/-- The number of entries. -/
def size (m : OrderedMap α) : Nat := m.entries.length

/-- Whether the map has no entry. -/
def isEmpty (m : OrderedMap α) : Bool := m.entries.isEmpty

/-- The map that results from inserting the entries of a list one after another. -/
def ofList (entries : List (Text × α)) : OrderedMap α :=
  entries.foldl (fun m entry => m.insert entry.1 entry.2) empty

theorem keys_insert (m : OrderedMap α) (key : Text) (value : α) :
    (m.insert key value).keys = if key ∈ m.keys then m.keys else m.keys ++ [key] :=
  map_fst_insertEntry key value m.entries

theorem get?_insert (m : OrderedMap α) (key other : Text) (value : α) :
    (m.insert key value).get? other = if other = key then some value else m.get? other :=
  lookup_insertEntry key other value m.entries

@[simp] theorem get?_empty (key : Text) : (empty : OrderedMap α).get? key = none := rfl

theorem ofList_concat (entries : List (Text × α)) (key : Text) (value : α) :
    ofList (entries ++ [(key, value)]) = (ofList entries).insert key value := by
  rw [ofList, List.foldl_append]
  rfl

/-- The keys of a list of entries stand where they come first. -/
theorem keys_ofList (entries : List (Text × α)) :
    (ofList entries).keys = (entries.map Prod.fst).eraseDups := by
  rw [← List.reverse_reverse entries]
  induction entries.reverse with
  | nil => rfl
  | cons entry entries ih =>
    rw [List.reverse_cons, ofList_concat, keys_insert, ih, List.map_append, List.eraseDups_append]
    by_cases h : entry.1 ∈ entries.reverse.map Prod.fst
    · have hpresent : ([entry].map Prod.fst).removeAll (entries.reverse.map Prod.fst) = [] := by
        simpa [List.removeAll] using h
      rw [if_pos (List.mem_eraseDups.mpr h), hpresent, List.eraseDups_nil, List.append_nil]
    · have hnew : ([entry].map Prod.fst).removeAll (entries.reverse.map Prod.fst) = [entry.1] := by
        simpa [List.removeAll] using h
      rw [if_neg (mt List.mem_eraseDups.mp h), hnew]
      rfl

/-- A key of a list of entries has the value that comes last with it. -/
theorem get?_ofList (entries : List (Text × α)) (key : Text) :
    (ofList entries).get? key =
      ((entries.filter fun entry => entry.1 = key).getLast?).map Prod.snd := by
  rw [← List.reverse_reverse entries]
  induction entries.reverse with
  | nil => rfl
  | cons entry entries ih =>
    rw [List.reverse_cons, ofList_concat, get?_insert, ih, List.filter_append]
    by_cases h : entry.1 = key
    · simp [h]
    · simp [h, Ne.symm h]

theorem length_keys (m : OrderedMap α) : m.keys.length = m.size := List.length_map ..

/-- The keys are the texts that look something up. -/
theorem mem_keys {m : OrderedMap α} {key : Text} : key ∈ m.keys ↔ (m.get? key).isSome := by
  simp only [keys, get?, List.lookup_isSome_iff, List.mem_map, beq_iff_eq]
  exact exists_congr fun entry => and_congr_right fun _ => eq_comm

end OrderedMap

end ImportAlias
