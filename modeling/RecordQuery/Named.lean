/-!
# Lists of named things

A finite map from names, as the list of its entries in the order in which the names were first put
in. Where a list has two entries of one name, the first counts: `lookup` and `names` see no other.
-/

namespace RecordQuery.Named

variable {α : Type}

/-- What the first entry of the name holds. -/
def lookup (name : String) : List (String × α) → Option α
  | [] => none
  | (other, value) :: rest => if other = name then some value else lookup name rest

/-- Gives the first entry of the name a new value, or adds an entry at the end. -/
def put (name : String) (value : α) : List (String × α) → List (String × α)
  | [] => [(name, value)]
  | (other, old) :: rest =>
    if other = name then (other, value) :: rest else (other, old) :: put name value rest

/-- Removes every entry of the name. -/
def remove (name : String) (entries : List (String × α)) : List (String × α) :=
  entries.filter fun entry => entry.1 ≠ name

/-- The names, each once. -/
def names (entries : List (String × α)) : List String :=
  (entries.map Prod.fst).eraseDups

/-- Nothing is found among no entries. -/
@[simp] theorem lookup_nil (name : String) : lookup name ([] : List (String × α)) = none := rfl

/-- The first entry is found under its own name. -/
@[simp] theorem lookup_cons_self (name : String) (value : α) (entries : List (String × α)) :
    lookup name ((name, value) :: entries) = some value :=
  if_pos rfl

/-- An entry of another name is passed over. -/
theorem lookup_cons_of_ne {name other : String} (h : name ≠ other) (value : α)
    (entries : List (String × α)) :
    lookup other ((name, value) :: entries) = lookup other entries :=
  if_neg h

/-- What is found under a name is an entry of that name. -/
theorem mem_of_lookup {name : String} {value : α} {entries : List (String × α)}
    (h : lookup name entries = some value) : (name, value) ∈ entries := by
  induction entries with
  | nil => cases h
  | cons entry rest ih =>
    obtain ⟨other, first⟩ := entry
    rw [lookup] at h
    split at h
    · rename_i heq
      cases h
      rw [heq]
      exact List.mem_cons_self
    · exact List.mem_cons_of_mem _ (ih h)

/-- Where no name comes twice, every entry counts. -/
theorem lookup_of_mem {name : String} {value : α} {entries : List (String × α)}
    (hnodup : (entries.map Prod.fst).Nodup) (h : (name, value) ∈ entries) :
    lookup name entries = some value := by
  induction entries with
  | nil => cases h
  | cons entry rest ih =>
    obtain ⟨other, first⟩ := entry
    rw [List.map_cons, List.nodup_cons] at hnodup
    rcases List.mem_cons.mp h with heq | hmem
    · cases heq
      exact lookup_cons_self name value rest
    · have hname : name ∈ rest.map Prod.fst := List.mem_map_of_mem hmem
      have hne : other ≠ name := by
        rintro rfl
        exact hnodup.1 hname
      rw [lookup_cons_of_ne hne]
      exact ih hnodup.2 hmem

/-- What counts is the first of the entries of the name. -/
theorem lookup_eq_head?_filter (name : String) (entries : List (String × α)) :
    lookup name entries = ((entries.filter fun entry => entry.1 = name).head?).map Prod.snd := by
  induction entries with
  | nil => rfl
  | cons entry rest ih =>
    obtain ⟨other, value⟩ := entry
    by_cases h : other = name
    · simp [lookup, h]
    · simp [lookup, h, ih]

/-- Of two lists in a row the first one that has the name counts. -/
theorem lookup_append (name : String) (entries others : List (String × α)) :
    lookup name (entries ++ others) = (lookup name entries).or (lookup name others) := by
  rw [lookup_eq_head?_filter, lookup_eq_head?_filter, lookup_eq_head?_filter, List.filter_append,
    List.head?_append, Option.map_or]

/-- Nothing is found exactly if no entry has the name. -/
theorem lookup_eq_none_iff {name : String} {entries : List (String × α)} :
    lookup name entries = none ↔ ∀ entry ∈ entries, entry.1 ≠ name := by
  rw [lookup_eq_head?_filter, Option.map_eq_none_iff, List.head?_eq_none_iff,
    List.filter_eq_nil_iff]
  simp only [decide_eq_true_iff]

/-- Entries do not count where each is of another name, or behind one of its own name. -/
theorem lookup_of_leftover {name : String} {before leftover after : List (String × α)}
    (h : ∀ entry ∈ leftover, entry.1 = name → name ∈ before.map Prod.fst) :
    lookup name (before ++ leftover ++ after) = lookup name (before ++ after) := by
  rw [lookup_append, lookup_append, lookup_append, Option.or_assoc]
  rcases hbefore : lookup name before with _ | value
  · have hleftover : lookup name leftover = none := by
      rw [lookup_eq_none_iff]
      intro entry hentry heq
      obtain ⟨⟨other, value⟩, hmem, rfl⟩ := List.mem_map.mp (h entry hentry heq)
      exact lookup_eq_none_iff.mp hbefore _ hmem rfl
    rw [hleftover, Option.none_or]
  · rfl

/-- Entries that are changed name by name. -/
theorem lookup_map {β : Type} (change : String → α → β) (name : String)
    (entries : List (String × α)) :
    lookup name (entries.map fun entry => (entry.1, change entry.1 entry.2)) =
      (lookup name entries).map (change name) := by
  induction entries with
  | nil => rfl
  | cons entry rest ih =>
    obtain ⟨other, value⟩ := entry
    rw [List.map_cons, lookup, ih, lookup]
    split
    · rename_i heq
      rw [heq]
      rfl
    · rfl

/-- A name that was put in is found, and the others are left alone. -/
theorem lookup_put (name other : String) (value : α) (entries : List (String × α)) :
    lookup other (put name value entries) = if name = other then some value else lookup other entries := by
  induction entries with
  | nil => simp [put, lookup]
  | cons entry rest ih =>
    obtain ⟨key, old⟩ := entry
    by_cases hk : key = name
    · subst hk
      by_cases ho : key = other <;> simp [put, lookup, ho]
    · by_cases hn : name = other
      · subst hn
        simp [put, lookup, hk, ih]
      · by_cases ho : key = other
        · subst ho
          simp [put, lookup, hk, hn]
        · simp [put, lookup, hk, hn, ho, ih]

end RecordQuery.Named
