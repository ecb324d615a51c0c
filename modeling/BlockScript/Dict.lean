/-!
# Dictionaries

A finite map from texts, kept as a list in the order of its keys. Two dictionaries that answer every
key alike are equal, so equality of environments, queries and arguments is equality of what they hold.
-/
namespace BlockScript
set_option autoImplicit false

structure Dict (α : Type) where
  entries : List (String × α)
  sorted : entries.Pairwise fun a b => a.1 < b.1
deriving DecidableEq

namespace Dict

variable {α : Type}

theorem lt_of_not_lt_of_ne {a b : String} (h : ¬ a < b) (hne : a ≠ b) : b < a := by
  by_cases hb : b < a
  · exact hb
  · exact absurd (String.le_antisymm (String.not_lt.1 hb) (String.not_lt.1 h)) hne

/-- Puts an entry at its place; an entry of the same key gives way. -/
def insertEntry (key : String) (value : α) : List (String × α) → List (String × α)
  | [] => [(key, value)]
  | (k, v) :: rest =>
    if key < k then (key, value) :: (k, v) :: rest
    else if key = k then (key, value) :: rest
    else (k, v) :: insertEntry key value rest

theorem mem_insertEntry {key : String} {value : α} {entry : String × α}
    {entries : List (String × α)} (h : entry ∈ insertEntry key value entries) :
    entry = (key, value) ∨ entry ∈ entries := by
  induction entries with
  | nil => exact .inl (List.mem_singleton.1 h)
  | cons head rest ih =>
    obtain ⟨k, v⟩ := head
    rw [insertEntry] at h
    split at h
    · exact List.mem_cons.1 h
    · split at h
      · rcases List.mem_cons.1 h with h | h
        · exact .inl h
        · exact .inr (List.mem_cons_of_mem _ h)
      · rcases List.mem_cons.1 h with h | h
        · exact .inr (h ▸ List.mem_cons_self)
        · rcases ih h with h | h
          · exact .inl h
          · exact .inr (List.mem_cons_of_mem _ h)

theorem insertEntry_sorted (key : String) (value : α) {entries : List (String × α)}
    (h : entries.Pairwise fun a b => a.1 < b.1) :
    (insertEntry key value entries).Pairwise fun a b => a.1 < b.1 := by
  induction entries with
  | nil => exact List.pairwise_singleton _ _
  | cons head rest ih =>
    obtain ⟨k, v⟩ := head
    obtain ⟨hhead, hrest⟩ := List.pairwise_cons.1 h
    rw [insertEntry]
    split
    · next hlt =>
      refine List.pairwise_cons.2 ⟨fun entry hentry => ?_, h⟩
      rcases List.mem_cons.1 hentry with rfl | hentry
      · exact hlt
      · exact String.lt_trans hlt (hhead entry hentry)
    · next hlt =>
      split
      · next heq =>
        subst heq
        exact List.pairwise_cons.2 ⟨hhead, hrest⟩
      · next hne =>
        refine List.pairwise_cons.2 ⟨fun entry hentry => ?_, ih hrest⟩
        rcases mem_insertEntry hentry with rfl | hentry
        · exact lt_of_not_lt_of_ne hlt hne
        · exact hhead entry hentry

def empty : Dict α := ⟨[], .nil⟩

instance : Inhabited (Dict α) := ⟨empty⟩

def insert (dict : Dict α) (key : String) (value : α) : Dict α :=
  ⟨insertEntry key value dict.entries, insertEntry_sorted key value dict.sorted⟩

/-- Of entries with one key the last stays. -/
def ofList (entries : List (String × α)) : Dict α :=
  entries.foldl (fun dict (key, value) => dict.insert key value) empty

def get? (dict : Dict α) (key : String) : Option α := dict.entries.lookup key

def contains (dict : Dict α) (key : String) : Bool := (dict.get? key).isSome

/-- The keys in order. -/
def keys (dict : Dict α) : List String := dict.entries.map Prod.fst

def isEmpty (dict : Dict α) : Bool := dict.entries.isEmpty

theorem lookup_cons_if (key : String) (value : α) (entries : List (String × α)) (k : String) :
    ((key, value) :: entries).lookup k = if k = key then some value else entries.lookup k := by
  by_cases h : k = key
  · rw [if_pos h, h, List.lookup_cons_self]
  · rw [if_neg h, List.lookup_cons, beq_false_of_ne h]

theorem lookup_insertEntry (key : String) (value : α) (entries : List (String × α)) (k : String) :
    (insertEntry key value entries).lookup k =
      if k = key then some value else entries.lookup k := by
  induction entries with
  | nil => exact lookup_cons_if key value [] k
  | cons head rest ih =>
    obtain ⟨k', v⟩ := head
    rw [insertEntry]
    split
    · exact lookup_cons_if key value _ k
    · split
      · next heq =>
        subst heq
        rw [lookup_cons_if, lookup_cons_if]
        by_cases h : k = key
        · rw [if_pos h, if_pos h]
        · rw [if_neg h, if_neg h, if_neg h]
      · next hne =>
        rw [lookup_cons_if, lookup_cons_if, ih]
        by_cases h : k = key
        · rw [if_pos h, if_neg (h ▸ hne), if_pos h]
        · rw [if_neg h, if_neg h]

@[simp]
theorem get?_empty (key : String) : (empty : Dict α).get? key = none := rfl

theorem get?_insert (dict : Dict α) (key : String) (value : α) (k : String) :
    (dict.insert key value).get? k = if k = key then some value else dict.get? k :=
  lookup_insertEntry key value dict.entries k

@[simp]
theorem get?_insert_self (dict : Dict α) (key : String) (value : α) :
    (dict.insert key value).get? key = some value := by
  rw [get?_insert, if_pos rfl]

theorem get?_insert_of_ne (dict : Dict α) (value : α) {key k : String} (h : k ≠ key) :
    (dict.insert key value).get? k = dict.get? k := by
  rw [get?_insert, if_neg h]

end Dict

end BlockScript
