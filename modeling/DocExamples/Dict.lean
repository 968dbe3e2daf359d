namespace DocExamples

/-- A finite map from strings, sorted by key with one entry per key. -/
structure Dict (β : Type) where
  entries : List (String × β)
  sorted : entries.Pairwise fun a b => a.1 < b.1
  deriving DecidableEq, Repr

namespace Dict

variable {β : Type}

/-- The map with no entries. -/
def empty : Dict β := ⟨[], .nil⟩

/-- The sorted entries with `key` bound to `value`, replacing an earlier binding. -/
def insertSorted (key : String) (value : β) : List (String × β) → List (String × β)
  | [] => [(key, value)]
  | (k, v) :: rest =>
    if key < k then (key, value) :: (k, v) :: rest
    else if key = k then (key, value) :: rest
    else (k, v) :: insertSorted key value rest

theorem mem_insertSorted {key : String} {value : β} {entries : List (String × β)}
    {entry : String × β} (member : entry ∈ insertSorted key value entries) :
    entry = (key, value) ∨ entry ∈ entries := by
  induction entries with
  | nil => simpa [insertSorted] using member
  | cons head rest ih =>
    obtain ⟨k, v⟩ := head
    simp only [insertSorted] at member
    split at member
    · simpa using member
    · split at member
      · rcases List.mem_cons.mp member with same | later
        · exact Or.inl same
        · exact Or.inr (List.mem_cons_of_mem _ later)
      · rcases List.mem_cons.mp member with same | later
        · exact Or.inr (same ▸ List.mem_cons_self ..)
        · exact (ih later).imp_right (List.mem_cons_of_mem _)

theorem lt_of_not_lt_of_ne {key k : String} (notBelow : ¬ key < k) (other : key ≠ k) :
    k < key := by
  have above : k ≤ key := String.not_lt.mp notBelow
  apply String.not_le.mp
  intro below
  exact other (String.le_antisymm below above)

theorem insertSorted_sorted (key : String) (value : β) {entries : List (String × β)}
    (sorted : entries.Pairwise fun a b => a.1 < b.1) :
    (insertSorted key value entries).Pairwise fun a b => a.1 < b.1 := by
  induction entries with
  | nil => simp [insertSorted]
  | cons head rest ih =>
    obtain ⟨k, v⟩ := head
    obtain ⟨above, restSorted⟩ := List.pairwise_cons.mp sorted
    simp only [insertSorted]
    split
    · rename_i below
      refine List.Pairwise.cons ?_ sorted
      intro entry member
      rcases List.mem_cons.mp member with same | later
      · exact same ▸ below
      · exact String.lt_trans below (above entry later)
    · split
      · rename_i same
        subst same
        exact List.Pairwise.cons (fun entry member => above entry member) restSorted
      · rename_i notBelow other
        refine List.Pairwise.cons ?_ (ih restSorted)
        intro entry member
        rcases mem_insertSorted member with same | old
        · exact same ▸ lt_of_not_lt_of_ne notBelow other
        · exact above entry old

/-- The map with `key` bound to `value`; the last write wins. -/
def insert (d : Dict β) (key : String) (value : β) : Dict β :=
  ⟨insertSorted key value d.entries, insertSorted_sorted key value d.sorted⟩

/-- The value bound to `key`. -/
def get? (d : Dict β) (key : String) : Option β :=
  d.entries.lookup key

/-- The entries in key order. -/
def toList (d : Dict β) : List (String × β) :=
  d.entries

/-- The map of the pairs, inserted in order, so a repeated key keeps its last value. -/
def ofList (pairs : List (String × β)) : Dict β :=
  pairs.foldl (fun d (key, value) => d.insert key value) empty

/-- Whether the map has no entries. -/
def isEmpty (d : Dict β) : Bool :=
  d.entries.isEmpty

/-- The number of entries. -/
def size (d : Dict β) : Nat :=
  d.entries.length

/-- The entries of `d` with those of `other` written over them. -/
def extend (d other : Dict β) : Dict β :=
  other.entries.foldl (fun acc (key, value) => acc.insert key value) d

end Dict

end DocExamples
