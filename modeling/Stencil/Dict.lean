/-! Finite maps as lists of entries, which insertion keeps sorted by key. -/

namespace Stencil

/-- Entries sorted by key. Strings are ordered by their characters' code points. -/
abbrev Dict (α : Type) := List (String × α)

namespace Dict

variable {α : Type}

def find? (d : Dict α) (key : String) : Option α := d.lookup key

def contains (d : Dict α) (key : String) : Bool := (d.find? key).isSome

/-- Puts a value in its place, where it replaces that of an equal key. -/
def insert (key : String) (value : α) : Dict α → Dict α
  | [] => [(key, value)]
  | (k, v) :: rest =>
    if key < k then (key, value) :: (k, v) :: rest
    else if key = k then (key, value) :: rest
    else (k, v) :: insert key value rest

def erase (d : Dict α) (key : String) : Dict α := d.filter fun (k, _) => k != key

def keys (d : Dict α) : List String := d.map Prod.fst

def values (d : Dict α) : List α := d.map Prod.snd

/-- The entries in turn, so that the last of equal keys counts. -/
def ofList (entries : List (String × α)) : Dict α :=
  entries.foldl (fun d (key, value) => insert key value d) []

@[simp] theorem find?_insert_self (d : Dict α) (key : String) (value : α) :
    find? (insert key value d) key = some value := by
  induction d with
  | nil => simp [insert, find?]
  | cons e d ih =>
    obtain ⟨k, v⟩ := e
    rw [insert]
    split
    · simp [find?]
    · split
      · simp [find?]
      · next h =>
        have hk : (key == k) = false := by simpa using h
        simpa [find?, List.lookup_cons, hk] using ih

theorem find?_insert_of_ne (d : Dict α) {key other : String} (value : α) (h : other ≠ key) :
    find? (insert key value d) other = find? d other := by
  have hk : (other == key) = false := by simpa using h
  induction d with
  | nil => simp [insert, find?, List.lookup_cons, hk]
  | cons e d ih =>
    obtain ⟨k, v⟩ := e
    rw [insert]
    split
    · simp [find?, List.lookup_cons, hk]
    · split
      · next he =>
        subst he
        simp [find?, List.lookup_cons, hk]
      · by_cases ho : other == k
        · simp [find?, List.lookup_cons, ho]
        · have ho : (other == k) = false := by simpa using ho
          simpa [find?, List.lookup_cons, ho] using ih

theorem mem_of_find? {key : String} {value : α} {d : Dict α} (h : find? d key = some value) :
    (key, value) ∈ d := by
  obtain ⟨before, after, rfl, -⟩ := List.lookup_eq_some_iff.mp h
  exact List.mem_append_right _ List.mem_cons_self

theorem mem_of_mem_insert {key : String} {value : α} {e : String × α} :
    {d : Dict α} → e ∈ insert key value d → e = (key, value) ∨ e ∈ d
  | [], h => .inl (List.mem_singleton.mp h)
  | (k, v) :: rest, h => by
      rw [insert] at h
      split at h
      · exact List.mem_cons.mp h
      · split at h
        · exact (List.mem_cons.mp h).imp_right (List.mem_cons_of_mem _)
        · rcases List.mem_cons.mp h with he | h
          · exact .inr (he ▸ List.mem_cons_self)
          · exact (mem_of_mem_insert h).imp_right (List.mem_cons_of_mem _)

theorem mem_keys_insert {key k : String} {value : α} : {d : Dict α} →
    (k ∈ keys (insert key value d) ↔ k = key ∨ k ∈ keys d)
  | [] => by simp [insert, keys]
  | (k', v) :: rest => by
      have ih : k ∈ keys (insert key value rest) ↔ k = key ∨ k ∈ keys rest := mem_keys_insert
      unfold keys at ih ⊢
      rw [insert]
      split
      · simp
      · split
        · rename_i he
          subst he
          simp
        · simp only [List.map_cons, List.mem_cons, ih]
          exact or_left_comm

theorem contains_iff {d : Dict α} {key : String} : contains d key = true ↔ key ∈ keys d := by
  simp [contains, find?, keys, List.lookup_isSome_iff]

/-- The keys of several maps without repetition, in order. -/
def union (names : List (List String)) : List String := keys (ofList (names.flatten.map fun n => (n, ())))

end Dict

end Stencil
