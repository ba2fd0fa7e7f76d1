/-!
# Tables

A table assigns values to some keys: entries to the keys of a cache, names to
what they stand for, locks to who is in line for them. Setting a key forgets what
it had before, so no key has two rows.

A table is seen through `get?`: each operation comes with a lemma that says what
the keys have after it (`get?_filter`, `get?_erase`, `get?_set`). The number of
rows counts the keys (`size_erase_add`, `size_set`).
-/

namespace Turnstile

/-- Values under keys. -/
structure Table (κ α : Type) where
  rows : List (κ × α)
  /-- No key has two rows. -/
  nodup_keys : (rows.map Prod.fst).Nodup
deriving Repr, DecidableEq

namespace Table

variable {κ α : Type} [DecidableEq κ]

/-- The table without rows. -/
def empty : Table κ α := ⟨[], List.nodup_nil⟩

instance : Inhabited (Table κ α) := ⟨empty⟩

/-- The number of keys. -/
def size (t : Table κ α) : Nat := t.rows.length

/-- Whether no key has a value. -/
def isEmpty (t : Table κ α) : Bool := t.rows.isEmpty

/-- What a key has. -/
def get? (t : Table κ α) (k : κ) : Option α := t.rows.lookup k

/-- Whether a key has a value. -/
def contains (t : Table κ α) (k : κ) : Bool := (t.get? k).isSome

/-- The values of all keys. -/
def values (t : Table κ α) : List α := t.rows.map Prod.snd

/-- The rows that have a property. -/
def filter (t : Table κ α) (p : κ → α → Bool) : Table κ α :=
  ⟨t.rows.filter fun (k, a) => p k a, t.nodup_keys.sublist (List.filter_sublist.map _)⟩

/-- Forget a key. -/
def erase (t : Table κ α) (k : κ) : Table κ α := t.filter fun l _ => l != k

/-- A key that is forgotten has no row. -/
theorem not_mem_keys_erase (t : Table κ α) (k : κ) : k ∉ (t.erase k).rows.map Prod.fst := by
  simp [erase, filter]

/-- Give a value to a key. -/
def set (t : Table κ α) (k : κ) (a : α) : Table κ α :=
  ⟨(k, a) :: (t.erase k).rows,
    List.nodup_cons.2 ⟨t.not_mem_keys_erase k, (t.erase k).nodup_keys⟩⟩

/-! ### What the keys have -/

/-- A key has the value of its row. -/
theorem get?_eq_some_iff {t : Table κ α} {k : κ} {a : α} : t.get? k = some a ↔ (k, a) ∈ t.rows := by
  obtain ⟨rows, h⟩ := t
  induction rows with
  | nil => simp [get?]
  | cons r rest ih =>
    obtain ⟨l, b⟩ := r
    have hk := (List.nodup_cons.1 h).1
    simp only [get?, List.lookup_cons, List.mem_cons, Prod.mk.injEq]
    by_cases e : k = l
    · subst e
      have hn : (k, a) ∉ rest := fun m => hk (List.mem_map.2 ⟨_, m, rfl⟩)
      simp [hn, eq_comm]
    · have : (k == l) = false := by simp [e]
      simp only [this, e, false_and, false_or]
      exact ih (List.nodup_cons.1 h).2

@[simp] theorem get?_empty (k : κ) : (empty : Table κ α).get? k = none := rfl

theorem get?_filter (t : Table κ α) (p : κ → α → Bool) (k : κ) :
    (t.filter p).get? k = (t.get? k).filter (p k) := by
  ext a
  rw [get?_eq_some_iff, Option.filter_eq_some_iff, get?_eq_some_iff]
  simp [filter]

theorem get?_erase (t : Table κ α) (k l : κ) :
    (t.erase k).get? l = if l = k then none else t.get? l := by
  rw [erase, get?_filter]
  by_cases h : l = k
  · simp [h]
  · have b : (l != k) = true := by simp [h]
    cases t.get? l <;> simp [h, b]

theorem get?_set (t : Table κ α) (k l : κ) (a : α) :
    (t.set k a).get? l = if l = k then some a else t.get? l := by
  have h := t.get?_erase k l
  by_cases e : l = k
  · simp [get?, set, e]
  · have b : (l == k) = false := by simp [e]
    simpa [get?, set, List.lookup_cons, e, b] using h

/-- The keys with a value are those of the rows. -/
theorem contains_iff {t : Table κ α} {k : κ} : t.contains k ↔ k ∈ t.rows.map Prod.fst := by
  simp [contains, Option.isSome_iff_exists, get?_eq_some_iff]

/-! ### The number of keys -/

theorem size_erase_add (t : Table κ α) (k : κ) :
    (t.erase k).size + (if t.contains k then 1 else 0) = t.size := by
  have count : (t.rows.map Prod.fst).count k = if t.contains k then 1 else 0 := by
    rw [t.nodup_keys.count]
    simp [← contains_iff]
  rw [← count, List.count_eq_countP, List.countP_map, size, size, erase, filter,
    ← List.countP_eq_length_filter,
    List.length_eq_countP_add_countP (fun r => r.1 != k) (l := t.rows)]
  congr 1
  apply List.countP_congr
  simp

theorem size_set (t : Table κ α) (k : κ) (a : α) :
    (t.set k a).size = t.size + (if t.contains k then 0 else 1) := by
  have h := t.size_erase_add k
  have e : (t.set k a).size = (t.erase k).size + 1 := by simp [size, set]
  split at h <;> simp_all

end Table

end Turnstile
