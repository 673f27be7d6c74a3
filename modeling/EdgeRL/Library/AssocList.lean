import Mathlib

/-!
# Association lists as dictionaries

Mathlib's `AList` with a constant value type is used as a dictionary that is iterated in the
order of insertion: `AList.insert` puts a new key in front, so `items` lists the entries from
the back. `sum_entries` turns a sum over the entries into a sum over all keys, which is the form
in which an insertion or a removal changes one term.
-/

namespace AList

variable {κ α M : Type*}

/-- The entries in the order in which their keys were inserted. -/
def items (d : AList fun _ : κ => α) : List (κ × α) :=
  (d.entries.map fun p => (p.1, p.2)).reverse

/-- The values in the order in which their keys were inserted. -/
def values (d : AList fun _ : κ => α) : List α := d.items.map Prod.snd

@[simp]
theorem items_empty : (∅ : AList fun _ : κ => α).items = [] := rfl

/-- The items of a dictionary are its entries. -/
theorem mem_items [DecidableEq κ] {d : AList fun _ : κ => α} {k : κ} {a : α} :
    (k, a) ∈ d.items ↔ d.lookup k = some a := by
  rw [items, List.mem_reverse, List.mem_map, ← Option.mem_def, mem_lookup_iff]
  constructor
  · rintro ⟨⟨k', a'⟩, hmem, heq⟩
    obtain ⟨rfl, rfl⟩ := Prod.mk.inj heq
    exact hmem
  · exact fun hmem => ⟨⟨k, a⟩, hmem, rfl⟩

/-- The values of a dictionary are those of its entries. -/
theorem mem_values [DecidableEq κ] {d : AList fun _ : κ => α} {a : α} :
    a ∈ d.values ↔ ∃ k, d.lookup k = some a := by
  rw [values, List.mem_map]
  constructor
  · rintro ⟨⟨k, a'⟩, hmem, rfl⟩
    exact ⟨k, mem_items.1 hmem⟩
  · rintro ⟨k, hk⟩
    exact ⟨(k, a), mem_items.2 hk, rfl⟩

/-- Every key occurs once. -/
theorem nodup_items_keys (d : AList fun _ : κ => α) : (d.items.map Prod.fst).Nodup := by
  rw [items, List.map_reverse, List.nodup_reverse, List.map_map]
  exact d.nodupKeys

/-- A new key comes last. -/
theorem items_insert_of_notMem [DecidableEq κ] {d : AList fun _ : κ => α} {k : κ} (a : α)
    (hk : k ∉ d) : (d.insert k a).items = d.items ++ [(k, a)] := by
  rw [items, entries_insert_of_notMem hk, List.map_cons, List.reverse_cons]
  rfl

/-- The keys as a finite set. -/
def keySet [DecidableEq κ] (d : AList fun _ : κ => α) : Finset κ := d.keys.toFinset

/-- The set of the keys. -/
@[simp]
theorem mem_keySet [DecidableEq κ] {d : AList fun _ : κ => α} {k : κ} : k ∈ d.keySet ↔ k ∈ d := by
  rw [keySet, List.mem_toFinset, mem_keys]

@[simp]
theorem keySet_empty [DecidableEq κ] : (∅ : AList fun _ : κ => α).keySet = ∅ := rfl

/-- A key that is inserted. -/
theorem keySet_insert [DecidableEq κ] (d : AList fun _ : κ => α) (k : κ) (a : α) :
    (d.insert k a).keySet = Insert.insert k d.keySet := by
  ext k'
  simp

/-- A key that is erased. -/
theorem keySet_erase [DecidableEq κ] (d : AList fun _ : κ => α) (k : κ) :
    (d.erase k).keySet = d.keySet.erase k := by
  ext k'
  simp

/-- Keep the entries whose value satisfies `p`. -/
def filterValues (d : AList fun _ : κ => α) (p : α → Bool) : AList fun _ : κ => α where
  entries := d.entries.filter fun e => p e.2
  nodupKeys := d.nodupKeys.sublist List.filter_sublist

/-- Nothing is filtered out when all values are kept. -/
theorem filterValues_eq_self {d : AList fun _ : κ => α} {p : α → Bool}
    (h : ∀ a ∈ d.values, p a = true) : d.filterValues p = d := by
  refine AList.ext (List.filter_eq_self.2 fun e he => h e.2 ?_)
  rw [values, items, List.map_reverse, List.mem_reverse, List.map_map]
  exact List.mem_map.2 ⟨e, he, rfl⟩

/-- A sum over the entries is a sum over all keys, with nothing at the absent ones. -/
theorem sum_entries [DecidableEq κ] [Fintype κ] [AddCommMonoid M]
    (d : AList fun _ : κ => α) (f : κ → α → M) :
    (d.entries.map fun p => f p.1 p.2).sum = ∑ k, (d.lookup k).elim 0 (f k) := by
  induction d using AList.insertRec with
  | H0 => simp
  | IH k a d hk ih =>
    rw [entries_insert_of_notMem hk, List.map_cons, List.sum_cons, ih]
    have hrest : ∀ k' ∈ Finset.univ.erase k,
        ((d.insert k a).lookup k').elim 0 (f k') = (d.lookup k').elim 0 (f k') := by
      intro k' hk'
      rw [lookup_insert_ne (Finset.ne_of_mem_erase hk')]
    rw [← Finset.add_sum_erase _ _ (Finset.mem_univ k),
      ← Finset.add_sum_erase _ (fun k' => ((d.insert k a).lookup k').elim 0 (f k'))
        (Finset.mem_univ k), Finset.sum_congr rfl hrest, lookup_insert, lookup_eq_none.2 hk]
    simp

/-- The same for a sum that only reads the values, in insertion order. -/
theorem sum_values [DecidableEq κ] [Fintype κ] [AddCommMonoid M]
    (d : AList fun _ : κ => α) (f : α → M) :
    (d.values.map f).sum = ∑ k, (d.lookup k).elim 0 f := by
  rw [← sum_entries d fun _ => f, values, items, List.map_map, List.map_reverse,
    List.sum_reverse, List.map_map]
  rfl

/-- The number of entries is the number of keys that are present. -/
theorem length_entries [DecidableEq κ] [Fintype κ] (d : AList fun _ : κ => α) :
    d.entries.length = ∑ k, if (d.lookup k).isSome then 1 else 0 := by
  have hsum := sum_entries d fun _ _ => 1
  rw [List.map_const', List.sum_replicate, smul_eq_mul, mul_one] at hsum
  rw [hsum]
  refine Finset.sum_congr rfl fun k _ => ?_
  cases d.lookup k <;> rfl

end AList
