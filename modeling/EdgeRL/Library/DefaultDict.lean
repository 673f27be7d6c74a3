import EdgeRL.Library.AssocList

/-!
# Dictionaries with a default value

A read of a missing key inserts the key with the value `0`. The insertion changes what the
dictionary contains, but neither what is read from it later nor the sum of its values: both depend
only on the function `toFun` that the dictionary stands for.
-/

/-- A dictionary with the default value `0`. -/
structure DefaultDict (κ α : Type) where
  entries : AList fun _ : κ => α

namespace DefaultDict

variable {κ α : Type} [DecidableEq κ]

/-- `d[k]`: the value, and the dictionary that the read leaves behind. -/
def read [Zero α] (d : DefaultDict κ α) (k : κ) : α × DefaultDict κ α :=
  match d.entries.lookup k with
  | some a => (a, d)
  | none => (0, ⟨d.entries.insert k 0⟩)

/-- `sum(d.values())`. -/
def sumValues [AddMonoid α] (d : DefaultDict κ α) : α := d.entries.values.sum

/-- What a read of a key returns. -/
def toFun [Zero α] (d : DefaultDict κ α) (k : κ) : α := (d.entries.lookup k).getD 0

/-- A read changes no later read. -/
@[simp]
theorem toFun_read [Zero α] (d : DefaultDict κ α) (k : κ) : (d.read k).2.toFun = d.toFun := by
  unfold read
  cases hk : d.entries.lookup k with
  | some a => rfl
  | none =>
    funext k'
    unfold toFun
    by_cases hk' : k' = k
    · subst hk'
      rw [AList.lookup_insert, hk]
      rfl
    · rw [AList.lookup_insert_ne hk']

/-- The keys that reads have inserted contribute nothing to the sum. -/
theorem sumValues_eq [Fintype κ] [AddCommMonoid α] (d : DefaultDict κ α) :
    d.sumValues = ∑ k, d.toFun k := by
  have hsum := AList.sum_values d.entries fun a => a
  rw [List.map_id'] at hsum
  refine hsum.trans (Finset.sum_congr rfl fun k _ => ?_)
  unfold toFun
  cases d.entries.lookup k <;> rfl

end DefaultDict
