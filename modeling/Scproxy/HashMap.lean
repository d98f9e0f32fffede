import Mathlib.Data.List.AList

namespace Scproxy

/-- A finite map. Only lookups and the number of entries are observed, so an
association list with distinct keys stands for a hash table. -/
abbrev HashMap (K V : Type) := AList fun _ : K => V

namespace HashMap

variable {K V : Type} [DecidableEq K]

def len (m : HashMap K V) : Nat := m.entries.length

theorem lookup_insert_eq_ite (m : HashMap K V) (k k' : K) (v : V) :
    (m.insert k v).lookup k' = if k' = k then some v else m.lookup k' := by
  by_cases h : k' = k
  · subst k'
    rw [if_pos rfl, AList.lookup_insert]
  · rw [if_neg h, AList.lookup_insert_ne h]

theorem lookup_erase_eq_ite (m : HashMap K V) (k k' : K) :
    (m.erase k).lookup k' = if k' = k then none else m.lookup k' := by
  by_cases h : k' = k
  · subst k'
    rw [if_pos rfl, AList.lookup_erase]
  · rw [if_neg h, AList.lookup_erase_ne h]

theorem erase_insert_erase (m : HashMap K V) (k : K) (v : V) :
    ((m.erase k).insert k v).erase k = m.erase k := by
  have hfresh : k ∉ m.erase k := by
    rw [AList.mem_erase]
    simp
  apply AList.ext
  show List.kerase k ((m.erase k).insert k v).entries = _
  rw [AList.entries_insert_of_notMem hfresh]
  exact List.kerase_cons_eq rfl

theorem len_insert_of_fresh {m : HashMap K V} {k : K} (h : m.lookup k = none) (v : V) :
    len (m.insert k v) = len m + 1 := by
  rw [len, AList.entries_insert_of_notMem (AList.lookup_eq_none.mp h), List.length_cons, len]

/-- `HashMap::retain`. -/
def retain (keep : K → V → Bool) (m : HashMap K V) : HashMap K V :=
  ⟨m.entries.filter fun entry => keep entry.1 entry.2,
    m.nodupKeys.sublist List.filter_sublist⟩

theorem dlookup_filter (keep : K → V → Bool) (k : K) {entries : List (Sigma fun _ : K => V)}
    (hnodup : entries.NodupKeys) :
    (entries.filter fun entry => keep entry.1 entry.2).dlookup k =
      (entries.dlookup k).filter (keep k) := by
  induction entries with
  | nil => rfl
  | cons entry entries ih =>
    obtain ⟨k', v⟩ := entry
    obtain ⟨hfresh, hrest⟩ := List.nodupKeys_cons.mp hnodup
    rw [List.filter_cons]
    by_cases hk : k = k'
    · subst hk
      rw [List.dlookup_cons_eq]
      cases hkeep : keep k v with
      | true => rw [if_pos rfl, List.dlookup_cons_eq, Option.filter_some_pos hkeep]
      | false =>
        have hnone : entries.dlookup k = none := List.dlookup_eq_none.mpr hfresh
        rw [if_neg (by simp), ih hrest, hnone, Option.filter_some_neg (by simp [hkeep])]
        rfl
    · rw [List.dlookup_cons_ne _ _ hk]
      split
      · rw [List.dlookup_cons_ne _ _ hk, ih hrest]
      · rw [ih hrest]

theorem lookup_retain (keep : K → V → Bool) (m : HashMap K V) (k : K) :
    (m.retain keep).lookup k = (m.lookup k).filter (keep k) :=
  dlookup_filter keep k m.nodupKeys

end HashMap

end Scproxy
