import Mathlib.Data.List.Count

namespace Scproxy

/-- The permits of a semaphore are free or with owners, one with each that holds one. -/
def Permits {α : Type} (capacity : Nat) (holds : α → Bool) (free : Nat) (owners : List α) : Prop :=
  free + owners.countP holds = capacity

namespace Permits

variable {α : Type} {capacity free : Nat} {holds : α → Bool} {owners before after : List α}
  {a a' b : α}

theorem none_held : Permits capacity holds capacity [] :=
  Nat.add_zero capacity

theorem countP_middle (before after : List α) (a : α) :
    (before ++ a :: after).countP holds =
      (before ++ after).countP holds + if holds a then 1 else 0 := by
  rw [List.countP_append, List.countP_append, List.countP_cons]
  omega

/-- What one owner has and what the others have. -/
theorem filterMap_middle {β : Type} (f : α → Option β) (before after : List α) (a : α) :
    ((before ++ a :: after).filterMap f).Perm ((f a).toList ++ (before ++ after).filterMap f) := by
  have hhead : (a :: (before ++ after)).filterMap f =
      (f a).toList ++ (before ++ after).filterMap f := by
    rw [List.filterMap_cons]
    cases f a with
    | none => rfl
    | some b => rfl
  rw [← hhead]
  exact List.perm_middle.filterMap _

theorem countP_le (h : Permits capacity holds free owners) :
    owners.countP holds ≤ capacity - free := by
  unfold Permits at h
  omega

/-- A new owner has no permit. -/
theorem join (h : Permits capacity holds free owners) (ha : holds a = false) :
    Permits capacity holds free (owners ++ [a]) := by
  unfold Permits at h ⊢
  rw [countP_middle owners [] a, if_neg (by simp [ha]), List.append_nil]
  exact h

theorem leave (h : Permits capacity holds free (before ++ a :: after)) (ha : holds a = false) :
    Permits capacity holds free (before ++ after) := by
  unfold Permits at h ⊢
  rw [countP_middle, if_neg (by simp [ha])] at h
  exact h

theorem keep (h : Permits capacity holds free (before ++ a :: after))
    (ha : holds a' = holds a) : Permits capacity holds free (before ++ a' :: after) := by
  unfold Permits at h ⊢
  rw [countP_middle] at h ⊢
  rw [ha]
  exact h

theorem acquire (h : Permits capacity holds (free + 1) (before ++ a :: after))
    (ha : holds a = false) (ha' : holds a' = true) :
    Permits capacity holds free (before ++ a' :: after) := by
  unfold Permits at h ⊢
  rw [countP_middle, if_neg (by simp [ha])] at h
  rw [countP_middle, if_pos ha']
  omega

theorem release (h : Permits capacity holds free (before ++ a :: after)) (ha : holds a = true)
    (ha' : holds a' = false) : Permits capacity holds (free + 1) (before ++ a' :: after) := by
  unfold Permits at h ⊢
  rw [countP_middle, if_pos ha] at h
  rw [countP_middle, if_neg (by simp [ha'])]
  omega

/-- A permit is handed to a new owner. -/
theorem hand (h : Permits capacity holds free (before ++ a :: after)) (ha : holds a = true)
    (ha' : holds a' = false) (hb : holds b = true) :
    Permits capacity holds free (before ++ a' :: after ++ [b]) := by
  unfold Permits at h ⊢
  rw [countP_middle, if_pos ha] at h
  rw [countP_middle _ [] b, if_pos hb, List.append_nil, countP_middle, if_neg (by simp [ha'])]
  omega

theorem eq_capacity (h : Permits capacity holds free owners)
    (hnone : ∀ a ∈ owners, holds a = false) : free = capacity := by
  unfold Permits at h
  have hzero : owners.countP holds = 0 := List.countP_eq_zero.mpr fun a ha => by simp [hnone a ha]
  omega

end Permits

end Scproxy
