import Mathlib.Data.List.Dedup
import Mathlib.Data.Set.Card
import Mathlib.Logic.Relation

namespace Scproxy

/-- One item stands before another in a list. -/
def Precedes {α : Type} (l : List α) (a b : α) : Prop :=
  ∃ front back, l = front ++ back ∧ a ∈ front ∧ b ∈ back

theorem Precedes.trans {α : Type} {l : List α} {a b c : α} (hnodup : l.Nodup)
    (hab : Precedes l a b) (hbc : Precedes l b c) : Precedes l a c := by
  obtain ⟨front, back, rfl, ha, hb⟩ := hab
  obtain ⟨front', back', heq, hb', hc⟩ := hbc
  refine ⟨front', back', heq, ?_, hc⟩
  rcases List.append_eq_append_iff.mp heq with ⟨middle, rfl, _⟩ | ⟨middle, rfl, _⟩
  · exact List.mem_append_left _ ha
  · have hboth := List.disjoint_of_nodup_append hnodup (List.mem_append_left _ hb') hb
    exact hboth.elim

/-- A search from a root that keeps a stack of the items to be looked at, the top
first, and the items found so far, in this order. -/
structure StackSearch {α : Type} [DecidableEq α] (root : α) where
  pending : List α
  seen : Finset α
  found : List α
  mem_seen : ∀ a, a ∈ seen ↔ a = root ∨ a ∈ found
  nodup : found.Nodup
  pending_seen : ∀ a ∈ pending, a ∈ seen

namespace StackSearch

variable {α : Type} [DecidableEq α] {root : α}

def start (root : α) : StackSearch root where
  pending := [root]
  seen := {root}
  found := []
  mem_seen a := by simp
  nodup := List.nodup_nil
  pending_seen a h := by simpa using h

/-- An item that has not been seen goes on the stack. -/
def offer (s : StackSearch root) (a : α) : StackSearch root :=
  if h : a ∈ s.seen then s
  else
    { pending := a :: s.pending
      seen := insert a s.seen
      found := s.found ++ [a]
      mem_seen := fun b => by
        rw [Finset.mem_insert, s.mem_seen, List.mem_append, List.mem_singleton, or_comm, or_assoc]
      nodup := by
        have hnew : a ∉ s.found := fun hmem => h ((s.mem_seen a).mpr (Or.inr hmem))
        rw [← List.concat_eq_append]
        exact List.Nodup.concat hnew s.nodup
      pending_seen := fun b hb => by
        rcases List.mem_cons.mp hb with rfl | hb
        · exact Finset.mem_insert_self _ _
        · exact Finset.mem_insert_of_mem (s.pending_seen b hb) }

/-- The stack without its top. -/
def pop (s : StackSearch root) : StackSearch root :=
  { s with
    pending := s.pending.tail
    pending_seen := fun a ha => s.pending_seen a (List.mem_of_mem_tail ha) }

/-- The items on the stack and those that may still get there. -/
noncomputable def weight (s : StackSearch root) : Nat :=
  s.pending.length + { a | a ∉ s.seen }.ncard

theorem weight_pop {s : StackSearch root} (h : s.pending ≠ []) : s.pop.weight < s.weight := by
  have := List.length_pos_iff.mpr h
  simp only [weight, pop, List.length_tail]
  omega

theorem weight_offer [Finite α] (s : StackSearch root) (a : α) : (s.offer a).weight ≤ s.weight := by
  unfold offer
  split
  next => exact Nat.le_refl _
  next h =>
    have hless : { b | b ∉ insert a s.seen }.ncard < { b | b ∉ s.seen }.ncard := by
      refine Set.ncard_lt_ncard ⟨?_, fun hsub => ?_⟩ (Set.toFinite _)
      · exact fun b hb hmem => hb (Finset.mem_insert_of_mem hmem)
      · exact hsub h (Finset.mem_insert_self _ _)
    simp only [weight, List.length_cons]
    omega

theorem weight_foldl_offer [Finite α] (items : List α) (s : StackSearch root) :
    (items.foldl offer s).weight ≤ s.weight := by
  induction items generalizing s with
  | nil => exact Nat.le_refl _
  | cons a items ih => exact (ih (s.offer a)).trans (s.weight_offer a)

theorem mem_seen_foldl_offer {s : StackSearch root} {items : List α} {a : α} :
    a ∈ (items.foldl offer s).seen ↔ a ∈ s.seen ∨ a ∈ items := by
  induction items generalizing s with
  | nil => simp
  | cons b items ih =>
    rw [List.foldl_cons, ih, List.mem_cons, ← or_assoc]
    unfold offer
    split
    next hb =>
      have habsorb : a = b → a ∈ s.seen := fun heq => heq ▸ hb
      tauto
    next hb =>
      rw [Finset.mem_insert]
      tauto

theorem mem_pending_foldl_offer {s : StackSearch root} {items : List α} {a : α}
    (h : a ∈ s.pending ∨ a ∈ items ∧ a ∉ s.seen) : a ∈ (items.foldl offer s).pending := by
  induction items generalizing s with
  | nil => simpa using h
  | cons b items ih =>
    apply ih
    unfold offer
    split
    next hb =>
      rcases h with h | ⟨hmem, hnew⟩
      · exact Or.inl h
      · rcases List.mem_cons.mp hmem with rfl | hmem
        · exact absurd hb hnew
        · exact Or.inr ⟨hmem, hnew⟩
    next hb =>
      rcases h with h | ⟨hmem, hnew⟩
      · exact Or.inl (List.mem_cons_of_mem _ h)
      · by_cases heq : a = b
        · exact Or.inl (heq ▸ List.mem_cons_self ..)
        · have hitems := (List.mem_cons.mp hmem).resolve_left heq
          exact Or.inr ⟨hitems, fun hins => hnew ((Finset.mem_insert.mp hins).resolve_left heq)⟩

/-- What holds of the items that have been looked at, and of the top of the stack, holds of all
that have been looked at one turn later. -/
theorem forall_visited_foldl_offer {s : StackSearch root} {a : α} {rest items : List α}
    {P : α → Prop} (hpending : s.pending = a :: rest) (h : ∀ b ∈ s.seen, b ∉ s.pending → P b)
    (ha : P a) :
    ∀ b ∈ (items.foldl offer s.pop).seen, b ∉ (items.foldl offer s.pop).pending → P b := by
  intro b hseen hb
  by_cases heq : b = a
  · exact heq ▸ ha
  · have hold : b ∈ s.seen := by
      by_contra hnew
      rcases mem_seen_foldl_offer.mp hseen with hseen | hitem
      · exact hnew hseen
      · exact hb (mem_pending_foldl_offer (Or.inr ⟨hitem, hnew⟩))
    have hdone : b ∉ s.pending := by
      rw [hpending, List.mem_cons, not_or]
      refine ⟨heq, fun hrest => hb (mem_pending_foldl_offer (Or.inl ?_))⟩
      simpa [pop, hpending] using hrest
    exact h b hold hdone

/-- The items of a listing other than the root, without repetition. The one that is
listed first comes last. -/
def order (root : α) (listed : List α) : List α := ((listed.filter (· ≠ root)).reverse).dedup

theorem nodup_order (listed : List α) : (order root listed).Nodup := List.nodup_dedup _

theorem mem_order {listed : List α} {a : α} : a ∈ order root listed ↔ a ∈ listed ∧ a ≠ root := by
  simp [order]

theorem order_concat (listed : List α) (a : α) :
    order root (listed ++ [a]) =
      if a = root ∨ a ∈ listed then order root listed else a :: order root listed := by
  unfold order
  rw [List.filter_append]
  by_cases hroot : a = root
  · simp [hroot]
  · have hone : [a].filter (· ≠ root) = [a] := by simp [hroot]
    rw [hone, List.reverse_append, List.reverse_singleton, List.singleton_append, List.dedup_cons]
    simp [hroot]

theorem found_offer {s : StackSearch root} {listed : List α}
    (h : s.found.reverse = order root listed) (a : α) :
    (s.offer a).found.reverse = order root (listed ++ [a]) := by
  have hmem : a ∈ s.seen ↔ a = root ∨ a ∈ listed := by
    rw [s.mem_seen, ← List.mem_reverse, h, mem_order]
    by_cases hroot : a = root
    · simp [hroot]
    · simp [hroot]
  rw [order_concat]
  unfold offer
  split
  next hseen => rw [if_pos (hmem.mp hseen), h]
  next hseen => rw [if_neg (mt hmem.mpr hseen), List.reverse_append, h, List.reverse_singleton,
      List.singleton_append]

theorem found_foldl_offer {s : StackSearch root} {listed : List α}
    (h : s.found.reverse = order root listed) (items : List α) :
    (items.foldl offer s).found.reverse = order root (listed ++ items) := by
  induction items generalizing s listed with
  | nil => rw [List.append_nil, List.foldl_nil, h]
  | cons a items ih =>
    rw [List.foldl_cons, ih (found_offer h a), List.append_assoc, List.singleton_append]

/-- What is listed later stands earlier. -/
theorem precedes_order {front back : List α} {a b : α} (ha : a ∈ back) (hnew : a ∉ front)
    (haroot : a ≠ root) (hb : b ∈ front) (hbroot : b ≠ root) :
    Precedes (order root (front ++ back)) a b := by
  have hsplit : order root front <:+ order root (front ++ back) := by
    unfold order
    rw [List.filter_append, List.reverse_append, List.dedup_append]
    exact List.suffix_union_right _ _
  obtain ⟨newer, hnewer⟩ := hsplit
  refine ⟨newer, order root front, hnewer.symm, ?_, mem_order.mpr ⟨hb, hbroot⟩⟩
  have hall : a ∈ newer ++ order root front := by
    rw [hnewer]
    exact mem_order.mpr ⟨List.mem_append_right _ ha, haroot⟩
  rcases List.mem_append.mp hall with hmem | hmem
  · exact hmem
  · exact absurd (mem_order.mp hmem).1 hnew

/-- A closed list of reachable items has all of them. -/
theorem mem_order_iff_reachable {R : α → α → Prop} {listed : List α}
    (hsound : ∀ a ∈ listed, Relation.TransGen R root a)
    (hclosed : ∀ a, a = root ∨ a ∈ listed → ∀ b, R a b → b ∈ listed) {a : α} :
    a ∈ order root listed ↔ Relation.TransGen R root a ∧ a ≠ root := by
  have hcomplete : Relation.TransGen R root a → a ∈ listed := by
    intro h
    induction h with
    | single h => exact hclosed root (Or.inl rfl) _ h
    | tail _ h ih => exact hclosed _ (Or.inr ih) _ h
  rw [mem_order]
  constructor
  · rintro ⟨hmem, hroot⟩
    exact ⟨hsound a hmem, hroot⟩
  · rintro ⟨hreach, hroot⟩
    exact ⟨hcomplete hreach, hroot⟩

end StackSearch

end Scproxy
