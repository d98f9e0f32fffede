import Mathlib.Data.Int.ModEq
import Mathlib.Data.List.Basic

namespace Scproxy.Fifo

variable {K : Type}

/-- A cache that evicts in order of insertion is described by the log of its
insertions: entry `k` is live while at most `cap` insertions started with it. -/
def Live (cap : Nat) (log : List K) (k : Nat) (d : K) : Prop :=
  log[k]? = some d ∧ log.length ≤ k + cap

/-- A hit leaves the log alone, a miss appends to it. -/
def request [DecidableEq K] (cap : Nat) (log : List K) (d : K) : List K :=
  if d ∈ log.drop (log.length - cap) then log else log ++ [d]

def run [DecidableEq K] (cap : Nat) (calls : List K) : List K := calls.foldl (request cap) []

theorem run_concat [DecidableEq K] (cap : Nat) (calls : List K) (d : K) :
    run cap (calls ++ [d]) = request cap (run cap calls) d := by
  rw [run, List.foldl_append, ← run, List.foldl_cons, List.foldl_nil]

theorem Live.lt {cap k : Nat} {log : List K} {d : K} (h : Live cap log k d) : k < log.length :=
  (List.getElem?_eq_some_iff.mp h.1).1

theorem mem_window_iff {cap : Nat} {log : List K} {d : K} :
    d ∈ log.drop (log.length - cap) ↔ ∃ k, Live cap log k d := by
  rw [List.mem_iff_getElem?]
  constructor
  · rintro ⟨i, hi⟩
    rw [List.getElem?_drop] at hi
    exact ⟨log.length - cap + i, hi, by omega⟩
  · rintro ⟨k, hk, hb⟩
    refine ⟨k - (log.length - cap), ?_⟩
    rw [List.getElem?_drop, show log.length - cap + (k - (log.length - cap)) = k by omega]
    exact hk

/-- An insertion makes exactly one entry leave: the one `cap` places back. -/
theorem live_append_iff {cap k : Nat} {log : List K} {d e : K} (hcap : 0 < cap) :
    Live cap (log ++ [d]) k e ↔
      (k = log.length ∧ e = d) ∨ (Live cap log k e ∧ log.length < k + cap) := by
  unfold Live
  simp only [List.length_append, List.length_singleton]
  rcases lt_trichotomy k log.length with h | h | h
  · rw [List.getElem?_append_left h]
    constructor
    · rintro ⟨he, hb⟩
      exact Or.inr ⟨⟨he, by omega⟩, by omega⟩
    · rintro (⟨hk, _⟩ | ⟨⟨he, _⟩, hb⟩)
      · omega
      · exact ⟨he, by omega⟩
  · subst k
    rw [List.getElem?_concat_length]
    constructor
    · rintro ⟨he, _⟩
      exact Or.inl ⟨rfl, (Option.some.inj he).symm⟩
    · rintro (⟨_, he⟩ | ⟨⟨he, _⟩, _⟩)
      · exact ⟨congrArg some he.symm, by omega⟩
      · simp at he
  · have hnone : (log ++ [d])[k]? = none := by
      rw [List.getElem?_eq_none_iff, List.length_append, List.length_singleton]
      omega
    have hlog : log[k]? = none := List.getElem?_eq_none_iff.mpr (by omega)
    rw [hnone, hlog]
    constructor
    · rintro ⟨he, _⟩
      simp at he
    · rintro (⟨hk, _⟩ | ⟨⟨he, _⟩, _⟩)
      · omega
      · simp at he

/-- Two indices less than `cap` apart that share a slot are the same. -/
theorem index_eq_of_slot_eq {cap j k : Nat} (h : j % cap = k % cap)
    (hj : j < k + cap) (hk : k < j + cap) : j = k := by
  apply Nat.ModEq.eq_of_abs_lt (m := cap) h
  rw [abs_lt]
  omega

/-- A slot that has been used once is never free again. -/
theorem exists_live_of_slot {cap k : Nat} {log : List K} (hcap : 0 < cap) (hk : k < log.length) :
    ∃ j d, Live cap log j d ∧ j % cap = k % cap := by
  have hdiv := Nat.div_add_mod (log.length - 1 - k) cap
  have hmod := Nat.mod_lt (log.length - 1 - k) hcap
  have hj : k + cap * ((log.length - 1 - k) / cap) < log.length := by omega
  refine ⟨k + cap * ((log.length - 1 - k) / cap), log[k + cap * ((log.length - 1 - k) / cap)],
    ⟨List.getElem?_eq_getElem hj, by omega⟩, Nat.add_mul_mod_self_left _ _ _⟩

end Scproxy.Fifo
