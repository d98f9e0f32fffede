import Mathlib.Data.List.Basic

namespace Scproxy

/-- The reasons for which the modelled code can panic. -/
inductive Panic
  | indexOutOfBounds
  | allBranchesDisabled
  deriving DecidableEq

variable {α : Type}

def index (data : List α) (i : Nat) : Except Panic α :=
  match data[i]? with
  | some a => .ok a
  | none => .error .indexOutOfBounds

/-- `data[start..stop]`, which panics unless the range lies in the slice. -/
def slice (data : List α) (start stop : Nat) : Except Panic (List α) :=
  if start ≤ stop ∧ stop ≤ data.length then .ok ((data.drop start).take (stop - start))
  else .error .indexOutOfBounds

theorem slice_eq {data : List α} {start stop : Nat} (h : start ≤ stop)
    (hstop : stop ≤ data.length) :
    slice data start stop = .ok ((data.drop start).take (stop - start)) :=
  if_pos ⟨h, hstop⟩

theorem index_eq_ok {data : List α} {i : Nat} {a : α} :
    index data i = .ok a ↔ data[i]? = some a := by
  unfold index
  cases data[i]? with
  | none => simp
  | some b => simp

theorem index_of_drop {data rest : List α} {i : Nat} {a : α} (h : data.drop i = a :: rest) :
    index data i = .ok a := by
  rw [index_eq_ok, ← Nat.add_zero i, ← List.getElem?_drop, h, List.getElem?_cons_zero]

theorem index_of_lt {data : List α} {i : Nat} (h : i < data.length) :
    ∃ a, index data i = .ok a :=
  ⟨data[i], index_eq_ok.mpr (List.getElem?_eq_getElem h)⟩

theorem slice_of_drop {data bytes rest : List α} {start : Nat}
    (h : data.drop start = bytes ++ rest) (hb : start ≤ data.length) :
    slice data start (start + bytes.length) = .ok bytes := by
  have hlen := congrArg List.length h
  simp only [List.length_drop, List.length_append] at hlen
  rw [slice, if_pos ⟨by omega, by omega⟩, h, Nat.add_sub_cancel_left, List.take_left]

end Scproxy
