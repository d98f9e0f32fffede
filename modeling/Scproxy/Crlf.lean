import Mathlib.Data.List.Infix
import Mathlib.Data.List.Basic

namespace Scproxy

/-- The parts of a byte string between its CRLF pairs. -/
def crlfSplit : List UInt8 → List (List UInt8)
  | [] => [[]]
  | [b] => [[b]]
  | b :: c :: rest =>
    if b = 13 ∧ c = 10 then [] :: crlfSplit rest else (crlfSplit (c :: rest)).modifyHead (b :: ·)

def HasCrlf (bytes : List UInt8) : Prop := [13, 10] <:+: bytes

instance (bytes : List UInt8) : Decidable (HasCrlf bytes) :=
  inferInstanceAs (Decidable ([13, 10] <:+: bytes))

theorem hasCrlf_cons {b : UInt8} {bytes : List UInt8} :
    HasCrlf (b :: bytes) ↔ (b = 13 ∧ bytes.head? = some 10) ∨ HasCrlf bytes := by
  have hhead : [10] <+: bytes ↔ bytes.head? = some 10 := by
    cases bytes with
    | nil => simp
    | cons c rest => simp [List.cons_prefix_cons, eq_comm]
  unfold HasCrlf
  rw [List.infix_cons_iff, List.cons_prefix_cons, hhead, eq_comm]

theorem not_hasCrlf_of_not_mem {bytes : List UInt8} (h : (13 : UInt8) ∉ bytes) :
    ¬HasCrlf bytes :=
  fun hcrlf => h (hcrlf.subset (by simp))

theorem hasCrlf_append_cons {x y : List UInt8} {c : UInt8} (h13 : c ≠ 13) (h10 : c ≠ 10) :
    HasCrlf (x ++ c :: y) ↔ HasCrlf x ∨ HasCrlf y := by
  induction x with
  | nil =>
    have hnil : ¬HasCrlf [] := not_hasCrlf_of_not_mem (by simp)
    rw [List.nil_append, hasCrlf_cons]
    simp [h13, hnil]
  | cons b x ih =>
    have hhead : (x ++ c :: y).head? = some 10 ↔ x.head? = some 10 := by
      cases x with
      | nil => simp [h10]
      | cons d x => simp
    rw [List.cons_append, hasCrlf_cons, hasCrlf_cons, ih, hhead, or_assoc]

theorem hasCrlf_intercalate {c : UInt8} (h13 : c ≠ 13) (h10 : c ≠ 10) (ls : List (List UInt8)) :
    HasCrlf ([c].intercalate ls) ↔ ∃ l ∈ ls, HasCrlf l := by
  induction ls with
  | nil => simpa using not_hasCrlf_of_not_mem (List.not_mem_nil)
  | cons l ls ih =>
    cases ls with
    | nil => simp
    | cons l' ls =>
      rw [List.intercalate_cons_cons, List.append_assoc, List.singleton_append,
        hasCrlf_append_cons h13 h10, ih]
      simp

theorem mem_intercalate {b c : UInt8} (h : b ≠ c) (ls : List (List UInt8)) :
    b ∈ [c].intercalate ls ↔ ∃ l ∈ ls, b ∈ l := by
  induction ls with
  | nil => simp
  | cons l ls ih =>
    cases ls with
    | nil => simp
    | cons l' ls =>
      rw [List.intercalate_cons_cons, List.append_assoc, List.singleton_append, List.mem_append,
        List.mem_cons, ih]
      simp [h]

theorem not_mem_of_mem_splitOn {c : UInt8} {bytes l : List UInt8} (h : l ∈ bytes.splitOn c) :
    c ∉ l := by
  induction bytes generalizing l with
  | nil =>
    rw [List.splitOn_nil, List.mem_singleton] at h
    simp [h]
  | cons b bytes ih =>
    rw [List.splitOn_cons_eq_if_modifyHead] at h
    split at h
    next =>
      rcases List.mem_cons.mp h with rfl | h
      · simp
      · exact ih h
    next hb =>
      obtain ⟨x, xs, hx⟩ := List.exists_cons_of_ne_nil (List.splitOn_ne_nil c bytes)
      rw [hx] at h ih
      rcases List.mem_cons.mp h with rfl | h
      · have hne : b ≠ c := by simpa using hb
        have hc := ih (l := x) (by simp)
        simp [hne.symm, hc]
      · exact ih (List.mem_cons_of_mem _ h)

theorem crlfSplit_ne_nil (bytes : List UInt8) : crlfSplit bytes ≠ [] := by
  fun_induction crlfSplit bytes with
  | case1 => simp
  | case2 b => simp
  | case3 b c rest hbc ih => simp
  | case4 b c rest hbc ih =>
    cases hc : crlfSplit (c :: rest) with
    | nil => exact absurd hc ih
    | cons l ls => simp

theorem crlfSplit_append_crlf (line rest : List UInt8) :
    crlfSplit (line ++ 13 :: 10 :: rest) = crlfSplit line ++ crlfSplit rest := by
  fun_induction crlfSplit line with
  | case1 => simp [crlfSplit]
  | case2 b => simp [crlfSplit]
  | case3 b c line hbc ih =>
    obtain ⟨rfl, rfl⟩ := hbc
    simp [crlfSplit, ih]
  | case4 b c line hbc ih =>
    rw [List.cons_append] at ih
    rw [List.cons_append, List.cons_append, crlfSplit, if_neg hbc, ih]
    cases hc : crlfSplit (c :: line) with
    | nil => exact absurd hc (crlfSplit_ne_nil _)
    | cons l ls => rfl

theorem crlfSplit_flatMap (lines : List (List UInt8)) :
    crlfSplit (lines.flatMap (· ++ [13, 10])) = lines.flatMap crlfSplit ++ [[]] := by
  induction lines with
  | nil => rfl
  | cons line lines ih =>
    rw [List.flatMap_cons, List.append_assoc, List.cons_append, List.singleton_append,
      crlfSplit_append_crlf, ih, List.flatMap_cons, List.append_assoc]

theorem crlfSplit_of_not_hasCrlf {line : List UInt8} (h : ¬HasCrlf line) : crlfSplit line = [line] := by
  fun_induction crlfSplit line with
  | case1 => rfl
  | case2 b => rfl
  | case3 b c line hbc ih =>
    obtain ⟨rfl, rfl⟩ := hbc
    rw [hasCrlf_cons, not_or] at h
    exact absurd ⟨rfl, rfl⟩ h.1
  | case4 b c line hbc ih =>
    rw [hasCrlf_cons, not_or] at h
    rw [ih h.2]
    rfl

theorem crlfSplit_lines {lines : List (List UInt8)} (h : ∀ line ∈ lines, ¬HasCrlf line) :
    crlfSplit (lines.flatMap (· ++ [13, 10])) = lines ++ [[]] := by
  have hlines : lines.flatMap crlfSplit = lines.flatMap ([·]) :=
    List.flatMap_congr fun line hline => crlfSplit_of_not_hasCrlf (h line hline)
  rw [crlfSplit_flatMap, hlines, List.flatMap_singleton']

theorem crlfSplit_head {bytes line : List UInt8} {lines : List (List UInt8)}
    (h : crlfSplit bytes = line :: lines) : line <+: bytes := by
  induction bytes generalizing line lines with
  | nil => simp_all [crlfSplit]
  | cons b bytes ih =>
    cases bytes with
    | nil => simp_all [crlfSplit]
    | cons c rest =>
      rw [crlfSplit] at h
      split at h
      next =>
        obtain ⟨rfl, _⟩ := List.cons.inj h
        exact List.nil_prefix
      next =>
        cases hc : crlfSplit (c :: rest) with
        | nil => rw [hc] at h; simp at h
        | cons l ls =>
          rw [hc, List.modifyHead_cons] at h
          obtain ⟨rfl, _⟩ := List.cons.inj h
          exact List.cons_prefix_cons.mpr ⟨rfl, ih hc⟩

theorem not_hasCrlf_of_mem_crlfSplit {bytes line : List UInt8} (h : line ∈ crlfSplit bytes) :
    ¬HasCrlf line := by
  fun_induction crlfSplit bytes generalizing line with
  | case1 => exact not_hasCrlf_of_not_mem (by simp_all)
  | case2 b =>
    rw [List.mem_singleton.mp h, hasCrlf_cons]
    simpa using not_hasCrlf_of_not_mem (List.not_mem_nil)
  | case3 b c rest hbc ih =>
    rcases List.mem_cons.mp h with rfl | h
    · exact not_hasCrlf_of_not_mem (by simp)
    · exact ih h
  | case4 b c rest hbc ih =>
    cases hc : crlfSplit (c :: rest) with
    | nil => rw [hc] at h; simp at h
    | cons l ls =>
      rw [hc] at h ih
      rcases List.mem_cons.mp h with rfl | h
      · rw [hasCrlf_cons, not_or]
        refine ⟨?_, ih (by simp)⟩
        rintro ⟨hb, hl⟩
        obtain ⟨t, ht⟩ := crlfSplit_head hc
        cases l with
        | nil => simp at hl
        | cons d l =>
          have hdc : d = c := (List.cons.inj ht).1
          exact hbc ⟨hb, by simpa [hdc] using hl⟩
      · exact ih (by simp [h])

end Scproxy
