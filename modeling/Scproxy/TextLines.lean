import Mathlib.Data.List.TakeWhile
import Scproxy.Buffered
import Scproxy.Text

namespace Scproxy

/-- A line without its ending, which is a line feed or a carriage return with one. -/
def stripEnding (line : List Char) : List Char :=
  if line.getLast? = some '\n' then
    let line := line.dropLast
    if line.getLast? = some '\r' then line.dropLast else line
  else line

/-- `str::lines`. -/
def textLines (s : String) : List String :=
  (lines '\n' s.toList).map fun line => String.ofList (stripEnding line)

/-- `str::trim`. -/
def trim (s : String) : String :=
  String.ofList ((s.toList.dropWhile isWhitespace).reverse.dropWhile isWhitespace).reverse

/-- What is left of a line that is followed by a line feed. -/
def stripReturn (line : List Char) : List Char :=
  if line.getLast? = some '\r' then line.dropLast else line

theorem stripEnding_append_newline (line : List Char) :
    stripEnding (line ++ ['\n']) = stripReturn line := by
  simp [stripEnding, stripReturn]

theorem stripReturn_cases (line : List Char) :
    stripReturn line = line ∨ line = stripReturn line ++ ['\r'] := by
  unfold stripReturn
  split
  next hlast => exact Or.inr (List.dropLast_append_getLast? '\r' hlast).symm
  next => exact Or.inl rfl

theorem stripReturn_append_singleton (body : List Char) (last : Char) :
    stripReturn (body ++ [last]) = if last = '\r' then body else body ++ [last] := by
  simp [stripReturn]

theorem stripReturn_append_cons (front : List Char) {c : Char} (hc : c ≠ '\r') (back : List Char) :
    stripReturn (front ++ c :: back) = front ++ c :: stripReturn back := by
  rcases List.eq_nil_or_concat back with rfl | ⟨body, last, rfl⟩
  · simp [stripReturn, hc]
  · have hassoc : front ++ c :: (body ++ [last]) = (front ++ c :: body) ++ [last] := by simp
    rw [List.concat_eq_append, hassoc, stripReturn_append_singleton, stripReturn_append_singleton]
    split
    · rfl
    · rw [hassoc]

theorem newline_not_mem_textLines {s line : String} (h : line ∈ textLines s) :
    '\n' ∉ line.toList := by
  obtain ⟨raw, hraw, rfl⟩ := List.mem_map.mp h
  obtain ⟨front, back, hlines⟩ := List.append_of_mem hraw
  rw [String.toList_ofList]
  rcases isLine_of_lines hlines with ⟨body, rfl, hbody⟩ | ⟨hraw, _⟩
  · rw [stripEnding_append_newline]
    rcases stripReturn_cases body with heq | heq
    · rwa [heq]
    · rw [heq, List.mem_append, not_or] at hbody
      exact hbody.1
  · have hlast : raw.getLast? ≠ some '\n' := fun heq => hraw (List.mem_of_getLast? heq)
    rwa [stripEnding, if_neg hlast]

theorem toList_joinWith_newline {parts : List String} (hne : parts ≠ []) :
    (joinWith '\n' parts ++ "\n").toList = (parts.map fun part => part.toList ++ ['\n']).flatten := by
  induction parts with
  | nil => exact absurd rfl hne
  | cons part parts ih =>
    cases parts with
    | nil => simp [joinWith, List.intercalate]
    | cons next parts =>
      have hrest := ih (by simp)
      simp only [joinWith, String.toList_append, String.toList_ofList, List.map_cons] at hrest ⊢
      rw [List.flatten_cons, ← hrest]
      simp [List.intercalate]

/-- Lines that are joined are read again, without a carriage return at their end. -/
theorem textLines_joinWith {parts : List String} (hne : parts ≠ [])
    (h : ∀ part ∈ parts, '\n' ∉ part.toList) :
    textLines (joinWith '\n' parts ++ "\n") =
      parts.map fun part => String.ofList (stripReturn part.toList) := by
  have hisLine : ∀ line ∈ parts.map fun part => part.toList ++ ['\n'], IsLine '\n' line := by
    intro line hline
    obtain ⟨part, hpart, rfl⟩ := List.mem_map.mp hline
    exact ⟨part.toList, rfl, h part hpart⟩
  have hlines := lines_flatten_append [] hisLine
  rw [List.append_nil, show lines '\n' ([] : List Char) = [] from rfl, List.append_nil] at hlines
  rw [textLines, toList_joinWith_newline hne, hlines, List.map_map]
  refine List.map_congr_left fun part _ => ?_
  rw [Function.comp_apply, stripEnding_append_newline]

theorem trim_stripReturn (s : String) : trim (String.ofList (stripReturn s.toList)) = trim s := by
  rcases stripReturn_cases s.toList with heq | heq
  · rw [heq, String.ofList_toList]
  · have hspace : isWhitespace '\r' = true := rfl
    generalize stripReturn s.toList = front at heq
    unfold trim
    rw [heq, String.toList_ofList]
    by_cases hblank : ∀ c ∈ front, isWhitespace c = true
    · have hall : ∀ c ∈ front ++ ['\r'], isWhitespace c = true := by
        intro c hc
        rcases List.mem_append.mp hc with hc | hc
        · exact hblank c hc
        · rw [List.mem_singleton.mp hc]
          exact hspace
      rw [List.dropWhile_eq_nil_iff.mpr hblank, List.dropWhile_eq_nil_iff.mpr hall]
    · have hdrop : (front ++ ['\r']).dropWhile isWhitespace =
          front.dropWhile isWhitespace ++ ['\r'] := by
        rw [List.dropWhile_append, if_neg]
        rwa [List.isEmpty_iff, List.dropWhile_eq_nil_iff]
      rw [hdrop, List.reverse_append]
      simp [hspace]

end Scproxy
