import Scproxy.Segmented

namespace Scproxy

section Lines

variable {α : Type} [DecidableEq α]

/-- The items up to and including the first `d`, and what follows. -/
def cut (d : α) : List α → List α × List α
  | [] => ([], [])
  | a :: items => if a = d then ([a], items) else (a :: (cut d items).1, (cut d items).2)

theorem cut_cons_self (d : α) (items : List α) : cut d (d :: items) = ([d], items) := if_pos rfl

theorem cut_cons_of_ne {d a : α} (h : a ≠ d) (items : List α) :
    cut d (a :: items) = (a :: (cut d items).1, (cut d items).2) := if_neg h

theorem cut_append (d : α) (items : List α) : (cut d items).1 ++ (cut d items).2 = items := by
  induction items with
  | nil => rfl
  | cons a items ih =>
    unfold cut
    split
    · rfl
    · rw [List.cons_append, ih]

theorem cut_of_mem {d : α} {front : List α} (back : List α) (h : d ∈ front) :
    cut d (front ++ back) = ((cut d front).1, (cut d front).2 ++ back) := by
  induction front with
  | nil => simp at h
  | cons a front ih =>
    rw [List.cons_append]
    by_cases ha : a = d
    · subst ha
      rw [cut_cons_self, cut_cons_self]
    · have hd : d ∈ front := (List.mem_cons.mp h).resolve_left (Ne.symm ha)
      rw [cut_cons_of_ne ha, cut_cons_of_ne ha, ih hd]

theorem cut_of_not_mem {d : α} {front : List α} (back : List α) (h : d ∉ front) :
    cut d (front ++ back) = (front ++ (cut d back).1, (cut d back).2) := by
  induction front with
  | nil => rfl
  | cons a front ih =>
    rw [List.mem_cons, not_or] at h
    rw [List.cons_append, cut_cons_of_ne (Ne.symm h.1), ih h.2]
    rfl

theorem cut_line {d : α} {body : List α} (back : List α) (h : d ∉ body) :
    cut d (body ++ d :: back) = (body ++ [d], back) := by
  rw [cut_of_not_mem _ h, cut_cons_self]

/-- A line with its end. -/
def IsLine (d : α) (line : List α) : Prop := ∃ body, line = body ++ [d] ∧ d ∉ body

theorem cut_cases (d : α) (items : List α) :
    IsLine d (cut d items).1 ∨ d ∉ items ∧ cut d items = (items, []) := by
  induction items with
  | nil => exact .inr ⟨List.not_mem_nil, rfl⟩
  | cons a items ih =>
    by_cases ha : a = d
    · subst ha
      rw [cut_cons_self]
      exact .inl ⟨[], rfl, List.not_mem_nil⟩
    · rw [cut_cons_of_ne ha]
      rcases ih with ⟨body, hbody, hd⟩ | ⟨hd, hcut⟩
      · refine .inl ⟨a :: body, ?_, ?_⟩
        · rw [hbody]
          rfl
        · rw [List.mem_cons, not_or]
          exact ⟨Ne.symm ha, hd⟩
      · refine .inr ⟨?_, ?_⟩
        · rw [List.mem_cons, not_or]
          exact ⟨Ne.symm ha, hd⟩
        · rw [hcut]

/-- The items cut after each `d`; the last line may lack it. -/
def lines (d : α) : List α → List (List α)
  | [] => []
  | a :: items =>
    if a = d then [a] :: lines d items
    else
      match lines d items with
      | [] => [[a]]
      | line :: rest => (a :: line) :: rest

theorem lines_eq_cut {d : α} {items : List α} (h : items ≠ []) :
    lines d items = (cut d items).1 :: lines d (cut d items).2 := by
  induction items with
  | nil => exact absurd rfl h
  | cons a items ih =>
    by_cases ha : a = d
    · subst ha
      rw [cut_cons_self, lines, if_pos rfl]
    · rw [cut_cons_of_ne ha, lines, if_neg ha]
      by_cases hitems : items = []
      · subst hitems
        rfl
      · rw [ih hitems]

theorem lines_tail (d : α) (items : List α) : (lines d items).tail = lines d (cut d items).2 := by
  by_cases hne : items = []
  · rw [hne]
    rfl
  · rw [lines_eq_cut hne, List.tail_cons]

theorem lines_line {d : α} {line : List α} (back : List α) (h : IsLine d line) :
    lines d (line ++ back) = line :: lines d back := by
  obtain ⟨body, rfl, hd⟩ := h
  rw [lines_eq_cut (by simp), List.append_assoc, List.singleton_append, cut_line back hd]

theorem lines_flatten_append {d : α} {front : List (List α)} (back : List α)
    (h : ∀ line ∈ front, IsLine d line) : lines d (front.flatten ++ back) = front ++ lines d back := by
  induction front with
  | nil => rfl
  | cons line front ih =>
    obtain ⟨hline, hfront⟩ := List.forall_mem_cons.mp h
    rw [List.flatten_cons, List.append_assoc, lines_line _ hline, ih hfront, List.cons_append]

/-- Only the last line may lack its end. -/
theorem isLine_of_lines {d : α} {items : List α} {front : List (List α)} {line : List α}
    {back : List (List α)} (h : lines d items = front ++ line :: back) :
    IsLine d line ∨ d ∉ line ∧ back = [] := by
  induction front generalizing items with
  | nil =>
    have hne : items ≠ [] := by
      rintro rfl
      simp [lines] at h
    rw [lines_eq_cut hne, List.nil_append, List.cons.injEq] at h
    obtain ⟨rfl, rfl⟩ := h
    rcases cut_cases d items with hline | ⟨hd, hcut⟩
    · exact .inl hline
    · rw [hcut]
      exact .inr ⟨hd, rfl⟩
  | cons first front ih =>
    have hne : items ≠ [] := by
      rintro rfl
      simp [lines] at h
    rw [lines_eq_cut hne, List.cons_append, List.cons.injEq] at h
    exact ih h.2

theorem isLine_of_mem_front {d : α} {items : List α} {front : List (List α)} {line : List α}
    {back : List (List α)} (h : lines d items = front ++ line :: back) {earlier : List α}
    (hmem : earlier ∈ front) : IsLine d earlier := by
  obtain ⟨pre, post, rfl⟩ := List.append_of_mem hmem
  rw [List.append_assoc, List.cons_append] at h
  rcases isLine_of_lines h with hline | ⟨_, hnil⟩
  · exact hline
  · simp at hnil

theorem lines_flatten (d : α) (items : List α) : (lines d items).flatten = items := by
  induction items with
  | nil => rfl
  | cons a items ih =>
    unfold lines
    split
    · rw [List.flatten_cons, ih]
      rfl
    · split
      next h =>
        rw [h] at ih
        rw [← ih]
        rfl
      next line rest h =>
        rw [h] at ih
        rw [← ih]
        rfl

end Lines

/-- A reader that takes more from its source than it is asked for. -/
structure Reader (α ε : Type) where
  capacity : Nat
  capacity_pos : 0 < capacity
  buffer : List α
  source : Source α ε

namespace Reader

variable {α ε : Type}

/-- All that is still to be read, in the buffer or not. -/
def remaining (r : Reader α ε) : List α := r.buffer ++ r.source.items

/-- The buffer is filled by one read once it is empty. -/
def fill (r : Reader α ε) : Except ε (Reader α ε) :=
  if r.buffer.isEmpty then
    (r.source.read r.capacity).map fun (bytes, source) => { r with buffer := bytes, source := source }
  else .ok r

theorem fill_spec (r : Reader α ε) :
    (∃ t, r.fill = .ok t ∧ t.buffer = [] ∧ t.remaining = [] ∧ t.source.ending = none ∧
      r.remaining = [] ∧ r.source.ending = none) ∨
    (∃ e, r.fill = .error e ∧ r.remaining = [] ∧ r.source.ending = some e) ∨
    ∃ t, r.fill = .ok t ∧ t.buffer ≠ [] ∧ t.remaining = r.remaining ∧
      t.source.ending = r.source.ending := by
  unfold fill remaining
  by_cases hbuffer : r.buffer = []
  · rw [hbuffer, if_pos List.isEmpty_nil]
    rcases Source.read_spec r.capacity_pos r.source with ⟨hitems, hending, t, hread, hrest, hend⟩ |
      ⟨e, hitems, hending, hread⟩ | ⟨bytes, t, hread, hbytes, _, hitems, hending⟩
    · rw [hread]
      exact .inl ⟨_, rfl, rfl, hrest, hend, hitems, hending⟩
    · rw [hread]
      exact .inr (.inl ⟨e, rfl, hitems, hending⟩)
    · rw [hread]
      exact .inr (.inr ⟨_, rfl, hbytes, hitems.symm, hending⟩)
  · rw [if_neg (by simpa using hbuffer)]
    exact .inr (.inr ⟨r, rfl, hbuffer, rfl, rfl⟩)

theorem fill_ok {r t : Reader α ε} (h : r.fill = .ok t) :
    t.remaining = r.remaining ∧ t.source.ending = r.source.ending ∧
      (t.buffer = [] → r.remaining = [] ∧ r.source.ending = none) := by
  rcases r.fill_spec with ⟨u, hu, _, hrest, hend, hremaining, hending⟩ | ⟨e, he, _⟩ |
    ⟨u, hu, hne, hrest, hend⟩
  · cases h.symm.trans hu
    exact ⟨hrest.trans hremaining.symm, hend.trans hending.symm, fun _ => ⟨hremaining, hending⟩⟩
  · cases h.symm.trans he
  · cases h.symm.trans hu
    exact ⟨hrest, hend, fun hempty => absurd hempty hne⟩

theorem fill_error {r : Reader α ε} {e : ε} (h : r.fill = .error e) :
    r.remaining = [] ∧ r.source.ending = some e := by
  rcases r.fill_spec with ⟨u, hu, _⟩ | ⟨e', he, hremaining, hending⟩ | ⟨u, hu, _⟩
  · cases h.symm.trans hu
  · cases h.symm.trans he
    exact ⟨hremaining, hending⟩
  · cases h.symm.trans hu

theorem lt_of_fill {r t : Reader α ε} (h : r.fill = .ok t) (hbuffer : ¬ t.buffer.isEmpty) :
    t.source.items.length < r.remaining.length := by
  obtain ⟨hremaining, _, _⟩ := fill_ok h
  have hpos : 0 < t.buffer.length := List.length_pos_of_ne_nil (by simpa using hbuffer)
  rw [← hremaining, remaining, List.length_append]
  omega

variable [DecidableEq α]

/-- Reads up to and including the first `d`, or to the end. -/
def readUntil (d : α) (r : Reader α ε) : Except ε (List α × Reader α ε) :=
  match _hfill : r.fill with
  | .error e => .error e
  | .ok t =>
    if d ∈ t.buffer then .ok ((cut d t.buffer).1, { t with buffer := (cut d t.buffer).2 })
    else if _hbuffer : t.buffer.isEmpty then .ok ([], t)
    else (readUntil d { t with buffer := [] }).map fun (rest, u) => (t.buffer ++ rest, u)
termination_by r.remaining.length
decreasing_by
  have hlt := lt_of_fill _hfill _hbuffer
  exact hlt

/-- How the items are cut into pieces and how they are buffered makes no difference. -/
theorem readUntil_spec (d : α) (r : Reader α ε) :
    (∃ t, r.readUntil d = .ok ((cut d r.remaining).1, t) ∧ t.remaining = (cut d r.remaining).2 ∧
      t.source.ending = r.source.ending ∧ (d ∈ r.remaining ∨ r.source.ending = none)) ∨
    ∃ e, r.readUntil d = .error e ∧ d ∉ r.remaining ∧ r.source.ending = some e := by
  fun_induction readUntil d r with
  | case1 r e h =>
    obtain ⟨hremaining, hending⟩ := fill_error h
    exact .inr ⟨e, rfl, by simp [hremaining], hending⟩
  | case2 r t h hd =>
    obtain ⟨hremaining, hending, _⟩ := fill_ok h
    have hcut := cut_of_mem t.source.items hd
    change cut d t.remaining = _ at hcut
    rw [hremaining] at hcut
    refine .inl ⟨{ t with buffer := (cut d t.buffer).2 }, ?_, ?_, hending, .inl ?_⟩
    · rw [hcut]
    · rw [hcut]
      rfl
    · rw [← hremaining]
      exact List.mem_append_left _ hd
  | case3 r t h hd hbuffer =>
    obtain ⟨hremaining, hending, hempty⟩ := fill_ok h
    obtain ⟨hnil, hnone⟩ := hempty (by simpa using hbuffer)
    refine .inl ⟨t, ?_, ?_, hending, .inr hnone⟩
    · rw [hnil]
      rfl
    · rw [hremaining, hnil]
      rfl
  | case4 r t h hd hbuffer ih =>
    obtain ⟨hremaining, hending, _⟩ := fill_ok h
    have hcut := cut_of_not_mem t.source.items hd
    change cut d t.remaining = _ at hcut
    rw [hremaining] at hcut
    have hmem : d ∈ r.remaining ↔ d ∈ t.source.items := by
      rw [← hremaining, remaining, List.mem_append]
      exact or_iff_right hd
    rcases ih with ⟨u, hread, hrest, hend, hor⟩ | ⟨e, hread, hnot, hend⟩
    · refine .inl ⟨u, ?_, ?_, hend.trans hending, ?_⟩
      · rw [hread, hcut]
        rfl
      · rw [hrest, hcut]
        rfl
      · rw [hmem, ← hending]
        exact hor
    · refine .inr ⟨e, ?_, ?_, hending ▸ hend⟩
      · rw [hread]
        rfl
      · rw [hmem]
        exact hnot

end Reader

end Scproxy
