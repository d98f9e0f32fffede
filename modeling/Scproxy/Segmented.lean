import Mathlib.Data.List.Basic

namespace Scproxy

/-- A stream of items that arrives in pieces. An empty piece is a moment at
which nothing new is there. After the last piece the stream is closed, or it
breaks with an error. -/
structure Source (α ε : Type) where
  pieces : List (List α)
  ending : Option ε

namespace Source

variable {α ε : Type}

/-- All that is still to come. -/
def items (s : Source α ε) : List α := s.pieces.flatten

/-- One read that waits for items, with room for `n`. Nothing is read only at the end. -/
def readPieces (n : Nat) (ending : Option ε) :
    List (List α) → Except ε (List α × List (List α))
  | [] =>
    match ending with
    | none => .ok ([], [])
    | some e => .error e
  | [] :: pieces => readPieces n ending pieces
  | (a :: piece) :: pieces => .ok ((a :: piece).take n, (a :: piece).drop n :: pieces)

def read (n : Nat) (s : Source α ε) : Except ε (List α × Source α ε) :=
  (readPieces n s.ending s.pieces).map fun r => (r.1, ⟨r.2, s.ending⟩)

/-- One read that does not wait: `none` if nothing is there now. -/
def poll (n : Nat) (s : Source α ε) : Except ε (Option (List α)) × Source α ε :=
  match s.pieces with
  | [] =>
    match s.ending with
    | none => (.ok (some []), s)
    | some e => (.error e, s)
  | [] :: pieces => (.ok none, ⟨pieces, s.ending⟩)
  | (a :: piece) :: pieces =>
    (.ok (some ((a :: piece).take n)), ⟨(a :: piece).drop n :: pieces, s.ending⟩)

/-- Reads until there are `n` items; `none` if the stream is closed before. -/
def exactPieces (ending : Option ε) :
    Nat → List (List α) → Except (Option ε) (List α × List (List α))
  | 0, pieces => .ok ([], pieces)
  | _ + 1, [] => .error ending
  | n + 1, piece :: pieces =>
    if n < piece.length then .ok (piece.take (n + 1), piece.drop (n + 1) :: pieces)
    else (exactPieces ending (n + 1 - piece.length) pieces).map fun r => (piece ++ r.1, r.2)

def readExact (n : Nat) (s : Source α ε) : Except (Option ε) (List α × Source α ε) :=
  (exactPieces s.ending n s.pieces).map fun r => (r.1, ⟨r.2, s.ending⟩)

theorem readPieces_spec (n : Nat) (ending : Option ε) (pieces : List (List α)) :
    (∃ rest, readPieces n ending pieces = .ok ([], rest) ∧
      pieces.flatten = [] ∧ rest.flatten = [] ∧ ending = none) ∨
    (∃ e, readPieces n ending pieces = .error e ∧ pieces.flatten = [] ∧ ending = some e) ∨
    ∃ a piece rest, readPieces n ending pieces = .ok ((a :: piece).take n, rest) ∧
      pieces.flatten = (a :: piece).take n ++ rest.flatten := by
  induction pieces with
  | nil =>
    cases ending with
    | none => exact .inl ⟨[], rfl, rfl, rfl, rfl⟩
    | some e => exact .inr (.inl ⟨e, rfl, rfl, rfl⟩)
  | cons piece pieces ih =>
    cases piece with
    | nil => exact ih
    | cons a piece =>
      refine .inr (.inr ⟨a, piece, (a :: piece).drop n :: pieces, rfl, ?_⟩)
      rw [List.flatten_cons, List.flatten_cons, ← List.append_assoc, List.take_append_drop]

/-- What a waiting read does, whatever the pieces are. -/
theorem read_spec {n : Nat} (hn : 0 < n) (s : Source α ε) :
    (s.items = [] ∧ s.ending = none ∧
      ∃ t, s.read n = .ok ([], t) ∧ t.items = [] ∧ t.ending = none) ∨
    (∃ e, s.items = [] ∧ s.ending = some e ∧ s.read n = .error e) ∨
    ∃ bytes t, s.read n = .ok (bytes, t) ∧ bytes ≠ [] ∧ bytes.length ≤ n ∧
      s.items = bytes ++ t.items ∧ t.ending = s.ending := by
  unfold read
  rcases readPieces_spec n s.ending s.pieces with ⟨rest, hread, hitems, hrest, hending⟩ |
    ⟨e, hread, hitems, hending⟩ | ⟨a, piece, rest, hread, hitems⟩
  · refine .inl ⟨hitems, hending, ⟨rest, s.ending⟩, ?_, hrest, hending⟩
    rw [hread]
    rfl
  · refine .inr (.inl ⟨e, hitems, hending, ?_⟩)
    rw [hread]
    rfl
  · refine .inr (.inr ⟨(a :: piece).take n, ⟨rest, s.ending⟩, ?_, ?_, ?_, hitems, rfl⟩)
    · rw [hread]
      rfl
    · obtain ⟨m, hm⟩ := Nat.exists_eq_succ_of_ne_zero (Nat.ne_of_gt hn)
      subst hm
      simp
    · exact List.length_take_le _ _

/-- What a read that does not wait does, whatever the pieces are. -/
theorem poll_spec {n : Nat} (hn : 0 < n) (s : Source α ε) :
    (∃ bytes t, s.poll n = (.ok (some bytes), t) ∧ s.items = bytes ++ t.items ∧
      (bytes = [] → s.items = [])) ∨
    (∃ t, s.poll n = (.ok none, t) ∧ s.items = t.items) ∨
    ∃ e, s.poll n = (.error e, s) ∧ s.items = [] := by
  obtain ⟨pieces, ending⟩ := s
  rcases pieces with _ | ⟨_ | ⟨a, piece⟩, pieces⟩
  · cases ending with
    | none => exact .inl ⟨[], _, rfl, rfl, fun _ => rfl⟩
    | some e => exact .inr (.inr ⟨e, rfl, rfl⟩)
  · exact .inr (.inl ⟨_, rfl, rfl⟩)
  · refine .inl ⟨(a :: piece).take n, _, rfl, ?_, ?_⟩
    · rw [items, items, List.flatten_cons, List.flatten_cons, ← List.append_assoc,
        List.take_append_drop]
    · intro hnil
      obtain ⟨m, rfl⟩ := Nat.exists_eq_succ_of_ne_zero (Nat.ne_of_gt hn)
      simp at hnil

theorem exactPieces_of_le (ending : Option ε) {n : Nat} {pieces : List (List α)}
    (h : n ≤ pieces.flatten.length) :
    ∃ rest, exactPieces ending n pieces = .ok (pieces.flatten.take n, rest) ∧
      rest.flatten = pieces.flatten.drop n := by
  induction pieces generalizing n with
  | nil =>
    have hn : n = 0 := by simpa using h
    subst hn
    exact ⟨[], rfl, rfl⟩
  | cons piece pieces ih =>
    cases n with
    | zero => exact ⟨piece :: pieces, rfl, rfl⟩
    | succ n =>
      unfold exactPieces
      rw [List.flatten_cons] at h ⊢
      by_cases hn : n < piece.length
      · rw [if_pos hn]
        refine ⟨piece.drop (n + 1) :: pieces, ?_, ?_⟩
        · rw [List.take_append_of_le_length (by omega)]
        · rw [List.drop_append_of_le_length (by omega), List.flatten_cons]
      · rw [if_neg hn]
        rw [List.length_append] at h
        obtain ⟨rest, hrest, hflatten⟩ := ih (n := n + 1 - piece.length) (by omega)
        refine ⟨rest, ?_, ?_⟩
        · rw [hrest, List.take_append, List.take_of_length_le (i := n + 1) (l := piece) (by omega)]
          rfl
        · rw [hflatten, List.drop_append, List.drop_of_length_le (i := n + 1) (l := piece) (by omega),
            List.nil_append]

theorem exactPieces_of_lt (ending : Option ε) {n : Nat} {pieces : List (List α)}
    (h : pieces.flatten.length < n) : exactPieces ending n pieces = .error ending := by
  induction pieces generalizing n with
  | nil =>
    cases n with
    | zero => exact absurd h (Nat.not_lt_zero _)
    | succ n => rfl
  | cons piece pieces ih =>
    rw [List.flatten_cons, List.length_append] at h
    cases n with
    | zero => exact absurd h (Nat.not_lt_zero _)
    | succ n =>
      unfold exactPieces
      rw [if_neg (by omega), ih (by omega)]
      rfl

/-- The pieces do not matter to a read of a fixed number of items. -/
theorem readExact_of_append {s : Source α ε} {front rest : List α} (h : s.items = front ++ rest) :
    ∃ t, s.readExact front.length = .ok (front, t) ∧ t.items = rest ∧ t.ending = s.ending := by
  have hle : front.length ≤ s.pieces.flatten.length := by
    rw [show s.pieces.flatten = front ++ rest from h, List.length_append]
    omega
  obtain ⟨pieces, hread, hrest⟩ := exactPieces_of_le s.ending hle
  rw [show s.pieces.flatten = front ++ rest from h] at hread hrest
  rw [List.take_left] at hread
  rw [List.drop_left] at hrest
  refine ⟨⟨pieces, s.ending⟩, ?_, hrest, rfl⟩
  unfold readExact
  rw [hread]
  rfl

theorem readExact_of_short {s : Source α ε} {n : Nat} (h : s.items.length < n) :
    s.readExact n = .error s.ending := by
  unfold readExact
  rw [exactPieces_of_lt s.ending h]
  rfl

theorem readExact_cases (n : Nat) (s : Source α ε) :
    (∃ bytes t, s.readExact n = .ok (bytes, t) ∧ bytes.length = n ∧ s.items = bytes ++ t.items) ∨
    s.readExact n = .error s.ending := by
  by_cases hn : n ≤ s.items.length
  · obtain ⟨t, hread, hrest, _⟩ := readExact_of_append (List.take_append_drop n s.items).symm
    rw [List.length_take, Nat.min_eq_left hn] at hread
    refine Or.inl ⟨_, t, hread, ?_, ?_⟩
    · rw [List.length_take, Nat.min_eq_left hn]
    · rw [hrest, List.take_append_drop]
  · exact Or.inr (readExact_of_short (Nat.lt_of_not_le hn))

end Source

end Scproxy
