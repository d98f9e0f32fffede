import Mathlib.Data.Nat.Init
import Mathlib.Tactic.ByContra
import Scproxy.Transition

namespace Scproxy

namespace Transition

variable {S L : Type}

def Enabled (sys : Transition S L) (label : L) (s : S) : Prop := ∃ t, sys.step label s t

/-- An infinite run. Nothing may happen at a moment, so that a run that has ended goes on. -/
structure Run (sys : Transition S L) where
  state : Nat → S
  label : Nat → Option L
  starts : sys.start (state 0)
  happens : ∀ i l, label i = some l → sys.step l (state i) (state (i + 1))
  rests : ∀ i, label i = none → state (i + 1) = state i

namespace Run

variable {sys : Transition S L}

/-- What is enabled from some moment on, and is not left to chance, happens. -/
def Fair (run : sys.Run) (due : L → Prop) : Prop :=
  ∀ l, due l → ∀ i, (∀ j, i ≤ j → sys.Enabled l (run.state j)) →
    ∃ j, i ≤ j ∧ run.label j = some l

theorem reachable (run : sys.Run) (i : Nat) : sys.Reachable (run.state i) := by
  induction i with
  | zero => exact .start run.starts
  | succ i ih =>
    cases hlabel : run.label i with
    | none => exact run.rests i hlabel ▸ ih
    | some l => exact .next l ih trivial (run.happens i l hlabel)

/-- What every step keeps holds from then on. -/
theorem keeps (run : sys.Run) {P : S → Prop} {i : Nat}
    (hstep : ∀ j, i ≤ j → P (run.state j) → ∀ l, run.label j = some l → P (run.state (j + 1)))
    (hi : P (run.state i)) {j : Nat} (hij : i ≤ j) : P (run.state j) := by
  induction j, hij using Nat.le_induction with
  | base => exact hi
  | succ j hij ih =>
    cases hlabel : run.label j with
    | none => exact run.rests j hlabel ▸ ih
    | some l => exact hstep j hij ih l hlabel

end Run

/-- A finite run, as what happened and the states it led to. -/
def Path (sys : Transition S L) : S → List (L × S) → Prop
  | _, [] => True
  | s, (l, t) :: rest => sys.step l s t ∧ sys.Path t rest

def pathState : S → List (L × S) → Nat → S
  | s, [], _ => s
  | s, _ :: _, 0 => s
  | _, (_, t) :: rest, i + 1 => pathState t rest i

def pathLabel : List (L × S) → Nat → Option L
  | [], _ => none
  | (l, _) :: _, 0 => some l
  | _ :: rest, i + 1 => pathLabel rest i

section Path

variable {sys : Transition S L}

theorem Path.happens {s : S} {path : List (L × S)} (h : sys.Path s path) {i : Nat} {l : L}
    (hlabel : pathLabel path i = some l) :
    sys.step l (pathState s path i) (pathState s path (i + 1)) := by
  induction path generalizing s i with
  | nil => cases hlabel
  | cons first rest ih =>
    cases i with
    | zero =>
      cases hlabel
      cases rest with
      | nil => exact h.1
      | cons _ _ => exact h.1
    | succ i => exact ih h.2 hlabel

theorem pathState_rests {s : S} {path : List (L × S)} {i : Nat} (hlabel : pathLabel path i = none) :
    pathState s path (i + 1) = pathState s path i := by
  induction path generalizing s i with
  | nil => rfl
  | cons first rest ih =>
    cases i with
    | zero => cases hlabel
    | succ i => exact ih hlabel

theorem pathState_of_le {s : S} {path : List (L × S)} {i : Nat} (hi : path.length ≤ i) :
    pathState s path i = pathState s path path.length := by
  induction path generalizing s i with
  | nil => rfl
  | cons first rest ih =>
    cases i with
    | zero => simp at hi
    | succ i => exact ih (Nat.le_of_succ_le_succ hi)

/-- The run that rests at the end of a path. -/
def Path.run {s : S} {path : List (L × S)} (h : sys.Path s path) (hstart : sys.start s) :
    sys.Run where
  state := pathState s path
  label := pathLabel path
  starts := by
    cases path with
    | nil => exact hstart
    | cons _ _ => exact hstart
  happens _ _ hlabel := h.happens hlabel
  rests _ hlabel := pathState_rests hlabel

theorem Path.run_fair {s : S} {path : List (L × S)} (h : sys.Path s path) (hstart : sys.start s)
    {due : L → Prop} (hend : ∀ l, due l → ¬sys.Enabled l (pathState s path path.length)) :
    (h.run hstart).Fair due := by
  intro l hl i henabled
  have hlater : sys.Enabled l (pathState s path (max i path.length)) :=
    henabled _ (Nat.le_max_left _ _)
  rw [pathState_of_le (Nat.le_max_right _ _)] at hlater
  exact absurd hlater (hend l hl)

end Path

/-- A step brings the system nearer to the goal, or it leaves what is due as it is and is not
itself the step that is due. -/
def Nears (goal : S → Prop) (next : S → L) (rank : S → Nat) (l : L) (s t : S) : Prop :=
  rank t < rank s ∨ rank t = rank s ∧ (¬goal s → next t = next s ∧ l ≠ next s)

/-- Until the goal is reached one step is due. It brings the system nearer to the goal,
whatever comes of it. No other step leads away from the goal, and the step stays due until
something has brought the system nearer. -/
structure Drains (sys : Transition S L) (due : L → Prop) (I goal : S → Prop) (next : S → L)
    (rank : S → Nat) : Prop where
  step : ∀ l s t, I s → sys.step l s t → I t ∧ Nears goal next rank l s t
  enabled : ∀ s, I s → ¬goal s → due (next s) ∧ sys.Enabled (next s) s

section Drains

variable {sys : Transition S L} {due : L → Prop} {I goal : S → Prop} {next : S → L}
  {rank : S → Nat}

theorem Nears.le {l : L} {s t : S} (h : Nears goal next rank l s t) : rank t ≤ rank s := by
  rcases h with hlower | ⟨hsame, _⟩
  · omega
  · omega

theorem Nears.stays {l : L} {s t : S} (h : Nears goal next rank l s t) (hgoal : ¬goal s)
    (hsame : rank t = rank s) : next t = next s ∧ l ≠ next s := by
  rcases h with hlower | ⟨_, hstays⟩
  · omega
  · exact hstays hgoal

/-- While the rank stays the same, what is due stays the same, and so it happens. -/
theorem Drains.rank_falls (h : sys.Drains due I goal next rank) {run : sys.Run}
    (hfair : run.Fair due) {i : Nat} (hi : I (run.state i))
    (hnever : ∀ j, i ≤ j → ¬goal (run.state j)) :
    ∃ j, i ≤ j ∧ rank (run.state j) < rank (run.state i) := by
  by_contra hnone
  push Not at hnone
  have hI : ∀ j, i ≤ j → I (run.state j) := fun j hij =>
    run.keeps (fun k _ hk l hl => (h.step l _ _ hk (run.happens k l hl)).1) hi hij
  have hrank : ∀ j, i ≤ j → rank (run.state j) = rank (run.state i) := by
    intro j hij
    have hle : rank (run.state j) ≤ rank (run.state i) :=
      run.keeps (P := fun s => rank s ≤ rank (run.state i))
        (fun k hik hk l hl => Nat.le_trans (h.step l _ _ (hI k hik) (run.happens k l hl)).2.le hk)
        (Nat.le_refl _) hij
    have hge := hnone j hij
    omega
  have hstays : ∀ k, i ≤ k → ∀ l, run.label k = some l →
      next (run.state (k + 1)) = next (run.state k) ∧ l ≠ next (run.state k) := by
    intro k hik l hl
    have hsame : rank (run.state (k + 1)) = rank (run.state k) := by
      rw [hrank k hik, hrank (k + 1) (by omega)]
    exact (h.step l _ _ (hI k hik) (run.happens k l hl)).2.stays (hnever k hik) hsame
  have hnext : ∀ j, i ≤ j → next (run.state j) = next (run.state i) := fun j hij =>
    run.keeps (P := fun s => next s = next (run.state i))
      (fun k hik hk l hl => (hstays k hik l hl).1.trans hk) rfl hij
  obtain ⟨j, hij, hlabel⟩ := hfair _ (h.enabled _ hi (hnever i (Nat.le_refl i))).1 i fun j hij =>
    hnext j hij ▸ (h.enabled _ (hI j hij) (hnever j hij)).2
  exact (hstays j hij _ hlabel).2 (hnext j hij).symm

theorem Drains.reaches (h : sys.Drains due I goal next rank) {run : sys.Run}
    (hfair : run.Fair due) {i : Nat} (hi : I (run.state i)) :
    ∃ j, i ≤ j ∧ goal (run.state j) := by
  induction hrank : rank (run.state i) using Nat.strongRecOn generalizing i with
  | _ n ih =>
    by_contra hnone
    have hnever : ∀ j, i ≤ j → ¬goal (run.state j) := fun j hij hgoal => hnone ⟨j, hij, hgoal⟩
    obtain ⟨j, hij, hlower⟩ := h.rank_falls hfair hi hnever
    have hj : I (run.state j) :=
      run.keeps (fun k _ hk l hl => (h.step l _ _ hk (run.happens k l hl)).1) hi hij
    obtain ⟨k, hjk, hgoal⟩ := ih _ (hrank ▸ hlower) hj rfl
    exact hnone ⟨k, Nat.le_trans hij hjk, hgoal⟩

end Drains

end Transition

end Scproxy
