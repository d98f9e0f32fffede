import Mathlib.Logic.Relation

namespace Scproxy

/-- A transition system whose steps carry the name of what happened. -/
structure Transition (S L : Type) where
  start : S → Prop
  step : L → S → S → Prop

namespace Transition

variable {S L : Type} (sys : Transition S L)

/-- The states of all runs whose steps meet a condition on the state before. -/
inductive ReachableWith (allowed : L → S → Prop) : S → Prop
  | start {s} : sys.start s → ReachableWith allowed s
  | next {s t} (label : L) : ReachableWith allowed s → allowed label s → sys.step label s t →
      ReachableWith allowed t

def Reachable : S → Prop := sys.ReachableWith fun _ _ => True

def Steps : S → S → Prop := Relation.ReflTransGen fun s t => ∃ label, sys.step label s t

variable {sys}

theorem ReachableWith.invariant {allowed : L → S → Prop} {I : S → Prop}
    (hstart : ∀ s, sys.start s → I s)
    (hstep : ∀ label s t, I s → allowed label s → sys.step label s t → I t) {s : S}
    (h : sys.ReachableWith allowed s) : I s := by
  induction h with
  | start hs => exact hstart _ hs
  | next label _ hallowed hs ih => exact hstep label _ _ ih hallowed hs

theorem ReachableWith.reachable {allowed : L → S → Prop} {s : S}
    (h : sys.ReachableWith allowed s) : sys.Reachable s := by
  induction h with
  | start hs => exact .start hs
  | next label _ _ hs ih => exact .next label ih trivial hs

theorem Reachable.steps {s t : S} (h : sys.Reachable s) (hsteps : sys.Steps s t) :
    sys.Reachable t := by
  induction hsteps with
  | refl => exact h
  | tail _ hstep ih =>
    obtain ⟨label, hstep⟩ := hstep
    exact .next label ih trivial hstep

/-- A relation that every step respects holds between the ends of a run. -/
theorem Steps.relate {I : S → Prop} {R : S → S → Prop} (hrefl : ∀ s, R s s)
    (htrans : ∀ s t u, R s t → R t u → R s u)
    (hstep : ∀ label s t, I s → sys.step label s t → I t ∧ R s t) {s t : S} (hs : I s)
    (h : sys.Steps s t) : R s t := by
  have hboth : I t ∧ R s t := by
    induction h with
    | refl => exact ⟨hs, hrefl s⟩
    | tail _ hlast ih =>
      obtain ⟨label, hlast⟩ := hlast
      obtain ⟨hi, hr⟩ := hstep _ _ _ ih.1 hlast
      exact ⟨hi, htrans _ _ _ ih.2 hr⟩
  exact hboth.2

end Transition

end Scproxy
