import Scproxy.Interaction
import Scproxy.Transition

namespace Scproxy

/-- A program at work in a world that others change too. -/
structure Running (Op : Type) (Ret : Op → Type) (W α : Type) where
  program : Interaction Op Ret α
  world : W

inductive RunningEvent
  | environment
  | operate

namespace Discipline

variable {Op : Type} {Ret : Op → Type} {W α : Type}

/-- The environment may change the world before each operation and after the last one. -/
def running (D : Discipline Op Ret W) (p : Interaction Op Ret α) (start : W → Prop) :
    Transition (Running Op Ret W α) RunningEvent where
  start s := s.program = p ∧ start s.world
  step
    | .environment, s, t => t.program = s.program ∧ D.rely s.world t.world
    | .operate, s, t => ∃ op next r w, s.program = .perform op next ∧ D.rely s.world w ∧
        D.after op r w t.world ∧ t.program = next r

variable {D : Discipline Op Ret W} {p : Interaction Op Ret α} {start : W → Prop}
  {Q : α → W → Prop}

/-- Without guards every program meets a postcondition that always holds. -/
theorem Spec.of_forall (hguard : ∀ op w, D.guard op w) (hQ : ∀ a w, Q a w)
    (p : Interaction Op Ret α) (w : W) : D.Spec Q p w := by
  induction p generalizing w with
  | done a => exact hQ a w
  | perform op next ih => exact fun v _ => ⟨hguard op v, fun r v' _ => ih r v'⟩

/-- What `Spec` says of a program holds of every run of it, if the environment leaves the
postcondition alone. -/
theorem Spec.of_reachable (hspec : ∀ w, start w → D.Spec Q p w)
    (hstable : ∀ a w v, Q a w → D.rely w v → Q a v) {s : Running Op Ret W α}
    (h : (D.running p start).Reachable s) : D.Spec Q s.program s.world := by
  refine h.invariant (I := fun s => D.Spec Q s.program s.world) ?_ ?_
  · rintro s ⟨hprogram, hstart⟩
    rw [hprogram]
    exact hspec s.world hstart
  · intro event s t hs _ hstep
    cases event with
    | environment =>
      obtain ⟨hprogram, hrely⟩ := hstep
      rw [hprogram]
      exact hs.later (fun a ha => hstable a _ _ ha hrely) hrely
    | operate =>
      obtain ⟨op, next, r, w, hprogram, hrely, hafter, hnext⟩ := hstep
      rw [hprogram] at hs
      rw [hnext]
      exact (hs w hrely).2 r _ hafter

theorem Spec.result (hspec : ∀ w, start w → D.Spec Q p w)
    (hstable : ∀ a w v, Q a w → D.rely w v → Q a v) {s : Running Op Ret W α}
    (h : (D.running p start).Reachable s) {a : α} (hdone : s.program = .done a) :
    Q a s.world := by
  have hreached := Spec.of_reachable hspec hstable h
  rw [hdone] at hreached
  exact hreached

end Discipline

end Scproxy
