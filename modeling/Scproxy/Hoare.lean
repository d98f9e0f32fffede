import Mathlib.Logic.Basic

namespace Scproxy

/-- Programs over a state that may fail; the state survives a failure. -/
def Prog (σ ε α : Type) := σ → Except ε α × σ

namespace Prog

variable {σ ε α β : Type}

instance : Monad (Prog σ ε) where
  pure a := fun s => (.ok a, s)
  bind m f := fun s =>
    match m s with
    | (.ok a, t) => f a t
    | (.error e, t) => (.error e, t)

def get : Prog σ ε σ := fun s => (.ok s, s)

def modify (f : σ → σ) : Prog σ ε Unit := fun s => (.ok (), f s)

def fail (e : ε) : Prog σ ε α := fun s => (.error e, s)

def ofExcept : Except ε α → Prog σ ε α
  | .ok a => pure a
  | .error e => fail e

/-- A guard dropped on the way out of a failing block. -/
def onFail (cleanup : σ → σ) (m : Prog σ ε α) : Prog σ ε α := fun s =>
  match m s with
  | (.ok a, t) => (.ok a, t)
  | (.error e, t) => (.error e, cleanup t)

/-- Run a program to its result, an error included. -/
def attempt (m : Prog σ ε α) : Prog σ ε (Except ε α) := fun s => (.ok (m s).1, (m s).2)

theorem bind_of_ok {m : Prog σ ε α} {f : α → Prog σ ε β} {s t : σ} {a : α}
    (h : m s = (.ok a, t)) : (m >>= f) s = f a t := by
  show (match m s with
    | (.ok a, t) => f a t
    | (.error e, t) => (.error e, t)) = _
  rw [h]

theorem attempt_of_eq {m : Prog σ ε α} {s t : σ} {result : Except ε α} (h : m s = (result, t)) :
    attempt m s = (.ok result, t) := by
  rw [attempt, h]

theorem bind_of_error {m : Prog σ ε α} {f : α → Prog σ ε β} {s t : σ} {e : ε}
    (h : m s = (.error e, t)) : (m >>= f) s = (.error e, t) := by
  show (match m s with
    | (.ok a, t) => f a t
    | (.error e, t) => (.error e, t)) = _
  rw [h]

theorem bind_eq_ok {m : Prog σ ε α} {f : α → Prog σ ε β} {s u : σ} {b : β} :
    (m >>= f) s = (.ok b, u) ↔ ∃ a t, m s = (.ok a, t) ∧ f a t = (.ok b, u) := by
  show (match m s with
    | (.ok a, t) => f a t
    | (.error e, t) => (.error e, t)) = _ ↔ _
  rcases hm : m s with ⟨e | a, t⟩
  · simp
  · constructor
    · intro h
      exact ⟨a, t, rfl, h⟩
    · rintro ⟨a', t', heq, h⟩
      cases heq
      exact h

def Ends (Q : α → σ → Prop) (E : ε → σ → Prop) : Except ε α × σ → Prop
  | (.ok a, t) => Q a t
  | (.error e, t) => E e t

/-- From a state in `P` the program ends in `Q`, or fails in `E`. -/
def Triple (P : σ → Prop) (m : Prog σ ε α) (Q : α → σ → Prop) (E : ε → σ → Prop) : Prop :=
  ∀ s, P s → Ends Q E (m s)

variable {P P' : σ → Prop} {Q Q' : α → σ → Prop} {E : ε → σ → Prop}

theorem Triple.pure {a : α} (h : ∀ s, P s → Q a s) : Triple P (Pure.pure a : Prog σ ε α) Q E :=
  fun s hs => h s hs

theorem Triple.fail {e : ε} (h : ∀ s, P s → E e s) : Triple P (Prog.fail e : Prog σ ε α) Q E :=
  fun s hs => h s hs

theorem Triple.modify {f : σ → σ} {Q : Unit → σ → Prop} (h : ∀ s, P s → Q () (f s)) :
    Triple P (Prog.modify f : Prog σ ε Unit) Q E :=
  fun s hs => h s hs

theorem Triple.bind {m : Prog σ ε α} {f : α → Prog σ ε β} {R : α → σ → Prop}
    {Q : β → σ → Prop} (hm : Triple P m R E) (hf : ∀ a, Triple (R a) (f a) Q E) :
    Triple P (m >>= f) Q E := by
  intro s hs
  have hms := hm s hs
  show Ends Q E (match m s with
    | (.ok a, t) => f a t
    | (.error e, t) => (.error e, t))
  rcases hr : m s with ⟨e | a, t⟩
  · rw [hr] at hms
    exact hms
  · rw [hr] at hms
    exact hf a t hms

theorem Triple.get {f : σ → Prog σ ε β} {Q : β → σ → Prop}
    (h : ∀ s, P s → Triple (· = s) (f s) Q E) : Triple P (Prog.get >>= f) Q E :=
  fun s hs => h s hs s rfl

theorem Triple.weaken {m : Prog σ ε α} (h : Triple P m Q E) (hP : ∀ s, P' s → P s)
    (hQ : ∀ a s, Q a s → Q' a s) : Triple P' m Q' E := by
  intro s hs
  have hms := h s (hP s hs)
  rcases hm : m s with ⟨e | a, t⟩
  · rw [hm] at hms
    exact hms
  · rw [hm] at hms
    exact hQ a t hms

theorem Triple.ok {m : Prog σ ε α} {s t : σ} {a : α} (h : Triple P m Q E) (hs : P s)
    (hm : m s = (.ok a, t)) : Q a t := by
  have hms := h s hs
  rw [hm] at hms
  exact hms

/-- A property of the last state, however the program ends. -/
theorem Triple.final {m : Prog σ ε α} {R : σ → Prop} {s : σ} (h : Triple P m Q E) (hs : P s)
    (hQ : ∀ a t, Q a t → R t) (hE : ∀ e t, E e t → R t) : R (m s).2 := by
  have hms := h s hs
  rcases hm : m s with ⟨e | a, t⟩
  · rw [hm] at hms
    exact hE e t hms
  · rw [hm] at hms
    exact hQ a t hms

theorem Triple.weakenError {m : Prog σ ε α} {E' : ε → σ → Prop} (h : Triple P m Q E)
    (hE : ∀ e s, E e s → E' e s) : Triple P m Q E' := by
  intro s hs
  have hms := h s hs
  rcases hm : m s with ⟨e | a, t⟩
  · rw [hm] at hms
    exact hE e t hms
  · rw [hm] at hms
    exact hms

end Prog

end Scproxy
