import Scproxy.Interaction

namespace Scproxy

namespace Interaction

variable {Op : Type} {Ret : Op → Type} {α β ε : Type}

/-- An operation that was performed, with its answer. -/
structure Event (Op : Type) (Ret : Op → Type) where
  op : Op
  answer : Ret op

/-- The program performs these operations, gets these answers and returns. -/
inductive Runs : Interaction Op Ret α → List (Event Op Ret) → α → Prop
  | done (a : α) : Runs (.done a) [] a
  | perform {op : Op} {next : Ret op → Interaction Op Ret α} {r : Ret op}
    {trace : List (Event Op Ret)} {a : α} (h : Runs (next r) trace a) :
    Runs (.perform op next) (⟨op, r⟩ :: trace) a

theorem runs_done_iff {a b : α} {trace : List (Event Op Ret)} :
    Runs (.done a) trace b ↔ trace = [] ∧ b = a := by
  constructor
  · intro h
    cases h
    exact ⟨rfl, rfl⟩
  · rintro ⟨rfl, rfl⟩
    exact .done _

theorem runs_perform_iff {op : Op} {next : Ret op → Interaction Op Ret α}
    {trace : List (Event Op Ret)} {a : α} :
    Runs (.perform op next) trace a ↔
      ∃ r rest, trace = ⟨op, r⟩ :: rest ∧ Runs (next r) rest a := by
  constructor
  · intro h
    cases h with
    | perform h => exact ⟨_, _, rfl, h⟩
  · rintro ⟨r, rest, rfl, h⟩
    exact .perform h

theorem runs_single_iff {op : Op} {r : Ret op} {trace : List (Event Op Ret)} :
    Runs (.perform op .done) trace r ↔ trace = [⟨op, r⟩] := by
  rw [runs_perform_iff]
  constructor
  · rintro ⟨r', rest, rfl, h⟩
    obtain ⟨rfl, rfl⟩ := runs_done_iff.mp h
    rfl
  · rintro rfl
    exact ⟨r, [], rfl, .done r⟩

theorem runs_bind {p : Interaction Op Ret α} {f : α → Interaction Op Ret β}
    {trace : List (Event Op Ret)} {b : β} :
    Runs (p >>= f) trace b ↔
      ∃ front back a, trace = front ++ back ∧ Runs p front a ∧ Runs (f a) back b := by
  induction p generalizing trace with
  | done a =>
    constructor
    · intro h
      exact ⟨[], trace, a, rfl, .done a, h⟩
    · rintro ⟨front, back, a', rfl, hp, hf⟩
      obtain ⟨rfl, rfl⟩ := runs_done_iff.mp hp
      exact hf
  | perform op next ih =>
    constructor
    · intro h
      obtain ⟨r, rest, rfl, hnext⟩ := runs_perform_iff.mp h
      obtain ⟨front, back, a, rfl, hp, hf⟩ := (ih r).mp hnext
      exact ⟨⟨op, r⟩ :: front, back, a, rfl, .perform hp, hf⟩
    · rintro ⟨front, back, a, rfl, hp, hf⟩
      obtain ⟨r, rest, rfl, hnext⟩ := runs_perform_iff.mp hp
      exact .perform ((ih r).mpr ⟨rest, back, a, rfl, hnext, hf⟩)

/-- `runs_bind` for programs that may stop with an error. -/
theorem runs_andThen {p : ExceptT ε (Interaction Op Ret) α}
    {f : α → ExceptT ε (Interaction Op Ret) β} {trace : List (Event Op Ret)} {result : Except ε β} :
    Runs (p >>= f).run trace result ↔
      (∃ e, Runs p.run trace (.error e) ∧ result = .error e) ∨
      ∃ front back a, trace = front ++ back ∧ Runs p.run front (.ok a) ∧
        Runs (f a).run back result := by
  refine runs_bind.trans ?_
  constructor
  · rintro ⟨front, back, r, rfl, hp, hf⟩
    cases r with
    | error e =>
      obtain ⟨rfl, rfl⟩ := runs_done_iff.mp hf
      rw [List.append_nil]
      exact Or.inl ⟨e, hp, rfl⟩
    | ok a => exact Or.inr ⟨front, back, a, rfl, hp, hf⟩
  · rintro (⟨e, hp, rfl⟩ | ⟨front, back, a, rfl, hp, hf⟩)
    · exact ⟨trace, [], .error e, (List.append_nil _).symm, hp, .done _⟩
    · exact ⟨front, back, .ok a, rfl, hp, hf⟩

theorem runs_attempt {p : ExceptT ε (Interaction Op Ret) α} {trace : List (Event Op Ret)}
    {result : Except ε (Except ε α)} :
    Runs (attempt p).run trace result ↔ ∃ r, result = .ok r ∧ Runs p.run trace r := by
  refine runs_bind.trans ?_
  constructor
  · rintro ⟨front, back, r, rfl, hp, hdone⟩
    obtain ⟨rfl, rfl⟩ := runs_done_iff.mp hdone
    rw [List.append_nil]
    exact ⟨r, rfl, hp⟩
  · rintro ⟨r, rfl, hp⟩
    exact ⟨trace, [], r, (List.append_nil _).symm, hp, .done _⟩

/-- After these answers the program performs an operation that has none. -/
inductive Halts : Interaction Op Ret α → List (Event Op Ret) → Prop
  | stop {op : Op} {next : Ret op → Interaction Op Ret α} (h : ¬Nonempty (Ret op)) :
    Halts (.perform op next) []
  | perform {op : Op} {next : Ret op → Interaction Op Ret α} {r : Ret op}
    {trace : List (Event Op Ret)} (h : Halts (next r) trace) :
    Halts (.perform op next) (⟨op, r⟩ :: trace)

theorem halts_bind {p : Interaction Op Ret α} {f : α → Interaction Op Ret β}
    {trace : List (Event Op Ret)} (h : Halts (p >>= f) trace) :
    Halts p trace ∨ ∃ front back a, trace = front ++ back ∧ Runs p front a ∧ Halts (f a) back := by
  induction p generalizing trace with
  | done a => exact Or.inr ⟨[], trace, a, rfl, .done a, h⟩
  | perform op next ih =>
    cases h with
    | stop hempty => exact Or.inl (.stop hempty)
    | perform hnext =>
      rcases ih _ hnext with hp | ⟨front, back, a, rfl, hp, hf⟩
      · exact Or.inl (.perform hp)
      · exact Or.inr ⟨_ :: front, back, a, rfl, .perform hp, hf⟩

/-- `halts_bind` for programs that may stop with an error. -/
theorem halts_andThen {p : ExceptT ε (Interaction Op Ret) α}
    {f : α → ExceptT ε (Interaction Op Ret) β} {trace : List (Event Op Ret)}
    (h : Halts (p >>= f).run trace) :
    Halts p.run trace ∨ ∃ front back a, trace = front ++ back ∧ Runs p.run front (.ok a) ∧
      Halts (f a).run back := by
  rcases halts_bind h with hp | ⟨front, back, r, rfl, hp, hf⟩
  · exact Or.inl hp
  · cases r with
    | error e => cases hf
    | ok a => exact Or.inr ⟨front, back, a, rfl, hp, hf⟩

theorem halts_attempt {p : ExceptT ε (Interaction Op Ret) α} {trace : List (Event Op Ret)}
    (h : Halts (attempt p).run trace) : Halts p.run trace := by
  rcases halts_bind h with hp | ⟨_, _, _, _, _, hdone⟩
  · exact hp
  · cases hdone

theorem Performs.not_halts {p : Interaction Op Ret α} (hp : p.Performs fun op => Nonempty (Ret op))
    {trace : List (Event Op Ret)} : ¬Halts p trace := by
  intro h
  induction h with
  | stop hempty => exact hempty hp.1
  | perform _ ih => exact ih (hp.2 _)

theorem Performs.runs {allowed : Op → Prop} {p : Interaction Op Ret α}
    (hp : p.Performs allowed) {trace : List (Event Op Ret)} {a : α} (h : Runs p trace a) :
    ∀ event ∈ trace, allowed event.op := by
  induction h with
  | done a => simp
  | perform h ih =>
    intro event hevent
    rcases List.mem_cons.mp hevent with rfl | hevent
    · exact hp.1
    · exact ih (hp.2 _) event hevent

/-- Lawful answers for every operation make a run. -/
theorem Performs.exists_runs {allowed : Op → Prop} {lawful : Event Op Ret → Prop}
    (hanswer : ∀ op, allowed op → ∃ answer, lawful ⟨op, answer⟩) {p : Interaction Op Ret α}
    (hp : p.Performs allowed) : ∃ trace a, Runs p trace a ∧ ∀ event ∈ trace, lawful event := by
  induction p with
  | done a => exact ⟨[], a, .done a, by simp⟩
  | perform op next ih =>
    obtain ⟨answer, hlawful⟩ := hanswer op hp.1
    obtain ⟨trace, a, hrun, hanswers⟩ := ih answer (hp.2 answer)
    exact ⟨⟨op, answer⟩ :: trace, a, .perform hrun, List.forall_mem_cons.mpr ⟨hlawful, hanswers⟩⟩

/-- The events of a program up to its end, or up to where it halts. -/
def Behaves (p : Interaction Op Ret α) (trace : List (Event Op Ret)) : Prop :=
  (∃ a, Runs p trace a) ∨ Halts p trace

theorem behaves_done {a : α} {trace : List (Event Op Ret)}
    (h : Behaves (.done a : Interaction Op Ret α) trace) : trace = [] := by
  rcases h with ⟨b, hrun⟩ | hhalts
  · exact (runs_done_iff.mp hrun).1
  · cases hhalts

/-- Either the second part was not reached, or the trace is cut where it begins. -/
theorem behaves_andThen {p : ExceptT ε (Interaction Op Ret) α}
    {f : α → ExceptT ε (Interaction Op Ret) β} {trace : List (Event Op Ret)}
    (h : Behaves (p >>= f).run trace) :
    Behaves p.run trace ∨ ∃ front back a, trace = front ++ back ∧ Runs p.run front (.ok a) ∧
      Behaves (f a).run back := by
  rcases h with ⟨result, hrun⟩ | hhalts
  · rcases runs_andThen.mp hrun with ⟨e, hp, _⟩ | ⟨front, back, a, rfl, hp, hf⟩
    · exact Or.inl (Or.inl ⟨_, hp⟩)
    · exact Or.inr ⟨front, back, a, rfl, hp, Or.inl ⟨result, hf⟩⟩
  · rcases halts_andThen hhalts with hp | ⟨front, back, a, rfl, hp, hf⟩
    · exact Or.inl (Or.inr hp)
    · exact Or.inr ⟨front, back, a, rfl, hp, Or.inr hf⟩

theorem Performs.behaves {allowed : Op → Prop} {p : Interaction Op Ret α}
    (hp : p.Performs allowed) {trace : List (Event Op Ret)} (h : Behaves p trace) :
    ∀ event ∈ trace, allowed event.op := by
  rcases h with ⟨a, hrun⟩ | hhalts
  · exact hp.runs hrun
  · induction hhalts with
    | stop _ => simp
    | perform _ ih => exact List.forall_mem_cons.mpr ⟨hp.1, ih (hp.2 _)⟩

/-- Every event meets a law about itself and the events before it. -/
def Follows (law : List (Event Op Ret) → Event Op Ret → Prop) :
    List (Event Op Ret) → List (Event Op Ret) → Prop
  | _, [] => True
  | past, event :: trace => law past event ∧ Follows law (past ++ [event]) trace

section Follows

variable {law : List (Event Op Ret) → Event Op Ret → Prop} {past : List (Event Op Ret)}

theorem follows_append {front back : List (Event Op Ret)} :
    Follows law past (front ++ back) ↔
      Follows law past front ∧ Follows law (past ++ front) back := by
  induction front generalizing past with
  | nil => simp [Follows]
  | cons event front ih =>
    simp only [List.cons_append, Follows, ih, and_assoc, List.append_assoc, List.nil_append]

theorem Follows.law_at {before after : List (Event Op Ret)} {event : Event Op Ret}
    (h : Follows law past (before ++ event :: after)) : law (past ++ before) event :=
  (follows_append.mp h).2.1

/-- A law that holds of the events wherever they stand in the trace. -/
theorem follows_of_forall {trace : List (Event Op Ret)}
    (h : ∀ before event after, trace = before ++ event :: after → law (past ++ before) event) :
    Follows law past trace := by
  induction trace generalizing past with
  | nil => trivial
  | cons event trace ih =>
    refine ⟨by simpa using h [] event trace rfl, ih fun before event' after heq => ?_⟩
    rw [List.append_assoc]
    exact h (event :: before) event' after (congrArg (event :: ·) heq)

end Follows

/-- The discipline of a law about the next operation and the events before it. -/
def historyDiscipline (law : List (Event Op Ret) → Op → Prop) :
    Discipline Op Ret (List (Event Op Ret)) where
  rely past past' := past' = past
  rely_trans _ _ _ huv hvw := hvw.trans huv
  guard op past := law past op
  after op r past past' := past' = past ++ [⟨op, r⟩]

theorem follows_of_spec {law : List (Event Op Ret) → Op → Prop}
    {Q : α → List (Event Op Ret) → Prop} {p : Interaction Op Ret α}
    {past trace : List (Event Op Ret)} (h : (historyDiscipline law).Spec Q p past)
    (hbehaves : Behaves p trace) : Follows (fun past event => law past event.op) past trace := by
  induction p generalizing past trace with
  | done a =>
    rw [behaves_done hbehaves]
    trivial
  | perform op next ih =>
    obtain ⟨hlaw, hnext⟩ := h past rfl
    rcases hbehaves with ⟨a, hrun⟩ | hhalts
    · obtain ⟨r, rest, rfl, hrest⟩ := runs_perform_iff.mp hrun
      exact ⟨hlaw, ih r (hnext r _ rfl) (Or.inl ⟨a, hrest⟩)⟩
    · cases hhalts with
      | stop _ => trivial
      | perform hhalts => exact ⟨hlaw, ih _ (hnext _ _ rfl) (Or.inr hhalts)⟩

/-- A program that keeps a discipline is carried out by handlers that keep another one, if every
handler does for its operation what the first discipline says of the answer. -/
theorem spec_handle {Op' W : Type} {Ret' : Op' → Type} {D : Discipline Op Ret W}
    {D' : Discipline Op' Ret' W} {handler : (op : Op) → Interaction Op' Ret' (Ret op)}
    {Q : α → W → Prop} {p : Interaction Op Ret α} {w : W} (hrely : ∀ w, D.rely w w)
    (hhandler : ∀ op v, D.guard op v → D'.Spec (fun r v' => D.after op r v v') (handler op) v)
    (h : D.Spec Q p w) : D'.Spec Q (p.handle handler) w := by
  induction p generalizing w with
  | done a => exact h
  | perform op next ih =>
    obtain ⟨hguard, hnext⟩ := h w (hrely w)
    refine Discipline.Spec.bind (Discipline.Spec.weaken ?_ (hhandler op w hguard))
    exact fun r v' hafter => ih r (hnext r v' hafter)

end Interaction

end Scproxy
