import Scproxy.Interaction

namespace Scproxy

/-- A party runs a program and owns something meanwhile. -/
structure Party (Op : Type) (Ret : Op → Type) (Own : Type) where
  own : Own
  program : Interaction Op Ret Unit

/-- Parties with what they share. -/
structure Parties (Op : Type) (Ret : Op → Type) (Own Shared : Type) where
  shared : Shared
  parties : List (Party Op Ret Own)

/-- What an operation leaves: the shared state, what its party owns and the parties that it
starts. -/
structure PartyEffect (Op : Type) (Ret : Op → Type) (Own Shared : Type) where
  shared : Shared
  own : Own
  started : List (Party Op Ret Own)

namespace Parties

variable {Op : Type} {Ret : Op → Type} {Own Shared : Type}

def owns (s : Parties Op Ret Own Shared) : List Own := s.parties.map Party.own

/-- One party performs its next operation. -/
def Operate
    (operates : Shared → List Own → Own → (op : Op) → Ret op → PartyEffect Op Ret Own Shared → Prop)
    (s t : Parties Op Ret Own Shared) : Prop :=
  ∃ before party after op next r effect, s.parties = before ++ party :: after ∧
    party.program = .perform op next ∧ operates s.shared s.owns party.own op r effect ∧
    t = ⟨effect.shared, before ++ ⟨effect.own, next r⟩ :: after ++ effect.started⟩

def Join (party : Party Op Ret Own) (s t : Parties Op Ret Own Shared) : Prop :=
  t = { s with parties := s.parties ++ [party] }

/-- A party whose program has ended, or stands at an operation without an answer, is gone. -/
def Leave (stops : Op → Prop) (s t : Parties Op Ret Own Shared) : Prop :=
  ∃ before party after, s.parties = before ++ party :: after ∧
    (party.program = .done () ∨ ∃ op next, stops op ∧ party.program = .perform op next) ∧
    t = { s with parties := before ++ after }

/-- Every program keeps its discipline from what its party owns, to an end at which `Q`
holds of that, and `I` relates what is shared to what the parties own. -/
structure Sound (D : Discipline Op Ret Own) (Q : Own → Prop) (I : Shared → List Own → Prop)
    (s : Parties Op Ret Own Shared) : Prop where
  keeps : ∀ party ∈ s.parties, D.Spec (fun _ own => Q own) party.program party.own
  owned : I s.shared s.owns

variable {operates : Shared → List Own → Own → (op : Op) → Ret op → PartyEffect Op Ret Own Shared → Prop}
  {D : Discipline Op Ret Own} {Q : Own → Prop} {I : Shared → List Own → Prop}
  {s t : Parties Op Ret Own Shared}

theorem owns_middle {before after : List (Party Op Ret Own)} {party : Party Op Ret Own}
    (hs : s.parties = before ++ party :: after) :
    s.owns = before.map Party.own ++ party.own :: after.map Party.own := by
  rw [owns, hs, List.map_append, List.map_cons]

theorem Sound.guard (h : s.Sound D Q I) (hrely : ∀ own, D.rely own own) {party : Party Op Ret Own}
    (hparty : party ∈ s.parties) {op : Op} {next : Ret op → Interaction Op Ret Unit}
    (hprogram : party.program = .perform op next) : D.guard op party.own := by
  have hkeeps := h.keeps party hparty
  rw [hprogram] at hkeeps
  exact (hkeeps party.own (hrely _)).1

/-- The rule for one operation of any party: its effect is what the discipline tells the
program, the parties that it starts keep the discipline, and `I` holds again. -/
theorem Sound.operate (h : s.Sound D Q I) (hrely : ∀ own, D.rely own own)
    (hstep : ∀ before own after op r effect, s.owns = before ++ own :: after →
      I s.shared (before ++ own :: after) → D.guard op own →
      operates s.shared s.owns own op r effect →
      D.after op r own effect.own ∧
      (∀ party ∈ effect.started, D.Spec (fun _ own => Q own) party.program party.own) ∧
      I effect.shared (before ++ effect.own :: after ++ effect.started.map Party.own))
    (ht : Operate operates s t) : t.Sound D Q I := by
  obtain ⟨before, party, after, op, next, r, effect, hs, hprogram, hop, rfl⟩ := ht
  have howned := h.owned
  rw [owns_middle hs] at howned
  have hmem : party ∈ s.parties := by
    rw [hs]
    simp
  obtain ⟨hafter, hstarted, hI⟩ := hstep _ party.own _ op r effect (owns_middle hs) howned
    (h.guard hrely hmem hprogram) hop
  constructor
  · have hkeeps := h.keeps
    rw [hs, List.forall_mem_append, List.forall_mem_cons, hprogram] at hkeeps
    obtain ⟨hbefore, hparty, hrest⟩ := hkeeps
    rw [List.forall_mem_append, List.forall_mem_append, List.forall_mem_cons]
    exact ⟨⟨hbefore, (hparty party.own (hrely _)).2 r _ hafter, hrest⟩, hstarted⟩
  · simpa [owns] using hI

theorem Sound.join {party : Party Op Ret Own} (h : s.Sound D Q I)
    (hkeeps : D.Spec (fun _ own => Q own) party.program party.own)
    (hI : I s.shared s.owns → I s.shared (s.owns ++ [party.own])) (ht : Join party s t) :
    t.Sound D Q I := by
  cases ht
  constructor
  · rw [List.forall_mem_append, List.forall_mem_singleton]
    exact ⟨h.keeps, hkeeps⟩
  · simpa [owns] using hI h.owned

theorem Sound.remove {before after : List (Party Op Ret Own)} {party : Party Op Ret Own}
    (h : s.Sound D Q I) (hs : s.parties = before ++ party :: after)
    (hI : ∀ before after, I s.shared (before ++ party.own :: after) →
      I s.shared (before ++ after)) :
    Sound D Q I { s with parties := before ++ after } := by
  have hkeeps := h.keeps
  have howned := h.owned
  rw [owns_middle hs] at howned
  constructor
  · rw [hs, List.forall_mem_append, List.forall_mem_cons] at hkeeps
    rw [List.forall_mem_append]
    exact ⟨hkeeps.1, hkeeps.2.2⟩
  · simpa [owns] using hI _ _ howned

theorem Sound.leave {stops : Op → Prop} (h : s.Sound D Q I) (hrely : ∀ own, D.rely own own)
    (hstops : ∀ op own, stops op → D.guard op own → Q own)
    (hI : ∀ before own after, Q own → I s.shared (before ++ own :: after) →
      I s.shared (before ++ after))
    (ht : Leave stops s t) : t.Sound D Q I := by
  obtain ⟨before, party, after, hs, hended, rfl⟩ := ht
  have hmem : party ∈ s.parties := by
    rw [hs]
    simp
  have hQ : Q party.own := by
    rcases hended with hdone | ⟨op, next, hstop, hprogram⟩
    · have hparty := h.keeps party hmem
      rw [hdone] at hparty
      exact hparty
    · exact hstops op party.own hstop (h.guard hrely hmem hprogram)
  exact h.remove hs fun before after => hI before party.own after hQ

/-- A party that gets an answer can go on. -/
theorem exists_operate {party : Party Op Ret Own} (hparty : party ∈ s.parties) {op : Op}
    {next : Ret op → Interaction Op Ret Unit} (hprogram : party.program = .perform op next)
    (hop : ∃ r effect, operates s.shared s.owns party.own op r effect) :
    ∃ t, Operate operates s t := by
  obtain ⟨before, after, hs⟩ := List.append_of_mem hparty
  obtain ⟨r, effect, hop⟩ := hop
  exact ⟨_, before, party, after, op, next, r, effect, hs, hprogram, hop, rfl⟩

/-- A change of the shared state alone. -/
theorem Sound.change (h : s.Sound D Q I) {shared : Shared}
    (hI : I s.shared s.owns → I shared s.owns) : Sound D Q I { s with shared := shared } :=
  ⟨h.keeps, hI h.owned⟩

end Parties

end Scproxy
