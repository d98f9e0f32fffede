import Scproxy.BootstrapDiscipline

namespace Scproxy

/-- A process is forked by one of lower rank. -/
def BootRole.rank : BootRole → Nat
  | supervisor => 0
  | reaper => 1
  | command => 2

namespace BootShared

/-- What has happened, as far as a process knows. -/
def Agrees (s : BootShared) (w : BootOwn) : Prop :=
  match w.role, w.phase with
  | .supervisor, .unforked =>
    s.sent = none ∧ s.heard = false ∧ s.taken = false ∧ s.uses = w.uses ∧ s.acked = false
  | .supervisor, .early => s.taken = false ∧ s.uses = w.uses ∧ s.acked = false
  | .supervisor, .told m | .supervisor, .running m =>
    s.sent = some m ∧ s.uses = w.uses ∧ s.acked = false
  | .reaper, .unforked | .command, .early => s.sent = none ∧ s.heard = false
  | .command, .told m => s.sent = some m ∧ s.heard = false
  | .command, .ready m => s.sent = some m ∧ s.acked = true
  | _, _ => True

/-- The sockets hold what was written and not read, and the ready byte was sent after the
broker was started with what the metadata name. -/
structure Told (s : BootShared) : Prop where
  toParent : s.toParent = if s.taken then [] else (s.sent.map Metadata.encode).getD []
  toChild : s.toChild = if s.acked ∧ ¬s.heard then [1] else []
  taken : s.taken = true → s.sent ≠ none
  acked : s.acked = true → ∃ m listener probe, s.sent = some m ∧
    s.uses = brokerUses m listener probe
  heard : s.heard = true → s.acked = true

/-- There is at most one process of each role, and none that is still to be forked. -/
structure Agreed (s : BootShared) (owns : List BootOwn) : Prop where
  told : s.Told
  agrees : ∀ v ∈ owns, s.Agrees v
  roles : (owns.map BootOwn.role).Nodup
  unforked : ∀ v ∈ owns, v.phase = .unforked → ∀ u ∈ owns, u.role.rank ≤ v.role.rank

section Agreement

variable {s : BootShared} {before after : List BootOwn} {w : BootOwn}

theorem mem_middle {v : BootOwn} : v ∈ before ++ w :: after ↔ v = w ∨ v ∈ before ++ after := by
  simp only [List.mem_append, List.mem_cons]
  tauto

theorem Agreed.remove (h : s.Agreed (before ++ w :: after)) : s.Agreed (before ++ after) := by
  have hsub : (before ++ after).Sublist (before ++ w :: after) :=
    (List.Sublist.refl before).append (List.sublist_cons_self w after)
  refine ⟨h.told, fun v hv => h.agrees v (hsub.subset hv), ?_, ?_⟩
  · exact h.roles.sublist (hsub.map BootOwn.role)
  · exact fun v hv hphase u hu => h.unforked v (hsub.subset hv) hphase u (hsub.subset hu)

theorem Agreed.role_ne (h : s.Agreed (before ++ w :: after)) {v : BootOwn}
    (hv : v ∈ before ++ after) : v.role ≠ w.role := by
  have hperm : ((before ++ w :: after).map BootOwn.role).Perm
      (w.role :: (before ++ after).map BootOwn.role) := List.perm_middle.map BootOwn.role
  have hnotMem := (List.nodup_cons.mp (hperm.nodup_iff.mp h.roles)).1
  exact fun heq => hnotMem (heq ▸ List.mem_map_of_mem hv)

/-- A process of the same role takes its place. -/
theorem Agreed.replace (h : s.Agreed (before ++ w :: after)) {t : BootShared} {w' : BootOwn}
    (hrole : w'.role = w.role) (hphase : w'.phase = .unforked → w.phase = .unforked)
    (htold : t.Told) (hagrees : t.Agrees w')
    (hothers : ∀ v ∈ before ++ after, v.role ≠ w.role → s.Agrees v → t.Agrees v) :
    t.Agreed (before ++ w' :: after) := by
  have hranks : ∀ u ∈ before ++ w' :: after, ∃ u' ∈ before ++ w :: after,
      u'.role = u.role ∧ (u.phase = .unforked → u'.phase = .unforked) := by
    intro u hu
    rcases mem_middle.mp hu with rfl | hu
    · exact ⟨w, mem_middle.mpr (Or.inl rfl), hrole.symm, hphase⟩
    · exact ⟨u, mem_middle.mpr (Or.inr hu), rfl, id⟩
  refine ⟨htold, ?_, ?_, ?_⟩
  · intro v hv
    rcases mem_middle.mp hv with rfl | hv
    · exact hagrees
    · exact hothers v hv (h.role_ne hv) (h.agrees v (mem_middle.mpr (Or.inr hv)))
  · have hroles := h.roles
    rw [List.map_append, List.map_cons] at hroles ⊢
    rwa [hrole]
  · intro v hv hunforked u hu
    obtain ⟨v', hv', hvrole, hvphase⟩ := hranks v hv
    obtain ⟨u', hu', hurole, _⟩ := hranks u hu
    rw [← hvrole, ← hurole]
    exact h.unforked v' hv' (hvphase hunforked) u' hu'

/-- A process whose fork made a new one, with a role that no process has. -/
theorem Agreed.fork (h : s.Agreed (before ++ w :: after)) (hunforked : w.phase = .unforked)
    {w' new : BootOwn} (hrole : w'.role = w.role) (hphase : w'.phase = .early)
    (hrank : new.role.rank = w.role.rank + 1) (hagrees : s.Agrees w') (hnew : s.Agrees new) :
    s.Agreed (before ++ w' :: after ++ [new]) := by
  have hkept : s.Agreed (before ++ w' :: after) := by
    refine h.replace hrole (fun _ => hunforked) h.told hagrees fun _ _ _ hv => hv
  have hranks : ∀ u ∈ before ++ w' :: after, u.role.rank ≤ w.role.rank := by
    intro u hu
    rcases mem_middle.mp hu with rfl | hu
    · rw [hrole]
    · exact h.unforked w (mem_middle.mpr (Or.inl rfl)) hunforked u (mem_middle.mpr (Or.inr hu))
  refine ⟨hkept.told, ?_, ?_, ?_⟩
  · rw [List.forall_mem_append, List.forall_mem_singleton]
    exact ⟨hkept.agrees, hnew⟩
  · rw [List.map_append, List.nodup_append]
    refine ⟨hkept.roles, List.nodup_singleton _, ?_⟩
    rintro a ha b hb rfl
    obtain ⟨u, hu, rfl⟩ := List.mem_map.mp ha
    have hle := hranks u hu
    rw [List.mem_singleton.mp hb] at hle
    omega
  · intro v hv hphase' u hu
    have hbound : ∀ x ∈ before ++ w' :: after ++ [new], x.role.rank ≤ new.role.rank := by
      rw [List.forall_mem_append, List.forall_mem_singleton]
      exact ⟨fun x hx => by have := hranks x hx; omega, le_refl _⟩
    rcases List.mem_append.mp hv with hv | hv
    · rcases mem_middle.mp hv with rfl | hv
      · rw [hphase] at hphase'
        cases hphase'
      · have hmem : v ∈ before ++ w :: after := mem_middle.mpr (Or.inr hv)
        have hlow := h.unforked v hmem hphase' w (mem_middle.mpr (Or.inl rfl))
        have hhigh := h.unforked w (mem_middle.mpr (Or.inl rfl)) hunforked v hmem
        have heq : v.role = w.role := by
          revert hlow hhigh
          cases v.role <;> cases w.role <;> simp [BootRole.rank]
        exact absurd heq (h.role_ne hv)
    · rw [List.mem_singleton.mp hv]
      exact hbound u hu

theorem Agreed.self (h : s.Agreed (before ++ w :: after)) : s.Agrees w :=
  h.agrees w (mem_middle.mpr (Or.inl rfl))

/-- What the supervisor does leaves the others in agreement. -/
theorem Agrees.of_ne_supervisor {t : BootShared} {v : BootOwn} (h : s.Agrees v)
    (hrole : v.role ≠ .supervisor) (hsent : t.sent = s.sent) (hheard : t.heard = s.heard)
    (hacked : s.acked = true → t.acked = true) : t.Agrees v := by
  obtain ⟨role, parent, child, phase, uses⟩ := v
  unfold Agrees at h ⊢
  rw [hsent, hheard]
  cases role with
  | supervisor => exact absurd rfl hrole
  | reaper =>
    cases phase with
    | unforked => exact h
    | early | told _ | running _ | ready _ => trivial
  | command =>
    cases phase with
    | ready m => exact ⟨h.1, hacked h.2⟩
    | early | told _ => exact h
    | unforked | running _ => trivial

/-- When there is a command, nothing is left to be forked. -/
theorem Agreed.forked (h : s.Agreed (before ++ w :: after)) (hw : w.role = .command) {v : BootOwn}
    (hv : v ∈ before ++ after) : v.phase ≠ .unforked := by
  intro hunforked
  have hrole := h.role_ne hv
  have hrank := h.unforked v (mem_middle.mpr (Or.inr hv)) hunforked w (mem_middle.mpr (Or.inl rfl))
  rw [hw] at hrank hrole
  revert hrank hrole
  cases v.role <;> simp [BootRole.rank]

end Agreement

end BootShared

end Scproxy
