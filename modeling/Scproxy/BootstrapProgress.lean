import Scproxy.BootstrapInvariant

namespace Scproxy

namespace BootShared

/-- Operations that may have to wait. -/
def Waits : BootOperation → Prop
  | .readExact _ _ | .waitTree | .waitChild => True
  | _ => False

theorem exists_answer {s : BootShared} (owns : List BootOwn) {op : BootOperation}
    (h : ¬Waits op) : ∃ r, s.Allows owns op r := by
  cases op with
  | readExact e n => exact absurd trivial h
  | waitTree => exact absurd trivial h
  | waitChild => exact absurd trivial h
  | writeAll e bytes =>
    by_cases hopen : ∃ v ∈ owns, v.holds e.other = true
    · exact ⟨.ok (), hopen⟩
    · refine ⟨.error (.os 32), fun v hv => ?_⟩
      by_contra hholds
      exact hopen ⟨v, hv, by simpa using hholds⟩
  | forkReaper | forkCommand | step _ | startBroker _ | get _ _ | isTcpV4 _ | readMemory _ _
  | stream | install => exact ⟨.error (.os Errno.eagain), trivial⟩
  | close _ | forwardSignal => exact ⟨(), trivial⟩
  | gettid | address | memory => exact ⟨0, trivial⟩
  | exec _ => exact ⟨.os Errno.enoent, trivial⟩

/-- A process can go on or end by itself. -/
def Goes (s : BootSystem) (party : BootParty) : Prop :=
  party.program = .done () ∨
    ∃ op next r, party.program = .perform op next ∧ s.shared.Allows s.owns op r

/-- Some process can go on or end by itself. -/
def Proceeds (command : List String) (s : BootSystem) : Prop :=
  (∃ t, Step command .operate s t) ∨ ∃ t, Step command .exit s t

theorem Goes.proceeds {command : List String} {s : BootSystem} {party : BootParty}
    (h : Goes s party) (hparty : party ∈ s.parties) : Proceeds command s := by
  rcases h with hdone | ⟨op, next, r, hprogram, hr⟩
  · obtain ⟨before, after, hs⟩ := List.append_of_mem hparty
    exact Or.inr ⟨_, before, party, after, hs, Or.inl hdone, rfl⟩
  · exact Or.inl (Parties.exists_operate hparty hprogram ⟨r, _, hr, rfl⟩)

/-- A process that is not at an operation that waits can go on. -/
theorem goes_or_waits (s : BootSystem) (party : BootParty) :
    Goes s party ∨ ∃ op next, party.program = .perform op next ∧ Waits op := by
  cases hprogram : party.program with
  | done _ => exact Or.inl (Or.inl hprogram)
  | perform op next =>
    by_cases hwaits : Waits op
    · exact Or.inr ⟨op, next, rfl, hwaits⟩
    · obtain ⟨r, hr⟩ := exists_answer (s := s.shared) s.owns hwaits
      exact Or.inl (Or.inr ⟨op, next, r, hprogram, hr⟩)

/-- A read has an answer, or a process has the other end open. -/
theorem goes_or_held {s : BootSystem} {party : BootParty} {e : ControlEnd} {n : Nat}
    {next : Except IoError (List UInt8) → BootProgram Unit}
    (hread : party.program = .perform (.readExact e n) next) :
    Goes s party ∨
      (s.shared.queue e).length < n ∧ ∃ holder ∈ s.parties, holder.own.holds e.other = true := by
  by_cases hlength : n ≤ (s.shared.queue e).length
  · exact Or.inl (Or.inr ⟨.readExact e n, next, .ok _, hread, hlength, rfl⟩)
  · have hshort : (s.shared.queue e).length < n := by omega
    by_cases hopen : ∃ holder ∈ s.parties, holder.own.holds e.other = true
    · exact Or.inr ⟨hshort, hopen⟩
    · refine Or.inl (Or.inr ⟨.readExact e n, next, .error _, hread, hshort, fun v hv => ?_, rfl⟩)
      obtain ⟨holder, hholder, rfl⟩ := List.mem_map.mp hv
      by_contra hholds
      exact hopen ⟨holder, hholder, by simpa using hholds⟩

/-- When the command waits for the ready byte, its metadata are there to be read. -/
theorem Sound.metadata_there {s : BootSystem} (h : Sound s) {supervisor command : BootParty}
    (hsupervisor : supervisor ∈ s.parties) (hcommand : command ∈ s.parties) {m : Metadata}
    (hearly : supervisor.own = ⟨.supervisor, true, false, .early, []⟩)
    (htold : command.own = ⟨.command, false, true, .told m, []⟩) :
    s.shared.toParent.length = 20 := by
  have htaken := h.agrees hsupervisor
  have hsent := h.agrees hcommand
  rw [hearly] at htaken
  rw [htold] at hsent
  have hqueue : s.shared.toParent = m.encode := by
    rw [h.owned.told.toParent, htaken.1, hsent.1]
    rfl
  rw [hqueue, m.encode_length]

/-- The supervisor's read: whoever has the command's end open can go on. -/
theorem Sound.goes_parent {s : BootSystem} (h : Sound s) {party holder : BootParty}
    (hparty : party ∈ s.parties) (hearly : party.own = ⟨.supervisor, true, false, .early, []⟩)
    (hshort : s.shared.toParent.length < 20) (hholder : holder ∈ s.parties)
    (hchild : holder.own.child = true) : Goes s holder := by
  rcases goes_or_waits s holder with hgoes | ⟨op, next, hprogram, hwaits⟩
  · exact hgoes
  · have hguard := h.guard hholder hprogram
    cases op with
    | readExact e n =>
      cases e with
      | parent =>
        rw [hguard.1] at hchild
        cases hchild
      | child =>
        obtain ⟨⟨m, hm⟩, _⟩ := hguard
        have hlength := h.metadata_there hparty hholder hearly hm
        omega
    | waitTree =>
      rw [hguard.2.2] at hchild
      cases hchild
    | waitChild =>
      rw [hguard.2.2] at hchild
      cases hchild
    | _ => exact absurd hwaits id

/-- The command's read: whoever has the supervisor's end open can go on. -/
theorem Sound.goes_child {s : BootSystem} (h : Sound s) {party holder : BootParty} {m : Metadata}
    (hparty : party ∈ s.parties) (htold : party.own = ⟨.command, false, true, .told m, []⟩)
    (hholder : holder ∈ s.parties) (hparent : holder.own.parent = true) : Goes s holder := by
  rcases goes_or_waits s holder with hgoes | ⟨op, next, hprogram, hwaits⟩
  · exact hgoes
  · have hguard := h.guard hholder hprogram
    cases op with
    | readExact e n =>
      cases e with
      | parent =>
        obtain ⟨hearly, rfl⟩ := hguard
        have hlength := h.metadata_there hholder hparty hearly htold
        exact Or.inr ⟨.readExact .parent 20, next, .ok _, hprogram, hlength.ge, rfl⟩
      | child =>
        obtain ⟨⟨m, hm⟩, _⟩ := hguard
        rw [hm] at hparent
        cases hparent
    | waitTree =>
      rw [hguard.2.1] at hparent
      cases hparent
    | waitChild =>
      rw [hguard.2.1] at hparent
      cases hparent
    | _ => exact absurd hwaits id

/-- The start-up never hangs: a process that waits for the other's bytes can go on, or the
other end is open, and then each process that has it open can go on by itself, whatever has
failed or was killed. -/
theorem start_up_proceeds {command : List String} {s : BootSystem}
    (h : (bootSystem command).Reachable s) {party : BootParty} (hparty : party ∈ s.parties)
    {e : ControlEnd} {n : Nat} {next : Except IoError (List UInt8) → BootProgram Unit}
    (hread : party.program = .perform (.readExact e n) next) :
    (Goes s party ∨ (∃ holder ∈ s.parties, holder.own.holds e.other = true) ∧
      ∀ holder ∈ s.parties, holder.own.holds e.other = true → Goes s holder) ∧
    Proceeds command s := by
  have hsound := sound h
  rcases goes_or_held (s := s) hread with hgoes | ⟨hshort, hheld⟩
  · exact ⟨Or.inl hgoes, hgoes.proceeds hparty⟩
  · have hholders : ∀ holder ∈ s.parties, holder.own.holds e.other = true → Goes s holder := by
      intro holder hholder hholds
      have hguard := hsound.guard hparty hread
      cases e with
      | parent =>
        obtain ⟨hearly, rfl⟩ := hguard
        exact hsound.goes_parent hparty hearly hshort hholder hholds
      | child =>
        obtain ⟨⟨m, htold⟩, _⟩ := hguard
        exact hsound.goes_child hparty htold hholder hholds
    obtain ⟨holder, hholder, hholds⟩ := hheld
    exact ⟨Or.inr ⟨⟨holder, hholder, hholds⟩, hholders⟩,
      (hholders holder hholder hholds).proceeds hholder⟩

/-- The supervisor waits for the metadata while the reaper, which has both ends open, has not
taken a step. -/
theorem start_up_proceeds_forked :
    ∃ s : BootSystem, (bootSystem ["true"]).Reachable s ∧ ∃ party ∈ s.parties, ∃ next,
      party.program = .perform (.readExact .parent 20) next ∧
      (Goes s party ∨ (∃ holder ∈ s.parties, holder.own.child = true) ∧
        ∀ holder ∈ s.parties, holder.own.child = true → Goes s holder) ∧
      Proceeds ["true"] s := by
  have hstart : (bootSystem ["true"]).Reachable _ := .start rfl
  have hforked := reachable_operate hstart [] [] .forkReaper (.ok ()) rfl rfl trivial
  have hclosed := reachable_operate hforked [] [_] (.close .child) () rfl rfl trivial
  have hruntime := reachable_operate hclosed [] [_] (.step .runtime) (.ok ()) rfl rfl trivial
  have hterm := reachable_operate hruntime [] [_] (.step .signalHandler) (.ok ()) rfl rfl trivial
  have hint := reachable_operate hterm [] [_] (.step .signalHandler) (.ok ()) rfl rfl trivial
  have hhup := reachable_operate hint [] [_] (.step .signalHandler) (.ok ()) rfl rfl trivial
  exact ⟨_, hhup, _, List.mem_cons_self, _, rfl, start_up_proceeds hhup List.mem_cons_self rfl⟩

end BootShared

end Scproxy
