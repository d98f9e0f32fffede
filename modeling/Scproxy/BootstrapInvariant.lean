import Scproxy.BootstrapAgreement

namespace Scproxy

namespace BootShared

section Agreement

variable {s : BootShared} {before after : List BootOwn} {w : BootOwn}

/-- The supervisor takes the metadata that the command sent. -/
theorem Agreed.take {bytes : List UInt8}
    (h : s.Agreed (before ++ ⟨.supervisor, true, false, .early, []⟩ :: after))
    (hlength : 20 ≤ s.toParent.length) (hbytes : bytes = s.toParent.take 20) :
    Agreed { s with toParent := s.toParent.drop 20, taken := true }
      (before ++ ⟨.supervisor, true, false, .told (.decode bytes), []⟩ :: after) := by
  obtain ⟨htaken, huses, hacked⟩ := h.self
  have hqueue := h.told.toParent
  rw [htaken, if_neg (by decide)] at hqueue
  obtain ⟨m, hsent⟩ : ∃ m, s.sent = some m := by
    apply Option.ne_none_iff_exists'.mp
    intro hnone
    rw [hqueue, hnone] at hlength
    exact absurd hlength (by decide)
  have hencoded : s.toParent = m.encode := by rw [hqueue, hsent]; rfl
  have hall : s.toParent.take 20 = m.encode := by
    rw [hencoded]
    exact List.take_of_length_le m.encode_length.le
  have hnone : s.toParent.drop 20 = [] := by
    rw [hencoded]
    exact List.drop_eq_nil_of_le m.encode_length.le
  rw [hbytes, hall, Metadata.decode_encode, hnone]
  refine h.replace rfl nofun ?_ ⟨hsent, huses, hacked⟩ ?_
  · refine ⟨rfl, h.told.toChild, fun _ => ?_, h.told.acked, h.told.heard⟩
    rw [hsent]
    exact nofun
  · exact fun v _ hrole hv => hv.of_ne_supervisor hrole rfl rfl id

/-- No other process counts on nothing being sent. -/
theorem Agreed.agrees_send {m : Metadata}
    (h : s.Agreed (before ++ ⟨.command, false, true, .early, []⟩ :: after)) {v : BootOwn}
    (hv : v ∈ before ++ after) :
    Agrees { s with toParent := s.toParent ++ m.encode, sent := some m } v := by
  have hsent : s.sent = none := h.self.1
  have hrole : v.role ≠ .command := h.role_ne hv
  have hagrees := h.agrees v (mem_middle.mpr (Or.inr hv))
  have hforked := h.forked rfl hv
  obtain ⟨role, parent, child, phase, uses⟩ := v
  cases role with
  | command => exact absurd rfl hrole
  | supervisor =>
    cases phase with
    | unforked => exact absurd rfl hforked
    | early => exact hagrees
    | told m' => cases hsent.symm.trans hagrees.1
    | running m' => cases hsent.symm.trans hagrees.1
    | ready m' => trivial
  | reaper =>
    cases phase with
    | unforked => exact absurd rfl hforked
    | early | told _ | running _ | ready _ => trivial

theorem Agreed.send {m : Metadata}
    (h : s.Agreed (before ++ ⟨.command, false, true, .early, []⟩ :: after)) :
    Agreed { s with toParent := s.toParent ++ m.encode, sent := some m }
      (before ++ ⟨.command, false, true, .told m, []⟩ :: after) := by
  obtain ⟨hsent, hheard⟩ := h.self
  have htaken : s.taken = false := by
    by_contra htaken
    exact h.told.taken (by simpa using htaken) hsent
  have hempty : s.toParent = [] := by
    rw [h.told.toParent, htaken, hsent]
    rfl
  refine h.replace rfl nofun ?_ ⟨rfl, hheard⟩ fun v hv _ _ => h.agrees_send hv
  refine ⟨?_, h.told.toChild, fun _ => nofun, ?_, h.told.heard⟩
  · show s.toParent ++ m.encode = _
    rw [hempty, htaken]
    rfl
  · intro hacked
    obtain ⟨m', _, _, hm', _⟩ := h.told.acked hacked
    cases hsent.symm.trans hm'

/-- The supervisor uses something of the command, and may come to start the broker. -/
theorem Agreed.use {w' : BootOwn} {m : Metadata} {use : BootUse}
    (h : s.Agreed (before ++ w :: after)) (hrole : w.role = .supervisor)
    (hphase : w.phase = .told m) (hrole' : w'.role = .supervisor)
    (hphase' : w'.phase = .told m ∨ w'.phase = .running m) (huses' : w'.uses = w.uses ++ [use]) :
    Agreed { s with uses := s.uses ++ [use] } (before ++ w' :: after) := by
  have hself := h.self
  unfold Agrees at hself
  rw [hrole, hphase] at hself
  obtain ⟨hsent, huses, hacked⟩ := hself
  refine h.replace (hrole'.trans hrole.symm) ?_ ?_ ?_ ?_
  · rcases hphase' with hphase' | hphase' <;> rw [hphase'] <;> exact nofun
  · refine ⟨h.told.toParent, h.told.toChild, h.told.taken, fun hsoon => ?_, h.told.heard⟩
    cases hacked.symm.trans hsoon
  · have hused : s.uses ++ [use] = w'.uses := by rw [huses', huses]
    unfold Agrees
    rw [hrole']
    rcases hphase' with hphase' | hphase' <;> rw [hphase'] <;> exact ⟨hsent, hused, hacked⟩
  · exact fun v _ hne hv => hv.of_ne_supervisor (hrole ▸ hne) rfl rfl id

theorem Agreed.acknowledge {m : Metadata} {listener probe : Nat}
    (h : s.Agreed
      (before ++ ⟨.supervisor, true, false, .running m, brokerUses m listener probe⟩ :: after)) :
    Agreed { s with toChild := s.toChild ++ [1], acked := true }
      (before ++ ⟨.supervisor, true, false, .ready m, brokerUses m listener probe⟩ :: after) := by
  obtain ⟨hsent, huses, hacked⟩ := h.self
  have hheard : s.heard = false := by
    by_contra hheard
    cases hacked.symm.trans (h.told.heard (by simpa using hheard))
  have hempty : s.toChild = [] := by
    rw [h.told.toChild, hacked]
    rfl
  refine h.replace rfl nofun ?_ trivial ?_
  · refine ⟨h.told.toParent, ?_, h.told.taken, fun _ => ⟨m, listener, probe, hsent, huses⟩,
      fun _ => rfl⟩
    show s.toChild ++ [1] = _
    rw [hempty, hheard]
    rfl
  · exact fun v _ hrole hv => hv.of_ne_supervisor hrole rfl rfl fun _ => rfl

/-- The command reads the ready byte, and no other byte. -/
theorem Agreed.hear {m : Metadata} {bytes : List UInt8}
    (h : s.Agreed (before ++ ⟨.command, false, true, .told m, []⟩ :: after))
    (hlength : 1 ≤ s.toChild.length) (hbytes : bytes = s.toChild.take 1) :
    bytes = [1] ∧ Agreed { s with toChild := s.toChild.drop 1, heard := true }
      (before ++ ⟨.command, false, true, .ready m, []⟩ :: after) := by
  obtain ⟨hsent, hheard⟩ := h.self
  have hacked : s.acked = true := by
    by_contra hacked
    have hempty : s.toChild = [] := by
      rw [h.told.toChild, if_neg fun hboth => hacked hboth.1]
    rw [hempty] at hlength
    exact absurd hlength (by decide)
  have hqueue : s.toChild = [1] := by
    rw [h.told.toChild, hacked, hheard]
    rfl
  refine ⟨by rw [hbytes, hqueue]; rfl, h.replace rfl nofun ?_ ⟨hsent, hacked⟩ ?_⟩
  · refine ⟨h.told.toParent, ?_, h.told.taken, h.told.acked, fun _ => hacked⟩
    show s.toChild.drop 1 = _
    rw [hqueue, hacked]
    rfl
  · intro v hv hrole hagrees
    have hforked := h.forked rfl hv
    obtain ⟨role, parent, child, phase, uses⟩ := v
    cases role with
    | command => exact absurd rfl hrole
    | supervisor =>
      cases phase with
      | unforked => exact absurd rfl hforked
      | early | told _ | running _ => exact hagrees
      | ready _ => trivial
    | reaper =>
      cases phase with
      | unforked => exact absurd rfl hforked
      | early | told _ | running _ | ready _ => trivial

/-- An end of file leaves nothing behind: messages are whole or not there. -/
theorem Told.eof_parent (h : s.Told) (hlength : s.toParent.length < 20) : s.toParent = [] := by
  rw [h.toParent] at hlength ⊢
  split at hlength
  next htaken => rw [if_pos htaken]
  next htaken =>
    rw [if_neg htaken]
    cases hsent : s.sent with
    | none => rfl
    | some m =>
      rw [hsent] at hlength
      exact absurd m.encode_length (Nat.ne_of_lt hlength)

theorem Told.eof_child (hlength : s.toChild.length < 1) : s.toChild = [] :=
  List.eq_nil_of_length_eq_zero (by omega)

theorem Agreed.operate_step {step : BootStep} {r : Except IoError Unit}
    (h : s.Agreed (before ++ w :: after)) (hguard : bootDiscipline.guard (.step step) w) :
    (s.after (.step step) r).Agreed (before ++ w.after (.step step) r :: after) := by
  cases r with
  | error error => cases step <;> exact h
  | ok _ =>
    cases step with
    | probeAddfd listener probe =>
      obtain ⟨hrole, m, hphase⟩ := hguard
      exact h.use hrole hphase hrole (Or.inl hphase) rfl
    | writeMemory tid address byte =>
      obtain ⟨hrole, m, hphase⟩ := hguard
      exact h.use hrole hphase hrole (Or.inl hphase) rfl
    | receiver listener =>
      obtain ⟨hrole, m, hphase⟩ := hguard
      exact h.use hrole hphase hrole (Or.inl hphase) rfl
    | _ => exact h

theorem Agreed.operate_read {e : ControlEnd} {n : Nat} {r : Except IoError (List UInt8)}
    (h : s.Agreed (before ++ w :: after)) (hguard : bootDiscipline.guard (.readExact e n) w)
    (hallows : s.Allows (before ++ w :: after) (.readExact e n) r) :
    (s.after (.readExact e n) r).Agreed (before ++ w.after (.readExact e n) r :: after) := by
  cases e with
  | parent =>
    obtain ⟨rfl, rfl⟩ := hguard
    cases r with
    | ok bytes => exact h.take hallows.1 hallows.2
    | error error =>
      have hempty := h.told.eof_parent hallows.1
      have hsame : { s with toParent := [] } = s := by rw [← hempty]
      show Agreed { s with toParent := [] } _
      rw [hsame]
      exact h
  | child =>
    obtain ⟨⟨m, rfl⟩, rfl⟩ := hguard
    cases r with
    | ok bytes =>
      obtain ⟨rfl, hheard⟩ := h.hear hallows.1 hallows.2
      exact hheard
    | error error =>
      have hempty := Told.eof_child hallows.1
      have hsame : { s with toChild := [] } = s := by rw [← hempty]
      show Agreed { s with toChild := [] } _
      rw [hsame]
      exact h

theorem Agreed.operate_write {e : ControlEnd} {bytes : List UInt8} {r : Except IoError Unit}
    (h : s.Agreed (before ++ w :: after)) (hguard : bootDiscipline.guard (.writeAll e bytes) w) :
    (s.after (.writeAll e bytes) r).Agreed (before ++ w.after (.writeAll e bytes) r :: after) := by
  cases r with
  | error error => cases e <;> exact h
  | ok _ =>
    cases e with
    | parent =>
      obtain ⟨rfl, m, listener, probe, rfl⟩ := hguard
      exact h.acknowledge
    | child =>
      obtain ⟨rfl, m, rfl⟩ := hguard
      show Agreed { s with toParent := s.toParent ++ m.encode, sent := some (.decode m.encode) }
        (before ++ ⟨.command, false, true, .told (.decode m.encode), []⟩ :: after)
      rw [Metadata.decode_encode]
      exact h.send

/-- What one operation of a process does, as its program may expect, to the agreement. -/
theorem Agreed.operate {command : List String} {op : BootOperation} {r : op.Ret}
    {effect : BootEffect} (h : s.Agreed (before ++ w :: after))
    (hguard : bootDiscipline.guard op w)
    (hop : Operates command s (before ++ w :: after) w op r effect) :
    bootDiscipline.after op r w effect.own ∧
    (∀ party ∈ effect.started, Keeps (fun _ _ => True) party.program party.own) ∧
    effect.shared.Agreed (before ++ effect.own :: after ++ effect.started.map Party.own) := by
  obtain ⟨hallows, rfl⟩ := hop
  refine ⟨rfl, ?_⟩
  have halone : ∀ {t : BootShared} {w' : BootOwn}, t.Agreed (before ++ w' :: after) →
      (∀ party ∈ ([] : List BootParty), Keeps (fun _ _ => True) party.program party.own) ∧
      t.Agreed (before ++ w' :: after ++ ([] : List BootParty).map Party.own) :=
    fun ht => ⟨nofun, by simpa using ht⟩
  cases op with
  | forkReaper =>
    cases r with
    | error error => exact halone h
    | ok _ =>
      cases hguard
      obtain ⟨hsent, hheard, htaken, huses, hacked⟩ := h.self
      refine ⟨?_, h.fork rfl rfl rfl rfl ⟨htaken, huses, hacked⟩ ⟨hsent, hheard⟩⟩
      exact List.forall_mem_singleton.mpr keeps_runReaper
  | forkCommand =>
    cases r with
    | error error => exact halone h
    | ok _ =>
      cases hguard
      refine ⟨?_, h.fork rfl rfl rfl rfl trivial h.self⟩
      exact List.forall_mem_singleton.mpr (keeps_runCommand command)
  | close e =>
    cases e with
    | parent => exact halone (h.replace rfl id h.told h.self fun _ _ _ hv => hv)
    | child => exact halone (h.replace rfl id h.told h.self fun _ _ _ hv => hv)
  | readExact e n => exact halone (h.operate_read hguard hallows)
  | writeAll e bytes => exact halone (h.operate_write hguard)
  | step step => exact halone (h.operate_step hguard)
  | get tid fd =>
    obtain ⟨hrole, m, hphase⟩ := hguard
    cases r with
    | error error => exact halone h
    | ok _ => exact halone (h.use hrole hphase hrole (Or.inl hphase) rfl)
  | readMemory tid address =>
    obtain ⟨hrole, m, hphase⟩ := hguard
    cases r with
    | error error => exact halone h
    | ok _ => exact halone (h.use hrole hphase hrole (Or.inl hphase) rfl)
  | isTcpV4 fd =>
    obtain ⟨hrole, m, hphase⟩ := hguard
    cases r with
    | error error => exact halone h
    | ok tcp =>
      cases tcp with
      | false => exact halone h
      | true => exact halone (h.use hrole hphase hrole (Or.inl hphase) rfl)
  | startBroker listener =>
    cases r with
    | error error => exact halone h
    | ok _ =>
      obtain ⟨m, probe, rfl⟩ := hguard
      exact halone (h.use rfl rfl rfl (Or.inr rfl) rfl)
  | _ => exact halone h

end Agreement

def Sound (s : BootSystem) : Prop := s.Sound bootDiscipline (fun _ => True) Agreed

theorem Sound.step {command : List String} {event : BootEvent} {s t : BootSystem} (h : Sound s)
    (hstep : Step command event s t) : Sound t := by
  cases event with
  | operate =>
    refine Parties.Sound.operate h (fun _ => rfl) ?_ hstep
    intro before w after op r effect howns hagreed hguard hop
    rw [howns] at hop
    exact hagreed.operate hguard hop
  | exit =>
    refine Parties.Sound.leave h (fun _ => rfl) (fun _ _ _ _ => trivial) ?_ hstep
    exact fun before w after _ hagreed => hagreed.remove
  | die =>
    obtain ⟨before, party, after, hs, rfl⟩ := hstep
    exact Parties.Sound.remove h hs fun before after hagreed => hagreed.remove

theorem Sound.initial {s : BootSystem} (h : Initial s) : Sound s := by
  cases h
  constructor
  · exact List.forall_mem_singleton.mpr keeps_runSupervisor
  · refine ⟨⟨rfl, rfl, nofun, nofun, nofun⟩, ?_, List.nodup_singleton _, ?_⟩
    · exact List.forall_mem_singleton.mpr ⟨rfl, rfl, rfl, rfl, rfl⟩
    · intro v hv _ u hu
      rw [List.mem_singleton.mp hu, List.mem_singleton.mp hv]

theorem sound {command : List String} {s : BootSystem} (h : (bootSystem command).Reachable s) :
    Sound s :=
  h.invariant (fun _ hs => .initial hs) fun _ _ _ hs _ hstep => hs.step hstep

theorem Sound.guard {s : BootSystem} (h : Sound s) {party : BootParty} (hparty : party ∈ s.parties)
    {op : BootOperation} {next : op.Ret → BootProgram Unit}
    (hprogram : party.program = .perform op next) : bootDiscipline.guard op party.own :=
  Parties.Sound.guard h (fun _ => rfl) hparty hprogram

theorem Sound.agrees {s : BootSystem} (h : Sound s) {party : BootParty}
    (hparty : party ∈ s.parties) : s.shared.Agrees party.own :=
  h.owned.agrees _ (List.mem_map_of_mem hparty)

/-- A process gets an answer that its operation can have. -/
theorem reachable_operate {command : List String} {s : BootSystem}
    (h : (bootSystem command).Reachable s) (before after : List BootParty) {party : BootParty}
    (op : BootOperation) (r : op.Ret) {next : op.Ret → BootProgram Unit}
    (hs : s.parties = before ++ party :: after) (hprogram : party.program = .perform op next)
    (hallows : s.shared.Allows s.owns op r) :
    (bootSystem command).Reachable ⟨s.shared.after op r,
      before ++ ⟨party.own.after op r, next r⟩ :: after ++ started command party.own op r⟩ :=
  .next .operate h trivial ⟨before, party, after, op, next, r, _, hs, hprogram, ⟨hallows, rfl⟩, rfl⟩

end BootShared

end Scproxy
