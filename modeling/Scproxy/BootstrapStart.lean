import Scproxy.BootstrapInvariant

namespace Scproxy

namespace BootShared

/-- Whatever is killed and whatever fails, a command is executed only after the supervisor
has taken the listener and the probe that this command's metadata name, has tried both and the
command's memory, has started the broker with this listener, and has told the command so. -/
theorem exec_after_broker {command : List String} {s : BootSystem}
    (h : (bootSystem command).Reachable s) {party : BootParty} (hparty : party ∈ s.parties)
    {executed : List String} {next : IoError → BootProgram Unit}
    (hexec : party.program = .perform (.exec executed) next) :
    ∃ m listener probe, party.own = ⟨.command, false, true, .ready m, []⟩ ∧
      s.shared.sent = some m ∧ s.shared.acked = true ∧
      s.shared.uses = [.got m.tid m.listener listener, .got m.tid m.probe probe, .tcp probe,
        .addfd listener probe, .memoryRead m.tid m.address 0x6e,
        .memoryWritten m.tid m.address 0x6e, .receiver listener, .broker listener] := by
  have hsound := sound h
  obtain ⟨m, hown⟩ := hsound.guard hparty hexec
  have hagrees := hsound.agrees hparty
  rw [hown] at hagrees
  obtain ⟨m', listener, probe, hsent, huses⟩ := hsound.owned.told.acked hagrees.2
  have heq : m' = m := Option.some.inj (hsent.symm.trans hagrees.1)
  rw [heq] at huses
  exact ⟨m, listener, probe, hown, hagrees.1, hagrees.2, huses⟩

/-- A start-up in which nothing fails. -/
theorem exec_after_broker_true :
    ∃ s : BootSystem, ∃ party ∈ s.parties, (bootSystem ["true"]).Reachable s ∧
      (∃ next, party.program = .perform (.exec ["true"]) next) ∧
      ∃ m listener probe, party.own = ⟨.command, false, true, .ready m, []⟩ ∧
        s.shared.sent = some m ∧ s.shared.acked = true ∧
        s.shared.uses = [.got m.tid m.listener listener, .got m.tid m.probe probe, .tcp probe,
          .addfd listener probe, .memoryRead m.tid m.address 0x6e,
          .memoryWritten m.tid m.address 0x6e, .receiver listener, .broker listener] := by
  have hstart : (bootSystem ["true"]).Reachable _ := .start rfl
  have h0 := reachable_operate hstart [] [] .forkReaper (.ok ()) rfl rfl trivial
  have h1 := reachable_operate h0 [_] [] (.close .parent) () rfl rfl trivial
  have h2 := reachable_operate h1 [_] [] (.step .subreaper) (.ok ()) rfl rfl trivial
  have h3 := reachable_operate h2 [_] [] (.step .blockSignals) (.ok ()) rfl rfl trivial
  have h4 := reachable_operate h3 [_] [] .forkCommand (.ok ()) rfl rfl trivial
  have h5 := reachable_operate h4 [_, _] [] (.step .restoreMask) (.ok ()) rfl rfl trivial
  have h6 := reachable_operate h5 [_, _] [] .stream (.ok 5) rfl rfl trivial
  have h7 := reachable_operate h6 [_, _] [] .install (.ok 6) rfl rfl trivial
  have h8 := reachable_operate h7 [_, _] [] .gettid 9 rfl rfl trivial
  have h9 := reachable_operate h8 [_, _] [] .address 64 rfl rfl trivial
  have h10 := reachable_operate h9 [_, _] [] (.writeAll .child _) (.ok ()) rfl rfl
    ⟨_, List.mem_cons_self, rfl⟩
  have h11 := reachable_operate h10 [] [_, _] (.close .child) () rfl rfl trivial
  have h12 := reachable_operate h11 [] [_, _] (.step .runtime) (.ok ()) rfl rfl trivial
  have h13 := reachable_operate h12 [] [_, _] (.step .signalHandler) (.ok ()) rfl rfl trivial
  have h14 := reachable_operate h13 [] [_, _] (.step .signalHandler) (.ok ()) rfl rfl trivial
  have h15 := reachable_operate h14 [] [_, _] (.step .signalHandler) (.ok ()) rfl rfl trivial
  have h16 := reachable_operate h15 [] [_, _] (.readExact .parent 20) (.ok _) rfl rfl
    ⟨by decide, rfl⟩
  have h17 := reachable_operate h16 [] [_, _] (.step .probeAccess) (.ok ()) rfl rfl trivial
  have h18 := reachable_operate h17 [] [_, _] (.get _ _) (.ok 10) rfl rfl trivial
  have h19 := reachable_operate h18 [] [_, _] (.get _ _) (.ok 11) rfl rfl trivial
  have h20 := reachable_operate h19 [] [_, _] (.isTcpV4 11) (.ok true) rfl rfl trivial
  have h21 := reachable_operate h20 [] [_, _] (.step (.probeAddfd 10 11)) (.ok ()) rfl rfl trivial
  have h22 := reachable_operate h21 [] [_, _] (.readMemory _ _) (.ok 0x6e) rfl rfl trivial
  have h23 := reachable_operate h22 [] [_, _] (.step (.writeMemory _ _ 0x6e)) (.ok ()) rfl rfl
    trivial
  have h24 := reachable_operate h23 [] [_, _] (.step .diagnostics) (.ok ()) rfl rfl trivial
  have h25 := reachable_operate h24 [] [_, _] (.step (.receiver 10)) (.ok ()) rfl rfl trivial
  have h26 := reachable_operate h25 [] [_, _] (.startBroker 10) (.ok ()) rfl rfl trivial
  have h27 := reachable_operate h26 [] [_, _] (.writeAll .parent [1]) (.ok ()) rfl rfl
    ⟨_, List.mem_cons_of_mem _ (List.mem_cons_of_mem _ List.mem_cons_self), rfl⟩
  have h28 := reachable_operate h27 [_, _] [] (.readExact .child 1) (.ok [1]) rfl rfl
    ⟨by decide, rfl⟩
  have h29 := reachable_operate h28 [_, _] [] .memory 0x6e rfl rfl trivial
  have h30 := reachable_operate h29 [_, _] [] (.step .verifyBootstrap) (.ok ()) rfl rfl trivial
  refine ⟨_, _, List.mem_cons_of_mem _ (List.mem_cons_of_mem _ List.mem_cons_self), h30,
    ⟨_, rfl⟩, ?_⟩
  exact exec_after_broker h30
    (List.mem_cons_of_mem _ (List.mem_cons_of_mem _ List.mem_cons_self)) rfl

end BootShared

end Scproxy
