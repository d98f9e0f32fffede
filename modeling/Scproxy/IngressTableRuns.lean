import Scproxy.IngressHanded

namespace Scproxy

open Ingress IngressTable

section

variable {relay : SocketAddrV4} {s t : IngressTable}

/-- The stream goes nowhere if no candidate was asked for both addresses. -/
theorem Handed.unmatched (h : Handed relay s) {search : Search} (hhand : s.hand = some search)
    (hstep : IngressTable.Step relay .finish s t)
    (hnone : ∀ pending ∈ s.candidates search.source.port, pending.sender = true →
      ¬Asked relay search.source pending.socket search.reads) : t = { s with hand := none } := by
  obtain ⟨search', result, hhand', hdone, rfl⟩ := hstep
  cases hhand.symm.trans hhand'
  cases result with
  | none => rfl
  | some index =>
    obtain ⟨_, _, hscanned⟩ := h.hand search hhand
    rw [hdone] at hscanned
    obtain ⟨taken, htaken, hsender, hasked⟩ := hscanned.found
    exact absurd hasked (hnone taken (List.mem_of_getElem? htaken) hsender)

/-- The answers of `deliver` are still true. -/
structure Current (relay : SocketAddrV4) (s : IngressTable) : Prop where
  hand : ∀ search, s.hand = some search → ∀ op address, (op, some address) ∈ search.reads →
    s.answer op = some address
  given : ∀ given ∈ s.given, given.endpoints = ⟨some given.source, some relay⟩

theorem Current.endpoints (h : Current relay s) {search : Search} (hhand : s.hand = some search)
    {socket : Nat} (hasked : Asked relay search.source socket search.reads) :
    s.sockets socket = ⟨some search.source, some relay⟩ := by
  have hlocal := h.hand search hhand _ _ hasked.1
  have hpeer := h.hand search hhand _ _ hasked.2
  exact congrArg₂ Endpoints.mk hlocal hpeer

theorem current_step {event : TableEvent} (h : Current relay s) (hhanded : Handed relay s)
    (hwhole : Whole event s) (hstep : IngressTable.Step relay event s t) : Current relay t := by
  have hfree : ∀ {u : IngressTable}, u.hand = s.hand → s.hand = none →
      ∀ search, u.hand = some search → ∀ op address, (op, some address) ∈ search.reads →
        u.answer op = some address := by
    intro u heq hnone search hsearch
    rw [heq, hnone] at hsearch
    cases hsearch
  cases event with
  | change socket endpoints =>
    cases hstep
    exact ⟨hfree rfl hwhole, h.given⟩
  | register socket fd port =>
    obtain ⟨hhand, _, rfl⟩ := hstep
    exact ⟨hfree rfl hhand, h.given⟩
  | unregister call =>
    obtain ⟨registration, _, hhand, rfl⟩ := hstep
    exact ⟨hfree rfl hhand, h.given⟩
  | accept source =>
    obtain ⟨_, rfl⟩ := hstep
    refine ⟨?_, h.given⟩
    rintro search ⟨⟩
    exact nofun
  | scan answer =>
    obtain ⟨stream, source, reads, op, next, hhand, hanswer, rfl⟩ := hstep
    refine ⟨?_, h.given⟩
    rintro search ⟨⟩ asked address hmem
    rcases List.mem_cons.mp hmem with heq | hmem
    · cases heq
      rcases hanswer with hanswer | hanswer
      · exact hanswer.symm
      · cases hanswer
    · exact h.hand _ hhand asked address hmem
  | finish =>
    obtain ⟨search, result, hhand, hdone, rfl⟩ := hstep
    cases result with
    | none => exact ⟨nofun, h.given⟩
    | some index =>
      obtain ⟨_, _, hscanned⟩ := hhanded.hand search hhand
      rw [hdone] at hscanned
      obtain ⟨taken, htaken, _, hasked⟩ := hscanned.found
      refine ⟨nofun, ?_⟩
      simp only [IngressTable.settle, htaken]
      exact List.forall_mem_cons.mpr ⟨h.endpoints hhand hasked, h.given⟩

theorem current_initial (h : s.Initial) : Current relay s := by
  obtain ⟨_, _, hhand, hgiven⟩ := h
  constructor
  · simp [hhand]
  · simp [hgiven]

theorem current_of_whole (h : (ingressTable relay).ReachableWith Whole s) : Current relay s := by
  have hboth := h.invariant (I := fun s => (Listed s ∧ Handed relay s) ∧ Current relay s)
    (fun _ hs => ⟨⟨listed_initial hs, handed_initial hs⟩, current_initial hs⟩)
    fun _ _ _ hs hwhole hstep => ⟨⟨listed_step hs.1.1 hstep, handed_step hs.1.2 hs.1.1 hstep⟩,
      current_step hs.2 hs.1.2 hwhole hstep⟩
  exact hboth.2

end

/-- In every run the table has one candidate for each live registration under its
port and no empty list, no channel and no stream is given twice, a stream is
given to a registration whose socket was found to have its addresses, one that
matches none changes nothing, and dropping a registration removes its own
candidate. The addresses hold at that moment if sockets change only between whole
operations. -/
theorem ingress_table {relay : SocketAddrV4} {s : IngressTable}
    (h : (ingressTable relay).Reachable s) :
    (∀ port list, s.waiting.lookup port = some list → list ≠ []) ∧
    (∀ call registration, s.registrations call = some registration →
      ((s.candidates registration.port).map (·.call)).count call = 1) ∧
    (∀ port, ∀ pending ∈ s.candidates port,
      s.registrations pending.call = some ⟨pending.fd, pending.socket, port⟩) ∧
    (s.given.map (·.call)).Nodup ∧ (s.given.map (·.stream)).Nodup ∧
    (∀ given ∈ s.given, Asked relay given.source given.socket given.reads ∧
      ∀ registration, s.registrations given.call = some registration →
        registration.socket = given.socket) ∧
    (∀ search t, s.hand = some search → IngressTable.Step relay .finish s t →
      (∀ pending ∈ s.candidates search.source.port, pending.sender = true →
        ¬Asked relay search.source pending.socket search.reads) → t = { s with hand := none }) ∧
    (∀ call t, IngressTable.Step relay (.unregister call) s t → ∀ port,
      t.candidates port = (s.candidates port).filter fun pending => pending.call ≠ call) ∧
    ((ingressTable relay).ReachableWith Whole s →
      (∀ given ∈ s.given, given.endpoints = ⟨some given.source, some relay⟩) ∧
      ∀ search t, s.hand = some search → IngressTable.Step relay .finish s t →
        (∀ pending ∈ s.candidates search.source.port, pending.sender = true →
          s.sockets pending.socket ≠ ⟨some search.source, some relay⟩) →
        t = { s with hand := none }) := by
  obtain ⟨hlisted, hhanded⟩ := handed_of_reachable h
  refine ⟨hlisted.filled, ?_, hlisted.entries, hhanded.calls, hhanded.streams, ?_, ?_, ?_, ?_⟩
  · intro call registration hcall
    exact List.count_eq_one_of_mem (hlisted.nodup _) (hlisted.listed call registration hcall)
  · exact fun given hgiven => ⟨hhanded.asked given hgiven, hhanded.owner given hgiven⟩
  · exact fun search t hhand hstep hnone => hhanded.unmatched hhand hstep hnone
  · rintro call t ⟨registration, hcall, _, rfl⟩ port
    exact hlisted.candidates_drop hcall port
  · intro hwhole
    have hcurrent := current_of_whole hwhole
    refine ⟨hcurrent.given, ?_⟩
    intro search t hhand hstep hnone
    refine hhanded.unmatched hhand hstep ?_
    exact fun pending hmem hsender hasked =>
      hnone pending hmem hsender (hcurrent.endpoints hhand hasked)

namespace IngressTable

def initial : IngressTable := ⟨fun _ => ⟨none, none⟩, 0, fun _ => none, ∅, 0, none, []⟩

theorem reachable_next {relay : SocketAddrV4} {s t : IngressTable} (event : TableEvent)
    (h : (ingressTable relay).ReachableWith Whole s) (hwhole : Whole event s)
    (hstep : Step relay event s t) : (ingressTable relay).ReachableWith Whole t :=
  .next event h hwhole hstep

end IngressTable

/-- Two registrations on one port. A stranger from that port is given to none of
them, and the first one is dropped after it was given its stream. -/
theorem ingress_table_shared : ∃ s,
    (ingressTable Reconnect.relay).ReachableWith Whole s ∧
    s.given.map (·.call) = [0] ∧ (s.candidates 4000).map (·.call) = [1] ∧
    ∀ given ∈ s.given, given.endpoints = ⟨some given.source, some Reconnect.relay⟩ := by
  have hstart : (ingressTable Reconnect.relay).ReachableWith Whole initial :=
    .start ⟨fun _ => rfl, rfl, rfl, rfl⟩
  have hfirst := reachable_next (.register 0 10 4000) hstart trivial
    ⟨rfl, fun _ _ hf => (nomatch hf), rfl⟩
  have hfd : ∀ call registration, (initial.addRegistration ⟨10, 0, 4000⟩).registrations call =
      some registration → registration.fd ≠ 11 := by
    intro call registration hcall
    rcases registrations_add.mp hcall with ⟨_, rfl⟩ | ⟨_, hold⟩
    · decide
    · cases hold
  have hsecond := reachable_next (.register 1 11 4000) hfirst trivial ⟨rfl, hfd, rfl⟩
  have hconnect := reachable_next
    (.change 0 ⟨some Reconnect.source, some Reconnect.relay⟩) hsecond rfl rfl
  have hstranger := reachable_next (.accept ⟨.new 127 0 0 2, 4000⟩) hconnect trivial ⟨rfl, rfl⟩
  have hlocal := reachable_next (.scan (some Reconnect.source)) hstranger trivial
    ⟨_, _, _, .localAddress 0, _, rfl, .inl rfl, rfl⟩
  have hother := reachable_next (.scan none) hlocal trivial
    ⟨_, _, _, .localAddress 1, _, rfl, .inl rfl, rfl⟩
  have hdropped := reachable_next .finish hother trivial ⟨_, none, rfl, rfl, rfl⟩
  have haccept := reachable_next (.accept Reconnect.source) hdropped trivial ⟨rfl, rfl⟩
  have hlocal' := reachable_next (.scan (some Reconnect.source)) haccept trivial
    ⟨_, _, _, .localAddress 0, _, rfl, .inl rfl, rfl⟩
  have hpeer := reachable_next (.scan (some Reconnect.relay)) hlocal' trivial
    ⟨_, _, _, .peerAddress 0, _, rfl, .inl rfl, rfl⟩
  have hgiven := reachable_next .finish hpeer trivial ⟨_, some 0, rfl, rfl, rfl⟩
  have hdrop := reachable_next (.unregister 0) hgiven trivial ⟨_, rfl, rfl, rfl⟩
  have htable := ingress_table hdrop.reachable
  exact ⟨_, hdrop, rfl, rfl, (htable.2.2.2.2.2.2.2.2 hdrop).1⟩

end Scproxy
