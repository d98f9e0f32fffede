import Scproxy.DnsService
import Scproxy.NameJourney

namespace Scproxy

namespace DnsService

theorem response_receivedFrom (result : Except IoError (SocketAddrV4 × List UInt8)) :
    (DnsPhase.receivedFrom result).response = [] := by
  cases result with
  | ok packet => rfl
  | error error =>
    unfold DnsPhase.receivedFrom
    dsimp only
    split
    · rfl
    · rfl

theorem response_readQuery (client : SocketAddrV4)
    (result : Except DnsTcp.ServeError (Option (List UInt8))) :
    (DnsPhase.readQuery client result).response = [] := by
  cases result with
  | error error => rfl
  | ok query =>
    cases query with
    | none => rfl
    | some query => rfl

/-- A response is given to the client that asked, or to nobody. -/
theorem hands_answered (server : DnsServer) (a : DnsAnswer) :
    (DnsPhase.answered server a.client a.response).query = [] ∧
      (DnsPhase.answered server a.client a.response).response.Sublist a.reply.toList := by
  obtain ⟨client, query, response⟩ := a
  cases response with
  | none =>
    cases server with
    | udp => exact ⟨rfl, List.nil_sublist _⟩
    | tcp peer => exact ⟨rfl, List.nil_sublist _⟩
  | some response =>
    cases server with
    | udp => exact ⟨rfl, List.Sublist.refl _⟩
    | tcp peer =>
      unfold DnsPhase.answered
      dsimp only
      split
      · exact ⟨rfl, List.nil_sublist _⟩
      · exact ⟨rfl, List.Sublist.refl _⟩

theorem hands_sent (server : DnsServer) (result : Except IoError Unit) :
    (DnsPhase.sent server result).query = [] ∧ (DnsPhase.sent server result).response = [] := by
  cases result with
  | ok _ => exact ⟨rfl, rfl⟩
  | error error =>
    cases server with
    | udp => exact ⟨rfl, rfl⟩
    | tcp peer => exact ⟨rfl, rfl⟩

section

variable {s : DnsService} {task : Nat} {server : DnsServer}

theorem adds_answered {a : DnsAnswer} {mapping : FakeDns}
    (htask : s.tasks task = some ⟨server, .answering a.client a.query⟩) :
    Adds s { s.put task server (.answered server a.client a.response) with
      mapping := mapping
      answered := s.answered ++ [(task, a)] } task server (.answered server a.client a.response)
        [] [a] [] where
  tasks := rfl
  received := by simp [put]
  answered := rfl
  delivered := by simp [put]
  query := by
    rw [held_of_tasks htask, (hands_answered server a).1]
    rfl
  response := by
    have hreply : [a].filterMap DnsAnswer.reply = a.reply.toList := by
      cases hreply : a.reply with
      | none => rw [List.filterMap_cons_none hreply]; rfl
      | some reply => rw [List.filterMap_cons_some hreply]; rfl
    rw [held_of_tasks htask, hreply]
    exact (hands_answered server a).2

theorem adds_sent {client : SocketAddrV4} {response : List UInt8} {result : Except IoError Unit}
    (htask : s.tasks task = some ⟨server, .sending client response⟩) :
    Adds s { s.put task server (.sent server result) with
      delivered := s.delivered ++ if result.isOk then [(task, client, response)] else [] } task
        server (.sent server result) [] [] (if result.isOk then [(client, response)] else []) where
  tasks := rfl
  received := by simp [put]
  answered := by simp [put]
  delivered := by
    cases result with
    | ok _ => rfl
    | error error => rfl
  query := by
    rw [held_of_tasks htask, (hands_sent server result).1]
    rfl
  response := by
    rw [held_of_tasks htask, (hands_sent server result).2]
    cases result with
    | ok _ => exact List.Sublist.refl _
    | error error => exact List.nil_sublist _

end

theorem Sound.step {event : DnsEvent} {s t : DnsService} (hs : s.Sound) (h : Step event s t) :
    t.Sound := by
  cases event with
  | spawn task server =>
    obtain ⟨hnone, rfl⟩ := h
    have hheld : s.held DnsPhase.query task = [] := by
      rw [held, hnone]
      rfl
    exact hs.quiet (adds_put hheld rfl rfl) rfl
  | receiveFrom task result =>
    obtain ⟨htask, rfl⟩ := h
    exact hs.quiet (adds_received (held_of_tasks htask _) (response_receivedFrom result)) rfl
  | read task result =>
    obtain ⟨client, htask, rfl⟩ := h
    exact hs.quiet (adds_received (held_of_tasks htask _) (response_readQuery client result)) rfl
  | wake task =>
    obtain ⟨server, htask, rfl⟩ := h
    exact hs.quiet (adds_put (held_of_tasks htask _) rfl rfl) rfl
  | answer task =>
    obtain ⟨server, client, query, mapping, response, htask, hanswer, rfl⟩ := h
    have hadds := @adds_answered s task server ⟨client, query, response⟩ mapping htask
    exact hs.turn hadds hanswer
  | send task result =>
    obtain ⟨server, client, response, htask, rfl⟩ := h
    exact hs.quiet (adds_sent htask) rfl
  | expire task =>
    obtain ⟨client, phase, htask, hphase, rfl⟩ := h
    have hquery : phase.query = [] := by
      rcases hphase with rfl | ⟨response, rfl⟩
      · rfl
      · rfl
    exact hs.quiet (adds_put ((held_of_tasks htask _).trans hquery) rfl rfl) rfl

theorem sound_initial : initial.Sound where
  serves := rfl
  answers before entry after heq := by
    change [] = _ at heq
    simp at heq
  taken _ := rfl
  given _ := List.Sublist.refl _

theorem sound_of_reachable {s : DnsService} (h : dnsService.Reachable s) : s.Sound :=
  h.invariant (fun _ hstart => hstart ▸ sound_initial) fun _ _ _ hs _ hstep => hs.step hstep

/-- The servers together answer as one resolver does that takes the queries one after the other, in
the order of the turns at the mapping. Every task takes its turns in the order of its queries, and
what it delivers are answers to them, in this order and each to the client that asked. -/
theorem answers_in_turn {s : DnsService} (h : dnsService.Reachable s) :
    Resolver.serve .new s.queries = .ok s.mapping ∧
      (∀ before entry after, s.answered = before ++ entry :: after →
        entry.2.Sequential (before.map fun entry => entry.2.query)) ∧
      ∀ task, (ofTask task s.answered).map DnsAnswer.asked <+: ofTask task s.received ∧
        (ofTask task s.delivered).Sublist ((ofTask task s.answered).filterMap DnsAnswer.reply) := by
  have hs := sound_of_reachable h
  refine ⟨hs.serves, hs.answers, fun task => ⟨?_, ?_⟩⟩
  · rw [hs.taken task]
    exact List.prefix_append _ _
  · exact (List.sublist_append_left _ _).trans (hs.given task)

theorem reachable_next {s t : DnsService} (event : DnsEvent) (hs : dnsService.Reachable s)
    (h : Step event s t) : dnsService.Reachable t :=
  .next event hs trivial h

def localClient (port : UInt16) : SocketAddrV4 := ⟨.localhost, port⟩

/-- A datagram and a connection bring the same query. The connection takes the first turn. -/
theorem both_answered : ∃ s, dnsService.Reachable s ∧
    s.received = [(0, localClient 1000, plainQuery), (1, localClient 2000, plainQuery)] ∧
    (∃ first second, s.answered = [(1, ⟨localClient 2000, plainQuery, some first⟩),
      (0, ⟨localClient 1000, plainQuery, some second⟩)] ∧
      s.delivered = [(0, localClient 1000, second)]) := by
  have hquery : parseQuery plainQuery = .ok (some (0x1234, "a.b", 1)) := by decide +kernel
  have hstart : dnsService.Reachable initial := .start rfl
  have hudp := reachable_next (.spawn 0 .udp) hstart ⟨rfl, rfl⟩
  have htcp := reachable_next (.spawn 1 (.tcp (localClient 2000))) hudp ⟨rfl, rfl⟩
  have hpacket := reachable_next (.receiveFrom 0 (.ok (localClient 1000, plainQuery))) htcp
    ⟨rfl, rfl⟩
  have hread := reachable_next (.read 1 (.ok (some plainQuery))) hpacket ⟨_, rfl, rfl⟩
  have hfirst := reachable_next (.answer 1) hread ⟨_, _, _, _, _, rfl, answer_a hquery _, rfl⟩
  have hsecond := reachable_next (.answer 0) hfirst ⟨_, _, _, _, _, rfl, answer_a hquery _, rfl⟩
  have hsent := reachable_next (.send 0 (.ok ())) hsecond ⟨_, _, _, rfl, rfl⟩
  exact ⟨_, hsent, rfl, _, _, rfl, rfl⟩

theorem answers_in_turn_both : ∃ s, dnsService.Reachable s ∧ s.delivered.length = 1 ∧
    Resolver.serve .new s.queries = .ok s.mapping ∧
    (ofTask 0 s.delivered).Sublist ((ofTask 0 s.answered).filterMap DnsAnswer.reply) := by
  obtain ⟨s, hs, _, first, second, _, hdelivered⟩ := both_answered
  obtain ⟨hserves, _, htasks⟩ := answers_in_turn hs
  refine ⟨s, hs, ?_, hserves, (htasks 0).2⟩
  rw [hdelivered]
  rfl

end DnsService

end Scproxy
