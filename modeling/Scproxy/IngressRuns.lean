import Scproxy.IngressMatching

namespace Scproxy

open Ingress

section

variable {relay : SocketAddrV4} {s t : IngressSystem}

theorem endpoints_unshared {socket : Nat} (h : IngressOk relay s) {phase : Phase}
    (hphase : phase.endpoints = (s.sockets socket).endpoints) :
    ∀ pair, phase.endpoints = some pair → ∀ other, other ≠ socket →
      (s.sockets other).endpoints ≠ some pair := by
  intro pair hpair other hother hshared
  rw [hphase] at hpair
  exact hother (h.distinct other socket pair hshared hpair)

theorem streams_enqueue (s : IngressSystem) (stream : IngressStream) :
    (s.enqueue stream).streams = s.streams ++ [stream] := by
  simp [IngressSystem.streams, IngressSystem.enqueue]

/-- A connection to the relay is made. -/
theorem IngressOk.establish {socket : Nat} {call : Option Nat} {source : SocketAddrV4}
    (h : IngressOk relay s) (hsocket : s.sockets socket = .connecting call source relay)
    (hwaiting : ∀ pending, Waits s.waiting pending → pending.socket = socket →
      call = some pending.call)
    (hstreams : ∀ stream ∈ s.streams, stream.source ≠ source) (hreading : ¬s.Reading socket) :
    IngressOk relay
      ((s.setSocket socket (.connected call source relay)).enqueue ⟨source, call⟩) := by
  have hendpoints : (Phase.connected call source relay).endpoints =
      (s.sockets socket).endpoints := by
    rw [hsocket]
    rfl
  have hunshared := endpoints_unshared h hendpoints
  refine ⟨distinct_setSocket h hunshared, ?_, ?_, ?_, h.delivered⟩
  · intro other call' source' hother pending hpending hp
    rcases connected_setSocket hother with ⟨heq, hnew⟩ | ⟨_, hold⟩
    · cases hnew
      exact hwaiting pending hpending (hp.trans heq)
    · exact h.waiting other call' source' hold pending hpending hp
  · intro other call' source' hother stream hstream hsource
    rw [streams_enqueue] at hstream
    rcases connected_setSocket hother with ⟨heq, hnew⟩ | ⟨hne, hold⟩
    · cases hnew
      rcases List.mem_append.mp hstream with hin | hin
      · exact absurd hsource (hstreams stream hin)
      · rw [List.mem_singleton.mp hin]
    · rcases List.mem_append.mp hstream with hin | hin
      · exact h.streams other call' source' hold stream hin hsource
      · rw [List.mem_singleton.mp hin] at hsource
        have hshared : (s.sockets other).endpoints = some (source, relay) := by
          rw [hold, ← hsource]
          rfl
        exact absurd hshared (hunshared (source, relay) rfl other hne)
  · intro delivery hhand
    have hscan := h.hand delivery hhand
    obtain ⟨stream, program⟩ := delivery
    dsimp only at hscan ⊢
    cases hscan with
    | scanning rest index hdrop => exact .scanning rest index hdrop
    | reading pending rest index hdrop hsender hsource =>
      refine .reading pending rest index hdrop hsender ?_
      intro call' source' hother
      rcases connected_setSocket hother with ⟨heq, _⟩ | ⟨_, hold⟩
      · have hread : s.Reading pending.socket := ⟨stream, _, hhand⟩
        rw [heq] at hread
        exact absurd hread hreading
      · exact hsource call' source' hold
    | matched pending index hindex hcall => exact .matched pending index hindex hcall

theorem prepare_phase {phase phase' : Phase} {chosen port : UInt16}
    (h : phase.prepare chosen = some (phase', port)) :
    phase' = phase ∨ (∃ bound, phase = .idle bound) ∧ ∃ bound, phase' = .idle bound := by
  unfold Phase.prepare at h
  split at h
  next =>
    cases h
    exact .inl rfl
  next =>
    cases phase with
    | idle bound =>
      dsimp only at h
      split at h
      next => cases h
      next =>
        cases h
        exact .inr ⟨⟨bound, rfl⟩, _, rfl⟩
    | connecting call source peer => cases h
    | connected call source peer => cases h

theorem IngressOk.register {socket fd call : Nat} {chosen port : UInt16} {phase : Phase}
    (h : IngressOk relay s) (hhand : s.hand = none)
    (hrelay : ∀ call source, s.sockets socket ≠ .connected call source relay)
    (hprepare : (s.sockets socket).prepare chosen = some (phase, port)) :
    IngressOk relay ((s.setSocket socket phase).addRegistration call ⟨fd, socket, port⟩) := by
  have hphase : phase.endpoints = (s.sockets socket).endpoints ∧
      ∀ call source, phase ≠ .connected call source relay := by
    rcases prepare_phase hprepare with heq | ⟨⟨bound, hidle⟩, bound', hidle'⟩
    · rw [heq]
      exact ⟨rfl, hrelay⟩
    · rw [hidle, hidle']
      exact ⟨rfl, fun _ _ hf => nomatch hf⟩
  have hbound := h.setSocket (endpoints_unshared h hphase.1) hphase.2
  refine ⟨hbound.distinct, ?_, hbound.streams, ?_, hbound.delivered⟩
  · intro other call' source hother pending hpending hp
    rcases waits_push hpending with hold | hnew
    · exact hbound.waiting other call' source hother pending hold hp
    · subst hnew
      replace hp : socket = other := hp
      subst hp
      replace hother : (s.setSocket socket phase).sockets socket = _ := hother
      rw [s.setSocket_self] at hother
      exact absurd hother (hphase.2 call' source)
  · exact forall_of_hand_none hhand

theorem IngressOk.settle {stream : IngressStream} {result : Option Nat} (h : IngressOk relay s)
    (hhand : s.hand = some ⟨stream, .done result⟩) : IngressOk relay (s.settle stream result) := by
  have hqueue : ∀ other ∈ s.queue, other ∈ s.streams := by
    intro other hother
    exact List.mem_append_right _ hother
  cases result with
  | none =>
    exact h.sameSockets rfl (fun _ hw => hw) (fun other ho => hqueue other ho)
      (fun _ hf => nomatch hf) h.delivered
  | some index =>
    refine h.sameSockets rfl (fun _ hw => waits_take hw)
      (fun other ho => hqueue other ho) (fun _ hf => nomatch hf) ?_
    intro entry hentry
    rcases List.mem_append.mp hentry with hnew | hold
    · have hscan := h.hand _ hhand
      dsimp only at hscan
      generalize hprogram : (.done (some index) :
        Interaction AddressOp AddressOp.Ret (Option Nat)) = program at hscan
      cases hscan with
      | scanning rest index hdrop => cases findCandidate_done hprogram.symm
      | reading pending rest index hdrop hsender hsource => cases hprogram
      | matched pending index hindex hcall =>
        cases hprogram
        rw [hindex] at hnew
        have heq : entry = (pending.call, stream) := by simpa using hnew
        rw [heq]
        exact hcall
    · exact h.delivered entry hold

/-- One step under the condition. -/
theorem ingressOk_step {event : IngressEvent} (h : IngressOk relay s)
    (hcondition : IngressSystem.Undisturbed relay event s)
    (hstep : IngressSystem.Step relay event s t) : IngressOk relay t := by
  cases event with
  | begin socket =>
    obtain ⟨_, _, ht⟩ := hstep
    subst ht
    exact h.sameSockets rfl (fun _ hw => hw) (fun _ hs => hs) h.hand
      h.delivered
  | register socket fd chosen =>
    obtain ⟨call, phase, port, _, _, hhand, _, hprepare, ht⟩ := hstep
    subst ht
    exact h.register hhand hcondition hprepare
  | dial socket call source peer =>
    obtain ⟨_, _, hunshared, ht⟩ := hstep
    subst ht
    refine h.setSocket ?_ (fun _ _ hf => nomatch hf)
    intro pair hpair
    cases hpair
    exact hunshared
  | establish socket =>
    obtain ⟨call, source, peer, hsocket, ht⟩ := hstep
    subst ht
    split
    next hpeer =>
      subst hpeer
      obtain ⟨hwaiting, hstreams, hreading⟩ := hcondition call source hsocket
      exact h.establish hsocket hwaiting hstreams hreading
    next hpeer =>
      refine h.setSocket (endpoints_unshared h (by rw [hsocket]; rfl)) ?_
      intro call' source' hconnected
      cases hconnected
      exact hpeer rfl
  | release socket =>
    replace ht : t = s.setLock socket none := hstep
    subst ht
    exact h.sameSockets rfl (fun _ hw => hw) (fun _ hs => hs) h.hand
      h.delivered
  | unregister call =>
    obtain ⟨registration, _, hhand, ht⟩ := hstep
    subst ht
    refine h.sameSockets rfl (fun _ hw => waits_unregister hw)
      (fun _ hs => hs) ?_ h.delivered
    exact forall_of_hand_none hhand
  | disconnect socket bound =>
    replace ht : t = s.setSocket socket (.idle bound) := hstep
    subst ht
    exact h.setSocket (fun _ hf => nomatch hf) (fun _ _ hf => nomatch hf)
  | accept =>
    obtain ⟨stream, rest, hhand, hqueue, ht⟩ := hstep
    subst ht
    refine h.sameSockets rfl (fun _ hw => hw) ?_ ?_ h.delivered
    · intro other hother
      simpa [IngressSystem.streams, hhand, hqueue] using hother
    · intro delivery hdelivery
      cases hdelivery
      exact .scanning _ 0 rfl
  | scan answer =>
    obtain ⟨stream, op, next, hhand, hanswer, ht⟩ := hstep
    subst ht
    refine h.sameSockets rfl (fun _ hw => hw) ?_ ?_ h.delivered
    · intro other hother
      simpa [IngressSystem.streams, hhand] using hother
    · intro delivery hdelivery
      cases hdelivery
      have hread := ScanOk.read h hhand hanswer
      exact hread
  | finish =>
    obtain ⟨stream, result, hhand, ht⟩ := hstep
    subst ht
    exact h.settle hhand

theorem ingressOk_initial (h : s.Initial) : IngressOk relay s := by
  obtain ⟨hsockets, _, _, hwaiting, hqueue, hhand, hdelivered⟩ := h
  have hidle : ∀ socket call source, s.sockets socket ≠ .connected call source relay := by
    intro socket call source hconnected
    obtain ⟨bound, hbound⟩ := hsockets socket
    rw [hbound] at hconnected
    cases hconnected
  refine ⟨?_, ?_, ?_, ?_, ?_⟩
  · intro socket other pair hpair
    obtain ⟨bound, hbound⟩ := hsockets socket
    rw [hbound] at hpair
    cases hpair
  · intro socket call source hconnected
    exact absurd hconnected (hidle socket call source)
  · intro socket call source hconnected
    exact absurd hconnected (hidle socket call source)
  · exact forall_of_hand_none hhand
  · intro entry hentry
    rw [hdelivered] at hentry
    cases hentry

end

/-- In every run under the condition, a registration is only given the stream of
the connect call that created it. -/
theorem deliver_own_stream {relay : SocketAddrV4} {s : IngressSystem}
    (h : (ingressSystem relay).ReachableWith (IngressSystem.Undisturbed relay) s) :
    ∀ call stream, (call, stream) ∈ s.delivered → stream.call = some call := by
  have hok : IngressOk relay s :=
    Transition.ReachableWith.invariant (I := IngressOk relay) (fun _ hs => ingressOk_initial hs)
      (fun _ _ _ hs hcondition hstep => ingressOk_step hs hcondition hstep) h
  intro call stream hmem
  exact hok.delivered (call, stream) hmem

namespace Reconnect

def relay : SocketAddrV4 := ⟨.localhost, 5000⟩

/-- The address that the application bound its socket to. -/
def source : SocketAddrV4 := ⟨.localhost, 4000⟩

def initial : IngressSystem :=
  ⟨fun _ => .idle source, fun _ => none, 0, fun _ => none, ∅, [], none, []⟩

def registered : IngressSystem :=
  ({ initial.setLock 0 (some 0) with next := 1 }.setSocket 0 (.idle source)).addRegistration 0
    ⟨10, 0, 4000⟩

def connected : IngressSystem :=
  ((registered.setSocket 0 (.connecting (some 0) source relay)).setSocket 0
    (.connected (some 0) source relay)).enqueue ⟨source, some 0⟩

theorem reachable_next {allowed : IngressEvent → IngressSystem → Prop} {s t : IngressSystem}
    (event : IngressEvent) (h : (ingressSystem relay).ReachableWith allowed s)
    (hallowed : allowed event s) (hstep : IngressSystem.Step relay event s t) :
    (ingressSystem relay).ReachableWith allowed t :=
  .next event h hallowed hstep

/-- Only the first socket is ever connected. -/
def OthersIdle (s : IngressSystem) : Prop := ∀ other, other ≠ 0 → s.sockets other = .idle source

theorem OthersIdle.setSocket {s : IngressSystem} (h : OthersIdle s) (phase : Phase) :
    OthersIdle (s.setSocket 0 phase) := by
  intro other hother
  rw [s.setSocket_of_ne hother]
  exact h other hother

theorem OthersIdle.unshared {s : IngressSystem} (h : OthersIdle s)
    (pair : SocketAddrV4 × SocketAddrV4) :
    ∀ other, other ≠ 0 → (s.sockets other).endpoints ≠ some pair := by
  intro other hother
  rw [h other hother]
  exact fun hf => nomatch hf

theorem othersIdle_registered : OthersIdle registered := by
  have hinitial : OthersIdle initial := fun _ _ => rfl
  exact hinitial.setSocket (.idle source)

theorem reachable_connected :
    (ingressSystem relay).ReachableWith (IngressSystem.Undisturbed relay) connected := by
  have hinitial : (ingressSystem relay).ReachableWith (IngressSystem.Undisturbed relay) initial :=
    .start ⟨fun _ => ⟨_, rfl⟩, fun _ => rfl, fun _ => rfl, rfl, rfl, rfl, rfl⟩
  have hbegin := reachable_next (.begin 0) hinitial trivial ⟨rfl, ⟨source, rfl⟩, rfl⟩
  have hregister := reachable_next (.register 0 10 0) hbegin (fun _ _ hf => nomatch hf)
    ⟨0, .idle source, 4000, rfl, rfl, rfl, fun _ _ hf => (nomatch hf), rfl, rfl⟩
  have hown : ∀ call, some 0 = some call → registered.locks 0 = some call ∧
      (∃ registration, registered.registrations call = some registration) ∧ relay = relay := by
    intro call hcall
    cases hcall
    exact ⟨rfl, ⟨_, rfl⟩, rfl⟩
  have hdial := reachable_next (.dial 0 (some 0) source relay) hregister trivial
    ⟨⟨source, rfl⟩, hown, othersIdle_registered.unshared _, rfl⟩
  have hundisturbed : IngressSystem.Undisturbed relay (.establish 0)
      (registered.setSocket 0 (.connecting (some 0) source relay)) := by
    intro call source' hsocket
    rw [registered.setSocket_self] at hsocket
    cases hsocket
    refine ⟨?_, fun _ hf => (nomatch hf), ?_⟩
    · intro pending hpending _
      rcases waits_push hpending with ⟨_, _, _, hlookup, _⟩ | hnew
      · cases hlookup
      · rw [hnew]
    · intro hreading
      obtain ⟨_, _, hhand⟩ := hreading
      cases hhand
  exact reachable_next (.establish 0) hdial hundisturbed ⟨some 0, source, relay, rfl, rfl⟩

end Reconnect

/-- A connect to the relay and the delivery of its stream. -/
theorem deliver_own_stream_connect : ∃ s, (ingressSystem Reconnect.relay).ReachableWith
    (IngressSystem.Undisturbed Reconnect.relay) s ∧
    (0, ⟨Reconnect.source, some 0⟩) ∈ s.delivered ∧
    ∀ call stream, (call, stream) ∈ s.delivered → stream.call = some call := by
  have haccept := Reconnect.reachable_next .accept Reconnect.reachable_connected trivial
    ⟨⟨Reconnect.source, some 0⟩, [], rfl, rfl, rfl⟩
  have hlocal := Reconnect.reachable_next (.scan (some Reconnect.source)) haccept trivial
    ⟨_, _, _, rfl, .inl rfl, rfl⟩
  have hpeer := Reconnect.reachable_next (.scan (some Reconnect.relay)) hlocal trivial
    ⟨_, _, _, rfl, .inl rfl, rfl⟩
  have hfinish := Reconnect.reachable_next .finish hpeer trivial ⟨_, some 0, rfl, rfl⟩
  exact ⟨_, hfinish, List.mem_singleton_self _, deliver_own_stream hfinish⟩

/-- A socket bound to a fixed port is connected, disconnected before its stream
is accepted, and connected again: the first registration, which still waits, is
given the stream of the second connect. -/
theorem deliver_other_stream : ∃ s, (ingressSystem Reconnect.relay).Reachable s ∧
    (0, ⟨Reconnect.source, some 1⟩) ∈ s.delivered ∧
    ¬∀ call stream, (call, stream) ∈ s.delivered → stream.call = some call := by
  have hconnected := Reconnect.reachable_connected.reachable
  have hrelease := Reconnect.reachable_next (.release 0) hconnected trivial rfl
  have hdisconnect := Reconnect.reachable_next (.disconnect 0 Reconnect.source) hrelease trivial rfl
  have haccept := Reconnect.reachable_next .accept hdisconnect trivial
    ⟨⟨Reconnect.source, some 0⟩, [], rfl, rfl, rfl⟩
  have hlocal := Reconnect.reachable_next (.scan (some Reconnect.source)) haccept trivial
    ⟨_, _, _, rfl, .inl rfl, rfl⟩
  have hpeer := Reconnect.reachable_next (.scan none) hlocal trivial ⟨_, _, _, rfl, .inl rfl, rfl⟩
  have hdropped := Reconnect.reachable_next .finish hpeer trivial ⟨_, none, rfl, rfl⟩
  have hbegin := Reconnect.reachable_next (.begin 0) hdropped trivial
    ⟨rfl, ⟨Reconnect.source, rfl⟩, rfl⟩
  have hfd : ∀ other registration, Reconnect.connected.registrations other = some registration →
      registration.fd ≠ 11 := by
    intro other registration hother
    by_cases hzero : other = 0
    · subst other
      cases hother
      decide
    · replace hother : Function.update (fun _ => none) 0 _ other = some registration := hother
      rw [Function.update_of_ne hzero] at hother
      cases hother
  have hregister := Reconnect.reachable_next (.register 0 11 0) hbegin trivial
    ⟨1, .idle Reconnect.source, 4000, rfl, rfl, rfl, hfd, rfl, rfl⟩
  have hidle : Reconnect.OthersIdle ((Reconnect.connected.setSocket 0
      (.idle Reconnect.source)).setSocket 0 (.idle Reconnect.source)) :=
    (((Reconnect.othersIdle_registered.setSocket _).setSocket _).setSocket _).setSocket _
  have hdial := Reconnect.reachable_next (.dial 0 (some 1) Reconnect.source Reconnect.relay)
    hregister trivial ⟨⟨Reconnect.source, rfl⟩, fun _ hcall => Option.some.inj hcall ▸
      ⟨rfl, ⟨_, rfl⟩, rfl⟩, hidle.unshared _, rfl⟩
  have hestablish := Reconnect.reachable_next (.establish 0) hdial trivial
    ⟨some 1, Reconnect.source, Reconnect.relay, rfl, rfl⟩
  have haccept := Reconnect.reachable_next .accept hestablish trivial
    ⟨⟨Reconnect.source, some 1⟩, [], rfl, rfl, rfl⟩
  have hlocal := Reconnect.reachable_next (.scan (some Reconnect.source)) haccept trivial
    ⟨_, _, _, rfl, .inl rfl, rfl⟩
  have hpeer := Reconnect.reachable_next (.scan (some Reconnect.relay)) hlocal trivial
    ⟨_, _, _, rfl, .inl rfl, rfl⟩
  have hfinish := Reconnect.reachable_next .finish hpeer trivial ⟨_, some 0, rfl, rfl⟩
  refine ⟨_, hfinish, List.mem_singleton_self _, fun hall => ?_⟩
  have hcall := hall 0 ⟨Reconnect.source, some 1⟩ (List.mem_singleton_self _)
  cases hcall

end Scproxy
