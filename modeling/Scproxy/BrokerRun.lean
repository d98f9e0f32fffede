import Scproxy.Supervise

namespace Scproxy

/-- Where the task of `Broker::run` is: in its loop, waiting for the requests that it has
aborted, in `drain_relays`, or at its end. -/
inductive BrokerPhase
  | serving
  | aborting (result : Except IoError Unit)
  | draining
  | ended (result : Except IoError Unit)

/-- The two sets of tasks. Tasks that have ended stay in their set until they are joined;
`cut` counts the relays that were aborted. -/
structure BrokerRun where
  phase : BrokerPhase
  requests : Nat
  answered : List (Except IoError Unit)
  relays : Nat
  closed : List (Except IoError Unit)
  cut : Nat

inductive BrokerEvent
  | notify
  | refuse (result : Except IoError Unit)
  | eof
  | fail (error : IoError)
  | requestEnds (result : Except IoError Unit)
  | joinRequest
  | connect
  | relayEnds (result : Except IoError Unit)
  | tick
  | notice
  | abortRequest
  | joined
  | drained
  | abandon
  | joinRelay
  | ingressFails (error : IoError)
  | deadline
  | release

namespace BrokerRun

/-- The bound of the set of requests. -/
def capacity : Nat := 256

/-- A dropped `JoinSet` aborts what is left in it. -/
def cutOff (s : BrokerRun) (phase : BrokerPhase) : BrokerRun :=
  { s with phase := phase, relays := 0, closed := [], cut := s.cut + s.relays }

def Drained (s : BrokerRun) : Prop := s.relays = 0 ∧ s.closed = []

instance (s : BrokerRun) : Decidable s.Drained :=
  decidable_of_iff (s.relays = 0 ∧ s.closed.isEmpty = true) (by simp [Drained])

/-- The branch of `requests.join_next()`. -/
def afterRequest : Except IoError Unit → BrokerPhase
  | .ok () => .serving
  | .error error => .aborting (.error error)

/-- Behind the join of all requests: `result?` drops the relays it has taken. -/
def afterJoin (s : BrokerRun) : Except IoError Unit → BrokerRun
  | .ok () => { s with phase := .draining, answered := [] }
  | .error error => { s.cutOff (.ended (.error error)) with answered := [] }

/-- The branch of `relays.join_next()` in `drain_relays`. -/
def afterRelay (s : BrokerRun) (rest : List (Except IoError Unit)) : Except IoError Unit → BrokerRun
  | .ok () => { s with closed := rest }
  | .error error => s.cutOff (.ended (.error error))

/-- A request that cannot be refused ends the task on the spot: the requests are aborted behind
its back, and the relays go with the last of them. Otherwise every way out of the loop aborts
the requests, waits for them and drains the relays. A panic of a task is an error here. -/
inductive Step (shutdown : Shutdown) (s : BrokerRun) : BrokerEvent → BrokerRun → Prop
  | notify (hphase : s.phase = .serving) (hroom : s.requests + s.answered.length < capacity) :
      Step shutdown s .notify { s with requests := s.requests + 1 }
  | refuse (hphase : s.phase = .serving) (hfull : capacity ≤ s.requests + s.answered.length) :
      Step shutdown s (.refuse (.ok ())) s
  | refuseFails (hphase : s.phase = .serving) (hfull : capacity ≤ s.requests + s.answered.length)
      (error : IoError) :
      Step shutdown s (.refuse (.error error)) { s with phase := .ended (.error error) }
  | eof (hphase : s.phase = .serving) : Step shutdown s .eof { s with phase := .aborting (.ok ()) }
  | fail (hphase : s.phase = .serving) (error : IoError) :
      Step shutdown s (.fail error) { s with phase := .aborting (.error error) }
  | requestEnds (hrequests : 0 < s.requests) (result : Except IoError Unit) :
      Step shutdown s (.requestEnds result)
        { s with requests := s.requests - 1, answered := s.answered ++ [result] }
  | joinRequest (hphase : s.phase = .serving) {result : Except IoError Unit}
      {rest : List (Except IoError Unit)} (hanswered : s.answered = result :: rest) :
      Step shutdown s .joinRequest { s with phase := afterRequest result, answered := rest }
  | connect (hrequests : 0 < s.requests) :
      Step shutdown s .connect { s with relays := s.relays + 1 }
  | relayEnds (hrelays : 0 < s.relays) (result : Except IoError Unit) :
      Step shutdown s (.relayEnds result)
        { s with relays := s.relays - 1, closed := s.closed ++ [result] }
  | tick (hphase : s.phase = .serving) : Step shutdown s .tick { s with closed := [] }
  | notice (hphase : s.phase = .serving) (hshutdown : shutdown ≠ .running) :
      Step shutdown s .notice { s with phase := .aborting (.ok ()) }
  | abortRequest (hphase : s.phase ≠ .serving) (hrequests : 0 < s.requests) :
      Step shutdown s .abortRequest { s with requests := s.requests - 1 }
  | joined {result : Except IoError Unit} (hphase : s.phase = .aborting result)
      (hrequests : s.requests = 0) : Step shutdown s .joined (s.afterJoin result)
  | drained (hphase : s.phase = .draining) (hdrained : s.Drained) :
      Step shutdown s .drained { s with phase := .ended (.ok ()) }
  | abandon (hphase : s.phase = .draining) (hleft : ¬s.Drained) (hshutdown : shutdown = .abort) :
      Step shutdown s .abandon (s.cutOff (.ended (.ok ())))
  | joinRelay (hphase : s.phase = .draining) {result : Except IoError Unit}
      {rest : List (Except IoError Unit)} (hclosed : s.closed = result :: rest) :
      Step shutdown s .joinRelay (s.afterRelay rest result)
  | ingressFails (hphase : s.phase = .draining) (hleft : ¬s.Drained) (error : IoError) :
      Step shutdown s (.ingressFails error) (s.cutOff (.ended (.error error)))
  | deadline (hphase : s.phase = .draining) (hleft : ¬s.Drained) :
      Step shutdown s .deadline (s.cutOff (.ended (.error (.simple .timedOut))))
  | release {error : IoError} (hphase : s.phase = .ended (.error error))
      (hrequests : s.requests = 0) : Step shutdown s .release (s.cutOff (.ended (.error error)))

def Initial (s : BrokerRun) : Prop := s = ⟨.serving, 0, [], 0, [], 0⟩

/-- No request is left once the relays are drained. A clean end leaves nothing behind, and
relays are cut off only by a failure or an abort. -/
structure Sound (aborted : Prop) (s : BrokerRun) : Prop where
  room : s.requests ≤ capacity
  draining : s.phase = .draining → s.requests = 0
  ended : s.phase = .ended (.ok ()) → s.requests = 0 ∧ s.relays = 0
  cut : s.cut ≠ 0 → (∃ error, s.phase = .ended (.error error)) ∨
    s.phase = .ended (.ok ()) ∧ aborted

section

variable {aborted : Prop} {s t : BrokerRun}

theorem Sound.cut_eq_zero (h : s.Sound aborted) (hphase : ∀ result, s.phase ≠ .ended result) :
    s.cut = 0 := by
  by_contra hcut
  rcases h.cut hcut with ⟨error, hended⟩ | ⟨hended, _⟩
  · exact hphase _ hended
  · exact hphase _ hended

theorem Sound.mono {later : Prop} (h : s.Sound aborted) (hlater : aborted → later) :
    s.Sound later := by
  refine ⟨h.room, h.draining, h.ended, fun hcut => ?_⟩
  rcases h.cut hcut with hfailed | ⟨hended, haborted⟩
  · exact Or.inl hfailed
  · exact Or.inr ⟨hended, hlater haborted⟩

/-- Tasks end within a phase. -/
theorem Sound.shrink (h : s.Sound aborted) (hphase : t.phase = s.phase) (hcut : t.cut = s.cut)
    (hrequests : t.requests ≤ s.requests) (hrelays : t.relays ≤ s.relays) : t.Sound aborted := by
  refine ⟨Nat.le_trans hrequests h.room, fun hdraining => ?_, fun hended => ?_, fun hsome => ?_⟩
  · have hnone := h.draining (hphase ▸ hdraining)
    omega
  · obtain ⟨hnone, hclosed⟩ := h.ended (hphase ▸ hended)
    omega
  · rw [hphase]
    exact h.cut (hcut ▸ hsome)

/-- The loop is left for the join of the requests, or on the spot with an error. -/
theorem Sound.leave (h : s.Sound aborted) (hphase : s.phase = .serving) (hcut : t.cut = s.cut)
    (hrequests : t.requests ≤ s.requests) (hdraining : t.phase ≠ .draining)
    (hended : t.phase ≠ .ended (.ok ())) : t.Sound aborted := by
  have hzero : s.cut = 0 := h.cut_eq_zero (by rw [hphase]; exact nofun)
  refine ⟨Nat.le_trans hrequests h.room, fun heq => absurd heq hdraining,
    fun heq => absurd heq hended, fun hsome => ?_⟩
  rw [hcut] at hsome
  exact absurd hzero hsome

/-- The relays are dropped with those that still run. -/
theorem Sound.cutOff (h : s.Sound aborted) (hrequests : s.requests = 0)
    {result : Except IoError Unit} (hresult : result = .ok () → aborted) :
    (s.cutOff (.ended result)).Sound aborted := by
  refine ⟨h.room, nofun, fun _ => ⟨hrequests, rfl⟩, fun _ => ?_⟩
  cases result with
  | ok value => exact Or.inr ⟨rfl, hresult rfl⟩
  | error error => exact Or.inl ⟨error, rfl⟩

theorem Sound.step {shutdown : Shutdown} {event : BrokerEvent} (h : s.Sound aborted)
    (hstep : Step shutdown s event t)
    (habort : shutdown = .abort → s.phase = .draining → aborted) : t.Sound aborted := by
  cases hstep with
  | notify hphase hroom =>
    have hzero : s.cut = 0 := h.cut_eq_zero (by rw [hphase]; exact nofun)
    refine ⟨?_, fun hdraining => ?_, fun hended => ?_, fun hsome => absurd hzero hsome⟩
    · exact Nat.lt_of_le_of_lt (Nat.le_add_right _ _) hroom
    · cases hphase.symm.trans hdraining
    · cases hphase.symm.trans hended
  | refuse => exact h
  | refuseFails hphase _ error => exact h.leave hphase rfl (Nat.le_refl _) nofun nofun
  | eof hphase => exact h.leave hphase rfl (Nat.le_refl _) nofun nofun
  | fail hphase error => exact h.leave hphase rfl (Nat.le_refl _) nofun nofun
  | notice hphase => exact h.leave hphase rfl (Nat.le_refl _) nofun nofun
  | @joinRequest hphase result rest hanswered =>
    refine h.leave hphase rfl (Nat.le_refl _) ?_ ?_
    · cases result <;> exact nofun
    · cases result <;> exact nofun
  | requestEnds hrequests result => exact h.shrink rfl rfl (Nat.sub_le _ _) (Nat.le_refl _)
  | abortRequest _ hrequests => exact h.shrink rfl rfl (Nat.sub_le _ _) (Nat.le_refl _)
  | relayEnds hrelays result => exact h.shrink rfl rfl (Nat.le_refl _) (Nat.sub_le _ _)
  | tick hphase => exact h.shrink rfl rfl (Nat.le_refl _) (Nat.le_refl _)
  | connect hrequests =>
    refine ⟨h.room, h.draining, fun hended => ?_, h.cut⟩
    have hnone := (h.ended hended).1
    omega
  | @joined result hphase hrequests =>
    cases result with
    | ok value =>
      have hzero : s.cut = 0 := h.cut_eq_zero (by rw [hphase]; exact nofun)
      exact ⟨h.room, fun _ => hrequests, nofun, fun hsome => absurd hzero hsome⟩
    | error error =>
      have hcut : (s.cutOff (.ended (.error error))).Sound aborted := h.cutOff hrequests nofun
      exact hcut.shrink rfl rfl (Nat.le_refl _) (Nat.le_refl _)
  | drained hphase hdrained =>
    have hzero : s.cut = 0 := h.cut_eq_zero (by rw [hphase]; exact nofun)
    exact ⟨h.room, nofun, fun _ => ⟨h.draining hphase, hdrained.1⟩,
      fun hsome => absurd hzero hsome⟩
  | abandon hphase hleft hshutdown =>
    exact h.cutOff (h.draining hphase) fun _ => habort hshutdown hphase
  | @joinRelay hphase result rest hclosed =>
    cases result with
    | ok value => exact h.shrink rfl rfl (Nat.le_refl _) (Nat.le_refl _)
    | error error => exact h.cutOff (h.draining hphase) nofun
  | ingressFails hphase hleft error => exact h.cutOff (h.draining hphase) nofun
  | deadline hphase hleft => exact h.cutOff (h.draining hphase) nofun
  | release hphase hrequests => exact h.cutOff hrequests nofun

/-- The end of the task is final. -/
theorem Step.ended {shutdown : Shutdown} {event : BrokerEvent} (hstep : Step shutdown s event t)
    {result : Except IoError Unit} (hended : s.phase = .ended result) : t.phase = .ended result := by
  cases hstep with
  | requestEnds | connect | relayEnds | abortRequest => exact hended
  | release hphase => exact hphase.symm.trans hended
  | notify hphase | refuse hphase | refuseFails hphase | eof hphase | fail hphase | notice hphase
  | joinRequest hphase | tick hphase | joined hphase | drained hphase | abandon hphase
  | joinRelay hphase | ingressFails hphase | deadline hphase => cases hphase.symm.trans hended

end

end BrokerRun

end Scproxy
