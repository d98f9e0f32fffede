import Mathlib.Data.List.Sublists
import Mathlib.Logic.Function.Basic
import Scproxy.AnswerHistory
import Scproxy.DnsTcp
import Scproxy.Transition

namespace Scproxy

/-- The tasks that answer queries: `serve_udp` for a local endpoint and `serve_tcp` for a
connection. -/
inductive DnsServer
  | udp
  | tcp (client : SocketAddrV4)

/-- Where a task is in its loop. -/
inductive DnsPhase
  | receiving
  | pausing
  | answering (client : SocketAddrV4) (query : List UInt8)
  | sending (client : SocketAddrV4) (response : List UInt8)
  | ended (result : Except DnsTcp.ServeError Unit)

structure DnsTask where
  server : DnsServer
  phase : DnsPhase

namespace DnsPhase

/-- Behind `recv_from` in `serve_udp`. -/
def receivedFrom : Except IoError (SocketAddrV4 × List UInt8) → DnsPhase
  | .ok (client, query) => .answering client query
  | .error error =>
    if error.rawOsError = some Errno.enomem ∨ error.rawOsError = some Errno.enobufs then .pausing
    else .ended (.error (.io error))

/-- Behind the two reads of an exchange in `serve_tcp`. -/
def readQuery (client : SocketAddrV4) :
    Except DnsTcp.ServeError (Option (List UInt8)) → DnsPhase
  | .ok none => .ended (.ok ())
  | .ok (some query) => .answering client query
  | .error error => .ended (.error error)

/-- Behind `answer`. -/
def answered (server : DnsServer) (client : SocketAddrV4) : Option (List UInt8) → DnsPhase
  | some response =>
    match server with
    | .udp => .sending client response
    | .tcp _ =>
      if 65535 < response.length then .ended (.error DnsTcp.tooLarge) else .sending client response
  | none =>
    match server with
    | .udp => .receiving
    | .tcp _ => .ended (.error DnsTcp.invalidQuery)

/-- Behind the writes of a response. -/
def sent (server : DnsServer) : Except IoError Unit → DnsPhase
  | .ok () => .receiving
  | .error error =>
    match server with
    | .udp => .receiving
    | .tcp _ => .ended (.error (.io error))

/-- The query in the hands of a task. -/
def query : DnsPhase → List (SocketAddrV4 × List UInt8)
  | .answering client query => [(client, query)]
  | _ => []

/-- The response in the hands of a task. -/
def response : DnsPhase → List (SocketAddrV4 × List UInt8)
  | .sending client response => [(client, response)]
  | _ => []

end DnsPhase

/-- A turn at the mapping. -/
structure DnsAnswer where
  client : SocketAddrV4
  query : List UInt8
  response : Option (List UInt8)

/-- The tasks with the mapping that they share. The rest is what has happened so far. -/
structure DnsService where
  mapping : FakeDns
  tasks : Nat → Option DnsTask
  received : List (Nat × SocketAddrV4 × List UInt8)
  answered : List (Nat × DnsAnswer)
  delivered : List (Nat × SocketAddrV4 × List UInt8)

inductive DnsEvent
  | spawn (task : Nat) (server : DnsServer)
  | receiveFrom (task : Nat) (result : Except IoError (SocketAddrV4 × List UInt8))
  | read (task : Nat) (result : Except DnsTcp.ServeError (Option (List UInt8)))
  | wake (task : Nat)
  | answer (task : Nat)
  | send (task : Nat) (result : Except IoError Unit)
  | expire (task : Nat)

namespace DnsService

def put (s : DnsService) (task : Nat) (server : DnsServer) (phase : DnsPhase) : DnsService :=
  { s with tasks := Function.update s.tasks task (some ⟨server, phase⟩) }

/-- The lock of the mapping is held in `answer` only. Between two steps of a task any other task
may take its steps. -/
def Step : DnsEvent → DnsService → DnsService → Prop
  | .spawn task server, s, t => s.tasks task = none ∧ t = s.put task server .receiving
  | .receiveFrom task result, s, t =>
    s.tasks task = some ⟨.udp, .receiving⟩ ∧
      t = { s.put task .udp (.receivedFrom result) with
        received := s.received ++ (DnsPhase.receivedFrom result).query.map (task, ·) }
  | .read task result, s, t =>
    ∃ client, s.tasks task = some ⟨.tcp client, .receiving⟩ ∧
      t = { s.put task (.tcp client) (.readQuery client result) with
        received := s.received ++ (DnsPhase.readQuery client result).query.map (task, ·) }
  | .wake task, s, t =>
    ∃ server, s.tasks task = some ⟨server, .pausing⟩ ∧ t = s.put task server .receiving
  | .answer task, s, t =>
    ∃ server client query mapping response,
      s.tasks task = some ⟨server, .answering client query⟩ ∧
      Resolver.answer s.mapping query = .ok (mapping, response) ∧
      t = { s.put task server (.answered server client response) with
        mapping := mapping
        answered := s.answered ++ [(task, ⟨client, query, response⟩)] }
  | .send task result, s, t =>
    ∃ server client response, s.tasks task = some ⟨server, .sending client response⟩ ∧
      t = { s.put task server (.sent server result) with
        delivered := s.delivered ++ if result.isOk then [(task, client, response)] else [] }
  | .expire task, s, t =>
    ∃ client phase, s.tasks task = some ⟨.tcp client, phase⟩ ∧
      (phase = .receiving ∨ ∃ response, phase = .sending client response) ∧
      t = s.put task (.tcp client) (.ended (.error (.io (.simple .timedOut))))

def initial : DnsService := ⟨.new, fun _ => none, [], [], []⟩

end DnsService

def dnsService : Transition DnsService DnsEvent where
  start s := s = .initial
  step := DnsService.Step

/-- The entries of one task. -/
def ofTask {α : Type} (task : Nat) (log : List (Nat × α)) : List α :=
  (log.filter (·.1 == task)).map Prod.snd

section

variable {α : Type} {task other : Nat}

theorem ofTask_append (log more : List (Nat × α)) :
    ofTask task (log ++ more) = ofTask task log ++ ofTask task more := by
  rw [ofTask, List.filter_append, List.map_append]
  rfl

theorem ofTask_own (entries : List α) : ofTask task (entries.map (task, ·)) = entries := by
  simp [ofTask, List.filter_map, Function.comp_def]

theorem ofTask_other (h : other ≠ task) (entries : List α) :
    ofTask other (entries.map (task, ·)) = [] := by
  have hne : (task == other) = false := beq_eq_false_iff_ne.mpr h.symm
  simp [ofTask, List.filter_map, Function.comp_def, hne]

end

namespace DnsAnswer

def asked (a : DnsAnswer) : SocketAddrV4 × List UInt8 := (a.client, a.query)

def reply (a : DnsAnswer) : Option (SocketAddrV4 × List UInt8) := a.response.map (a.client, ·)

/-- The answer that the resolver gives after these queries, one after the other. -/
def Sequential (earlier : List (List UInt8)) (a : DnsAnswer) : Prop :=
  ∃ before after, Resolver.serve .new earlier = .ok before ∧
    Resolver.answer before a.query = .ok (after, a.response)

end DnsAnswer

theorem serve_concat {earlier : List (List UInt8)} {query : List UInt8} {before after : FakeDns}
    {response : Option (List UInt8)} (hserve : Resolver.serve .new earlier = .ok before)
    (hanswer : Resolver.answer before query = .ok (after, response)) :
    Resolver.serve .new (earlier ++ [query]) = .ok after := by
  unfold Resolver.serve at *
  rw [List.foldlM_append, hserve]
  simp only [bind, Except.bind, List.foldlM_cons, hanswer]
  rfl

namespace DnsService

def queries (s : DnsService) : List (List UInt8) := s.answered.map fun entry => entry.2.query

/-- What a task has in its hands. -/
def held (s : DnsService) (hands : DnsPhase → List (SocketAddrV4 × List UInt8)) (task : Nat) :
    List (SocketAddrV4 × List UInt8) :=
  ((s.tasks task).map fun t => hands t.phase).getD []

structure Sound (s : DnsService) : Prop where
  serves : Resolver.serve .new s.queries = .ok s.mapping
  answers : ∀ before entry after, s.answered = before ++ entry :: after →
    entry.2.Sequential (before.map fun entry => entry.2.query)
  taken : ∀ task, ofTask task s.received =
    (ofTask task s.answered).map DnsAnswer.asked ++ s.held DnsPhase.query task
  given : ∀ task, (ofTask task s.delivered ++ s.held DnsPhase.response task).Sublist
    ((ofTask task s.answered).filterMap DnsAnswer.reply)

/-- What a step of one task adds to the logs. -/
structure Adds (s t : DnsService) (task : Nat) (server : DnsServer) (phase : DnsPhase)
    (ins : List (SocketAddrV4 × List UInt8)) (turns : List DnsAnswer)
    (outs : List (SocketAddrV4 × List UInt8)) : Prop where
  tasks : t.tasks = Function.update s.tasks task (some ⟨server, phase⟩)
  received : t.received = s.received ++ ins.map (task, ·)
  answered : t.answered = s.answered ++ turns.map (task, ·)
  delivered : t.delivered = s.delivered ++ outs.map (task, ·)
  query : s.held DnsPhase.query task ++ ins = turns.map DnsAnswer.asked ++ phase.query
  response : (outs ++ phase.response).Sublist
    (s.held DnsPhase.response task ++ turns.filterMap DnsAnswer.reply)

section

variable {s t : DnsService} {task : Nat} {server : DnsServer} {phase : DnsPhase}
  {ins outs : List (SocketAddrV4 × List UInt8)} {turns : List DnsAnswer}

theorem held_of_tasks (h : s.tasks task = some ⟨server, phase⟩)
    (hands : DnsPhase → List (SocketAddrV4 × List UInt8)) : s.held hands task = hands phase := by
  rw [held, h]
  rfl

theorem Adds.taken (h : Adds s t task server phase ins turns outs) (hs : s.Sound)
    (other : Nat) : ofTask other t.received =
      (ofTask other t.answered).map DnsAnswer.asked ++ t.held DnsPhase.query other := by
  have hold := hs.taken other
  rw [h.received, h.answered, ofTask_append, ofTask_append, List.map_append, hold]
  by_cases hother : other = task
  · subst hother
    have hheld : t.held DnsPhase.query other = phase.query :=
      held_of_tasks (by rw [h.tasks, Function.update_self]) _
    rw [ofTask_own, ofTask_own, hheld, List.append_assoc, List.append_assoc, h.query]
  · have hheld : t.held DnsPhase.query other = s.held DnsPhase.query other := by
      rw [held, held, h.tasks, Function.update_of_ne hother]
    rw [ofTask_other hother, ofTask_other hother, hheld]
    simp

theorem Adds.given (h : Adds s t task server phase ins turns outs) (hs : s.Sound)
    (other : Nat) : (ofTask other t.delivered ++ t.held DnsPhase.response other).Sublist
      ((ofTask other t.answered).filterMap DnsAnswer.reply) := by
  have hold := hs.given other
  rw [h.delivered, h.answered, ofTask_append, ofTask_append, List.filterMap_append]
  by_cases hother : other = task
  · subst hother
    have hheld : t.held DnsPhase.response other = phase.response :=
      held_of_tasks (by rw [h.tasks, Function.update_self]) _
    rw [ofTask_own, ofTask_own, hheld, List.append_assoc]
    have hmore := h.response.append_left (ofTask other s.delivered)
    rw [← List.append_assoc (ofTask other s.delivered) (s.held _ other)] at hmore
    exact hmore.trans (hold.append_right _)
  · have hheld : t.held DnsPhase.response other = s.held DnsPhase.response other := by
      rw [held, held, h.tasks, Function.update_of_ne hother]
    rw [ofTask_other hother, ofTask_other hother, hheld]
    simpa using hold

/-- A step without a turn at the mapping. -/
theorem Sound.quiet (hs : s.Sound) (h : Adds s t task server phase ins [] outs)
    (hmapping : t.mapping = s.mapping) : t.Sound where
  serves := by
    have hanswered : t.answered = s.answered := by rw [h.answered, List.map_nil, List.append_nil]
    rw [queries, hanswered, hmapping]
    exact hs.serves
  answers before entry after heq := by
    rw [h.answered, List.map_nil, List.append_nil] at heq
    exact hs.answers before entry after heq
  taken := h.taken hs
  given := h.given hs

theorem Sound.turn (hs : s.Sound) {a : DnsAnswer}
    (h : Adds s t task server phase ins [a] outs)
    (hanswer : Resolver.answer s.mapping a.query = .ok (t.mapping, a.response)) : t.Sound where
  serves := by
    rw [queries, h.answered, List.map_append]
    exact serve_concat hs.serves hanswer
  answers before entry after heq := by
    rw [h.answered] at heq
    rcases List.eq_nil_or_concat after with rfl | ⟨after, last, rfl⟩
    · obtain ⟨hbefore, hentry⟩ := List.append_inj' heq rfl
      cases hentry
      rw [← hbefore]
      exact ⟨s.mapping, t.mapping, hs.serves, hanswer⟩
    · rw [List.concat_eq_append, ← List.cons_append, ← List.append_assoc] at heq
      exact hs.answers before entry after (List.append_inj' heq rfl).1
  taken := h.taken hs
  given := h.given hs

/-- A step of a task with empty hands, to empty hands or to a query that it received. -/
theorem adds_received (hquery : s.held DnsPhase.query task = [])
    (hresponse : phase.response = []) :
    Adds s { s.put task server phase with
      received := s.received ++ phase.query.map (task, ·) } task server phase phase.query [] []
    where
  tasks := rfl
  received := rfl
  answered := by simp [put]
  delivered := by simp [put]
  query := by rw [hquery]; rfl
  response := by
    rw [hresponse]
    exact List.nil_sublist _

theorem adds_put (hquery : s.held DnsPhase.query task = []) (hphase : phase.query = [])
    (hresponse : phase.response = []) : Adds s (s.put task server phase) task server phase [] [] []
    where
  tasks := rfl
  received := by simp [put]
  answered := by simp [put]
  delivered := by simp [put]
  query := by rw [hquery, hphase]; rfl
  response := by
    rw [hresponse]
    exact List.nil_sublist _

end

end DnsService

end Scproxy
