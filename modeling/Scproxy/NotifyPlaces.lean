import Scproxy.NotifySystem
import Scproxy.TcpSystem

namespace Scproxy

theorem settled_of_answered {p : Interaction RequestOperation RequestOperation.Ret (Except IoError Unit)}
    (h : answerDiscipline.Spec Settles p true) : p = .done (.ok ()) := by
  cases p with
  | done a => rw [h.mpr rfl]
  | perform op next => cases (h true rfl).1

theorem inFlight_of_unanswered {notification : Notification}
    {p : Interaction RequestOperation RequestOperation.Ret (Except IoError Unit)}
    (h : answerDiscipline.Spec Settles p false) :
    RequestTask.inFlight ⟨notification, some p⟩ = true := by
  cases p with
  | done a =>
    cases a with
    | ok _ => cases h.mp rfl
    | error error => rfl
  | perform op next => rfl

/-- A task that has not been answered keeps to the discipline. -/
def RequestTask.Ok (task : RequestTask) : Prop :=
  ∀ p, task.program = some p → p = .done (.ok ()) ∨ answerDiscipline.Spec Settles p false

namespace NotifySystem

def places (s : NotifySystem) : List UInt64 :=
  s.hands ++ s.queued ++ inFlight s.requests ++ (s.answeredIds ++ s.lost)

/-- The kernel has given out what was received, and has replied to answers only. -/
structure KernelOk (kernel : Kernel) (received answered : List UInt64) : Prop where
  known : ∀ id ∈ received, kernel id ≠ none ∧ kernel id ≠ some .init
  replied : ∀ id, kernel id = some .replied → id ∈ answered
  settled : ∀ id ∈ answered, kernel id = some .replied ∨ kernel id = some .gone

/-- Every notification that was received is in one place. -/
structure Placed (s : NotifySystem) : Prop where
  places : ∀ id, s.places.count id = s.received.count id
  distinct : s.received.Nodup
  kernel : KernelOk s.kernel s.received s.answeredIds
  channel : s.channel.length ≤ capacity
  requests : s.requests.length ≤ capacity
  tasks : ∀ task ∈ s.requests, task.Ok

/-- One notification goes to another state. -/
theorem KernelOk.update {kernel : Kernel} {received answered received' answered' : List UInt64}
    {id : UInt64} {state : NotificationState} (h : KernelOk kernel received answered)
    (hreceived : ∀ other ∈ received', other = id ∨ other ∈ received)
    (hanswered : ∀ other ∈ answered', other = id ∨ other ∈ answered)
    (hsubset : ∀ other ∈ answered, other ∈ answered')
    (hknown : id ∈ received' → state ≠ .init) (hreplied : state = .replied → id ∈ answered')
    (hsettled : id ∈ answered' → state = .replied ∨ state = .gone) :
    KernelOk (Function.update kernel id (some state)) received' answered' := by
  refine ⟨?_, ?_, ?_⟩
  · intro other hmem
    by_cases heq : other = id
    · subst heq
      simpa using hknown hmem
    · rw [Function.update_of_ne heq]
      exact h.known other ((hreceived other hmem).resolve_left heq)
  · intro other hstate
    by_cases heq : other = id
    · subst heq
      exact hreplied (by simpa using hstate)
    · rw [Function.update_of_ne heq] at hstate
      exact hsubset other (h.replied other hstate)
  · intro other hmem
    by_cases heq : other = id
    · subst heq
      simpa using hsettled hmem
    · rw [Function.update_of_ne heq]
      exact h.settled other ((hanswered other hmem).resolve_left heq)

theorem KernelOk.unanswered {kernel : Kernel} {received answered : List UInt64} {id : UInt64}
    (h : KernelOk kernel received answered)
    (hid : kernel id = none ∨ kernel id = some .init ∨ kernel id = some .sent) : id ∉ answered := by
  intro hmem
  have hsettled := h.settled id hmem
  rcases hid with hid | hid | hid
  · simp [hid] at hsettled
  · simp [hid] at hsettled
  · simp [hid] at hsettled

section

variable {context : RequestContext} {s t : NotifySystem}

theorem inFlight_append (requests requests' : List RequestTask) :
    inFlight (requests ++ requests') = inFlight requests ++ inFlight requests' := by
  simp [inFlight]

theorem inFlight_cons_of_true {task : RequestTask} {requests : List RequestTask}
    (h : task.inFlight = true) :
    inFlight (task :: requests) = task.notification.id :: inFlight requests := by
  simp [inFlight, h]

theorem inFlight_cons_of_false {task : RequestTask} {requests : List RequestTask}
    (h : task.inFlight = false) : inFlight (task :: requests) = inFlight requests := by
  simp [inFlight, h]

/-- A notification that is somewhere else has not been answered. -/
theorem Placed.unanswered (h : Placed s) {id : UInt64}
    (hid : 0 < (s.hands ++ s.queued ++ inFlight s.requests).count id) :
    id ∈ s.received ∧ id ∉ s.answeredIds := by
  have hplaces := h.places id
  have hone := List.nodup_iff_count_le_one.mp h.distinct id
  rw [NotifySystem.places, List.count_append, @List.count_append _ _ _ s.answeredIds] at hplaces
  constructor
  · exact List.count_pos_iff.mp (by omega)
  · intro hmem
    have hpos := List.count_pos_iff.mpr hmem
    omega

/-- The kernel takes an answer, unless the call is gone. -/
theorem Placed.waiting (h : Placed s) {id : UInt64}
    (hid : 0 < (s.hands ++ s.queued ++ inFlight s.requests).count id) :
    s.kernel id = some .sent ∨ s.kernel id = some .gone := by
  obtain ⟨hreceived, hanswered⟩ := h.unanswered hid
  obtain ⟨hnone, hinit⟩ := h.kernel.known id hreceived
  cases hstate : s.kernel id with
  | none => exact absurd hstate hnone
  | some state =>
    cases state with
    | init => exact absurd hstate hinit
    | sent => exact .inl rfl
    | replied => exact absurd (h.kernel.replied id hstate) hanswered
    | gone => exact .inr rfl

/-- The kernel has taken the answer, or the call is gone. -/
def Replies (kernel kernel' : Kernel) (id : UInt64) : Prop :=
  kernel id = some .sent ∧ kernel' = Function.update kernel id (some .replied) ∨
    kernel id = some .gone ∧ kernel' = kernel

/-- An answer to such a notification is the last one, or it changes nothing. -/
theorem Placed.sends (h : Placed s) {id : UInt64} {r : Except IoError Unit} {kernel : Kernel}
    (hid : 0 < (s.hands ++ s.queued ++ inFlight s.requests).count id)
    (hsend : s.kernel.Sends id r kernel) :
    answers r = true ∧ Replies s.kernel kernel id ∨ answers r = false ∧ kernel = s.kernel := by
  cases hsend with
  | replies hstate => exact .inl ⟨rfl, .inl ⟨hstate, rfl⟩⟩
  | unknown hstate =>
    have hgone : s.kernel id = some .gone := by
      rcases h.waiting hid with hsent | hgone
      · rw [hsent] at hstate
        simp at hstate
      · exact hgone
    exact .inl ⟨rfl, .inr ⟨hgone, rfl⟩⟩
  | fails error herror => exact .inr ⟨by simpa [answers] using herror, rfl⟩

/-- The kernel can always take an answer to such a notification. -/
theorem Placed.can_send (h : Placed s) {id : UInt64}
    (hid : 0 < (s.hands ++ s.queued ++ inFlight s.requests).count id) :
    ∃ r kernel, s.kernel.Sends id r kernel ∧ answers r = true := by
  rcases h.waiting hid with hsent | hgone
  · exact ⟨_, _, .replies hsent, rfl⟩
  · exact ⟨_, _, .unknown (.inl hgone), rfl⟩

theorem KernelOk.answer {kernel kernel' : Kernel} {received answered : List UInt64} {id : UInt64}
    (h : KernelOk kernel received answered)
    (hkernel : Replies kernel kernel' id) : KernelOk kernel' received (id :: answered) := by
  rcases hkernel with ⟨_, rfl⟩ | ⟨hgone, rfl⟩
  · exact h.update (fun _ hmem => .inr hmem) (fun _ hmem => List.mem_cons.mp hmem)
      (fun _ hmem => List.mem_cons_of_mem _ hmem) (by simp) (by simp) (by simp)
  · refine ⟨h.known, fun other hr => List.mem_cons_of_mem _ (h.replied other hr), ?_⟩
    intro other hmem
    rcases List.mem_cons.mp hmem with rfl | hmem
    · exact .inr hgone
    · exact h.settled other hmem

/-- A notification moves from its place to the answered ones. -/
theorem Placed.answer (h : Placed s) {id : UInt64} {kind : AnswerKind} {kernel : Kernel}
    (hkernel : Replies s.kernel kernel id)
    {receiver : ReceiverThread} {loop : BrokerLoop} {requests : List RequestTask}
    (hplaces : ∀ other, (s.hands ++ s.queued ++ inFlight s.requests).count other =
      (receiver.held ++ loop.held ++ s.queued ++ inFlight requests).count other +
        [id].count other)
    (hrequests : requests.length ≤ capacity) (htasks : ∀ task ∈ requests, task.Ok) :
    Placed { s with
      kernel := kernel
      receiver := receiver
      loop := loop
      requests := requests
      answered := ⟨id, kind⟩ :: s.answered } := by
  refine ⟨?_, h.distinct, h.kernel.answer hkernel, h.channel, hrequests, htasks⟩
  intro other
  have hold := h.places other
  have hmoved := hplaces other
  simp only [NotifySystem.places, hands, queued, answeredIds, List.map_cons, List.count_append,
    List.count_cons, List.count_nil] at hold hmoved ⊢
  omega

/-- A notification moves from one place to another. -/
theorem Placed.move (h : Placed s) {receiver : ReceiverThread} {channel : List Notification}
    {loop : BrokerLoop} {requests : List RequestTask}
    (hplaces : ∀ other, (s.hands ++ s.queued ++ inFlight s.requests).count other =
      (receiver.held ++ loop.held ++ channel.map (·.id) ++ inFlight requests).count other)
    (hchannel : channel.length ≤ capacity) (hrequests : requests.length ≤ capacity)
    (htasks : ∀ task ∈ requests, task.Ok) :
    Placed { s with
      receiver := receiver
      channel := channel
      loop := loop
      requests := requests } := by
  refine ⟨?_, h.distinct, h.kernel, hchannel, hrequests, htasks⟩
  intro other
  have hold := h.places other
  have hmoved := hplaces other
  simp only [NotifySystem.places, hands, queued, answeredIds, List.count_append]
    at hold hmoved ⊢
  omega

theorem Placed.notify (h : Placed s) {id : UInt64} (hid : s.kernel id = none) :
    Placed { s with kernel := Function.update s.kernel id (some .init) } := by
  have hanswered := h.kernel.unanswered (.inl hid)
  refine { h with
    kernel := h.kernel.update (fun _ => .inr) (fun _ => .inr) (fun _ hmem => hmem) ?_ ?_ ?_ }
  · exact fun hmem => absurd hid (h.kernel.known id hmem).1
  · simp
  · exact fun hmem => absurd hmem hanswered

theorem Placed.interrupt (h : Placed s) (id : UInt64) :
    Placed { s with kernel := Function.update s.kernel id (some .gone) } :=
  { h with
    kernel := h.kernel.update (fun _ => .inr) (fun _ => .inr) (fun _ hmem => hmem) (by simp)
      (by simp) (by simp) }

theorem Placed.receive (h : Placed s) {notification : Notification}
    (hreceiver : s.receiver = .waiting) (hid : s.kernel notification.id = some .init) :
    Placed { s with
      kernel := Function.update s.kernel notification.id (some .sent)
      received := notification.id :: s.received
      receiver := .received notification } := by
  have hanswered := h.kernel.unanswered (.inr (.inl hid))
  refine { h with
    places := ?_
    distinct := ?_
    kernel := h.kernel.update (fun _ => List.mem_cons.mp) (fun _ => .inr) (fun _ hmem => hmem)
      ?_ ?_ ?_ }
  · intro other
    have hold := h.places other
    simp only [NotifySystem.places, hands, queued, answeredIds, hreceiver, ReceiverThread.held,
      List.count_append, List.count_cons, List.count_nil] at hold ⊢
    omega
  · refine List.nodup_cons.mpr ⟨fun hmem => ?_, h.distinct⟩
    exact (h.kernel.known _ hmem).2 hid
  · simp
  · simp
  · exact fun hmem => absurd hmem hanswered

theorem Placed.queue (h : Placed s) {notification : Notification}
    (hreceiver : s.receiver = .received notification) (hroom : s.channel.length < capacity) :
    Placed { s with receiver := .waiting, channel := s.channel ++ [notification] } := by
  refine h.move ?_ ?_ h.requests h.tasks
  · intro other
    simp only [hands, queued, hreceiver, ReceiverThread.held, List.map_append, List.map_cons,
      List.map_nil, List.count_append, List.count_nil]
    omega
  · rw [List.length_append]
    exact hroom

theorem Placed.full (h : Placed s) {notification : Notification}
    (hreceiver : s.receiver = .received notification) :
    Placed { s with receiver := .refusing notification } := by
  refine h.move ?_ h.channel h.requests h.tasks
  intro other
  simp only [hands, queued, hreceiver, ReceiverThread.held]

/-- A refusal that fails loses the notification. -/
theorem Placed.refuse (h : Placed s) {notification : Notification} {r : Except IoError Unit}
    {kernel : Kernel} (hreceiver : s.receiver = .refusing notification)
    (hsend : s.kernel.Sends notification.id r kernel) :
    Placed { s with
      receiver := .waiting
      kernel := kernel
      answered := s.record notification.id (.channelFull Errno.eagain) r
      lost := if answers r then s.lost else notification.id :: s.lost } := by
  have hheld : 0 < (s.hands ++ s.queued ++ inFlight s.requests).count notification.id := by
    simp [hands, hreceiver, ReceiverThread.held]
  rcases h.sends hheld hsend with ⟨hr, hkernel⟩ | ⟨hr, rfl⟩
  · simp only [record, hr, if_true]
    refine h.answer hkernel ?_ h.requests h.tasks
    intro other
    simp only [hands, hreceiver, ReceiverThread.held, List.count_append, List.count_nil]
    omega
  · simp only [record, hr, Bool.false_eq_true, if_false]
    refine ⟨?_, h.distinct, h.kernel, h.channel, h.requests, h.tasks⟩
    intro other
    have hold := h.places other
    simp only [NotifySystem.places, hands, queued, answeredIds, hreceiver, ReceiverThread.held,
      List.count_append, List.count_cons, List.count_nil] at hold ⊢
    omega

theorem Placed.take (h : Placed s) {notification : Notification} {rest : List Notification}
    (hloop : s.loop = .selecting) (hchannel : s.channel = notification :: rest) :
    Placed { s with loop := .taken notification, channel := rest } := by
  have hlength := h.channel
  rw [hchannel, List.length_cons] at hlength
  refine h.move ?_ (by omega) h.requests h.tasks
  intro other
  simp only [hands, queued, hloop, hchannel, BrokerLoop.held, List.map_cons, List.count_append,
    List.count_cons, List.count_nil]
  omega

theorem Placed.spawn (h : Placed s) {notification : Notification} {memory : Memory}
    (hloop : s.loop = .taken notification) (hroom : s.requests.length < capacity) :
    Placed { s with
      loop := .selecting
      requests := s.requests ++
        [⟨notification, some (context.task memory notification)⟩] } := by
  have hsettles : answerDiscipline.Spec Settles (context.task memory notification) false :=
    RequestContext.settles_task
  refine h.move ?_ h.channel ?_ ?_
  · intro other
    rw [inFlight_append, inFlight_cons_of_true (inFlight_of_unanswered hsettles)]
    simp only [hands, queued, hloop, BrokerLoop.held, inFlight, List.filter_nil, List.map_nil,
      List.count_append, List.count_nil]
    omega
  · rw [List.length_append]
    exact hroom
  · intro task hmem
    rcases List.mem_append.mp hmem with hmem | hmem
    · exact h.tasks task hmem
    · rw [List.mem_singleton] at hmem
      subst hmem
      rintro p ⟨⟩
      exact .inr hsettles

theorem Placed.saturate (h : Placed s) {notification : Notification} {r : Except IoError Unit}
    {kernel : Kernel} (hloop : s.loop = .taken notification)
    (hsend : s.kernel.Sends notification.id r kernel) (hr : answers r = true) :
    Placed { s with
      loop := if answers r then .selecting else .stopped
      kernel := kernel
      answered := s.record notification.id (.tasksFull Errno.eagain) r } := by
  have hheld : 0 < (s.hands ++ s.queued ++ inFlight s.requests).count notification.id := by
    simp [hands, hloop, BrokerLoop.held]
  rcases h.sends hheld hsend with ⟨_, hkernel⟩ | ⟨hfailed, _⟩
  · simp only [record, hr, if_true]
    refine h.answer hkernel ?_ h.requests h.tasks
    intro other
    simp only [hands, hloop, BrokerLoop.held, List.count_append, List.count_nil]
    omega
  · rw [hr] at hfailed
    cases hfailed

variable {before after : List RequestTask} {task : RequestTask}
  {program : Option (Interaction RequestOperation RequestOperation.Ret (Except IoError Unit))}

theorem tasks_replace (h : ∀ other ∈ before ++ task :: after, other.Ok) {task' : RequestTask}
    (hok : task'.Ok) : ∀ other ∈ before ++ task' :: after, other.Ok := by
  intro other hmem
  rcases List.mem_append.mp hmem with hmem | hmem
  · exact h other (List.mem_append_left _ hmem)
  · rcases List.mem_cons.mp hmem with rfl | hmem
    · exact hok
    · exact h other (List.mem_append_right _ (List.mem_cons_of_mem _ hmem))

/-- A task goes on without an answer. -/
theorem Placed.remains (h : Placed s) (hrequests : s.requests = before ++ task :: after)
    (htask : task.inFlight = true)
    (hprogram : RequestTask.inFlight { task with program := program } = true)
    (hok : RequestTask.Ok { task with program := program }) :
    Placed { s with requests := before ++ { task with program := program } :: after } := by
  have hlength := h.requests
  have htasks := h.tasks
  rw [hrequests] at hlength htasks
  refine h.move ?_ h.channel ?_ (tasks_replace htasks hok)
  · intro other
    rw [hrequests, inFlight_append, inFlight_append, inFlight_cons_of_true htask,
      inFlight_cons_of_true hprogram]
    rfl
  · simpa using hlength

/-- A task ends with its answer. -/
theorem Placed.ends (h : Placed s) (hrequests : s.requests = before ++ task :: after)
    (htask : task.inFlight = true) {kind : AnswerKind} {kernel : Kernel}
    (hkernel : Replies s.kernel kernel task.notification.id) :
    Placed { s with
      kernel := kernel
      answered := ⟨task.notification.id, kind⟩ :: s.answered
      requests := before ++ { task with program := some (.done (.ok ())) } :: after } := by
  have hlength := h.requests
  have htasks := h.tasks
  rw [hrequests] at hlength htasks
  refine h.answer hkernel ?_ ?_ (tasks_replace htasks ?_)
  · intro other
    rw [hrequests, inFlight_append, inFlight_append, inFlight_cons_of_true htask,
      inFlight_cons_of_false rfl]
    simp only [hands, List.count_append, List.count_cons, List.count_nil]
    omega
  · simpa using hlength
  · rintro p ⟨⟩
    exact .inl rfl

theorem inFlight_of_perform {op : RequestOperation}
    {next : op.Ret → Interaction RequestOperation RequestOperation.Ret (Except IoError Unit)}
    (h : task.program = some (.perform op next)) : task.inFlight = true := by
  rw [RequestTask.inFlight, h]

theorem Placed.operate (h : Placed s) {op : RequestOperation}
    {next : op.Ret → Interaction RequestOperation RequestOperation.Ret (Except IoError Unit)}
    {r : op.Ret} {kernel : Kernel} {answered : List Answer}
    (hrequests : s.requests = before ++ task :: after)
    (hprogram : task.program = some (.perform op next))
    (hoperates : s.Operates task.notification.id op r kernel answered) :
    Placed { s with
      kernel := kernel
      answered := answered
      requests := before ++ { task with program := some (next r) } :: after } := by
  have hflight := inFlight_of_perform hprogram
  have hok : task.Ok := h.tasks task (by rw [hrequests]; simp)
  have hspec := (hok _ hprogram).resolve_left nofun
  have hnext := (hspec false rfl).2 r
  have hcount : 0 < (s.hands ++ s.queued ++ inFlight s.requests).count task.notification.id := by
    rw [hrequests, inFlight_append, inFlight_cons_of_true hflight]
    simp
  have hunanswered : answerDiscipline.Spec Settles (next r) false → kernel = s.kernel →
      answered = s.answered → Placed { s with
        kernel := kernel
        answered := answered
        requests := before ++ { task with program := some (next r) } :: after } := by
    rintro hsettles rfl rfl
    refine h.remains hrequests hflight (inFlight_of_unanswered hsettles) ?_
    rintro p ⟨⟩
    exact .inr hsettles
  cases op with
  | base op => exact hunanswered (hnext false rfl) hoperates.1 hoperates.2
  | tcp op => exact hunanswered (hnext false rfl) hoperates.1 hoperates.2
  | file op => exact hunanswered (hnext false rfl) hoperates.1 hoperates.2
  | addfdSend source cloexec =>
    rcases hoperates with ⟨hsent, rfl, rfl, rfl⟩ | ⟨error, rfl, hkernel, hanswered⟩
    · rw [settled_of_answered (hnext true rfl)]
      exact h.ends hrequests hflight (.inl ⟨hsent, rfl⟩)
    · exact hunanswered (hnext false rfl) hkernel hanswered
  | respond value errno passthrough =>
    obtain ⟨hsend, hrecord⟩ := hoperates
    rcases h.sends hcount hsend with ⟨hr, hkernel⟩ | ⟨hr, hkernel⟩
    · rw [settled_of_answered (hnext true hr.symm), hrecord]
      simp only [record, hr, if_true]
      exact h.ends hrequests hflight hkernel
    · refine hunanswered (hnext false hr.symm) hkernel ?_
      simp only [hrecord, record, hr, Bool.false_eq_true, if_false]

theorem Placed.panic (h : Placed s) {op : RequestOperation}
    {next : op.Ret → Interaction RequestOperation RequestOperation.Ret (Except IoError Unit)}
    (hrequests : s.requests = before ++ task :: after)
    (hprogram : task.program = some (.perform op next)) :
    Placed { s with requests := before ++ { task with program := none } :: after } :=
  h.remains hrequests (inFlight_of_perform hprogram) rfl nofun

theorem Placed.join (h : Placed s) (hrequests : s.requests = before ++ task :: after)
    (hprogram : task.program = some (.done (.ok ()))) :
    Placed { s with requests := before ++ after } := by
  have hlength := h.requests
  have htasks := h.tasks
  rw [hrequests] at hlength htasks
  have hflight : task.inFlight = false := by rw [RequestTask.inFlight, hprogram]
  refine h.move ?_ h.channel ?_ ?_
  · intro other
    rw [hrequests, inFlight_append, inFlight_append, inFlight_cons_of_false hflight]
    rfl
  · simp only [List.length_append, List.length_cons] at hlength ⊢
    omega
  · intro other hmem
    refine htasks other (List.mem_append.mpr ?_)
    exact (List.mem_append.mp hmem).imp id (List.mem_cons_of_mem _)

/-- What is lost is in no other place. -/
theorem Placed.nowhere (h : Placed s) {id : UInt64} (hid : id ∈ s.lost) :
    id ∉ s.hands ∧ id ∉ s.queued ∧ id ∉ inFlight s.requests ∧ id ∉ s.answeredIds := by
  have hplaces := h.places id
  have hone := List.nodup_iff_count_le_one.mp h.distinct id
  have hlost := List.count_pos_iff.mpr hid
  simp only [NotifySystem.places, List.count_append] at hplaces
  simp only [← List.count_eq_zero]
  omega

end

end NotifySystem

end Scproxy
