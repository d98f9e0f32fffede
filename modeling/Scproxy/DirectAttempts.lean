import Scproxy.DirectConnector

namespace Scproxy

namespace DirectConnector

/-- What the loop over the list keeps: the addresses so far come first, each once. -/
theorem collect_nodup {addresses : List Ipv4Addr} (h : addresses.Nodup) (entries : List AddrInfo) :
    (collect addresses entries).Nodup := by
  induction entries generalizing addresses with
  | nil => exact h
  | cons entry rest ih =>
    unfold collect
    cases usable entry with
    | none => exact ih h
    | some ip =>
      apply ih
      split
      next => exact h
      next hnew =>
        rw [List.nodup_append]
        refine ⟨h, List.nodup_singleton ip, ?_⟩
        rintro a ha b hb rfl
        exact hnew (List.mem_singleton.mp hb ▸ ha)

/-- The loop keeps the first occurrence of every usable address. -/
theorem collect_eq (addresses : List Ipv4Addr) (entries : List AddrInfo) :
    collect addresses entries = addresses ++
      ((entries.filterMap usable).filter (· ∉ addresses)).eraseDups := by
  induction entries generalizing addresses with
  | nil => exact (List.append_nil addresses).symm
  | cons entry rest ih =>
    unfold collect
    cases hentry : usable entry with
    | none =>
      rw [List.filterMap_cons_none hentry]
      exact ih addresses
    | some ip =>
      simp only [List.filterMap_cons_some hentry]
      rw [ih]
      split
      next hmem => rw [List.filter_cons_of_neg (by simpa using hmem)]
      next hnew =>
        rw [List.filter_cons_of_pos (by simpa using hnew), List.eraseDups_cons, List.filter_filter,
          List.append_assoc, List.singleton_append]
        congr 4
        funext other
        by_cases hsame : other = ip
        · simp [hsame]
        · simp [hsame, beq_eq_false_iff_ne.mpr hsame]

theorem collect_nil (entries : List AddrInfo) :
    collect [] entries = (entries.filterMap usable).eraseDups := by
  rw [collect_eq]
  simp

theorem found_eq_ok {answer : AddrInfoAnswer} {addresses : List Ipv4Addr}
    (h : found answer = .ok addresses) : answer.code = 0 ∧ addresses = collect [] answer.entries := by
  unfold found at h
  split at h
  next hcode => exact ⟨hcode, (Except.ok.inj h).symm⟩
  next =>
    split at h
    next => cases h
    next =>
      split at h
      next => cases h
      next =>
        split at h
        next => cases h
        next => cases h

/-- Addresses come from one answer of the native resolver. -/
theorem runs_resolveIpv4_ok {domain : String} {addresses : List Ipv4Addr} {trace : List ResolvingEvent}
    (h : (resolveIpv4 domain).Runs trace (.ok addresses)) :
    ∃ errno entries, trace = [⟨.getaddrinfo domain, ⟨0, errno, entries⟩⟩] ∧
      addresses = collect [] entries := by
  unfold resolveIpv4 at h
  split at h
  next => cases (Interaction.runs_done_iff.mp h).2
  next =>
    split at h
    next => cases (Interaction.runs_done_iff.mp h).2
    next =>
      obtain ⟨answer, rest, rfl, hdone⟩ := Interaction.runs_perform_iff.mp h
      obtain ⟨rfl, hfound⟩ := Interaction.runs_done_iff.mp hdone
      obtain ⟨hcode, haddresses⟩ := found_eq_ok hfound.symm
      obtain ⟨code, errno, entries⟩ := answer
      cases hcode
      exact ⟨errno, entries, rfl, haddresses⟩

/-- Attempts that failed. -/
def failedAttempts (port : UInt16) (failures : List (Ipv4Addr × IoError)) : List DirectEvent :=
  failures.map fun failure => ⟨.connect ⟨failure.1, port⟩, .ended (.error failure.2)⟩

/-- How the loop ends after its failed attempts, `rest` not yet tried. -/
inductive Ends (port : UInt16) (last : IoError) :
    List Ipv4Addr → List DirectEvent → Option (Except AnyError Unit) → Prop
  | exhausted : Ends port last [] [] (some (.error [.io last]))
  | cancelled (address : Ipv4Addr) (rest : List Ipv4Addr) :
    Ends port last (address :: rest) [⟨.connect ⟨address, port⟩, .cancelled⟩] none
  | elapsed (address : Ipv4Addr) (rest : List Ipv4Addr) :
    Ends port last (address :: rest) [⟨.connect ⟨address, port⟩, .elapsed⟩]
      (some (.error timedOut))
  | connected (address : Ipv4Addr) (rest : List Ipv4Addr) (nodelay : Except IoError Unit) :
    Ends port last (address :: rest)
      [⟨.connect ⟨address, port⟩, .ended (.ok ())⟩, ⟨.setNodelay, nodelay⟩]
      (some (nodelay.mapError fun error => [.io error]))

/-- The error of the last attempt. -/
def lastError (last : IoError) (failures : List (Ipv4Addr × IoError)) : IoError :=
  (failures.getLast?.map Prod.snd).getD last

theorem lastError_cons (last : IoError) (failure : Ipv4Addr × IoError)
    (failures : List (Ipv4Addr × IoError)) :
    lastError last (failure :: failures) = lastError failure.2 failures := by
  unfold lastError
  cases failures with
  | nil => rfl
  | cons other rest =>
    rw [List.getLast?_cons_cons]
    cases h : (other :: rest).getLast? with
    | none => simp at h
    | some found => rfl

/-- Induction on the addresses: each is tried after all before it have failed. -/
theorem runs_connectAddresses {port : UInt16} {last : IoError} {addresses : List Ipv4Addr}
    {trace : List DirectEvent} {result : Option (Except AnyError Unit)}
    (h : (connectAddresses port last addresses).Runs trace result) :
    ∃ failures rest tail, addresses = failures.map Prod.fst ++ rest ∧
      trace = failedAttempts port failures ++ tail ∧
      Ends port (lastError last failures) rest tail result := by
  induction addresses generalizing last trace with
  | nil =>
    obtain ⟨rfl, rfl⟩ := Interaction.runs_done_iff.mp h
    exact ⟨[], [], [], rfl, rfl, .exhausted⟩
  | cons address addresses ih =>
    obtain ⟨answer, rest, rfl, hrest⟩ := Interaction.runs_perform_iff.mp h
    cases answer with
    | cancelled =>
      obtain ⟨rfl, rfl⟩ := Interaction.runs_done_iff.mp hrest
      exact ⟨[], _, _, rfl, rfl, .cancelled address addresses⟩
    | elapsed =>
      obtain ⟨rfl, rfl⟩ := Interaction.runs_done_iff.mp hrest
      exact ⟨[], _, _, rfl, rfl, .elapsed address addresses⟩
    | ended outcome =>
      cases outcome with
      | ok _ =>
        obtain ⟨nodelay, tail, rfl, hdone⟩ := Interaction.runs_perform_iff.mp hrest
        obtain ⟨rfl, rfl⟩ := Interaction.runs_done_iff.mp hdone
        exact ⟨[], _, _, rfl, rfl, .connected address addresses nodelay⟩
      | error error =>
        obtain ⟨failures, untried, tail, rfl, rfl, hends⟩ := ih hrest
        refine ⟨(address, error) :: failures, untried, tail, rfl, rfl, ?_⟩
        rw [lastError_cons]
        exact hends

/-- The addresses that a run tries to connect to. -/
def attempts (trace : List DirectEvent) : List SocketAddrV4 :=
  trace.filterMap fun event =>
    match event.op with
    | .connect address => some address
    | _ => none

theorem attempts_failed (port : UInt16) (failures : List (Ipv4Addr × IoError)) :
    attempts (failedAttempts port failures) =
      (failures.map Prod.fst).map fun address => ⟨address, port⟩ := by
  unfold attempts failedAttempts
  rw [List.filterMap_map, List.map_map]
  exact congrFun List.filterMap_eq_map failures

theorem Ends.attempts_starts {port : UInt16} {last : IoError} {rest : List Ipv4Addr}
    {tail : List DirectEvent} {result : Option (Except AnyError Unit)}
    (h : Ends port last rest tail result) :
    attempts tail <+: rest.map fun address => ⟨address, port⟩ := by
  cases h with
  | exhausted => exact List.prefix_rfl
  | cancelled address rest => exact List.prefix_append [_] _
  | elapsed address rest => exact List.prefix_append [_] _
  | connected address rest nodelay => exact List.prefix_append [_] _

/-- The attempts are those of the first addresses. -/
theorem attempts_starts {port : UInt16} {last : IoError} {addresses : List Ipv4Addr}
    {trace : List DirectEvent} {result : Option (Except AnyError Unit)}
    (h : (connectAddresses port last addresses).Runs trace result) :
    attempts trace <+: addresses.map fun address => ⟨address, port⟩ := by
  obtain ⟨failures, rest, tail, rfl, rfl, hends⟩ := runs_connectAddresses h
  have hsplit : attempts (failedAttempts port failures ++ tail) =
      attempts (failedAttempts port failures) ++ attempts tail := List.filterMap_append
  rw [hsplit, attempts_failed, List.map_append]
  exact (List.prefix_append_right_inj _).mpr hends.attempts_starts

theorem nodup_map_port {addresses : List Ipv4Addr} (h : addresses.Nodup) (port : UInt16) :
    (addresses.map fun address => (⟨address, port⟩ : SocketAddrV4)).Nodup :=
  h.map fun _ _ heq => congrArg SocketAddrV4.ip heq

/-- A direct connection looks its name up once. It tries the usable addresses that the
resolver gave, each once and in the order in which they first appear, goes on only after a
failure, and ends with the first address that connects; if none does, the error is that of the
last attempt. -/
theorem connect_tries_in_order {host : String} {port : UInt16} {trace : List DirectEvent}
    {result : Option (Except AnyError Unit)} {resolving : List ResolvingEvent} {found : Found}
    (h : (connect host port).Runs trace result) (hfound : (resolveIpv4 host).Runs resolving found)
    (hgiven : ∀ addresses, ⟨.lookup, .ended (.ok addresses)⟩ ∈ trace → found = .ok addresses) :
    (attempts trace).Nodup ∧
    ∃ answer tail, trace = ⟨.lookup, answer⟩ :: tail ∧
      match answer with
      | .ended (.ok addresses) => ∃ errno entries failures rest ending outcome,
          resolving = [⟨.getaddrinfo host, ⟨0, errno, entries⟩⟩] ∧
          addresses = (entries.filterMap usable).eraseDups ∧
          addresses = failures.map Prod.fst ++ rest ∧
          tail = failedAttempts port failures ++ ending ∧
          Ends port (lastError (.os Errno.ehostunreach) failures) rest ending outcome ∧
          result = outcome.map fun outcome =>
            outcome.mapError (.text (attempted host port) :: ·)
      | _ => tail = [] ∧ result ≠ some (.ok ()) := by
  obtain ⟨front, back, outcome, rfl, hconnect, hdone⟩ := Interaction.runs_bind.mp h
  obtain ⟨rfl, rfl⟩ := Interaction.runs_done_iff.mp hdone
  obtain ⟨answer, tail, rfl, htail⟩ := Interaction.runs_perform_iff.mp hconnect
  rw [List.append_nil] at hgiven ⊢
  cases answer with
  | cancelled =>
    obtain ⟨rfl, rfl⟩ := Interaction.runs_done_iff.mp htail
    exact ⟨List.nodup_nil, _, [], rfl, rfl, nofun⟩
  | elapsed =>
    obtain ⟨rfl, rfl⟩ := Interaction.runs_done_iff.mp htail
    exact ⟨List.nodup_nil, _, [], rfl, rfl, nofun⟩
  | ended looked =>
    cases looked with
    | error cause =>
      obtain ⟨rfl, rfl⟩ := Interaction.runs_done_iff.mp htail
      exact ⟨List.nodup_nil, _, [], rfl, rfl, nofun⟩
    | ok addresses =>
      rw [hgiven addresses (by simp)] at hfound
      obtain ⟨errno, entries, rfl, rfl⟩ := runs_resolveIpv4_ok hfound
      have hnodup : (collect [] entries).Nodup := collect_nodup List.nodup_nil entries
      have hstarts := attempts_starts htail
      obtain ⟨failures, rest, ending, hsplit, hevents, hends⟩ := runs_connectAddresses htail
      refine ⟨(nodup_map_port hnodup port).sublist hstarts.sublist, _, tail, rfl, errno, entries,
        failures, rest, ending, outcome, rfl, collect_nil entries, hsplit, hevents, hends, rfl⟩

/-- The resolver gives an address twice. -/
def twoAddresses : List ResolvingEvent :=
  [⟨.getaddrinfo "host", ⟨0, 0, [⟨2, some (Ipv4Addr.new 192 0 2 1), 16⟩,
    ⟨2, some (Ipv4Addr.new 192 0 2 2), 16⟩, ⟨2, some (Ipv4Addr.new 192 0 2 1), 16⟩]⟩⟩]

/-- The first address refuses, the second one connects. -/
def secondConnects : List DirectEvent :=
  [⟨.lookup, .ended (.ok [Ipv4Addr.new 192 0 2 1, Ipv4Addr.new 192 0 2 2])⟩,
    ⟨.connect ⟨Ipv4Addr.new 192 0 2 1, 80⟩, .ended (.error (.os 111))⟩,
    ⟨.connect ⟨Ipv4Addr.new 192 0 2 2, 80⟩, .ended (.ok ())⟩, ⟨.setNodelay, .ok ()⟩]

theorem connect_tries_in_order_second :
    (connect "host" 80).Runs secondConnects (some (.ok ())) ∧
    (resolveIpv4 "host").Runs twoAddresses
      (.ok [Ipv4Addr.new 192 0 2 1, Ipv4Addr.new 192 0 2 2]) ∧
    (attempts secondConnects).Nodup ∧
    ∃ errno entries failures rest ending outcome,
      twoAddresses = [⟨.getaddrinfo "host", ⟨0, errno, entries⟩⟩] ∧
      [Ipv4Addr.new 192 0 2 1, Ipv4Addr.new 192 0 2 2] = (entries.filterMap usable).eraseDups ∧
      [Ipv4Addr.new 192 0 2 1, Ipv4Addr.new 192 0 2 2] = failures.map Prod.fst ++ rest ∧
      Ends 80 (lastError (.os Errno.ehostunreach) failures) rest ending outcome := by
  have hrun : (connect "host" 80).Runs secondConnects (some (.ok ())) :=
    .perform (.perform (.perform (.perform (.done _))))
  have hfound : (resolveIpv4 "host").Runs twoAddresses
      (.ok [Ipv4Addr.new 192 0 2 1, Ipv4Addr.new 192 0 2 2]) := .perform (.done _)
  have hgiven : ∀ addresses, ⟨.lookup, .ended (.ok addresses)⟩ ∈ secondConnects →
      (.ok [Ipv4Addr.new 192 0 2 1, Ipv4Addr.new 192 0 2 2] : Found) = .ok addresses := by
    intro addresses hmem
    obtain rfl : addresses = [Ipv4Addr.new 192 0 2 1, Ipv4Addr.new 192 0 2 2] := by
      simpa [secondConnects] using hmem
    rfl
  obtain ⟨hnodup, answer, tail, htrace, hends⟩ := connect_tries_in_order hrun hfound hgiven
  obtain ⟨rfl, rfl⟩ : answer = .ended (.ok [Ipv4Addr.new 192 0 2 1, Ipv4Addr.new 192 0 2 2]) ∧
      tail = secondConnects.tail := by
    cases htrace
    exact ⟨rfl, rfl⟩
  obtain ⟨errno, entries, failures, rest, ending, outcome, hresolving, hcollected, hsplit, _,
    hending, _⟩ := hends
  exact ⟨hrun, hfound, hnodup, errno, entries, failures, rest, ending, outcome, hresolving,
    hcollected, hsplit, hending⟩

end DirectConnector

end Scproxy
