import Scproxy.IoError
import Scproxy.ResponseQuestion
import Scproxy.Segmented

namespace Scproxy

namespace DnsTcp

/-- The errors of `serve_tcp`; a panic ends the task as well. -/
inductive ServeError
  | io (error : IoError)
  | new (kind : ErrorKind) (message : String)
  | panic (reason : Panic)
  deriving DecidableEq

def invalidQuery : ServeError := .new .invalidData "invalid TCP DNS query"

def tooLarge : ServeError := .new .invalidData "TCP DNS response is too large"

def unexpectedEof : ServeError := .io (.simple .unexpectedEof)

/-- A connection and the mapping of the resolver that serves it. -/
structure Session where
  inbound : Source UInt8 IoError
  written : List UInt8
  mapping : FakeDns

/-- What becomes of a write, by what was written before it: `none` if all of
it is taken, or how much of it is when it fails. -/
abbrev Sink := List UInt8 → List UInt8 → Option (Nat × IoError)

/-- The application takes all that is written. -/
def Sink.accepting : Sink := fun _ _ => none

abbrev Serving := Prog Session ServeError

def readExact (n : Nat) : Serving (List UInt8) := fun s =>
  match s.inbound.readExact n with
  | .ok (bytes, inbound) => (.ok bytes, { s with inbound := inbound })
  | .error ending => (.error (.io (ending.getD (.simple .unexpectedEof))), s)

/-- The two bytes before a query; `none` if the connection is closed there. -/
def readPrefix : Serving (Option (List UInt8)) := fun s =>
  match readExact 2 s with
  | (.ok bytes, t) => (.ok (some bytes), t)
  | (.error error, t) => if error = unexpectedEof then (.ok none, t) else (.error error, t)

def writeAll (write : Sink) (bytes : List UInt8) : Serving Unit := fun s =>
  match write s.written bytes with
  | none => (.ok (), { s with written := s.written ++ bytes })
  | some (n, error) => (.error (.io error), { s with written := s.written ++ bytes.take n })

def answer (query : List UInt8) : Serving (Option (List UInt8)) := fun s =>
  match Resolver.answer s.mapping query with
  | .ok (mapping, response) => (.ok response, { s with mapping := mapping })
  | .error reason => (.error (.panic reason), s)

/-- The part of an exchange after the query has been read. -/
def respond (write : Sink) (query : List UInt8) : Serving Bool := do
  match ← answer query with
  | none => Prog.fail invalidQuery
  | some response =>
    if 65535 < response.length then Prog.fail tooLarge
    else do
      writeAll write (be16 (.ofNat response.length))
      writeAll write response
      pure true

/-- The body of the loop, without its timeout. -/
def exchange (write : Sink) : Serving Bool := do
  match ← readPrefix with
  | none => pure false
  | some front =>
    let query ← readExact (fromBe16 (front.getD 0 0) (front.getD 1 0)).toNat
    respond write query

theorem encodeName_length_le {domain : String} (h : (asBytes domain).length ≤ 253) :
    (encodeName domain).length ≤ 255 := by
  rw [encodeName_eq]
  apply (domain_length_iff _).mp
  rwa [joinWith_nameParts]

/-- A query is rejected, or its answer has at most 287 bytes. -/
theorem answer_cases (mapping : FakeDns) (query : List UInt8) :
    (parseQuery query = .ok none ∧ Resolver.answer mapping query = .ok (mapping, none)) ∨
    ∃ parsed mapping' response, parseQuery query = .ok (some parsed) ∧
      Resolver.answer mapping query = .ok (mapping', some response) ∧ response.length ≤ 287 := by
  obtain ⟨result, hparse⟩ := parseQuery_total query
  unfold Resolver.answer
  rw [hparse]
  rcases result with _ | ⟨id, domain, kind⟩
  · exact Or.inl ⟨rfl, rfl⟩
  · refine Or.inr ?_
    obtain ⟨q, _, _, hdomain, _⟩ := parseQuery_sound hparse
    have hname : (encodeName domain).length ≤ 255 := by
      rw [← hdomain]
      exact encodeName_length_le q.domain_length
    have hempty : ∀ kind, (buildEmptyResponse id domain kind).length ≤ 271 := by
      intro kind
      simp only [buildEmptyResponse, be16, List.length_append, List.length_cons, List.length_nil]
      omega
    simp only [bind, Except.bind]
    split
    next =>
      refine ⟨_, _, _, rfl, rfl, ?_⟩
      have hlength := hempty 1
      simp only [buildAResponse, be16, be32, Ipv4Addr.octets, List.length_append,
        List.length_cons, List.length_nil, List.length_take, List.length_drop]
      omega
    next => exact ⟨_, _, _, rfl, rfl, (hempty kind).trans (by decide)⟩

section Steps

variable {s : Session} {query front rest : List UInt8}

theorem readExact_of_append (h : s.inbound.items = front ++ rest) :
    ∃ inbound, readExact front.length s = (.ok front, { s with inbound := inbound }) ∧
      inbound.items = rest ∧ inbound.ending = s.inbound.ending := by
  obtain ⟨inbound, hread, hrest, hending⟩ := Source.readExact_of_append h
  refine ⟨inbound, ?_, hrest, hending⟩
  unfold readExact
  rw [hread]

theorem readExact_of_short {n : Nat} (hending : s.inbound.ending = none)
    (h : s.inbound.items.length < n) : readExact n s = (.error unexpectedEof, s) := by
  unfold readExact
  rw [Source.readExact_of_short h, hending]
  rfl

theorem readPrefix_of_ok {t : Session} (h : readExact 2 s = (.ok front, t)) :
    readPrefix s = (.ok (some front), t) := by
  unfold readPrefix
  rw [h]

theorem readPrefix_of_error {t : Session} {e : ServeError} (h : readExact 2 s = (.error e, t)) :
    readPrefix s = if e = unexpectedEof then (.ok none, t) else (.error e, t) := by
  unfold readPrefix
  rw [h]

theorem exchange_of_closed (write : Sink) (hending : s.inbound.ending = none)
    (h : s.inbound.items.length < 2) : exchange write s = (.ok false, s) :=
  Prog.bind_of_ok (readPrefix_of_error (readExact_of_short hending h))

theorem readPrefix_of_cons {hi lo : UInt8} (h : s.inbound.items = hi :: lo :: rest) :
    ∃ inbound, readPrefix s = (.ok (some [hi, lo]), { s with inbound := inbound }) ∧
      inbound.items = rest ∧ inbound.ending = s.inbound.ending := by
  have happend : s.inbound.items = [hi, lo] ++ rest := h
  obtain ⟨inbound, hread, hrest, hending⟩ := readExact_of_append happend
  exact ⟨inbound, readPrefix_of_ok hread, hrest, hending⟩

theorem exchange_of_truncated (write : Sink) (hending : s.inbound.ending = none) {hi lo : UInt8}
    (h : s.inbound.items = hi :: lo :: rest) (hshort : rest.length < (fromBe16 hi lo).toNat) :
    ∃ inbound, exchange write s = (.error unexpectedEof, { s with inbound := inbound }) := by
  obtain ⟨inbound, hread, hrest, hinbound⟩ := readPrefix_of_cons h
  refine ⟨inbound, ?_⟩
  have hquery : readExact (fromBe16 hi lo).toNat { s with inbound := inbound } =
      (.error unexpectedEof, { s with inbound := inbound }) := by
    apply readExact_of_short
    · exact hinbound.trans hending
    · rwa [hrest]
  exact (Prog.bind_of_ok hread).trans (Prog.bind_of_error hquery)

theorem exchange_of_frame (write : Sink) {hi lo : UInt8}
    (h : s.inbound.items = hi :: lo :: (query ++ rest))
    (hlength : query.length = (fromBe16 hi lo).toNat) :
    ∃ inbound, exchange write s = respond write query { s with inbound := inbound } ∧
      inbound.items = rest ∧ inbound.ending = s.inbound.ending := by
  obtain ⟨first, hread, hitems, hfirst⟩ := readPrefix_of_cons h
  obtain ⟨inbound, hquery, hrest, hending⟩ := readExact_of_append (s := { s with inbound := first })
    hitems
  rw [hlength] at hquery
  exact ⟨inbound, (Prog.bind_of_ok hread).trans (Prog.bind_of_ok hquery), hrest,
    hending.trans hfirst⟩

/-- A response as it is sent, behind its length. -/
def frame (response : List UInt8) : List UInt8 := be16 (.ofNat response.length) ++ response

theorem respond_of_rejected (write : Sink) (h : Resolver.answer s.mapping query = .ok (s.mapping, none)) :
    respond write query s = (.error invalidQuery, s) := by
  have hanswer : answer query s = (.ok none, s) := by
    unfold answer
    rw [h]
  exact Prog.bind_of_ok hanswer

theorem respond_of_answer {mapping : FakeDns} {response : List UInt8}
    (h : Resolver.answer s.mapping query = .ok (mapping, some response))
    (hlength : response.length ≤ 287) :
    respond .accepting query s =
      (.ok true, { s with written := s.written ++ frame response, mapping := mapping }) := by
  have hanswer : answer query s = (.ok (some response), { s with mapping := mapping }) := by
    unfold answer
    rw [h]
  refine (Prog.bind_of_ok hanswer).trans ?_
  dsimp only
  rw [if_neg (by omega)]
  refine (Prog.bind_of_ok rfl).trans ((Prog.bind_of_ok rfl).trans ?_)
  rw [frame, ← List.append_assoc]
  rfl

end Steps

section Triples

variable (write : Sink) (s : Session)

theorem triple_readExact (n : Nat) :
    Prog.Triple (· = s) (readExact n)
      (fun bytes t => s.inbound.items.length = n + t.inbound.items.length ∧ bytes.length = n)
      (fun e _ => e ≠ tooLarge) := by
  intro s' hs
  subst hs
  unfold readExact
  rcases Source.readExact_cases n s'.inbound with ⟨bytes, inbound, hread, hlen, hitems⟩ | hread
  · rw [hread]
    refine ⟨?_, hlen⟩
    rw [hitems, List.length_append, hlen]
  · rw [hread]
    exact fun heq => nomatch heq

theorem triple_readPrefix :
    Prog.Triple (· = s) readPrefix
      (fun front t => front ≠ none → t.inbound.items.length < s.inbound.items.length)
      (fun e _ => e ≠ tooLarge) := by
  intro s' hs
  subst hs
  have hread := triple_readExact s' 2 s' rfl
  rcases hr : readExact 2 s' with ⟨e | bytes, t⟩
  · rw [hr] at hread
    rw [readPrefix_of_error hr]
    split
    next => exact fun hne => absurd rfl hne
    next => exact hread
  · rw [hr] at hread
    rw [readPrefix_of_ok hr]
    intro _
    have hlength : s'.inbound.items.length = 2 + t.inbound.items.length := hread.1
    omega

theorem triple_answer (query : List UInt8) :
    Prog.Triple (· = s) (answer query)
      (fun response t => t.inbound = s.inbound ∧ ∀ bytes, response = some bytes → bytes.length ≤ 287)
      (fun e _ => e ≠ tooLarge) := by
  intro s' hs
  subst hs
  unfold answer
  rcases answer_cases s'.mapping query with ⟨_, hanswer⟩ | ⟨_, _, response, _, hanswer, hlength⟩
  · rw [hanswer]
    exact ⟨rfl, fun _ h => nomatch h⟩
  · rw [hanswer]
    refine ⟨rfl, fun bytes h => ?_⟩
    rwa [← Option.some.inj h]

theorem triple_writeAll (inbound : Source UInt8 IoError) (bytes : List UInt8) :
    Prog.Triple (fun s => s.inbound = inbound) (writeAll write bytes)
      (fun _ t => t.inbound = inbound) (fun e _ => e ≠ tooLarge) := by
  intro s hs
  unfold writeAll
  rcases write s.written bytes with _ | ⟨n, error⟩
  · exact hs
  · exact fun heq => nomatch heq

theorem triple_respond (query : List UInt8) :
    Prog.Triple (· = s) (respond write query) (fun _ t => t.inbound = s.inbound)
      (fun e _ => e ≠ tooLarge) := by
  refine (triple_answer s query).bind fun response => ?_
  rcases response with _ | response
  · exact .fail fun _ _ => by decide
  · intro t ht
    dsimp only
    rw [if_neg (by have := ht.2 response rfl; omega)]
    exact Prog.Triple.bind (triple_writeAll write s.inbound _)
      (fun _ => Prog.Triple.bind (triple_writeAll write s.inbound _) fun _ => .pure fun _ h => h)
      t ht.1

/-- An exchange that is followed by another one has read something, and no
response is too large, whatever the connection does. -/
theorem triple_exchange :
    Prog.Triple (· = s) (exchange write)
      (fun more t => more = true → t.inbound.items.length < s.inbound.items.length)
      (fun e _ => e ≠ tooLarge) := by
  refine (triple_readPrefix s).bind fun front => ?_
  rcases front with _ | front
  · exact .pure fun _ _ h => nomatch h
  · intro t ht
    have ht := ht (by simp)
    refine Prog.Triple.bind (triple_readExact t _) (fun query => ?_) t rfl
    intro u hu
    have hrespond := triple_respond write u query u rfl
    rcases hr : respond write query u with ⟨e | more, v⟩
    · rw [hr] at hrespond
      exact hrespond
    · rw [hr] at hrespond
      intro _
      have hinbound : v.inbound = u.inbound := hrespond
      rw [hinbound]
      omega

end Triples

/-- Rounds of the loop until a connection is closed or an error ends it. -/
def serveTcp (write : Sink) (s : Session) : Except ServeError Unit × Session :=
  match _h : exchange write s with
  | (.ok true, t) => serveTcp write t
  | (.ok false, t) => (.ok (), t)
  | (.error error, t) => (.error error, t)
termination_by s.inbound.items.length
decreasing_by
  have hexchange := triple_exchange write s s rfl
  rw [_h] at hexchange
  exact hexchange rfl

section Rounds

variable {write : Sink} {s t : Session}

theorem serveTcp_of_more (h : exchange write s = (.ok true, t)) :
    serveTcp write s = serveTcp write t := by
  rw [serveTcp]
  split
  next h' => rw [h] at h'; cases h'; rfl
  next h' => rw [h] at h'; cases h'
  next h' => rw [h] at h'; cases h'

theorem serveTcp_of_closed (h : exchange write s = (.ok false, t)) :
    serveTcp write s = (.ok (), t) := by
  rw [serveTcp]
  split
  next h' => rw [h] at h'; cases h'
  next h' => rw [h] at h'; cases h'; rfl
  next h' => rw [h] at h'; cases h'

theorem serveTcp_of_error {error : ServeError} (h : exchange write s = (.error error, t)) :
    serveTcp write s = (.error error, t) := by
  rw [serveTcp]
  split
  next h' => rw [h] at h'; cases h'
  next h' => rw [h] at h'; cases h'
  next h' => rw [h] at h'; cases h'; rfl

theorem serveTcp_ne_tooLarge (write : Sink) (s : Session) :
    (serveTcp write s).1 ≠ .error tooLarge := by
  fun_induction serveTcp write s with
  | case1 s t h ih => exact ih
  | case2 s t h => exact fun hne => nomatch hne
  | case3 s error t h =>
    have hexchange := triple_exchange write s s rfl
    rw [h] at hexchange
    exact fun heq => hexchange (Except.error.inj heq)

end Rounds

/-- The complete frames of a stream, and what is left over. -/
def frames : List UInt8 → List (List UInt8) × List UInt8
  | hi :: lo :: rest =>
    if (fromBe16 hi lo).toNat ≤ rest.length then
      let later := frames (rest.drop (fromBe16 hi lo).toNat)
      (rest.take (fromBe16 hi lo).toNat :: later.1, later.2)
    else ([], hi :: lo :: rest)
  | bytes => ([], bytes)
termination_by bytes => bytes.length
decreasing_by
  simp only [List.length_drop, List.length_cons]
  omega

/-- The answers to queries one after another. -/
def answerAll (mapping : FakeDns) :
    List (List UInt8) → Except Panic (FakeDns × List (Option (List UInt8)))
  | [] => .ok (mapping, [])
  | query :: queries => do
    let (mapping, response) ← Resolver.answer mapping query
    let (mapping, responses) ← answerAll mapping queries
    .ok (mapping, response :: responses)

/-- How the connection ends, by the frames that are not answered and the bytes left over. -/
def outcome : List (List UInt8) → List UInt8 → Except ServeError Unit
  | _ :: _, _ => .error invalidQuery
  | [], rest => if 2 ≤ rest.length then .error unexpectedEof else .ok ()

theorem answerAll_length {mapping mapping' : FakeDns} {queries : List (List UInt8)}
    {responses : List (Option (List UInt8))}
    (h : answerAll mapping queries = .ok (mapping', responses)) :
    responses.length = queries.length := by
  induction queries generalizing mapping responses with
  | nil =>
    cases h
    rfl
  | cons query queries ih =>
    obtain ⟨⟨next, response⟩, _, h⟩ := bind_eq_ok.mp h
    obtain ⟨⟨last, rest⟩, hrest, h⟩ := bind_eq_ok.mp h
    cases h
    rw [List.length_cons, List.length_cons, ih hrest]

theorem outcome_eq_ok {later : List (List UInt8)} {rest : List UInt8} :
    outcome later rest = .ok () ↔ later = [] ∧ rest.length ≤ 1 := by
  cases later with
  | nil =>
    simp only [outcome, true_and]
    split
    next h => simp; omega
    next h => simp; omega
  | cons query later => simp [outcome]

theorem serveTcp_frames {items : List UInt8} {s : Session} (hitems : s.inbound.items = items)
    (hending : s.inbound.ending = none) :
    ∃ accepted later, ∃ responses : List (List UInt8), ∃ t,
      (frames items).1 = accepted ++ later ∧
      (∀ query ∈ accepted, ∃ parsed, parseQuery query = .ok (some parsed)) ∧
      (∀ query ∈ later.head?, parseQuery query = .ok none) ∧
      answerAll s.mapping accepted = .ok (t.mapping, responses.map some) ∧
      (∀ response ∈ responses, response.length ≤ 287) ∧
      serveTcp .accepting s = (outcome later (frames items).2, t) ∧
      t.written = s.written ++ responses.flatMap frame := by
  fun_induction frames items generalizing s with
  | case1 hi lo rest h later =>
    rename_i ih
    have hsplit : s.inbound.items = hi :: lo :: (rest.take (fromBe16 hi lo).toNat ++
        rest.drop (fromBe16 hi lo).toNat) := by
      rw [hitems, List.take_append_drop]
    have hlength : (rest.take (fromBe16 hi lo).toNat).length = (fromBe16 hi lo).toNat := by
      rw [List.length_take, Nat.min_eq_left h]
    obtain ⟨inbound, hexchange, hrest, hinbound⟩ := exchange_of_frame .accepting hsplit hlength
    rcases answer_cases s.mapping (rest.take (fromBe16 hi lo).toNat) with ⟨hparse, hanswer⟩ |
      ⟨parsed, mapping, response, hparse, hanswer, hresponse⟩
    · have hrespond := respond_of_rejected (s := { s with inbound := inbound }) .accepting hanswer
      refine ⟨[], _, [], { s with inbound := inbound }, rfl, by simp, ?_, rfl, by simp,
        serveTcp_of_error (hexchange.trans hrespond), ?_⟩
      · rintro query hquery
        cases hquery
        exact hparse
      · rw [List.flatMap_nil, List.append_nil]
    · have hrespond := respond_of_answer (s := { s with inbound := inbound }) hanswer hresponse
      obtain ⟨accepted, later', responses, t, hframes, haccepted, hlater, hall, hsmall, hserve,
        hwritten⟩ := @ih ⟨inbound, s.written ++ frame response, mapping⟩ hrest
          (hinbound.trans hending)
      refine ⟨_ :: accepted, later', response :: responses, t, congrArg _ hframes,
        List.forall_mem_cons.mpr ⟨⟨parsed, hparse⟩, haccepted⟩, hlater, ?_,
        List.forall_mem_cons.mpr ⟨hresponse, hsmall⟩,
        (serveTcp_of_more (hexchange.trans hrespond)).trans hserve, ?_⟩
      · rw [answerAll, hanswer]
        refine bind_eq_ok.mpr ⟨_, rfl, bind_eq_ok.mpr ⟨_, hall, rfl⟩⟩
      · rw [hwritten, List.flatMap_cons, List.append_assoc]
  | case2 hi lo rest h =>
    obtain ⟨inbound, hexchange⟩ :=
      exchange_of_truncated .accepting hending hitems (Nat.lt_of_not_le h)
    exact ⟨[], [], [], { s with inbound := inbound }, rfl, by simp, by simp, rfl, by simp,
      serveTcp_of_error hexchange, (List.append_nil _).symm⟩
  | case3 bytes h =>
    have hshort : bytes.length < 2 := by
      rcases bytes with _ | ⟨hi, _ | ⟨lo, rest⟩⟩
      · simp
      · simp
      · exact absurd rfl (h hi lo rest)
    have hexchange := exchange_of_closed .accepting hending (by rwa [hitems])
    refine ⟨[], [], [], s, rfl, by simp, by simp, rfl, by simp, ?_, (List.append_nil _).symm⟩
    rw [serveTcp_of_closed hexchange, outcome, if_neg (Nat.not_le.mpr hshort)]

theorem frames_frame {response : List UInt8} (h : response.length ≤ 65535) (rest : List UInt8) :
    frames (frame response ++ rest) = (response :: (frames rest).1, (frames rest).2) := by
  have hlength : (fromBe16 (UInt8.ofNat ((UInt16.ofNat response.length).toNat / 256))
      (UInt8.ofNat ((UInt16.ofNat response.length).toNat % 256))).toNat = response.length := by
    rw [fromBe16_be16, UInt16.toNat_ofNat', Nat.mod_eq_of_lt (by omega)]
  simp only [frame, be16, List.cons_append, List.nil_append]
  rw [frames, hlength, if_pos (by simp), List.take_left, List.drop_left]

theorem frames_flatMap_frame {responses : List (List UInt8)}
    (h : ∀ response ∈ responses, response.length ≤ 65535) :
    frames (responses.flatMap frame) = (responses, []) := by
  induction responses with
  | nil =>
    rw [List.flatMap_nil, frames]
    simp
  | cons response responses ih =>
    obtain ⟨hfirst, hrest⟩ := List.forall_mem_cons.mp h
    rw [List.flatMap_cons, frames_frame hfirst, ih hrest]

theorem serveTcp_answers_frames (pieces : List (List UInt8)) (mapping : FakeDns) :
    (∃ accepted later, ∃ responses : List (List UInt8),
      (frames pieces.flatten).1 = accepted ++ later ∧
      (∀ query ∈ accepted, ∃ parsed, parseQuery query = .ok (some parsed)) ∧
      (∀ query ∈ later.head?, parseQuery query = .ok none) ∧
      answerAll mapping accepted =
        .ok ((serveTcp .accepting ⟨⟨pieces, none⟩, [], mapping⟩).2.mapping, responses.map some) ∧
      (serveTcp .accepting ⟨⟨pieces, none⟩, [], mapping⟩).2.written = responses.flatMap frame ∧
      ((serveTcp .accepting ⟨⟨pieces, none⟩, [], mapping⟩).1 = .ok () ↔
        later = [] ∧ (frames pieces.flatten).2.length ≤ 1) ∧
      frames (responses.flatMap frame) = (responses, []) ∧ responses.length = accepted.length) ∧
    ∀ write s, (serveTcp write s).1 ≠ .error tooLarge := by
  refine ⟨?_, serveTcp_ne_tooLarge⟩
  obtain ⟨accepted, later, responses, t, hframes, haccepted, hlater, hall, hsmall, hserve,
    hwritten⟩ := serveTcp_frames (s := ⟨⟨pieces, none⟩, [], mapping⟩) rfl rfl
  rw [hserve]
  refine ⟨accepted, later, responses, hframes, haccepted, hlater, hall, hwritten, outcome_eq_ok,
    frames_flatMap_frame fun response h => (hsmall response h).trans (by decide), ?_⟩
  have hlength := answerAll_length hall
  rwa [List.length_map] at hlength

end DnsTcp

end Scproxy
