import Scproxy.Socks5

namespace Scproxy

namespace Socks5

open Dialogue

/-- `ATYP BND.ADDR BND.PORT` of a reply. -/
inductive Bound : List UInt8 → Prop
  | ipv4 {rest : List UInt8} (h : rest.length = 6) : Bound (1 :: rest)
  | ipv6 {rest : List UInt8} (h : rest.length = 18) : Bound (4 :: rest)
  | domain {n : UInt8} {rest : List UInt8} (h : rest.length = n.toNat + 2) :
    Bound (3 :: n :: rest)

/-- What the server sends until the client is let in, and what the client writes
after the greeting for it. -/
inductive Login (auth : Option (String × String)) : List UInt8 → List (List UInt8) → Prop
  | noAuth : Login auth [5, 0] []
  | userPass {user pass : String} {v : UInt8} (hauth : auth = some (user, pass))
    (huser : (asBytes user).length ≤ 255) (hpass : (asBytes pass).length ≤ 255) :
    Login auth [5, 2, v, 0] [credentials user pass]

/-- A whole successful exchange: what the server sends and what the client writes. -/
inductive Handshake (auth : Option (String × String)) (request : List UInt8) :
    List UInt8 → List (List UInt8) → Prop
  | mk {login : List UInt8} {messages : List (List UInt8)} {r : UInt8} {bound : List UInt8}
    (hlogin : Login auth login messages) (hbound : Bound bound) :
    Handshake auth request (login ++ ([5, 0, r] ++ bound))
      (greeting auth.isSome :: messages ++ [request])

def wrote? : ExchangeEvent → Option (List UInt8)
  | .wrote bytes => some bytes
  | .read _ => none

def readBytes : ExchangeEvent → List UInt8
  | .wrote _ => []
  | .read bytes => bytes

def written (trace : List ExchangeEvent) : List (List UInt8) := trace.filterMap wrote?

def received (trace : List ExchangeEvent) : List UInt8 := trace.flatMap readBytes

/-- The client may write `message` after what happened in `before`. -/
inductive Permitted (auth : Option (String × String)) (request : List UInt8) :
    List ExchangeEvent → List UInt8 → Prop
  | greeting : Permitted auth request [] (greeting auth.isSome)
  | credentials {user pass : String} (hauth : auth = some (user, pass)) :
    Permitted auth request [.wrote (Socks5.greeting auth.isSome), .read [5, 2]]
      (credentials user pass)
  | afterNoAuth : Permitted auth request
      [.wrote (Socks5.greeting auth.isSome), .read [5, 0]] request
  | afterLogin {user pass : String} {v : UInt8} (hauth : auth = some (user, pass)) :
    Permitted auth request [.wrote (Socks5.greeting auth.isSome), .read [5, 2],
      .wrote (Socks5.credentials user pass), .read [v, 0]] request

def InOrder (auth : Option (String × String)) (request : List UInt8)
    (trace : List ExchangeEvent) : Prop :=
  ∀ before message after, trace = before ++ .wrote message :: after →
    Permitted auth request before message

variable {auth : Option (String × String)} {request : List UInt8}

theorem inOrder_nil : InOrder auth request [] := by
  intro before message after h
  simp at h

theorem InOrder.asked {s t : Exchange} {message : List UInt8} (h : InOrder auth request s.trace)
    (hp : Permitted auth request s.trace message) (ha : Asked s message t) :
    InOrder auth request t.trace := by
  obtain ⟨replies, ht⟩ := ha
  intro before m after heq
  rw [ht] at heq
  rcases List.append_eq_append_iff.mp heq with ⟨mid, hb, hm⟩ | ⟨mid, hs, hm⟩
  · cases mid with
    | nil =>
      rw [List.nil_append, List.cons.injEq] at hm
      obtain ⟨hm, _⟩ := hm
      cases hm
      rw [hb, List.append_nil]
      exact hp
    | cons event mid =>
      rw [List.cons_append, List.cons.injEq] at hm
      have hmem : ExchangeEvent.wrote m ∈ replies.map ExchangeEvent.read := by
        rw [hm.2]
        simp
      simp at hmem
  · cases mid with
    | nil =>
      rw [List.nil_append, List.cons.injEq] at hm
      obtain ⟨hm, _⟩ := hm
      cases hm
      rw [List.append_nil] at hs
      rw [← hs]
      exact hp
    | cons event mid =>
      rw [List.cons_append, List.cons.injEq] at hm
      obtain ⟨rfl, _⟩ := hm
      exact h before m mid hs

theorem getD_two {bytes : List UInt8} (h : bytes.length = 2) :
    bytes = [bytes.getD 0 0, bytes.getD 1 0] := by
  obtain ⟨a, b, rfl⟩ := List.length_eq_two.mp h
  rfl

theorem getD_four {bytes : List UInt8} (h : bytes.length = 4) :
    bytes = [bytes.getD 0 0, bytes.getD 1 0, bytes.getD 2 0, bytes.getD 3 0] := by
  match bytes, h with
  | [a, b, c, d], _ => rfl

theorem triple_negotiateMethod {os : ProxyOs} {hasAuth : Bool} (s : Exchange) :
    Prog.Triple (· = s) (negotiateMethod os hasAuth)
      (fun method t => (method = 0 ∨ method = 2 ∧ hasAuth = true) ∧
        os.write (greeting hasAuth) = .ok () ∧
        s.inbound.items = [5, method] ++ t.inbound.items ∧
        t.trace = s.trace ++ [.wrote (greeting hasAuth), .read [5, method]])
      fun _ => Asked s (greeting hasAuth) := by
  refine Prog.Triple.bind (triple_ask s) fun resp => ?_
  rintro t ⟨hlen, hwrite, hitems, htrace⟩
  have hasked : Asked s (greeting hasAuth) t := ⟨[resp], htrace⟩
  rw [getD_two hlen] at hitems htrace
  split
  · exact hasked
  · next hversion =>
    have hversion : resp.getD 0 0 = 5 := not_not.mp hversion
    rw [hversion] at hitems htrace
    split
    · next hmethod => exact ⟨.inl hmethod, hwrite, hitems, htrace⟩
    · split
      · next hmethod =>
        split
        · next hauth => exact ⟨.inr ⟨hmethod, hauth⟩, hwrite, hitems, htrace⟩
        · exact hasked
      · split
        · exact hasked
        · exact hasked

theorem triple_authenticate (os : ProxyOs) (user pass : String) (s : Exchange) :
    Prog.Triple (· = s) (authenticate os user pass)
      (fun _ t => ∃ v, (asBytes user).length ≤ 255 ∧ (asBytes pass).length ≤ 255 ∧
        os.write (credentials user pass) = .ok () ∧
        s.inbound.items = [v, 0] ++ t.inbound.items ∧
        t.trace = s.trace ++ [.wrote (credentials user pass), .read [v, 0]])
      fun _ t => (t = s ∧ (255 < (asBytes user).length ∨ 255 < (asBytes pass).length)) ∨
        Asked s (credentials user pass) t := by
  unfold authenticate
  split
  · next hlong => exact Prog.Triple.fail fun _ h => .inl ⟨h, .inl hlong⟩
  · next huser =>
    split
    · next hlong => exact Prog.Triple.fail fun _ h => .inl ⟨h, .inr hlong⟩
    · next hpass =>
      refine Prog.Triple.bind ((triple_ask s).weakenError fun _ _ => .inr) fun resp => ?_
      rintro t ⟨hlen, hwrite, hitems, htrace⟩
      have hasked : Asked s (credentials user pass) t := ⟨[resp], htrace⟩
      rw [getD_two hlen] at hitems htrace
      split
      · exact .inr hasked
      · next hstatus =>
        have hstatus : resp.getD 1 0 = 0 := not_not.mp hstatus
        rw [hstatus] at hitems htrace
        exact ⟨_, Nat.le_of_not_lt huser, Nat.le_of_not_lt hpass, hwrite, hitems, htrace⟩

/-- Only reads, that took `bytes`. -/
def Drained (s : Exchange) (bytes : List UInt8) (t : Exchange) : Prop :=
  s.inbound.items = bytes ++ t.inbound.items ∧
    ∃ replies : List (List UInt8), replies.flatten = bytes ∧
      t.trace = s.trace ++ replies.map .read

def OnlyRead (s t : Exchange) : Prop :=
  ∃ replies : List (List UInt8), t.trace = s.trace ++ replies.map .read

theorem OnlyRead.refl (s : Exchange) : OnlyRead s s := ⟨[], (List.append_nil _).symm⟩

theorem Drained.onlyRead {s t : Exchange} {bytes : List UInt8} (h : Drained s bytes t) :
    OnlyRead s t := by
  obtain ⟨_, replies, _, htrace⟩ := h
  exact ⟨replies, htrace⟩

theorem Drained.trans {s t u : Exchange} {front back : List UInt8} (h₁ : Drained s front t)
    (h₂ : Drained t back u) : Drained s (front ++ back) u := by
  obtain ⟨hitems₁, replies₁, hflat₁, htrace₁⟩ := h₁
  obtain ⟨hitems₂, replies₂, hflat₂, htrace₂⟩ := h₂
  refine ⟨?_, replies₁ ++ replies₂, ?_, ?_⟩
  · rw [hitems₁, hitems₂, List.append_assoc]
  · rw [List.flatten_append, hflat₁, hflat₂]
  · rw [htrace₂, htrace₁, List.map_append, List.append_assoc]

theorem triple_drain {n : Nat} (s : Exchange) {E : Exchange → Prop} (hE : E s) :
    Prog.Triple (· = s) (readExact n)
      (fun bytes t => bytes.length = n ∧ Drained s bytes t) fun _ => E := by
  refine (triple_readExact s hE).weaken (fun _ h => h) ?_
  rintro bytes t ⟨hlen, hitems, htrace⟩
  exact ⟨hlen, hitems, [bytes], by simp, htrace⟩

theorem triple_skipAddr (atyp : UInt8) (s : Exchange) :
    Prog.Triple (· = s) (skipAddr atyp)
      (fun _ t => ∃ bytes, Bound (atyp :: bytes) ∧ Drained s bytes t) fun _ => OnlyRead s := by
  unfold skipAddr
  split
  · next h =>
    refine (triple_drain s (OnlyRead.refl s)).bind fun bytes => Prog.Triple.pure ?_
    rintro t ⟨hlen, hdrained⟩
    exact ⟨bytes, h ▸ .ipv4 hlen, hdrained⟩
  · split
    · next h =>
      refine (triple_drain s (OnlyRead.refl s)).bind fun bytes => Prog.Triple.pure ?_
      rintro t ⟨hlen, hdrained⟩
      exact ⟨bytes, h ▸ .ipv6 hlen, hdrained⟩
    · split
      · next h =>
        refine (triple_drain s (OnlyRead.refl s)).bind fun len => ?_
        rintro t ⟨hlen, hdrained⟩
        obtain ⟨n, rfl⟩ := List.length_eq_one_iff.mp hlen
        refine (triple_drain t hdrained.onlyRead).bind (fun bytes => Prog.Triple.pure ?_) t rfl
        rintro u ⟨hrest, hdrained'⟩
        exact ⟨[n] ++ bytes, h ▸ .domain hrest, hdrained.trans hdrained'⟩
      · exact Prog.Triple.fail fun _ h => h ▸ OnlyRead.refl s

theorem asked_of_onlyRead {s t u : Exchange} {message : List UInt8} (h : Asked s message t)
    (h' : OnlyRead t u) : Asked s message u := by
  obtain ⟨replies, htrace⟩ := h
  obtain ⟨replies', htrace'⟩ := h'
  refine ⟨replies ++ replies', ?_⟩
  rw [htrace', htrace, List.map_append, List.append_assoc]
  rfl

theorem triple_sendConnectRequest {os : ProxyOs} {target : ProxyTarget} {dest : List UInt8}
    (hdest : destination target = .ok dest) (s : Exchange) :
    Prog.Triple (· = s) (sendConnectRequest os target)
      (fun _ t => os.write (connectMessage dest) = .ok () ∧
        ∃ r bound, ∃ replies : List (List UInt8), Bound bound ∧ s.inbound.items = [5, 0, r] ++ bound ++ t.inbound.items ∧
          t.trace = s.trace ++ .wrote (connectMessage dest) :: replies.map .read ∧
          replies.flatten = [5, 0, r] ++ bound)
      fun _ => Asked s (connectMessage dest) := by
  unfold sendConnectRequest
  rw [hdest]
  have hpure : Prog.Triple (· = s) (Prog.ofExcept (.ok dest)) (fun d t => d = dest ∧ t = s)
      fun (_ : AnyError) => Asked s (connectMessage dest) := Prog.Triple.pure fun _ h => ⟨rfl, h⟩
  refine hpure.bind fun d => ?_
  rintro start ⟨hd, hstart⟩
  rw [hd]
  refine Prog.Triple.bind (triple_ask s) (fun hdr => ?_) start hstart
  rintro t ⟨hlen, hwrite, hitems, htrace⟩
  have hasked : Asked s (connectMessage dest) t := ⟨[hdr], htrace⟩
  split
  · exact hasked
  · next hversion =>
    split
    · exact hasked
    · next hrep =>
      have hhdr : hdr = [5, 0, hdr.getD 2 0, hdr.getD 3 0] := by
        have hversion : hdr.getD 0 0 = 5 := not_not.mp hversion
        have hrep : hdr.getD 1 0 = 0 := not_not.mp hrep
        have hbytes := getD_four hlen
        rw [hversion, hrep] at hbytes
        exact hbytes
      have hskip := triple_context "SOCKS5: skip BND address"
        ((triple_skipAddr (hdr.getD 3 0) t).weakenError fun _ _ => asked_of_onlyRead hasked)
      refine hskip.weaken (fun _ h => h) ?_ t rfl
      rintro _ u ⟨bytes, hbound, hdrained, replies, hflat, hreads⟩
      refine ⟨hwrite, hdr.getD 2 0, hdr.getD 3 0 :: bytes, hdr :: replies, hbound, ?_, ?_, ?_⟩
      · rw [hitems, hdrained, hhdr]
        simp
      · rw [hreads, htrace, List.append_assoc]
        rfl
      · rw [List.flatten_cons, hflat, hhdr]
        simp

theorem destination_of_host {target : ProxyTarget}
    (hhost : ∀ host port, target = .domain host port → (asBytes host).length ≤ 255) :
    ∃ dest, destination target = .ok dest := by
  rcases target with ⟨host, port⟩ | ⟨addr | addr, port⟩
  · exact ⟨_, if_neg (Nat.not_lt.mpr (hhost host port rfl))⟩
  · exact ⟨_, rfl⟩
  · exact ⟨_, rfl⟩

theorem negotiateMethod_of_append {os : ProxyOs} {hasAuth : Bool} {method : UInt8}
    {rest : List UInt8} {s : Exchange} (hwrite : os.write (greeting hasAuth) = .ok ())
    (hmethod : method = 0 ∨ method = 2 ∧ hasAuth = true)
    (hitems : s.inbound.items = [5, method] ++ rest) :
    ∃ t, negotiateMethod os hasAuth s = (.ok method, t) ∧ t.inbound.items = rest := by
  obtain ⟨t, hask, hrest⟩ := ask_of_append hwrite hitems
  refine ⟨t, ?_, hrest⟩
  refine (Prog.bind_of_ok hask).trans ?_
  rcases hmethod with rfl | ⟨rfl, rfl⟩
  · rfl
  · rfl

theorem authenticate_of_append {os : ProxyOs} {user pass : String} {v : UInt8}
    {rest : List UInt8} {s : Exchange} (huser : (asBytes user).length ≤ 255)
    (hpass : (asBytes pass).length ≤ 255) (hwrite : os.write (credentials user pass) = .ok ())
    (hitems : s.inbound.items = [v, 0] ++ rest) :
    ∃ t, authenticate os user pass s = (.ok (), t) ∧ t.inbound.items = rest := by
  obtain ⟨t, hask, hrest⟩ := ask_of_append hwrite hitems
  refine ⟨t, ?_, hrest⟩
  unfold authenticate
  rw [if_neg (Nat.not_lt.mpr huser), if_neg (Nat.not_lt.mpr hpass)]
  exact Prog.bind_of_ok hask

theorem skipAddr_of_bound {atyp : UInt8} {bytes rest : List UInt8} {s : Exchange}
    (hbound : Bound (atyp :: bytes)) (hitems : s.inbound.items = bytes ++ rest) :
    ∃ t, skipAddr atyp s = (.ok (), t) ∧ t.inbound.items = rest := by
  cases hbound with
  | ipv4 h =>
    obtain ⟨inbound, hread, hrest⟩ := readExact_of_append hitems
    rw [h] at hread
    exact ⟨_, Prog.bind_of_ok hread, hrest⟩
  | ipv6 h =>
    obtain ⟨inbound, hread, hrest⟩ := readExact_of_append hitems
    rw [h] at hread
    exact ⟨_, Prog.bind_of_ok hread, hrest⟩
  | @domain n bytes h =>
    have hlen : s.inbound.items = [n] ++ (bytes ++ rest) := hitems
    obtain ⟨inbound, hread, hrest⟩ := readExact_of_append hlen
    obtain ⟨inbound', hread', hrest'⟩ :=
      readExact_of_append (s := ⟨inbound, s.trace ++ [.read [n]]⟩) hrest
    rw [h] at hread'
    exact ⟨_, (Prog.bind_of_ok hread).trans (Prog.bind_of_ok hread'), hrest'⟩

theorem sendConnectRequest_of_append {os : ProxyOs} {target : ProxyTarget} {r : UInt8}
    {dest bound rest : List UInt8} {s : Exchange} (hdest : destination target = .ok dest)
    (hwrite : os.write (connectMessage dest) = .ok ()) (hbound : Bound bound)
    (hitems : s.inbound.items = [5, 0, r] ++ bound ++ rest) :
    ∃ t, sendConnectRequest os target s = (.ok (), t) ∧ t.inbound.items = rest := by
  obtain ⟨atyp, bytes, rfl⟩ : ∃ atyp bytes, bound = atyp :: bytes := by
    cases hbound with
    | ipv4 h => exact ⟨_, _, rfl⟩
    | ipv6 h => exact ⟨_, _, rfl⟩
    | domain h => exact ⟨_, _, rfl⟩
  have hheader : s.inbound.items = [5, 0, r, atyp] ++ (bytes ++ rest) := by simpa using hitems
  obtain ⟨t, hask, hafter⟩ := ask_of_append hwrite hheader
  obtain ⟨u, hskip, hrest⟩ := skipAddr_of_bound hbound hafter
  refine ⟨u, ?_, hrest⟩
  unfold sendConnectRequest
  rw [hdest]
  exact (Prog.bind_of_ok hask).trans (context_eq_ok.mpr hskip)

theorem written_asked (trace : List ExchangeEvent) (message : List UInt8)
    (replies : List (List UInt8)) :
    written (trace ++ .wrote message :: replies.map .read) = written trace ++ [message] := by
  have hreads : (replies.map ExchangeEvent.read).filterMap wrote? = [] := by
    rw [List.filterMap_map]
    exact List.filterMap_eq_nil_iff.mpr fun _ _ => rfl
  rw [written, List.filterMap_append, List.filterMap_cons, hreads]
  rfl

theorem received_asked (trace : List ExchangeEvent) (message : List UInt8)
    (replies : List (List UInt8)) :
    received (trace ++ .wrote message :: replies.map .read) = received trace ++ replies.flatten := by
  rw [received, List.flatMap_append, List.flatMap_cons, List.flatMap_map]
  exact congrArg (received trace ++ ·) List.flatMap_id

end Socks5

namespace Socks5Connector

open Socks5 Dialogue

variable {os : ProxyOs} {connector : Socks5Connector}

theorem triple_login (inbound : Source UInt8 IoError) (request : List UInt8) :
    Prog.Triple (· = ⟨inbound, []⟩) (login os connector)
      (fun _ t => ∃ reply messages, Login connector.auth reply messages ∧
        (∀ m ∈ greeting connector.auth.isSome :: messages, os.write m = .ok ()) ∧
        inbound.items = reply ++ t.inbound.items ∧
        written t.trace = greeting connector.auth.isSome :: messages ∧
        received t.trace = reply ∧ InOrder connector.auth request t.trace ∧
        Permitted connector.auth request t.trace request)
      fun _ t => InOrder connector.auth request t.trace := by
  have hgreeted : ∀ t : Exchange, Asked ⟨inbound, []⟩ (greeting connector.auth.isSome) t →
      InOrder connector.auth request t.trace :=
    fun t => inOrder_nil.asked (s := ⟨inbound, []⟩) .greeting
  refine Prog.Triple.bind ((triple_negotiateMethod ⟨inbound, []⟩).weakenError fun _ => hgreeted)
    fun method => ?_
  rintro t ⟨hmethod, hwrite, hitems, htrace⟩
  have horder := hgreeted t ⟨[[5, method]], htrace⟩
  rw [List.nil_append] at htrace
  rcases hmethod with rfl | ⟨rfl, hauth⟩
  · refine ⟨[5, 0], [], .noAuth, ?_, hitems, ?_, ?_, horder, ?_⟩
    · simpa using hwrite
    · rw [htrace]
      rfl
    · rw [htrace]
      rfl
    · rw [htrace]
      exact .afterNoAuth
  · obtain ⟨⟨user, pass⟩, hauth⟩ := Option.isSome_iff_exists.mp hauth
    have hcredentials : Permitted connector.auth request t.trace (credentials user pass) := by
      rw [htrace]
      exact .credentials hauth
    obtain ⟨server, auth⟩ := connector
    change auth = some (user, pass) at hauth
    subst hauth
    have hrun := triple_authenticate os user pass t
    refine (hrun.weakenError ?_).weaken (fun _ h => h) ?_ t rfl
    · rintro _ u (⟨rfl, _⟩ | hasked)
      · exact horder
      · exact horder.asked hcredentials hasked
    · rintro _ u ⟨v, huser, hpass, hwrite', hitems', htrace'⟩
      have horder' := horder.asked hcredentials ⟨[[v, 0]], htrace'⟩
      rw [htrace] at htrace'
      refine ⟨[5, 2, v, 0], [credentials user pass], .userPass rfl huser hpass, ?_, ?_, ?_, ?_,
        horder', ?_⟩
      · simpa using ⟨hwrite, hwrite'⟩
      · rw [hitems, hitems']
        rfl
      · rw [htrace']
        rfl
      · rw [htrace']
        rfl
      · rw [htrace']
        exact .afterLogin rfl

theorem triple_handshake (os : ProxyOs) (connector : Socks5Connector) {target : ProxyTarget}
    {dest : List UInt8}
    (hdest : destination target = .ok dest) (inbound : Source UInt8 IoError) :
    Prog.Triple (· = ⟨inbound, []⟩) (handshake os connector target)
      (fun stream t => ∃ reply messages,
        Handshake connector.auth (connectMessage dest) reply messages ∧
        (∀ m ∈ messages, os.write m = .ok ()) ∧ inbound.items = reply ++ stream.inner.items ∧
        stream.buffered.remaining = [] ∧ written t.trace = messages ∧ received t.trace = reply ∧
        InOrder connector.auth (connectMessage dest) t.trace)
      fun _ t => InOrder connector.auth (connectMessage dest) t.trace := by
  refine Prog.Triple.bind (triple_login inbound (connectMessage dest)) fun _ => ?_
  rintro t ⟨reply, messages, hlogin, hwrite, hitems, hwritten, hreceived, horder, hpermitted⟩
  refine Prog.Triple.bind ((triple_sendConnectRequest hdest t).weakenError fun _ u =>
    horder.asked hpermitted) (fun _ => ?_) t rfl
  rintro u ⟨hrequest, r, bound, replies, hbound, hrest, htrace, hreplies⟩
  refine ⟨reply ++ ([5, 0, r] ++ bound), _, .mk hlogin hbound, ?_, ?_, rfl, ?_, ?_,
    horder.asked hpermitted ⟨replies, htrace⟩⟩
  · intro m hm
    rcases List.mem_append.mp hm with hm | hm
    · exact hwrite m hm
    · rw [List.mem_singleton.mp hm]
      exact hrequest
  · rw [hitems, hrest, List.append_assoc, List.append_assoc]
    rfl
  · rw [htrace, written_asked, hwritten]
  · rw [htrace, received_asked, hreceived, hreplies]

theorem handshake_of_append {target : ProxyTarget} {dest reply rest : List UInt8}
    {messages : List (List UInt8)} {inbound : Source UInt8 IoError}
    (hdest : destination target = .ok dest)
    (hhandshake : Handshake connector.auth (connectMessage dest) reply messages)
    (hwrite : ∀ m ∈ messages, os.write m = .ok ()) (hitems : inbound.items = reply ++ rest) :
    ∃ stream t, handshake os connector target ⟨inbound, []⟩ = (.ok stream, t) := by
  obtain @⟨login, messages, r, bound, hlogin, hbound⟩ := hhandshake
  have hlogged : ∃ t, Socks5Connector.login os connector ⟨inbound, []⟩ = (.ok (), t) ∧
      t.inbound.items = [5, 0, r] ++ bound ++ rest := by
    have hgreeting := hwrite (greeting connector.auth.isSome) (by simp)
    cases hlogin with
    | noAuth =>
      obtain ⟨t, hmethod, hrest⟩ := negotiateMethod_of_append hgreeting (.inl rfl)
        (s := ⟨inbound, []⟩) (hitems.trans (List.append_assoc _ _ _))
      exact ⟨t, Prog.bind_of_ok hmethod, hrest⟩
    | @userPass user pass v hauth huser hpass =>
      obtain ⟨t, hmethod, hafter⟩ := negotiateMethod_of_append hgreeting
        (.inr ⟨rfl, Option.isSome_iff_exists.mpr ⟨_, hauth⟩⟩) (s := ⟨inbound, []⟩) hitems
      obtain ⟨u, hauthenticate, hrest⟩ := authenticate_of_append huser hpass
        (hwrite (credentials user pass) (by simp)) hafter
      refine ⟨u, (Prog.bind_of_ok hmethod).trans ?_, hrest⟩
      rw [if_pos (show (2 : UInt8) = methodUserPass from rfl), hauth]
      exact hauthenticate
  obtain ⟨t, hlogin, hafter⟩ := hlogged
  obtain ⟨u, hconnect, hrest⟩ := sendConnectRequest_of_append hdest
    (hwrite (connectMessage dest) (by simp)) hbound hafter
  exact ⟨_, u, (Prog.bind_of_ok hlogin).trans (Prog.bind_of_ok hconnect)⟩

/-- `connect` succeeds exactly on the replies of a handshake, takes exactly
these bytes, and writes each message only after the reply before it was accepted. -/
theorem connect_handshake (os : ProxyOs) (connector : Socks5Connector) {target : ProxyTarget}
    {inbound : Source UInt8 IoError} (hconnect : os.connect connector.server = .ok inbound)
    (hhost : ∀ host port, target = .domain host port → (asBytes host).length ≤ 255) :
    ∃ dest, destination target = .ok dest ∧
      ((∃ stream trace, connect os connector target = (.ok stream, trace)) ↔
        ∃ reply messages rest, Handshake connector.auth (connectMessage dest) reply messages ∧
          inbound.items = reply ++ rest ∧ ∀ m ∈ messages, os.write m = .ok ()) ∧
      (∀ stream trace, connect os connector target = (.ok stream, trace) → ∃ reply messages,
        Handshake connector.auth (connectMessage dest) reply messages ∧
        inbound.items = reply ++ stream.inner.items ∧ stream.buffered.remaining = [] ∧
        written trace = messages ∧ received trace = reply) ∧
      InOrder connector.auth (connectMessage dest) (connect os connector target).2 := by
  obtain ⟨dest, hdest⟩ := destination_of_host hhost
  have hrun := triple_handshake os connector hdest inbound
  have heq : connect os connector target = ((handshake os connector target ⟨inbound, []⟩).1,
      (handshake os connector target ⟨inbound, []⟩).2.trace) := by
    unfold connect
    rw [hconnect]
  have hok : ∀ stream trace, connect os connector target = (.ok stream, trace) → ∃ t,
      handshake os connector target ⟨inbound, []⟩ = (.ok stream, t) ∧ t.trace = trace := by
    intro stream trace h
    rw [heq, Prod.mk.injEq] at h
    exact ⟨_, Prod.ext h.1 rfl, h.2⟩
  refine ⟨dest, hdest, ⟨?_, ?_⟩, ?_, ?_⟩
  · rintro ⟨stream, trace, h⟩
    obtain ⟨t, h, _⟩ := hok stream trace h
    obtain ⟨reply, messages, hhandshake, hwrite, hitems, _⟩ := hrun.ok rfl h
    exact ⟨reply, messages, _, hhandshake, hitems, hwrite⟩
  · rintro ⟨reply, messages, rest, hhandshake, hitems, hwrite⟩
    obtain ⟨stream, t, h⟩ := handshake_of_append hdest hhandshake hwrite hitems
    refine ⟨stream, t.trace, ?_⟩
    rw [heq, h]
  · intro stream trace h
    obtain ⟨t, hrun', rfl⟩ := hok stream trace h
    obtain ⟨reply, messages, hhandshake, _, hitems, hbuffered, hwritten, hreceived, _⟩ :=
      hrun.ok rfl hrun'
    exact ⟨reply, messages, hhandshake, hitems, hbuffered, hwritten, hreceived⟩
  · rw [heq]
    exact hrun.final (R := fun t => InOrder connector.auth (connectMessage dest) t.trace) rfl
      (fun _ _ ⟨_, _, _, _, _, _, _, _, horder⟩ => horder) fun _ _ horder => horder

/-- A server that asks for the password and sends tunnel data with its last reply. -/
def passwordServer : ProxyOs where
  connect _ := .ok ⟨[[5], [2, 1, 0, 5, 0], [0, 3, 1, 120, 0, 80, 42]], none⟩
  write _ := .ok ()

theorem connect_handshake_password :
    (∃ stream trace, connect passwordServer ⟨"proxy:1080", some ("user", "pass")⟩
      (.domain "a.test" 80) = (.ok stream, trace)) ∧
    ∃ dest, destination (.domain "a.test" 80) = .ok dest ∧
      InOrder (some ("user", "pass")) (connectMessage dest)
        (connect passwordServer ⟨"proxy:1080", some ("user", "pass")⟩ (.domain "a.test" 80)).2 := by
  have hhost : ∀ host port, ProxyTarget.domain "a.test" 80 = .domain host port →
      (asBytes host).length ≤ 255 := by
    rintro host port h
    cases h
    decide
  obtain ⟨dest, hdest, hiff, _, horder⟩ :=
    connect_handshake passwordServer ⟨"proxy:1080", some ("user", "pass")⟩ rfl hhost
  have hlogin : Login (some ("user", "pass")) [5, 2, 1, 0] [credentials "user" "pass"] :=
    .userPass rfl (by decide) (by decide)
  have hbound : Bound [3, 1, 120, 0, 80] := .domain rfl
  exact ⟨hiff.mpr ⟨[5, 2, 1, 0] ++ ([5, 0, 0] ++ [3, 1, 120, 0, 80]), _, [42],
    .mk hlogin hbound, rfl, fun _ _ => rfl⟩, dest, hdest, horder⟩

end Socks5Connector

end Scproxy
