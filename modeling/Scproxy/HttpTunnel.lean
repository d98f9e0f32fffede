import Mathlib.Data.List.TakeWhile
import Scproxy.HttpResponse

namespace Scproxy

namespace Http

/-- A line of nothing but CR and LF. -/
def blank (line : List UInt8) : Bool := line.all fun byte => byte == 13 || byte == 10

theorem trimLine_eq_empty {line : String} : trimLine line = "" ↔ blank (asBytes line) := by
  have hchars : trimLine line = "" ↔ ∀ c ∈ line.toList, c = '\r' ∨ c = '\n' := by
    rw [trimLine, trimEndMatches, ← String.toList_inj, String.toList_ofList]
    simp [List.dropWhile_eq_nil_iff]
  rw [hchars, blank, List.all_eq_true, asBytes_eq_flatMap]
  constructor
  · intro h byte hbyte
    obtain ⟨c, hc, hmem⟩ := List.mem_flatMap.mp hbyte
    rcases h c hc with rfl | rfl
    · rw [List.mem_singleton.mp hmem]
      rfl
    · rw [List.mem_singleton.mp hmem]
      rfl
  · intro h c hc
    obtain ⟨byte, hbyte⟩ : ∃ byte, byte ∈ String.utf8EncodeChar c :=
      List.exists_mem_of_ne_nil _ (String.utf8EncodeChar_ne_nil)
    have hor := h byte (List.mem_flatMap.mpr ⟨c, hc, hbyte⟩)
    rw [Bool.or_eq_true, beq_iff_eq, beq_iff_eq] at hor
    rcases hor with rfl | rfl
    · exact .inl (Char.toNat_inj.mp (mem_utf8EncodeChar_ascii (by decide) hbyte))
    · exact .inr (Char.toNat_inj.mp (mem_utf8EncodeChar_ascii (by decide) hbyte))

/-- What follows the first blank line. -/
def afterBlank (lines : List (List UInt8)) : List UInt8 :=
  (lines.dropWhile (!blank ·)).tail.flatten

theorem afterBlank_cons_of_blank {line : List UInt8} (h : blank line = true)
    (rest : List (List UInt8)) : afterBlank (line :: rest) = rest.flatten := by
  rw [afterBlank, List.dropWhile_cons_of_neg (by simp [h]), List.tail_cons]

theorem afterBlank_cons_of_not_blank {line : List UInt8} (h : blank line = false)
    (rest : List (List UInt8)) : afterBlank (line :: rest) = afterBlank rest := by
  rw [afterBlank, List.dropWhile_cons_of_pos (by simp [h]), afterBlank]

theorem remaining_ne_nil {r : Reader UInt8 IoError} {line : String}
    (hbytes : asBytes line = (cut 10 r.remaining).1) (hline : trimLine line ≠ "") :
    r.remaining ≠ [] := by
  intro hnil
  rw [hnil] at hbytes
  have hempty : line = "" := asBytes_injective hbytes
  rw [hempty] at hline
  exact hline rfl

theorem drainHeaders_remaining {r t : Reader UInt8 IoError} (h : drainHeaders r = .ok t) :
    t.remaining = afterBlank (lines 10 r.remaining) := by
  fun_induction drainHeaders r with
  | case1 r e hread => cases h
  | case2 r line u hread hline =>
    cases h
    obtain ⟨hbytes, hrest, _⟩ := readLine_spec hread
    rw [hrest]
    by_cases hnil : r.remaining = []
    · rw [hnil]
      rfl
    · have hblank := trimLine_eq_empty.mp hline
      rw [hbytes] at hblank
      rw [lines_eq_cut hnil, afterBlank_cons_of_blank hblank, lines_flatten]
  | case3 r line u hread hline ih =>
    obtain ⟨hbytes, hrest, _⟩ := readLine_spec hread
    have hblank : blank (cut 10 r.remaining).1 = false := by
      rw [← hbytes, ← Bool.not_eq_true, ← trimLine_eq_empty]
      exact hline
    rw [ih h, hrest, lines_eq_cut (remaining_ne_nil hbytes hline),
      afterBlank_cons_of_not_blank hblank]

theorem exists_asBytes_of_blank {line : List UInt8} (h : blank line = true) :
    ∃ s, asBytes s = line := by
  induction line with
  | nil => exact ⟨"", rfl⟩
  | cons byte line ih =>
    rw [blank, List.all_cons, Bool.and_eq_true, Bool.or_eq_true, beq_iff_eq, beq_iff_eq] at h
    obtain ⟨s, hs⟩ := ih h.2
    rcases h.1 with rfl | rfl
    · refine ⟨"\r" ++ s, ?_⟩
      rw [asBytes_append, hs]
      rfl
    · refine ⟨"\n" ++ s, ?_⟩
      rw [asBytes_append, hs]
      rfl

/-- The header lines before the first blank line. -/
def headerLines (lines : List (List UInt8)) : List (List UInt8) := lines.takeWhile (!blank ·)

def IsUtf8 (line : List UInt8) : Prop := ∃ s, asBytes s = line

def HasBlankLine (lines : List (List UInt8)) : Prop := ∃ line ∈ lines, blank line = true ∧ 10 ∈ line

theorem drainHeaders_ok_iff (r : Reader UInt8 IoError) :
    (∃ t, drainHeaders r = .ok t) ↔ (∀ line ∈ headerLines (lines 10 r.remaining), IsUtf8 line) ∧
      (r.source.ending = none ∨ HasBlankLine (lines 10 r.remaining)) := by
  fun_induction drainHeaders r with
  | case1 r e hread =>
    refine iff_of_false (by rintro ⟨t, ht⟩; cases ht) ?_
    rintro ⟨hutf8, hend⟩
    have hor : 10 ∈ r.remaining ∨ r.source.ending = none := by
      rcases hend with hnone | ⟨line, hmem, _, hten⟩
      · exact .inr hnone
      · refine .inl ?_
        rw [← lines_flatten 10 r.remaining]
        exact List.mem_flatten.mpr ⟨line, hmem, hten⟩
    have hline : IsUtf8 (cut 10 r.remaining).1 := by
      by_cases hblank : blank (cut 10 r.remaining).1 = true
      · exact exists_asBytes_of_blank hblank
      · have hne : r.remaining ≠ [] := by
          intro hnil
          rw [hnil] at hblank
          exact hblank rfl
        apply hutf8
        rw [lines_eq_cut hne, headerLines, List.takeWhile_cons_of_pos (by simpa using hblank)]
        exact List.mem_cons_self
    obtain ⟨s, hs⟩ := hline
    obtain ⟨t, ht, _⟩ := readLine_of_utf8 hor hs
    cases hread.symm.trans ht
  | case2 r line u hread hline =>
    refine iff_of_true ⟨u, rfl⟩ ?_
    obtain ⟨hbytes, hrest, _, hor⟩ := readLine_spec hread
    have hblank := trimLine_eq_empty.mp hline
    rw [hbytes] at hblank
    by_cases hnil : r.remaining = []
    · rw [hnil] at hor ⊢
      refine ⟨by simp [headerLines, lines], .inl (hor.resolve_left List.not_mem_nil)⟩
    · rw [lines_eq_cut hnil]
      refine ⟨?_, ?_⟩
      · rw [headerLines, List.takeWhile_cons_of_neg (by simpa using hblank)]
        simp
      · rcases hor with hmem | hnone
        · refine .inr ⟨(cut 10 r.remaining).1, List.mem_cons_self, hblank, ?_⟩
          rcases cut_cases 10 r.remaining with ⟨body, hbody, _⟩ | ⟨hnot, _⟩
          · rw [hbody]
            simp
          · exact absurd hmem hnot
        · exact .inl hnone
  | case3 r line u hread hline ih =>
    obtain ⟨hbytes, hrest, hending, _⟩ := readLine_spec hread
    have hblank : blank (cut 10 r.remaining).1 = false := by
      rw [← hbytes, ← Bool.not_eq_true, ← trimLine_eq_empty]
      exact hline
    have hutf8 : IsUtf8 (cut 10 r.remaining).1 := ⟨line, hbytes⟩
    rw [ih, hrest, hending, lines_eq_cut (remaining_ne_nil hbytes hline), headerLines, headerLines,
      List.takeWhile_cons_of_pos (by simpa using hblank), List.forall_mem_cons,
      and_iff_right hutf8]
    simp only [HasBlankLine, List.exists_mem_cons_iff, hblank, Bool.false_eq_true, false_and,
      false_or]

theorem ioContext_eq_ok {α : Type} {message : String} {result : Except IoError α} {a : α} :
    ioContext message result = .ok a ↔ result = .ok a := by
  cases result with
  | ok b => simp [ioContext]
  | error e => simp [ioContext]

theorem mapError_eq_ok {α ε ε' : Type} {f : ε → ε'} {result : Except ε α} {a : α} :
    result.mapError f = .ok a ↔ result = .ok a := by
  cases result with
  | ok b => simp [Except.mapError]
  | error e => simp [Except.mapError]

section

variable {os : ProxyOs} {debug : String → String} {stream : Source UInt8 IoError}
  {target : ProxyTarget} {auth : Option (String × String)} {proxied : ProxyStream}

theorem doConnect_eq_ok : doConnect os debug stream target auth = .ok proxied ↔
    os.write (asBytes (connectRequest target auth)) = .ok () ∧
      ∃ line r t, readLine (bufReader stream) = .ok (line, r) ∧
        parseStatusCode debug (trimLine line) = .ok 200 ∧ drainHeaders r = .ok t ∧
        proxied = ProxyStream.new t.source t.buffer := by
  unfold doConnect
  simp only [bind_eq_ok, ioContext_eq_ok, mapError_eq_ok]
  constructor
  · rintro ⟨_, hwrite, ⟨line, r⟩, hread, code, hcode, h⟩
    dsimp only at hcode h
    split at h
    next => cases h
    next h200 =>
      obtain ⟨t, hdrain, h⟩ := bind_eq_ok.mp h
      cases h
      rw [not_not.mp h200] at hcode
      exact ⟨hwrite, line, r, t, hread, hcode, hdrain, rfl⟩
  · rintro ⟨hwrite, line, r, t, hread, hcode, hdrain, rfl⟩
    refine ⟨(), hwrite, (line, r), hread, 200, hcode, ?_⟩
    rw [if_neg (not_not.mpr rfl)]
    exact bind_eq_ok.mpr ⟨t, hdrain, rfl⟩

theorem remaining_bufReader : (bufReader stream).remaining = stream.items := List.nil_append _

/-- The bytes after the first blank line that follows the status line. -/
def tunnel (bytes : List UInt8) : List UInt8 := afterBlank (lines 10 bytes).tail

theorem doConnect_remaining (h : doConnect os debug stream target auth = .ok proxied) :
    proxied.remaining = tunnel stream.items := by
  obtain ⟨_, line, r, t, hread, _, hdrain, rfl⟩ := doConnect_eq_ok.mp h
  obtain ⟨_, hrest, _⟩ := readLine_spec hread
  have hremaining := drainHeaders_remaining hdrain
  rw [hrest, remaining_bufReader] at hremaining
  rw [tunnel, lines_tail]
  exact hremaining

/-- Reads from the tunnel deliver the bytes after the response head in order. -/
theorem doConnect_tunnel (h : doConnect os debug stream target auth = .ok proxied)
    {calls : List ReadCall} (hcalls : ∀ call ∈ calls, 0 < call.size) :
    ReadCall.delivered (ReadCall.results calls proxied) <+: tunnel stream.items ∧
      ∀ result ∈ ReadCall.results calls proxied, ReadCall.Ended result →
        ReadCall.delivered (ReadCall.results calls proxied) = tunnel stream.items := by
  rw [← doConnect_remaining h]
  exact ⟨ReadCall.delivered_prefix hcalls proxied,
    fun _ hmem hended => ReadCall.delivered_of_ended hcalls proxied hmem hended⟩

/-- A proxy that sends tunnel data together with its response. -/
def eagerProxy : Source UInt8 IoError :=
  ⟨[asBytes "HTTP/1.1 200 OK\r\nA: b\r\n\r\nhel", [], asBytes "lo"], none⟩

/-- A status line with code 200. -/
def IsStatus200 (debug : String → String) (line : List UInt8) : Prop :=
  ∃ s, asBytes s = line ∧ parseStatusCode debug (trimLine s) = .ok 200

theorem doConnect_ok_iff : (∃ proxied, doConnect os debug stream target auth = .ok proxied) ↔
    os.write (asBytes (connectRequest target auth)) = .ok () ∧
      (10 ∈ stream.items ∨ stream.ending = none) ∧ IsStatus200 debug (cut 10 stream.items).1 ∧
      (∀ line ∈ headerLines (lines 10 stream.items).tail, IsUtf8 line) ∧
      (stream.ending = none ∨ HasBlankLine (lines 10 stream.items).tail) := by
  rw [lines_tail]
  constructor
  · rintro ⟨proxied, h⟩
    obtain ⟨hwrite, line, r, t, hread, hcode, hdrain, _⟩ := doConnect_eq_ok.mp h
    obtain ⟨hline, hrest, hending, hor⟩ := readLine_spec hread
    rw [remaining_bufReader] at hline hrest hor
    obtain ⟨hutf8, hend⟩ := (drainHeaders_ok_iff r).mp ⟨t, hdrain⟩
    rw [hrest] at hutf8 hend
    rw [hending] at hend
    exact ⟨hwrite, hor, ⟨line, hline, hcode⟩, hutf8, hend⟩
  · rintro ⟨hwrite, hor, ⟨line, hline, hcode⟩, hutf8, hend⟩
    rw [← remaining_bufReader] at hor hline
    obtain ⟨r, hread, hrest, hending⟩ := readLine_of_utf8 hor hline
    rw [remaining_bufReader] at hrest
    have hdrain : ∃ t, drainHeaders r = .ok t := by
      rw [drainHeaders_ok_iff, hrest, hending]
      exact ⟨hutf8, hend⟩
    obtain ⟨t, hdrain⟩ := hdrain
    exact ⟨_, doConnect_eq_ok.mpr ⟨hwrite, line, r, t, hread, hcode, hdrain, rfl⟩⟩

theorem doConnect_tunnel_eagerProxy :
    tunnel eagerProxy.items = asBytes "hello" ∧ ∃ proxied,
      doConnect ⟨fun _ => .ok eagerProxy, fun _ => .ok ()⟩ id eagerProxy (.domain "a.test" 443) none =
        .ok proxied ∧
      ReadCall.delivered (ReadCall.results [.tryRead 2, .pollRead 8, .tryRead 1] proxied) <+:
        tunnel eagerProxy.items := by
  have hcut : (cut 10 eagerProxy.items).1 = asBytes "HTTP/1.1 200 OK\r\n" := by decide
  have hheaders : headerLines (lines 10 eagerProxy.items).tail = [asBytes "A: b\r\n"] := by decide
  have hconnect : ∃ proxied, doConnect ⟨fun _ => .ok eagerProxy, fun _ => .ok ()⟩ id eagerProxy
      (.domain "a.test" 443) none = .ok proxied := by
    rw [doConnect_ok_iff, hcut, hheaders]
    refine ⟨rfl, .inr rfl, ⟨_, rfl, by decide⟩, ?_, .inl rfl⟩
    intro line hline
    rw [List.mem_singleton.mp hline]
    exact ⟨_, rfl⟩
  obtain ⟨proxied, hproxied⟩ := hconnect
  refine ⟨by decide, proxied, hproxied, (doConnect_tunnel hproxied ?_).1⟩
  simp [ReadCall.size]

/-- A complete response head: a status line with code 200, header lines and a
blank line, each with its LF. -/
def CompleteHead (debug : String → String) (bytes : List UInt8) : Prop :=
  ∃ status, ∃ headers : List (List UInt8), ∃ empty rest, bytes = status ++ (headers.flatten ++ (empty ++ rest)) ∧
    IsLine 10 status ∧ IsStatus200 debug status ∧ (∀ line ∈ headers, IsLine 10 line) ∧
    IsLine 10 empty ∧ blank empty = true

theorem completeHead_iff {bytes : List UInt8} : CompleteHead debug bytes ↔
    IsStatus200 debug (cut 10 bytes).1 ∧ HasBlankLine (lines 10 bytes).tail := by
  constructor
  · rintro ⟨status, headers, empty, rest, rfl, hstatus, hcode, hheaders, hempty, hblank⟩
    have hlines := lines_line (headers.flatten ++ (empty ++ rest)) hstatus
    rw [lines_flatten_append _ hheaders, lines_line _ hempty] at hlines
    obtain ⟨body, rfl, hbody⟩ := hstatus
    rw [hlines, List.append_assoc, List.singleton_append, cut_line _ hbody]
    refine ⟨hcode, empty, ?_, hblank, ?_⟩
    · simp
    · obtain ⟨body, rfl, _⟩ := hempty
      simp
  · rintro ⟨hcode, empty, hmem, hblank, hten⟩
    have hne : bytes ≠ [] := by
      rintro rfl
      simp [lines] at hmem
    obtain ⟨headers, rest, hsplit⟩ := List.append_of_mem hmem
    have hlines : lines 10 bytes = ((cut 10 bytes).1 :: headers) ++ empty :: rest := by
      rw [lines_eq_cut hne, ← lines_tail, hsplit, List.cons_append]
    have hfront : ∀ line ∈ (cut 10 bytes).1 :: headers, IsLine 10 line :=
      fun _ => isLine_of_mem_front hlines
    obtain ⟨hstatus, hheaders⟩ := List.forall_mem_cons.mp hfront
    refine ⟨(cut 10 bytes).1, headers, empty, rest.flatten, ?_, hstatus, hcode, hheaders, ?_, hblank⟩
    · conv_lhs => rw [← lines_flatten 10 bytes, hlines]
      simp
    · rcases isLine_of_lines hlines with hline | ⟨hnot, _⟩
      · exact hline
      · exact absurd hten hnot

/-- The stream is closed before the blank line, after header lines that are all text. -/
def Truncated (debug : String → String) (stream : Source UInt8 IoError) : Prop :=
  stream.ending = none ∧ IsStatus200 debug (cut 10 stream.items).1 ∧
    (∀ line ∈ headerLines (lines 10 stream.items).tail, IsUtf8 line) ∧
    ¬ HasBlankLine (lines 10 stream.items).tail

/-- A tunnel is established without a complete head exactly on a truncated one. -/
theorem doConnect_complete_iff (os : ProxyOs) (debug : String → String)
    (stream : Source UInt8 IoError) (target : ProxyTarget) (auth : Option (String × String)) :
    (∀ proxied, doConnect os debug stream target auth = .ok proxied →
      CompleteHead debug stream.items) ↔
    ¬ (os.write (asBytes (connectRequest target auth)) = .ok () ∧ Truncated debug stream) := by
  rw [← forall_exists_index (p := fun proxied => doConnect os debug stream target auth = .ok proxied)
    (q := fun _ => CompleteHead debug stream.items), doConnect_ok_iff, completeHead_iff]
  constructor
  · rintro h ⟨hwrite, hending, hcode, hutf8, hblank⟩
    exact hblank (h ⟨hwrite, .inr hending, hcode, hutf8, .inl hending⟩).2
  · rintro h ⟨hwrite, _, hcode, hutf8, hend⟩
    refine ⟨hcode, ?_⟩
    by_contra hblank
    exact h ⟨hwrite, hend.resolve_right hblank, hcode, hutf8, hblank⟩

/-- A proxy that closes the connection right after the status line. -/
def closingProxy : Source UInt8 IoError := ⟨[asBytes "HTTP/1.1 200 OK\r\n"], none⟩

theorem doConnect_closingProxy :
    (∃ proxied, doConnect ⟨fun _ => .ok closingProxy, fun _ => .ok ()⟩ id closingProxy
      (.domain "a.test" 443) none = .ok proxied) ∧ ¬ CompleteHead id closingProxy.items := by
  have hcut : cut 10 closingProxy.items = (asBytes "HTTP/1.1 200 OK\r\n", []) := by
    decide
  have htail : (lines 10 closingProxy.items).tail = [] := by
    rw [lines_tail, hcut]
    rfl
  have hcode : IsStatus200 id (cut 10 closingProxy.items).1 := by
    rw [hcut]
    exact ⟨_, rfl, by decide⟩
  rw [doConnect_ok_iff, completeHead_iff, htail]
  refine ⟨⟨rfl, .inr rfl, hcode, ?_, .inl rfl⟩, ?_⟩
  · simp [headerLines]
  · simp [HasBlankLine]

end

end Http

end Scproxy
