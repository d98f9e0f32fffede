import Scproxy.Buffered
import Scproxy.Socks5

namespace Scproxy

/-- `str::splitn`. -/
def splitn (c : Char) : Nat → List Char → List String
  | 0, _ => []
  | 1, cs => [String.ofList cs]
  | n + 2, cs =>
    if c ∈ cs then String.ofList (cs.takeWhile (· != c)) :: splitn c (n + 1) (cs.dropWhile (· != c)).tail
    else [String.ofList cs]

/-- `str::trim_end_matches` for a set of characters. -/
def trimEndMatches (cs : List Char) (s : String) : String :=
  String.ofList (s.toList.reverse.dropWhile (· ∈ cs)).reverse

def startsWith (head s : String) : Bool := head.toList.isPrefixOf s.toList

def ioContext {α : Type} (message : String) : Except IoError α → Except AnyError α
  | .ok a => .ok a
  | .error error => .error [.text message, .io error]

structure HttpConnector where
  server : String
  auth : Option (String × String)

namespace Http

/-- A reader over a connection, with the capacity of `BufReader::new`. -/
def bufReader (stream : Source UInt8 IoError) : Reader UInt8 IoError :=
  ⟨8192, by decide, [], stream⟩

/-- `AsyncBufReadExt::read_line`. -/
def readLine (r : Reader UInt8 IoError) : Except IoError (String × Reader UInt8 IoError) :=
  match r.readUntil 10 with
  | .error error => .error error
  | .ok (bytes, t) =>
    match fromUtf8 bytes with
    | some line => .ok (line, t)
    | none => .error (.simple .invalidData)

def trimLine (line : String) : String := trimEndMatches ['\r', '\n'] line

/-- The status code of a status line. `debug` is the format `{:?}`. -/
def parseStatusCode (debug : String → String) (statusLine : String) : Except ErrorChain Nat := do
  let parts := splitn ' ' 3 statusLine.toList
  let version := parts.head?.getD ""
  if !startsWith "HTTP/" version then
    .error ["HTTP CONNECT: expected HTTP response, got: " ++ debug statusLine]
  else
    let codeStr ← optionContext ("HTTP CONNECT: malformed status line: " ++ debug statusLine)
      parts.tail.head?
    withContext ("HTTP CONNECT: invalid status code " ++ debug codeStr)
      (rootCause (parseUnsigned 0xFFFF codeStr))

theorem readLine_spec {r t : Reader UInt8 IoError} {line : String} (h : readLine r = .ok (line, t)) :
    asBytes line = (cut 10 r.remaining).1 ∧ t.remaining = (cut 10 r.remaining).2 ∧
      t.source.ending = r.source.ending ∧ (10 ∈ r.remaining ∨ r.source.ending = none) := by
  unfold readLine at h
  rcases r.readUntil_spec 10 with ⟨u, hread, hrest, hend, hor⟩ | ⟨e, hread, _⟩
  · rw [hread] at h
    dsimp only at h
    split at h
    next s hs =>
      cases h
      exact ⟨fromUtf8_eq_some.mp hs, hrest, hend, hor⟩
    next => cases h
  · rw [hread] at h
    cases h

theorem readLine_of_utf8 {r : Reader UInt8 IoError} {line : String}
    (hend : 10 ∈ r.remaining ∨ r.source.ending = none) (hline : asBytes line = (cut 10 r.remaining).1) :
    ∃ t, readLine r = .ok (line, t) ∧ t.remaining = (cut 10 r.remaining).2 ∧
      t.source.ending = r.source.ending := by
  unfold readLine
  rcases r.readUntil_spec 10 with ⟨t, hread, hrest, hending, _⟩ | ⟨e, _, hnot, hbroken⟩
  · refine ⟨t, ?_, hrest, hending⟩
    rw [hread, ← hline]
    simp only [fromUtf8_asBytes]
  · rcases hend with hmem | hnone
    · exact absurd hmem hnot
    · rw [hnone] at hbroken
      cases hbroken

theorem readLine_lt {r t : Reader UInt8 IoError} {line : String} (h : readLine r = .ok (line, t))
    (hline : trimLine line ≠ "") : t.remaining.length < r.remaining.length := by
  obtain ⟨hbytes, hrest, _⟩ := readLine_spec h
  have hne : asBytes line ≠ [] := by
    intro hnil
    have hempty : line = "" := asBytes_injective hnil
    rw [hempty] at hline
    exact hline rfl
  have hpos := List.length_pos_of_ne_nil hne
  have hlen := congrArg List.length (cut_append 10 r.remaining)
  rw [List.length_append, ← hbytes, ← hrest] at hlen
  omega

/-- The header lines up to the first blank one. -/
def drainHeaders (r : Reader UInt8 IoError) : Except AnyError (Reader UInt8 IoError) :=
  match _h : readLine r with
  | .error error => .error [.text "HTTP CONNECT: read header line", .io error]
  | .ok (line, t) => if _hline : trimLine line = "" then .ok t else drainHeaders t
termination_by r.remaining.length
decreasing_by exact readLine_lt _h _hline

def doConnect (os : ProxyOs) (debug : String → String) (stream : Source UInt8 IoError)
    (target : ProxyTarget) (auth : Option (String × String)) : Except AnyError ProxyStream := do
  ioContext "HTTP CONNECT: write request" (os.write (asBytes (connectRequest target auth)))
  let (statusLine, reader) ← ioContext "HTTP CONNECT: read status line" (readLine (bufReader stream))
  let statusCode ← (parseStatusCode debug (trimLine statusLine)).mapError (·.map Cause.text)
  if statusCode ≠ 200 then
    .error [.text ("HTTP CONNECT to " ++ target.fmt ++ " failed with status " ++ toString statusCode)]
  else
    let reader ← drainHeaders reader
    .ok (ProxyStream.new reader.source reader.buffer)

end Http

def HttpConnector.connect (os : ProxyOs) (debug : String → String) (connector : HttpConnector)
    (target : ProxyTarget) : Except AnyError ProxyStream :=
  match os.connect connector.server with
  | .error error =>
    .error [.text ("TCP connect to HTTP proxy " ++ connector.server), .io error]
  | .ok stream => Http.doConnect os debug stream target connector.auth

end Scproxy
