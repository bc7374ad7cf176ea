import Ucisdk.Connection
import Ucisdk.Flow.Streams
import Ucisdk.Reply

/-!
# The connection of one request

The client writes its text and a newline, the server reads a line byte by byte
and writes an object and a newline, the client reads until it has a newline.
Every call moves as much as the kernel likes, or is interrupted, and the calls
of both ends come in any order; what arrives is what was sent.
-/

set_option autoImplicit false

namespace Ucisdk.Transport

open Ucisdk.CString Ucisdk.Common Ucisdk.Connection Ucisdk.Reply
open Flow.Streams

section Loops

/-- The size of the client's buffer. -/
def responseSize : ℕ := 4096

/-- What one call of `read` or `write` returns: a number of bytes, or `EINTR`. -/
inductive Io where
  | moved (n : ℕ)
  | interrupted
  deriving DecidableEq

/-- The client: texts that `write_all` has still to write, what `read_response`
has read, or the string that is handed back. -/
inductive Client where
  | writing (texts : List Bytes)
  | reading (response : Bytes)
  | returned (response : Bytes)

/-- The server: what `read_line` has read, a line that is being served, texts
that `write_all` has still to write, or a closed connection. -/
inductive Server where
  | reading (line : Bytes)
  | serving (line : Bytes)
  | writing (line : Bytes) (texts : List Bytes)
  | closed (line : Bytes)

structure State where
  client : Client
  server : Server
  requests : Stream UInt8
  responses : Stream UInt8
  /-- What the calls of `read` in `read_line` brought. -/
  reads : List ReadResult

/-- The calls of `write_all` that have something to write. -/
def writes (texts : List Bytes) : List Bytes := texts.filter (· ≠ [])

/-- The text and, unless it ends in one, a newline. -/
def requestTexts (request : Bytes) : List Bytes :=
  if request.getLast? = some newline then writes [request] else writes [request, [newline]]

/-- An object is followed by a newline; without one nothing is written. -/
def responseTexts (object : Bytes) : List Bytes :=
  if object = [] then [] else writes [object, [newline]]

def clientWrites (texts : List Bytes) : Client :=
  if texts = [] then .reading [] else .writing texts

/-- The head of the loop of `read_response`. -/
def clientReads (response : Bytes) : Client :=
  if response.length + 1 < responseSize then .reading response else .returned response

/-- The head of the loop of `read_line`. -/
def serverReads (line : Bytes) : Server :=
  if line.length + 1 < lineLen then .reading line else .serving line

def serverWrites (line : Bytes) (texts : List Bytes) : Server :=
  if texts = [] then .closed line else .writing line texts

def Client.closed : Client → Bool
  | .returned _ => true
  | _ => false

def Server.isClosed : Server → Bool
  | .closed _ => true
  | _ => false

/-- What `read_line` returned. -/
def Server.line : Server → Option Bytes
  | .reading _ => none
  | .serving line => some line
  | .writing line _ => some line
  | .closed line => some line

end Loops

section Steps

/-- A call of the client returns, a call of the server returns, or the server
has the object for its line. -/
inductive Event where
  | client (io : Io)
  | server (io : Io)
  | answered
  deriving DecidableEq

/-- Everything but an interrupted call. -/
def Event.productive : Event → Bool
  | .client .interrupted => false
  | .server .interrupted => false
  | _ => true

/-- One pass through the loop of `read_response`. A `read` waits for a byte or
the end of the stream. -/
def readResponse (s : State) (response : Bytes) (n : ℕ) : Option State :=
  if n = 0 then
    if s.responses.unread = [] ∧ s.server.isClosed = true then
      some { s with client := .returned response }
    else none
  else if n ≤ responseSize - response.length - 1 ∧ n ≤ s.responses.unread.length then
    let read := response ++ s.responses.unread.take n
    some { s with
      client := if newline ∈ read then .returned read else clientReads read
      responses := s.responses.advance n }
  else none

/-- One pass through the loop of `read_line`. -/
def readByte (s : State) (line : Bytes) (n : ℕ) : Option State :=
  match s.requests.unread with
  | [] =>
    if n = 0 ∧ s.client.closed = true then
      some { s with server := .serving line, reads := s.reads ++ [.closed] }
    else none
  | c :: _ =>
    if n = 1 then
      some { s with
        server := if c = newline then .serving line else serverReads (line ++ [c])
        requests := s.requests.advance 1
        reads := s.reads ++ [.byte c] }
    else none

def clientStep (s : State) : Io → Option State
  | .interrupted => if s.client.closed = true then none else some s
  | .moved n =>
    match s.client with
    | .writing texts =>
      (writeSome n texts).map fun (chunk, rest) =>
        { s with client := clientWrites rest, requests := s.requests.put chunk }
    | .reading response => readResponse s response n
    | .returned _ => none

def serverStep (s : State) : Io → Option State
  | .interrupted =>
    match s.server with
    | .reading _ => some { s with reads := s.reads ++ [.interrupted] }
    | .writing _ _ => some s
    | _ => none
  | .moved n =>
    match s.server with
    | .reading line => readByte s line n
    | .writing line texts =>
      (writeSome n texts).map fun (chunk, rest) =>
        { s with server := serverWrites line rest, responses := s.responses.put chunk }
    | _ => none

/-- The object for a line goes to `write_response_and_close`. -/
def answerStep (answer : Bytes → Bytes) (s : State) : Option State :=
  match s.server with
  | .serving line => some { s with server := serverWrites line (responseTexts (answer line)) }
  | _ => none

def step (answer : Bytes → Bytes) (s : State) : Event → Option State
  | .client io => clientStep s io
  | .server io => serverStep s io
  | .answered => answerStep answer s

def run (answer : Bytes → Bytes) : List Event → State → Option State
  | [], s => some s
  | e :: events, s => (step answer s e).bind (run answer events)

def start (request : Bytes) : State where
  client := clientWrites (requestTexts request)
  server := .reading []
  requests := .fresh
  responses := .fresh
  reads := []

end Steps

section ReadLine

/-- Bytes that were read in front of what is read. -/
def prepend (line : Bytes) (rest : LineRead) : LineRead := line.foldr LineRead.cons rest

theorem prepend_line (line : Bytes) : prepend line (.line []) = .line line := by
  induction line with
  | nil => rfl
  | cons c line ih =>
    rw [prepend, List.foldr_cons]
    show (prepend line (.line [])).cons c = _
    rw [ih, LineRead.cons]

theorem prepend_concat (line : Bytes) (c : UInt8) (rest : LineRead) :
    prepend (line ++ [c]) rest = prepend line (rest.cons c) := by
  rw [prepend, List.foldr_append]
  rfl

/-- With these results `read_line` has come as far as `line`. -/
def Heard (reads : List ReadResult) (line : Bytes) : Prop :=
  ∀ room rs, line.length ≤ room →
    readLoop room (reads ++ rs) = prepend line (readLoop (room - line.length) rs)

variable {reads : List ReadResult} {line : Bytes}

theorem heard_start : Heard [] [] := fun _ _ _ => rfl

theorem heard_interrupted (h : Heard reads line) : Heard (reads ++ [.interrupted]) line := by
  intro room rs hroom
  rw [List.append_assoc, h room _ hroom]
  cases room - line.length with
  | zero => rw [readLoop, readLoop]
  | succ left =>
    show prepend line (readLoop (left + 1) (.interrupted :: rs)) = _
    rw [readLoop]

theorem heard_byte (h : Heard reads line) {c : UInt8} (hc : c ≠ newline) :
    Heard (reads ++ [.byte c]) (line ++ [c]) := by
  intro room rs hroom
  rw [List.length_append, List.length_singleton] at hroom ⊢
  obtain ⟨left, hleft⟩ : ∃ left, room - line.length = left + 1 :=
    ⟨room - line.length - 1, by omega⟩
  have hrest : room - (line.length + 1) = left := by omega
  rw [List.append_assoc, h room _ (by omega), hleft, hrest, prepend_concat]
  show prepend line (readLoop (left + 1) (.byte c :: rs)) = _
  rw [readLoop, if_neg hc]

theorem heard_full (h : Heard reads line) (hfull : line.length = lineLen - 1) :
    readLine reads lineLen = .line line := by
  have hread := h (lineLen - 1) [] (by omega)
  rw [List.append_nil, hfull, Nat.sub_self] at hread
  rw [readLine, hread]
  exact prepend_line line

theorem heard_newline (h : Heard reads line) (hroom : line.length + 1 < lineLen) :
    readLine (reads ++ [.byte newline]) lineLen = .line line := by
  obtain ⟨left, hleft⟩ : ∃ left, lineLen - 1 - line.length = left + 1 :=
    ⟨lineLen - 1 - line.length - 1, by omega⟩
  rw [readLine, h (lineLen - 1) _ (by omega), hleft, readLoop, if_pos rfl]
  exact prepend_line line

end ReadLine

section Invariant

variable {body object : Bytes}

/-- The client with what it has written and what it has read. -/
inductive ClientAt (body object : Bytes) : Client → Bytes → Bytes → Prop
  | writing {texts : List Bytes} {written : Bytes}
      (hsent : written ++ texts.flatten = body ++ [newline]) (hne : texts ≠ [])
      (htexts : ∀ t ∈ texts, t ≠ []) : ClientAt body object (.writing texts) written []
  | reading {response : Bytes} (hline : newline ∉ response)
      (hroom : response.length + 1 < responseSize) :
      ClientAt body object (.reading response) (body ++ [newline]) response
  | returned :
      ClientAt body object (.returned (object ++ [newline])) (body ++ [newline])
        (object ++ [newline])

/-- The server with what it has read, what it has written and its reads. -/
inductive ServerAt (body object : Bytes) : Server → Bytes → Bytes → List ReadResult → Prop
  | reading {line : Bytes} {reads : List ReadResult} (hline : newline ∉ line)
      (hroom : line.length + 1 < lineLen) (hreads : Heard reads line) :
      ServerAt body object (.reading line) line [] reads
  | serving {heard : Bytes} {reads : List ReadResult}
      (hreads : readLine reads lineLen = .line body) :
      ServerAt body object (.serving body) heard [] reads
  | writing {heard written : Bytes} {texts : List Bytes} {reads : List ReadResult}
      (hreads : readLine reads lineLen = .line body)
      (hsent : written ++ texts.flatten = object ++ [newline]) (hne : texts ≠ [])
      (htexts : ∀ t ∈ texts, t ≠ []) :
      ServerAt body object (.writing body texts) heard written reads
  | closed {heard : Bytes} {reads : List ReadResult}
      (hreads : readLine reads lineLen = .line body) :
      ServerAt body object (.closed body) heard (object ++ [newline]) reads

structure Inv (body object : Bytes) (s : State) : Prop where
  client : ClientAt body object s.client s.requests.written s.responses.consumed
  server : ServerAt body object s.server s.requests.consumed s.responses.written s.reads

theorem ClientAt.written_starts {client : Client} {written got : Bytes}
    (h : ClientAt body object client written got) : written <+: body ++ [newline] := by
  cases h with
  | writing hsent hne htexts => exact ⟨_, hsent⟩
  | reading hline hroom => exact List.prefix_rfl
  | returned => exact List.prefix_rfl

theorem ServerAt.written_starts {server : Server} {heard written : Bytes}
    {reads : List ReadResult} (h : ServerAt body object server heard written reads) :
    written <+: object ++ [newline] := by
  cases h with
  | reading hline hroom hreads => exact List.nil_prefix
  | serving hreads => exact List.nil_prefix
  | writing hreads hsent hne htexts => exact ⟨_, hsent⟩
  | closed hreads => exact List.prefix_rfl

variable {s s' : State}

theorem Inv.requests_starts (h : Inv body object s) :
    s.requests.consumed <+: body ++ [newline] :=
  s.requests.consumed_starts.trans h.client.written_starts

theorem Inv.responses_starts (h : Inv body object s) :
    s.responses.consumed <+: object ++ [newline] :=
  s.responses.consumed_starts.trans h.server.written_starts

/-- Behind a write that leaves nothing to write the client reads. -/
theorem clientAt_writes {texts : List Bytes} {written : Bytes}
    (hsent : written ++ texts.flatten = body ++ [newline]) (htexts : ∀ t ∈ texts, t ≠ []) :
    ClientAt body object (clientWrites texts) written [] := by
  rw [clientWrites]
  split
  · rename_i hnone
    rw [hnone, List.flatten_nil, List.append_nil] at hsent
    rw [hsent]
    exact .reading (by simp) (by decide)
  · rename_i hne
    exact .writing hsent hne htexts

theorem serverAt_writes {heard written : Bytes} {texts : List Bytes} {reads : List ReadResult}
    (hreads : readLine reads lineLen = .line body)
    (hsent : written ++ texts.flatten = object ++ [newline]) (htexts : ∀ t ∈ texts, t ≠ []) :
    ServerAt body object (serverWrites body texts) heard written reads := by
  rw [serverWrites]
  split
  · rename_i hnone
    rw [hnone, List.flatten_nil, List.append_nil] at hsent
    rw [hsent]
    exact .closed hreads
  · rename_i hne
    exact .writing hreads hsent hne htexts

section Phases

variable {written got heard : Bytes} {texts : List Bytes} {line response : Bytes}
  {reads : List ReadResult} {client : Client} {server : Server}

theorem clientAt_writing (h : ClientAt body object client written got)
    (hclient : client = .writing texts) :
    written ++ texts.flatten = body ++ [newline] ∧ texts ≠ [] ∧ (∀ t ∈ texts, t ≠ []) ∧
      got = [] := by
  subst hclient
  cases h with
  | writing hsent hne htexts => exact ⟨hsent, hne, htexts, rfl⟩

theorem clientAt_reading (h : ClientAt body object client written got)
    (hclient : client = .reading response) :
    written = body ++ [newline] ∧ got = response ∧ newline ∉ response ∧
      response.length + 1 < responseSize := by
  subst hclient
  cases h with
  | reading hline hroom => exact ⟨rfl, rfl, hline, hroom⟩

theorem clientAt_returned (h : ClientAt body object client written got)
    (hclient : client = .returned response) : response = object ++ [newline] ∧ got = response := by
  subst hclient
  cases h with
  | returned => exact ⟨rfl, rfl⟩

theorem serverAt_reading (h : ServerAt body object server heard written reads)
    (hserver : server = .reading line) :
    heard = line ∧ written = [] ∧ newline ∉ line ∧ line.length + 1 < lineLen ∧
      Heard reads line := by
  subst hserver
  cases h with
  | reading hline hroom hreads => exact ⟨rfl, rfl, hline, hroom, hreads⟩

theorem serverAt_serving (h : ServerAt body object server heard written reads)
    (hserver : server = .serving line) :
    line = body ∧ written = [] ∧ readLine reads lineLen = .line body := by
  subst hserver
  cases h with
  | serving hreads => exact ⟨rfl, rfl, hreads⟩

theorem serverAt_writing (h : ServerAt body object server heard written reads)
    (hserver : server = .writing line texts) :
    line = body ∧ written ++ texts.flatten = object ++ [newline] ∧ texts ≠ [] ∧
      (∀ t ∈ texts, t ≠ []) ∧ readLine reads lineLen = .line body := by
  subst hserver
  cases h with
  | writing hreads hsent hne htexts => exact ⟨rfl, hsent, hne, htexts, hreads⟩

theorem serverAt_closed (h : ServerAt body object server heard written reads)
    (hserver : server = .closed line) :
    line = body ∧ written = object ++ [newline] ∧ readLine reads lineLen = .line body := by
  subst hserver
  cases h with
  | closed hreads => exact ⟨rfl, rfl, hreads⟩

/-- A client that is done has the object and a newline. -/
theorem ClientAt.returned_of_closed (h : ClientAt body object client written got)
    (hclosed : client.closed = true) : client = .returned (object ++ [newline]) := by
  cases h with
  | writing => cases hclosed
  | reading => cases hclosed
  | returned => rfl

theorem ServerAt.closed_of_isClosed (h : ServerAt body object server heard written reads)
    (hclosed : server.isClosed = true) : server = .closed body := by
  cases h with
  | reading => cases hclosed
  | serving => cases hclosed
  | writing => cases hclosed
  | closed => rfl

/-- The line that was read is the request. -/
theorem ServerAt.line_read (h : ServerAt body object server heard written reads)
    (hline : server.line = some line) :
    line = body ∧ readLine reads lineLen = .line line := by
  cases h with
  | reading => cases hline
  | serving hreads =>
    cases hline
    exact ⟨rfl, hreads⟩
  | writing hreads =>
    cases hline
    exact ⟨rfl, hreads⟩
  | closed hreads =>
    cases hline
    exact ⟨rfl, hreads⟩

end Phases

/-- A server that has closed has written its whole answer. -/
theorem not_closed_early (h : Inv body object s) {response : Bytes}
    (hclient : s.client = .reading response) (hunread : s.responses.unread = []) :
    s.server.isClosed = false := by
  obtain ⟨_, hgot, hline, _⟩ := clientAt_reading h.client hclient
  cases hserver : s.server with
  | closed line =>
    obtain ⟨_, hwritten, _⟩ := serverAt_closed h.server hserver
    rw [← hgot, s.responses.consumed_of_unread hunread, hwritten] at hline
    exact absurd (List.mem_append_right _ List.mem_cons_self) hline
  | _ => rfl

/-- The client waits for an answer while the server reads. -/
theorem not_returned_early (h : Inv body object s) {line : Bytes}
    (hserver : s.server = .reading line) : s.client.closed = false := by
  obtain ⟨_, hwritten, _⟩ := serverAt_reading h.server hserver
  cases hclient : s.client with
  | returned response =>
    obtain ⟨hresponse, hgot⟩ := clientAt_returned h.client hclient
    have hstarts := s.responses.consumed_starts
    rw [hwritten, hgot, hresponse] at hstarts
    simp at hstarts
  | _ => rfl

/-- The client has the whole answer or reads on. -/
theorem clientAt_reads (hobject : newline ∉ object) (hshort : object.length < maxResponseLen + 512)
    {read : Bytes} (h : read <+: object ++ [newline]) :
    ClientAt body object (if newline ∈ read then .returned read else clientReads read)
      (body ++ [newline]) read := by
  by_cases hmem : newline ∈ read
  · rw [if_pos hmem, prefix_delimited hobject h hmem]
    exact .returned
  · have hlen := (prefix_undelimited h hmem).length_le
    have hroom : read.length + 1 < responseSize := by
      show read.length + 1 < 4096
      have hbound : object.length < 2560 := hshort
      omega
    rw [if_neg hmem, clientReads, if_pos hroom]
    exact .reading hmem hroom

theorem readResponse_inv (hobject : newline ∉ object)
    (hshort : object.length < maxResponseLen + 512) (h : Inv body object s) {response : Bytes}
    (hclient : s.client = .reading response) {n : ℕ} (hstep : readResponse s response n = some s') :
    Inv body object s' := by
  obtain ⟨hwritten, hgot, _⟩ := clientAt_reading h.client hclient
  rw [readResponse] at hstep
  split at hstep
  · split at hstep
    · rename_i hend
      rw [not_closed_early h hclient hend.1] at hend
      exact absurd hend.2 (by decide)
    · cases hstep
  · split at hstep
    · obtain rfl := Option.some.inj hstep
      have hread : (s.responses.advance n).consumed = response ++ s.responses.unread.take n := by
        rw [s.responses.advance_consumed, hgot]
      have hstarts : (s.responses.advance n).consumed <+: object ++ [newline] :=
        (s.responses.advance n).consumed_starts.trans h.server.written_starts
      refine ⟨?_, h.server⟩
      rw [hread] at hstarts
      show ClientAt body object _ s.requests.written (s.responses.advance n).consumed
      rw [hwritten, hread]
      exact clientAt_reads hobject hshort hstarts
    · cases hstep

theorem clientStep_inv (hobject : newline ∉ object)
    (hshort : object.length < maxResponseLen + 512) (h : Inv body object s) {io : Io}
    (hstep : clientStep s io = some s') : Inv body object s' := by
  cases io with
  | interrupted =>
    rw [clientStep] at hstep
    split at hstep
    · cases hstep
    · cases hstep
      exact h
  | moved n =>
    rw [clientStep] at hstep
    split at hstep
    · rename_i texts hclient
      obtain ⟨hsent, _, htexts, hgot⟩ := clientAt_writing h.client hclient
      obtain ⟨⟨chunk, rest⟩, hwrite, rfl⟩ := Option.map_eq_some_iff.mp hstep
      obtain ⟨hflat, _, _⟩ := writeSome_spec hwrite
      constructor
      · show ClientAt body object (clientWrites rest) (s.requests.written ++ chunk)
          s.responses.consumed
        rw [hgot]
        refine clientAt_writes ?_ (writeSome_nonempty hwrite htexts)
        rw [List.append_assoc, hflat, hsent]
      · show ServerAt body object s.server (s.requests.put chunk).consumed s.responses.written _
        rw [s.requests.put_consumed]
        exact h.server
    · rename_i response hclient
      exact readResponse_inv hobject hshort h hclient hstep
    · cases hstep

/-- The byte that is read next. -/
theorem consumed_next {c : UInt8} {rest : Bytes} (h : s.requests.unread = c :: rest) :
    (s.requests.advance 1).consumed = s.requests.consumed ++ [c] := by
  rw [s.requests.advance_consumed, h]
  rfl

theorem readByte_inv (hbody : newline ∉ body) (hshort : body.length < lineLen)
    (h : Inv body object s) {line : Bytes} (hserver : s.server = .reading line) {n : ℕ}
    (hstep : readByte s line n = some s') : Inv body object s' := by
  obtain ⟨hheard, hwritten, hline, hroom, hreads⟩ := serverAt_reading h.server hserver
  rw [readByte] at hstep
  split at hstep
  · split at hstep
    · rename_i hend
      rw [not_returned_early h hserver] at hend
      exact absurd hend.2 (by decide)
    · cases hstep
  · rename_i c rest hunread
    split at hstep
    · obtain rfl := Option.some.inj hstep
      have hread : (s.requests.advance 1).consumed = line ++ [c] := by
        rw [consumed_next hunread, hheard]
      have hstarts : line ++ [c] <+: body ++ [newline] := by
        rw [← hread]
        exact (s.requests.advance 1).consumed_starts.trans h.client.written_starts
      refine ⟨h.client, ?_⟩
      show ServerAt body object _ (s.requests.advance 1).consumed s.responses.written _
      rw [hread, hwritten]
      by_cases hc : c = newline
      · subst hc
        have hwhole := prefix_delimited hbody hstarts (by simp)
        have hbodyline : line = body := List.append_cancel_right hwhole
        rw [if_pos rfl, hbodyline]
        rw [hbodyline] at hreads hroom
        exact .serving (heard_newline hreads hroom)
      · have hfree : newline ∉ line ++ [c] := by
          rw [List.mem_append, List.mem_singleton, not_or]
          exact ⟨hline, Ne.symm hc⟩
        have hpart := prefix_undelimited hstarts hfree
        rw [if_neg hc, serverReads]
        split
        · rename_i hmore
          exact .reading hfree hmore (heard_byte hreads hc)
        · rename_i hfull
          -- the buffer is full: the line has all the bytes that there can be
          have hlen : (line ++ [c]).length = lineLen - 1 := by
            rw [List.length_append, List.length_singleton] at hfull ⊢
            omega
          have hbodyline : line ++ [c] = body := hpart.eq_of_length_le (by omega)
          have hdone := heard_full (heard_byte hreads hc) hlen
          rw [hbodyline] at hdone ⊢
          exact .serving hdone
    · cases hstep

theorem serverStep_inv (hbody : newline ∉ body) (hshort : body.length < lineLen)
    (h : Inv body object s) {io : Io} (hstep : serverStep s io = some s') :
    Inv body object s' := by
  cases io with
  | interrupted =>
    rw [serverStep] at hstep
    split at hstep
    · rename_i line hserver
      obtain rfl := Option.some.inj hstep
      obtain ⟨hheard, hwritten, hline, hroom, hreads⟩ := serverAt_reading h.server hserver
      refine ⟨h.client, ?_⟩
      show ServerAt body object s.server s.requests.consumed s.responses.written _
      rw [hserver, hheard, hwritten]
      exact .reading hline hroom (heard_interrupted hreads)
    · cases hstep
      exact h
    · cases hstep
  | moved n =>
    rw [serverStep] at hstep
    split at hstep
    · rename_i line hserver
      exact readByte_inv hbody hshort h hserver hstep
    · rename_i line texts hserver
      obtain ⟨hline, hsent, _, htexts, hreads⟩ := serverAt_writing h.server hserver
      obtain ⟨⟨chunk, rest⟩, hwrite, rfl⟩ := Option.map_eq_some_iff.mp hstep
      obtain ⟨hflat, _, _⟩ := writeSome_spec hwrite
      constructor
      · show ClientAt body object s.client s.requests.written (s.responses.put chunk).consumed
        rw [s.responses.put_consumed]
        exact h.client
      · show ServerAt body object (serverWrites line rest) _ (s.responses.written ++ chunk) _
        rw [hline]
        refine serverAt_writes hreads ?_ (writeSome_nonempty hwrite htexts)
        rw [List.append_assoc, hflat, hsent]
    · cases hstep

end Invariant

section Texts

theorem writes_nonempty (texts : List Bytes) : ∀ t ∈ writes texts, t ≠ [] := by
  intro t ht
  simpa using (List.mem_filter.mp ht).2

theorem writes_flatten (texts : List Bytes) : (writes texts).flatten = texts.flatten := by
  induction texts with
  | nil => rfl
  | cons t texts ih =>
    by_cases ht : t = []
    · rw [ht, List.flatten_cons, List.nil_append, ← ih]
      rfl
    · rw [writes, List.filter_cons_of_pos (by simpa using ht), List.flatten_cons,
        List.flatten_cons, ← ih]
      rfl

/-- The request without its final newline. -/
def bodyOf (request : Bytes) : Bytes :=
  if request.getLast? = some newline then request.dropLast else request

theorem requestTexts_nonempty (request : Bytes) : ∀ t ∈ requestTexts request, t ≠ [] := by
  rw [requestTexts]
  split <;> exact writes_nonempty _

theorem bodyOf_subset (request : Bytes) : bodyOf request ⊆ request := by
  rw [bodyOf]
  split
  · exact List.dropLast_subset request
  · exact List.Subset.refl request

/-- Either way the server is sent one line. -/
theorem requestTexts_flatten (request : Bytes) :
    (requestTexts request).flatten = bodyOf request ++ [newline] := by
  rw [requestTexts, bodyOf]
  split
  · rename_i hlast
    rw [writes_flatten, List.flatten_singleton]
    exact (List.dropLast_append_getLast? newline hlast).symm
  · rw [writes_flatten]
    simp

theorem responseTexts_nonempty (object : Bytes) : ∀ t ∈ responseTexts object, t ≠ [] := by
  rw [responseTexts]
  split
  · simp
  · exact writes_nonempty _

theorem responseTexts_flatten {object : Bytes} (h : object ≠ []) :
    (responseTexts object).flatten = object ++ [newline] := by
  rw [responseTexts, if_neg h, writes_flatten]
  simp

end Texts

section Runs

variable {request : Bytes} {answer : Bytes → Bytes} {s s' : State}

/-- A request of one line that fits the buffer of the server, and an object of
one line that fits the buffer it is written from. -/
structure Fits (request : Bytes) (answer : Bytes → Bytes) : Prop where
  text : 0 ∉ request
  line : newline ∉ bodyOf request
  short : (bodyOf request).length < lineLen
  object : answer (bodyOf request) ≠ []
  objectLine : newline ∉ answer (bodyOf request)
  objectShort : (answer (bodyOf request)).length < maxResponseLen + 512

theorem start_inv (request object : Bytes) : Inv (bodyOf request) object (start request) where
  client := clientAt_writes (requestTexts_flatten request) (requestTexts_nonempty request)
  server := .reading (by simp) (by decide) heard_start

theorem answerStep_inv {body : Bytes} (hobject : answer body ≠ []) (h : Inv body (answer body) s)
    (hstep : answerStep answer s = some s') : Inv body (answer body) s' := by
  rw [answerStep] at hstep
  split at hstep
  · rename_i line hserver
    obtain rfl := Option.some.inj hstep
    obtain ⟨hline, hwritten, hreads⟩ := serverAt_serving h.server hserver
    refine ⟨h.client, ?_⟩
    show ServerAt _ _ (serverWrites line _) s.requests.consumed s.responses.written s.reads
    rw [hwritten, hline]
    exact serverAt_writes hreads (responseTexts_flatten hobject) (responseTexts_nonempty _)
  · cases hstep

theorem step_inv (hfits : Fits request answer)
    (h : Inv (bodyOf request) (answer (bodyOf request)) s) {e : Event}
    (hstep : step answer s e = some s') : Inv (bodyOf request) (answer (bodyOf request)) s' := by
  cases e with
  | client io => exact clientStep_inv hfits.objectLine hfits.objectShort h hstep
  | server io => exact serverStep_inv hfits.line hfits.short h hstep
  | answered => exact answerStep_inv hfits.object h hstep

theorem run_inv (hfits : Fits request answer) {events : List Event}
    (h : Inv (bodyOf request) (answer (bodyOf request)) s)
    (hrun : run answer events s = some s') :
    Inv (bodyOf request) (answer (bodyOf request)) s' := by
  induction events generalizing s with
  | nil =>
    obtain rfl := Option.some.inj hrun
    exact h
  | cons e events ih =>
    obtain ⟨t, hstep, hrest⟩ := Option.bind_eq_some_iff.mp hrun
    exact ih (step_inv hfits h hstep) hrest

end Runs

section Work

def Client.rank : Client → ℕ
  | .returned _ => 1
  | _ => 0

def Server.rank : Server → ℕ
  | .reading _ => 0
  | .serving _ => 1
  | _ => 2

theorem Client.rank_le (client : Client) : client.rank ≤ 1 := by
  rw [rank.eq_def]
  split <;> omega

theorem Server.rank_le (server : Server) : server.rank ≤ 2 := by
  rw [rank.eq_def]
  split <;> omega

/-- What was done so far: bytes that were moved and turns that were taken. -/
def work (s : State) : ℕ :=
  s.requests.moved + s.responses.moved + s.client.rank + s.server.rank

@[simp] theorem clientWrites_rank (texts : List Bytes) : (clientWrites texts).rank = 0 := by
  rw [clientWrites]
  split <;> rfl

@[simp] theorem serverWrites_rank (line : Bytes) (texts : List Bytes) :
    (serverWrites line texts).rank = 2 := by
  rw [serverWrites]
  split <;> rfl

variable {answer : Bytes → Bytes} {s s' : State}

theorem readResponse_work {response : Bytes} (hclient : s.client = .reading response) {n : ℕ}
    (hstep : readResponse s response n = some s') : work s + 1 ≤ work s' := by
  rw [readResponse] at hstep
  split at hstep
  · split at hstep
    · obtain rfl := Option.some.inj hstep
      simp only [work, hclient, Client.rank]
      omega
    · cases hstep
  · split at hstep
    · rename_i hpos hn
      obtain rfl := Option.some.inj hstep
      have hmoved := s.responses.moved_advance hn.2
      simp only [work, hclient, Client.rank]
      omega
    · cases hstep

theorem readByte_work {line : Bytes} (hserver : s.server = .reading line) {n : ℕ}
    (hstep : readByte s line n = some s') : work s + 1 ≤ work s' := by
  rw [readByte] at hstep
  split at hstep
  · split at hstep
    · obtain rfl := Option.some.inj hstep
      simp only [work, hserver, Server.rank]
      omega
    · cases hstep
  · rename_i c rest hunread
    split at hstep
    · obtain rfl := Option.some.inj hstep
      have hmoved : (s.requests.advance 1).moved = s.requests.moved + 1 :=
        s.requests.moved_advance (by rw [hunread]; exact Nat.le_add_left 1 _)
      simp only [work, hserver, Server.rank]
      omega
    · cases hstep

/-- Every call that is not interrupted gets the exchange further. -/
theorem step_work {e : Event} (hstep : step answer s e = some s') :
    work s + (if e.productive = true then 1 else 0) ≤ work s' := by
  cases e with
  | client io =>
    rw [step, clientStep.eq_def] at hstep
    cases io with
    | interrupted =>
      dsimp only at hstep
      split at hstep
      · cases hstep
      · cases hstep
        exact Nat.le_refl _
    | moved n =>
      dsimp only at hstep
      split at hstep
      · rename_i texts hclient
        obtain ⟨⟨chunk, rest⟩, hwrite, rfl⟩ := Option.map_eq_some_iff.mp hstep
        obtain ⟨_, hlen, hpos⟩ := writeSome_spec hwrite
        have hmoved := s.requests.moved_put chunk
        have hrank : s.client.rank = 0 := by
          rw [hclient]
          rfl
        show work s + 1 ≤ work _
        simp only [work, hrank, clientWrites_rank]
        omega
      · rename_i response hclient
        exact readResponse_work hclient hstep
      · cases hstep
  | server io =>
    rw [step, serverStep.eq_def] at hstep
    cases io with
    | interrupted =>
      dsimp only at hstep
      split at hstep
      · cases hstep
        exact Nat.le_refl _
      · cases hstep
        exact Nat.le_refl _
      · cases hstep
    | moved n =>
      dsimp only at hstep
      split at hstep
      · rename_i line hserver
        exact readByte_work hserver hstep
      · rename_i line texts hserver
        obtain ⟨⟨chunk, rest⟩, hwrite, rfl⟩ := Option.map_eq_some_iff.mp hstep
        obtain ⟨_, hlen, hpos⟩ := writeSome_spec hwrite
        have hmoved := s.responses.moved_put chunk
        have hrank : s.server.rank = 2 := by
          rw [hserver]
          rfl
        show work s + 1 ≤ work _
        simp only [work, hrank, serverWrites_rank]
        omega
      · cases hstep
  | answered =>
    rw [step, answerStep] at hstep
    split at hstep
    · rename_i line hserver
      obtain rfl := Option.some.inj hstep
      have hrank : s.server.rank = 1 := by
        rw [hserver]
        rfl
      show work s + 1 ≤ work _
      simp only [work, hrank, serverWrites_rank]
      omega
    · cases hstep

theorem run_work {events : List Event} (hrun : run answer events s = some s') :
    work s + events.countP Event.productive ≤ work s' := by
  induction events generalizing s with
  | nil =>
    obtain rfl := Option.some.inj hrun
    exact Nat.le_refl _
  | cons e events ih =>
    obtain ⟨t, hstep, hrest⟩ := Option.bind_eq_some_iff.mp hrun
    have hfirst := step_work hstep
    have hmore := ih hrest
    rw [List.countP_cons]
    omega

theorem work_le {body object : Bytes} (h : Inv body object s) :
    work s ≤ 2 * (body.length + 1) + 2 * (object.length + 1) + 3 := by
  have hrequests := s.requests.moved_le h.client.written_starts
  have hresponses := s.responses.moved_le h.server.written_starts
  have hclient := s.client.rank_le
  have hserver := s.server.rank_le
  rw [List.length_append, List.length_singleton] at hrequests hresponses
  rw [work]
  omega

end Work

section Progress

variable {answer : Bytes → Bytes} {body object : Bytes} {s : State}

/-- A server that waits for nothing can go on. -/
theorem server_moves (h : Inv body object s) (hopen : s.server.isClosed = false)
    (hunread : ∀ line, s.server = .reading line → s.requests.unread ≠ []) :
    ∃ e : Event, e.productive = true ∧ (step answer s e).isSome = true := by
  cases hserver : s.server with
  | reading line =>
    obtain ⟨c, rest, hnext⟩ := List.exists_cons_of_ne_nil (hunread line hserver)
    refine ⟨.server (.moved 1), rfl, ?_⟩
    rw [step, serverStep, hserver]
    dsimp only
    rw [readByte, hnext]
    rfl
  | serving line =>
    refine ⟨.answered, rfl, ?_⟩
    rw [step, answerStep, hserver]
    rfl
  | writing line texts =>
    obtain ⟨_, _, hne, htexts, _⟩ := serverAt_writing h.server hserver
    refine ⟨.server (.moved 1), rfl, ?_⟩
    rw [step, serverStep, hserver, Option.isSome_map]
    exact writeSome_one hne htexts
  | closed line =>
    rw [hserver] at hopen
    cases hopen

/-- As long as one end is not done, one of them has a call to make that is
not interrupted: neither waits for the other for ever. -/
theorem exchange_moves (h : Inv body object s)
    (hopen : ¬(s.client.closed = true ∧ s.server.isClosed = true)) :
    ∃ e : Event, e.productive = true ∧ (step answer s e).isSome = true := by
  cases hclient : s.client with
  | writing texts =>
    obtain ⟨_, hne, htexts, _⟩ := clientAt_writing h.client hclient
    refine ⟨.client (.moved 1), rfl, ?_⟩
    rw [step, clientStep, hclient, Option.isSome_map]
    exact writeSome_one hne htexts
  | reading response =>
    obtain ⟨hwritten, _, _, hroom⟩ := clientAt_reading h.client hclient
    by_cases hunread : s.responses.unread = []
    · refine server_moves h (not_closed_early h hclient hunread) ?_
      -- what was read holds no newline yet, what was written does
      intro line hserver hnone
      obtain ⟨hheard, _, hline, _⟩ := serverAt_reading h.server hserver
      rw [← hheard, s.requests.consumed_of_unread hnone, hwritten] at hline
      exact hline (List.mem_append_right _ List.mem_cons_self)
    · have hone : 1 ≤ s.responses.unread.length := List.length_pos_iff.mpr hunread
      refine ⟨.client (.moved 1), rfl, ?_⟩
      rw [step, clientStep, hclient]
      dsimp only
      rw [readResponse, if_neg Nat.one_ne_zero, if_pos ⟨by omega, hone⟩]
      rfl
  | returned response =>
    have hclosed : s.client.closed = true := by
      rw [hclient]
      rfl
    have hserving : s.server.isClosed = false :=
      Bool.eq_false_iff.mpr fun hdone => hopen ⟨hclosed, hdone⟩
    refine server_moves h hserving ?_
    intro line hserver
    rw [not_returned_early h hserver] at hclosed
    cases hclosed

end Progress

section Delivery

variable {request : Bytes} {answer : Bytes → Bytes} {events : List Event} {s : State}

/-- What holds behind any calls: of the line and the string when they are
there, and that they will be. -/
structure Delivered (request : Bytes) (answer : Bytes → Bytes) (events : List Event)
    (s : State) : Prop where
  /-- `read_line` has returned the request without its newline. -/
  line : ∀ line, s.server.line = some line →
    line = bodyOf request ∧ readLine s.reads lineLen = .line line ∧ cText (line ++ [0]) = line
  /-- The client hands back the object and a newline. -/
  response : ∀ response, s.client = .returned response →
    response = answer (bodyOf request) ++ [newline] ∧
      (0 ∉ answer (bodyOf request) → cText (response ++ [0]) = response)
  /-- What is on the way is a first part of what is sent. -/
  requests : s.requests.consumed <+: bodyOf request ++ [newline]
  responses : s.responses.consumed <+: answer (bodyOf request) ++ [newline]
  progress : s.client.closed = true ∧ s.server.isClosed = true ∨
    ∃ e : Event, e.productive = true ∧ (step answer s e).isSome = true
  bounded : events.countP Event.productive ≤
    2 * ((bodyOf request).length + 1) + 2 * ((answer (bodyOf request)).length + 1) + 3

/-- A buffer that ends in its terminator is the text in front of it. -/
theorem cText_terminated {text : Bytes} (h : 0 ∉ text) : cText (text ++ [0]) = text := by
  rw [cText, List.takeWhile_append_of_pos, List.takeWhile_cons_of_neg, List.append_nil]
  · decide
  · intro c hc
    rw [decide_eq_true_eq]
    rintro rfl
    exact h hc

/-- Whatever the pieces and the interruptions on both ends, in whatever order
the calls come: the server has the request, the client the object. -/
theorem exchange_delivered (h : Fits request answer) (events : List Event)
    (hrun : run answer events (start request) = some s) :
    Delivered request answer events s := by
  have hinv := run_inv h (start_inv request _) hrun
  refine ⟨?_, ?_, hinv.requests_starts, hinv.responses_starts, ?_, ?_⟩
  · intro line hline
    obtain ⟨rfl, hread⟩ := hinv.server.line_read hline
    exact ⟨rfl, hread, cText_terminated fun hzero => h.text (bodyOf_subset request hzero)⟩
  · intro response hresponse
    obtain ⟨rfl, _⟩ := clientAt_returned hinv.client hresponse
    refine ⟨rfl, fun htext => cText_terminated ?_⟩
    rw [List.mem_append, List.mem_singleton, not_or]
    exact ⟨htext, by decide⟩
  · by_cases hdone : s.client.closed = true ∧ s.server.isClosed = true
    · exact .inl hdone
    · exact .inr (exchange_moves hinv hdone)
  · have hwork := run_work hrun
    have hbound := work_le hinv
    omega

/-- Calls of one byte and of more, with interruptions on both ends. -/
def shortCalls : List Event :=
  [.client (.moved 1), .client .interrupted, .server (.moved 1), .client (.moved 1),
    .server .interrupted, .client (.moved 1), .server (.moved 1), .server (.moved 1), .answered,
    .server (.moved 1), .client (.moved 1), .server .interrupted, .server (.moved 1),
    .server (.moved 1), .client .interrupted, .client (.moved 2)]

theorem short_calls_delivered :
    Fits (lit "hi") (fun _ => lit "\x7b\x7d") ∧
      ∃ s, run (fun _ => lit "\x7b\x7d") shortCalls (start (lit "hi")) = some s ∧
        s.client.closed = true ∧ s.server.isClosed = true ∧
        Delivered (lit "hi") (fun _ => lit "\x7b\x7d") shortCalls s := by
  have hfits : Fits (lit "hi") (fun _ => lit "\x7b\x7d") := by
    constructor <;> decide
  have hdone : (run (fun _ => lit "\x7b\x7d") shortCalls (start (lit "hi"))).any
      (fun s => s.client.closed && s.server.isClosed) = true := by decide
  obtain ⟨s, hrun, hboth⟩ := (Option.any_eq_true _ _).mp hdone
  obtain ⟨hclient, hserver⟩ := Bool.and_eq_true_iff.mp hboth
  exact ⟨hfits, s, hrun, hclient, hserver, exchange_delivered hfits shortCalls hrun⟩

/-- From every state that is reached some calls finish the exchange. -/
theorem exchange_completes (h : Fits request answer)
    (hrun : run answer events (start request) = some s) :
    ∃ more t, run answer more s = some t ∧
      t.client = .returned (answer (bodyOf request) ++ [newline]) ∧
      t.server = .closed (bodyOf request) := by
  have hinv := run_inv h (start_inv request _) hrun
  clear hrun
  -- the induction is on the work that is left
  induction hleft : 2 * ((bodyOf request).length + 1) +
      2 * ((answer (bodyOf request)).length + 1) + 3 - work s
    using Nat.strong_induction_on generalizing s with
  | _ left ih =>
    by_cases hdone : s.client.closed = true ∧ s.server.isClosed = true
    · exact ⟨[], s, rfl, hinv.client.returned_of_closed hdone.1,
        hinv.server.closed_of_isClosed hdone.2⟩
    · obtain ⟨e, hproductive, hsome⟩ := exchange_moves hinv hdone
      obtain ⟨t, hstep⟩ := Option.isSome_iff_exists.mp hsome
      have hnext := step_inv h hinv hstep
      have hwork := step_work hstep
      have hbound := work_le hnext
      rw [if_pos hproductive] at hwork
      obtain ⟨more, u, hmore, hwhole⟩ := ih _ (by omega) hnext rfl
      refine ⟨e :: more, u, ?_, hwhole⟩
      rw [run, hstep]
      exact hmore

/-- The parser is given the request without its newline. -/
theorem request_parsed (h : Fits request answer)
    (hrun : run answer events (start request) = some s) (hline : s.server.line.isSome = true) :
    parsedText s.reads = some (bodyOf request) := by
  have hinv := run_inv h (start_inv request _) hrun
  obtain ⟨line, hsome⟩ := Option.isSome_iff_exists.mp hline
  obtain ⟨rfl, hread⟩ := hinv.server.line_read hsome
  have htext : cText (bodyOf request) = bodyOf request := by
    rw [cText, List.takeWhile_eq_self_iff]
    intro c hc
    rw [decide_eq_true_eq]
    rintro rfl
    exact h.text (bodyOf_subset request hc)
  rw [parsedText, hread]
  exact congrArg some htext

end Delivery

section Responses

variable {request : Bytes} {serve : Bytes → Response}

theorem responseText_nonempty (resp : Response) : responseText resp ≠ [] := by
  intro hnil
  have hlength := responseText_length resp
  rw [hnil, List.length_nil] at hlength
  omega

/-- What is written for a response is its object and a newline. -/
theorem responseTexts_written {resp : Response} (h : Answered resp) :
    (responseTexts (responseText resp)).flatten = writeResponseAndClose resp := by
  rw [responseTexts_flatten (responseText_nonempty resp), h.1]
  rfl

/-- A response that is written fits the exchange. -/
theorem fits_answered (htext : 0 ∉ request) (hline : newline ∉ bodyOf request)
    (hshort : (bodyOf request).length < lineLen) (h : Answered (serve (bodyOf request))) :
    Fits request (fun line => responseText (serve line)) where
  text := htext
  line := hline
  short := hshort
  object := responseText_nonempty _
  objectLine hmem := responseText_line _ _ hmem rfl
  objectShort := by
    have hlength := responseText_length (serve (bodyOf request))
    have hfit := (answered_iff _).mp h
    show (responseText (serve (bodyOf request))).length < 2560
    omega

/-- The string that a client hands back is what was written for its line. -/
theorem response_delivered (htext : 0 ∉ request) (hline : newline ∉ bodyOf request)
    (hshort : (bodyOf request).length < lineLen) (h : Answered (serve (bodyOf request)))
    {events : List Event} {s : State}
    (hrun : run (fun line => responseText (serve line)) events (start request) = some s)
    {response : Bytes} (hresponse : s.client = .returned response) :
    response = writeResponseAndClose (serve (bodyOf request)) := by
  have hinv := run_inv (fits_answered htext hline hshort h) (start_inv request _) hrun
  rw [(clientAt_returned hinv.client hresponse).1, ← responseTexts_written h,
    responseTexts_flatten (responseText_nonempty _)]

end Responses

end Ucisdk.Transport
