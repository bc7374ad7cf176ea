import Ucisdk.Encoders
import Ucisdk.Transport

/-!
# The command line client

The client takes the first line of its input, sends it over the socket and
prints the string that comes back. Whatever the input is and however the bytes
travel, what it prints is the answer to the line that it took.
-/

set_option autoImplicit false

namespace Ucisdk.ClientCore

open Ucisdk.CString Ucisdk.Common Ucisdk.Protocol Ucisdk.Scheduler Ucisdk.Server Ucisdk.Connection
open Ucisdk.SequenceRun Ucisdk.Reply Ucisdk.Encoders Ucisdk.Transport
open Scan.Json

def requestSize : ℕ := 2048

/-- The bytes up to the first newline, and the newline if there is one. -/
def throughNewline : Bytes → Bytes
  | [] => []
  | c :: cs => if c = newline then [c] else c :: throughNewline cs

/-- `fgets`; `none` at the end of the input. -/
def fgets (size : ℕ) (input : Bytes) : Option Bytes :=
  if input = [] then none else some (throughNewline (input.take (size - 1)))

/-- The exit code and what is printed. The transport is given the C string in
the buffer, and leaves one in its own. -/
def clientCoreRunOnce (send : Bytes → Option Bytes) (input : Bytes) : ℤ × Bytes :=
  match fgets requestSize input with
  | none => (1, [])
  | some request =>
    match send (cText (request ++ [0])) with
    | none => (1, [])
    | some response => (0, cText (response ++ [0]))

/-- The answer of the gateway to a line. -/
def reply (execute : Request → Response) (line : Bytes) : Response :=
  if line = [] then badRequest (lit "empty request")
  else
    match parseRequestJson line with
    | .error errbuf => badRequest errbuf.bytes
    | .ok request => execute request

section Lines

/-- What the client takes of its input: the bytes in front of the first newline
or terminator, as far as its buffer goes. -/
def firstLine (input : Bytes) : Bytes :=
  (input.take (requestSize - 1)).takeWhile fun c => c ≠ newline && c ≠ 0

theorem firstLine_newline (input : Bytes) : newline ∉ firstLine input := by
  intro hmem
  have hpasses := List.mem_takeWhile_imp hmem
  simp at hpasses

theorem firstLine_zero (input : Bytes) : 0 ∉ firstLine input := by
  intro hmem
  have hpasses := List.mem_takeWhile_imp hmem
  simp at hpasses

theorem firstLine_short (input : Bytes) : (firstLine input).length < lineLen := by
  have hlength := (List.takeWhile_prefix (l := input.take (requestSize - 1))
    fun c => c ≠ newline && c ≠ 0).length_le
  have htaken := List.length_take_le (requestSize - 1) input
  have hsize : requestSize - 1 < lineLen := by decide
  exact (hlength.trans htaken).trans_lt hsize

theorem cText_cons_zero (cs : Bytes) : cText (0 :: cs) = [] := by
  rw [cText, List.takeWhile_cons_of_neg (by simp)]

theorem cText_cons {c : UInt8} (h : c ≠ 0) (cs : Bytes) : cText (c :: cs) = c :: cText cs := by
  rw [cText, List.takeWhile_cons_of_pos (by simpa using h), cText]

/-- The C string in the buffer is the line, with or without its newline. -/
theorem taken_text (taken : Bytes) :
    cText (throughNewline taken ++ [0]) = taken.takeWhile (fun c => c ≠ newline && c ≠ 0) ∨
      cText (throughNewline taken ++ [0]) =
        taken.takeWhile (fun c => c ≠ newline && c ≠ 0) ++ [newline] := by
  induction taken with
  | nil => exact .inl rfl
  | cons c cs ih =>
    by_cases hline : c = newline
    · right
      subst hline
      rfl
    · rw [throughNewline, if_neg hline, List.cons_append]
      by_cases hzero : c = 0
      · left
        subst hzero
        rw [cText_cons_zero, List.takeWhile_cons_of_neg (by simp)]
      · rw [cText_cons hzero, List.takeWhile_cons_of_pos (by simp [hline, hzero])]
        rcases ih with hplain | hended
        · exact .inl (congrArg (c :: ·) hplain)
        · exact .inr (congrArg (c :: ·) hended)

theorem bodyOf_line {line : Bytes} (h : newline ∉ line) : bodyOf line = line := by
  rw [bodyOf, if_neg]
  exact fun hlast => h (List.mem_of_getLast? hlast)

theorem bodyOf_ended (line : Bytes) : bodyOf (line ++ [newline]) = line := by
  rw [bodyOf, if_pos (by simp), List.dropLast_concat]

/-- What the server is sent of the string in the buffer. -/
theorem bodyOf_taken (input : Bytes) :
    bodyOf (cText (throughNewline (input.take (requestSize - 1)) ++ [0])) = firstLine input := by
  rcases taken_text (input.take (requestSize - 1)) with hplain | hended
  · rw [hplain]
    exact bodyOf_line (firstLine_newline input)
  · rw [hended]
    exact bodyOf_ended _

theorem cText_zero (text : Bytes) : 0 ∉ cText text := by
  intro hmem
  have hpasses := List.mem_takeWhile_imp hmem
  simp at hpasses

end Lines

section Runs

variable {execute : Request → Response} {input : Bytes} {events : List Event} {s : State}

/-- The C string that the client sends. -/
def requestText (input : Bytes) : Bytes :=
  cText (throughNewline (input.take (requestSize - 1)) ++ [0])

theorem requestText_body (input : Bytes) : bodyOf (requestText input) = firstLine input :=
  bodyOf_taken input

theorem runOnce_sends (send : Bytes → Option Bytes) (hinput : input ≠ []) :
    clientCoreRunOnce send input =
      match send (requestText input) with
      | none => (1, [])
      | some response => (0, cText (response ++ [0])) := by
  rw [clientCoreRunOnce, fgets, if_neg hinput]
  rfl

/-- The exchange of the client with a gateway that answers each line. -/
def exchange (execute : Request → Response) (events : List Event) (input : Bytes) : Option State :=
  run (fun line => responseText (reply execute line)) events (start (requestText input))

theorem fits_input (h : Answered (reply execute (firstLine input))) :
    Fits (requestText input) (fun line => responseText (reply execute line)) := by
  apply fits_answered
  · exact cText_zero _
  · rw [requestText_body]
    exact firstLine_newline input
  · rw [requestText_body]
    exact firstLine_short input
  · rw [requestText_body]
    exact h

/-- What the server makes of the line is what its answer answers. -/
theorem receive_reply {reads : List ReadResult} {line : Bytes}
    (hread : readLine reads lineLen = .line line) (hzero : 0 ∉ line) :
    (∀ resp, receive reads = .answered resp → reply execute line = resp) ∧
      ∀ request, receive reads = .parsed request → reply execute line = execute request := by
  have htext : cText line = line := by
    rw [cText, List.takeWhile_eq_self_iff]
    intro c hc
    rw [decide_eq_true_eq]
    rintro rfl
    exact hzero hc
  rw [receive, hread]
  cases line with
  | nil =>
    constructor
    · intro resp hresp
      exact Received.answered.inj hresp
    · intro request hrequest
      cases hrequest
  | cons c cs =>
    show (∀ resp, parseLine (cText (c :: cs)) = .answered resp → _ = _) ∧
      ∀ request, parseLine (cText (c :: cs)) = .parsed request → _ = _
    rw [htext, parseLine, reply, if_neg (List.cons_ne_nil c cs)]
    cases parseRequestJson (c :: cs) with
    | error errbuf =>
      constructor
      · intro resp hresp
        exact Received.answered.inj hresp
      · intro request hrequest
        cases hrequest
    | ok request =>
      constructor
      · intro resp hresp
        cases hresp
      · intro request' hrequest
        exact congrArg execute (Received.parsed.inj hrequest)

/-- What comes of the first line of an input: the server reads it and nothing
else, and once the calls are over the client prints the answer to it, from
which a decoder recovers the answer's fields. -/
structure Printed (execute : Request → Response) (input : Bytes) (s : State) : Prop where
  line : ∀ line, s.server.line = some line → line = firstLine input ∧
    (∀ resp, receive s.reads = .answered resp → reply execute line = resp) ∧
      ∀ request, receive s.reads = .parsed request → reply execute line = execute request
  printed : ∀ response, s.client = .returned response → ∃ object,
    clientCoreRunOnce (fun _ => some response) input = (0, object ++ [newline]) ∧
      newline ∉ object ∧
      decodeObject object = some (responseMembers (reply execute (firstLine input)))
  completes : ∃ more t response,
    run (fun line => responseText (reply execute line)) more s = some t ∧
      t.client = .returned response ∧ t.server.isClosed = true

/-- Whatever the input, and in whatever pieces and order the calls move the
bytes: the client prints the gateway's answer to the first line of its input. -/
theorem exchange_printed (hinput : input ≠ []) (h : Answered (reply execute (firstLine input)))
    (hrun : exchange execute events input = some s) : Printed execute input s := by
  have hfits := fits_input h
  have hinv := run_inv hfits (start_inv _ _) hrun
  have hobject (line : Bytes) : newline ∉ responseText (reply execute line) :=
    fun hmem => responseText_line _ _ hmem rfl
  constructor
  · intro line hline
    obtain ⟨rfl, hread⟩ := hinv.server.line_read hline
    rw [requestText_body] at hread ⊢
    exact ⟨rfl, receive_reply hread (firstLine_zero input)⟩
  · intro response hresponse
    obtain ⟨hwhole, _⟩ := clientAt_returned hinv.client hresponse
    rw [requestText_body] at hwhole
    refine ⟨responseText (reply execute (firstLine input)), ?_, hobject _, responseText_decoded _⟩
    rw [runOnce_sends _ hinput, hwhole]
    simp only
    rw [cText_terminated]
    intro hzero
    rcases List.mem_append.mp hzero with hzero | hzero
    · exact absurd (responseText_printable _ 0 hzero) (by decide)
    · cases List.mem_singleton.mp hzero
  · obtain ⟨more, t, hmore, hclient, hserver⟩ := exchange_completes hfits hrun
    refine ⟨more, t, _, hmore, hclient, ?_⟩
    rw [hserver]
    rfl

def sampleExecute (request : Request) : Response :=
  (schedulerExecute absentToken none sampleRegistry request ()).resp

/-- A request to sign twice, and another line behind it. -/
def sampleInput : Bytes := signTwiceLine (lit "hello") ++ newline :: lit "more"

/-- Some calls take the request there and the answer back. -/
theorem sample_printed : ∃ events s response,
    exchange sampleExecute events sampleInput = some s ∧ s.client = .returned response ∧
      Printed sampleExecute sampleInput s := by
  have hanswered : Answered (reply sampleExecute (firstLine sampleInput)) :=
    (answered_iff _).mpr (by decide +kernel)
  obtain ⟨events, s, hrun, hclient, _⟩ :=
    exchange_completes (fits_input hanswered) (show run _ [] _ = some _ from rfl)
  exact ⟨events, s, _, hrun, hclient, exchange_printed (by decide) hanswered hrun⟩

end Runs

end Ucisdk.ClientCore
