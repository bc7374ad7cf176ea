import Mathlib.Data.List.TakeWhile
import Ucisdk.Server

/-!
# The line of a connection

The accept loop reads a line byte by byte into a buffer and parses the text
in front of the first NUL there. It takes no notice of a line that did not
end in the buffer, so a request may be the parse of the first part of a line.
-/

set_option autoImplicit false

namespace Ucisdk.Connection

open Ucisdk.CString Ucisdk.Common Ucisdk.Protocol Ucisdk.Queue Ucisdk.Server
open Flow Relation

section Reading

def lineLen : ℕ := 2048

def newline : UInt8 := 10

/-- What one call of `read` for one byte brings. -/
inductive ReadResult where
  | byte (c : UInt8)
  | closed
  | interrupted
  | failed

/-- What `read_line` leaves in its buffer, or its failure, or that it waits
for more. -/
inductive LineRead where
  | line (buf : Bytes)
  | failed
  | waiting

def LineRead.cons (c : UInt8) : LineRead → LineRead
  | line buf => line (c :: buf)
  | failed => failed
  | waiting => waiting

/-- The loop of `read_line`; `room` is `buf_sz - 1 - i`. -/
def readLoop : ℕ → List ReadResult → LineRead
  | 0, _ => .line []
  | _ + 1, [] => .waiting
  | _ + 1, .closed :: _ => .line []
  | _ + 1, .failed :: _ => .failed
  | room + 1, .interrupted :: rs => readLoop (room + 1) rs
  | room + 1, .byte c :: rs => if c = newline then .line [] else (readLoop room rs).cons c

def readLine (reads : List ReadResult) (bufSz : ℕ) : LineRead := readLoop (bufSz - 1) reads

/-- The C string that a buffer holds. -/
def cText (buf : Bytes) : Bytes := buf.takeWhile (· ≠ 0)

/-- What the accept loop makes of a connection: its answer, or a request. -/
inductive Received where
  | answered (resp : Response)
  | parsed (request : Request)
  | waiting

def badRequest (text : Bytes) : Response := loopResponse (lit "unknown") .badRequest text

def parseLine (line : Bytes) : Received :=
  match parseRequestJson line with
  | .error errbuf => .answered (badRequest errbuf.bytes)
  | .ok request => .parsed request

def receive (reads : List ReadResult) : Received :=
  match readLine reads lineLen with
  | .waiting => .waiting
  | .failed => .answered (badRequest (lit "empty request"))
  | .line [] => .answered (badRequest (lit "empty request"))
  | .line buf => parseLine (cText buf)

/-- The text that the accept loop hands to the parser. -/
def parsedText (reads : List ReadResult) : Option Bytes :=
  match readLine reads lineLen with
  | .line buf => some (cText buf)
  | _ => none

/-- The bytes that arrive up to the newline, or up to the end of the stream. -/
inductive Delivers : List ReadResult → Bytes → Prop
  | newline (rs : List ReadResult) : Delivers (.byte newline :: rs) []
  | closed (rs : List ReadResult) : Delivers (.closed :: rs) []
  | interrupted {rs : List ReadResult} {line : Bytes} (h : Delivers rs line) :
      Delivers (.interrupted :: rs) line
  | byte {c : UInt8} {rs : List ReadResult} {line : Bytes} (hc : c ≠ newline)
      (h : Delivers rs line) : Delivers (.byte c :: rs) (c :: line)

/-- The text that is left of a line in the buffer. -/
def seen (line : Bytes) : Bytes := cText (line.take (lineLen - 1))

variable {reads : List ReadResult} {line : Bytes}

theorem readLoop_delivers (h : Delivers reads line) (room : ℕ) :
    readLoop room reads = .line (line.take room) := by
  induction h generalizing room with
  | newline rs => cases room <;> rfl
  | closed rs => cases room <;> rfl
  | interrupted h ih =>
    cases room with
    | zero => rfl
    | succ room => rw [readLoop, ih]
  | byte hc h ih =>
    cases room with
    | zero => rfl
    | succ room =>
      rw [readLoop, if_neg hc, ih]
      rfl

theorem parsedText_delivers (h : Delivers reads line) : parsedText reads = some (seen line) := by
  rw [parsedText, readLine, readLoop_delivers h, seen]

theorem seen_eq_iff (line : Bytes) : seen line = line ↔ line.length < lineLen ∧ 0 ∉ line := by
  constructor
  · intro h
    constructor
    · have hlen : (seen line).length ≤ lineLen - 1 :=
        (List.takeWhile_prefix _).length_le.trans (List.length_take_le _ _)
      rw [h] at hlen
      rw [lineLen] at hlen ⊢
      omega
    · intro hzero
      rw [← h] at hzero
      simpa using List.mem_takeWhile_imp hzero
  · rintro ⟨hlen, hzero⟩
    rw [seen, List.take_of_length_le (by omega), cText, List.takeWhile_eq_self_iff]
    intro c hc
    simpa using fun hc0 : c = 0 => hzero (hc0 ▸ hc)

theorem receive_parsed_iff (h : Delivers reads line) (request : Request) :
    receive reads = .parsed request ↔ parseRequestJson (seen line) = .ok request := by
  rw [receive, readLine, readLoop_delivers h]
  cases hbuf : line.take (lineLen - 1) with
  | nil =>
    have hnone : parseRequestJson (seen line) = .error (store errbufLen
        (lit "missing or invalid request_id")) := by
      rw [seen, hbuf]
      rfl
    simp [hnone]
  | cons c buf =>
    simp only [parseLine, seen, hbuf]
    cases parseRequestJson (cText (c :: buf)) <;> simp

theorem receive_answered {resp : Response} (h : receive reads = .answered resp) :
    resp.status = .badRequest := by
  rw [receive] at h
  split at h
  · simp at h
  · rw [← Received.answered.inj h]
    rfl
  · rw [← Received.answered.inj h]
    rfl
  · rw [parseLine] at h
    split at h
    · rw [← Received.answered.inj h]
      rfl
    · simp at h

end Reading

section Runs

variable {κ : Type} [DecidableEq κ]

/-- A step of the threads that reads from each connection what its client sent. -/
inductive Hears (sent : ℕ → List ReadResult) (early : Prop) : State κ → State κ → Prop
  | answered {s : State κ} (fd : ℕ) (resp : Response) (h : s.loop = .reading fd)
      (hread : receive (sent fd) = .answered resp) :
      Hears sent early s { s with
        loop := .accepting
        handed := s.handed ++ [⟨none, fd, resp⟩] }
  | parsed {s : State κ} (fd : ℕ) (request : Request) (h : s.loop = .reading fd)
      (hread : receive (sent fd) = .parsed request) :
      Hears sent early s { s with loop := .pushing ⟨fd, request⟩ }
  | other {s t : State κ} (hstep : Step early s t)
      (hloop : ∀ fd, s.loop = .reading fd → t.loop = .reading fd) : Hears sent early s t

variable {sent : ℕ → List ReadResult} {early : Prop} {s t : State κ}

theorem hears_step (h : Hears sent early s t) : Step early s t := by
  cases h with
  | answered fd resp h hread =>
    rw [receive] at hread
    split at hread
    · simp at hread
    · rw [← Received.answered.inj hread]
      exact .unread fd h
    · rw [← Received.answered.inj hread]
      exact .unread fd h
    · rename_i buf _ _
      rw [parseLine] at hread
      split at hread
      · rename_i errbuf hparse
        rw [← Received.answered.inj hread]
        exact .unparsed fd (cText buf) errbuf h hparse
      · simp at hread
  | parsed fd request h hread =>
    rw [receive] at hread
    split at hread
    · simp at hread
    · simp at hread
    · simp at hread
    · rename_i buf _ _
      rw [parseLine] at hread
      split at hread
      · simp at hread
      · rename_i other hparse
        rw [← Received.parsed.inj hread]
        exact .parsed fd (cText buf) other h hparse
  | other hstep hloop => exact hstep

/-- What is known of every connection: jobs are what it was received as, and
an accepted one is with the loop, in a job or answered. -/
structure Heard (sent : ℕ → List ReadResult) (s : State κ) : Prop where
  pushing : ∀ job, s.loop = .pushing job → receive (sent job.clientFd) = .parsed job.request
  pushed : ∀ job ∈ s.pushed, receive (sent job.clientFd) = .parsed job.request
  serving : ∀ k job, s.worker k = .serving job →
    receive (sent job.clientFd) = .parsed job.request
  handed : ∀ call ∈ s.handed, receive (sent call.fd) = .answered call.resp ∨
    ∃ request, receive (sent call.fd) = .parsed request
  accounted : ∀ fd < s.accepted, s.loop.fd = some fd ∨ (∃ job ∈ s.pushed, job.clientFd = fd) ∨
    ∃ call ∈ s.handed, call.fd = fd

omit [DecidableEq κ] in
theorem heard_start : Heard sent (start κ) := by
  constructor
  · intro job h
    simp [start] at h
  · intro job h
    simp [start] at h
  · intro k job h
    simp [start] at h
  · intro call h
    simp [start] at h
  · intro fd h
    simp [start] at h

omit [DecidableEq κ] in
/-- A call of the loop for the connection in its hand. -/
theorem heard_handed (hheard : Heard sent s) {fd : ℕ} (resp : Response) (hfd : s.loop.fd = some fd)
    (hresp : receive (sent fd) = .answered resp ∨ ∃ request, receive (sent fd) = .parsed request) :
    Heard sent { s with loop := .accepting, handed := s.handed ++ [⟨none, fd, resp⟩] } := by
  constructor
  · intro job h
    simp at h
  · exact hheard.pushed
  · exact hheard.serving
  · intro call h
    rcases List.mem_append.mp h with h | h
    · exact hheard.handed call h
    · rw [List.mem_singleton] at h
      subst h
      exact hresp
  · intro fd' h
    rcases hheard.accounted fd' h with hloop | hjob | ⟨call, hcall, hcfd⟩
    · rw [hfd, Option.some.injEq] at hloop
      exact .inr (.inr ⟨⟨none, fd, resp⟩, by simp, hloop⟩)
    · exact .inr (.inl hjob)
    · exact .inr (.inr ⟨call, by simp [hcall], hcfd⟩)

/-- A worker's new phase is the only thing to look at. -/
theorem serving_update {worker : κ → WorkerPhase} {P : Job → Prop}
    (h : ∀ k job, worker k = .serving job → P job) (k : κ) (phase : WorkerPhase)
    (hphase : ∀ job, phase = .serving job → P job) :
    ∀ k' job, Function.update worker k phase k' = .serving job → P job := by
  intro k' job hk
  by_cases hkk : k' = k
  · rw [hkk, Function.update_self] at hk
    exact hphase job hk
  · rw [Function.update_of_ne hkk] at hk
    exact h k' job hk

/-- Everything but the loop's own answers and requests. -/
theorem heard_other [Fintype κ] (hinv : Inv early s) (hheard : Heard sent s) (hstep : Step early s t)
    (hloop : ∀ fd, s.loop = .reading fd → t.loop = .reading fd) : Heard sent t := by
  cases hstep with
  | accept h =>
    refine ⟨?_, hheard.pushed, hheard.serving, hheard.handed, ?_⟩
    · intro job hjob
      simp at hjob
    · intro fd hfd
      rcases Nat.lt_succ_iff_lt_or_eq.mp hfd with hlt | rfl
      · rcases hheard.accounted fd hlt with hin | hrest
        · simp [h, LoopPhase.fd] at hin
        · exact .inr hrest
      · exact .inl rfl
  | unread fd h => simp at hloop; exact absurd h (hloop fd)
  | unparsed fd line errbuf h hline => simp at hloop; exact absurd h (hloop fd)
  | parsed fd line request h hline => simp at hloop; exact absurd h (hloop fd)
  | push job queue h hpush =>
    refine ⟨?_, ?_, hheard.serving, hheard.handed, ?_⟩
    · intro job' hjob
      simp at hjob
    · intro job' hjob
      rcases List.mem_append.mp hjob with hjob | hjob
      · exact hheard.pushed job' hjob
      · rw [List.mem_singleton] at hjob
        subst hjob
        exact hheard.pushing job' h
    · intro fd hfd
      rcases hheard.accounted fd hfd with hin | ⟨job', hjob, hjfd⟩ | hcall
      · rw [h, LoopPhase.fd, Option.some.injEq] at hin
        exact .inr (.inl ⟨job, by simp, hin⟩)
      · exact .inr (.inl ⟨job', by simp [hjob], hjfd⟩)
      · exact .inr (.inr hcall)
  | refused job h hpush =>
    exact heard_handed hheard _ (by rw [h]; rfl) (.inr ⟨job.request, hheard.pushing job h⟩)
  | leave h =>
    refine ⟨?_, hheard.pushed, hheard.serving, hheard.handed, ?_⟩
    · intro job hjob
      simp at hjob
    · intro fd hfd
      rcases hheard.accounted fd hfd with hin | hrest
      · simp [h, LoopPhase.fd] at hin
      · exact .inr hrest
  | stop h => exact ⟨hheard.pushing, hheard.pushed, hheard.serving, hheard.handed, hheard.accounted⟩
  | pop k job queue h hpop =>
    have hcontents := (queuePop_taken hinv.valid hpop).2.2.2
    have hjob : job ∈ s.pushed := by
      rw [hinv.fifo, hcontents]
      simp
    have hserving := serving_update hheard.serving k (.serving job) (by
      intro job' hjob'
      rw [WorkerPhase.serving.injEq] at hjob'
      exact hjob' ▸ hheard.pushed job hjob)
    exact ⟨hheard.pushing, hheard.pushed, hserving, hheard.handed, hheard.accounted⟩
  | drained k h hpop =>
    have hserving := serving_update hheard.serving k .returned (by simp)
    exact ⟨hheard.pushing, hheard.pushed, hserving, hheard.handed, hheard.accounted⟩
  | serve k job resp h =>
    have hserving := serving_update hheard.serving k .popping (by simp)
    refine ⟨hheard.pushing, hheard.pushed, hserving, ?_, ?_⟩
    · intro call hcall
      rcases List.mem_append.mp hcall with hcall | hcall
      · exact hheard.handed call hcall
      · rw [List.mem_singleton] at hcall
        subst hcall
        exact .inr ⟨job.request, hheard.serving k job h⟩
    · intro fd hfd
      rcases hheard.accounted fd hfd with hin | hjob | ⟨call, hcall, hcfd⟩
      · exact .inl hin
      · exact .inr (.inl hjob)
      · exact .inr (.inr ⟨call, by simp [hcall], hcfd⟩)

theorem heard_step [Fintype κ] (hinv : Inv early s) (hheard : Heard sent s)
    (h : Hears sent early s t) : Heard sent t := by
  cases h with
  | answered fd resp h hread => exact heard_handed hheard resp (by rw [h]; rfl) (.inl hread)
  | parsed fd request h hread =>
    refine ⟨?_, hheard.pushed, hheard.serving, hheard.handed, ?_⟩
    · intro job hjob
      rw [LoopPhase.pushing.injEq] at hjob
      subst hjob
      exact hread
    · intro fd' hfd
      have haccounted := hheard.accounted fd' hfd
      rw [h] at haccounted
      exact haccounted
  | other hstep hloop => exact heard_other hinv hheard hstep hloop

def HearingRun (sent : ℕ → List ReadResult) (early : Prop) (s : State κ) : Prop :=
  ReflTransGen (Hears sent early) (start κ) s

theorem hearing_reachable (h : HearingRun sent early s) : Reachable early s := by
  induction h with
  | refl => exact .refl
  | tail _ hstep ih => exact ih.tail (hears_step hstep)

theorem hearing_heard [Fintype κ] (h : HearingRun sent early s) : Heard sent s := by
  induction h with
  | refl => exact heard_start
  | tail hrun hstep ih => exact heard_step (reachable_inv (hearing_reachable hrun)) ih hstep

end Runs

section Honoured

variable {κ : Type} {reads : List ReadResult} {line : Bytes} {sent : ℕ → List ReadResult}
  {early : Prop} {s : State κ} {fd : ℕ}

/-- Of a connection only the whole line is parsed, and a line that does not
fit the buffer is answered as a bad request. -/
structure Honoured (reads : List ReadResult) (line : Bytes) (fd : ℕ) (s : State κ) : Prop where
  enqueued : ∀ job ∈ s.pushed, job.clientFd = fd →
    parsedText reads = some line ∧ parseRequestJson line = .ok job.request
  executed : ∀ k job, s.worker k = .serving job → job.clientFd = fd →
    parsedText reads = some line ∧ parseRequestJson line = .ok job.request
  overlong : lineLen ≤ line.length → (∀ job ∈ s.pushed, job.clientFd ≠ fd) ∧
    (∀ call ∈ s.handed, call.fd = fd → call.resp.status = .badRequest) ∧
    (fd < s.accepted → s.loop.fd ≠ some fd → ∃ call ∈ s.handed, call.fd = fd)

theorem honoured_whole (h : Delivers reads line) (hsent : sent fd = reads) (hheard : Heard sent s)
    (hwhole : seen line = line) : Honoured reads line fd s := by
  have hparsed {request : Request} (hread : receive (sent fd) = .parsed request) :
      parsedText reads = some line ∧ parseRequestJson line = .ok request := by
    rw [hsent, receive_parsed_iff h, hwhole] at hread
    rw [parsedText_delivers h, hwhole]
    exact ⟨rfl, hread⟩
  constructor
  · intro job hjob hfd
    exact hparsed (hfd ▸ hheard.pushed job hjob)
  · intro k job hk hfd
    exact hparsed (hfd ▸ hheard.serving k job hk)
  · intro hlong
    have hfits := ((seen_eq_iff line).mp hwhole).1
    omega

theorem honoured_refused (h : Delivers reads line) (hsent : sent fd = reads)
    (hheard : Heard sent s) {errbuf : ErrText} (herr : parseRequestJson (seen line) = .error errbuf) :
    Honoured reads line fd s := by
  have hnone (request : Request) : receive (sent fd) ≠ .parsed request := by
    rw [hsent, ne_eq, receive_parsed_iff h, herr]
    simp
  constructor
  · intro job hjob hfd
    exact absurd (hfd ▸ hheard.pushed job hjob) (hnone job.request)
  · intro k job hk hfd
    exact absurd (hfd ▸ hheard.serving k job hk) (hnone job.request)
  · intro _
    refine ⟨?_, ?_, ?_⟩
    · intro job hjob hfd
      exact hnone job.request (hfd ▸ hheard.pushed job hjob)
    · intro call hcall hfd
      rcases hheard.handed call hcall with hanswered | ⟨request, hparsed⟩
      · exact receive_answered hanswered
      · exact absurd (hfd ▸ hparsed) (hnone request)
    · intro haccepted hloop
      rcases hheard.accounted fd haccepted with hin | ⟨job, hjob, hfd⟩ | hcall
      · exact absurd hin hloop
      · exact absurd (hfd ▸ hheard.pushed job hjob) (hnone job.request)
      · exact hcall

variable [DecidableEq κ]

/-- One connection that is parsed is queued. -/
theorem queued_run {request : Request} (hread : receive reads = .parsed request) :
    ∃ s : State κ, HearingRun (fun _ => reads) early s ∧ s.pushed = [⟨0, request⟩] := by
  have hrun := (((ReflTransGen.refl (r := Hears (fun _ => reads) early) (a := start κ)).tail
    (.other (.accept rfl) (by simp [start]))).tail (.parsed 0 request rfl hread)).tail
    (.other (.push ⟨0, request⟩ _ rfl rfl) (by simp))
  exact ⟨_, hrun, rfl⟩

/-- The line of a connection is honoured in every run exactly if all of it is
seen, or what is seen of it is no request. -/
theorem honoured_iff [Fintype κ] (early : Prop) (h : Delivers reads line) :
    (∀ sent (s : State κ) fd, sent fd = reads → HearingRun sent early s →
      Honoured reads line fd s) ↔
    (line.length < lineLen ∧ 0 ∉ line) ∨ ∃ errbuf, parseRequestJson (seen line) = .error errbuf := by
  rw [← seen_eq_iff]
  constructor
  · intro hall
    cases hparse : parseRequestJson (seen line) with
    | error errbuf => exact .inr ⟨errbuf, rfl⟩
    | ok request =>
      obtain ⟨s, hrun, hpushed⟩ := queued_run (κ := κ) ((receive_parsed_iff h request).mpr hparse)
      have hhonoured := (hall _ s 0 rfl hrun).enqueued ⟨0, request⟩ (by simp [hpushed]) rfl
      rw [parsedText_delivers h, Option.some.injEq] at hhonoured
      exact .inl hhonoured.1
  · rintro (hwhole | ⟨errbuf, herr⟩) sent s fd hsent hrun
    · exact honoured_whole h hsent (hearing_heard hrun) hwhole
    · exact honoured_refused h hsent (hearing_heard hrun) herr

theorem delivers_bytes {line : Bytes} (h : newline ∉ line) (rest : List ReadResult) :
    Delivers (line.map .byte ++ .byte newline :: rest) line := by
  induction line with
  | nil => exact .newline rest
  | cons c line ih =>
    rw [List.mem_cons, not_or] at h
    exact .byte (Ne.symm h.1) (ih h.2)

theorem sample_line_honoured :
    Delivers (sampleLine.map .byte ++ [.byte newline]) sampleLine ∧
      ∀ sent (s : State Unit) fd, sent fd = sampleLine.map .byte ++ [.byte newline] →
        HearingRun sent False s →
        Honoured (sampleLine.map .byte ++ [.byte newline]) sampleLine fd s := by
  have hdelivers : Delivers (sampleLine.map .byte ++ [.byte newline]) sampleLine :=
    delivers_bytes (by decide) []
  exact ⟨hdelivers, (honoured_iff False hdelivers).mpr (.inl (by decide))⟩

/-- A request that names its device behind many blanks. -/
def longLine : Bytes :=
  lit "\x7b\"request_id\":\"r1\",\"domain\":\"hash\",\"action\":\"hash\",\"payload\":\"hi\"," ++
    List.replicate 2048 32 ++ lit "\"device_hint\":\"dev-b\"\x7d"

def longReads : List ReadResult := longLine.map .byte ++ [.byte newline]

/-- The whole line asks for a device, and the job that is queued does not. -/
theorem long_line_cut :
    lineLen ≤ longLine.length ∧ Delivers longReads longLine ∧
      (parseRequestJson longLine).toOption.map (fun r => r.deviceHint.bytes) =
        some (lit "dev-b") ∧
      ∃ s : State Unit, HearingRun (fun _ => longReads) False s ∧
        (∃ job ∈ s.pushed, job.clientFd = 0 ∧ job.request.deviceHint.bytes = []) ∧
        ¬Honoured longReads longLine 0 s := by
  have hdelivers : Delivers longReads longLine := delivers_bytes (by decide +kernel) []
  have hlong : lineLen ≤ longLine.length := by decide +kernel
  have hcut : (parseRequestJson (seen longLine)).toOption.map (fun r => r.deviceHint.bytes) =
      some [] := by
    decide +kernel
  refine ⟨hlong, hdelivers, by decide +kernel, ?_⟩
  cases hparse : parseRequestJson (seen longLine) with
  | error errbuf => simp [hparse, Except.toOption] at hcut
  | ok request =>
    rw [hparse] at hcut
    obtain ⟨s, hrun, hpushed⟩ :=
      queued_run (κ := Unit) ((receive_parsed_iff hdelivers request).mpr hparse)
    refine ⟨s, hrun, ⟨⟨0, request⟩, by simp [hpushed], rfl, ?_⟩, ?_⟩
    · simpa [Except.toOption] using hcut
    · intro hhonoured
      exact (hhonoured.overlong hlong).1 ⟨0, request⟩ (by simp [hpushed]) rfl

end Honoured

end Ucisdk.Connection
