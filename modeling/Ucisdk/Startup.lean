import Ucisdk.DeviceIds
import Ucisdk.GatewayAnswers
import Ucisdk.GatewayPin

/-!
# From the files to the answers

The gateway is started on the devices and the PIN of its two files. From then
on the PIN stands between the connections and the devices, however the workers
take turns: what comes without it is turned away before it takes a slot.
-/

set_option autoImplicit false

namespace Ucisdk.Startup

open Ucisdk.CString Ucisdk.Common Ucisdk.Protocol Ucisdk.Queue Ucisdk.Resource Ucisdk.Translator
open Ucisdk.Driver Ucisdk.Scheduler Ucisdk.StepCalls Ucisdk.SequenceRun Ucisdk.Config
open Ucisdk.ConfigExact Ucisdk.DeviceIds Ucisdk.GatewayPin
open Ucisdk.Server hiding State Step Reachable
open Ucisdk.Connection hiding readLine
open Ucisdk.Tasks Ucisdk.Gateway Ucisdk.GatewayAnswers
open Scan.Tokens Relation

section Main

def defaultWorkers : ℕ := 4

/-- What `server_run` is started with: its arguments, and the number of
workers it creates. -/
structure Started where
  socketPath : Bytes
  registry : Registry
  settings : GatewaySettings
  workerCount : ℕ

def serverRun (socketPath : Bytes) (registry : Registry) (settings : GatewaySettings)
    (workerCount : ℕ) : Started where
  socketPath := socketPath
  registry := registry
  settings := settings
  workerCount := if workerCount > defaultWorkers then defaultWorkers else workerCount

def deviceConfigPath (argv : List Bytes) : Bytes := argv.getD 1 (lit "./configs/devices.conf")

def gatewayConfigPath (argv : List Bytes) : Bytes := argv.getD 2 (lit "./configs/gateway.conf")

def socketPath (argv : List Bytes) : Bytes := argv.getD 3 (lit "/tmp/crypto_gateway.sock")

/-- `main` up to its call of `server_run`, or the text that it logs before it
exits with 1. The files are what `fopen` finds. -/
def main (files : Bytes → Option Bytes) (argv : List Bytes) : Except Bytes Started :=
  match loadResourcesFromFile (deviceConfigPath argv) (files (deviceConfigPath argv))
      registryInit with
  | ⟨some errbuf, _⟩ => .error (lit "device config load failed: " ++ errbuf.bytes)
  | ⟨none, registry⟩ =>
    match loadGatewaySettings (gatewayConfigPath argv) (files (gatewayConfigPath argv)) with
    | .error errbuf => .error (lit "gateway config load failed: " ++ errbuf.bytes)
    | .ok settings => .ok (serverRun (socketPath argv) registry settings defaultWorkers)

variable {files : Bytes → Option Bytes} {argv : List Bytes} {started : Started}

theorem main_loaded (h : main files argv = .ok started) :
    ∃ file, files (deviceConfigPath argv) = some file ∧
      loadResourcesFromFile (deviceConfigPath argv) (some file) registryInit =
        ⟨none, started.registry⟩ := by
  rw [main] at h
  split at h
  · cases h
  · rename_i registry hload
    split at h
    · cases h
    · rw [Except.ok.injEq] at h
      subst h
      cases hfile : files (deviceConfigPath argv) with
      | none =>
        rw [hfile, loadResourcesFromFile, Loaded.mk.injEq] at hload
        cases hload.1
      | some file =>
        rw [hfile] at hload
        exact ⟨file, rfl, hload⟩

theorem main_pin (h : main files argv = .ok started) :
    started.settings.gatewayPin.bytes ≠ [] := by
  rw [main] at h
  split at h
  · cases h
  · split at h
    · cases h
    · rename_i settings hload
      rw [Except.ok.injEq] at h
      subst h
      exact loadGatewaySettings_pin hload

theorem main_workers (h : main files argv = .ok started) :
    started.workerCount = defaultWorkers := by
  rw [main] at h
  split at h
  · cases h
  · split at h
    · cases h
    · rw [Except.ok.injEq] at h
      subst h
      rfl

end Main

section Loaded

theorem loadCapabilities_inflight {ts : List Bytes} {device loaded : DeviceResource}
    (h : loadCapabilities ts device = .ok loaded) : loaded.inflight = device.inflight := by
  induction ts generalizing device with
  | nil =>
    rw [loadCapabilities, Except.ok.injEq] at h
    rw [h]
  | cons token ts ih =>
    rw [loadCapabilities] at h
    split at h
    · split at h
      · cases h
      · have hrest := ih h
        exact hrest
    · cases h

theorem readLine_inflight {buffer caps : Bytes} {device : DeviceResource}
    (h : readLine buffer = some (device, caps)) : device.inflight = 0 := by
  simp only [readLine] at h
  split at h
  · cases h
  · rw [readFields] at h
    split at h
    · rw [Option.some.injEq, Prod.mk.injEq] at h
      rw [← h.1]
    · cases h

theorem registered_inflight {buffer : Bytes} {device : DeviceResource}
    (h : registered buffer = some device) : device.inflight = 0 := by
  rw [registered] at h
  split at h
  · cases h
  · rename_i fields caps hread
    cases hcaps : loadCapabilities (tokens isBar (store 512 caps).bytes) fields with
    | error errbuf =>
      rw [hcaps] at h
      cases h
    | ok loaded =>
      rw [hcaps] at h
      obtain rfl : loaded = device := Option.some.inj h
      rw [loadCapabilities_inflight hcaps, readLine_inflight hread]

/-- A loaded device starts with no request in flight. -/
theorem loaded_zero {path file : Bytes} {registry : Registry}
    (h : loadResourcesFromFile path (some file) registryInit = ⟨none, registry⟩) :
    ∀ d ∈ registry.devices, d.inflight = 0 := by
  obtain ⟨hdevices, _⟩ := loadLines_ok h
  intro d hd
  rw [hdevices, registryInit, List.nil_append, List.mem_filterMap] at hd
  obtain ⟨buffer, _, hregistered⟩ := hd
  exact registered_inflight hregistered

end Loaded

section Guard

variable {σ : Type} {skf : SkfAdapter σ} {settings : GatewaySettings} {registry : Registry}
  {req : Request}

/-- Without the PIN a call ends where it begins. -/
theorem worked_wrong (hset : settings.gatewayPin.bytes ≠ [])
    (hpin : req.userPin ≠ settings.gatewayPin) {task : Task}
    (h : Worked skf (some settings) registry req task) :
    task = .done (-1) (refusal req.requestId req.domain req.action) := by
  induction h with
  | start => rw [taskOf, validateGatewayPin_wrong hset hpin]
  | advance _ now world _ ih => rw [ih, advance]

/-- A task that will not tell its client that it is not authorized. -/
def Permitted : Task → Prop
  | .done _ resp => resp.status ≠ .unauthorized
  | _ => True

theorem next_permitted (req : Request) (after : After) (outcome : Outcome) :
    Permitted (next req after outcome) := by
  cases outcome with
  | error errbuf =>
    cases after with
    | plain => simp [next, Permitted, buildErrorResponse]
    | sequence steps resp => simp [next, Permitted, buildErrorResponse]
  | ok resp =>
    cases after with
    | plain => simp [next, Permitted]
    | sequence steps joined =>
      cases steps with
      | nil => simp [next, Permitted]
      | cons step steps => trivial

theorem taskOf_permitted (hpin : req.userPin = settings.gatewayPin) :
    Permitted (taskOf (some settings) req) := by
  rw [taskOf]
  rcases validateGatewayPin_right hpin with hproceed | ⟨resp, hanswered, hok⟩
  · rw [hproceed]
    simp only
    split
    · split
      · simp [Permitted, buildErrorResponse]
      · simp [Permitted, Response.zero]
      · trivial
    · trivial
  · rw [hanswered]
    simp [Permitted, hok]

theorem advance_permitted {task : Task} (h : Permitted task) (now : Registry) (world : σ) :
    Permitted (advance skf now world task).task := by
  cases task with
  | stepping call after =>
    rw [advance]
    split
    · exact next_permitted _ _ _
    · trivial
  | holding call after slot =>
    rw [advance]
    split
    · trivial
    · split <;> trivial
  | leaving call after slot outcome =>
    rw [advance]
    split
    · trivial
    · exact next_permitted _ _ _
  | done rc resp => exact h

theorem worked_right (hpin : req.userPin = settings.gatewayPin) {task : Task}
    (h : Worked skf (some settings) registry req task) : Permitted task := by
  induction h with
  | start => exact taskOf_permitted hpin
  | advance _ now world _ ih => exact advance_permitted ih now world

end Guard

section Runs

variable {κ σ : Type} {skf : SkfAdapter σ} {settings : GatewaySettings}
  {sent : ℕ → List ReadResult} {early : Prop} {registry : Registry} {s t : State κ}

/-- Without the PIN a request gets its refusal, or that the queue is stopped. -/
theorem own_refused (hset : settings.gatewayPin.bytes ≠ []) {call : Handed κ}
    (hown : Own skf (some settings) registry sent call) {request : Request}
    (hread : receive (sent call.fd) = .parsed request)
    (hpin : request.userPin ≠ settings.gatewayPin) :
    call.resp = refusal request.requestId request.domain request.action ∨
      call.worker = none ∧
        call.resp = loopResponse request.requestId.bytes .backendFail (lit "queue stopped") := by
  rw [Own] at hown
  split at hown
  · rename_i hnone
    rcases hown with hanswered | ⟨request', hread', hresp⟩
    · rw [hread] at hanswered
      cases hanswered
    · obtain rfl := Received.parsed.inj (hread.symm.trans hread')
      exact .inr ⟨hnone, hresp⟩
  · obtain ⟨request', rc, hread', hworked⟩ := hown
    obtain rfl := Received.parsed.inj (hread.symm.trans hread')
    have hdone := worked_wrong hset hpin hworked
    rw [Task.done.injEq] at hdone
    exact .inl hdone.2

/-- Only a request without the PIN is told that it is not authorized. -/
theorem own_unauthorized {call : Handed κ} (hown : Own skf (some settings) registry sent call)
    (hstatus : call.resp.status = .unauthorized) :
    ∃ request, receive (sent call.fd) = .parsed request ∧
      request.userPin ≠ settings.gatewayPin := by
  rw [Own] at hown
  split at hown
  · rcases hown with hanswered | ⟨request, _, hresp⟩
    · rw [receive_answered hanswered] at hstatus
      cases hstatus
    · rw [hresp, loopResponse] at hstatus
      cases hstatus
  · obtain ⟨request, rc, hread, hworked⟩ := hown
    refine ⟨request, hread, fun hpin => ?_⟩
    exact worked_right hpin hworked hstatus

variable [DecidableEq κ]

/-- What the PIN keeps from a gateway, in every state of it. -/
structure Guarded (settings : GatewaySettings) (registry : Registry) (sent : ℕ → List ReadResult)
    (s : State κ) : Prop where
  kept : ∀ k job, s.server.worker k = .serving job → job.request.userPin ≠ settings.gatewayPin →
    s.task k = some (.done (-1) (refusal job.request.requestId job.request.domain
      job.request.action))
  held : ∀ k slot, slotOf (s.task k) = some slot →
    ∃ job, s.server.worker k = .serving job ∧ job.request.userPin = settings.gatewayPin
  refused : ∀ call ∈ s.server.handed, ∀ request, receive (sent call.fd) = .parsed request →
    request.userPin ≠ settings.gatewayPin →
      call.resp = refusal request.requestId request.domain request.action ∨
        call.worker = none ∧
          call.resp = loopResponse request.requestId.bytes .backendFail (lit "queue stopped")
  unauthorized : ∀ call ∈ s.server.handed, call.resp.status = .unauthorized →
    ∃ request, receive (sent call.fd) = .parsed request ∧
      request.userPin ≠ settings.gatewayPin
  untouched : (∀ fd request, receive (sent fd) = .parsed request →
    request.userPin ≠ settings.gatewayPin) → s.registry = registry

theorem reachable_kept (hset : settings.gatewayPin.bytes ≠ [])
    (h : Reachable skf (some settings) sent early registry s) {k : κ} {job : Job}
    (hk : s.server.worker k = .serving job) (hpin : job.request.userPin ≠ settings.gatewayPin) :
    s.task k = some (.done (-1) (refusal job.request.requestId job.request.domain
      job.request.action)) := by
  obtain ⟨task, htask, hworked⟩ := (reachable_working h).serving k job hk
  rw [htask, worked_wrong hset hpin hworked]

variable [Fintype κ]

/-- Where nobody has the PIN, nobody touches the devices. -/
theorem reachable_untouched (hset : settings.gatewayPin.bytes ≠ [])
    (hwrong : ∀ fd request, receive (sent fd) = .parsed request →
      request.userPin ≠ settings.gatewayPin)
    (h : Reachable skf (some settings) sent early registry s) : s.registry = registry := by
  induction h with
  | refl => rfl
  | tail hrun hstep ih =>
    cases hstep with
    | advance k task world hk hgoes =>
      have hworking := reachable_working hrun
      rename_i u
      by_cases hserving : ∃ job, u.server.worker k = .serving job
      · obtain ⟨job, hjob⟩ := hserving
        have hheard := (hearing_heard (reachable_server hrun)).serving k job hjob
        rw [reachable_kept hset hrun hjob (hwrong _ _ hheard), Option.some.injEq] at hk
        exact absurd ⟨_, _, hk.symm⟩ hgoes
      · rw [hworking.free k (fun job hjob => hserving ⟨job, hjob⟩)] at hk
        cases hk
    | _ => exact ih

theorem reachable_guarded (hset : settings.gatewayPin.bytes ≠ [])
    (h : Reachable skf (some settings) sent early registry s) :
    Guarded settings registry sent s := by
  constructor
  · intro k job hk hpin
    exact reachable_kept hset h hk hpin
  · intro k slot hslot
    by_cases hserving : ∃ job, s.server.worker k = .serving job
    · obtain ⟨job, hjob⟩ := hserving
      refine ⟨job, hjob, ?_⟩
      by_contra hpin
      rw [reachable_kept hset h hjob hpin] at hslot
      cases hslot
    · rw [(reachable_working h).free k (fun job hjob => hserving ⟨job, hjob⟩)] at hslot
      cases hslot
  · intro call hmem request hread hpin
    exact own_refused hset (reachable_own h call hmem) hread hpin
  · intro call hmem hstatus
    exact own_unauthorized (reachable_own h call hmem) hstatus
  · intro hwrong
    exact reachable_untouched hset hwrong h

/-- A gateway that `main` started: the PIN of its file is not empty and guards
the devices in every state, and the counters of these are exact where the file
declares no id twice. -/
theorem main_guarded {files : Bytes → Option Bytes} {argv : List Bytes} {started : Started}
    (h : main files argv = .ok started) {s : State (Fin started.workerCount)}
    (hrun : Reachable skf (some started.settings) sent early started.registry s) :
    started.settings.gatewayPin.bytes ≠ [] ∧
      Guarded started.settings started.registry sent s ∧
      ∃ file, files (deviceConfigPath argv) = some file ∧
        ((declaredIds file).Nodup → CountersExact started.registry s) := by
  have hset := main_pin h
  obtain ⟨file, hfile, hload⟩ := main_loaded h
  refine ⟨hset, reachable_guarded hset hrun, file, hfile, fun hids => ?_⟩
  rw [← loaded_ids hload] at hids
  have hzero := loaded_zero hload
  constructor
  · intro i d hd
    exact slot_counted hids hzero hrun hd
  · intro d hd
    exact device_limited hids hzero hrun hd
  · intro d hd
    exact device_workers hids hzero hrun hd
  · exact settled_registry hids hzero hrun

end Runs

section Samples

/-- The two files at their default paths. -/
def sampleFiles (path : Bytes) : Option Bytes :=
  if path = lit "./configs/devices.conf" then some softlibConf
  else if path = lit "./configs/gateway.conf" then some gatewayConf
  else none

def sampleArgs : List Bytes := [lit "crypto_gateway"]

theorem sample_started : ∃ started, main sampleFiles sampleArgs = .ok started := by
  have hsome : (main sampleFiles sampleArgs).toOption.isSome = true := by
    decide
  cases hmain : main sampleFiles sampleArgs with
  | error text =>
    rw [hmain] at hsome
    cases hsome
  | ok started => exact ⟨started, rfl⟩

/-- A request without a PIN, served by the gateway of these files. -/
theorem sample_guarded : ∃ (started : Started) (s : State (Fin started.workerCount)),
    main sampleFiles sampleArgs = .ok started ∧
      (∃ k, s.server.handed = [⟨some k, 0, refusal (signTwice (lit "hello")).requestId .asym .sign⟩]) ∧
      Guarded started.settings started.registry (fun _ => sampleReads) s ∧
      CountersExact started.registry s := by
  obtain ⟨started, hmain⟩ := sample_started
  have hworkers := main_workers hmain
  have hset := main_pin hmain
  have hpin : (signTwice (lit "hello")).userPin ≠ started.settings.gatewayPin := by
    intro h
    rw [← h] at hset
    exact hset rfl
  obtain ⟨s, hrun, hhanded, _⟩ :=
    served_run absentToken (some started.settings) False started.registry ()
      (⟨0, by rw [hworkers]; decide⟩ : Fin started.workerCount) sample_received
  rw [schedulerExecute_wrong hset hpin] at hhanded
  obtain ⟨_, hguarded, file, hfile, hcounters⟩ := main_guarded hmain hrun
  obtain rfl : softlibConf = file := Option.some.inj hfile
  exact ⟨started, s, hmain, ⟨_, hhanded⟩, hguarded, hcounters (by decide)⟩

end Samples

end Ucisdk.Startup
