import Ucisdk.Gm3000

/-!
# What a handler leaves open

Every call of a handler that opens something is read as an acquisition, every
call that closes something as a release. A handler leaves nothing open, except
where the library was loaded and lacks a symbol that has to be there.
-/

set_option autoImplicit false

namespace Ucisdk.SkfRelease

open Ucisdk.CString Ucisdk.Common Ucisdk.Translator
open Ucisdk.SkfApi Ucisdk.SkfText Ucisdk.SkfSession Ucisdk.Gm3000
open Flow.Calls

inductive Resource where
  | library (handle : Ptr)
  | memory (block : Ptr)
  | device (handle : Ptr)
  | application (handle : Ptr)
  | container (handle : Ptr)
  | keyOrHash (handle : Ptr)
  deriving DecidableEq, Repr

/-- What `dlopen` or `calloc` returned is held unless it is `NULL`. -/
def gained (ptr : Ptr) (resource : Ptr → Resource) : Move Resource :=
  if ptr = 0 then .none else .acquire (resource ptr)

/-- What a vendor function opened is held if it answered `SAR_OK`. -/
def opens (opened : Opened) (resource : Ptr → Resource) : Move Resource :=
  if opened.rv = sarOk then .acquire (resource opened.handle) else .none

def moves : Call skf → Move Resource
  | ⟨.dlopen _, handle⟩ => gained handle .library
  | ⟨.dlclose handle, _⟩ => .release (.library handle)
  | ⟨.calloc _, block⟩ => gained block .memory
  | ⟨.free block, _⟩ => .release (.memory block)
  | ⟨.connectDev _, opened⟩ => opens opened .device
  | ⟨.disConnectDev dev, _⟩ => .release (.device dev)
  | ⟨.openApplication _ _, opened⟩ => opens opened .application
  | ⟨.closeApplication app, _⟩ => .release (.application app)
  | ⟨.openContainer _ _, opened⟩ => opens opened .container
  | ⟨.closeContainer container, _⟩ => .release (.container container)
  | ⟨.setSymmKey _ _ _, opened⟩ => opens opened .keyOrHash
  | ⟨.digestInit _ _, opened⟩ => opens opened .keyOrHash
  | ⟨.closeHandle handle, _⟩ => .release (.keyOrHash handle)
  | _ => .none

/-- Everything acquired was released once, in the reverse order. -/
def Released (calls : List (Call skf)) : Prop := replay moves calls [] = some []

def closeSymbols : List SkfSymbol :=
  [.disConnectDev, .closeApplication, .closeContainer, .closeHandle]

section Assumptions

variable {σ : Type}

/-- A handle is not `NULL` exactly when its open call succeeded, and the close
functions are exported. -/
structure Dependable (lib : Library σ) : Prop where
  connectDev : ∀ name s,
    (lib (.connectDev name) s).1.rv = sarOk ↔ (lib (.connectDev name) s).1.handle ≠ 0
  openApplication : ∀ dev name s,
    (lib (.openApplication dev name) s).1.rv = sarOk ↔
      (lib (.openApplication dev name) s).1.handle ≠ 0
  openContainer : ∀ app name s,
    (lib (.openContainer app name) s).1.rv = sarOk ↔
      (lib (.openContainer app name) s).1.handle ≠ 0
  setSymmKey : ∀ dev key alg s,
    (lib (.setSymmKey dev key alg) s).1.rv = sarOk ↔
      (lib (.setSymmKey dev key alg) s).1.handle ≠ 0
  digestInit : ∀ dev alg s,
    (lib (.digestInit dev alg) s).1.rv = sarOk ↔ (lib (.digestInit dev alg) s).1.handle ≠ 0
  closes : ∀ handle s, ∀ sym ∈ closeSymbols, (lib (.dlsym handle sym) s).1 ≠ 0

/-- The symbols are found one after the other, as `open_runtime` asks for them. -/
def resolves (lib : Library σ) (handle : Ptr) : List SkfSymbol → σ → Bool
  | [], _ => true
  | sym :: rest, s =>
    let asked := lib (.dlsym handle sym) (lib .dlerror s).2
    asked.1 ≠ 0 && resolves lib handle rest asked.2

/-- The library is not loaded, or it has every symbol that has to be there. -/
def loadsWhole (env : Env) (lib : Library σ) (s : σ) : Bool :=
  let opened := lib (.dlopen (libPath env)) s
  opened.1 = 0 || resolves lib opened.1 requiredSymbols opened.2

/-- The handler returns before it loads the library. -/
def refuses (env : Env) (h : Gm3000Handler) (call : TranslatedCall) : Bool :=
  match h with
  | .deviceManage => false
  | .keyManage => false
  | .asymCrypto => inputToBytes call.call.payload.bytes gm3000MaxIo = none
  | .symCrypto => (symInputs env call).isOk = false
  | .hashOps => inputToBytes call.call.payload.bytes gm3000MaxIo = none
  | .fileOps => fileName call = []
  | .pqcOps => inputToBytes call.call.payload.bytes gm3000MaxIo = none

end Assumptions

section Rules

variable {σ : Type} {lib : Library σ} {held : List Resource}

/-- A part of a program that leaves the open resources as they are. -/
def Idle {α : Type} (act : Run σ α) : Prop :=
  ∀ held, Holds moves held act fun _ held' => held' = held

theorem idle_pure {α : Type} (a : α) : Idle (pure a : Run σ α) := fun _ => holds_pure rfl

theorem idle_call {op : SkfCall} (h : ∀ reply, moves ⟨op, reply⟩ = .none) : Idle (call lib op) :=
  fun _ => holds_idle h

theorem idle_bind {α β : Type} {act : Run σ α} {next : α → Run σ β} (hact : Idle act)
    (hnext : ∀ a, Idle (next a)) : Idle (act >>= next) := by
  intro held
  apply holds_bind (hact held)
  intro a held' hheld
  subst hheld
  exact hnext a held'

theorem idle_perform {α : Type} {args : Status α} {op : α → SkfCall}
    {answer : (a : α) → (op a).Reply → Status Bytes}
    (h : ∀ a reply, moves ⟨op a, reply⟩ = .none) : Idle (perform lib args op answer) := by
  cases args with
  | error err => exact idle_pure _
  | ok a =>
    apply idle_bind (idle_call (h a))
    intro reply
    exact idle_pure _

theorem idle_attempt {α : Type} {rt : Runtime} {sym : SkfSymbol} {args : Status α}
    {op : α → SkfCall} {answer : (a : α) → (op a).Reply → Status Bytes}
    (h : ∀ a reply, moves ⟨op a, reply⟩ = .none) : Idle (attempt lib rt sym args op answer) := by
  rw [attempt]
  split
  · exact idle_pure _
  · exact idle_perform h

/-- A handle that may be `NULL`, as a list of what is held. -/
def heldIf (handle : Ptr) (resource : Ptr → Resource) : List Resource :=
  if handle = 0 then [] else [resource handle]

def sessionHeld (sess : Session) : List Resource :=
  heldIf sess.container .container ++ (heldIf sess.app .application ++ heldIf sess.dev .device)

theorem closeIf_holds {handle : Ptr} {op : Ptr → SkfCall} {resource : Ptr → Resource}
    (hmove : ∀ reply, moves ⟨op handle, reply⟩ = .release (resource handle)) (found : Bool)
    (hfound : found = true) :
    Holds moves (heldIf handle resource ++ held) (closeIf lib handle found op)
      fun _ held' => held' = held := by
  rw [closeIf]
  by_cases hnull : handle = 0
  · rw [if_neg (by simp [hnull]), heldIf, if_pos hnull]
    exact holds_pure rfl
  · rw [if_pos ⟨hnull, hfound⟩, heldIf, if_neg hnull]
    have hcall : Holds moves (resource handle :: held) (call lib (op handle))
        fun _ held' => held' = held := by
      apply holds_call
      intro s
      refine ⟨held, ?_, rfl⟩
      rw [hmove, Move.apply, if_pos rfl]
    apply holds_bind hcall
    intro _ held' hheld
    exact holds_pure hheld

/-- An open call makes its handle part of what is held. -/
theorem opened_holds (held : List Resource) (op : SkfCall) {resource : Ptr → Resource}
    (opened : skf.Reply op → Opened)
    (hmove : ∀ reply, moves ⟨op, reply⟩ = opens (opened reply) resource)
    (hlib : ∀ s, (opened (lib op s).1).rv = sarOk ↔ (opened (lib op s).1).handle ≠ 0) :
    Holds moves held (call lib op) fun reply held' =>
      held' = heldIf (opened reply).handle resource ++ held ∧
        ((opened reply).rv = sarOk ↔ (opened reply).handle ≠ 0) := by
  apply holds_call
  intro s
  refine ⟨_, ?_, rfl, hlib s⟩
  rw [hmove, opens, heldIf]
  by_cases hok : (opened (lib op s).1).rv = sarOk
  · rw [if_pos hok, if_neg ((hlib s).mp hok)]
    rfl
  · have hnull : (opened (lib op s).1).handle = 0 := by
      by_contra hne
      exact hok ((hlib s).mpr hne)
    rw [if_neg hok, if_pos hnull]
    rfl

end Rules

section Opening

variable {σ : Type} {env : Env} {lib : Library σ} {held : List Resource}

theorem lastDlError_idle : Idle (lastDlError lib) := by
  apply idle_bind (idle_call fun _ => rfl)
  intro msg
  exact idle_pure _

theorem loadSymbol_holds (hlib : Dependable lib) (handle : Ptr) (sym : SkfSymbol) (required : Bool) :
    Holds moves held (loadSymbol lib handle sym required) fun v held' =>
      held' = held ∧ ∀ found, v = .ok found → sym ∈ closeSymbols → found = true := by
  apply holds_bind (idle_call (fun _ => rfl) held)
  intro _ held' hheld
  subst hheld
  have hsym : Holds moves held' (call lib (.dlsym handle sym)) fun ptr held'' =>
      held'' = held' ∧ (sym ∈ closeSymbols → ptr ≠ 0) := by
    apply holds_call
    intro s
    exact ⟨held', rfl, rfl, hlib.closes handle s sym⟩
  apply holds_bind hsym
  rintro ptr held'' ⟨hheld, hptr⟩
  subst hheld
  by_cases hnull : ptr = 0
  · rw [if_pos hnull]
    cases required with
    | true =>
      apply holds_bind (lastDlError_idle held'')
      intro msg held' hheld
      exact holds_pure ⟨hheld, by simp [fail]⟩
    | false =>
      apply holds_pure
      constructor
      · rfl
      · intro found _ hmem
        exact absurd hnull (hptr hmem)
  · rw [if_neg hnull]
    apply holds_pure
    constructor
    · rfl
    · intro found hfound _
      exact (Except.ok.inj hfound).symm

/-- The loads keep the library and lose no symbol; a close function is found
when it is asked for. -/
theorem loadSymbols_holds (held : List Resource) (hlib : Dependable lib) (required : Bool)
    (syms : List SkfSymbol) (rt : Runtime) :
    Holds moves held (loadSymbols lib required syms rt) fun v held' =>
      held' = held ∧ ∀ rt', v = .ok rt' → rt'.lib = rt.lib ∧
        ∀ sym ∈ closeSymbols, sym ∈ syms ∨ rt.found sym = true → rt'.found sym = true := by
  induction syms generalizing rt held with
  | nil =>
    apply holds_pure
    constructor
    · rfl
    · intro rt' hrt
      rw [← Except.ok.inj hrt]
      exact ⟨rfl, fun sym _ h => h.resolve_left (by simp)⟩
  | cons sym syms ih =>
    apply holds_bind (loadSymbol_holds hlib rt.lib sym required)
    rintro v held' ⟨hheld, hv⟩
    subst hheld
    cases v with
    | error err => exact holds_pure ⟨rfl, by simp⟩
    | ok ptr =>
      apply holds_imp (ih held' { rt with found := Function.update rt.found sym ptr })
      rintro v held'' ⟨hheld, hload⟩
      refine ⟨hheld, fun rt' hrt => ?_⟩
      obtain ⟨hsame, hfound⟩ := hload rt' hrt
      refine ⟨hsame, fun sym' hclose h => hfound sym' hclose ?_⟩
      show sym' ∈ syms ∨ Function.update rt.found sym ptr sym' = true
      by_cases hsym : sym' = sym
      · right
        rw [hsym, Function.update_self]
        exact hv ptr rfl (hsym ▸ hclose)
      · rw [Function.update_of_ne hsym]
        cases h with
        | inl hmem => exact .inl ((List.mem_cons.mp hmem).resolve_left hsym)
        | inr hrt => exact .inr hrt

theorem loadSymbol_found {handle : Ptr} {sym : SkfSymbol} {s : σ}
    (h : (lib (.dlsym handle sym) (lib .dlerror s).2).1 ≠ 0) (required : Bool) :
    (loadSymbol lib handle sym required s).value = .ok true ∧
      (loadSymbol lib handle sym required s).state =
        (lib (.dlsym handle sym) (lib .dlerror s).2).2 := by
  simp [loadSymbol, bind_run, call, h]

theorem loadSymbol_missing {handle : Ptr} {sym : SkfSymbol} {s : σ}
    (h : (lib (.dlsym handle sym) (lib .dlerror s).2).1 = 0) :
    (loadSymbol lib handle sym true s).value.isOk = false := by
  simp [loadSymbol, bind_run, call, h, fail, lastDlError, Except.isOk, Except.toBool]

theorem loadSymbol_optional (lib : Library σ) (handle : Ptr) (sym : SkfSymbol) (s : σ) :
    (loadSymbol lib handle sym false s).value.isOk = true := by
  by_cases h : (lib (.dlsym handle sym) (lib .dlerror s).2).1 = 0
  · simp [loadSymbol, bind_run, call, h, Except.isOk, Except.toBool]
  · rw [(loadSymbol_found h false).1]
    rfl

theorem loadSymbols_required (lib : Library σ) (syms : List SkfSymbol) (rt : Runtime) (s : σ) :
    (loadSymbols lib true syms rt s).value.isOk = resolves lib rt.lib syms s := by
  induction syms generalizing rt s with
  | nil => rfl
  | cons sym syms ih =>
    by_cases h : (lib (.dlsym rt.lib sym) (lib .dlerror s).2).1 = 0
    · have hmissing := loadSymbol_missing h
      rw [loadSymbols, bind_run, resolves]
      cases hv : (loadSymbol lib rt.lib sym true s).value with
      | error err => simp [h, Except.isOk, Except.toBool]
      | ok ptr => simp [hv, Except.isOk, Except.toBool] at hmissing
    · obtain ⟨hv, hs⟩ := loadSymbol_found h true
      rw [loadSymbols, bind_run, resolves, hv, hs]
      simp only [ih, h, ne_eq, not_false_eq_true, decide_true, Bool.true_and]

theorem loadSymbols_optional (lib : Library σ) (syms : List SkfSymbol) (rt : Runtime) (s : σ) :
    (loadSymbols lib false syms rt s).value.isOk = true := by
  induction syms generalizing rt s with
  | nil => rfl
  | cons sym syms ih =>
    have hok := loadSymbol_optional lib rt.lib sym s
    rw [loadSymbols, bind_run]
    cases hv : (loadSymbol lib rt.lib sym false s).value with
    | error err => simp [hv, Except.isOk, Except.toBool] at hok
    | ok ptr => exact ih _ _

/-- What is still open when the library could not be loaded whole. -/
def leftOpen (env : Env) (lib : Library σ) (s : σ) : List Resource :=
  if loadsWhole env lib s = true then [] else [.library (lib (.dlopen (libPath env)) s).1]

/-- The library is loaded and can close what it opens. -/
def Usable (rt : Runtime) : Prop := rt.lib ≠ 0 ∧ ∀ sym ∈ closeSymbols, rt.found sym = true

def Loaded (left : List Resource) (v : Status Runtime) (held : List Resource) : Prop :=
  match v with
  | .error _ => held = left
  | .ok rt => left = [] ∧ Usable rt ∧ held = [.library rt.lib]

/-- The loads after `dlopen`: they fail at a symbol that has to be there. -/
theorem loads_holds (hlib : Dependable lib) {handle : Ptr} (hne : handle ≠ 0) (s : σ) :
    HoldsAt moves s [.library handle]
      (do
        match ← loadSymbols lib true requiredSymbols ⟨handle, fun _ => false⟩ with
        | .error err => pure (.error err)
        | .ok rt => loadSymbols lib false optionalSymbols rt)
      (Loaded (if resolves lib handle requiredSymbols s = true then [] else [.library handle])) := by
  have hrequired := loadSymbols_required lib requiredSymbols ⟨handle, fun _ => false⟩ s
  obtain ⟨held', hreplay, hheld, hfirst⟩ :=
    loadSymbols_holds [.library handle] hlib true requiredSymbols
      ⟨handle, fun _ => false⟩ s
  subst hheld
  apply holdsAt_then hreplay
  cases hv : (loadSymbols lib true requiredSymbols ⟨handle, fun _ => false⟩ s).value with
  | error err =>
    rw [hv] at hrequired
    rw [← hrequired]
    exact holdsAt_pure rfl
  | ok rt =>
    rw [hv] at hrequired
    rw [← hrequired]
    obtain ⟨hsame, hfound⟩ := hfirst rt hv
    obtain ⟨held', hreplay, hheld, hsecond⟩ :=
      loadSymbols_holds [.library handle] hlib false optionalSymbols rt
        (loadSymbols lib true requiredSymbols ⟨handle, fun _ => false⟩ s).state
    refine ⟨held', hreplay, ?_⟩
    have hok := loadSymbols_optional lib optionalSymbols rt
      (loadSymbols lib true requiredSymbols ⟨handle, fun _ => false⟩ s).state
    cases hv' : (loadSymbols lib false optionalSymbols rt
        (loadSymbols lib true requiredSymbols ⟨handle, fun _ => false⟩ s).state).value with
    | error err => simp [hv', Except.isOk, Except.toBool] at hok
    | ok rt' =>
      obtain ⟨hsame', hfound'⟩ := hsecond rt' hv'
      have hlibrary : rt'.lib = handle := hsame'.trans hsame
      refine ⟨rfl, ⟨hlibrary ▸ hne, fun sym hclose => hfound' sym hclose ?_⟩, ?_⟩
      · have hasked : sym ∈ optionalSymbols ∨ sym ∈ requiredSymbols := by
          revert hclose
          cases sym <;> decide
        exact hasked.imp_right fun hmem => hfound sym hclose (.inl hmem)
      · rw [hheld, hlibrary]

/-- The library stays loaded only where a symbol that has to be there is missing. -/
theorem openRuntime_holds (hlib : Dependable lib) (s : σ) :
    HoldsAt moves s [] (openRuntime env lib) (Loaded (leftOpen env lib s)) := by
  by_cases hnull : (lib (.dlopen (libPath env)) s).1 = 0
  · have hleft : leftOpen env lib s = [] := by simp [leftOpen, loadsWhole, hnull]
    have hreplay : replay moves (call lib (.dlopen (libPath env)) s).calls [] = some [] := by
      rw [call, replay_one, moves, gained, if_pos hnull]
      rfl
    apply holdsAt_then hreplay
    show HoldsAt _ _ _ (if (lib (.dlopen (libPath env)) s).1 = 0 then _ else _) _
    rw [if_pos hnull]
    apply holdsAt_bind (lastDlError_idle [] _)
    intro msg held' hheld
    apply holds_pure
    rw [hleft]
    exact hheld
  · have hleft : leftOpen env lib s = if resolves lib (lib (.dlopen (libPath env)) s).1
        requiredSymbols (lib (.dlopen (libPath env)) s).2 = true then []
        else [.library (lib (.dlopen (libPath env)) s).1] := by
      simp [leftOpen, loadsWhole, hnull]
    have hreplay : replay moves (call lib (.dlopen (libPath env)) s).calls [] =
        some [.library (lib (.dlopen (libPath env)) s).1] := by
      rw [call, replay_one, moves, gained, if_neg hnull]
      rfl
    apply holdsAt_then hreplay
    show HoldsAt _ _ _ (if (lib (.dlopen (libPath env)) s).1 = 0 then _ else _) _
    rw [if_neg hnull, hleft]
    exact loads_holds hlib hnull _

end Opening

section Sessions

variable {σ : Type} {env : Env} {lib : Library σ} {held rest : List Resource}

/-- The buffer of the enumeration is freed in every case. -/
theorem enumFirstDevice_idle : Idle (enumFirstDevice lib) := by
  intro held
  apply holds_bind (idle_call (fun _ => rfl) held)
  intro first held' hheld
  subst hheld
  split
  · exact holds_pure rfl
  · have hcalloc : Holds moves held' (call lib (.calloc (first.len.toNat + 1)))
        fun buf held'' => held'' = heldIf buf .memory ++ held' := by
      apply holds_call
      intro s
      refine ⟨_, ?_, rfl⟩
      rw [moves, gained, heldIf]
      split
      · rfl
      · rfl
    apply holds_bind hcalloc
    intro buf held'' hheld
    subst hheld
    by_cases hnull : buf = 0
    · rw [if_pos hnull, heldIf, if_pos hnull]
      exact holds_pure rfl
    · rw [if_neg hnull, heldIf, if_neg hnull]
      apply holds_bind (idle_call (fun _ => rfl) _)
      intro second held'' hheld
      subst hheld
      have hfree : Holds moves ([.memory buf] ++ held') (call lib (.free buf))
          fun _ held'' => held'' = held' := by
        apply holds_call
        intro s
        refine ⟨held', ?_, rfl⟩
        rw [moves, List.singleton_append, Move.apply, if_pos rfl]
      apply holds_bind hfree
      intro _ held'' hheld
      split
      · exact holds_pure hheld
      · exact holds_pure hheld

theorem deviceName_idle : Idle (deviceName env lib) := by
  rw [deviceName]
  split
  · exact idle_pure _
  · exact enumFirstDevice_idle

theorem openDevice_holds (hlib : Dependable lib) :
    Holds moves held (openDevice env lib) fun v held' =>
      held' = sessionHeld v.1 ++ held ∧ v.1.app = 0 ∧ v.1.container = 0 ∧
        (v.2.isOk = false → v.1.dev = 0) := by
  apply holds_bind (deviceName_idle held)
  intro v held' hheld
  subst hheld
  cases v with
  | error err => exact holds_pure ⟨rfl, rfl, rfl, fun _ => rfl⟩
  | ok name =>
    apply holds_bind (opened_holds _ _ (fun reply => reply) (fun _ => rfl) (hlib.connectDev name))
    rintro opened held'' ⟨hheld, hopened⟩
    subst hheld
    have hsess : heldIf opened.handle .device ++ held' =
        sessionHeld ⟨opened.handle, 0, 0⟩ ++ held' := rfl
    split
    · rename_i hrv
      apply holds_pure
      refine ⟨hsess, rfl, rfl, fun _ => ?_⟩
      by_contra hne
      exact hrv (hopened.mpr hne)
    · apply holds_pure
      exact ⟨hsess, rfl, rfl, by simp [Except.isOk, Except.toBool]⟩

theorem openApp_holds (hlib : Dependable lib) (rt : Runtime) (sess : Session) (happ : sess.app = 0)
    (hcontainer : sess.container = 0) :
    Holds moves (sessionHeld sess ++ rest) (openApp env lib rt sess) fun v held' =>
      held' = sessionHeld v.1 ++ rest ∧ v.1.container = 0 := by
  rw [openApp]
  split
  · exact holds_pure ⟨rfl, hcontainer⟩
  · split
    · exact holds_pure ⟨rfl, hcontainer⟩
    · rename_i name _
      apply holds_bind (opened_holds _ _ (fun reply => reply) (fun _ => rfl)
        (hlib.openApplication sess.dev name))
      rintro opened held' ⟨hheld, _⟩
      have hsess : heldIf opened.handle .application ++ (sessionHeld sess ++ rest) =
          sessionHeld { sess with app := opened.handle } ++ rest := by
        simp [sessionHeld, heldIf, happ, hcontainer]
      subst hheld
      split
      · exact holds_pure ⟨hsess, hcontainer⟩
      · exact holds_pure ⟨hsess, hcontainer⟩

theorem openContainer_holds (hlib : Dependable lib) (rt : Runtime) (sess : Session)
    (call : TranslatedCall) (hcontainer : sess.container = 0) :
    Holds moves (sessionHeld sess ++ rest) (openContainer env lib rt sess call) fun v held' =>
      held' = sessionHeld v.1 ++ rest := by
  rw [openContainer]
  split
  · exact holds_pure rfl
  · apply holds_bind (opened_holds _ _ (fun reply => reply) (fun _ => rfl)
      (hlib.openContainer sess.app (containerNameFromCall env call)))
    rintro opened held' ⟨hheld, _⟩
    have hsess : heldIf opened.handle .container ++ (sessionHeld sess ++ rest) =
        sessionHeld { sess with container := opened.handle } ++ rest := by
      simp [sessionHeld, heldIf, hcontainer]
    subst hheld
    split
    · exact holds_pure hsess
    · exact holds_pure hsess

theorem verifyPin_idle (sess : Session) (pin : Bytes) : Idle (verifyPin lib sess pin) := by
  apply idle_bind (idle_call fun _ => rfl)
  intro verified
  split
  · exact idle_pure _
  · exact idle_pure _

theorem verifyPinIfSet_idle (rt : Runtime) (sess : Session) :
    Idle (verifyPinIfSet env lib rt sess) := by
  rw [verifyPinIfSet]
  split
  · exact idle_pure _
  · split
    · exact idle_pure _
    · apply idle_bind (verifyPin_idle sess _)
      intro v
      cases v with
      | error err => exact idle_pure _
      | ok retry => exact idle_pure _

theorem closeSession_holds {rt : Runtime} (hrt : Usable rt) (sess : Session) :
    Holds moves (sessionHeld sess ++ rest) (closeSession lib rt sess)
      fun _ held' => held' = rest := by
  have hfound := hrt.2
  rw [sessionHeld, List.append_assoc, List.append_assoc]
  apply holds_bind (closeIf_holds (fun _ => rfl) _ (hfound _ (by decide)))
  intro _ held' hheld
  subst hheld
  apply holds_bind (closeIf_holds (fun _ => rfl) _ (hfound _ (by decide)))
  intro _ held' hheld
  subst hheld
  exact closeIf_holds (fun _ => rfl) _ rfl

theorem closeRuntime_holds {rt : Runtime} (hrt : Usable rt) :
    Holds moves [.library rt.lib] (closeRuntime lib rt) fun _ held' => held' = [] := by
  rw [closeRuntime, if_pos hrt.1]
  apply holds_call
  intro s
  refine ⟨[], ?_, rfl⟩
  rw [moves, Move.apply, if_pos rfl]

theorem finalize_holds {α : Type} {rt : Runtime} (hrt : Usable rt) (rc : α) (sess : Session) :
    Holds moves (sessionHeld sess ++ [.library rt.lib]) (finalizeErrorOrSuccess lib rc rt sess)
      fun v held' => v = rc ∧ held' = [] := by
  apply holds_bind (closeSession_holds hrt sess)
  intro _ held' hheld
  subst hheld
  apply holds_bind (closeRuntime_holds hrt)
  intro _ held' hheld
  exact holds_pure ⟨rfl, hheld⟩

/-- Either everything was opened, or only what `openRuntime` left is open. -/
def Ready (left : List Resource) (v : Status (Runtime × Session)) (held : List Resource) : Prop :=
  match v with
  | .error _ => held = left
  | .ok (rt, sess) => left = [] ∧ Usable rt ∧ held = sessionHeld sess ++ [.library rt.lib]

/-- Behind `openBase` there is no application and no container yet. -/
def Fresh (v : Status (Runtime × Session)) : Prop :=
  match v with
  | .error _ => True
  | .ok (_, sess) => sess.app = 0 ∧ sess.container = 0

theorem openBase_holds (hlib : Dependable lib) (s : σ) :
    HoldsAt moves s [] (openBase env lib) fun v held =>
      Ready (leftOpen env lib s) v held ∧ Fresh v := by
  apply holdsAt_bind (openRuntime_holds hlib s)
  intro v held hloaded
  cases v with
  | error err => exact holds_pure ⟨hloaded, trivial⟩
  | ok rt =>
    obtain ⟨hleft, hrt, hheld⟩ := hloaded
    subst hheld
    apply holds_bind (openDevice_holds hlib)
    rintro ⟨sess, v⟩ held ⟨hheld, happ, hcontainer, hdev⟩
    cases v with
    | error err =>
      have hnone : sessionHeld sess = [] := by
        have hnull : sess.dev = 0 := hdev rfl
        simp only at happ hcontainer
        simp [sessionHeld, heldIf, happ, hcontainer, hnull]
      rw [hnone, List.nil_append] at hheld
      subst hheld
      apply holds_bind (closeRuntime_holds hrt)
      intro _ held hheld
      apply holds_pure
      constructor
      · exact hheld.trans hleft.symm
      · trivial
    | ok _ => exact holds_pure ⟨⟨hleft, hrt, hheld⟩, happ, hcontainer⟩

/-- A failure behind `openBase` closes what was opened. -/
theorem give_up {α : Type} {left : List Resource} {rt : Runtime} (hrt : Usable rt)
    (hleft : left = []) (sess : Session) (err : Option ErrText)
    {post : Status α → List Resource → Prop} (hpost : post (.error err) left) :
    Holds moves (sessionHeld sess ++ [.library rt.lib])
      (finalizeErrorOrSuccess lib (.error err) rt sess) post := by
  apply holds_imp (finalize_holds hrt (.error err : Status α) sess)
  rintro v held ⟨hv, hheld⟩
  rw [hv, hheld, ← hleft]
  exact hpost

theorem openAppContainer_holds (hlib : Dependable lib) (call : TranslatedCall) (s : σ) :
    HoldsAt moves s [] (openAppContainer env lib call) (Ready (leftOpen env lib s)) := by
  apply holdsAt_bind (openBase_holds hlib s)
  rintro v held ⟨hready, hfresh⟩
  cases v with
  | error err => exact holds_pure hready
  | ok opened =>
    obtain ⟨rt, sess⟩ := opened
    obtain ⟨hleft, hrt, hheld⟩ := hready
    subst hheld
    apply holds_bind (openApp_holds hlib rt sess hfresh.1 hfresh.2)
    rintro ⟨sess, v⟩ held ⟨hheld, hcontainer⟩
    subst hheld
    cases v with
    | error err => exact give_up hrt hleft sess err rfl
    | ok _ =>
      apply holds_bind (verifyPinIfSet_idle rt sess _)
      intro v held hheld
      subst hheld
      cases v with
      | error err => exact give_up hrt hleft sess err rfl
      | ok _ =>
        apply holds_bind (openContainer_holds hlib rt sess call hcontainer)
        rintro ⟨sess, v⟩ held hheld
        subst hheld
        cases v with
        | error err => exact give_up hrt hleft sess err rfl
        | ok _ => exact holds_pure ⟨hleft, hrt, rfl⟩

end Sessions

section Operations

variable {σ : Type} {env : Env} {lib : Library σ} {held : List Resource}

theorem closeHandle_holds {rt : Runtime} (hrt : Usable rt) (handle : Ptr) :
    Holds moves (heldIf handle .keyOrHash ++ held)
      (closeIf lib handle (rt.found .closeHandle) .closeHandle) fun _ held' => held' = held :=
  closeIf_holds (fun _ => rfl) _ (hrt.2 _ (by decide))

theorem withHandle_holds {rt : Runtime} (hrt : Usable rt) (opened : Opened) (name : String)
    {op : Ptr → Run σ (Status Bytes)} (hop : ∀ handle, Idle (op handle)) :
    Holds moves (heldIf opened.handle .keyOrHash ++ held) (withHandle lib rt opened name op)
      fun _ held' => held' = held := by
  have hrc : Idle (if opened.rv ≠ sarOk then (pure (failed (lit name) opened.rv) : Run σ _)
      else op opened.handle) := by
    split
    · exact idle_pure _
    · exact hop _
  apply holds_bind (hrc _)
  intro rc held' hheld
  subst hheld
  apply holds_bind (closeHandle_holds hrt opened.handle)
  intro _ held' hheld
  exact holds_pure hheld

theorem deviceOp_idle (sess : Session) (call : TranslatedCall) : Idle (deviceOp lib sess call) := by
  rw [deviceOp]
  split
  · exact idle_perform fun _ _ => rfl
  · exact idle_perform fun _ _ => rfl
  · exact idle_pure _

theorem keyAccess_idle (rt : Runtime) (sess : Session) : Idle (keyAccess env lib rt sess) := by
  rw [keyAccess]
  split
  · exact idle_pure _
  · split
    · exact idle_pure _
    · apply idle_bind (verifyPin_idle sess _)
      intro v
      cases v with
      | error err => exact idle_pure _
      | ok retry => exact idle_pure _

theorem keyGeneratePair_idle (rt : Runtime) (sess : Session) (call : TranslatedCall) :
    Idle (keyGeneratePair lib rt sess call) := by
  rw [keyGeneratePair]
  split
  · exact idle_attempt fun _ _ => rfl
  · split
    · exact idle_attempt fun _ _ => rfl
    · exact idle_pure _

/-- The imported key is closed where it was set. -/
theorem importKey_idle (hlib : Dependable lib) {rt : Runtime} (hrt : Usable rt) (sess : Session)
    (call : TranslatedCall) : Idle (importKey lib rt sess call) := by
  intro held
  rw [importKey]
  split
  · exact holds_pure rfl
  · split
    · exact holds_pure rfl
    · rename_i key _
      apply holds_bind (opened_holds _ _ (fun reply => reply) (fun _ => rfl)
        (hlib.setSymmKey sess.dev key _))
      rintro opened held' ⟨hheld, hopened⟩
      subst hheld
      split
      · rename_i hrv
        have hnull : opened.handle = 0 := by
          by_contra hne
          exact hrv (hopened.mpr hne)
        apply holds_pure
        rw [heldIf, if_pos hnull]
        rfl
      · apply holds_bind (closeHandle_holds hrt opened.handle)
        intro _ held' hheld
        exact holds_pure hheld

theorem keyOp_idle (hlib : Dependable lib) {rt : Runtime} (hrt : Usable rt) (sess : Session)
    (call : TranslatedCall) : Idle (keyOp env lib rt sess call) := by
  rw [keyOp]
  split
  · exact keyAccess_idle rt sess
  · exact idle_pure _
  · exact keyGeneratePair_idle rt sess call
  · exact idle_attempt fun _ _ => rfl
  · exact importKey_idle hlib hrt sess call
  · exact idle_attempt fun _ _ => rfl
  · exact idle_pure _

theorem signOp_idle (rt : Runtime) (sess : Session) (call : TranslatedCall) (input : Bytes) :
    Idle (signOp lib rt sess call input) := by
  rw [signOp]
  split
  · exact idle_attempt fun _ _ => rfl
  · exact idle_attempt fun _ _ => rfl

theorem verifyOp_idle (rt : Runtime) (sess : Session) (call : TranslatedCall) (input : Bytes) :
    Idle (verifyOp lib rt sess call input) := by
  rw [verifyOp]
  split
  · exact idle_pure _
  · split
    · exact idle_attempt fun _ _ => rfl
    · split
      · exact idle_attempt fun _ _ => rfl
      · exact idle_pure _

theorem encryptOp_idle (rt : Runtime) (sess : Session) (call : TranslatedCall) (input : Bytes) :
    Idle (encryptOp lib rt sess call input) := by
  rw [encryptOp]
  split
  · exact idle_attempt fun _ _ => rfl
  · exact idle_attempt fun _ _ => rfl

theorem decryptOp_idle (rt : Runtime) (sess : Session) (call : TranslatedCall) (input : Bytes) :
    Idle (decryptOp lib rt sess call input) := by
  rw [decryptOp]
  split
  · exact idle_attempt fun _ _ => rfl
  · exact idle_attempt fun _ _ => rfl

theorem asymOp_idle (rt : Runtime) (sess : Session) (call : TranslatedCall) (input : Bytes) :
    Idle (asymOp lib rt sess call input) := by
  rw [asymOp]
  split
  · exact verifyOp_idle rt sess call input
  · split
    · exact signOp_idle rt sess call input
    · split
      · exact encryptOp_idle rt sess call input
      · split
        · exact decryptOp_idle rt sess call input
        · exact idle_pure _

theorem initThen_idle {init : Run σ Ulong} {op : Run σ Output} (hinit : Idle init) (hop : Idle op)
    (name : String) (lead : Bytes) (outSz : ℕ) : Idle (initThen init op name lead outSz) := by
  apply idle_bind hinit
  intro rv
  split
  · exact idle_pure _
  · apply idle_bind hop
    intro reply
    exact idle_pure _

theorem symOp_idle (rt : Runtime) (hkey : Ptr) (call : TranslatedCall) (input : Bytes) :
    Idle (symOp lib rt hkey call input) := by
  rw [symOp]
  split
  · split
    · exact idle_pure _
    · exact initThen_idle (idle_call fun _ => rfl) (idle_call fun _ => rfl) _ _ _
  · split
    · exact idle_pure _
    · exact initThen_idle (idle_call fun _ => rfl) (idle_call fun _ => rfl) _ _ _
  · exact idle_attempt fun _ _ => rfl
  · exact idle_pure _

theorem fileOp_idle (rt : Runtime) (sess : Session) (call : TranslatedCall) :
    Idle (fileOp lib rt sess call) := by
  rw [fileOp]
  split
  · exact idle_attempt fun _ _ => rfl
  · exact idle_attempt fun _ _ => rfl
  · exact idle_attempt fun _ _ => rfl
  · exact idle_attempt fun _ _ => rfl
  · exact idle_pure _

theorem pqcOp_idle (rt : Runtime) (sess : Session) (call : TranslatedCall) (input : Bytes) :
    Idle (pqcOp lib rt sess call input) := by
  rw [pqcOp]
  split
  · exact idle_attempt fun _ _ => rfl
  · exact idle_attempt fun _ _ => rfl
  · exact idle_attempt fun _ _ => rfl
  · exact idle_attempt fun _ _ => rfl
  · exact idle_pure _

end Operations

section Handlers

variable {σ : Type} {env : Env} {lib : Library σ}

/-- What a handler leaves open, whatever it returns. -/
def Leaves (left : List Resource) : Status Bytes → List Resource → Prop := fun _ held => held = left

theorem closes_after {left : List Resource} {rt : Runtime} (hrt : Usable rt) (hleft : left = [])
    (sess : Session) {op : Run σ (Status Bytes)} (hop : Idle op) :
    Holds moves (sessionHeld sess ++ [.library rt.lib])
      (op >>= fun rc => finalizeErrorOrSuccess lib rc rt sess) (Leaves left) := by
  apply holds_bind (hop _)
  intro rc held hheld
  subst hheld
  apply holds_imp (finalize_holds hrt rc sess)
  rintro _ held ⟨_, hheld⟩
  exact hheld.trans hleft.symm

/-- A handler that works on what `openBase` or `openAppContainer` opened. -/
theorem handler_holds {left : List Resource} {s : σ} {opening : Run σ (Status (Runtime × Session))}
    {next : Runtime → Session → Run σ (Status Bytes)}
    {fresh : Status (Runtime × Session) → Prop}
    (hopening : HoldsAt moves s [] opening fun v held => Ready left v held ∧ fresh v)
    (hnext : ∀ rt sess, left = [] → Usable rt → fresh (.ok (rt, sess)) →
      Holds moves (sessionHeld sess ++ [.library rt.lib]) (next rt sess) (Leaves left)) :
    HoldsAt moves s []
      (do
        match ← opening with
        | .error err => pure (.error err)
        | .ok (rt, sess) => next rt sess)
      (Leaves left) := by
  apply holdsAt_bind hopening
  rintro v held ⟨hready, hfresh⟩
  cases v with
  | error err => exact holds_pure hready
  | ok opened =>
    obtain ⟨rt, sess⟩ := opened
    obtain ⟨hleft, hrt, hheld⟩ := hready
    subst hheld
    exact hnext rt sess hleft hrt hfresh

theorem openForAsym_holds (hlib : Dependable lib) (call : TranslatedCall) (s : σ) :
    HoldsAt moves s [] (openForAsym env lib call) (Ready (leftOpen env lib s)) := by
  rw [openForAsym]
  split
  · exact holdsAt_imp (openBase_holds hlib s) fun _ _ h => h.1
  · exact openAppContainer_holds hlib call s

/-- An application that could not be opened ends the handler. -/
theorem onApp_holds (hlib : Dependable lib) {left : List Resource} {rt : Runtime} (hrt : Usable rt)
    (hleft : left = []) (sess : Session) (happ : sess.app = 0) (hcontainer : sess.container = 0)
    {op : Session → Run σ (Status Bytes)} (hop : ∀ sess, Idle (op sess)) :
    Holds moves (sessionHeld sess ++ [.library rt.lib])
      (do
        match ← openApp env lib rt sess with
        | (sess, .error err) => finalizeErrorOrSuccess lib (.error err) rt sess
        | (sess, .ok ()) =>
          let rc ← op sess
          finalizeErrorOrSuccess lib rc rt sess)
      (Leaves left) := by
  apply holds_bind (openApp_holds hlib rt sess happ hcontainer)
  rintro ⟨sess, v⟩ held ⟨hheld, _⟩
  subst hheld
  cases v with
  | error err => exact give_up hrt hleft sess err rfl
  | ok _ => exact closes_after hrt hleft sess (hop sess)

/-- A handle that is opened for one operation. -/
theorem onHandle_holds {left : List Resource} {rt : Runtime} (hrt : Usable rt) (hleft : left = [])
    (sess : Session) {opening : Run σ Opened}
    (hopening : Holds moves (sessionHeld sess ++ [.library rt.lib]) opening fun opened held =>
      held = heldIf opened.handle .keyOrHash ++ (sessionHeld sess ++ [.library rt.lib]) ∧
        (opened.rv = sarOk ↔ opened.handle ≠ 0))
    (name : String) {next : Ptr → Run σ (Status Bytes)} (hnext : ∀ handle, Idle (next handle)) :
    Holds moves (sessionHeld sess ++ [.library rt.lib])
      (do
        let opened ← opening
        let rc ← withHandle lib rt opened name next
        finalizeErrorOrSuccess lib rc rt sess)
      (Leaves left) := by
  apply holds_bind hopening
  rintro opened held ⟨hheld, _⟩
  subst hheld
  apply holds_bind (withHandle_holds hrt opened name hnext)
  intro rc held hheld
  subst hheld
  apply holds_imp (finalize_holds hrt rc sess)
  rintro _ held ⟨_, hheld⟩
  exact hheld.trans hleft.symm

theorem deviceManage_holds (hlib : Dependable lib) (call : TranslatedCall) (s : σ) :
    HoldsAt moves s [] (gm3000DeviceManage env lib call) (Leaves (leftOpen env lib s)) := by
  apply handler_holds (openBase_holds hlib s)
  intro rt sess hleft hrt _
  exact closes_after hrt hleft sess (deviceOp_idle sess call)

theorem keyManage_holds (hlib : Dependable lib) (call : TranslatedCall) (s : σ) :
    HoldsAt moves s [] (gm3000KeyManage env lib call) (Leaves (leftOpen env lib s)) := by
  rw [gm3000KeyManage]
  split
  · apply handler_holds (openBase_holds hlib s)
    intro rt sess hleft hrt hfresh
    exact onApp_holds hlib hrt hleft sess hfresh.1 hfresh.2
      fun sess => keyOp_idle hlib hrt sess call
  · have hopening : HoldsAt moves s [] (openAppContainer env lib call) fun v held =>
        Ready (leftOpen env lib s) v held ∧ True :=
      holdsAt_imp (openAppContainer_holds hlib call s) fun _ _ h => ⟨h, trivial⟩
    apply handler_holds hopening
    intro rt sess hleft hrt _
    exact closes_after hrt hleft sess (keyOp_idle hlib hrt sess call)

/-- What a handler with input checks leaves open. -/
def expected (env : Env) (lib : Library σ) (h : Gm3000Handler) (call : TranslatedCall) (s : σ) :
    List Resource :=
  if refuses env h call = true then [] else leftOpen env lib s

/-- A handler that refuses a payload it cannot decode, and else works on it. -/
theorem input_holds {h : Gm3000Handler} {call : TranslatedCall} {s : σ} {refusal : Status Bytes}
    {body : Bytes → Run σ (Status Bytes)}
    (hrefuses : refuses env h call = true ↔
      inputToBytes call.call.payload.bytes gm3000MaxIo = none)
    (hbody : ∀ input, HoldsAt moves s [] (body input) (Leaves (leftOpen env lib s))) :
    HoldsAt moves s []
      (match inputToBytes call.call.payload.bytes gm3000MaxIo with
        | none => pure refusal
        | some input => body input)
      (Leaves (expected env lib h call s)) := by
  rw [expected]
  cases hinput : inputToBytes call.call.payload.bytes gm3000MaxIo with
  | none =>
    rw [if_pos (hrefuses.mpr hinput)]
    exact holdsAt_pure rfl
  | some input =>
    rw [if_neg (mt hrefuses.mp (by simp [hinput]))]
    exact hbody input

theorem asymCrypto_holds (hlib : Dependable lib) (call : TranslatedCall) (s : σ) :
    HoldsAt moves s [] (gm3000AsymCrypto env lib call)
      (Leaves (expected env lib .asymCrypto call s)) := by
  have hopening : HoldsAt moves s [] (openForAsym env lib call) fun v held =>
      Ready (leftOpen env lib s) v held ∧ True :=
    holdsAt_imp (openForAsym_holds hlib call s) fun _ _ h => ⟨h, trivial⟩
  refine input_holds (by simp [refuses]) fun input => ?_
  apply handler_holds hopening
  intro rt sess hleft hrt _
  exact closes_after hrt hleft sess (asymOp_idle rt sess call input)

theorem symCrypto_holds (hlib : Dependable lib) (call : TranslatedCall) (s : σ) :
    HoldsAt moves s [] (gm3000SymCrypto env lib call)
      (Leaves (expected env lib .symCrypto call s)) := by
  rw [gm3000SymCrypto, expected]
  cases hinputs : symInputs env call with
  | error err =>
    rw [if_pos (by simp [refuses, hinputs, Except.isOk, Except.toBool])]
    exact holdsAt_pure rfl
  | ok inputs =>
    obtain ⟨key, input⟩ := inputs
    rw [if_neg (by simp [refuses, hinputs, Except.isOk, Except.toBool])]
    apply handler_holds (openBase_holds hlib s)
    intro rt sess hleft hrt _
    split
    · exact give_up hrt hleft sess _ rfl
    · have hopening := opened_holds (sessionHeld sess ++ [.library rt.lib])
        (.setSymmKey sess.dev key (orSm4Cbc (algToSkfId call.call.algorithm.bytes)))
        (fun reply => reply) (fun _ => rfl) (hlib.setSymmKey sess.dev key _)
      exact onHandle_holds hrt hleft sess hopening "SKF_SetSymmKey"
        fun hkey => symOp_idle rt hkey call input

theorem hashOps_holds (hlib : Dependable lib) (call : TranslatedCall) (s : σ) :
    HoldsAt moves s [] (gm3000HashOps env lib call)
      (Leaves (expected env lib .hashOps call s)) := by
  refine input_holds (by simp [refuses]) fun input => ?_
  apply handler_holds (openBase_holds hlib s)
  intro rt sess hleft hrt _
  split
  · exact give_up hrt hleft sess _ rfl
  · have hopening := opened_holds (sessionHeld sess ++ [.library rt.lib])
      (.digestInit sess.dev (orSm3 (algToSkfId call.call.algorithm.bytes)))
      (fun reply => reply) (fun _ => rfl) (hlib.digestInit sess.dev _)
    apply onHandle_holds hrt hleft sess hopening "SKF_Digest"
    intro hhash
    apply idle_bind (idle_call fun _ => rfl)
    intro reply
    exact idle_pure _

theorem fileOps_holds (hlib : Dependable lib) (call : TranslatedCall) (s : σ) :
    HoldsAt moves s [] (gm3000FileOps env lib call)
      (Leaves (expected env lib .fileOps call s)) := by
  rw [gm3000FileOps, expected]
  by_cases hname : fileName call = []
  · rw [if_pos hname, if_pos (by simp [refuses, hname])]
    exact holdsAt_pure rfl
  · rw [if_neg hname, if_neg (by simp [refuses, hname])]
    apply handler_holds (openBase_holds hlib s)
    intro rt sess hleft hrt hfresh
    exact onApp_holds hlib hrt hleft sess hfresh.1 hfresh.2 fun sess => fileOp_idle rt sess call

theorem pqcOps_holds (hlib : Dependable lib) (call : TranslatedCall) (s : σ) :
    HoldsAt moves s [] (gm3000PqcOps env lib call)
      (Leaves (expected env lib .pqcOps call s)) := by
  refine input_holds (by simp [refuses]) fun input => ?_
  apply handler_holds (openBase_holds hlib s)
  intro rt sess hleft hrt _
  exact closes_after hrt hleft sess (pqcOp_idle rt sess call input)

/-- A handler leaves exactly that open which `open_runtime` left. -/
theorem run_holds (env : Env) (hlib : Dependable lib) (h : Gm3000Handler)
    (call : TranslatedCall) (s : σ) :
    HoldsAt moves s [] (h.run env lib call) (Leaves (expected env lib h call s)) := by
  cases h with
  | deviceManage => exact deviceManage_holds hlib call s
  | keyManage => exact keyManage_holds hlib call s
  | asymCrypto => exact asymCrypto_holds hlib call s
  | symCrypto => exact symCrypto_holds hlib call s
  | hashOps => exact hashOps_holds hlib call s
  | fileOps => exact fileOps_holds hlib call s
  | pqcOps => exact pqcOps_holds hlib call s

/-- A handler releases what it acquired exactly if it refuses its inputs, the
library is not loaded, or no symbol is missing that has to be there. -/
theorem released_iff (env : Env) (hlib : Dependable lib) (h : Gm3000Handler)
    (call : TranslatedCall) (s : σ) :
    Released (h.run env lib call s).calls ↔
      refuses env h call = true ∨ loadsWhole env lib s = true := by
  obtain ⟨held, hreplay, hheld⟩ := run_holds env hlib h call s
  have hexpected : held = expected env lib h call s := hheld
  rw [Released, hreplay, hexpected, expected, leftOpen]
  by_cases hrefuses : refuses env h call = true
  · simp [hrefuses]
  · by_cases hwhole : loadsWhole env lib s = true
    · simp [hwhole]
    · simp [hrefuses, hwhole]

theorem obliging_dependable (exports : SkfSymbol → Bool)
    (h : ∀ sym ∈ closeSymbols, exports sym = true) (out : Bytes) :
    Dependable (obliging exports out) where
  connectDev _ _ := by simp [obliging]
  openApplication _ _ _ := by simp [obliging]
  openContainer _ _ _ := by simp [obliging]
  setSymmKey _ _ _ _ := by simp [obliging]
  digestInit _ _ _ := by simp [obliging]
  closes _ _ sym hsym := by simp [obliging, h sym hsym]

/-- An encryption opens a key on the device and releases it again. -/
theorem encryption_released :
    Released (Gm3000Handler.symCrypto.run (fun _ => none) (obliging (fun _ => true) [1, 2])
      (sampleCall .sym .encrypt "sm4-cbc" "abc" "0123456789abcdef") ()).calls := by
  apply (released_iff _ (obliging_dependable _ (fun _ _ => rfl) _) .symCrypto _ ()).mpr
  right
  decide

/-- Without `SKF_GenRandom` every request for the device's information leaves
the library loaded, though the information needs no random bytes. -/
theorem missing_symbol_keeps_library :
    Dependable (obliging (fun sym => sym ≠ .genRandom) []) ∧
      ¬Released (Gm3000Handler.deviceManage.run (fun _ => none)
        (obliging (fun sym => sym ≠ .genRandom) []) (sampleCall .device .getDeviceInfo "auto" "" "")
        ()).calls := by
  constructor
  · apply obliging_dependable
    decide
  · rw [Released]
    decide

end Handlers

end Ucisdk.SkfRelease
