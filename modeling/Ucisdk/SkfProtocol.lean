import Ucisdk.Flow.Monitors
import Ucisdk.Gm3000
import Ucisdk.HexScanner

/-!
# The protocol of the token

What the vendor library asks of its callers, as a monitor: a function is called
only if its symbol was found in the library that is loaded; a handle is used
between its open and its close, and closed in front of the one it was opened
in; a container is opened behind the PIN, where one is configured; and what is
passed fits the buffer or the structure that the function reads or writes. The
handlers keep to it, one after the other, whatever the library replies.
-/

set_option autoImplicit false

namespace Ucisdk.SkfProtocol

open Ucisdk.CString Ucisdk.Common Ucisdk.Translator Ucisdk.Driver
open Ucisdk.SkfApi Ucisdk.SkfText Ucisdk.SkfSession Ucisdk.Gm3000
open Ucisdk.HexScanner
open Flow.Calls Flow.Monitors

section Protocol

/-- A handle of `SKF_SetSymmKey` or of `SKF_DigestInit`. -/
inductive HandleKind where
  | key
  | hash
  deriving DecidableEq, Repr

/-- What the library has open for the adapter. A block has its size, and an
operation with a key that was begun has the symbol that began it. -/
structure Token where
  lib : Option Ptr
  found : SkfSymbol → Bool
  block : Option (Ptr × ℕ)
  dev : Option Ptr
  app : Option Ptr
  container : Option Ptr
  handle : Option (HandleKind × Ptr)
  begun : Option SkfSymbol
  verified : Bool

def closed : Token where
  lib := none
  found := fun _ => false
  block := none
  dev := none
  app := none
  container := none
  handle := none
  begun := none
  verified := false

/-- The function pointer that a call goes through. -/
def symbolOf : SkfCall → Option SkfSymbol
  | .dlopen _ => none
  | .dlerror => none
  | .dlsym _ _ => none
  | .dlclose _ => none
  | .calloc _ => none
  | .free _ => none
  | .enumDevLength => some .enumDev
  | .enumDev _ => some .enumDev
  | .connectDev _ => some .connectDev
  | .disConnectDev _ => some .disConnectDev
  | .getDevInfo _ => some .getDevInfo
  | .genRandom _ _ => some .genRandom
  | .openApplication _ _ => some .openApplication
  | .closeApplication _ => some .closeApplication
  | .verifyPIN _ _ => some .verifyPIN
  | .deleteContainer _ _ => some .deleteContainer
  | .openContainer _ _ => some .openContainer
  | .closeContainer _ => some .closeContainer
  | .genECCKeyPair _ _ => some .genECCKeyPair
  | .genRSAKeyPair _ _ => some .genRSAKeyPair
  | .exportPublicKey _ _ => some .exportPublicKey
  | .eccSignData _ _ => some .eccSignData
  | .eccVerify _ _ _ _ => some .eccVerify
  | .rsaSignData _ _ _ => some .rsaSignData
  | .rsaVerify _ _ _ _ => some .rsaVerify
  | .extECCEncrypt _ _ _ => some .extECCEncrypt
  | .eccDecrypt _ _ _ _ => some .eccDecrypt
  | .extRSAPubKeyOperation _ _ _ _ => some .extRSAPubKeyOperation
  | .rsaDecrypt _ _ _ _ => some .rsaDecrypt
  | .setSymmKey _ _ _ => some .setSymmKey
  | .encryptInit _ => some .encryptInit
  | .encrypt _ _ _ => some .encrypt
  | .decryptInit _ => some .decryptInit
  | .decrypt _ _ _ => some .decrypt
  | .mac _ _ _ => some .mac
  | .digestInit _ _ => some .digestInit
  | .digest _ _ _ => some .digest
  | .closeHandle _ => some .closeHandle
  | .createFile _ _ _ _ _ => some .createFile
  | .deleteFile _ _ => some .deleteFile
  | .readFile _ _ _ _ => some .readFile
  | .writeFile _ _ _ _ => some .writeFile
  | .encapKyber _ _ _ _ => some .encapKyber
  | .decapKyber _ _ _ _ => some .decapKyber
  | .signDilithium _ _ _ _ => some .signDilithium
  | .verifyDilithium _ _ _ _ => some .verifyDilithium

/-- No function of the library is called through a pointer that was not found. -/
def Bound (op : SkfCall) (t : Token) : Prop :=
  ∀ sym, symbolOf op = some sym → t.lib.isSome = true ∧ t.found sym = true

/-- What is passed fits the buffers of the adapter and the structures of the
library. -/
def Sized : SkfCall → Prop
  | .genRandom _ len => len.toNat ≤ gm3000MaxIo
  | .eccSignData _ input => input.length ≤ gm3000MaxIo
  | .eccVerify _ pub input sig => pub.length = eccPublicKeyBlobLen ∧
      input.length ≤ gm3000MaxIo ∧ sig.length = eccSignatureBlobLen
  | .rsaSignData _ input cap => input.length ≤ gm3000MaxIo ∧ cap = gm3000MaxIo
  | .rsaVerify _ pub input sig => pub.length = rsaPublicKeyBlobLen ∧
      input.length ≤ gm3000MaxIo ∧ sig.length ≤ gm3000MaxIo
  | .extECCEncrypt _ pub input => pub.length = eccPublicKeyBlobLen ∧ input.length ≤ gm3000MaxIo
  | .eccDecrypt _ _ cipher cap => cipher.length = eccCipherBlobLen ∧ cap = gm3000MaxIo
  | .extRSAPubKeyOperation _ pub input cap => pub.length = rsaPublicKeyBlobLen ∧
      input.length ≤ gm3000MaxIo ∧ cap = gm3000MaxIo
  | .rsaDecrypt _ _ input cap => input.length ≤ gm3000MaxIo ∧ cap = gm3000MaxIo
  | .setSymmKey _ key _ => key ≠ [] ∧ key.length ≤ gm3000MaxIo
  | .encrypt _ input cap => input.length ≤ gm3000MaxIo ∧ cap = gm3000MaxIo
  | .decrypt _ input cap => input.length ≤ gm3000MaxIo ∧ cap = gm3000MaxIo
  | .mac _ input cap => input.length ≤ gm3000MaxIo ∧ cap = gm3000MaxIo
  | .digest _ input cap => input.length ≤ gm3000MaxIo ∧ cap = digestLen
  | .readFile _ _ _ size => size.toNat ≤ gm3000MaxIo
  | .writeFile _ _ _ data => data.length ≤ gm3000MaxIo
  | .encapKyber _ pub cap sharedCap => pub.length = kyberPublicKeyLen ∧ cap = gm3000MaxIo ∧
      sharedCap = sharedLen
  | .decapKyber _ input pri cap => input.length ≤ gm3000MaxIo ∧
      pri.length = kyberPrivateKeyLen ∧ cap = gm3000MaxIo
  | .signDilithium _ input pri cap => input.length ≤ gm3000MaxIo ∧
      pri.length = dilithiumPrivateKeyLen ∧ cap = gm3000MaxIo
  | .verifyDilithium _ pub input sig => pub.length = dilithiumPublicKeyLen ∧
      input.length ≤ gm3000MaxIo ∧ sig.length ≤ gm3000MaxIo
  | _ => True

/-- Nothing is open in a handle that is to be closed, as far as the library
can close it. -/
def LetGo (t : Token) (sym : SkfSymbol) (inner : Option Ptr) : Prop :=
  ∀ handle, inner = some handle → handle = 0 ∨ t.found sym = false

/-- The handle that a call is about is open, and what goes in front of the call
was done. -/
def InTurn (env : Env) (op : SkfCall) (t : Token) : Prop :=
  match op with
  | .dlopen _ => t.dev = none
  | .dlerror => True
  | .dlsym lib _ => t.lib = some lib
  | .dlclose lib => t.lib = some lib ∧ ∀ dev, t.dev = some dev → dev = 0
  | .calloc _ => t.block = none
  | .free block => ∃ size, t.block = some (block, size)
  | .enumDevLength => True
  | .enumDev len => ∃ block size, t.block = some (block, size) ∧ len.toNat < size
  | .connectDev _ => t.dev = none
  | .disConnectDev dev => t.dev = some dev ∧ LetGo t .closeApplication t.app ∧
      LetGo t .closeHandle (t.handle.map Prod.snd)
  | .openApplication dev _ => t.dev = some dev ∧ t.app = none
  | .closeApplication app => t.app = some app ∧ LetGo t .closeContainer t.container
  | .verifyPIN app pin => t.app = some app ∧ getenv env "GM3000_SKF_PIN" = some pin
  | .openContainer app _ => t.app = some app ∧ t.container = none ∧
      (getenv env "GM3000_SKF_PIN" ≠ none → t.verified = true)
  | .setSymmKey dev _ _ => t.dev = some dev ∧ t.handle = none
  | .digestInit dev _ => t.dev = some dev ∧ t.handle = none
  | .encryptInit hkey => t.handle = some (.key, hkey)
  | .encrypt hkey _ _ => t.handle = some (.key, hkey) ∧ t.begun = some .encryptInit
  | .decryptInit hkey => t.handle = some (.key, hkey)
  | .decrypt hkey _ _ => t.handle = some (.key, hkey) ∧ t.begun = some .decryptInit
  | .mac hkey _ _ => t.handle = some (.key, hkey)
  | .digest hhash _ _ => t.handle = some (.hash, hhash)
  | .closeHandle handle => ∃ kind, t.handle = some (kind, handle)
  | .getDevInfo dev => t.dev = some dev
  | .genRandom dev _ => t.dev = some dev
  | .eccVerify dev _ _ _ => t.dev = some dev
  | .rsaVerify dev _ _ _ => t.dev = some dev
  | .extECCEncrypt dev _ _ => t.dev = some dev
  | .extRSAPubKeyOperation dev _ _ _ => t.dev = some dev
  | .encapKyber dev _ _ _ => t.dev = some dev
  | .decapKyber dev _ _ _ => t.dev = some dev
  | .signDilithium dev _ _ _ => t.dev = some dev
  | .verifyDilithium dev _ _ _ => t.dev = some dev
  | .deleteContainer app _ => t.app = some app
  | .createFile app _ _ _ _ => t.app = some app
  | .deleteFile app _ => t.app = some app
  | .readFile app _ _ _ => t.app = some app
  | .writeFile app _ _ _ => t.app = some app
  | .closeContainer container => t.container = some container
  | .genECCKeyPair container _ => t.container = some container
  | .genRSAKeyPair container _ => t.container = some container
  | .exportPublicKey container _ => t.container = some container
  | .eccSignData container _ => t.container = some container
  | .rsaSignData container _ _ => t.container = some container
  | .eccDecrypt container _ _ _ => t.container = some container
  | .rsaDecrypt container _ _ _ => t.container = some container

/-- The handle of an open that succeeded. -/
def openedHandle (opened : Opened) : Option Ptr :=
  if opened.rv = sarOk then some opened.handle else none

def begunBy (sym : SkfSymbol) (rv : Ulong) : Option SkfSymbol :=
  if rv = sarOk then some sym else none

/-- What a call leaves open. A close takes what was opened in it along. -/
def afterCall : Call skf → Token → Token
  | ⟨.dlopen _, handle⟩, t => if handle = 0 then t else { closed with lib := some handle }
  | ⟨.dlsym _ sym, ptr⟩, t => { t with found := Function.update t.found sym (ptr ≠ 0) }
  | ⟨.dlclose _, _⟩, _ => closed
  | ⟨.calloc size, block⟩, t =>
    { t with block := if block = 0 then none else some (block, size) }
  | ⟨.free _, _⟩, t => { t with block := none }
  | ⟨.connectDev _, opened⟩, t => { t with dev := openedHandle opened }
  | ⟨.disConnectDev _, _⟩, t =>
    { t with dev := none, app := none, container := none, handle := none, verified := false }
  | ⟨.openApplication _ _, opened⟩, t =>
    { t with app := openedHandle opened, verified := false }
  | ⟨.closeApplication _, _⟩, t =>
    { t with app := none, container := none, verified := false }
  | ⟨.verifyPIN _ _, verified⟩, t => { t with verified := verified.rv = sarOk }
  | ⟨.openContainer _ _, opened⟩, t => { t with container := openedHandle opened }
  | ⟨.closeContainer _, _⟩, t => { t with container := none }
  | ⟨.setSymmKey _ _ _, opened⟩, t =>
    { t with handle := (openedHandle opened).map (HandleKind.key, ·), begun := none }
  | ⟨.digestInit _ _, opened⟩, t =>
    { t with handle := (openedHandle opened).map (HandleKind.hash, ·), begun := none }
  | ⟨.encryptInit _, rv⟩, t => { t with begun := begunBy .encryptInit rv }
  | ⟨.encrypt _ _ _, _⟩, t => { t with begun := none }
  | ⟨.decryptInit _, rv⟩, t => { t with begun := begunBy .decryptInit rv }
  | ⟨.decrypt _ _ _, _⟩, t => { t with begun := none }
  | ⟨.closeHandle _, _⟩, t => { t with handle := none, begun := none }
  | _, t => t

def monitor (env : Env) : Monitor skf Token where
  permits op t := Bound op t ∧ Sized op ∧ InTurn env op t
  after := afterCall

/-- An open that fails leaves `NULL` in the variable of its handle. Nothing of
the sort is asked of `SKF_ConnectDev`. -/
structure Clean {σ : Type} (lib : Library σ) : Prop where
  openApplication : ∀ dev name s, (lib (.openApplication dev name) s).1.rv ≠ sarOk →
    (lib (.openApplication dev name) s).1.handle = 0
  openContainer : ∀ app name s, (lib (.openContainer app name) s).1.rv ≠ sarOk →
    (lib (.openContainer app name) s).1.handle = 0
  setSymmKey : ∀ dev key alg s, (lib (.setSymmKey dev key alg) s).1.rv ≠ sarOk →
    (lib (.setSymmKey dev key alg) s).1.handle = 0
  digestInit : ∀ dev alg s, (lib (.digestInit dev alg) s).1.rv ≠ sarOk →
    (lib (.digestInit dev alg) s).1.handle = 0

end Protocol

section Sizes

variable {text bytes : Bytes} {size : ℕ}

theorem inputToBytes_length (h : inputToBytes text size = some bytes) : bytes.length ≤ size := by
  rw [inputToBytes] at h
  split at h
  · exact (digitPairs_of_decodeHex h).2
  · split at h
    · rename_i hlen
      rw [← Option.some.inj h]
      exact hlen
    · cases h

theorem blobFromHex_length (h : blobFromHex text size = some bytes) : bytes.length ≤ size := by
  rw [blobFromHex] at h
  split at h
  · cases h
  · exact (digitPairs_of_decodeHex h).2

theorem structFromHex_length (h : structFromHex text size = some bytes) : bytes.length = size := by
  rw [structFromHex, Option.map_eq_some_iff] at h
  obtain ⟨decoded, _, rfl⟩ := h
  simp [filled]

theorem orFail_ok {α : Type} {value : Option α} {a : α} (h : orFail value text = .ok a) :
    value = some a := by
  cases value with
  | none => cases h
  | some b => exact congrArg some (Except.ok.inj h)

theorem pairFromHex_ok {pub sig : Option Bytes} {args : Bytes × Bytes}
    (h : pairFromHex pub sig text = .ok args) : pub = some args.1 ∧ sig = some args.2 := by
  cases pub with
  | none => cases h
  | some pub =>
    cases sig with
    | none => cases h
    | some sig =>
      rw [← Except.ok.inj h]
      exact ⟨rfl, rfl⟩

end Sizes

section Session

variable {σ : Type} {env : Env} {lib : Library σ} {rt : Runtime} {sess : Session} {t : Token}

/-- Between two requests. -/
structure Rest (t : Token) : Prop where
  block : t.block = none
  dev : t.dev = none
  app : t.app = none
  container : t.container = none
  handle : t.handle = none

/-- The library is loaded and nothing in it is open. -/
structure Loaded (rt : Runtime) (t : Token) : Prop extends Rest t where
  lib : t.lib = some rt.lib
  found : t.found = rt.found

/-- What `open_runtime` looked for and found. -/
structure Required (rt : Runtime) : Prop where
  lib : rt.lib ≠ 0
  found : ∀ sym ∈ requiredSymbols, rt.found sym = true

/-- The token as the caller's variables have it. -/
structure InSession (rt : Runtime) (sess : Session) (t : Token) : Prop where
  required : Required rt
  lib : t.lib = some rt.lib
  found : t.found = rt.found
  block : t.block = none
  dev : t.dev = some sess.dev
  app : t.app.getD 0 = sess.app
  container : t.container.getD 0 = sess.container
  handle : LetGo t .closeHandle (t.handle.map Prod.snd)

/-- No key and no hash is open. -/
def Ready (rt : Runtime) (sess : Session) (t : Token) : Prop := InSession rt sess t ∧ t.handle = none

/-- The application is open and no container in it is. -/
def InApp (rt : Runtime) (sess : Session) (t : Token) : Prop :=
  Ready rt sess t ∧ t.app = some sess.app ∧ t.container = none

def InContainer (rt : Runtime) (sess : Session) (t : Token) : Prop :=
  Ready rt sess t ∧ t.container = some sess.container

theorem InSession.bound (h : InSession rt sess t) {op : SkfCall} {sym : SkfSymbol}
    (hsym : symbolOf op = some sym) (hfound : rt.found sym = true) : Bound op t := by
  intro sym' hsym'
  rw [hsym, Option.some.injEq] at hsym'
  subst hsym'
  rw [h.lib, h.found]
  exact ⟨rfl, hfound⟩

theorem Loaded.bound (h : Loaded rt t) (hrt : Required rt) {op : SkfCall} {sym : SkfSymbol}
    (hsym : symbolOf op = some sym) (hmem : sym ∈ requiredSymbols) : Bound op t := by
  intro sym' hsym'
  rw [hsym, Option.some.injEq] at hsym'
  subst hsym'
  rw [h.lib, h.found]
  exact ⟨rfl, hrt.found _ hmem⟩

/-- A call that changes nothing of what is open. -/
def Plain (op : SkfCall) : Prop := ∀ reply t, afterCall ⟨op, reply⟩ t = t

theorem unbound {op : SkfCall} (h : symbolOf op = none) (t : Token) : Bound op t := by
  intro sym hsym
  rw [h] at hsym
  cases hsym

variable {P : Token → Prop}

theorem plain_call {op : SkfCall} (hplain : Plain op)
    (hpermits : ∀ t, P t → (monitor env).permits op t) : Steady (monitor env) P (call lib op) := by
  apply steady_call hpermits
  intro reply t ht
  have hsame : (monitor env).after ⟨op, reply⟩ t = t := hplain reply t
  rw [hsame]
  exact ht

theorem plain_perform {α : Type} {args : Status α} {op : α → SkfCall}
    {answer : (a : α) → (op a).Reply → Status Bytes} (hplain : ∀ a, Plain (op a))
    (hpermits : ∀ a, args = .ok a → ∀ t, P t → (monitor env).permits (op a) t) :
    Steady (monitor env) P (perform lib args op answer) := by
  cases args with
  | error err => exact steady_pure _
  | ok a =>
    apply steady_bind (plain_call (hplain a) (hpermits a rfl))
    intro reply
    exact steady_pure _

theorem plain_attempt {α : Type} {sym : SkfSymbol} {args : Status α} {op : α → SkfCall}
    {answer : (a : α) → (op a).Reply → Status Bytes} (hplain : ∀ a, Plain (op a))
    (hpermits : rt.found sym = true → ∀ a, args = .ok a → ∀ t, P t →
      (monitor env).permits (op a) t) :
    Steady (monitor env) P (attempt lib rt sym args op answer) := by
  rw [attempt]
  split
  · exact steady_pure _
  · rename_i hfound
    rw [Bool.not_eq_false] at hfound
    exact plain_perform hplain (hpermits hfound)

end Session

section Opening

variable {σ : Type} {env : Env} {lib : Library σ} {rt : Runtime} {sess : Session}

theorem dlerror_steady (P : Token → Prop) : Steady (monitor env) P (call lib .dlerror) :=
  plain_call (fun _ _ => rfl) fun t _ => ⟨unbound rfl t, trivial, trivial⟩

theorem lastDlError_steady (P : Token → Prop) : Steady (monitor env) P (lastDlError lib) := by
  apply steady_bind (dlerror_steady P)
  intro msg
  exact steady_pure _

/-- The symbol of a load that returns is found exactly if the load says so. -/
theorem loadSymbol_follows (sym : SkfSymbol) (required : Bool) :
    Triple (monitor env) (Loaded rt) (loadSymbol lib rt.lib sym required) fun v t =>
      (∀ found, v = .ok found →
        Loaded { rt with found := Function.update rt.found sym found } t ∧
          (required = true → found = true)) ∧ Rest t := by
  apply triple_bind (dlerror_steady _)
  intro _
  have hsym : Triple (monitor env) (Loaded rt) (call lib (.dlsym rt.lib sym)) fun ptr t =>
      Loaded { rt with found := Function.update rt.found sym (ptr ≠ 0) } t := by
    apply triple_call
    · intro t ht
      exact ⟨unbound rfl t, trivial, ht.lib⟩
    · intro s t ht
      exact ⟨⟨ht.block, ht.dev, ht.app, ht.container, ht.handle⟩, ht.lib,
        congrArg (Function.update · sym _) ht.found⟩
  apply triple_bind hsym
  intro ptr
  by_cases hnull : ptr = 0
  · rw [if_pos hnull]
    cases required with
    | true =>
      apply triple_bind (lastDlError_steady _)
      intro msg
      apply triple_pure
      intro t ht
      exact ⟨fun found hfound => (nomatch hfound), ht.toRest⟩
    | false =>
      apply triple_pure
      intro t ht
      refine ⟨fun found hfound => ?_, ht.toRest⟩
      rw [← Except.ok.inj hfound]
      simp only [hnull, ne_eq, not_true_eq_false, decide_false] at ht
      exact ⟨ht, by simp⟩
  · rw [if_neg hnull]
    apply triple_pure
    intro t ht
    refine ⟨fun found hfound => ?_, ht.toRest⟩
    rw [← Except.ok.inj hfound]
    simp only [hnull, ne_eq, not_false_eq_true, decide_true] at ht
    exact ⟨ht, fun _ => rfl⟩

/-- The loads end at rest, or with the symbols that were there and, where they
have to be, all that were asked for. -/
theorem loadSymbols_follows (required : Bool) (syms : List SkfSymbol) (rt : Runtime) :
    Triple (monitor env) (Loaded rt) (loadSymbols lib required syms rt) fun v t =>
      (∀ rt', v = .ok rt' → Loaded rt' t ∧ rt'.lib = rt.lib ∧
        (required = true → ∀ sym, sym ∈ syms ∨ rt.found sym = true → rt'.found sym = true) ∧
        (∀ sym, sym ∉ syms → rt'.found sym = rt.found sym)) ∧ Rest t := by
  induction syms generalizing rt with
  | nil =>
    apply triple_pure
    intro t ht
    refine ⟨fun rt' hrt => ?_, ht.toRest⟩
    rw [← Except.ok.inj hrt]
    exact ⟨ht, rfl, fun _ sym hsym => hsym.resolve_left (by simp), fun _ _ => rfl⟩
  | cons sym syms ih =>
    apply triple_bind (loadSymbol_follows sym required)
    intro v
    cases v with
    | error err =>
      apply triple_pure
      intro t ht
      exact ⟨fun rt' hrt => (nomatch hrt), ht.2⟩
    | ok ptr =>
      refine triple_given (fun t ht => And.symm (ht.1 ptr rfl)) fun hptr => ?_
      apply triple_post (ih { rt with found := Function.update rt.found sym ptr })
      rintro v t ⟨hload, hrest⟩
      refine ⟨fun rt' hrt => ?_, hrest⟩
      obtain ⟨hloaded, hlib, hfound, hothers⟩ := hload rt' hrt
      refine ⟨hloaded, hlib, fun hrequired sym' hsym' => ?_, fun sym' hsym' => ?_⟩
      · apply hfound hrequired
        by_cases hsame : sym' = sym
        · right
          rw [hsame]
          simp only [Function.update_self]
          exact hptr hrequired
        · simp only [Function.update_of_ne hsame]
          exact hsym'.imp_left fun hmem => (List.mem_cons.mp hmem).resolve_left hsame
      · rw [List.mem_cons, not_or] at hsym'
        rw [hothers sym' hsym'.2]
        exact Function.update_of_ne hsym'.1 ..

/-- A library that was loaded whole, or nothing that is open. -/
def Runtimes (v : Status Runtime) (t : Token) : Prop :=
  Rest t ∧ ∀ rt, v = .ok rt → Required rt ∧ Loaded rt t

theorem dlopen_follows : Triple (monitor env) Rest (call lib (.dlopen (libPath env)))
    fun handle t => Rest t ∧ (handle ≠ 0 → Loaded ⟨handle, fun _ => false⟩ t) := by
  apply triple_call
  · intro t ht
    exact ⟨unbound rfl t, trivial, ht.dev⟩
  · intro s t ht
    by_cases hnull : (lib (.dlopen (libPath env)) s).1 = 0
    · simp only [monitor, afterCall, hnull, if_true]
      exact ⟨ht, fun hne => absurd rfl hne⟩
    · simp only [monitor, afterCall, hnull, if_false]
      exact ⟨⟨rfl, rfl, rfl, rfl, rfl⟩, fun _ => ⟨⟨rfl, rfl, rfl, rfl, rfl⟩, rfl, rfl⟩⟩

/-- Symbols that are looked up besides leave the required ones found. -/
theorem loadOptional_follows (hrt : Required rt) : Triple (monitor env) (Loaded rt)
    (loadSymbols lib false optionalSymbols rt) Runtimes := by
  apply triple_post (loadSymbols_follows false optionalSymbols rt)
  rintro v t ⟨hload, hrest⟩
  refine ⟨hrest, fun rt' hrt' => ?_⟩
  obtain ⟨hloaded, hlib, _, hothers⟩ := hload rt' hrt'
  refine ⟨⟨hlib ▸ hrt.lib, fun sym hmem => ?_⟩, hloaded⟩
  have hnot : sym ∉ optionalSymbols := by
    revert hmem
    cases sym <;> decide
  rw [hothers sym hnot]
  exact hrt.found sym hmem

theorem openRuntime_follows : Triple (monitor env) Rest (openRuntime env lib) Runtimes := by
  apply triple_bind dlopen_follows
  intro handle
  by_cases hnull : handle = 0
  · rw [if_pos hnull]
    refine triple_bind (lastDlError_steady _) fun msg => ?_
    apply triple_pure
    intro t ht
    exact ⟨ht.1, fun rt hrt => nomatch hrt⟩
  · rw [if_neg hnull]
    refine triple_bind (triple_imp (loadSymbols_follows true requiredSymbols
      ⟨handle, fun _ => false⟩) (fun t ht => ht.2 hnull) fun _ _ h => h) fun v => ?_
    cases v with
    | error err =>
      apply triple_pure
      intro t ht
      exact ⟨ht.2, fun rt hrt => nomatch hrt⟩
    | ok rt =>
      refine triple_given ?_ loadOptional_follows
      rintro t ⟨hload, _⟩
      obtain ⟨hloaded, hlib, hfound, _⟩ := hload rt rfl
      exact ⟨⟨hlib ▸ hnull, fun sym hmem => hfound rfl sym (.inl hmem)⟩, hloaded⟩

end Opening

section Sessions

variable {σ : Type} {env : Env} {lib : Library σ} {rt : Runtime} {sess : Session}

/-- An open leaves in its variable what is open. -/
theorem openedHandle_getD {opened : Opened} (h : opened.rv ≠ sarOk → opened.handle = 0) :
    (openedHandle opened).getD 0 = opened.handle := by
  rw [openedHandle]
  split
  · rfl
  · rename_i hrv
    exact (h hrv).symm

theorem openedHandle_ok {opened : Opened} (h : opened.rv = sarOk) :
    openedHandle opened = some opened.handle := by
  rw [openedHandle, if_pos h]

theorem calloc_follows (size : ℕ) : Triple (monitor env) (Loaded rt) (call lib (.calloc size))
    fun buf t => if buf = 0 then Loaded rt t
      else t.block = some (buf, size) ∧ Loaded rt { t with block := none } := by
  apply triple_call
  · intro t ht
    exact ⟨unbound rfl t, trivial, ht.block⟩
  · intro s t ht
    have hfreed : Loaded rt { t with block := none } :=
      ⟨⟨rfl, ht.dev, ht.app, ht.container, ht.handle⟩, ht.lib, ht.found⟩
    by_cases hnull : (lib (.calloc size) s).1 = 0
    · simp only [monitor, afterCall, hnull, if_true]
      exact hfreed
    · simp only [monitor, afterCall, hnull, if_false]
      exact ⟨trivial, hfreed⟩

theorem free_follows (buf : Ptr) (size : ℕ) : Triple (monitor env)
    (fun t => t.block = some (buf, size) ∧ Loaded rt { t with block := none })
    (call lib (.free buf)) fun _ => Loaded rt := by
  apply triple_call
  · rintro t ⟨hblock, _⟩
    exact ⟨unbound rfl t, trivial, _, hblock⟩
  · rintro s t ⟨_, ht⟩
    exact ht

theorem enumFirstDevice_steady (hrt : Required rt) :
    Steady (monitor env) (Loaded rt) (enumFirstDevice lib) := by
  have hplain : Steady (monitor env) (Loaded rt) (call lib .enumDevLength) :=
    plain_call (fun _ _ => rfl) fun t ht => ⟨ht.bound hrt rfl (by decide), trivial, trivial⟩
  apply triple_bind hplain
  intro first
  split
  · exact steady_pure _
  · apply triple_bind (calloc_follows (first.len.toNat + 1))
    intro buf
    by_cases hnull : buf = 0
    · rw [if_pos hnull]
      apply triple_pure
      intro t ht
      rwa [if_pos hnull] at ht
    · rw [if_neg hnull]
      simp only [hnull, if_false]
      have hsecond : Steady (monitor env) (fun t => t.block = some (buf, first.len.toNat + 1) ∧
          Loaded rt { t with block := none }) (call lib (.enumDev first.len)) := by
        apply plain_call (fun _ _ => rfl)
        rintro t ⟨hblock, ht⟩
        exact ⟨ht.bound hrt rfl (by decide), trivial, buf, _, hblock, Nat.lt_succ_self _⟩
      apply triple_bind hsecond
      intro second
      apply triple_bind (free_follows buf (first.len.toNat + 1))
      intro _
      split
      · exact steady_pure _
      · exact steady_pure _

theorem deviceName_steady (hrt : Required rt) :
    Steady (monitor env) (Loaded rt) (deviceName env lib) := by
  rw [deviceName]
  split
  · exact steady_pure _
  · exact enumFirstDevice_steady hrt

/-- The device is connected, or the library is as it was loaded. -/
theorem openDevice_follows (hrt : Required rt) :
    Triple (monitor env) (Loaded rt) (openDevice env lib) fun v t =>
      match v.2 with
      | .error _ => Loaded rt t
      | .ok () => Ready rt v.1 t ∧ t.app = none ∧ t.container = none := by
  apply triple_bind (deviceName_steady hrt)
  intro v
  cases v with
  | error err => exact triple_pure fun t ht => ht
  | ok name =>
    have hconnect : Triple (monitor env) (Loaded rt) (call lib (.connectDev name)) fun opened t =>
        Loaded rt { t with dev := none } ∧ t.dev = openedHandle opened := by
      apply triple_call
      · intro t ht
        exact ⟨ht.bound hrt rfl (by decide), trivial, ht.dev⟩
      · intro s t ht
        exact ⟨⟨⟨ht.block, rfl, ht.app, ht.container, ht.handle⟩, ht.lib, ht.found⟩, rfl⟩
    apply triple_bind hconnect
    intro opened
    split
    · rename_i hrv
      apply triple_pure
      rintro t ⟨ht, hdev⟩
      rw [openedHandle, if_neg hrv] at hdev
      exact ⟨⟨ht.block, hdev, ht.app, ht.container, ht.handle⟩, ht.lib, ht.found⟩
    · rename_i hrv
      rw [ne_eq, not_not] at hrv
      apply triple_pure
      rintro t ⟨ht, hdev⟩
      have happ : t.app = none := ht.app
      have hcontainer : t.container = none := ht.container
      have hhandle : t.handle = none := ht.handle
      refine ⟨⟨⟨hrt, ht.lib, ht.found, ht.block, hdev.trans (openedHandle_ok hrv), ?_, ?_, ?_⟩,
        hhandle⟩, happ, hcontainer⟩
      · rw [happ]
        rfl
      · rw [hcontainer]
        rfl
      · rw [hhandle]
        rintro handle ⟨⟩

/-- The application is open where the function says so, and its variable
holds what is open in any case. -/
theorem openApp_follows (hlib : Clean lib) (rt : Runtime) (sess : Session) :
    Triple (monitor env) (fun t => Ready rt sess t ∧ t.app = none ∧ t.container = none)
      (openApp env lib rt sess) fun v t =>
        Ready rt v.1 t ∧ t.container = none ∧ (v.2.isOk = true → t.app = some v.1.app) := by
  rw [openApp]
  split
  · apply triple_pure
    rintro t ⟨ht, _, hcontainer⟩
    exact ⟨ht, hcontainer, by simp [missingSymbol, fail, Except.isOk, Except.toBool]⟩
  · rename_i hfound
    rw [Bool.not_eq_false] at hfound
    split
    · apply triple_pure
      rintro t ⟨ht, _, hcontainer⟩
      exact ⟨ht, hcontainer, by simp [fail, Except.isOk, Except.toBool]⟩
    · rename_i name _
      have hopen : Triple (monitor env)
          (fun t => Ready rt sess t ∧ t.app = none ∧ t.container = none)
          (call lib (.openApplication sess.dev name)) fun opened t =>
            Ready rt { sess with app := opened.handle } t ∧ t.container = none ∧
              t.app = openedHandle opened := by
        apply triple_call
        · rintro t ⟨⟨ht, _⟩, happ, _⟩
          exact ⟨ht.bound rfl hfound, trivial, ht.dev, happ⟩
        · rintro s t ⟨⟨ht, hhandle⟩, _, hcontainer⟩
          exact ⟨⟨⟨ht.required, ht.lib, ht.found, ht.block, ht.dev,
            openedHandle_getD (hlib.openApplication sess.dev name s), ht.container, ht.handle⟩,
            hhandle⟩, hcontainer, rfl⟩
      apply triple_bind hopen
      intro opened
      split
      · apply triple_pure
        rintro t ⟨ht, hcontainer, _⟩
        exact ⟨ht, hcontainer, by simp [failed, fail, Except.isOk, Except.toBool]⟩
      · rename_i hrv
        rw [ne_eq, not_not] at hrv
        apply triple_pure
        rintro t ⟨ht, hcontainer, happ⟩
        exact ⟨ht, hcontainer, fun _ => happ.trans (openedHandle_ok hrv)⟩

/-- A verification says in the monitor what it says to its caller. -/
theorem verifyPin_follows {pin : Bytes} (hpin : getenv env "GM3000_SKF_PIN" = some pin)
    (hfound : rt.found .verifyPIN = true) :
    Triple (monitor env) (InApp rt sess) (verifyPin lib sess pin) fun v t =>
      InApp rt sess t ∧ (v.isOk = true → t.verified = true) := by
  have hverify : Triple (monitor env) (InApp rt sess) (call lib (.verifyPIN sess.app pin))
      fun verified t => InApp rt sess t ∧ t.verified = decide (verified.rv = sarOk) := by
    apply triple_call
    · rintro t ⟨⟨ht, _⟩, happ, _⟩
      exact ⟨ht.bound rfl hfound, trivial, happ, hpin⟩
    · rintro s t ⟨⟨ht, hhandle⟩, happ⟩
      exact ⟨⟨⟨⟨ht.required, ht.lib, ht.found, ht.block, ht.dev, ht.app, ht.container,
        ht.handle⟩, hhandle⟩, happ⟩, rfl⟩
  apply triple_bind hverify
  intro verified
  split
  · apply triple_pure
    rintro t ⟨ht, _⟩
    exact ⟨ht, by simp [fail, Except.isOk, Except.toBool]⟩
  · rename_i hrv
    rw [ne_eq, not_not] at hrv
    apply triple_pure
    rintro t ⟨ht, hverified⟩
    exact ⟨ht, fun _ => by simpa [hrv] using hverified⟩

/-- Where a PIN is configured it is verified, or the function fails. -/
theorem verifyPinIfSet_follows (rt : Runtime) (sess : Session) :
    Triple (monitor env) (InApp rt sess) (verifyPinIfSet env lib rt sess) fun v t =>
      InApp rt sess t ∧
        (v.isOk = true → getenv env "GM3000_SKF_PIN" ≠ none → t.verified = true) := by
  rw [verifyPinIfSet]
  split
  · rename_i hnone
    exact triple_pure fun t ht => ⟨ht, fun _ hsome => absurd hnone hsome⟩
  · rename_i pin hpin
    split
    · exact triple_pure fun t ht =>
        ⟨ht, by simp [missingSymbol, fail, Except.isOk, Except.toBool]⟩
    · rename_i hfound
      rw [Bool.not_eq_false] at hfound
      apply triple_bind (verifyPin_follows hpin hfound)
      intro v
      cases v with
      | error err => exact triple_pure fun t ht => ⟨ht.1, by simp [Except.isOk, Except.toBool]⟩
      | ok retry => exact triple_pure fun t ht => ⟨ht.1, fun _ _ => ht.2 rfl⟩

theorem openContainer_follows (hlib : Clean lib) (rt : Runtime) (sess : Session)
    (call : TranslatedCall) :
    Triple (monitor env)
      (fun t => InApp rt sess t ∧ (getenv env "GM3000_SKF_PIN" ≠ none → t.verified = true))
      (openContainer env lib rt sess call) fun v t =>
        Ready rt v.1 t ∧ (v.2.isOk = true → t.container = some v.1.container) := by
  rw [openContainer]
  split
  · apply triple_pure
    rintro t ⟨ht, _⟩
    exact ⟨ht.1, by simp [missingSymbol, fail, Except.isOk, Except.toBool]⟩
  · rename_i hfound
    rw [Bool.not_eq_false] at hfound
    have hopen : Triple (monitor env)
        (fun t => InApp rt sess t ∧ (getenv env "GM3000_SKF_PIN" ≠ none → t.verified = true))
        (Flow.Calls.call lib (.openContainer sess.app (containerNameFromCall env call)))
        fun opened t => Ready rt { sess with container := opened.handle } t ∧
          t.container = openedHandle opened := by
      apply triple_call
      · rintro t ⟨⟨⟨ht, _⟩, happ, hcontainer⟩, hverified⟩
        exact ⟨ht.bound rfl hfound, trivial, happ, hcontainer, hverified⟩
      · rintro s t ⟨⟨⟨ht, hhandle⟩, _⟩, _⟩
        exact ⟨⟨⟨ht.required, ht.lib, ht.found, ht.block, ht.dev, ht.app,
          openedHandle_getD (hlib.openContainer sess.app _ s), ht.handle⟩, hhandle⟩, rfl⟩
    apply triple_bind hopen
    intro opened
    split
    · apply triple_pure
      rintro t ⟨ht, _⟩
      exact ⟨ht, by simp [failed, fail, Except.isOk, Except.toBool]⟩
    · rename_i hrv
      rw [ne_eq, not_not] at hrv
      apply triple_pure
      rintro t ⟨ht, hcontainer⟩
      exact ⟨ht, fun _ => hcontainer.trans (openedHandle_ok hrv)⟩

/-- A variable that is not `NULL` holds what is open. -/
theorem open_of_getD {inner : Option Ptr} {handle : Ptr} (h : inner.getD 0 = handle)
    (hne : handle ≠ 0) : inner = some handle := by
  cases inner with
  | none => exact absurd h.symm hne
  | some other => exact congrArg some h

/-- What is not closed is `NULL`, or the library cannot close it. -/
theorem letGo_of_getD {t : Token} {sym : SkfSymbol} {inner : Option Ptr} {handle : Ptr}
    (h : inner.getD 0 = handle) (hnot : ¬(handle ≠ 0 ∧ t.found sym = true)) :
    LetGo t sym inner := by
  rintro other rfl
  rw [not_and_or, not_not, Bool.not_eq_true] at hnot
  exact hnot.imp_left (Eq.trans h)

theorem closeContainer_follows (rt : Runtime) (sess : Session) :
    Triple (monitor env) (InSession rt sess)
      (closeIf lib sess.container (rt.found .closeContainer) .closeContainer) fun _ t =>
        InSession rt { sess with container := t.container.getD 0 } t ∧
          LetGo t .closeContainer t.container := by
  rw [closeIf]
  split
  · rename_i hclose
    have hcall : Triple (monitor env) (InSession rt sess)
        (call lib (.closeContainer sess.container)) fun _ t =>
          InSession rt { sess with container := 0 } t ∧ t.container = none := by
      apply triple_call
      · intro t ht
        exact ⟨ht.bound rfl hclose.2, trivial, open_of_getD ht.container hclose.1⟩
      · intro s t ht
        exact ⟨⟨ht.required, ht.lib, ht.found, ht.block, ht.dev, ht.app, rfl, ht.handle⟩, rfl⟩
    refine triple_bind hcall fun _ => ?_
    apply triple_pure
    rintro t ⟨ht, hnone⟩
    rw [hnone]
    exact ⟨ht, by rintro _ ⟨⟩⟩
  · rename_i hclose
    apply triple_pure
    intro t ht
    rw [← ht.found] at hclose
    exact ⟨⟨ht.required, ht.lib, ht.found, ht.block, ht.dev, ht.app, rfl, ht.handle⟩,
      letGo_of_getD ht.container hclose⟩

theorem closeApplication_follows (rt : Runtime) (sess : Session) :
    Triple (monitor env)
      (fun t => InSession rt { sess with container := t.container.getD 0 } t ∧
        LetGo t .closeContainer t.container)
      (closeIf lib sess.app (rt.found .closeApplication) .closeApplication) fun _ t =>
        Required rt ∧ t.lib = some rt.lib ∧ t.found = rt.found ∧ t.dev = some sess.dev ∧
          LetGo t .closeApplication t.app ∧ LetGo t .closeHandle (t.handle.map Prod.snd) := by
  rw [closeIf]
  split
  · rename_i hclose
    refine triple_bind (triple_call ?_ fun s t ht => ?_) fun _ => triple_pure fun t ht => ht
    · rintro t ⟨ht, hinner⟩
      exact ⟨ht.bound rfl hclose.2, trivial, open_of_getD ht.app hclose.1, hinner⟩
    · exact ⟨ht.1.required, ht.1.lib, ht.1.found, ht.1.dev, by rintro _ ⟨⟩, ht.1.handle⟩
  · rename_i hclose
    apply triple_pure
    rintro t ⟨ht, _⟩
    rw [← ht.found] at hclose
    exact ⟨ht.required, ht.lib, ht.found, ht.dev, letGo_of_getD ht.app hclose, ht.handle⟩

/-- The closes go from the inside to the outside. -/
theorem closeSession_follows (rt : Runtime) (sess : Session) :
    Triple (monitor env) (InSession rt sess) (closeSession lib rt sess) fun _ t =>
      Required rt ∧ t.lib = some rt.lib ∧ ∀ dev, t.dev = some dev → dev = 0 := by
  refine triple_bind (closeContainer_follows rt sess) fun _ =>
    triple_bind (closeApplication_follows rt sess) fun _ => ?_
  rw [closeIf]
  split
  · rename_i hclose
    refine triple_bind (triple_call ?_ fun s t ht => ?_) fun _ => triple_pure fun t ht => ht
    · rintro t ⟨hrt, hlib, hfound, hdev, hinner, hhandle⟩
      refine ⟨?_, trivial, hdev, hinner, hhandle⟩
      rintro sym ⟨⟩
      rw [hlib, hfound]
      exact ⟨rfl, hrt.found _ (by decide)⟩
    · exact ⟨ht.1, ht.2.1, by rintro _ ⟨⟩⟩
  · rename_i hclose
    apply triple_pure
    rintro t ⟨hrt, hlib, _, hdev, _⟩
    refine ⟨hrt, hlib, fun dev hopen => ?_⟩
    rw [hdev, Option.some.injEq] at hopen
    rw [← hopen]
    simpa using hclose

theorem closeRuntime_follows (rt : Runtime) :
    Triple (monitor env)
      (fun t => Required rt ∧ t.lib = some rt.lib ∧ ∀ dev, t.dev = some dev → dev = 0)
      (closeRuntime lib rt) fun _ => Rest := by
  rw [closeRuntime]
  split
  · apply triple_call
    · rintro t ⟨_, hlib, hdev⟩
      exact ⟨unbound rfl t, trivial, hlib, hdev⟩
    · intro s t _
      exact ⟨rfl, rfl, rfl, rfl, rfl⟩
  · rename_i hnull
    exact triple_pure fun t ht => absurd ht.1.lib hnull

theorem finalize_follows {α : Type} (rc : α) (rt : Runtime) (sess : Session) :
    Triple (monitor env) (InSession rt sess) (finalizeErrorOrSuccess lib rc rt sess)
      fun v t => v = rc ∧ Rest t := by
  refine triple_bind (closeSession_follows rt sess) fun _ => ?_
  refine triple_bind (closeRuntime_follows rt) fun _ => ?_
  exact triple_pure fun t ht => ⟨rfl, ht⟩

/-- A session that was opened, or nothing that is open. -/
def Opens (P : Runtime → Session → Token → Prop) (v : Status (Runtime × Session)) (t : Token) :
    Prop :=
  match v with
  | .error _ => Rest t
  | .ok (rt, sess) => P rt sess t

/-- A session on the device alone. -/
def OnDevice (rt : Runtime) (sess : Session) (t : Token) : Prop :=
  Ready rt sess t ∧ t.app = none ∧ t.container = none

theorem openBase_follows :
    Triple (monitor env) Rest (openBase env lib) (Opens OnDevice) := by
  apply triple_bind openRuntime_follows
  intro v
  cases v with
  | error err => exact triple_pure fun t ht => ht.1
  | ok rt =>
    refine triple_given (fun t ht => ht.2 rt rfl) fun hrt => ?_
    apply triple_bind (openDevice_follows hrt)
    rintro ⟨sess, v⟩
    cases v with
    | error err =>
      refine triple_bind (triple_imp (closeRuntime_follows rt) ?_ fun _ _ h => h) fun _ => ?_
      · intro t ht
        refine ⟨hrt, ht.lib, fun dev hdev => ?_⟩
        have hnone : t.dev = none := Rest.dev (Loaded.toRest ht)
        rw [hnone] at hdev
        cases hdev
      · exact triple_pure fun t ht => ht
    | ok _ => exact triple_pure fun t ht => ht

/-- A failure in a session closes it. -/
theorem gives_up {α : Type} {pre : Token → Prop} (err : Option ErrText)
    {post : Status α → Token → Prop} (hpre : ∀ t, pre t → InSession rt sess t)
    (hpost : ∀ t, Rest t → post (.error err) t) :
    Triple (monitor env) pre (finalizeErrorOrSuccess lib (.error err) rt sess) post := by
  refine triple_imp (finalize_follows (.error err : Status α) rt sess) hpre ?_
  rintro v t ⟨rfl, ht⟩
  exact hpost t ht

theorem openAppContainer_follows (hlib : Clean lib) (call : TranslatedCall) :
    Triple (monitor env) Rest (openAppContainer env lib call) (Opens InContainer) := by
  apply triple_bind openBase_follows
  intro v
  rcases v with err | ⟨rt, sess⟩
  · exact triple_pure fun t ht => ht
  · apply triple_bind (openApp_follows hlib rt sess)
    rintro ⟨sess, v⟩
    cases v with
    | error err => exact gives_up err (fun t ht => ht.1.1) fun t ht => ht
    | ok _ =>
      refine triple_bind (triple_imp (verifyPinIfSet_follows rt sess)
        (fun t ht => ⟨ht.1, ht.2.2 rfl, ht.2.1⟩) fun _ _ h => h) fun v => ?_
      cases v with
      | error err => exact gives_up err (fun t ht => ht.1.1.1) fun t ht => ht
      | ok _ =>
        refine triple_bind (triple_imp (openContainer_follows hlib rt sess call)
          (fun t ht => ⟨ht.1, ht.2 rfl⟩) fun _ _ h => h) ?_
        rintro ⟨sess, v⟩
        cases v with
        | error err => exact gives_up err (fun t ht => ht.1.1) fun t ht => ht
        | ok _ => exact triple_pure fun t ht => ⟨ht.1, ht.2 rfl⟩

end Sessions

end Ucisdk.SkfProtocol
