import Ucisdk.SkfProtocol

/-!
# The handlers keep to the protocol

Every operation of a handler is permitted in the session that the handler
opened for it, so the calls of a handler are, and those of any number of
handlers that run one after the other.
-/

set_option autoImplicit false

namespace Ucisdk.SkfConforms

open Ucisdk.CString Ucisdk.Common Ucisdk.Translator Ucisdk.Driver
open Ucisdk.SkfApi Ucisdk.SkfText Ucisdk.SkfSession Ucisdk.Gm3000 Ucisdk.SkfProtocol
open Flow.Calls Flow.Monitors

section Operations

variable {σ : Type} {env : Env} {lib : Library σ} {rt : Runtime} {sess : Session}
  {call : TranslatedCall} {input : Bytes}

/-- An operation on the device, of a function that may be missing. -/
theorem device_attempt {α : Type} {P : Token → Prop} {sym : SkfSymbol} {args : Status α}
    {op : α → SkfCall} {answer : (a : α) → (op a).Reply → Status Bytes}
    (hP : ∀ t, P t → InSession rt sess t) (hplain : ∀ a, Plain (op a))
    (hsym : ∀ a, symbolOf (op a) = some sym) (hsized : ∀ a, args = .ok a → Sized (op a))
    (hturn : ∀ a t, P t → InTurn env (op a) t) :
    Steady (monitor env) P (attempt lib rt sym args op answer) :=
  plain_attempt hplain fun hfound a ha t ht =>
    ⟨(hP t ht).bound (hsym a) hfound, hsized a ha, hturn a t ht⟩

theorem randomLen_sized {len : Ulong} (h : randomLen call = .ok len) :
    len.toNat ≤ gm3000MaxIo := by
  rw [randomLen] at h
  split at h
  · cases h
  · split at h
    · cases h
    · rename_i hle
      rw [← Except.ok.inj h]
      exact Nat.le_of_not_lt hle

theorem readLen_sized {want : Ulong} (h : readLen call = .ok want) :
    want.toNat ≤ gm3000MaxIo := by
  rw [readLen] at h
  split at h
  · cases h
  · split at h
    · cases h
    · rename_i hle
      rw [← Except.ok.inj h]
      exact Nat.le_of_not_lt hle

theorem deviceOp_steady :
    Steady (monitor env) (Ready rt sess) (deviceOp lib sess call) := by
  rw [deviceOp]
  split
  · exact plain_perform (fun _ _ _ => rfl) fun _ _ t ht =>
      ⟨ht.1.bound rfl (ht.1.required.found _ (by decide)), trivial, ht.1.dev⟩
  · exact plain_perform (fun _ _ _ => rfl) fun len hlen t ht =>
      ⟨ht.1.bound rfl (ht.1.required.found _ (by decide)), randomLen_sized hlen, ht.1.dev⟩
  · exact steady_pure _

theorem keyAccess_follows : Triple (monitor env) (InApp rt sess) (keyAccess env lib rt sess)
    fun _ t => InApp rt sess t := by
  rw [keyAccess]
  split
  · exact triple_pure fun t ht => ht
  · rename_i hfound
    rw [Bool.not_eq_false] at hfound
    split
    · exact triple_pure fun t ht => ht
    · rename_i pin hpin
      apply triple_bind (verifyPin_follows hpin hfound)
      intro v
      cases v with
      | error err => exact triple_pure fun t ht => ht.1
      | ok retry => exact triple_pure fun t ht => ht.1

theorem keyGeneratePair_steady :
    Steady (monitor env) (InContainer rt sess) (keyGeneratePair lib rt sess call) := by
  rw [keyGeneratePair]
  split
  · exact device_attempt (fun t ht => ht.1.1) (fun _ _ _ => rfl) (fun _ => rfl)
      (fun _ _ => trivial) fun _ t ht => ht.2
  · split
    · exact device_attempt (fun t ht => ht.1.1) (fun _ _ _ => rfl) (fun _ => rfl)
        (fun _ _ => trivial) fun _ t ht => ht.2
    · exact steady_pure _

/-- The close of a key or a hash, where the library has one. -/
theorem closeHandle_follows (handle : Ptr) :
    Triple (monitor env)
      (fun t => InSession rt sess { t with handle := none } ∧
        (t.handle.map Prod.snd).getD 0 = handle)
      (closeIf lib handle (rt.found .closeHandle) .closeHandle) fun _ => InSession rt sess := by
  rw [closeIf]
  split
  · rename_i hclose
    refine triple_bind (triple_call ?_ fun s t ht => ?_) fun _ => triple_pure fun t ht => ht
    · rintro t ⟨ht, hhandle⟩
      have hopen := open_of_getD hhandle hclose.1
      rw [Option.map_eq_some_iff] at hopen
      obtain ⟨⟨kind, _⟩, hopen, rfl⟩ := hopen
      exact ⟨ht.bound rfl hclose.2, trivial, kind, hopen⟩
    · exact ⟨ht.1.required, ht.1.lib, ht.1.found, ht.1.block, ht.1.dev, ht.1.app,
        ht.1.container, ht.1.handle⟩
  · rename_i hclose
    apply triple_pure
    rintro t ⟨ht, hhandle⟩
    have hfound : t.found = rt.found := ht.found
    rw [← hfound] at hclose
    exact ⟨ht.required, ht.lib, ht.found, ht.block, ht.dev, ht.app, ht.container,
      letGo_of_getD hhandle hclose⟩

theorem letGo_none (t : Token) (sym : SkfSymbol) : LetGo t sym none := by
  rintro _ ⟨⟩

/-- A key or a hash is opened on the device; what every reply has is kept. -/
theorem handle_opens {kind : HandleKind} (op : SkfCall) (opened : skf.Reply op → Opened)
    {R : Opened → Prop} (hreply : ∀ s, R (opened (lib op s).1))
    {sym : SkfSymbol} (hsym : symbolOf op = some sym) (hfound : rt.found sym = true)
    (hsized : Sized op)
    (hturn : ∀ t : Token, t.dev = some sess.dev → t.handle = none → InTurn env op t)
    (hafter : ∀ reply (t : Token), afterCall ⟨op, reply⟩ t =
      { t with handle := (openedHandle (opened reply)).map (kind, ·), begun := none }) :
    Triple (monitor env) (Ready rt sess) (Flow.Calls.call lib op) fun reply t =>
      R (opened reply) ∧ InSession rt sess { t with handle := none } ∧
        t.handle = (openedHandle (opened reply)).map (kind, ·) := by
  apply triple_call
  · rintro t ⟨ht, hhandle⟩
    exact ⟨ht.bound hsym hfound, hsized, hturn t ht.dev hhandle⟩
  · rintro s t ⟨ht, _⟩
    have hnow : (monitor env).after ⟨op, (lib op s).1⟩ t = _ := hafter (lib op s).1 t
    rw [hnow]
    exact ⟨hreply s, ⟨ht.required, ht.lib, ht.found, ht.block, ht.dev, ht.app, ht.container,
      letGo_none _ _⟩, rfl⟩

/-- What stands in the variable of a handle, and in the monitor. -/
def HandleOpened (rt : Runtime) (sess : Session) (kind : HandleKind) (opened : Opened) (t : Token) :
    Prop :=
  (opened.rv ≠ sarOk → opened.handle = 0) ∧ InSession rt sess { t with handle := none } ∧
    t.handle = (openedHandle opened).map (kind, ·)

theorem setSymmKey_opens (hlib : Clean lib) (hfound : rt.found .setSymmKey = true) {key : Bytes}
    (hkey : key ≠ [] ∧ key.length ≤ gm3000MaxIo) (alg : Ulong) :
    Triple (monitor env) (Ready rt sess) (Flow.Calls.call lib (.setSymmKey sess.dev key alg))
      (HandleOpened rt sess .key) :=
  handle_opens (.setSymmKey sess.dev key alg) (fun reply => reply)
    (hlib.setSymmKey sess.dev key alg) rfl hfound hkey (fun _ hdev hhandle => ⟨hdev, hhandle⟩) fun _ _ => rfl

theorem digestInit_opens (hlib : Clean lib) (hfound : rt.found .digestInit = true) (alg : Ulong) :
    Triple (monitor env) (Ready rt sess) (Flow.Calls.call lib (.digestInit sess.dev alg))
      (HandleOpened rt sess .hash) :=
  handle_opens (.digestInit sess.dev alg) (fun reply => reply)
    (hlib.digestInit sess.dev alg) rfl hfound trivial (fun _ hdev hhandle => ⟨hdev, hhandle⟩) fun _ _ => rfl

/-- One key or hash is open. -/
def WithHandle (rt : Runtime) (sess : Session) (kind : HandleKind) (handle : Ptr) (t : Token) :
    Prop :=
  InSession rt sess { t with handle := none } ∧ t.handle = some (kind, handle)

theorem WithHandle.bound {kind : HandleKind} {handle : Ptr} {t : Token}
    (h : WithHandle rt sess kind handle t) {op : SkfCall} {sym : SkfSymbol}
    (hsym : symbolOf op = some sym) (hfound : rt.found sym = true) : Bound op t :=
  h.1.bound hsym hfound

theorem session_of_none {t : Token} (h : InSession rt sess { t with handle := none })
    (hnone : t.handle = none) : InSession rt sess t := by
  refine ⟨h.required, h.lib, h.found, h.block, h.dev, h.app, h.container, ?_⟩
  rw [hnone]
  exact letGo_none t _

theorem opened_handle {kind : HandleKind} {opened : Opened}
    (hclean : opened.rv ≠ sarOk → opened.handle = 0) :
    (((openedHandle opened).map (kind, ·)).map Prod.snd).getD 0 = opened.handle := by
  rw [Option.map_map]
  have hsame : (Prod.snd ∘ fun handle : Ptr => (kind, handle)) = id := rfl
  rw [hsame, Option.map_id]
  exact openedHandle_getD hclean

theorem closeOpened_follows {kind : HandleKind} {opened : Opened}
    (hclean : opened.rv ≠ sarOk → opened.handle = 0) :
    Triple (monitor env)
      (fun t => InSession rt sess { t with handle := none } ∧
        t.handle = (openedHandle opened).map (kind, ·))
      (closeIf lib opened.handle (rt.found .closeHandle) .closeHandle)
      fun _ => InSession rt sess := by
  refine triple_imp (closeHandle_follows opened.handle) ?_ fun _ _ h => h
  rintro t ⟨ht, hhandle⟩
  rw [hhandle]
  exact ⟨ht, opened_handle hclean⟩

/-- What is done with a handle, and its close. -/
theorem withHandle_follows {kind : HandleKind} {opened : Opened} (name : String)
    (hclean : opened.rv ≠ sarOk → opened.handle = 0) {op : Ptr → Run σ (Status Bytes)}
    (hop : Steady (monitor env) (WithHandle rt sess kind opened.handle) (op opened.handle)) :
    Triple (monitor env)
      (fun t => InSession rt sess { t with handle := none } ∧
        t.handle = (openedHandle opened).map (kind, ·))
      (withHandle lib rt opened name op) fun _ => InSession rt sess := by
  have hrc : Steady (monitor env)
      (fun t => InSession rt sess { t with handle := none } ∧
        t.handle = (openedHandle opened).map (kind, ·))
      (if opened.rv ≠ sarOk then (pure (failed (lit name) opened.rv) : Run σ _)
        else op opened.handle) := by
    split
    · exact steady_pure _
    · rename_i hrv
      rw [ne_eq, not_not] at hrv
      rw [openedHandle_ok hrv]
      exact hop
  refine triple_bind hrc fun rc => triple_bind (closeOpened_follows hclean) fun _ => ?_
  exact triple_pure fun t ht => ht

theorem importKeyBytes_sized {key : Bytes} (h : importKeyBytes call = some key) :
    key ≠ [] ∧ key.length ≤ gm3000MaxIo := by
  rw [importKeyBytes] at h
  split at h
  · cases h
  · rename_i decoded hdecoded
    split at h
    · cases h
    · rename_i hne
      rw [← Option.some.inj h]
      exact ⟨hne, inputToBytes_length hdecoded⟩

theorem importKey_follows (hlib : Clean lib) :
    Triple (monitor env) (InContainer rt sess) (importKey lib rt sess call)
      fun _ => InSession rt sess := by
  rw [importKey]
  split
  · exact triple_pure fun t ht => ht.1.1
  · rename_i hfound
    rw [Bool.not_eq_false] at hfound
    split
    · exact triple_pure fun t ht => ht.1.1
    · rename_i key hkey
      refine triple_bind (triple_imp (setSymmKey_opens hlib hfound (importKeyBytes_sized hkey) _)
        (fun t ht => ht.1) fun _ _ h => h) fun opened => ?_
      split
      · rename_i hrv
        apply triple_pure
        rintro t ⟨_, ht, hhandle⟩
        rw [openedHandle, if_neg hrv] at hhandle
        exact session_of_none ht hhandle
      · refine triple_given (fun t ht => ht) fun hclean => ?_
        refine triple_bind (closeOpened_follows hclean) fun _ => ?_
        exact triple_pure fun t ht => ht

/-- The operations on a key in the application. -/
theorem keyOp_app (happ : onApp call.call.action = true) :
    Triple (monitor env) (InApp rt sess) (keyOp env lib rt sess call)
      fun _ => InSession rt sess := by
  rw [keyOp]
  split
  · exact triple_post keyAccess_follows fun _ t ht => ht.1.1
  · exact triple_pure fun t ht => ht.1.1
  · rename_i haction
    simp [onApp, haction] at happ
  · rename_i haction
    simp [onApp, haction] at happ
  · rename_i haction
    simp [onApp, haction] at happ
  · have hdelete : Steady (monitor env) (InApp rt sess) (destroyKey env lib rt sess call) :=
      device_attempt (fun t ht => ht.1.1) (fun _ _ _ => rfl) (fun _ => rfl)
        (fun _ _ => trivial) fun _ t ht => ht.2.1
    exact triple_post hdelete fun _ t ht => ht.1.1
  · exact triple_pure fun t ht => ht.1.1

/-- The operations on a key in its container. -/
theorem keyOp_container (hlib : Clean lib) (happ : onApp call.call.action = false) :
    Triple (monitor env) (InContainer rt sess) (keyOp env lib rt sess call)
      fun _ => InSession rt sess := by
  rw [keyOp]
  split
  · rename_i haction
    simp [onApp, haction] at happ
  · exact triple_pure fun t ht => ht.1.1
  · exact triple_post keyGeneratePair_steady fun _ t ht => ht.1.1
  · have hexport : Steady (monitor env) (InContainer rt sess) (exportPublicKey lib rt sess) :=
      device_attempt (fun t ht => ht.1.1) (fun _ _ _ => rfl) (fun _ => rfl)
        (fun _ _ => trivial) fun _ t ht => ht.2
    exact triple_post hexport fun _ t ht => ht.1.1
  · exact importKey_follows hlib
  · rename_i haction
    simp [onApp, haction] at happ
  · exact triple_pure fun t ht => ht.1.1

theorem signOp_steady (hinput : input.length ≤ gm3000MaxIo) :
    Steady (monitor env) (InContainer rt sess) (signOp lib rt sess call input) := by
  rw [signOp]
  split
  · exact device_attempt (fun t ht => ht.1.1) (fun _ _ _ => rfl) (fun _ => rfl)
      (fun _ _ => hinput) fun _ t ht => ht.2
  · exact device_attempt (fun t ht => ht.1.1) (fun _ _ _ => rfl) (fun _ => rfl)
      (fun _ _ => ⟨hinput, rfl⟩) fun _ t ht => ht.2

theorem verifyOp_steady (hinput : input.length ≤ gm3000MaxIo) :
    Steady (monitor env) (Ready rt sess) (verifyOp lib rt sess call input) := by
  rw [verifyOp]
  split
  · exact steady_pure _
  · split
    · apply device_attempt (fun t ht => ht.1) (fun _ _ _ => rfl) (fun _ => rfl) ?_
        fun _ t ht => ht.1.dev
      intro args hargs
      obtain ⟨hpub, hsig⟩ := pairFromHex_ok hargs
      exact ⟨structFromHex_length hpub, hinput, structFromHex_length hsig⟩
    · split
      · apply device_attempt (fun t ht => ht.1) (fun _ _ _ => rfl) (fun _ => rfl) ?_
          fun _ t ht => ht.1.dev
        intro args hargs
        obtain ⟨hpub, hsig⟩ := pairFromHex_ok hargs
        exact ⟨structFromHex_length hpub, hinput, blobFromHex_length hsig⟩
      · exact steady_pure _

theorem encryptOp_steady (hinput : input.length ≤ gm3000MaxIo) :
    Steady (monitor env) (Ready rt sess) (encryptOp lib rt sess call input) := by
  rw [encryptOp]
  split
  · exact device_attempt (fun t ht => ht.1) (fun _ _ _ => rfl) (fun _ => rfl)
      (fun _ hpub => ⟨structFromHex_length (orFail_ok hpub), hinput⟩) fun _ t ht => ht.1.dev
  · exact device_attempt (fun t ht => ht.1) (fun _ _ _ => rfl) (fun _ => rfl)
      (fun _ hpub => ⟨structFromHex_length (orFail_ok hpub), hinput, rfl⟩) fun _ t ht => ht.1.dev

theorem decryptOp_steady (hinput : input.length ≤ gm3000MaxIo) :
    Steady (monitor env) (InContainer rt sess) (decryptOp lib rt sess call input) := by
  rw [decryptOp]
  split
  · exact device_attempt (fun t ht => ht.1.1) (fun _ _ _ => rfl) (fun _ => rfl)
      (fun _ hcipher => ⟨structFromHex_length (orFail_ok hcipher), rfl⟩) fun _ t ht => ht.2
  · exact device_attempt (fun t ht => ht.1.1) (fun _ _ _ => rfl) (fun _ => rfl)
      (fun _ _ => ⟨hinput, rfl⟩) fun _ t ht => ht.2

/-- An operation that takes its key from the request asks for no container. -/
theorem asymOp_device (hinput : input.length ≤ gm3000MaxIo)
    (hdevice : onDevice call.call.action = true) :
    Steady (monitor env) (Ready rt sess) (asymOp lib rt sess call input) := by
  rw [asymOp]
  split
  · exact verifyOp_steady hinput
  · split
    · rename_i hsign
      simp [onDevice, hsign.1] at hdevice
    · split
      · exact encryptOp_steady hinput
      · split
        · rename_i hdecrypt
          simp [onDevice, hdecrypt.1] at hdevice
        · exact steady_pure _

theorem asymOp_container (hinput : input.length ≤ gm3000MaxIo)
    (hdevice : onDevice call.call.action = false) :
    Steady (monitor env) (InContainer rt sess) (asymOp lib rt sess call input) := by
  rw [asymOp]
  split
  · rename_i hverify
    simp [onDevice, hverify] at hdevice
  · split
    · exact signOp_steady hinput
    · split
      · rename_i hencrypt
        simp [onDevice, hencrypt.1] at hdevice
      · split
        · exact decryptOp_steady hinput
        · exact steady_pure _

/-- An operation in two calls, of which the second needs the first. -/
theorem initThen_steady {P Q : Token → Prop} {init : Run σ Ulong} {op : Run σ Output}
    (hinit : Triple (monitor env) P init fun rv t => P t ∧ (rv = sarOk → Q t))
    (hop : Triple (monitor env) Q op fun _ t => P t) (name : String) (lead : Bytes) (outSz : ℕ) :
    Steady (monitor env) P (initThen init op name lead outSz) := by
  apply triple_bind hinit
  intro rv
  split
  · exact triple_pure fun t ht => ht.1
  · rename_i hrv
    rw [ne_eq, not_not] at hrv
    refine triple_bind (triple_imp hop (fun t ht => ht.2 hrv) fun _ _ h => h) fun reply => ?_
    exact triple_pure fun t ht => ht

theorem WithHandle.begun {kind : HandleKind} {handle : Ptr} {t : Token}
    (h : WithHandle rt sess kind handle t) (begun : Option SkfSymbol) :
    WithHandle rt sess kind handle { t with begun := begun } :=
  ⟨⟨h.1.required, h.1.lib, h.1.found, h.1.block, h.1.dev, h.1.app, h.1.container, h.1.handle⟩,
    h.2⟩

/-- The operation was begun with the key that is open. -/
def Begun (rt : Runtime) (sess : Session) (hkey : Ptr) (sym : SkfSymbol) (t : Token) : Prop :=
  WithHandle rt sess .key hkey t ∧ t.begun = some sym

theorem encrypt_steady (hkey : Ptr) (hinput : input.length ≤ gm3000MaxIo)
    (hinit : rt.found .encryptInit = true) (hfound : rt.found .encrypt = true) (name : String)
    (lead : Bytes) (outSz : ℕ) :
    Steady (monitor env) (WithHandle rt sess .key hkey)
      (initThen (Flow.Calls.call lib (.encryptInit hkey))
        (Flow.Calls.call lib (.encrypt hkey input gm3000MaxIo)) name lead outSz) := by
  refine initThen_steady (Q := Begun rt sess hkey .encryptInit) (triple_call ?_ ?_)
    (triple_call ?_ ?_) name lead outSz
  · exact fun t ht => ⟨ht.bound rfl hinit, trivial, ht.2⟩
  · exact fun s t ht => ⟨ht.begun _, fun hrv => ⟨ht.begun _, if_pos hrv⟩⟩
  · exact fun t ht => ⟨ht.1.bound rfl hfound, ⟨hinput, rfl⟩, ht.1.2, ht.2⟩
  · exact fun s t ht => ht.1.begun none

theorem decrypt_steady (hkey : Ptr) (hinput : input.length ≤ gm3000MaxIo)
    (hinit : rt.found .decryptInit = true) (hfound : rt.found .decrypt = true) (name : String)
    (lead : Bytes) (outSz : ℕ) :
    Steady (monitor env) (WithHandle rt sess .key hkey)
      (initThen (Flow.Calls.call lib (.decryptInit hkey))
        (Flow.Calls.call lib (.decrypt hkey input gm3000MaxIo)) name lead outSz) := by
  refine initThen_steady (Q := Begun rt sess hkey .decryptInit) (triple_call ?_ ?_)
    (triple_call ?_ ?_) name lead outSz
  · exact fun t ht => ⟨ht.bound rfl hinit, trivial, ht.2⟩
  · exact fun s t ht => ⟨ht.begun _, fun hrv => ⟨ht.begun _, if_pos hrv⟩⟩
  · exact fun t ht => ⟨ht.1.bound rfl hfound, ⟨hinput, rfl⟩, ht.1.2, ht.2⟩
  · exact fun s t ht => ht.1.begun none

theorem symOp_steady (hkey : Ptr) (hinput : input.length ≤ gm3000MaxIo) :
    Steady (monitor env) (WithHandle rt sess .key hkey) (symOp lib rt hkey call input) := by
  rw [symOp]
  split
  · split
    · exact steady_pure _
    · rename_i hfound
      rw [not_or, Bool.not_eq_false, Bool.not_eq_false] at hfound
      exact encrypt_steady hkey hinput hfound.1 hfound.2 _ _ _
  · split
    · exact steady_pure _
    · rename_i hfound
      rw [not_or, Bool.not_eq_false, Bool.not_eq_false] at hfound
      exact decrypt_steady hkey hinput hfound.1 hfound.2 _ _ _
  · exact plain_attempt (fun _ _ _ => rfl) fun hfound _ _ t ht =>
      ⟨ht.bound rfl hfound, ⟨hinput, rfl⟩, ht.2⟩
  · exact steady_pure _

theorem symKeyBytes_length {key : Bytes} (h : symKeyBytes env call = some key) :
    key.length ≤ gm3000MaxIo := by
  rw [symKeyBytes] at h
  split at h
  · exact inputToBytes_length h
  · split at h
    · rw [← Option.some.inj h]
      exact Nat.zero_le _
    · exact inputToBytes_length h

theorem symInputs_sized {key : Bytes} (h : symInputs env call = .ok (key, input)) :
    (key ≠ [] ∧ key.length ≤ gm3000MaxIo) ∧ input.length ≤ gm3000MaxIo := by
  rw [symInputs] at h
  split at h
  · cases h
  · rename_i decoded hkey
    split at h
    · cases h
    · rename_i hne
      split at h
      · cases h
      · rename_i bytes hinput
        obtain ⟨rfl, rfl⟩ := Prod.mk.inj (Except.ok.inj h)
        exact ⟨⟨hne, symKeyBytes_length hkey⟩, inputToBytes_length hinput⟩

theorem fileOp_steady :
    Steady (monitor env) (InApp rt sess) (fileOp lib rt sess call) := by
  rw [fileOp]
  split
  · exact device_attempt (fun t ht => ht.1.1) (fun _ _ _ => rfl) (fun _ => rfl)
      (fun _ _ => trivial) fun _ t ht => ht.2.1
  · exact device_attempt (fun t ht => ht.1.1) (fun _ _ _ => rfl) (fun _ => rfl)
      (fun _ hwant => readLen_sized hwant) fun _ t ht => ht.2.1
  · exact device_attempt (fun t ht => ht.1.1) (fun _ _ _ => rfl) (fun _ => rfl)
      (fun _ hdata => inputToBytes_length (orFail_ok hdata)) fun _ t ht => ht.2.1
  · exact device_attempt (fun t ht => ht.1.1) (fun _ _ _ => rfl) (fun _ => rfl)
      (fun _ _ => trivial) fun _ t ht => ht.2.1
  · exact steady_pure _

theorem dilithiumPair_sized {args : Bytes × Bytes} (h : dilithiumPair call = .ok args) :
    args.1.length = dilithiumPublicKeyLen ∧ args.2.length ≤ gm3000MaxIo := by
  rw [dilithiumPair] at h
  split at h
  · cases h
  · obtain ⟨hpub, hsig⟩ := pairFromHex_ok h
    exact ⟨structFromHex_length hpub, blobFromHex_length hsig⟩

theorem pqcOp_steady (hinput : input.length ≤ gm3000MaxIo) :
    Steady (monitor env) (Ready rt sess) (pqcOp lib rt sess call input) := by
  rw [pqcOp]
  split
  · exact device_attempt (fun t ht => ht.1) (fun _ _ _ => rfl) (fun _ => rfl)
      (fun _ hpub => ⟨structFromHex_length (orFail_ok hpub), rfl, rfl⟩) fun _ t ht => ht.1.dev
  · exact device_attempt (fun t ht => ht.1) (fun _ _ _ => rfl) (fun _ => rfl)
      (fun _ hpri => ⟨hinput, structFromHex_length (orFail_ok hpri), rfl⟩) fun _ t ht => ht.1.dev
  · exact device_attempt (fun t ht => ht.1) (fun _ _ _ => rfl) (fun _ => rfl)
      (fun _ hpri => ⟨hinput, structFromHex_length (orFail_ok hpri), rfl⟩) fun _ t ht => ht.1.dev
  · exact device_attempt (fun t ht => ht.1) (fun _ _ _ => rfl) (fun _ => rfl)
      (fun _ hargs => ⟨(dilithiumPair_sized hargs).1, hinput, (dilithiumPair_sized hargs).2⟩)
      fun _ t ht => ht.1.dev
  · exact steady_pure _

end Operations

section Handlers

variable {σ : Type} {env : Env} {lib : Library σ} {call : TranslatedCall}

/-- A handler that refuses its input before it opens anything, or works on it. -/
theorem refused_follows {refusal : Status Bytes} :
    Triple (monitor env) Rest (pure refusal : Run σ _) fun _ => Rest :=
  triple_pure fun _ ht => ht

/-- A handler that works in a session and closes it. -/
theorem session_follows {opening : Run σ (Status (Runtime × Session))}
    {P : Runtime → Session → Token → Prop} {next : Runtime → Session → Run σ (Status Bytes)}
    (hopening : Triple (monitor env) Rest opening (Opens P))
    (hnext : ∀ rt sess, Triple (monitor env) (P rt sess) (next rt sess) fun _ => Rest) :
    Triple (monitor env) Rest
      (do
        match ← opening with
        | .error err => pure (.error err)
        | .ok (rt, sess) => next rt sess) fun _ => Rest := by
  apply triple_bind hopening
  intro v
  rcases v with err | ⟨rt, sess⟩
  · exact triple_pure fun t ht => ht
  · exact hnext rt sess

theorem closes_after {rt : Runtime} {sess : Session} {pre : Token → Prop}
    {op : Run σ (Status Bytes)}
    (hop : Triple (monitor env) pre op fun _ => InSession rt sess) :
    Triple (monitor env) pre (op >>= fun rc => finalizeErrorOrSuccess lib rc rt sess)
      fun _ => Rest :=
  triple_bind hop fun rc => triple_post (finalize_follows rc rt sess) fun _ _ h => h.2

/-- A handler that works in an application. -/
theorem app_follows (hlib : Clean lib) {rt : Runtime} {sess : Session}
    {op : Session → Run σ (Status Bytes)}
    (hop : ∀ sess, Triple (monitor env) (InApp rt sess) (op sess) fun _ => InSession rt sess) :
    Triple (monitor env) (OnDevice rt sess)
      (do
        match ← openApp env lib rt sess with
        | (sess, .error err) => finalizeErrorOrSuccess lib (.error err) rt sess
        | (sess, .ok ()) =>
          let rc ← op sess
          finalizeErrorOrSuccess lib rc rt sess) fun _ => Rest := by
  apply triple_bind (openApp_follows hlib rt sess)
  rintro ⟨sess, v⟩
  cases v with
  | error err => exact gives_up err (fun t ht => ht.1.1) fun t ht => ht
  | ok _ =>
    exact triple_imp (closes_after (hop sess)) (fun t ht => ⟨ht.1, ht.2.2 rfl, ht.2.1⟩)
      fun _ _ h => h

theorem deviceManage_follows :
    Triple (monitor env) Rest (gm3000DeviceManage env lib call) fun _ => Rest := by
  apply session_follows openBase_follows
  intro rt sess
  exact triple_imp (closes_after (triple_post deviceOp_steady fun _ t ht => ht.1))
    (fun t ht => ht.1) fun _ _ h => h

theorem keyManage_follows (hlib : Clean lib) :
    Triple (monitor env) Rest (gm3000KeyManage env lib call) fun _ => Rest := by
  rw [gm3000KeyManage]
  split
  · rename_i happ
    apply session_follows openBase_follows
    intro rt sess
    exact app_follows hlib fun sess => keyOp_app happ
  · rename_i happ
    rw [Bool.not_eq_true] at happ
    apply session_follows (openAppContainer_follows hlib call)
    intro rt sess
    exact closes_after (keyOp_container hlib happ)

theorem asymCrypto_follows (hlib : Clean lib) :
    Triple (monitor env) Rest (gm3000AsymCrypto env lib call) fun _ => Rest := by
  rw [gm3000AsymCrypto]
  split
  · exact refused_follows
  · rename_i input hinput
    have hlength := inputToBytes_length hinput
    rw [openForAsym]
    split
    · rename_i hdevice
      apply session_follows openBase_follows
      intro rt sess
      exact triple_imp (closes_after (triple_post (asymOp_device hlength hdevice)
        fun _ t ht => ht.1)) (fun t ht => ht.1) fun _ _ h => h
    · rename_i hdevice
      rw [Bool.not_eq_true] at hdevice
      apply session_follows (openAppContainer_follows hlib call)
      intro rt sess
      exact closes_after (triple_post (asymOp_container hlength hdevice) fun _ t ht => ht.1.1)

theorem symCrypto_follows (hlib : Clean lib) :
    Triple (monitor env) Rest (gm3000SymCrypto env lib call) fun _ => Rest := by
  rw [gm3000SymCrypto]
  split
  · exact refused_follows
  · rename_i key input hinputs
    obtain ⟨hkey, hinput⟩ := symInputs_sized hinputs
    apply session_follows openBase_follows
    intro rt sess
    split
    · exact gives_up _ (fun t ht => ht.1.1) fun t ht => ht
    · rename_i hfound
      rw [Bool.not_eq_false] at hfound
      refine triple_bind (triple_imp (setSymmKey_opens hlib hfound hkey _) (fun t ht => ht.1)
        fun _ _ h => h) fun opened => ?_
      refine triple_given (fun t ht => ht) fun hclean => closes_after ?_
      exact withHandle_follows _ hclean (symOp_steady opened.handle hinput)

theorem hashOps_follows (hlib : Clean lib) :
    Triple (monitor env) Rest (gm3000HashOps env lib call) fun _ => Rest := by
  rw [gm3000HashOps]
  split
  · exact refused_follows
  · rename_i input hinput
    have hlength := inputToBytes_length hinput
    apply session_follows openBase_follows
    intro rt sess
    split
    · exact gives_up _ (fun t ht => ht.1.1) fun t ht => ht
    · rename_i hfound
      rw [not_or, Bool.not_eq_false, Bool.not_eq_false] at hfound
      refine triple_bind (triple_imp (digestInit_opens hlib hfound.1 _) (fun t ht => ht.1)
        fun _ _ h => h) fun opened => ?_
      refine triple_given (fun t ht => ht) fun hclean => closes_after ?_
      refine withHandle_follows _ hclean (steady_bind (plain_call (fun _ _ => rfl) ?_) fun _ => ?_)
      · exact fun t ht => ⟨ht.bound rfl hfound.2, ⟨hlength, rfl⟩, ht.2⟩
      · exact steady_pure _

theorem fileOps_follows (hlib : Clean lib) :
    Triple (monitor env) Rest (gm3000FileOps env lib call) fun _ => Rest := by
  rw [gm3000FileOps]
  split
  · exact refused_follows
  · apply session_follows openBase_follows
    intro rt sess
    exact app_follows hlib fun sess => triple_post fileOp_steady fun _ t ht => ht.1.1

theorem pqcOps_follows :
    Triple (monitor env) Rest (gm3000PqcOps env lib call) fun _ => Rest := by
  rw [gm3000PqcOps]
  split
  · exact refused_follows
  · rename_i input hinput
    apply session_follows openBase_follows
    intro rt sess
    exact triple_imp (closes_after (triple_post (pqcOp_steady (inputToBytes_length hinput))
      fun _ t ht => ht.1)) (fun t ht => ht.1) fun _ _ h => h

theorem handler_follows (hlib : Clean lib) (h : Gm3000Handler) :
    Triple (monitor env) Rest (h.run env lib call) fun _ => Rest := by
  cases h with
  | deviceManage => exact deviceManage_follows
  | keyManage => exact keyManage_follows hlib
  | asymCrypto => exact asymCrypto_follows hlib
  | symCrypto => exact symCrypto_follows hlib
  | hashOps => exact hashOps_follows hlib
  | fileOps => exact fileOps_follows hlib
  | pqcOps => exact pqcOps_follows

/-- Calls that are dispatched to the adapter one after the other. -/
def serveCalls (env : Env) (lib : Library σ) :
    List (Gm3000Handler × TranslatedCall) → Run σ (List (Status Bytes))
  | [] => pure []
  | (h, call) :: rest => do
    let rc ← h.run env lib call
    let rcs ← serveCalls env lib rest
    pure (rc :: rcs)

theorem serveCalls_follows (hlib : Clean lib) (calls : List (Gm3000Handler × TranslatedCall)) :
    Triple (monitor env) Rest (serveCalls env lib calls) fun _ => Rest := by
  induction calls with
  | nil => exact triple_pure fun t ht => ht
  | cons first rest ih =>
    refine triple_bind (handler_follows hlib first.1) fun rc => triple_bind ih fun rcs => ?_
    exact triple_pure fun t ht => ht

/-- Where the token stands behind some calls. -/
def tokenAfter (env : Env) (made : List (Call skf)) : Token := final (monitor env) made closed

theorem obliging_clean (exports : SkfSymbol → Bool) (out : Bytes) :
    Clean (obliging exports out) where
  openApplication _ _ _ := by simp [obliging]
  openContainer _ _ _ := by simp [obliging]
  setSymmKey _ _ _ _ := by simp [obliging]
  digestInit _ _ _ := by simp [obliging]

/-- An encryption and a digest. -/
def sampleCalls : List (Gm3000Handler × TranslatedCall) :=
  [(.symCrypto, sampleCall .sym .encrypt "sm4-cbc" "abc" "0123456789abcdef"),
    (.hashOps, sampleCall .hash .hash "sm3" "abc" "")]

def sampleMade : List (Call skf) :=
  (serveCalls (fun _ => none) (obliging (fun _ => true) [1, 2]) sampleCalls ()).calls

end Handlers

end Ucisdk.SkfConforms
