import Ucisdk.Gm3000
import Ucisdk.HexText

/-!
# Bytes of the token in an answer

A handler answers with the bytes that the library returned, in hex. The hex
text goes through a buffer of its own: some operations size it by what they
show, the others take one of 512 bytes, which holds 255 bytes in hex.
-/

set_option autoImplicit false

namespace Ucisdk.SkfOutput

open Ucisdk.CString Ucisdk.Common Ucisdk.Protocol Ucisdk.Resource Ucisdk.Translator
open Ucisdk.SkfApi Ucisdk.SkfText Ucisdk.SkfSession Ucisdk.Gm3000 Ucisdk.HexText
open Flow.Calls

/-- A byte string that the library returned, the text that introduces it in
the answer, the length of its buffer and the size of its hex buffer. -/
structure Shown where
  lead : Bytes
  out : Bytes
  cap : ℕ
  hexSize : ℕ

def onOk (rv : Ulong) (shown : List Shown) : List Shown := if rv = sarOk then shown else []

/-- What a call that answered `SAR_OK` returned to be shown. -/
def shown (call : TranslatedCall) : Call skf → List Shown
  | ⟨.genRandom _ len, reply⟩ =>
    onOk reply.rv [⟨lit "gm3000-random(" ++ decimal len.toNat ++ lit ",",
      filled len.toNat reply.out, gm3000MaxIo, gm3000ResultHex⟩]
  | ⟨.genECCKeyPair _ _, reply⟩ =>
    onOk reply.rv [⟨lit "gm3000-keypair(sm2,pub=hex:", filled eccPublicKeyBlobLen reply.out,
      eccPublicKeyBlobLen, gm3000ResultHex⟩]
  | ⟨.genRSAKeyPair _ _, reply⟩ =>
    onOk reply.rv [⟨lit "gm3000-keypair(rsa,pub=hex:", filled rsaPublicKeyBlobLen reply.out,
      rsaPublicKeyBlobLen, gm3000ResultHex⟩]
  | ⟨.exportPublicKey _ cap, reply⟩ =>
    onOk reply.rv [⟨lit "gm3000-export-public-key(hex:", reply.out, cap, gm3000ResultHex⟩]
  | ⟨.eccSignData _ _, reply⟩ =>
    onOk reply.rv [⟨lit "gm3000-sign(sm2,hex:", filled eccSignatureBlobLen reply.out,
      eccSignatureBlobLen, hexRoom eccSignatureBlobLen⟩]
  | ⟨.rsaSignData _ _ cap, reply⟩ =>
    onOk reply.rv [⟨lit "gm3000-sign(rsa,hex:", reply.out, cap, gm3000ResultHex⟩]
  | ⟨.extECCEncrypt _ _ _, reply⟩ =>
    onOk reply.rv [⟨lit "gm3000-cipher(sm2,hex:", filled eccCipherBlobLen reply.out,
      eccCipherBlobLen, hexRoom eccCipherBlobLen⟩]
  | ⟨.extRSAPubKeyOperation _ _ _ cap, reply⟩ =>
    onOk reply.rv [⟨lit "gm3000-cipher(rsa,hex:", reply.out, cap, gm3000ResultHex⟩]
  | ⟨.eccDecrypt _ _ _ cap, reply⟩ =>
    onOk reply.rv [⟨lit "gm3000-plain(sm2,hex:", reply.out, cap, gm3000ResultHex⟩]
  | ⟨.rsaDecrypt _ _ _ cap, reply⟩ =>
    onOk reply.rv [⟨lit "gm3000-plain(rsa,hex:", reply.out, cap, gm3000ResultHex⟩]
  | ⟨.encrypt _ _ cap, reply⟩ =>
    onOk reply.rv [⟨lit "gm3000-sym-enc(hex:", reply.out, cap, gm3000ResultHex⟩]
  | ⟨.decrypt _ _ cap, reply⟩ =>
    onOk reply.rv [⟨lit "gm3000-sym-dec(hex:", reply.out, cap, gm3000ResultHex⟩]
  | ⟨.mac _ _ cap, reply⟩ =>
    onOk reply.rv [⟨lit "gm3000-mac(hex:", reply.out, cap, gm3000ResultHex⟩]
  | ⟨.digest _ _ cap, reply⟩ =>
    onOk reply.rv [⟨lit "gm3000-hash(" ++ call.call.algorithm.bytes ++ lit ",hex:", reply.out, cap,
      hexRoom cap⟩]
  | ⟨.readFile _ _ _ _, reply⟩ =>
    onOk reply.rv [⟨lit "gm3000-read-file(len=" ++ decimal reply.out.length ++ lit ",hex:",
      reply.out, gm3000MaxIo, gm3000ResultHex⟩]
  | ⟨.encapKyber _ _ cap sharedCap, reply⟩ =>
    onOk reply.rv [⟨lit "gm3000-kem-ct(hex:", reply.out, cap, gm3000ResultHex⟩,
      ⟨lit "|ss(hex:", reply.shared, sharedCap, hexRoom sharedCap⟩]
  | ⟨.decapKyber _ _ _ cap, reply⟩ =>
    onOk reply.rv [⟨lit "gm3000-kem-ss(hex:", reply.out, cap, gm3000ResultHex⟩]
  | ⟨.signDilithium _ _ _ cap, reply⟩ =>
    onOk reply.rv [⟨lit "gm3000-pqc-sign(hex:", reply.out, cap, gm3000ResultHex⟩]
  | _ => []

def shownBy (call : TranslatedCall) (calls : List (Call skf)) : List Shown :=
  calls.flatMap (shown call)

/-- Read from the front, the text is made of the introductions, each followed
by a hex text that decodes to its value, and a closing parenthesis. -/
def Spelled : List Shown → Bytes → Prop
  | [], text => text = []
  | first :: rest, text => ∃ hex tail, text = first.lead ++ (hex ++ 41 :: tail) ∧
      decodeHex hex first.out.length = some first.out ∧ Spelled rest tail

section Frame

/-- The text that a handler makes of what is shown. -/
def frame (outs : List Shown) : Bytes := outs.flatMap fun o => hexAnswer o.lead o.out o.hexSize

/-- A text is spelled out exactly if every value fits its hex buffer. -/
theorem spelled_frame_iff (outs : List Shown) :
    Spelled outs (frame outs) ↔ ∀ o ∈ outs, o.out.length ≤ (o.hexSize - 1) / 2 := by
  induction outs with
  | nil => simp [Spelled, frame]
  | cons o outs ih =>
    have htext : frame (o :: outs) =
        o.lead ++ (bytesToHex o.out o.hexSize ++ 41 :: frame outs) := by
      show hexAnswer o.lead o.out o.hexSize ++ frame outs = _
      rw [hexAnswer, List.append_assoc, List.append_assoc]
      rfl
    have hparen : (41 : UInt8) ∉ bytesToHex o.out o.hexSize := by
      rw [bytesToHex_eq]
      exact paren_not_mem (decodeHex_hexOf _ le_rfl)
    rw [List.forall_mem_cons, ← ih, ← decodeHex_bytesToHex_iff, htext]
    constructor
    · rintro ⟨hex, tail, heq, hdecode, hrest⟩
      obtain ⟨hhex, htail⟩ :=
        until_paren hparen (paren_not_mem hdecode) (List.append_cancel_left heq)
      rw [hhex, htail]
      exact ⟨hdecode, hrest⟩
    · rintro ⟨hdecode, hrest⟩
      exact ⟨_, _, rfl, hdecode, hrest⟩

end Frame

section Told

variable {call : TranslatedCall}

theorem hexAnswer_length (lead out : Bytes) (outSz : ℕ) :
    (hexAnswer lead out outSz).length ≤ lead.length + outSz + 1 := by
  rw [hexAnswer, List.length_append, List.length_append, bytesToHex_eq, hexOf_length,
    List.length_take]
  show _ + 1 ≤ _
  omega

/-- The hex buffer has 512 bytes, or room for all that the buffer can hold. -/
def Sized (o : Shown) : Prop := o.hexSize = gm3000ResultHex ∨ o.hexSize = hexRoom o.cap

/-- What has to be shown is in the value, and the text is short enough for
the response. -/
def Told (call : TranslatedCall) (v : Status Bytes) (calls : List (Call skf)) : Prop :=
  shownBy call calls ≠ [] → (∀ o ∈ shownBy call calls, o.out.length ≤ o.cap) →
    v = .ok (frame (shownBy call calls)) ∧
      (frame (shownBy call calls)).length < maxResponseLen ∧ ∀ o ∈ shownBy call calls, Sized o

theorem told_silent {v : Status Bytes} {calls : List (Call skf)} (h : shownBy call calls = []) :
    Told call v calls := fun hne => absurd h hne

theorem shownBy_one (c : Call skf) : shownBy call [c] = shown call c := List.flatMap_singleton _ _

/-- The answer to a call that returned bytes in one buffer. -/
theorem told_hex (cap : ℕ) {c : Call skf} {reply : Output} {lead : Bytes} {outSz : ℕ}
    (hshown : shown call c = onOk reply.rv [⟨lead, reply.out, cap, outSz⟩])
    (hlead : reply.out.length ≤ cap → lead.length ≤ 300)
    (hsize : outSz = gm3000ResultHex ∨ outSz = hexRoom cap) (hsmall : outSz ≤ 1000)
    (name : String) : Told call (answerHex name reply lead outSz) [c] := by
  intro hne hfit
  rw [shownBy_one, hshown] at hne hfit ⊢
  by_cases hrv : reply.rv = sarOk
  · rw [onOk, if_pos hrv] at hfit ⊢
    have hframe : frame [⟨lead, reply.out, cap, outSz⟩] = hexAnswer lead reply.out outSz :=
      List.flatMap_singleton _ _
    have hlen := hexAnswer_length lead reply.out outSz
    have hlead := hlead (hfit _ (List.mem_singleton_self _))
    rw [hframe, answerHex, if_neg (by simp [hrv])]
    refine ⟨rfl, ?_, fun o ho => ?_⟩
    · show _ < 2048
      omega
    · rw [List.mem_singleton.mp ho]
      exact hsize
  · rw [onOk, if_neg hrv] at hne
    exact absurd rfl hne

/-- The same with a buffer of 2048 bytes and a hex buffer of 512 bytes. -/
theorem told_fixed {c : Call skf} {reply : Output} {lead : Bytes} (name : String)
    (hshown : shown call c = onOk reply.rv [⟨lead, reply.out, gm3000MaxIo, gm3000ResultHex⟩])
    (hlead : lead.length ≤ 300) : Told call (answerHex name reply lead gm3000ResultHex) [c] :=
  told_hex gm3000MaxIo hshown (fun _ => hlead) (.inl rfl) (by decide) name

theorem told_status {c : Call skf} (hshown : shown call c = []) (v : Status Bytes) :
    Told call v [c] := by
  apply told_silent
  rw [shownBy_one, hshown]

end Told

section Rules

variable {σ α β : Type} {env : Env} {lib : Library σ} {call : TranslatedCall}

/-- A part of a program that gets nothing to show. -/
def Quiet (call : TranslatedCall) (act : Run σ α) : Prop :=
  Runs act fun _ calls => shownBy call calls = []

/-- A part of a program whose value tells what it got to show. -/
def Tells (call : TranslatedCall) (act : Run σ (Status Bytes)) : Prop := Runs act (Told call)

theorem quiet_pure (a : α) : Quiet call (pure a : Run σ α) := runs_pure rfl

theorem quiet_call {op : SkfCall} (h : ∀ reply, shown call ⟨op, reply⟩ = []) :
    Quiet call (Flow.Calls.call lib op) := by
  apply runs_call
  intro reply
  rw [shownBy_one, h]

theorem shownBy_append (first rest : List (Call skf)) :
    shownBy call (first ++ rest) = shownBy call first ++ shownBy call rest :=
  List.flatMap_append

theorem quiet_bind {act : Run σ α} {next : α → Run σ β} (hact : Quiet call act)
    (hnext : ∀ a, Quiet call (next a)) : Quiet call (act >>= next) := by
  refine runs_bind hact fun a first hfirst => ?_
  refine runs_imp (hnext a) fun b rest hrest => ?_
  rw [shownBy_append, hfirst, hrest]
  rfl

theorem tells_pure (v : Status Bytes) : Tells call (pure v : Run σ (Status Bytes)) :=
  runs_pure (told_silent rfl)

theorem tells_after {act : Run σ α} {next : α → Run σ (Status Bytes)} (hact : Quiet call act)
    (hnext : ∀ a, Tells call (next a)) : Tells call (act >>= next) := by
  refine runs_bind hact fun a first hfirst => ?_
  refine runs_imp (hnext a) fun v rest htold => ?_
  rw [Told, shownBy_append, hfirst, List.nil_append]
  exact htold

/-- A part of a program that returns a value it was given and gets nothing to show. -/
def Returns (call : TranslatedCall) (v : Status Bytes) (act : Run σ (Status Bytes)) : Prop :=
  Runs act fun v' calls => v' = v ∧ shownBy call calls = []

theorem returns_pure (v : Status Bytes) : Returns call v (pure v : Run σ (Status Bytes)) :=
  runs_pure ⟨rfl, rfl⟩

theorem returns_after {v : Status Bytes} {act : Run σ α} {next : α → Run σ (Status Bytes)}
    (hact : Quiet call act) (hnext : ∀ a, Returns call v (next a)) :
    Returns call v (act >>= next) := by
  refine runs_bind hact fun a first hfirst => ?_
  refine runs_imp (hnext a) fun v' rest hrest => ?_
  rw [shownBy_append, hfirst]
  exact hrest

/-- What comes behind may close but not change the value. -/
theorem tells_before {act : Run σ (Status Bytes)} {next : Status Bytes → Run σ (Status Bytes)}
    (hact : Tells call act) (hnext : ∀ v, Returns call v (next v)) :
    Tells call (act >>= next) := by
  refine runs_bind hact fun v first htold => ?_
  refine runs_imp (hnext v) fun v' rest hclosed => ?_
  obtain ⟨hv, hrest⟩ := hclosed
  rw [hv, Told, shownBy_append, hrest, List.append_nil]
  exact htold

theorem tells_perform {args : Status α} {op : α → SkfCall}
    {answer : (a : α) → (op a).Reply → Status Bytes}
    (h : ∀ a reply, args = .ok a → Told call (answer a reply) [⟨op a, reply⟩]) :
    Tells call (perform lib args op answer) := by
  cases args with
  | error err => exact tells_pure _
  | ok a => exact fun s => h a _ rfl

theorem tells_attempt {rt : Runtime} {sym : SkfSymbol} {args : Status α} {op : α → SkfCall}
    {answer : (a : α) → (op a).Reply → Status Bytes}
    (h : ∀ a reply, args = .ok a → Told call (answer a reply) [⟨op a, reply⟩]) :
    Tells call (attempt lib rt sym args op answer) := by
  rw [attempt]
  split
  · exact tells_pure _
  · exact tells_perform h

end Rules

section Operations

variable {σ : Type} {env : Env} {lib : Library σ}

/-- A text of a literal, a number and a literal is short. -/
theorem lead_length (front back : Bytes) {n : ℕ} (hn : n < 10 ^ 10)
    (h : front.length + back.length ≤ 290) : (front ++ decimal n ++ back).length ≤ 300 := by
  have hdigits := decimal_length (by omega) hn
  rw [List.length_append, List.length_append]
  omega

theorem deviceOp_tells (sess : Session) (call : TranslatedCall) :
    Tells call (deviceOp lib sess call) := by
  rw [deviceOp]
  split
  · exact tells_perform fun _ _ _ => told_status rfl _
  · apply tells_perform
    intro len reply _
    have hlead := lead_length (lit "gm3000-random(") (lit ",")
      (lt_trans len.toNat_lt (by decide)) (by decide)
    exact told_fixed _ rfl hlead
  · exact tells_pure _

theorem keyGeneratePair_tells (rt : Runtime) (sess : Session) (call : TranslatedCall) :
    Tells call (keyGeneratePair lib rt sess call) := by
  rw [keyGeneratePair]
  split
  · exact tells_attempt fun _ reply _ =>
      told_hex eccPublicKeyBlobLen rfl (fun _ => by decide) (.inl rfl) (by decide) _
  · split
    · exact tells_attempt fun _ reply _ =>
        told_hex rsaPublicKeyBlobLen rfl (fun _ => by decide) (.inl rfl) (by decide) _
    · exact tells_pure _

theorem verifyPin_quiet (call : TranslatedCall) (sess : Session) (pin : Bytes) :
    Quiet call (verifyPin lib sess pin) := by
  apply quiet_bind (quiet_call fun _ => rfl)
  intro verified
  split
  · exact quiet_pure _
  · exact quiet_pure _

theorem closeIf_quiet (call : TranslatedCall) (handle : Ptr) (found : Bool) {op : Ptr → SkfCall}
    (h : ∀ reply, shown call ⟨op handle, reply⟩ = []) :
    Quiet call (closeIf lib handle found op) := by
  rw [closeIf]
  split
  · exact quiet_bind (quiet_call h) fun _ => quiet_pure _
  · exact quiet_pure _

theorem keyOp_tells (rt : Runtime) (sess : Session) (call : TranslatedCall) :
    Tells call (keyOp env lib rt sess call) := by
  rw [keyOp]
  split
  · rw [keyAccess]
    split
    · exact tells_pure _
    · split
      · exact tells_pure _
      · apply tells_after (verifyPin_quiet call sess _)
        intro v
        split
        · exact tells_pure _
        · exact tells_pure _
  · exact tells_pure _
  · exact keyGeneratePair_tells rt sess call
  · exact tells_attempt fun _ reply _ =>
      told_fixed _ rfl (by decide)
  · rw [importKey]
    split
    · exact tells_pure _
    · split
      · exact tells_pure _
      · apply tells_after (quiet_call fun _ => rfl)
        intro opened
        split
        · exact tells_pure _
        · apply tells_after (closeIf_quiet call _ _ fun _ => rfl)
          intro _
          exact tells_pure _
  · exact tells_attempt fun _ _ _ => told_status rfl _
  · exact tells_pure _

theorem asymOp_tells (rt : Runtime) (sess : Session) (call : TranslatedCall) (input : Bytes) :
    Tells call (asymOp lib rt sess call input) := by
  rw [asymOp]
  split
  · rw [verifyOp]
    split
    · exact tells_pure _
    · split
      · exact tells_attempt fun _ _ _ => told_status rfl _
      · split
        · exact tells_attempt fun _ _ _ => told_status rfl _
        · exact tells_pure _
  · split
    · rw [signOp]
      split
      · exact tells_attempt fun _ reply _ =>
          told_hex eccSignatureBlobLen rfl (fun _ => by decide) (.inr rfl) (by decide) _
      · exact tells_attempt fun _ reply _ => told_fixed _ rfl (by decide)
    · split
      · rw [encryptOp]
        split
        · exact tells_attempt fun _ reply _ =>
            told_hex eccCipherBlobLen rfl (fun _ => by decide) (.inr rfl) (by decide) _
        · exact tells_attempt fun _ reply _ => told_fixed _ rfl (by decide)
      · split
        · rw [decryptOp]
          split
          · exact tells_attempt fun _ reply _ => told_fixed _ rfl (by decide)
          · exact tells_attempt fun _ reply _ => told_fixed _ rfl (by decide)
        · exact tells_pure _

theorem initThen_tells {call : TranslatedCall} {init : Run σ Ulong} {op : Run σ Output}
    {name : String} {lead : Bytes} (hinit : Quiet call init)
    (hop : Runs op fun reply calls => Told call (answerHex name reply lead gm3000ResultHex) calls) :
    Tells call (initThen init op name lead gm3000ResultHex) := by
  apply tells_after hinit
  intro rv
  split
  · exact tells_pure _
  · refine runs_bind hop fun reply first htold => ?_
    apply runs_pure
    rw [List.append_nil]
    exact htold

theorem symOp_tells (rt : Runtime) (hkey : Ptr) (call : TranslatedCall) (input : Bytes) :
    Tells call (symOp lib rt hkey call input) := by
  rw [symOp]
  split
  · split
    · exact tells_pure _
    · exact initThen_tells (quiet_call fun _ => rfl)
        (runs_call fun reply => told_fixed _ rfl (by decide))
  · split
    · exact tells_pure _
    · exact initThen_tells (quiet_call fun _ => rfl)
        (runs_call fun reply => told_fixed _ rfl (by decide))
  · exact tells_attempt fun _ reply _ => told_fixed _ rfl (by decide)
  · exact tells_pure _

theorem digest_tells (call : TranslatedCall) (hhash : Ptr) (input : Bytes) :
    Tells call (do
      let reply ← Flow.Calls.call lib (.digest hhash input digestLen)
      pure (answerHex "SKF_Digest" reply
        (lit "gm3000-hash(" ++ call.call.algorithm.bytes ++ lit ",hex:") (hexRoom digestLen))) := by
  intro s
  have hlead : (lit "gm3000-hash(" ++ call.call.algorithm.bytes ++ lit ",hex:").length ≤ 300 := by
    have hfits : call.call.algorithm.bytes.length < 256 := call.call.algorithm.fits
    have hfront : (lit "gm3000-hash(").length = 12 := by decide
    have hback : (lit ",hex:").length = 5 := by decide
    rw [List.length_append, List.length_append]
    omega
  exact told_hex digestLen rfl (fun _ => hlead) (.inr rfl) (by decide) _

theorem withHandle_tells {call : TranslatedCall} (rt : Runtime) (opened : Opened) (name : String)
    {op : Ptr → Run σ (Status Bytes)} (hop : ∀ handle, Tells call (op handle)) :
    Tells call (withHandle lib rt opened name op) := by
  have hrc : Tells call (if opened.rv ≠ sarOk then
      (pure (failed (lit name) opened.rv) : Run σ (Status Bytes)) else op opened.handle) := by
    split
    · exact tells_pure _
    · exact hop _
  apply tells_before hrc
  intro v
  exact returns_after (closeIf_quiet call _ _ fun _ => rfl) fun _ => returns_pure v

theorem fileOp_tells (rt : Runtime) (sess : Session) (call : TranslatedCall) :
    Tells call (fileOp lib rt sess call) := by
  rw [fileOp]
  split
  · exact tells_attempt fun _ _ _ => told_status rfl _
  · apply tells_attempt
    intro want reply _
    apply told_hex gm3000MaxIo rfl _ (.inl rfl) (by decide)
    intro hfit
    have hcap : reply.out.length ≤ 2048 := hfit
    apply lead_length (lit "gm3000-read-file(len=") (lit ",hex:") _ (by decide)
    omega
  · exact tells_attempt fun _ _ _ => told_status rfl _
  · exact tells_attempt fun _ _ _ => told_status rfl _
  · exact tells_pure _

/-- The ciphertext and the shared secret go through a hex buffer each. -/
theorem told_encap {call : TranslatedCall} (dev : Ptr) (pub : Bytes) (reply : Encapsulated) :
    Told call (if reply.rv ≠ sarOk then failed (lit "SKF_Encap_Kyber") reply.rv
      else .ok (hexAnswer (lit "gm3000-kem-ct(hex:") reply.out gm3000ResultHex ++
        hexAnswer (lit "|ss(hex:") reply.shared (hexRoom sharedLen)))
      [⟨.encapKyber dev pub gm3000MaxIo sharedLen, reply⟩] := by
  intro hne hfit
  rw [shownBy_one, shown] at hne hfit ⊢
  by_cases hrv : reply.rv = sarOk
  · rw [onOk, if_pos hrv] at hfit ⊢
    rw [if_neg (by simp [hrv]), frame, List.flatMap_cons, List.flatMap_singleton]
    refine ⟨rfl, ?_, ?_⟩
    · have hct : (hexAnswer (lit "gm3000-kem-ct(hex:") reply.out 512).length ≤ 18 + 512 + 1 :=
        hexAnswer_length _ _ _
      have hss : (hexAnswer (lit "|ss(hex:") reply.shared 257).length ≤ 8 + 257 + 1 :=
        hexAnswer_length _ _ _
      rw [List.length_append]
      show (hexAnswer (lit "gm3000-kem-ct(hex:") reply.out 512).length +
        (hexAnswer (lit "|ss(hex:") reply.shared 257).length < 2048
      omega
    · intro o ho
      rw [List.mem_cons, List.mem_singleton] at ho
      obtain rfl | rfl := ho
      · exact .inl rfl
      · exact .inr rfl
  · rw [onOk, if_neg hrv] at hne
    exact absurd rfl hne

theorem pqcOp_tells (rt : Runtime) (sess : Session) (call : TranslatedCall) (input : Bytes) :
    Tells call (pqcOp lib rt sess call input) := by
  rw [pqcOp]
  split
  · exact tells_attempt fun pub reply _ => told_encap sess.dev pub reply
  · exact tells_attempt fun _ reply _ => told_fixed _ rfl (by decide)
  · exact tells_attempt fun _ reply _ => told_fixed _ rfl (by decide)
  · exact tells_attempt fun _ _ _ => told_status rfl _
  · exact tells_pure _

end Operations

section Openings

variable {σ : Type} {env : Env} {lib : Library σ} {call : TranslatedCall}

theorem lastDlError_quiet : Quiet call (lastDlError lib) :=
  quiet_bind (quiet_call fun _ => rfl) fun _ => quiet_pure _

theorem loadSymbol_quiet (handle : Ptr) (sym : SkfSymbol) (required : Bool) :
    Quiet call (loadSymbol lib handle sym required) := by
  apply quiet_bind (quiet_call fun _ => rfl)
  intro _
  apply quiet_bind (quiet_call fun _ => rfl)
  intro ptr
  split
  · split
    · exact quiet_bind lastDlError_quiet fun _ => quiet_pure _
    · exact quiet_pure _
  · exact quiet_pure _

theorem loadSymbols_quiet (required : Bool) (syms : List SkfSymbol) (rt : Runtime) :
    Quiet call (loadSymbols lib required syms rt) := by
  induction syms generalizing rt with
  | nil => exact quiet_pure _
  | cons sym syms ih =>
    apply quiet_bind (loadSymbol_quiet rt.lib sym required)
    intro v
    split
    · exact quiet_pure _
    · exact ih _

theorem openRuntime_quiet : Quiet call (openRuntime env lib) := by
  apply quiet_bind (quiet_call fun _ => rfl)
  intro handle
  split
  · exact quiet_bind lastDlError_quiet fun _ => quiet_pure _
  · apply quiet_bind (loadSymbols_quiet true _ _)
    intro v
    split
    · exact quiet_pure _
    · exact loadSymbols_quiet false _ _

theorem closeRuntime_quiet (rt : Runtime) : Quiet call (closeRuntime lib rt) := by
  rw [closeRuntime]
  split
  · exact quiet_call fun _ => rfl
  · exact quiet_pure _

theorem enumFirstDevice_quiet : Quiet call (enumFirstDevice lib) := by
  apply quiet_bind (quiet_call fun _ => rfl)
  intro first
  split
  · exact quiet_pure _
  · apply quiet_bind (quiet_call fun _ => rfl)
    intro buf
    split
    · exact quiet_pure _
    · apply quiet_bind (quiet_call fun _ => rfl)
      intro second
      apply quiet_bind (quiet_call fun _ => rfl)
      intro _
      split
      · exact quiet_pure _
      · exact quiet_pure _

theorem openDevice_quiet : Quiet call (openDevice env lib) := by
  have hname : Quiet call (deviceName env lib) := by
    rw [deviceName]
    split
    · exact quiet_pure _
    · exact enumFirstDevice_quiet
  apply quiet_bind hname
  intro v
  split
  · exact quiet_pure _
  · apply quiet_bind (quiet_call fun _ => rfl)
    intro opened
    split
    · exact quiet_pure _
    · exact quiet_pure _

theorem openApp_quiet (rt : Runtime) (sess : Session) : Quiet call (openApp env lib rt sess) := by
  rw [openApp]
  split
  · exact quiet_pure _
  · split
    · exact quiet_pure _
    · apply quiet_bind (quiet_call fun _ => rfl)
      intro opened
      split
      · exact quiet_pure _
      · exact quiet_pure _

theorem openContainer_quiet (rt : Runtime) (sess : Session) (call' : TranslatedCall) :
    Quiet call (openContainer env lib rt sess call') := by
  rw [openContainer]
  split
  · exact quiet_pure _
  · apply quiet_bind (quiet_call fun _ => rfl)
    intro opened
    split
    · exact quiet_pure _
    · exact quiet_pure _

theorem verifyPinIfSet_quiet (rt : Runtime) (sess : Session) :
    Quiet call (verifyPinIfSet env lib rt sess) := by
  rw [verifyPinIfSet]
  split
  · exact quiet_pure _
  · split
    · exact quiet_pure _
    · apply quiet_bind (verifyPin_quiet call sess _)
      intro v
      split
      · exact quiet_pure _
      · exact quiet_pure _

theorem closeSession_quiet (rt : Runtime) (sess : Session) :
    Quiet call (closeSession lib rt sess) := by
  apply quiet_bind (closeIf_quiet call _ _ fun _ => rfl)
  intro _
  apply quiet_bind (closeIf_quiet call _ _ fun _ => rfl)
  intro _
  exact closeIf_quiet call _ _ fun _ => rfl

theorem finalize_quiet {α : Type} (rc : α) (rt : Runtime) (sess : Session) :
    Quiet call (finalizeErrorOrSuccess lib rc rt sess) := by
  apply quiet_bind (closeSession_quiet rt sess)
  intro _
  exact quiet_bind (closeRuntime_quiet rt) fun _ => quiet_pure _

theorem finalize_returns (rc : Status Bytes) (rt : Runtime) (sess : Session) :
    Returns call rc (finalizeErrorOrSuccess lib rc rt sess) := by
  apply returns_after (closeSession_quiet rt sess)
  intro _
  exact returns_after (closeRuntime_quiet rt) fun _ => returns_pure rc

theorem openBase_quiet : Quiet call (openBase env lib) := by
  apply quiet_bind openRuntime_quiet
  intro v
  split
  · exact quiet_pure _
  · apply quiet_bind openDevice_quiet
    intro v
    split
    · exact quiet_bind (closeRuntime_quiet _) fun _ => quiet_pure _
    · exact quiet_pure _

theorem openAppContainer_quiet (call' : TranslatedCall) :
    Quiet call (openAppContainer env lib call') := by
  apply quiet_bind openBase_quiet
  intro v
  split
  · exact quiet_pure _
  · apply quiet_bind (openApp_quiet _ _)
    intro v
    split
    · exact finalize_quiet _ _ _
    · apply quiet_bind (verifyPinIfSet_quiet _ _)
      intro v
      split
      · exact finalize_quiet _ _ _
      · apply quiet_bind (openContainer_quiet _ _ call')
        intro v
        split
        · exact finalize_quiet _ _ _
        · exact quiet_pure _

end Openings

section Handlers

variable {σ : Type} {env : Env} {lib : Library σ}

theorem closing_tells {call : TranslatedCall} {op : Run σ (Status Bytes)} (hop : Tells call op)
    (rt : Runtime) (sess : Session) :
    Tells call (op >>= fun rc => finalizeErrorOrSuccess lib rc rt sess) :=
  tells_before hop fun rc => finalize_returns rc rt sess

theorem finalize_tells {call : TranslatedCall} (rc : Status Bytes) (rt : Runtime) (sess : Session) :
    Tells call (finalizeErrorOrSuccess lib rc rt sess) :=
  runs_imp (finalize_returns rc rt sess) fun _ _ h => told_silent h.2

/-- A handler that works on what was opened. -/
theorem opening_tells {call : TranslatedCall} {opening : Run σ (Status (Runtime × Session))}
    {next : Runtime → Session → Run σ (Status Bytes)} (hopening : Quiet call opening)
    (hnext : ∀ rt sess, Tells call (next rt sess)) :
    Tells call (do
      match ← opening with
      | .error err => pure (.error err)
      | .ok (rt, sess) => next rt sess) := by
  apply tells_after hopening
  intro v
  split
  · exact tells_pure _
  · exact hnext _ _

theorem onApp_tells {call : TranslatedCall} {op : Session → Run σ (Status Bytes)} (rt : Runtime)
    (sess : Session) (hop : ∀ sess, Tells call (op sess)) :
    Tells call (do
      match ← openApp env lib rt sess with
      | (sess, .error err) => finalizeErrorOrSuccess lib (.error err) rt sess
      | (sess, .ok ()) =>
        let rc ← op sess
        finalizeErrorOrSuccess lib rc rt sess) := by
  apply tells_after (openApp_quiet rt sess)
  intro v
  split
  · exact finalize_tells _ _ _
  · exact closing_tells (hop _) rt _

theorem keyManage_tells (call : TranslatedCall) : Tells call (gm3000KeyManage env lib call) := by
  rw [gm3000KeyManage]
  split
  · exact opening_tells openBase_quiet fun rt sess =>
      onApp_tells rt sess fun sess => keyOp_tells rt sess call
  · exact opening_tells (openAppContainer_quiet call) fun rt sess =>
      closing_tells (keyOp_tells rt sess call) rt sess

theorem asymCrypto_tells (call : TranslatedCall) : Tells call (gm3000AsymCrypto env lib call) := by
  have hopening : Quiet call (openForAsym env lib call) := by
    rw [openForAsym]
    split
    · exact openBase_quiet
    · exact openAppContainer_quiet call
  rw [gm3000AsymCrypto]
  split
  · exact tells_pure _
  · exact opening_tells hopening fun rt sess =>
      closing_tells (asymOp_tells rt sess call _) rt sess

theorem symCrypto_tells (call : TranslatedCall) : Tells call (gm3000SymCrypto env lib call) := by
  rw [gm3000SymCrypto]
  split
  · exact tells_pure _
  · apply opening_tells openBase_quiet
    intro rt sess
    split
    · exact finalize_tells _ rt sess
    · apply tells_after (quiet_call fun _ => rfl)
      intro opened
      exact closing_tells (withHandle_tells rt opened _ fun hkey => symOp_tells rt hkey call _) rt sess

theorem hashOps_tells (call : TranslatedCall) : Tells call (gm3000HashOps env lib call) := by
  rw [gm3000HashOps]
  split
  · exact tells_pure _
  · apply opening_tells openBase_quiet
    intro rt sess
    split
    · exact finalize_tells _ rt sess
    · apply tells_after (quiet_call fun _ => rfl)
      intro opened
      exact closing_tells (withHandle_tells rt opened _ fun hhash => digest_tells call hhash _) rt sess

theorem fileOps_tells (call : TranslatedCall) : Tells call (gm3000FileOps env lib call) := by
  rw [gm3000FileOps]
  split
  · exact tells_pure _
  · exact opening_tells openBase_quiet fun rt sess =>
      onApp_tells rt sess fun sess => fileOp_tells rt sess call

theorem pqcOps_tells (call : TranslatedCall) : Tells call (gm3000PqcOps env lib call) := by
  rw [gm3000PqcOps]
  split
  · exact tells_pure _
  · exact opening_tells openBase_quiet fun rt sess =>
      closing_tells (pqcOp_tells rt sess call _) rt sess

theorem run_tells (h : Gm3000Handler) (call : TranslatedCall) : Tells call (h.run env lib call) := by
  cases h with
  | deviceManage =>
    exact opening_tells openBase_quiet fun rt sess =>
      closing_tells (deviceOp_tells sess call) rt sess
  | keyManage => exact keyManage_tells call
  | asymCrypto => exact asymCrypto_tells call
  | symCrypto => exact symCrypto_tells call
  | hashOps => exact hashOps_tells call
  | fileOps => exact fileOps_tells call
  | pqcOps => exact pqcOps_tells call

/-- The bytes that the library returned to be shown in a run of a handler. -/
def shownIn (env : Env) (lib : Library σ) (h : Gm3000Handler) (call : TranslatedCall) (s : σ) :
    List Shown :=
  shownBy call (h.run env lib call s).calls

/-- Of a handler's run: where it answers, its result spells out in full what
the library returned. -/
def AnswersWhole (env : Env) (lib : Library σ) (h : Gm3000Handler) (device : DeviceResource)
    (call : TranslatedCall) (resp : Response) (s : σ) : Prop :=
  ∀ resp', (h.handler env lib device call resp s).1 = .ok resp' → shownIn env lib h call s ≠ [] →
    Spelled (shownIn env lib h call s) resp'.result.bytes

section Whole

variable {h : Gm3000Handler} {device : DeviceResource} {call : TranslatedCall} {resp : Response}
variable {s : σ}

/-- Where the value is the text of what is shown, the result is whole exactly
if every value fits its hex buffer. -/
theorem whole_iff_fits (hvalue : (h.run env lib call s).value = .ok (frame (shownIn env lib h call s)))
    (hlength : (frame (shownIn env lib h call s)).length < maxResponseLen)
    (hsome : shownIn env lib h call s ≠ []) :
    AnswersWhole env lib h device call resp s ↔
      ∀ o ∈ shownIn env lib h call s, o.out.length ≤ (o.hexSize - 1) / 2 := by
  have houtcome : (h.handler env lib device call resp s).1 =
      answered device call resp (.ok (frame (shownIn env lib h call s))) :=
    congrArg (answered device call resp) hvalue
  have hresult : ∀ resp', (h.handler env lib device call resp s).1 = .ok resp' →
      resp'.result.bytes = frame (shownIn env lib h call s) := by
    intro resp' hok
    rw [houtcome] at hok
    rw [← Except.ok.inj hok]
    exact store_fits hlength
  rw [← spelled_frame_iff]
  constructor
  · intro hwhole
    have hspelled := hwhole _ houtcome hsome
    rwa [hresult _ houtcome] at hspelled
  · intro hspelled resp' hok _
    rwa [hresult resp' hok]

end Whole

/-- A result is whole exactly if nothing longer than 255 bytes goes through a
hex buffer of 512 bytes. -/
theorem answersWhole_iff (env : Env) (lib : Library σ) (h : Gm3000Handler) (device : DeviceResource)
    (call : TranslatedCall) (resp : Response) (s : σ)
    (hfit : ∀ o ∈ shownIn env lib h call s, o.out.length ≤ o.cap) :
    AnswersWhole env lib h device call resp s ↔
      ∀ o ∈ shownIn env lib h call s, o.hexSize = gm3000ResultHex → o.out.length ≤ 255 := by
  by_cases hnone : shownIn env lib h call s = []
  · constructor
    · intro _ o ho
      rw [hnone] at ho
      exact absurd ho List.not_mem_nil
    · intro _ resp' _ hne
      exact absurd hnone hne
  · obtain ⟨hvalue, hlength, hsized⟩ := run_tells h call s hnone hfit
    have hroom : ∀ o ∈ shownIn env lib h call s,
        (o.out.length ≤ (o.hexSize - 1) / 2 ↔
          (o.hexSize = gm3000ResultHex → o.out.length ≤ 255)) := by
      intro o ho
      have hcap := hfit o ho
      cases hsized o ho with
      | inl hfixed =>
        rw [hfixed]
        exact ⟨fun hle _ => hle, fun himp => himp rfl⟩
      | inr hexact =>
        have hle : o.out.length ≤ (o.hexSize - 1) / 2 := by
          rw [hexact]
          show _ ≤ (o.cap * 2 + 1 - 1) / 2
          omega
        constructor
        · intro _ hfixed
          rw [hfixed] at hle
          exact hle
        · exact fun _ => hle
    rw [whole_iff_fits hvalue hlength hnone]
    constructor
    · exact fun hall o ho => (hroom o ho).mp (hall o ho)
    · exact fun hall o ho => (hroom o ho).mpr (hall o ho)

def gm3000One : DeviceResource where
  deviceId := store maxFieldLen (lit "gm3000-1")
  type := .classic
  backendProfile := store maxFieldLen (lit "gm3000-skf")
  priority := 300
  enabled := true
  maxInflight := 1
  inflight := 0
  securityScore := 90
  efficiencyScore := 60
  caps := []
  capsFit := Nat.zero_le _

/-- An environment with an application. -/
def sampleEnv : Env := fun name => if name = lit "GM3000_SKF_APP" then some (lit "app") else none

def digestLibrary : Library Unit := obliging (fun _ => true) (List.replicate 32 7)

def digestCall : TranslatedCall := sampleCall .hash .hash "sm3" "abc" ""

theorem digest_shown_whole :
    AnswersWhole sampleEnv digestLibrary .hashOps gm3000One digestCall Response.zero () := by
  have hfit : ∀ o ∈ shownIn sampleEnv digestLibrary .hashOps digestCall (),
      o.out.length ≤ o.cap := by
    decide +kernel
  have hshort : ∀ o ∈ shownIn sampleEnv digestLibrary .hashOps digestCall (),
      o.hexSize = gm3000ResultHex → o.out.length ≤ 255 := by
    decide +kernel
  rw [answersWhole_iff sampleEnv digestLibrary .hashOps gm3000One digestCall Response.zero () hfit]
  exact hshort

def rsaLibrary : Library Unit := obliging (fun _ => true) (List.replicate 256 7)

def rsaCall : TranslatedCall := sampleCall .asym .sign "rsa" "abc" ""

/-- An RSA signature of 2048 bits loses its last byte. -/
theorem rsa_signature_cut :
    (shownIn sampleEnv rsaLibrary .asymCrypto rsaCall ()).map (fun o => (o.out, o.cap)) =
        [(List.replicate 256 7, 2048)] ∧
      ¬AnswersWhole sampleEnv rsaLibrary .asymCrypto gm3000One rsaCall Response.zero () := by
  constructor
  · decide +kernel
  · have hvalue : (Gm3000Handler.asymCrypto.run sampleEnv rsaLibrary rsaCall ()).value =
        .ok (frame (shownIn sampleEnv rsaLibrary .asymCrypto rsaCall ())) := by
      decide +kernel
    have hlength : (frame (shownIn sampleEnv rsaLibrary .asymCrypto rsaCall ())).length <
        maxResponseLen := by
      decide +kernel
    have hsome : shownIn sampleEnv rsaLibrary .asymCrypto rsaCall () ≠ [] := by
      decide +kernel
    rw [whole_iff_fits hvalue hlength hsome]
    decide +kernel

end Handlers

end Ucisdk.SkfOutput
