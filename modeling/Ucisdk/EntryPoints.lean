import Ucisdk.CcmData
import Ucisdk.Encoders
import Ucisdk.KeyRoundTrip
import Ucisdk.Pieces

/-!
# The requests of all entry points

Every entry point that builds a request writes what it was given into the
three fields of the request. The routed ones look at the codes of their
appends and the others do not, but only the two key references of a hybrid
call can be longer than their field.
-/

set_option autoImplicit false

namespace Ucisdk.EntryPoints

open Ucisdk.CString Ucisdk.Common Ucisdk.Ccm Ucisdk.CcmObject Ucisdk.CcmData Ucisdk.Pieces
open Ucisdk.KeyText Ucisdk.KeyRoundTrip Ucisdk.Encoders Ucisdk.RequestFields
open Scan.Json

section Table

/-- What an entry point asks for: the fixed texts of its request, and what it
was given for each of the three fields. -/
structure Asked where
  requestId : String
  domain : String
  action : String
  sequence : String
  uiAlgID : UInt32
  keyRef : List Piece
  payload : List Piece
  auxPayload : List Piece

/-- A piece for an argument that may be NULL. -/
def given {α : Type} (piece : α → Piece) (argument : Option α) : List Piece :=
  (argument.map piece).toList

def routed (requestId domain action : String) (pAlgParams : Option UnifAlgParams)
    (pKey : Option UnifKeyRef) (pPrimary pAuxIn pOutput : Option UnifBuffer) : Asked where
  requestId := requestId
  domain := domain
  action := action
  sequence := ""
  uiAlgID := algOrAutoGiven pAlgParams
  keyRef := given .key pKey
  payload := given .params pAlgParams ++ given (.buffer "data") pPrimary
  auxPayload := given (.buffer "aux") pAuxIn ++ given (.buffer "out") pOutput

def agreement (requestId action input output : String) (alg : UnifAlgParams) (key : UnifKeyRef)
    (inputData outputData : UnifBuffer) (made : UnifKeyRef) : Asked where
  requestId := requestId
  domain := "key"
  action := action
  sequence := ""
  uiAlgID := algOrAuto alg
  keyRef := [.key key]
  payload := [.params alg, .buffer input inputData]
  auxPayload := [.buffer output outputData, .key made]

def hybrid (requestId action sequence : String) (alg : UnifAlgParams)
    (classicKey pqcKey : UnifKeyRef) (data signature : UnifBuffer) : Asked where
  requestId := requestId
  domain := "asym"
  action := action
  sequence := sequence
  uiAlgID := algOrAuto alg
  keyRef := [.key classicKey, .key pqcKey]
  payload := [.params alg, .buffer "data" data]
  auxPayload := [.buffer "signature" signature]

variable (m : Memory)

def dataAsked : DataCall → Asked
  | .hash a d h =>
    routed "ccm-hash" "hash" "hash" (load m.algParamsAt a) none (load m.bufferAt d) none
      (load m.bufferAt h)
  | .hashUpdate d =>
    routed "ccm-hash-update" "hash" "hash" (some (plainParams 0)) none (load m.bufferAt d) none none
  | .mac a k iv d o =>
    routed "ccm-mac" "sym" "mac" (load m.algParamsAt a) (load m.keyRefAt k) (load m.bufferAt d)
      (load m.bufferAt iv) (load m.bufferAt o)
  | .symEncrypt a k iv d c =>
    routed "ccm-sym-enc" "sym" "encrypt" (load m.algParamsAt a) (load m.keyRefAt k)
      (load m.bufferAt d) (load m.bufferAt iv) (load m.bufferAt c)
  | .symDecrypt a k iv c d =>
    routed "ccm-sym-dec" "sym" "decrypt" (load m.algParamsAt a) (load m.keyRefAt k)
      (load m.bufferAt c) (load m.bufferAt iv) (load m.bufferAt d)
  | .asymEncrypt a k d c =>
    routed "ccm-asym-enc" "asym" "encrypt" (load m.algParamsAt a) (load m.keyRefAt k)
      (load m.bufferAt d) none (load m.bufferAt c)
  | .asymDecrypt a k c d =>
    routed "ccm-asym-dec" "asym" "decrypt" (load m.algParamsAt a) (load m.keyRefAt k)
      (load m.bufferAt c) none (load m.bufferAt d)
  | .importKey a b k =>
    routed "ccm-import-key" "key" "import_key" (load m.algParamsAt a) (load m.keyRefAt k)
      (load m.bufferAt b) none none
  | .kemDecapsulate a k c s =>
    routed "ccm-kem-decap" "pqc" "kem_decap" (load m.algParamsAt a) (load m.keyRefAt k)
      (load m.bufferAt c) none (load m.bufferAt s)
  | .sign a k d s | .signDigest a k d s =>
    routed "ccm-sign" (signDomain (load m.algParamsAt a)) "sign" (load m.algParamsAt a)
      (load m.keyRefAt k) (load m.bufferAt d) none (load m.bufferAt s)
  | .verify a k d s | .verifyDigest a k d s =>
    routed "ccm-verify" (signDomain (load m.algParamsAt a)) "verify" (load m.algParamsAt a)
      (load m.keyRefAt k) (load m.bufferAt d) (load m.bufferAt s) none

/-- The entry points that build a request, with their pointers and numbers. -/
inductive EntryPoint where
  | takesData (call : DataCall)
  | hashInit (pAlgParams : UInt64)
  | hashFinal (pHash : UInt64)
  | exportPublicKey (pKey pPublicKeyBlob : UInt64)
  | destroyKey (pKey : UInt64)
  | getKeyInfo (pKey pKeyInfo : UInt64)
  | kemEncapsulate (pAlgParams pPublicKey pCipherText pSharedSecret : UInt64)
  | getCapability (pCapabilityOut : UInt64)
  | generateRandom (uiLength : UInt32) (pucRandom : UInt64)
  | generateKeyPair (pAlgParams : UInt64) (uiKeyIndex : UInt32) (pPublicKey pPrivateKey : UInt64)
  | generateSymKey (pAlgParams : UInt64) (uiKeyIndex : UInt32) (pKey : UInt64)
  | keyAgreementInit (pAlgParams pSelfPrivateKey pSelfID pAgreementData pAgreementHandle : UInt64)
  | keyAgreementComplete
      (pAlgParams pAgreementOrPrivateKey pPeerData pSelfData pSessionKey : UInt64)
  | hybridKeyAgreement
      (pAlgParams pClassicKey pPqcKey pPeerData pTranscript pSessionKey : UInt64)
  | hybridSign (pAlgParams pClassicPrivateKey pPqcPrivateKey pData pSignature : UInt64)
  | hybridVerify (pAlgParams pClassicPublicKey pPqcPublicKey pData pSignature : UInt64)

namespace EntryPoint

def build : EntryPoint → CcmCode × CStr 2048
  | takesData call => call.build m
  | hashInit a => ccmHashInit m a
  | hashFinal h => ccmHashFinal m h
  | exportPublicKey k b => ccmExportPublicKey m k b
  | destroyKey k => ccmDestroyKey m k
  | getKeyInfo k i => ccmGetKeyInfo m k i
  | kemEncapsulate a k c s => ccmKemEncapsulate m a k c s
  | getCapability c => ccmGetCapability m c
  | generateRandom n r => ccmGenerateRandom n r
  | generateKeyPair a i p s => ccmGenerateKeyPair m a i p s
  | generateSymKey a i k => ccmGenerateSymKey m a i k
  | keyAgreementInit a k i d h => ccmKeyAgreementInit m a k i d h
  | keyAgreementComplete a k p d s => ccmKeyAgreementComplete m a k p d s
  | hybridKeyAgreement a c p d t s => ccmHybridKeyAgreement m a c p d t s
  | hybridSign a c p d s => hybridGiven m ccmHybridSign a c p d s
  | hybridVerify a c p d s => hybridGiven m ccmHybridVerify a c p d s

/-- What a call asks for, unless an argument it needs is NULL. -/
def asked : EntryPoint → Option Asked
  | takesData call => some (dataAsked m call)
  | hashInit a =>
    some (routed "ccm-hash-init" "hash" "hash" (load m.algParamsAt a) none none none none)
  | hashFinal h =>
    some (routed "ccm-hash-final" "hash" "hash" (some (plainParams 0)) none none none
      (load m.bufferAt h))
  | exportPublicKey k b =>
    some (routed "ccm-export-pub" "key" "export_public_key" (some (keyParams (load m.keyRefAt k)))
      (load m.keyRefAt k) none none (load m.bufferAt b))
  | destroyKey k =>
    some (routed "ccm-destroy-key" "key" "destroy_key" (some (keyParams (load m.keyRefAt k)))
      (load m.keyRefAt k) none none none)
  | getKeyInfo k i =>
    some (routed "ccm-key-info" "key" "export_public_key" (some (keyParams (load m.keyRefAt k)))
      (load m.keyRefAt k) none none (load m.bufferAt i))
  | kemEncapsulate a k c s =>
    some (routed "ccm-kem-encap" "pqc" "kem_encap" (load m.algParamsAt a) (load m.keyRefAt k) none
      (load m.bufferAt c) (load m.bufferAt s))
  | getCapability c => do
    let capability ← load m.bufferAt c
    some ⟨"ccm-capability", "device", "get_device_info", "", 0, [], [],
      [.buffer "capability" capability]⟩
  | generateRandom n r =>
    if r = 0 ∧ n ≠ 0 then none
    else some ⟨"ccm-random", "device", "generate_random", "", 0, [], [.number "length" n],
      [.address "random" r]⟩
  | generateKeyPair a i p s => do
    let alg ← load m.algParamsAt a
    let publicKey ← load m.keyRefAt p
    let privateKey ← load m.keyRefAt s
    some ⟨"ccm-keypair", "key", "generate_key_pair", "", algOrAuto alg, [.number "key_index" i],
      [.params alg], [.key publicKey, .key privateKey]⟩
  | generateSymKey a i k => do
    let alg ← load m.algParamsAt a
    let key ← load m.keyRefAt k
    some ⟨"ccm-sym-key", "key", "import_key", "", algOrAuto alg, [.number "key_index" i],
      [.params alg], [.key key]⟩
  | keyAgreementInit a k i d h => do
    let alg ← load m.algParamsAt a
    let key ← load m.keyRefAt k
    let selfID ← load m.bufferAt i
    let agreementData ← load m.bufferAt d
    let handle ← load m.keyRefAt h
    some (agreement "ccm-agree-init" "generate_key_pair" "self_id" "agreement_data" alg key selfID
      agreementData handle)
  | keyAgreementComplete a k p d s => do
    let alg ← load m.algParamsAt a
    let key ← load m.keyRefAt k
    let peerData ← load m.bufferAt p
    let selfData ← load m.bufferAt d
    let sessionKey ← load m.keyRefAt s
    some (agreement "ccm-agree-complete" "import_key" "peer_data" "self_data" alg key peerData
      selfData sessionKey)
  | hybridKeyAgreement a c p d t s => do
    let alg ← load m.algParamsAt a
    let classicKey ← load m.keyRefAt c
    let pqcKey ← load m.keyRefAt p
    let sessionKey ← load m.keyRefAt s
    some ⟨"ccm-hybrid-agree", "pqc", "kem_encap", "", algOrAuto alg,
      [.key classicKey, .key pqcKey],
      .params alg :: given (.buffer "peer") (load m.bufferAt d),
      given (.buffer "transcript") (load m.bufferAt t) ++ [.key sessionKey]⟩
  | hybridSign a c p d s => do
    let alg ← load m.algParamsAt a
    let classicKey ← load m.keyRefAt c
    let pqcKey ← load m.keyRefAt p
    let data ← load m.bufferAt d
    let signature ← load m.bufferAt s
    some (hybrid "ccm-hybrid-sign" "sign" "asym:sign:classic:sm2>pqc:sign:pqc:dilithium3" alg
      classicKey pqcKey data signature)
  | hybridVerify a c p d s => do
    let alg ← load m.algParamsAt a
    let classicKey ← load m.keyRefAt c
    let pqcKey ← load m.keyRefAt p
    let data ← load m.bufferAt d
    let signature ← load m.bufferAt s
    some (hybrid "ccm-hybrid-verify" "verify" "asym:verify:classic:sm2>pqc:verify:pqc:dilithium3"
      alg classicKey pqcKey data signature)

end EntryPoint

end Table

section Built

namespace Asked

/-- What the appends to the fields leave there. -/
def opts (c : Asked) : CcmJsonOptions :=
  { initOpts c.requestId with
    keyRef := appendEach (c.keyRef.map Piece.append) empty
    payload := appendEach (c.payload.map Piece.append) empty
    auxPayload := appendEach (c.auxPayload.map Piece.append) empty
    sequence := store 1024 (lit c.sequence) }

def build (c : Asked) : CcmCode × CStr 2048 :=
  buildJson (lit c.domain) (lit c.action) c.uiAlgID c.opts 2048

/-- Some append to a field has less room than it needs. -/
def FieldRunsOut (c : Asked) : Prop :=
  RunsOut (c.keyRef.map Piece.append) (empty : CStr 512) ∨
    RunsOut (c.payload.map Piece.append) (empty : CStr 1024) ∨
    RunsOut (c.auxPayload.map Piece.append) (empty : CStr 1024)

end Asked

section Given

variable {α : Type} {cap : ℕ} [NeZero cap]

omit [NeZero cap] in
theorem appendEach_append (as bs : List (Appender cap)) (out : CStr cap) :
    appendEach (as ++ bs) out = appendEach bs (appendEach as out) := List.foldl_append

omit [NeZero cap] in
theorem runsOut_append (as bs : List (Appender cap)) (out : CStr cap) :
    RunsOut (as ++ bs) out ↔ RunsOut as out ∨ RunsOut bs (appendEach as out) := by
  induction as generalizing out with
  | nil => simp [RunsOut, appendEach]
  | cons a as ih =>
    rw [List.cons_append, RunsOut, RunsOut, ih, or_assoc]
    rfl

/-- A checked append with room goes on as an unchecked one does. -/
theorem appendGiven_ok (piece : α → Piece) (argument : Option α) (out : CStr cap)
    (h : ¬RunsOut ((given piece argument).map Piece.append) out) :
    appendGiven (fun a => (piece a).append) argument out =
      .ok (appendEach ((given piece argument).map Piece.append) out) := by
  cases argument with
  | none => rfl
  | some a =>
    have hcode : ((piece a).append out).1 = .ok := by
      simpa [given, RunsOut] using h
    have hpair : (piece a).append out = (.ok, ((piece a).append out).2) := Prod.ext hcode rfl
    simp only [appendGiven]
    rw [hpair]
    rfl

end Given

section Room

variable {α : Type} {cap : ℕ} [NeZero cap]

theorem roomOf_append (ps qs : List Piece) : roomOf (ps ++ qs) = roomOf ps + roomOf qs := by
  rw [roomOf, List.map_append, List.sum_append, roomOf, roomOf]

theorem given_room (piece : α → Piece) (n : ℕ) (h : ∀ a, (piece a).room ≤ n) (argument : Option α) :
    roomOf (given piece argument) ≤ n := by
  cases argument with
  | none => exact Nat.zero_le n
  | some a => simpa [roomOf, given] using h a

variable (cap) in
theorem no_run_out (hcap : 1 < cap) {ps : List Piece} (h : roomOf ps < cap) :
    ¬RunsOut (ps.map Piece.append) (empty : CStr cap) := by
  have hfits := listText_fits h
  rw [runsOut_empty hcap]
  omega

variable (requestId domain action : String) (pAlgParams : Option UnifAlgParams)
  (pKey : Option UnifKeyRef) (pPrimary pAuxIn pOutput : Option UnifBuffer)

theorem routed_room :
    roomOf (routed requestId domain action pAlgParams pKey pPrimary pAuxIn pOutput).keyRef < 512 ∧
    roomOf (routed requestId domain action pAlgParams pKey pPrimary pAuxIn pOutput).payload < 1024 ∧
    roomOf (routed requestId domain action pAlgParams pKey pPrimary pAuxIn pOutput).auxPayload <
      1024 := by
  have hparams := given_room .params 110 (fun _ => le_refl _) pAlgParams
  have hkey := given_room .key 278 (fun _ => le_refl _) pKey
  have hdata := given_room (.buffer "data") 39 (fun _ => le_refl _) pPrimary
  have haux := given_room (.buffer "aux") 38 (fun _ => le_refl _) pAuxIn
  have hout := given_room (.buffer "out") 38 (fun _ => le_refl _) pOutput
  simp only [routed, roomOf_append]
  omega

/-- No append of a routed call fails. -/
theorem bufferedOpts_eq :
    bufferedOpts requestId pAlgParams pKey pPrimary pAuxIn pOutput =
      .ok (routed requestId domain action pAlgParams pKey pPrimary pAuxIn pOutput).opts := by
  obtain ⟨hkeyRoom, hpayRoom, hauxRoom⟩ :=
    routed_room requestId domain action pAlgParams pKey pPrimary pAuxIn pOutput
  have hkey := no_run_out 512 (by decide) hkeyRoom
  have hpay := no_run_out 1024 (by decide) hpayRoom
  have haux := no_run_out 1024 (by decide) hauxRoom
  simp only [routed, List.map_append, runsOut_append, not_or] at hkey hpay haux
  have hfirst : appendGiven appendAlgParams pAlgParams (empty : CStr 1024) = _ :=
    appendGiven_ok .params pAlgParams empty hpay.1
  have hkeyRef : appendGiven appendKeyRef pKey (empty : CStr 512) = _ :=
    appendGiven_ok .key pKey empty hkey
  have hsecond : appendGiven (appendBuffer "data") pPrimary _ = _ :=
    appendGiven_ok (.buffer "data") pPrimary _ hpay.2
  have hauxIn : appendGiven (appendBuffer "aux") pAuxIn (empty : CStr 1024) = _ :=
    appendGiven_ok (.buffer "aux") pAuxIn empty haux.1
  have houtput : appendGiven (appendBuffer "out") pOutput _ = _ :=
    appendGiven_ok (.buffer "out") pOutput _ haux.2
  simp only [bufferedOpts, initOpts, bind, Except.bind, hfirst, hkeyRef, hsecond, hauxIn, houtput]
  simp only [Asked.opts, initOpts, routed, List.map_append, appendEach_append]
  rfl

theorem routeBuffered_eq :
    routeBuffered requestId domain action pAlgParams pKey pPrimary pAuxIn pOutput =
      (routed requestId domain action pAlgParams pKey pPrimary pAuxIn pOutput).build := by
  rw [routeBuffered, bufferedOpts_eq requestId domain action]
  rfl

end Room

/-- Every entry point builds what it is asked for, or nothing. -/
theorem build_eq (m : Memory) (e : EntryPoint) :
    e.build m = match e.asked m with
      | none => (.invalidArgument, empty)
      | some c => c.build := by
  cases e with
  | takesData call => cases call <;> exact routeBuffered_eq ..
  | hashInit a => exact routeBuffered_eq ..
  | hashFinal h => exact routeBuffered_eq ..
  | exportPublicKey k b => exact routeBuffered_eq ..
  | destroyKey k => exact routeBuffered_eq ..
  | getKeyInfo k i => exact routeBuffered_eq ..
  | kemEncapsulate a k c s => exact routeBuffered_eq ..
  | getCapability c =>
    simp only [EntryPoint.build, EntryPoint.asked, ccmGetCapability]
    cases load m.bufferAt c <;> rfl
  | generateRandom n r =>
    simp only [EntryPoint.build, EntryPoint.asked, ccmGenerateRandom]
    split <;> rfl
  | generateKeyPair a i p s =>
    simp only [EntryPoint.build, EntryPoint.asked, ccmGenerateKeyPair]
    cases load m.algParamsAt a <;> cases load m.keyRefAt p <;> cases load m.keyRefAt s <;> rfl
  | generateSymKey a i k =>
    simp only [EntryPoint.build, EntryPoint.asked, ccmGenerateSymKey]
    cases load m.algParamsAt a <;> cases load m.keyRefAt k <;> rfl
  | keyAgreementInit a k i d h =>
    simp only [EntryPoint.build, EntryPoint.asked, ccmKeyAgreementInit]
    cases load m.algParamsAt a <;> cases load m.keyRefAt k <;> cases load m.bufferAt i <;>
      cases load m.bufferAt d <;> cases load m.keyRefAt h <;> rfl
  | keyAgreementComplete a k p d s =>
    simp only [EntryPoint.build, EntryPoint.asked, ccmKeyAgreementComplete]
    cases load m.algParamsAt a <;> cases load m.keyRefAt k <;> cases load m.bufferAt p <;>
      cases load m.bufferAt d <;> cases load m.keyRefAt s <;> rfl
  | hybridKeyAgreement a c p d t s =>
    simp only [EntryPoint.build, EntryPoint.asked, ccmHybridKeyAgreement]
    cases load m.algParamsAt a <;> cases load m.keyRefAt c <;> cases load m.keyRefAt p <;>
      cases load m.keyRefAt s <;> cases load m.bufferAt d <;> cases load m.bufferAt t <;> rfl
  | hybridSign a c p d s =>
    simp only [EntryPoint.build, EntryPoint.asked, hybridGiven]
    cases load m.algParamsAt a <;> cases load m.keyRefAt c <;> cases load m.keyRefAt p <;>
      cases load m.bufferAt d <;> cases load m.bufferAt s <;> rfl
  | hybridVerify a c p d s =>
    simp only [EntryPoint.build, EntryPoint.asked, hybridGiven]
    cases load m.algParamsAt a <;> cases load m.keyRefAt c <;> cases load m.keyRefAt p <;>
      cases load m.bufferAt d <;> cases load m.bufferAt s <;> rfl

end Built

section Json

variable {cap : ℕ} [NeZero cap]

/-- The appends of `build_json`. -/
def jsonAppends (domain action algorithm : Bytes) (opts : CcmJsonOptions) : List (Appender cap) :=
  [appendRaw (lit "\x7b"), appendField (lit "request_id") opts.requestId.bytes false,
    appendField (lit "domain") domain true, appendField (lit "action") action true,
    appendField (lit "algorithm") algorithm true, appendOption "key_ref" opts.keyRef.bytes,
    appendOption "payload" opts.payload.bytes, appendOption "aux_payload" opts.auxPayload.bytes,
    appendOption "device_hint" opts.deviceHint.bytes,
    appendOption "preference" opts.preference.bytes,
    appendOption "sequence" opts.sequence.bytes, appendRaw (lit "\x7d\n")]

omit [NeZero cap] in
theorem appendAll_ok_iff (as : List (Appender cap)) (out : CStr cap) :
    (appendAll as out).1 = .ok ↔ ¬RunsOut as out := by
  induction as generalizing out with
  | nil => simp [appendAll, RunsOut]
  | cons a as ih =>
    cases hout : a out with
    | mk rc next =>
      cases rc with
      | ok => simp [appendAll, RunsOut, hout, ih]
      | invalidArgument => simp [appendAll, RunsOut, hout]
      | unsupportedAlgorithm => simp [appendAll, RunsOut, hout]
      | bufferTooSmall => simp [appendAll, RunsOut, hout]

/-- A request that was built has room for every append of `build_json`. -/
theorem buildJson_runs {domain action algorithm : Bytes} {uiAlgID : UInt32} {opts : CcmJsonOptions}
    (hname : ccmAlgName uiAlgID = some algorithm)
    (h : (buildJson domain action uiAlgID opts cap).1 = .ok) :
    ¬RunsOut (jsonAppends domain action algorithm opts) (empty : CStr cap) := by
  rw [← appendAll_ok_iff]
  by_cases hid : opts.requestId.bytes = []
  · simp [buildJson, hid] at h
  · by_cases hshort : algorithm.length < 64
    · simp only [buildJson, ccmAlgorithmName, hname, copyOut, hshort, hid, if_true, if_false,
        store_fits hshort] at h
      exact h
    · simp [buildJson, ccmAlgorithmName, hname, copyOut, hshort, hid] at h

/-- The length of a flat object with these strings, and the newline behind it. -/
def membersLength (ms : List (Bytes × Bytes)) : ℕ :=
  2 + (ms.map fun m => m.1.length + (escape m.2).length + 6).sum

theorem joined_room (t : Bytes) (ts : List Bytes) :
    (joined (t :: ts)).length + 1 = ((t :: ts).map fun t => t.length + 1).sum := by
  have hlater : (ts.flatMap fun text => comma :: text).length = (ts.map fun t => t.length + 1).sum := by
    rw [List.length_flatMap]
    rfl
  rw [joined, List.length_append, hlater, List.map_cons, List.sum_cons]
  omega

theorem builtObject_length (domain action algorithm : Bytes) (opts : CcmJsonOptions) :
    (builtObject (requestTexts domain action algorithm opts)).text.length =
      membersLength (requestStrings domain action algorithm opts) := by
  have hmember (name value : Bytes) :
      (stringMember name value).length + 1 = name.length + (escape value).length + 6 := by
    simp [stringMember, pairText]
    omega
  have hlength := joined_room
    (stringMember Field.requestId.key (requestTexts domain action algorithm opts .requestId))
    ((laterFields (requestTexts domain action algorithm opts)).map fun f =>
      stringMember f.key (requestTexts domain action algorithm opts f))
  rw [builtObject_parts, membersLength, requestStrings_eq, List.length_cons, List.length_append,
    List.map_cons, List.map_cons, List.map_cons, List.map_map]
  rw [List.map_cons, List.map_map] at hlength
  simp only [Function.comp_def, hmember] at hlength ⊢
  simp only [List.length_cons, show (lit "\n").length = 1 from rfl]
  omega

end Json

section Sent

/-- The string a member holds, empty where there is no such member. -/
def heldString (members : List (Bytes × Value)) (name : String) : Bytes :=
  match members.lookup (lit name) with
  | some (.string s) => s
  | _ => []

/-- What a request sends under a name. -/
def sentText (json : Bytes) (name : String) : Option Bytes :=
  (decodeObject json).map fun members => heldString members name

theorem heldString_strings (ms : List (Bytes × Bytes)) (name : String) :
    heldString (ms.map fun m => (m.1, .string m.2)) name = (ms.lookup (lit name)).getD [] := by
  induction ms with
  | nil => rfl
  | cons m ms ih =>
    rw [heldString] at ih
    rw [heldString, List.map_cons, List.lookup_cons, List.lookup_cons]
    cases lit name == m.1 with
    | true => rfl
    | false => exact ih

/-- A string that is left out when it is empty reads as empty. -/
theorem lookup_filter (ms : List (Bytes × Bytes)) (hnodup : (ms.map Prod.fst).Nodup) (key : Bytes) :
    ((ms.filter fun m => m.2 ≠ []).lookup key).getD [] = (ms.lookup key).getD [] := by
  induction ms with
  | nil => rfl
  | cons m ms ih =>
    rw [List.map_cons, List.nodup_cons] at hnodup
    have hrest := ih hnodup.2
    by_cases hempty : m.2 = []
    · rw [List.filter_cons_of_neg (by simpa using hempty), List.lookup_cons, hrest]
      cases hkey : key == m.1 with
      | true =>
        have hnone : ms.lookup key = none := by
          rw [List.lookup_eq_none_iff]
          intro p hp
          rw [eq_of_beq hkey]
          have hne : m.1 ≠ p.1 := fun he => hnodup.1 (he ▸ List.mem_map_of_mem hp)
          simpa using hne
        simp [hnone, hempty]
      | false => rfl
    · rw [List.filter_cons_of_pos (by simpa using hempty), List.lookup_cons, List.lookup_cons]
      cases key == m.1 with
      | true => rfl
      | false => exact hrest

/-- What a request that was built sends in the three fields. -/
theorem buildJson_sent {domain action : Bytes} {uiAlgID : UInt32} {opts : CcmJsonOptions} {cap : ℕ}
    [NeZero cap] {json : CStr cap} (h : buildJson domain action uiAlgID opts cap = (.ok, json)) :
    sentText json.bytes "key_ref" = some opts.keyRef.bytes ∧
      sentText json.bytes "payload" = some opts.payload.bytes ∧
      sentText json.bytes "aux_payload" = some opts.auxPayload.bytes := by
  obtain ⟨algorithm, hname⟩ := buildJson_name h
  have hsent (name : String)
      (hfront : [(lit "request_id", opts.requestId.bytes), (lit "domain", domain),
        (lit "action", action), (lit "algorithm", algorithm)].lookup (lit name) = none) :
      sentText json.bytes name = some (([(lit "key_ref", opts.keyRef.bytes),
        (lit "payload", opts.payload.bytes), (lit "aux_payload", opts.auxPayload.bytes),
        (lit "device_hint", opts.deviceHint.bytes), (lit "preference", opts.preference.bytes),
        (lit "sequence", opts.sequence.bytes)].lookup (lit name)).getD []) := by
    rw [sentText, buildJson_decoded hname h, Option.map_some, requestMembers, heldString_strings,
      requestStrings, List.lookup_append, hfront, Option.none_or, lookup_filter]
    simp only [List.map_cons, List.map_nil]
    decide
  refine ⟨hsent "key_ref" rfl, hsent "payload" rfl, hsent "aux_payload" rfl⟩

end Sent

section Complete

variable {m : Memory} {e : EntryPoint} {c : Asked}

namespace Asked

/-- Some append of the call has less room than it needs. -/
def RunsShort (c : Asked) : Prop :=
  c.FieldRunsOut ∨ ∃ algorithm, ccmAlgName c.uiAlgID = some algorithm ∧
    RunsOut (jsonAppends (lit c.domain) (lit c.action) algorithm c.opts) (empty : CStr 2048)

/-- The fields with as much of their tokens as they hold. -/
def firstBytes (c : Asked) : CcmJsonOptions :=
  { initOpts c.requestId with
    keyRef := store 512 (listText (allTokens c.keyRef))
    payload := store 1024 (listText (allTokens c.payload))
    auxPayload := store 1024 (listText (allTokens c.auxPayload))
    sequence := store 1024 (lit c.sequence) }

def strings (c : Asked) (algorithm : Bytes) : List (Bytes × Bytes) :=
  requestStrings (lit c.domain) (lit c.action) algorithm c.firstBytes

theorem opts_eq (c : Asked) : c.opts = c.firstBytes := by
  have hfield {cap : ℕ} [NeZero cap] (hcap : 1 < cap) (ps : List Piece) :
      appendEach (ps.map Piece.append) (empty : CStr cap) = store cap (listText (allTokens ps)) :=
    CStr.ext (appendEach_empty hcap ps)
  rw [opts, firstBytes, hfield (by decide), hfield (by decide), hfield (by decide)]

end Asked

/-- A request that is built sends every token of what the call was given, and
a call that runs short of room anywhere builds none. -/
structure Complete (m : Memory) (e : EntryPoint) : Prop where
  lists : ∀ json, e.build m = (.ok, json) → ∃ c, e.asked m = some c ∧
    sentText json.bytes "key_ref" = some (listText (allTokens c.keyRef)) ∧
    sentText json.bytes "payload" = some (listText (allTokens c.payload)) ∧
    sentText json.bytes "aux_payload" = some (listText (allTokens c.auxPayload))
  stops : ∀ c, e.asked m = some c → c.RunsShort → (e.build m).1 ≠ .ok

/-- What every entry point is given for its fields. -/
structure Shaped (c : Asked) : Prop where
  named : (initOpts c.requestId).requestId.bytes ≠ []
  payload : roomOf c.payload < 1024
  auxPayload : roomOf c.auxPayload < 1024
  keyRef : roomOf c.keyRef < 512 ∨ ∃ classicKey pqcKey, c.keyRef = [.key classicKey, .key pqcKey]

theorem routed_shaped {requestId : String} (hid : (initOpts requestId).requestId.bytes ≠ [])
    (domain action : String) (pAlgParams : Option UnifAlgParams) (pKey : Option UnifKeyRef)
    (pPrimary pAuxIn pOutput : Option UnifBuffer) :
    Shaped (routed requestId domain action pAlgParams pKey pPrimary pAuxIn pOutput) := by
  obtain ⟨hkey, hpay, haux⟩ :=
    routed_room requestId domain action pAlgParams pKey pPrimary pAuxIn pOutput
  exact ⟨hid, hpay, haux, .inl hkey⟩

/-- The room of given pieces does not depend on what they hold. -/
theorem shaped_of {requestId domain action sequence : String} {uiAlgID : UInt32}
    {keyRef payload auxPayload : List Piece} (hid : (initOpts requestId).requestId.bytes ≠ [])
    (hpay : decide (roomOf payload < 1024) = true) (haux : decide (roomOf auxPayload < 1024) = true)
    (hkey : roomOf keyRef < 512 ∨ ∃ classicKey pqcKey, keyRef = [.key classicKey, .key pqcKey]) :
    Shaped ⟨requestId, domain, action, sequence, uiAlgID, keyRef, payload, auxPayload⟩ :=
  ⟨hid, of_decide_eq_true hpay, of_decide_eq_true haux, hkey⟩

theorem room_of_decide {ps : List Piece} (h : decide (roomOf ps < 512) = true) :
    roomOf ps < 512 ∨ ∃ classicKey pqcKey, ps = [.key classicKey, .key pqcKey] :=
  .inl (of_decide_eq_true h)

theorem dataAsked_shaped (m : Memory) (call : DataCall) : Shaped (dataAsked m call) := by
  cases call <;> exact routed_shaped (by decide) ..

theorem asked_shaped (h : e.asked m = some c) : Shaped c := by
  cases e with
  | takesData call =>
    obtain rfl := Option.some.inj h
    exact dataAsked_shaped m call
  | hashInit a =>
    obtain rfl := Option.some.inj h
    exact routed_shaped (by decide) ..
  | hashFinal a =>
    obtain rfl := Option.some.inj h
    exact routed_shaped (by decide) ..
  | exportPublicKey k b =>
    obtain rfl := Option.some.inj h
    exact routed_shaped (by decide) ..
  | destroyKey k =>
    obtain rfl := Option.some.inj h
    exact routed_shaped (by decide) ..
  | getKeyInfo k i =>
    obtain rfl := Option.some.inj h
    exact routed_shaped (by decide) ..
  | kemEncapsulate a k c s =>
    obtain rfl := Option.some.inj h
    exact routed_shaped (by decide) ..
  | getCapability b =>
    simp only [EntryPoint.asked, Option.bind_eq_bind, Option.bind_eq_some_iff] at h
    obtain ⟨capability, _, h⟩ := h
    obtain rfl := Option.some.inj h
    exact shaped_of (by decide) rfl rfl (room_of_decide rfl)
  | generateRandom n r =>
    simp only [EntryPoint.asked] at h
    split at h
    · simp at h
    · obtain rfl := Option.some.inj h
      exact shaped_of (by decide) rfl rfl (room_of_decide rfl)
  | generateKeyPair a i p s =>
    simp only [EntryPoint.asked, Option.bind_eq_bind, Option.bind_eq_some_iff] at h
    obtain ⟨alg, _, publicKey, _, privateKey, _, h⟩ := h
    obtain rfl := Option.some.inj h
    exact shaped_of (by decide) rfl rfl (room_of_decide rfl)
  | generateSymKey a i k =>
    simp only [EntryPoint.asked, Option.bind_eq_bind, Option.bind_eq_some_iff] at h
    obtain ⟨alg, _, key, _, h⟩ := h
    obtain rfl := Option.some.inj h
    exact shaped_of (by decide) rfl rfl (room_of_decide rfl)
  | keyAgreementInit a k i d s =>
    simp only [EntryPoint.asked, Option.bind_eq_bind, Option.bind_eq_some_iff] at h
    obtain ⟨alg, _, key, _, selfID, _, agreementData, _, handle, _, h⟩ := h
    obtain rfl := Option.some.inj h
    exact shaped_of (by decide) rfl rfl (room_of_decide rfl)
  | keyAgreementComplete a k p d s =>
    simp only [EntryPoint.asked, Option.bind_eq_bind, Option.bind_eq_some_iff] at h
    obtain ⟨alg, _, key, _, peerData, _, selfData, _, sessionKey, _, h⟩ := h
    obtain rfl := Option.some.inj h
    exact shaped_of (by decide) rfl rfl (room_of_decide rfl)
  | hybridKeyAgreement a k p d t s =>
    simp only [EntryPoint.asked, Option.bind_eq_bind, Option.bind_eq_some_iff] at h
    obtain ⟨alg, _, classicKey, _, pqcKey, _, sessionKey, _, h⟩ := h
    obtain rfl := Option.some.inj h
    have hpeer := given_room (.buffer "peer") 39 (fun _ => le_refl _) (load m.bufferAt d)
    have htranscript :=
      given_room (.buffer "transcript") 45 (fun _ => le_refl _) (load m.bufferAt t)
    have hid : (initOpts "ccm-hybrid-agree").requestId.bytes ≠ [] := by decide
    refine ⟨hid, ?_, ?_, .inr ⟨classicKey, pqcKey, rfl⟩⟩
    · show 110 + roomOf _ < 1024
      omega
    · rw [roomOf_append, show roomOf [Piece.key sessionKey] = 278 from rfl]
      omega
  | hybridSign a k p d s =>
    simp only [EntryPoint.asked, Option.bind_eq_bind, Option.bind_eq_some_iff] at h
    obtain ⟨alg, _, classicKey, _, pqcKey, _, data, _, signature, _, h⟩ := h
    obtain rfl := Option.some.inj h
    exact shaped_of (by decide) rfl rfl (.inr ⟨classicKey, pqcKey, rfl⟩)
  | hybridVerify a k p d s =>
    simp only [EntryPoint.asked, Option.bind_eq_bind, Option.bind_eq_some_iff] at h
    obtain ⟨alg, _, classicKey, _, pqcKey, _, data, _, signature, _, h⟩ := h
    obtain rfl := Option.some.inj h
    exact shaped_of (by decide) rfl rfl (.inr ⟨classicKey, pqcKey, rfl⟩)

theorem twoKeys_tokens (classicKey pqcKey : UnifKeyRef) :
    allTokens [.key classicKey, .key pqcKey] = keyTokens classicKey ++ keyTokens pqcKey := by
  simp [allTokens, Piece.tokens]

theorem twoKeys_length (classicKey pqcKey : UnifKeyRef) :
    (listText (allTokens [.key classicKey, .key pqcKey])).length =
      keyLength classicKey + 1 + keyLength pqcKey := by
  have hbehind := behind_length (keyTokens classicKey ++ keyTokens pqcKey) (by simp [keyTokens])
  rw [behind_append, List.length_append, behind_key_length, behind_key_length] at hbehind
  rw [twoKeys_tokens]
  omega

/-- Of two key references that are too long, only the end of the second device
id is cut off. -/
theorem second_device_cut {classicKey pqcKey : UnifKeyRef}
    (h : 512 ≤ keyLength classicKey + 1 + keyLength pqcKey) :
    ∃ front kept, kept < pqcKey.szDeviceId.bytes.length ∧
      listText (allTokens [.key classicKey, .key pqcKey]) =
        front ++ lit "device_id=" ++ pqcKey.szDeviceId.bytes ∧
      (listText (allTokens [.key classicKey, .key pqcKey])).take 511 =
        front ++ lit "device_id=" ++ pqcKey.szDeviceId.bytes.take kept := by
  have hclassic := key_length_le classicKey
  have hpqc := key_rest_le pqcKey
  have hlength := twoKeys_length classicKey pqcKey
  have hdevice : pqcKey.szDeviceId.bytes ≠ [] := by
    intro hnil
    rw [idLength, if_pos hnil] at hpqc
    omega
  rw [idLength, if_neg hdevice, show (lit "device_id").length = 9 from rfl] at hpqc
  obtain ⟨others, hothers⟩ : ∃ others, keyTokens classicKey ++ keyTokens pqcKey =
      (numberToken "alg" classicKey.uiAlgID :: others) ++
        [lit "device_id=" ++ pqcKey.szDeviceId.bytes] := by
    refine ⟨laterTokens classicKey ++ (numberTokens pqcKey ++ idToken "key_id" pqcKey.szKeyId), ?_⟩
    rw [keyTokens_parts pqcKey, idTokens, idToken, idToken, if_neg hdevice]
    simp [keyTokens]
    rfl
  have htext : listText (allTokens [.key classicKey, .key pqcKey]) =
      listText (numberToken "alg" classicKey.uiAlgID :: others) ++ [59] ++ lit "device_id=" ++
        pqcKey.szDeviceId.bytes := by
    rw [twoKeys_tokens, hothers, listText_append (List.cons_ne_nil _ _)]
    simp [KeyText.behind]
  rw [htext] at hlength ⊢
  refine ⟨_, 511 - (listText (numberToken "alg" classicKey.uiAlgID :: others) ++ [59] ++
    lit "device_id=").length, ?_, rfl, ?_⟩
  · rw [List.length_append] at hlength
    omega
  · rw [List.take_append, List.take_of_length_le]
    rw [List.length_append] at hlength
    omega

/-- A field that has room for its tokens is sent with all of them. -/
theorem firstBytes_payload (hshape : Shaped c) :
    c.firstBytes.payload.bytes = listText (allTokens c.payload) ∧
      c.firstBytes.auxPayload.bytes = listText (allTokens c.auxPayload) :=
  ⟨store_fits (listText_fits hshape.payload), store_fits (listText_fits hshape.auxPayload)⟩

theorem fieldRunsOut_iff (hshape : Shaped c) :
    c.FieldRunsOut ↔ 512 ≤ (listText (allTokens c.keyRef)).length := by
  have hpay := no_run_out 1024 (by decide) hshape.payload
  have haux := no_run_out 1024 (by decide) hshape.auxPayload
  rw [Asked.FieldRunsOut, runsOut_empty (by decide), or_iff_left (not_or.mpr ⟨hpay, haux⟩)]

theorem ccmAlgName_short {uiAlgID : UInt32} {algorithm : Bytes}
    (h : ccmAlgName uiAlgID = some algorithm) : algorithm.length < 64 := by
  rw [ccmAlgName] at h
  split at h
  all_goals first
    | (obtain rfl := Option.some.inj h; decide)
    | simp at h

theorem built_iff (hshape : Shaped c) {algorithm : Bytes}
    (hname : ccmAlgName c.uiAlgID = some algorithm) :
    c.build.1 = .ok ↔ membersLength (c.strings algorithm) < 2048 := by
  have hid : c.firstBytes.requestId.bytes ≠ [] := hshape.named
  rw [Asked.build, c.opts_eq, buildJson_eq hname (ccmAlgName_short hname) hid,
    builtObject_length, ← Asked.strings]
  by_cases hfit : membersLength (c.strings algorithm) < 2048
  · simp [hfit]
  · simp [hfit]

theorem complete_iff (m : Memory) (e : EntryPoint) :
    Complete m e ↔ ∀ c classicKey pqcKey algorithm, e.asked m = some c →
      c.keyRef = [.key classicKey, .key pqcKey] → ccmAlgName c.uiAlgID = some algorithm →
      keyLength classicKey + 1 + keyLength pqcKey < 512 ∨
        2048 ≤ membersLength (c.strings algorithm) := by
  constructor
  · intro hcomplete c classicKey pqcKey algorithm hasked hkeys hname
    have hshape := asked_shaped hasked
    by_contra hcut
    rw [not_or, Nat.not_lt, Nat.not_le] at hcut
    have hshort : c.FieldRunsOut := by
      rw [fieldRunsOut_iff hshape, hkeys, twoKeys_length]
      exact hcut.1
    have hbuilt : (e.build m).1 = .ok := by
      rw [build_eq, hasked]
      exact (built_iff hshape hname).mpr hcut.2
    exact hcomplete.stops c hasked (.inl hshort) hbuilt
  · intro hroom
    have hfits : ∀ c algorithm, e.asked m = some c → ccmAlgName c.uiAlgID = some algorithm →
        c.build.1 = .ok → (listText (allTokens c.keyRef)).length < 512 := by
      intro c algorithm hasked hname hok
      have hshape := asked_shaped hasked
      rw [built_iff hshape hname] at hok
      rcases hshape.keyRef with hkey | ⟨classicKey, pqcKey, hkeys⟩
      · exact listText_fits hkey
      · rw [hkeys, twoKeys_length]
        have hcut := hroom c classicKey pqcKey algorithm hasked hkeys hname
        omega
    constructor
    · intro json hjson
      rw [build_eq] at hjson
      cases hasked : e.asked m with
      | none => simp [hasked] at hjson
      | some c =>
        rw [hasked] at hjson
        obtain ⟨algorithm, hname⟩ := buildJson_name hjson
        have hkey := hfits c algorithm hasked hname (congrArg Prod.fst hjson)
        have hsent := buildJson_sent hjson
        obtain ⟨hpay, haux⟩ := firstBytes_payload (asked_shaped hasked)
        have hwhole : c.firstBytes.keyRef.bytes = listText (allTokens c.keyRef) := store_fits hkey
        rw [c.opts_eq, hwhole, hpay, haux] at hsent
        exact ⟨c, rfl, hsent⟩
    · intro c hasked hshort hok
      rw [build_eq, hasked] at hok
      have hpair : c.build = (.ok, c.build.2) := Prod.ext hok rfl
      obtain ⟨algorithm, hname⟩ := buildJson_name hpair
      rcases hshort with hfield | ⟨other, hother, hjson⟩
      · rw [fieldRunsOut_iff (asked_shaped hasked)] at hfield
        have hkey := hfits c algorithm hasked hname hok
        omega
      · exact buildJson_runs hother hok hjson

/-- A key reference with the longest numbers and with ids of 63 bytes. -/
def longKey (c : UInt8) : UnifKeyRef where
  uiAlgID := 4294967295
  uiUsage := 4294967295
  uiSource := 4294967295
  uiKeyIndex := 4294967295
  hKeyHandle := 18446744073709551615
  pExternalKey := 18446744073709551615
  szKeyId := store 64 (List.replicate 63 c)
  szDeviceId := store 64 (List.replicate 63 c)

def longKeys : Memory where
  algParamsAt := fun _ => plainParams 1
  keyRefAt := fun ptr => if ptr = 4112 then longKey 99 else longKey 112
  bufferAt := fun _ => ⟨8192, 5⟩
  byteAt := fun _ => 0

def longSign : EntryPoint := .hybridSign 4096 4112 4128 4144 4160

def longAsked : Asked :=
  hybrid "ccm-hybrid-sign" "sign" "asym:sign:classic:sm2>pqc:sign:pqc:dilithium3" (plainParams 1)
    (longKey 99) (longKey 112) ⟨8192, 5⟩ ⟨8192, 5⟩

theorem longSign_asked : longSign.asked longKeys = some longAsked := rfl

theorem longSign_build : longSign.build longKeys = longAsked.build := by
  rw [build_eq, longSign_asked]

theorem longAsked_ok : longAsked.build.1 = .ok := by
  have hname : ccmAlgName longAsked.uiAlgID = some (lit "sm2") := rfl
  refine (built_iff (asked_shaped longSign_asked) hname).mpr ?_
  decide +kernel

theorem sent_keyRef (h : c.build.1 = .ok) :
    sentText c.build.2.bytes "key_ref" = some c.firstBytes.keyRef.bytes := by
  have hpair : c.build = (.ok, c.build.2) := Prod.ext h rfl
  rw [(buildJson_sent hpair).1, c.opts_eq]

/-- The second device id of the two keys is cut to 19 of its 63 bytes. -/
theorem device_cut :
    (longSign.build longKeys).1 = .ok ∧
      (∃ front, sentText (longSign.build longKeys).2.bytes "key_ref" =
        some (front ++ lit ";device_id=" ++ List.replicate 19 112)) ∧
      ¬Complete longKeys longSign := by
  have hok : (longSign.build longKeys).1 = .ok := by
    rw [longSign_build]
    exact longAsked_ok
  have hcut : longAsked.FieldRunsOut := by
    rw [fieldRunsOut_iff (asked_shaped longSign_asked)]
    decide +kernel
  refine ⟨hok, ⟨longAsked.firstBytes.keyRef.bytes.take 481, ?_⟩, ?_⟩
  · rw [longSign_build, sent_keyRef longAsked_ok]
    decide +kernel
  · intro hcomplete
    exact hcomplete.stops longAsked longSign_asked (.inl hcut) hok

end Complete

end Ucisdk.EntryPoints
