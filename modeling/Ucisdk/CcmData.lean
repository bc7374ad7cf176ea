import Ucisdk.CcmObject

/-!
# The data of a routed call

A routed call reads the structures it is given and writes the address and the
length of each buffer into the request. It reads no byte of a buffer.
-/

set_option autoImplicit false

namespace Ucisdk.CcmData

open Ucisdk.CString Ucisdk.Ccm Ucisdk.CcmObject

/-- The entry points that take data in a buffer, with their pointers. -/
inductive DataCall where
  | hash (pAlgParams pData pHash : UInt64)
  | hashUpdate (pData : UInt64)
  | mac (pAlgParams pKey pIV pData pMac : UInt64)
  | symEncrypt (pAlgParams pKey pIV pData pCipher : UInt64)
  | symDecrypt (pAlgParams pKey pIV pCipher pData : UInt64)
  | asymEncrypt (pAlgParams pPublicKey pData pCipher : UInt64)
  | asymDecrypt (pAlgParams pPrivateKey pCipher pData : UInt64)
  | importKey (pAlgParams pKeyBlob pKey : UInt64)
  | kemDecapsulate (pAlgParams pPrivateKey pCipherText pSharedSecret : UInt64)
  | sign (pAlgParams pPrivateKey pData pSignature : UInt64)
  | verify (pAlgParams pPublicKey pData pSignature : UInt64)
  | signDigest (pAlgParams pPrivateKey pDigest pSignature : UInt64)
  | verifyDigest (pAlgParams pPublicKey pDigest pSignature : UInt64)

namespace DataCall

def build (m : Memory) : DataCall → CcmCode × CStr 2048
  | hash a d h => ccmHash m a d h
  | hashUpdate d => ccmHashUpdate m d
  | mac a k iv d o => ccmMac m a k iv d o
  | symEncrypt a k iv d c => ccmSymEncrypt m a k iv d c
  | symDecrypt a k iv c d => ccmSymDecrypt m a k iv c d
  | asymEncrypt a k d c => ccmAsymEncrypt m a k d c
  | asymDecrypt a k c d => ccmAsymDecrypt m a k c d
  | importKey a b k => ccmImportKey m a b k
  | kemDecapsulate a k c s => ccmKemDecapsulate m a k c s
  | sign a k d s => ccmSign m a k d s
  | verify a k d s => ccmVerify m a k d s
  | signDigest a k d s => ccmSignDigest m a k d s
  | verifyDigest a k d s => ccmVerifyDigest m a k d s

/-- The buffers a call takes its data from. -/
def inputs : DataCall → List UInt64
  | hash _ d _ => [d]
  | hashUpdate d => [d]
  | mac _ _ iv d _ => [d, iv]
  | symEncrypt _ _ iv d _ => [d, iv]
  | symDecrypt _ _ iv c _ => [c, iv]
  | asymEncrypt _ _ d _ => [d]
  | asymDecrypt _ _ c _ => [c]
  | importKey _ b _ => [b]
  | kemDecapsulate _ _ c _ => [c]
  | sign _ _ d _ => [d]
  | verify _ _ d s => [d, s]
  | signDigest _ _ d _ => [d]
  | verifyDigest _ _ d s => [d, s]

end DataCall

/-- The bytes a buffer holds. -/
def held (m : Memory) (ptr : UInt64) : Bytes :=
  match load m.bufferAt ptr with
  | none => []
  | some buf =>
    if buf.pucData = 0 then []
    else (List.range buf.uiDataLen.toNat).map fun i => m.byteAt (buf.pucData + UInt64.ofNat i)

/-- Another memory with the same structures in it. -/
def withBytes (m : Memory) (byteAt : UInt64 → UInt8) : Memory := { m with byteAt := byteAt }

def DataCall.data (m : Memory) (call : DataCall) : List Bytes := call.inputs.map (held m)

/-- The request tells the data of the call from any other data that the same
buffers may hold. -/
def DeterminesData (m : Memory) (call : DataCall) : Prop :=
  ∀ byteAt, call.data (withBytes m byteAt) ≠ call.data m →
    (call.build (withBytes m byteAt)).1 = .ok →
    (call.build (withBytes m byteAt)).2 ≠ (call.build m).2

theorem build_withBytes (m : Memory) (byteAt : UInt64 → UInt8) (call : DataCall) :
    call.build (withBytes m byteAt) = call.build m := by
  cases call <;> rfl

theorem held_withBytes (m : Memory) (byteAt : UInt64 → UInt8) {ptr : UInt64}
    (h : held m ptr = []) : held (withBytes m byteAt) ptr = [] := by
  rw [held] at h ⊢
  show (match load m.bufferAt ptr with
    | none => []
    | some buf => if buf.pucData = 0 then []
      else (List.range buf.uiDataLen.toNat).map fun i => byteAt (buf.pucData + UInt64.ofNat i)) = []
  cases hload : load m.bufferAt ptr with
  | none => rfl
  | some buf =>
    rw [hload] at h
    simp only at h ⊢
    split
    · rfl
    · rename_i hnull
      rw [if_neg hnull, List.map_eq_nil_iff] at h
      rw [List.map_eq_nil_iff]
      exact h

/-- Where a buffer holds a byte, the same buffer may hold another one. -/
theorem held_changes (m : Memory) {ptr : UInt64} (h : held m ptr ≠ []) :
    held (withBytes m fun a => m.byteAt a + 1) ptr ≠ held m ptr := by
  cases hload : load m.bufferAt ptr with
  | none => simp [held, hload] at h
  | some buf =>
    have hload' : load (withBytes m fun a => m.byteAt a + 1).bufferAt ptr = some buf := hload
    simp only [held, hload, hload'] at h ⊢
    split at h
    · exact absurd rfl h
    · rename_i hnull
      rw [if_neg hnull, if_neg hnull]
      intro heq
      have hpos : 0 ∈ List.range buf.uiDataLen.toNat := by
        rw [List.mem_range]
        apply Nat.pos_of_ne_zero
        intro hzero
        simp [hzero] at h
      have hbyte := List.map_inj_left.mp heq 0 hpos
      simp [withBytes] at hbyte

/-- An accepted call builds a request that determines its data only where
there is no data to determine. -/
theorem determinesData_iff (m : Memory) (call : DataCall) (hok : (call.build m).1 = .ok) :
    DeterminesData m call ↔ ∀ ptr ∈ call.inputs, held m ptr = [] := by
  constructor
  · intro h
    by_contra hsome
    rw [not_forall₂] at hsome
    obtain ⟨ptr, hptr, hne⟩ := hsome
    apply h fun a => m.byteAt a + 1
    · intro heq
      exact held_changes m hne (List.map_inj_left.mp heq ptr hptr)
    · rw [build_withBytes]
      exact hok
    · rw [build_withBytes]
  · intro hnone byteAt hdiff
    exfalso
    apply hdiff
    apply List.map_congr_left
    intro ptr hptr
    rw [hnone ptr hptr, held_withBytes m byteAt (hnone ptr hptr)]

section Samples

/-- A buffer of five bytes at 8192, seen through every pointer but NULL. -/
def fiveBytes (byteAt : UInt64 → UInt8) : Memory where
  algParamsAt := fun _ => plainParams 1
  keyRefAt := fun _ => ⟨1, 0, 3, 0, 0, 0, empty, empty⟩
  bufferAt := fun _ => ⟨8192, 5⟩
  byteAt := byteAt

def signFive : DataCall := .sign 4096 4112 4128 4144

theorem routeBuffered_ok {requestId domain action : String} {name : Bytes}
    {pAlgParams : Option UnifAlgParams} {pKey : Option UnifKeyRef}
    {pPrimary pAuxIn pOutput : Option UnifBuffer}
    (hname : ccmAlgName (algOrAutoGiven pAlgParams) = some name) (hshort : name.length < 64)
    (hfits : (bufferedOpts requestId pAlgParams pKey pPrimary pAuxIn pOutput).toOption.any (fun o =>
      o.requestId.bytes ≠ [] &&
        (builtObject (requestTexts (lit domain) (lit action) name o)).text.length < 2048) = true) :
    (routeBuffered requestId domain action pAlgParams pKey pPrimary pAuxIn pOutput).1 = .ok := by
  rw [routeBuffered]
  cases hopts : bufferedOpts requestId pAlgParams pKey pPrimary pAuxIn pOutput with
  | error rc => simp [hopts, Except.toOption] at hfits
  | ok o =>
    rw [hopts] at hfits
    simp only [Except.toOption, Option.any_some, Bool.and_eq_true, decide_eq_true_eq] at hfits
    simp only
    rw [buildJson_ok hname hshort hfits.1 hfits.2]

theorem signFive_ok (byteAt : UInt64 → UInt8) : (signFive.build (fiveBytes byteAt)).1 = .ok := by
  have hbuild : signFive.build (fiveBytes byteAt) =
      routeBuffered "ccm-sign" (signDomain (some (plainParams 1))) "sign" (some (plainParams 1))
        (some ⟨1, 0, 3, 0, 0, 0, empty, empty⟩) (some ⟨8192, 5⟩) none (some ⟨8192, 5⟩) := rfl
  have hname : ccmAlgName (algOrAutoGiven (some (plainParams 1))) = some (lit "sm2") := rfl
  rw [hbuild]
  exact routeBuffered_ok hname (by decide) (by decide +kernel)

theorem five_bytes_undetermined :
    DeterminesData (fiveBytes fun _ => 104) signFive ↔
      ∀ ptr ∈ signFive.inputs, held (fiveBytes fun _ => 104) ptr = [] :=
  determinesData_iff (fiveBytes fun _ => 104) signFive (signFive_ok fun _ => 104)

/-- Two messages of five bytes at one address make one request. -/
theorem two_messages_one_request :
    (signFive.build (fiveBytes fun _ => 104)).1 = .ok ∧
      (signFive.build (fiveBytes fun _ => 105)).1 = .ok ∧
      signFive.data (fiveBytes fun _ => 104) ≠ signFive.data (fiveBytes fun _ => 105) ∧
      (signFive.build (fiveBytes fun _ => 104)).2 = (signFive.build (fiveBytes fun _ => 105)).2 := by
  have hother : fiveBytes (fun _ => 104) = withBytes (fiveBytes fun _ => 105) fun _ => 104 := rfl
  refine ⟨signFive_ok _, signFive_ok _, by decide, ?_⟩
  rw [hother, build_withBytes]

end Samples

end Ucisdk.CcmData
