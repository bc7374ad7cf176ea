import Ucisdk.KeyText

/-!
# What an entry point appends

An entry point appends parameters, key references and buffers to the fields
of its request. Each of them is written as tokens, and a field holds the first
bytes of the tokens of all that was appended to it: all of them, if no append
ran out of space.
-/

set_option autoImplicit false

namespace Ucisdk.Pieces

open Ucisdk.CString Ucisdk.Ccm Ucisdk.CcmObject Ucisdk.KeyText

section Piece

/-- What an entry point may append to a field. -/
inductive Piece where
  | params (alg : UnifAlgParams)
  | key (ref : UnifKeyRef)
  | buffer (name : String) (buf : UnifBuffer)
  | number (name : String) (value : UInt32)
  | address (name : String) (ptr : UInt64)

namespace Piece

def tokens : Piece → List Bytes
  | params alg =>
    [numberToken "mode" alg.uiMode, numberToken "padding" alg.uiPadding,
      numberToken "hash_alg" alg.uiHashAlgID, numberToken "security_level" alg.uiSecurityLevel,
      pointerToken "ex_params" alg.pExParams]
  | key ref => keyTokens ref
  | buffer name buf => [pointerToken name buf.pucData, numberToken "len" buf.uiDataLen]
  | number name value => [numberToken name value]
  | address name ptr => [pointerToken name ptr]

variable {cap : ℕ} [NeZero cap]

def append : Piece → Appender cap
  | params alg => appendAlgParams alg
  | key ref => appendKeyRef ref
  | buffer name buf => appendBuffer name buf
  | number name value => appendToken name value
  | address name ptr => appendPtr name ptr

theorem writes_params (hcap : 1 < cap) (alg : UnifAlgParams) :
    Writes (appendAlgParams alg : Appender cap) (params alg).tokens :=
  writes_cons hcap (writes_number _ _) <| writes_cons hcap (writes_number _ _) <|
    writes_cons hcap (writes_number _ _) <| writes_cons hcap (writes_number _ _) <|
    writes_cons hcap (writes_pointer _ _) writes_nil

theorem writes_buffer (hcap : 1 < cap) (name : String) (buf : UnifBuffer) :
    Writes (appendBuffer name buf : Appender cap) (buffer name buf).tokens :=
  writes_cons hcap (writes_pointer _ _) <| writes_cons hcap (writes_number _ _) writes_nil

theorem writes (hcap : 1 < cap) (p : Piece) : Writes (p.append : Appender cap) p.tokens := by
  cases p with
  | params alg => exact writes_params hcap alg
  | key ref => exact writes_keyRef hcap ref
  | buffer name buf => exact writes_buffer hcap name buf
  | number name value => exact writes_number name value
  | address name ptr => exact writes_pointer name ptr

end Piece

end Piece

section Field

variable {cap : ℕ} [NeZero cap]

/-- The tokens of all that is appended to a field. -/
def allTokens (ps : List Piece) : List Bytes := ps.flatMap Piece.tokens

/-- Some append of a chain has less room than it needs. -/
def RunsOut : List (Appender cap) → CStr cap → Prop
  | [], _ => False
  | a :: as, out => (a out).1 ≠ .ok ∨ RunsOut as (a out).2

/-- Appends whose codes are not looked at leave what fits of all the tokens. -/
theorem appendEach_pieces (hcap : 1 < cap) (ps : List Piece) (out : CStr cap) :
    appendEach (ps.map Piece.append) out =
      append out (if out.bytes = [] then listText (allTokens ps) else behind (allTokens ps)) := by
  induction ps generalizing out with
  | nil =>
    rw [show (if out.bytes = [] then listText (allTokens []) else behind (allTokens [])) = []
      from ite_self [], append_nil]
    rfl
  | cons p ps ih =>
    have hwrites : Writes (p.append : Appender cap) p.tokens := p.writes hcap
    have hfirst := hwrites.appends out
    rw [Appends] at hfirst
    rw [allTokens, List.flatMap_cons, text_behind hcap out hwrites.nonempty, ← append_append]
    rw [List.map_cons, appendEach, List.foldl_cons, hfirst]
    exact ih _

theorem runsOut_iff (hcap : 1 < cap) (ps : List Piece) (out : CStr cap) :
    RunsOut (ps.map Piece.append) out ↔
      cap ≤ (out.bytes ++
        if out.bytes = [] then listText (allTokens ps) else behind (allTokens ps)).length := by
  induction ps generalizing out with
  | nil =>
    have hfit := out.fits
    rw [show (if out.bytes = [] then listText (allTokens []) else behind (allTokens [])) = []
      from ite_self [], List.append_nil]
    simp only [List.map_nil, RunsOut, false_iff]
    omega
  | cons p ps ih =>
    have hwrites : Writes (p.append : Appender cap) p.tokens := p.writes hcap
    have hfirst := hwrites.appends out
    rw [Appends] at hfirst
    rw [allTokens, List.flatMap_cons, text_behind hcap out hwrites.nonempty, ← List.append_assoc,
      List.map_cons, RunsOut, hfirst, ih]
    generalize (if out.bytes = [] then listText p.tokens else behind p.tokens) = s
    by_cases hfit : (out.bytes ++ s).length < cap
    · rw [if_pos hfit, append_fits hfit]
      simp [allTokens]
    · have hover : cap ≤ (out.bytes ++ s).length := by omega
      rw [if_neg hfit]
      simp only [ne_eq, reduceCtorEq, not_false_eq_true, true_or, true_iff]
      rw [List.length_append]
      omega

theorem appendEach_empty (hcap : 1 < cap) (ps : List Piece) :
    (appendEach (ps.map Piece.append) (empty : CStr cap)).bytes =
      (listText (allTokens ps)).take (cap - 1) := by
  rw [appendEach_pieces hcap, append_bytes, empty_bytes, List.nil_append, if_pos rfl]

theorem runsOut_empty (hcap : 1 < cap) (ps : List Piece) :
    RunsOut (ps.map Piece.append) (empty : CStr cap) ↔ cap ≤ (listText (allTokens ps)).length := by
  rw [runsOut_iff hcap, empty_bytes, List.nil_append, if_pos rfl]

end Field

section Room

/-- The room a piece may take behind another one. -/
def Piece.room : Piece → ℕ
  | params _ => 110
  | key _ => 278
  | buffer name _ => (lit name).length + 35
  | number name _ => (lit name).length + 12
  | address name _ => (lit name).length + 20

theorem number_length (value : UInt32) : (decimal value.toNat).length ≤ 10 := by
  have h := value.toNat_lt
  exact decimal_length (by decide) (by omega)

theorem pointer_length (ptr : UInt64) : (pointer ptr).length ≤ 18 := by
  have h := ptr.toNat_lt
  have hdigits : (hexadecimal ptr.toNat).length ≤ 16 := hexadecimal_length (by decide) (by omega)
  rw [pointer]
  split
  · decide
  · rw [List.length_append, show (lit "0x").length = 2 from rfl]
    omega

theorem numberToken_length (name : String) (value : UInt32) :
    (numberToken name value).length = (lit name).length + 1 + (decimal value.toNat).length := by
  rw [numberToken, List.length_append, List.length_append, show (lit "=").length = 1 from rfl]

theorem pointerToken_length (name : String) (ptr : UInt64) :
    (pointerToken name ptr).length = (lit name).length + 1 + (pointer ptr).length := by
  rw [pointerToken, List.length_append, List.length_append, show (lit "=").length = 1 from rfl]

/-- What an id takes behind other tokens. -/
def idLength (name : String) (id : CStr 64) : ℕ :=
  if id.bytes = [] then 0 else (lit name).length + 2 + id.bytes.length

theorem behind_id_length (name : String) (id : CStr 64) :
    (behind (idToken name id)).length = idLength name id := by
  rw [idToken, idLength]
  split
  · rfl
  · simp [behind, show lit "=" = [61] from rfl]
    omega

/-- The length of a key reference: its names and signs, its numbers and its ids. -/
def keyLength (key : UnifKeyRef) : ℕ :=
  56 + (decimal key.uiAlgID.toNat).length + (decimal key.uiUsage.toNat).length +
    (decimal key.uiSource.toNat).length + (decimal key.uiKeyIndex.toNat).length +
    (pointer key.hKeyHandle).length + (pointer key.pExternalKey).length +
    idLength "key_id" key.szKeyId + idLength "device_id" key.szDeviceId

theorem behind_key_length (key : UnifKeyRef) :
    (behind (keyTokens key)).length = keyLength key + 1 := by
  have hkeyId := behind_id_length "key_id" key.szKeyId
  have hdevice := behind_id_length "device_id" key.szDeviceId
  rw [behind] at hkeyId hdevice
  simp [behind, keyTokens, laterTokens, numberToken_length, pointerToken_length, keyLength, hkeyId,
    hdevice, show (lit "alg").length = 3 from rfl, show (lit "usage").length = 5 from rfl,
    show (lit "source").length = 6 from rfl,
    show (lit "key_index").length = 9 from rfl, show (lit "key_handle").length = 10 from rfl,
    show (lit "external_key").length = 12 from rfl]
  omega

/-- Without its device id a key reference is at most 203 bytes long. -/
theorem key_rest_le (key : UnifKeyRef) :
    keyLength key ≤ 203 + idLength "device_id" key.szDeviceId := by
  have halg := number_length key.uiAlgID
  have husage := number_length key.uiUsage
  have hsource := number_length key.uiSource
  have hindex := number_length key.uiKeyIndex
  have hhandle := pointer_length key.hKeyHandle
  have hexternal := pointer_length key.pExternalKey
  have hkeyId : idLength "key_id" key.szKeyId ≤ 71 := by
    have hfit := key.szKeyId.fits
    rw [idLength, show (lit "key_id").length = 6 from rfl]
    split <;> omega
  rw [keyLength]
  omega

theorem key_length_le (key : UnifKeyRef) : keyLength key ≤ 277 := by
  have hrest := key_rest_le key
  have hdevice : idLength "device_id" key.szDeviceId ≤ 74 := by
    have hfit := key.szDeviceId.fits
    rw [idLength, show (lit "device_id").length = 9 from rfl]
    split <;> omega
  omega

theorem piece_room (p : Piece) : (behind p.tokens).length ≤ p.room := by
  cases p with
  | params alg =>
    have hmode := number_length alg.uiMode
    have hpadding := number_length alg.uiPadding
    have hhash := number_length alg.uiHashAlgID
    have hlevel := number_length alg.uiSecurityLevel
    have hex := pointer_length alg.pExParams
    simp [behind, Piece.tokens, Piece.room, numberToken_length, pointerToken_length,
      show (lit "mode").length = 4 from rfl, show (lit "padding").length = 7 from rfl,
      show (lit "hash_alg").length = 8 from rfl,
      show (lit "security_level").length = 14 from rfl,
      show (lit "ex_params").length = 9 from rfl]
    omega
  | key ref =>
    have hkey := key_length_le ref
    rw [Piece.tokens, behind_key_length, Piece.room]
    omega
  | buffer name buf =>
    have hdata := pointer_length buf.pucData
    have hlen := number_length buf.uiDataLen
    simp [behind, Piece.tokens, Piece.room, numberToken_length, pointerToken_length,
      show (lit "len").length = 3 from rfl]
    omega
  | number name value =>
    have hvalue := number_length value
    simp [behind, Piece.tokens, Piece.room, numberToken_length]
    omega
  | address name ptr =>
    have hptr := pointer_length ptr
    simp [behind, Piece.tokens, Piece.room, pointerToken_length]
    omega

/-- The room that the pieces of a field may take. -/
def roomOf (ps : List Piece) : ℕ := (ps.map Piece.room).sum

theorem allTokens_room (ps : List Piece) : (behind (allTokens ps)).length ≤ roomOf ps := by
  induction ps with
  | nil => exact le_refl 0
  | cons p ps ih =>
    have hfirst := piece_room p
    rw [allTokens, List.flatMap_cons, behind_append, List.length_append, roomOf, List.map_cons,
      List.sum_cons]
    rw [allTokens, roomOf] at ih
    omega

/-- A field holds every token of pieces that have room in it. -/
theorem listText_fits {cap : ℕ} {ps : List Piece} (h : roomOf ps < cap) :
    (listText (allTokens ps)).length < cap := by
  have hbehind := listText_le (allTokens ps)
  have hroom := allTokens_room ps
  omega

end Room

end Ucisdk.Pieces
