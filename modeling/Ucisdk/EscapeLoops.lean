import Ucisdk.Reply

/-!
# The two escaping loops

The server and the client each have a loop that escapes a string into an
array at a position. Both are written here over the array itself, with the
remaining space as a difference of unsigned sizes. The loops agree, the
position stays inside the array, nothing outside it is written, and on what
the array shows they are the writers of the other modules.
-/

set_option autoImplicit false

namespace Ucisdk.EscapeLoops

open Ucisdk.CString Ucisdk.Common Ucisdk.Ccm Ucisdk.CcmObject

section Array

/-- The characters from the start of an array on, and a position in it. -/
structure Cursor where
  chars : ℕ → UInt8
  pos : UInt64

def write (chars : ℕ → UInt8) (start : ℕ) (s : Bytes) : ℕ → UInt8 := fun i =>
  if start ≤ i then (s[i - start]?).getD (chars i) else chars i

/-- `snprintf(buf + start, room, "%s", s)`; without room it writes nothing. -/
def snprintf (chars : ℕ → UInt8) (start room : ℕ) (s : Bytes) : ℕ → UInt8 :=
  if room = 0 then chars else write chars start (s.take (room - 1) ++ [0])

/-- A write at the position, which moves when all of the text was written.
The sizes wrap around like those of the source. -/
def emit (size : UInt64) (s : Bytes) (cur : Cursor) : Bool × Cursor :=
  let room := size - cur.pos
  let chars := snprintf cur.chars cur.pos.toNat room.toNat s
  if room ≤ UInt64.ofNat s.length then (false, ⟨chars, cur.pos⟩)
  else (true, ⟨chars, cur.pos + UInt64.ofNat s.length⟩)

/-- The text of `%04x`. -/
def hex4 (n : ℕ) : Bytes :=
  List.replicate (4 - (hexadecimal n).length) 48 ++ hexadecimal n

end Array

section Server

/-- What the server's loop prints for one byte. -/
def serverText (c : UInt8) : Bytes :=
  if c = 34 ∨ c = 92 then lit "\\" ++ [c]
  else if c = 10 then lit "\\n"
  else if c = 13 then lit "\\r"
  else if c = 9 then lit "\\t"
  else if c < 0x20 then lit "\\u" ++ hex4 c.toNat
  else [c]

def appendJsonEscaped (size : UInt64) : Bytes → Cursor → ℤ × Cursor
  | [], cur => (0, cur)
  | c :: p, cur =>
    if c = 0 then (0, cur)
    else
      match emit size (serverText c) cur with
      | (true, cur) => appendJsonEscaped size p cur
      | (false, cur) => (-1, cur)

end Server

section Client

def appendRaw (size : UInt64) (s : Bytes) (cur : Cursor) : CcmCode × Cursor :=
  match emit size s cur with
  | (true, cur) => (.ok, cur)
  | (false, cur) => (.bufferTooSmall, cur)

/-- What the client's loop leaves in `tmp`, an array of eight characters. -/
def clientTmp (c : UInt8) : Option Bytes :=
  if c = 34 ∨ c = 92 then some [92, c]
  else if c = 10 then some [92, 110]
  else if c = 13 then some [92, 114]
  else if c = 9 then some [92, 116]
  else if c < 0x20 then
    if 8 ≤ (lit "\\u" ++ hex4 c.toNat).length then none else some (lit "\\u" ++ hex4 c.toNat)
  else some [c]

def appendJsonLoop (size : UInt64) : Bytes → Cursor → CcmCode × Cursor
  | [], cur => (.ok, cur)
  | c :: p, cur =>
    if c = 0 then (.ok, cur)
    else
      match clientTmp c with
      | none => (.bufferTooSmall, cur)
      | some tmp =>
        match appendRaw size tmp cur with
        | (.ok, cur) => appendJsonLoop size p cur
        | (_, cur) => (.bufferTooSmall, cur)

/-- NULL is taken for the empty string. -/
def appendJsonString (size : UInt64) (value : Option Bytes) (cur : Cursor) : CcmCode × Cursor :=
  appendJsonLoop size (value.getD []) cur

end Client

section Agreement

/-- `tmp` always has room for the text, and it is the text of the server. -/
theorem clientTmp_eq (c : UInt8) : clientTmp c = some (serverText c) := by
  apply forall_byte (p := fun c => clientTmp c = some (serverText c))
  decide +kernel

theorem serverText_eq (c : UInt8) : serverText c = escapeByte c := by
  apply forall_byte (p := fun c => serverText c = escapeByte c)
  decide +kernel

theorem serverText_length (c : UInt8) : (serverText c).length ≤ 6 := by
  rw [serverText_eq]
  exact escapeByte_length c

/-- The two return codes that stand for the same end of a loop. -/
def SameEnd (rc : ℤ) (code : CcmCode) : Prop :=
  (rc = 0 ∧ code = .ok) ∨ (rc = -1 ∧ code = .bufferTooSmall)

theorem loops_agree (size : UInt64) (value : Bytes) (cur : Cursor) :
    SameEnd (appendJsonEscaped size value cur).1 (appendJsonString size (some value) cur).1 ∧
      (appendJsonEscaped size value cur).2 = (appendJsonString size (some value) cur).2 := by
  rw [appendJsonString, Option.getD_some]
  induction value generalizing cur with
  | nil => exact ⟨.inl ⟨rfl, rfl⟩, rfl⟩
  | cons c p ih =>
    rw [appendJsonEscaped, appendJsonLoop]
    by_cases hc : c = 0
    · rw [if_pos hc, if_pos hc]
      exact ⟨.inl ⟨rfl, rfl⟩, rfl⟩
    · rw [if_neg hc, if_neg hc, clientTmp_eq]
      simp only [appendRaw]
      cases emit size (serverText c) cur with
      | mk fits next =>
        cases fits with
        | true => exact ih next
        | false => exact ⟨.inr ⟨rfl, rfl⟩, rfl⟩

end Agreement

section Bounds

variable {size : UInt64} {cur : Cursor}

theorem room_toNat (h : cur.pos < size) :
    (size - cur.pos).toNat = size.toNat - cur.pos.toNat :=
  UInt64.toNat_sub_of_le _ _ (UInt64.le_of_lt h)

theorem length_toNat {s : Bytes} (hs : s.length ≤ 6) :
    (UInt64.ofNat s.length).toNat = s.length := by
  rw [UInt64.toNat_ofNat', Nat.mod_eq_of_lt]
  omega

theorem emit_fits (h : cur.pos < size) {s : Bytes} (hs : s.length ≤ 6) :
    (emit size s cur).1 = true ↔ cur.pos.toNat + s.length < size.toNat := by
  have hpos := UInt64.lt_iff_toNat_lt.mp h
  rw [emit]
  split
  · rename_i hfull
    rw [UInt64.le_iff_toNat_le, room_toNat h, length_toNat hs] at hfull
    simp only [Bool.false_eq_true, false_iff]
    omega
  · rename_i hfits
    rw [UInt64.le_iff_toNat_le, room_toNat h, length_toNat hs] at hfits
    simp only [true_iff]
    omega

theorem emit_pos (h : cur.pos < size) {s : Bytes} (hs : s.length ≤ 6) :
    (emit size s cur).2.pos.toNat =
      if (emit size s cur).1 = true then cur.pos.toNat + s.length else cur.pos.toNat := by
  by_cases hfits : (emit size s cur).1 = true
  · have hroom := (emit_fits h hs).mp hfits
    have hsize := size.toNat_lt
    rw [if_pos hfits]
    rw [emit] at hfits ⊢
    split at hfits
    · simp at hfits
    · rename_i hle
      rw [if_neg hle, UInt64.toNat_add, length_toNat hs, Nat.mod_eq_of_lt]
      omega
  · rw [if_neg hfits]
    rw [emit] at hfits ⊢
    split at hfits
    · rename_i hle
      rw [if_pos hle]
    · simp at hfits

/-- The position stays inside the array. -/
theorem emit_inside (h : cur.pos < size) {s : Bytes} (hs : s.length ≤ 6) :
    (emit size s cur).2.pos < size := by
  rw [UInt64.lt_iff_toNat_lt, emit_pos h hs]
  split
  · rename_i hfits
    exact (emit_fits h hs).mp hfits
  · exact UInt64.lt_iff_toNat_lt.mp h

theorem loop_inside (value : Bytes) (h : cur.pos < size) :
    (appendJsonEscaped size value cur).2.pos < size := by
  induction value generalizing cur with
  | nil => exact h
  | cons c p ih =>
    rw [appendJsonEscaped]
    split
    · exact h
    · have hinside := emit_inside h (serverText_length c)
      split
      · rename_i next hemit
        rw [hemit] at hinside
        exact ih hinside
      · rename_i next hemit
        rw [hemit] at hinside
        exact hinside

theorem write_outside {chars : ℕ → UInt8} {start i : ℕ} {s : Bytes}
    (h : i < start ∨ start + s.length ≤ i) : write chars start s i = chars i := by
  rw [write]
  split
  · have hlate : s.length ≤ i - start := by omega
    rw [List.getElem?_eq_none hlate, Option.getD_none]
  · rfl

/-- A write stays in the room that is left. -/
theorem emit_outside (h : cur.pos < size) (s : Bytes) {i : ℕ}
    (hi : i < cur.pos.toNat ∨ size.toNat ≤ i) : (emit size s cur).2.chars i = cur.chars i := by
  have hpos := UInt64.lt_iff_toNat_lt.mp h
  have hchars : (emit size s cur).2.chars =
      snprintf cur.chars cur.pos.toNat (size - cur.pos).toNat s := by
    rw [emit]
    split <;> rfl
  rw [hchars, snprintf, room_toNat h]
  split
  · rfl
  · apply write_outside
    rw [List.length_append, List.length_take, List.length_singleton]
    omega

theorem emit_pos_le (h : cur.pos < size) {s : Bytes} (hs : s.length ≤ 6) :
    cur.pos.toNat ≤ (emit size s cur).2.pos.toNat := by
  rw [emit_pos h hs]
  split <;> omega

theorem loop_outside (value : Bytes) (h : cur.pos < size) {i : ℕ}
    (hi : i < cur.pos.toNat ∨ size.toNat ≤ i) :
    (appendJsonEscaped size value cur).2.chars i = cur.chars i := by
  induction value generalizing cur with
  | nil => rfl
  | cons c p ih =>
    rw [appendJsonEscaped]
    split
    · rfl
    · have hinside := emit_inside h (serverText_length c)
      have houtside := emit_outside h (serverText c) hi
      have hle := emit_pos_le h (serverText_length c)
      split
      · rename_i next hemit
        rw [hemit] at hinside houtside hle
        have hnext : i < next.pos.toNat ∨ size.toNat ≤ i := hi.imp_left fun h => h.trans_le hle
        rw [ih hinside hnext, houtside]
      · rename_i next hemit
        rw [hemit] at houtside
        exact houtside

end Bounds

section Shown

variable {cap : ℕ} [NeZero cap] {size : UInt64}

/-- The array shows a string: its characters and the NUL behind them. -/
structure Shows (chars : ℕ → UInt8) (s : Bytes) : Prop where
  char : ∀ i (h : i < s.length), chars i = s[i]
  nul : chars s.length = 0

theorem shows_snprintf {chars : ℕ → UInt8} {s : Bytes} (h : Shows chars s) {room : ℕ}
    (hroom : 0 < room) (t : Bytes) :
    Shows (snprintf chars s.length room t) (s ++ t.take (room - 1)) := by
  have hne : room ≠ 0 := by omega
  rw [snprintf, if_neg hne]
  constructor
  · intro i hi
    by_cases hs : i < s.length
    · rw [write_outside (.inl hs), h.char i hs, List.getElem_append_left hs]
    · have hle : s.length ≤ i := by omega
      rw [List.length_append] at hi
      have hin : i - s.length < (t.take (room - 1)).length := by omega
      rw [write, if_pos hle, List.getElem?_append_left hin, List.getElem?_eq_getElem hin,
        Option.getD_some, List.getElem_append_right hle]
  · rw [List.length_append, write, if_pos (by omega), Nat.add_sub_cancel_left,
      List.getElem?_append_right (Nat.le_refl _)]
    simp

omit [NeZero cap] in
theorem shown_inside {cur : Cursor} {out : CStr cap} (hsize : size.toNat = cap)
    (hpos : cur.pos.toNat = out.bytes.length) : cur.pos < size := by
  rw [UInt64.lt_iff_toNat_lt, hpos, hsize]
  exact out.fits

/-- A write behind the string that the array shows. -/
theorem emit_shows {cur : Cursor} {out : CStr cap} (hsize : size.toNat = cap)
    (hpos : cur.pos.toNat = out.bytes.length) (h : Shows cur.chars out.bytes) (t : Bytes) :
    Shows (emit size t cur).2.chars (append out t).bytes := by
  have hinside := shown_inside hsize hpos
  have hfits := out.fits
  have hchars : (emit size t cur).2.chars =
      snprintf cur.chars cur.pos.toNat (size - cur.pos).toNat t := by
    rw [emit]
    split <;> rfl
  have htext : (append out t).bytes = out.bytes ++ t.take (cap - out.bytes.length - 1) := by
    rw [append, store_bytes, List.take_append, List.take_of_length_le (by omega)]
    congr 2
    omega
  rw [hchars, room_toNat hinside, hpos, hsize, htext]
  exact shows_snprintf h (by omega) t

theorem emit_pos_shown {cur : Cursor} {out : CStr cap} (hsize : size.toNat = cap)
    (hpos : cur.pos.toNat = out.bytes.length) {t : Bytes} (ht : t.length ≤ 6)
    (hfits : (emit size t cur).1 = true) :
    (emit size t cur).2.pos.toNat = (append out t).bytes.length := by
  have hinside := shown_inside hsize hpos
  have hroom := (emit_fits hinside ht).mp hfits
  rw [emit_pos hinside ht, if_pos hfits, append, store_fits, List.length_append, hpos]
  rw [List.length_append]
  omega

/-- On an array that shows a string the client's loop is the append that the
requests are built with. -/
theorem client_refines (value : Bytes) (hvalue : ∀ c ∈ value, c ≠ 0) {cur : Cursor}
    {out : CStr cap} (hsize : size.toNat = cap) (hpos : cur.pos.toNat = out.bytes.length)
    (hshows : Shows cur.chars out.bytes) :
    (appendJsonString size (some value) cur).1 = (Ccm.appendJsonString value out).1 ∧
      Shows (appendJsonString size (some value) cur).2.chars
        (Ccm.appendJsonString value out).2.bytes ∧
      ((Ccm.appendJsonString value out).1 = .ok →
        (appendJsonString size (some value) cur).2.pos.toNat =
          (Ccm.appendJsonString value out).2.bytes.length) := by
  rw [appendJsonString, Option.getD_some]
  induction value generalizing cur out with
  | nil => exact ⟨rfl, hshows, fun _ => hpos⟩
  | cons c p ih =>
    have hc : c ≠ 0 := hvalue c (by simp)
    have hlength := serverText_length c
    have hinside := shown_inside hsize hpos
    have hnext := emit_shows hsize hpos hshows (serverText c)
    have hmoved := emit_pos_shown hsize hpos hlength (t := serverText c)
    have hfits := emit_fits hinside hlength
    rw [hpos, hsize] at hfits
    have hroom : (serverText c).length < cap - out.bytes.length ↔
        (emit size (serverText c) cur).1 = true := by
      rw [hfits]
      omega
    rw [appendJsonLoop, if_neg hc, clientTmp_eq]
    rw [Ccm.appendJsonString, List.map_cons, appendAll, ← serverText_eq, Ccm.appendRaw]
    simp only [appendRaw]
    cases hemit : emit size (serverText c) cur with
    | mk fits next =>
      rw [hemit] at hnext hmoved hroom
      cases fits with
      | true =>
        rw [if_pos (hroom.mpr rfl)]
        exact ih (fun x hx => hvalue x (List.mem_cons_of_mem c hx)) (hmoved rfl) hnext
      | false =>
        rw [if_neg (by simp [hroom])]
        exact ⟨rfl, hnext, by simp⟩

/-- The server's loop is the writer of the responses. -/
theorem server_refines (value : Bytes) (hvalue : ∀ c ∈ value, c ≠ 0) {cur : Cursor}
    {out : CStr cap} (hsize : size.toNat = cap) (hpos : cur.pos.toNat = out.bytes.length)
    (hshows : Shows cur.chars out.bytes) :
    match Reply.appendJsonEscaped value out with
    | none => (appendJsonEscaped size value cur).1 = -1
    | some json => (appendJsonEscaped size value cur).1 = 0 ∧
        Shows (appendJsonEscaped size value cur).2.chars json.bytes ∧
        (appendJsonEscaped size value cur).2.pos.toNat = json.bytes.length := by
  obtain ⟨hends, hsame⟩ := loops_agree size value cur
  obtain ⟨hcode, hchars, hmoved⟩ := client_refines value hvalue hsize hpos hshows
  have happends : Appends (Ccm.appendJsonString value) out (escape value) :=
    appends_string value out
  rw [Appends] at happends
  rw [Reply.appendJsonEscaped_eq, Reply.put]
  by_cases hfit : (out.bytes ++ escape value).length < cap
  · have hjson : (Ccm.appendJsonString value out).2.bytes = out.bytes ++ escape value := by
      rw [happends, append_fits hfit]
    have hok : (Ccm.appendJsonString value out).1 = .ok := by
      rw [happends, if_pos hfit]
    rw [hjson] at hchars hmoved
    rw [hcode, hok] at hends
    rw [dif_pos hfit, hsame]
    refine ⟨?_, hchars, hmoved hok⟩
    simpa [SameEnd] using hends
  · have hfull : (Ccm.appendJsonString value out).1 = .bufferTooSmall := by
      rw [happends, if_neg hfit]
    rw [dif_neg hfit]
    rw [hcode, hfull] at hends
    simpa [SameEnd] using hends

end Shown

end Ucisdk.EscapeLoops
