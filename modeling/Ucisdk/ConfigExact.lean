import Mathlib.Data.List.Forall2
import Mathlib.Data.List.TakeWhile
import Ucisdk.Config

/-!
# What a configuration file declares

A line declares its device by its text, however long; the loader registers
what is left of the line in its buffers. The two agree on a line if and only
if no buffer takes away anything that a capability depends on.
-/

set_option autoImplicit false

namespace Ucisdk.ConfigExact

open Ucisdk.CString Ucisdk.Common Ucisdk.Protocol Ucisdk.Resource Ucisdk.Config
open Scan.Tokens Scan.Lines

section Declared

/-- A capability as a token declares it, with a name of any length. -/
structure DeclaredCapability where
  domain : ApiDomain
  action : ApiAction
  algorithm : Bytes
  keySourceMask : UInt32
  deriving DecidableEq

/-- The name an alias stands for. -/
def resolveAlias (name : Bytes) : Bytes :=
  if name = lit "auto" ∨ name = lit "none" then lit "auto"
  else if name = lit "kyber" ∨ name = lit "kyber-768" then lit "kyber768"
  else if name = lit "ml-kem-768" ∨ name = lit "mlkem" then lit "mlkem768"
  else if name = lit "dilithium" ∨ name = lit "dilithium-3" then lit "dilithium3"
  else name

def lowerTrim (text : Bytes) : Bytes :=
  ((text.dropWhile isspace).filter fun c => !isspace c).map tolower

/-- The normal form of a name of any length. -/
def normalName (text : Bytes) : Bytes :=
  if text = [] then lit "auto" else resolveAlias (lowerTrim text)

/-- The capability a token declares, if it declares one. -/
def declaredCapability (token : Bytes) : Option DeclaredCapability :=
  match capabilityParts token with
  | none => none
  | some parts =>
    if parseDomain parts.domain = .unknown ∨ parseAction parts.action = .unknown ∨
        normalName parts.algorithm = [] ∨ keySourceMask parts.keySource = 0 then none
    else some ⟨parseDomain parts.domain, parseAction parts.action, normalName parts.algorithm,
      keySourceMask parts.keySource⟩

def asDeclared (cap : Capability) : DeclaredCapability :=
  ⟨cap.domain, cap.action, cap.algorithm.bytes, cap.keySourceMask⟩

/-- The device id and the capability list among the fields of a line. -/
def declaredFields : List Bytes → Option (Bytes × Bytes)
  | deviceId :: _ :: _ :: _ :: _ :: _ :: _ :: _ :: caps :: _ => some (deviceId, caps)
  | _ => none

def declaredDevice (line : Bytes) : Option (Bytes × Bytes) :=
  if line.head? = some hash then none
  else declaredFields (tokens isComma (line.takeWhile fun c => !isLineEnd c))

theorem lowerTrim_length (text : Bytes) : (lowerTrim text).length ≤ text.length := by
  have hfilter := List.length_filter_le (fun c => !isspace c) (text.dropWhile isspace)
  have hdrop := (List.dropWhile_suffix (l := text) isspace).length_le
  rw [lowerTrim, List.length_map]
  omega

theorem normalName_length {text : Bytes} (h : text.length < maxFieldLen) :
    (normalName text).length < maxFieldLen := by
  have hlower := lowerTrim_length text
  rw [normalName, resolveAlias]
  split_ifs
  · decide
  · decide
  · decide
  · decide
  · decide
  · omega

/-- A name that fits is normalized without a cut. -/
theorem normalizeAlgorithmName_short {text : Bytes} (h : text.length < maxFieldLen) :
    normalizeAlgorithmName text maxFieldLen =
      if normalName text = [] then none else some (store maxFieldLen (normalName text)) := by
  by_cases hempty : text = []
  · subst hempty
    decide
  · have hlower := lowerTrim_length text
    have hcopy : copyLowerTrim text maxFieldLen = lowerTrim text := by
      rw [copyLowerTrim]
      exact List.take_of_length_le (Nat.le_sub_one_of_lt (Nat.lt_of_le_of_lt hlower h))
    have hnorm : normalName text = resolveAlias (lowerTrim text) := by rw [normalName, if_neg hempty]
    have hfit := normalName_length h
    rw [normalizeAlgorithmName, if_neg hempty, hcopy]
    show (if (store maxFieldLen (resolveAlias (lowerTrim text))).bytes = [] then none
      else some (store maxFieldLen (resolveAlias (lowerTrim text)))) = _
    rw [← hnorm, store_fits hfit]

theorem capabilityParts_length {s : Bytes} {parts : CapabilityParts}
    (h : capabilityParts s = some parts) : parts.algorithm.length ≤ s.length := by
  have hcut : ∀ {s a r : Bytes}, cutAtColon s = (a, some r) → r.length ≤ s.length := by
    intro s a r hs
    rw [cutAtColon, Prod.mk.injEq] at hs
    exact (Scan.Quoted.after_suffix hs.2).length_le
  rw [capabilityParts] at h
  split at h
  · simp at h
  · rename_i domain rest hrest
    split at h
    · simp at h
    · rename_i action rest' hrest'
      rw [← Option.some.inj h]
      have hfirst := hcut hrest
      have hsecond := hcut hrest'
      have hthird := (List.takeWhile_prefix (l := rest') fun c => c ≠ colon).length_le
      show (rest'.takeWhile fun c => c ≠ colon).length ≤ _
      omega

/-- The loader parses what is left of a token to what that declares. -/
theorem parseCapability_eq (s : Bytes) :
    (parseCapability s).map asDeclared = declaredCapability (s.take 159) := by
  rw [parseCapability, declaredCapability, store_bytes]
  cases hparts : capabilityParts (s.take (160 - 1)) with
  | none => rfl
  | some parts =>
    have hlen : parts.algorithm.length < maxFieldLen := by
      have h := capabilityParts_length hparts
      rw [List.length_take] at h
      show _ < 256
      omega
    have hname := normalName_length hlen
    simp only [normalizeAlgorithmName_short hlen]
    by_cases hunknown : parseDomain parts.domain = .unknown ∨ parseAction parts.action = .unknown
    · rw [if_pos hunknown, if_pos (by tauto)]
      rfl
    · rw [if_neg hunknown]
      by_cases hempty : normalName parts.algorithm = []
      · simp [hempty]
      · by_cases hmask : keySourceMask parts.keySource = 0
        · simp [hempty, hmask]
        · rw [if_neg hempty, if_neg (by tauto)]
          simp only [hmask, if_false, Option.map_some, asDeclared, store_fits hname]

end Declared

section Loader

theorem loadCapabilities_ok {ts : List Bytes} {device loaded : DeviceResource}
    (h : loadCapabilities ts device = .ok loaded) :
    loaded.deviceId = device.deviceId ∧ ∃ caps, loaded.caps = device.caps ++ caps ∧
      List.Forall₂ (fun token cap => parseCapability token = some cap) ts caps := by
  induction ts generalizing device with
  | nil =>
    rw [loadCapabilities, Except.ok.injEq] at h
    subst h
    exact ⟨rfl, [], (List.append_nil _).symm, .nil⟩
  | cons token ts ih =>
    rw [loadCapabilities] at h
    split at h
    · split at h
      · simp at h
      · rename_i cap hcap
        obtain ⟨hid, caps, hcaps, hall⟩ := ih h
        refine ⟨hid, cap :: caps, ?_, .cons hcap hall⟩
        rw [hcaps, List.append_assoc]
        rfl
    · simp at h

/-- The device a read adds to the registry. -/
def registered (buffer : Bytes) : Option DeviceResource :=
  match readLine buffer with
  | none => none
  | some (device, caps) =>
    (loadCapabilities (tokens isBar (store 512 caps).bytes) device).toOption

theorem registryAdd_devices {registry registry' : Registry} {device : DeviceResource}
    (h : registryAdd registry device = some registry') :
    registry'.devices = registry.devices ++ [device] := by
  rw [registryAdd] at h
  split at h
  · rw [← Option.some.inj h]
  · simp at h

/-- Every device line that a successful load reads is registered. -/
theorem loadLine_ok {registry registry' : Registry} {buffer : Bytes}
    (h : loadLine registry buffer = .ok registry') :
    registry'.devices = registry.devices ++ (registered buffer).toList ∧
      ((registered buffer).isSome = (readLine buffer).isSome) := by
  rw [loadLine] at h
  rw [registered]
  cases hread : readLine buffer with
  | none =>
    rw [hread] at h
    rw [← Except.ok.inj h]
    exact ⟨(List.append_nil _).symm, rfl⟩
  | some entry =>
    obtain ⟨device, caps⟩ := entry
    simp only [hread] at h
    cases hcaps : loadCapabilities (tokens isBar (store 512 caps).bytes) device with
    | error errbuf => simp only [hcaps, reduceCtorEq] at h
    | ok loaded =>
      simp only [hcaps] at h ⊢
      split at h
      · simp at h
      · rename_i next hadd
        rw [← Except.ok.inj h]
        exact ⟨registryAdd_devices hadd, rfl⟩

theorem loadLines_ok {registry registry' : Registry} {buffers : List Bytes}
    (h : loadLines registry buffers = ⟨none, registry'⟩) :
    registry'.devices = registry.devices ++ buffers.filterMap registered ∧
      ∀ buffer ∈ buffers, (registered buffer).isSome = (readLine buffer).isSome := by
  induction buffers generalizing registry with
  | nil =>
    rw [loadLines, Loaded.mk.injEq] at h
    rw [h.2]
    exact ⟨(List.append_nil _).symm, by simp⟩
  | cons buffer buffers ih =>
    rw [loadLines] at h
    split at h
    · simp at h
    · rename_i next hline
      obtain ⟨hdevices, hread⟩ := loadLine_ok hline
      obtain ⟨hrest, hall⟩ := ih h
      constructor
      · rw [hrest, hdevices, List.append_assoc, List.filterMap_cons]
        cases registered buffer <;> rfl
      · intro b hb
        rcases List.mem_cons.mp hb with rfl | hb
        · exact hread
        · exact hall b hb

theorem readLine_caps {buffer caps : Bytes} {device : DeviceResource}
    (h : readLine buffer = some (device, caps)) : device.caps = [] := by
  simp only [readLine] at h
  split at h
  · simp at h
  · rw [readFields] at h
    split at h
    · rw [Option.some.injEq, Prod.mk.injEq] at h
      rw [← h.1]
    · simp at h

/-- A device that was made of the fields of a line. -/
def MadeOf (fields : DeviceResource × Bytes) (device : DeviceResource) : Prop :=
  device.deviceId = fields.1.deviceId ∧
    List.Forall₂ (fun token cap => parseCapability token = some cap)
      (tokens isBar (fields.2.take 511)) device.caps

theorem registered_madeOf {buffer : Bytes} {fields : DeviceResource × Bytes}
    {device : DeviceResource} (hread : readLine buffer = some fields)
    (h : registered buffer = some device) : MadeOf fields device := by
  rw [registered, hread] at h
  cases hcaps : loadCapabilities (tokens isBar (store 512 fields.2).bytes) fields.1 with
  | error errbuf =>
    simp only [hcaps] at h
    simp [Except.toOption] at h
  | ok loaded =>
    simp only [hcaps] at h
    have hdevice : loaded = device := Option.some.inj h
    subst hdevice
    obtain ⟨hid, caps, hloaded, hall⟩ := loadCapabilities_ok hcaps
    rw [readLine_caps hread, List.nil_append] at hloaded
    rw [MadeOf, hloaded]
    exact ⟨hid, hall⟩

theorem registered_forall₂ {buffers : List Bytes}
    (h : ∀ buffer ∈ buffers, (registered buffer).isSome = (readLine buffer).isSome) :
    List.Forall₂ MadeOf (buffers.filterMap readLine) (buffers.filterMap registered) := by
  induction buffers with
  | nil => exact .nil
  | cons buffer buffers ih =>
    have hrest := ih fun b hb => h b (by simp [hb])
    have hfirst := h buffer (by simp)
    rw [List.filterMap_cons, List.filterMap_cons]
    cases hread : readLine buffer with
    | none =>
      rw [hread, Option.isSome_none, Option.isSome_eq_false_iff, Option.isNone_iff_eq_none] at hfirst
      rw [hfirst]
      exact hrest
    | some fields =>
      rw [hread, Option.isSome_some, Option.isSome_iff_exists] at hfirst
      obtain ⟨device, hdevice⟩ := hfirst
      rw [hdevice]
      exact .cons (registered_madeOf hread hdevice) hrest

end Loader

section Exact

/-- The devices that are registered while a line is read. -/
def lineDevices (line : Bytes) : List DeviceResource := (pieces 1023 line).filterMap registered

/-- A device with the id and exactly the capabilities that a line declares. -/
structure ExactDevice (deviceId caps : Bytes) (device : DeviceResource) : Prop where
  deviceId : device.deviceId = store maxFieldLen deviceId
  caps : List.Forall₂ (fun token cap => declaredCapability token = some (asDeclared cap))
    (tokens isBar caps) device.caps

/-- A line registers the device it declares, and nothing else. -/
def RegisteredExactly (line : Bytes) : Prop :=
  match declaredDevice line with
  | none => lineDevices line = []
  | some (deviceId, caps) => ∃ device, lineDevices line = [device] ∧ ExactDevice deviceId caps device

/-- The registry grew by the devices of the lines, each as its line declares. -/
structure LoadedExactly (file : Bytes) (before after : Registry) : Prop where
  devices : after.devices = before.devices ++ (lines newline file).flatMap lineDevices
  exact : ∀ line ∈ lines newline file, RegisteredExactly line

/-- The buffers take away nothing of a line that matters: one of the pieces
in which it is read has nine fields, and what is left of its capability list
has a part for each token, which declares what the token declares. -/
def BuffersSuffice (line : Bytes) : Prop :=
  match declaredDevice line with
  | none => (pieces 1023 line).filterMap readLine = []
  | some (deviceId, caps) =>
    ∃ device kept, (pieces 1023 line).filterMap readLine = [(device, kept)] ∧
      device.deviceId = store maxFieldLen deviceId ∧
      List.Forall₂ (fun token part => declaredCapability token = declaredCapability (part.take 159))
        (tokens isBar caps) (tokens isBar (kept.take 511))

theorem forall₂_declared {parts : List Bytes} {caps : List Capability}
    (h : List.Forall₂ (fun part cap => parseCapability part = some cap) parts caps)
    (ts : List Bytes) :
    List.Forall₂ (fun token cap => declaredCapability token = some (asDeclared cap)) ts caps ↔
      List.Forall₂ (fun token part => declaredCapability token = declaredCapability (part.take 159))
        ts parts := by
  induction h generalizing ts with
  | nil => rw [List.forall₂_nil_right_iff, List.forall₂_nil_right_iff]
  | @cons part cap parts caps hpart _ ih =>
    have hkept : declaredCapability (part.take 159) = some (asDeclared cap) := by
      rw [← parseCapability_eq, hpart]
      rfl
    rw [List.forall₂_cons_right_iff, List.forall₂_cons_right_iff]
    simp only [ih, hkept]

theorem registeredExactly_iff {line : Bytes}
    (h : ∀ buffer ∈ pieces 1023 line, (registered buffer).isSome = (readLine buffer).isSome) :
    RegisteredExactly line ↔ BuffersSuffice line := by
  have hmade := registered_forall₂ h
  rw [RegisteredExactly, BuffersSuffice, lineDevices]
  cases declaredDevice line with
  | none =>
    simp only
    constructor
    · intro hnil
      rw [hnil] at hmade
      exact List.forall₂_nil_right_iff.mp hmade
    · intro hnil
      rw [hnil] at hmade
      exact List.forall₂_nil_left_iff.mp hmade
  | some entry =>
    obtain ⟨deviceId, caps⟩ := entry
    simp only
    constructor
    · rintro ⟨device, hdevices, hexact⟩
      rw [hdevices, List.forall₂_cons_right_iff] at hmade
      obtain ⟨fields, rest, ⟨hid, hall⟩, hnil, hread⟩ := hmade
      rw [List.forall₂_nil_right_iff] at hnil
      subst hnil
      refine ⟨fields.1, fields.2, hread, ?_, (forall₂_declared hall _).mp hexact.caps⟩
      rw [← hid]
      exact hexact.deviceId
    · rintro ⟨device, kept, hread, hid, hall⟩
      rw [hread, List.forall₂_cons_left_iff] at hmade
      obtain ⟨loaded, rest, ⟨hloaded, hcaps⟩, hnil, hdevices⟩ := hmade
      rw [List.forall₂_nil_left_iff] at hnil
      subst hnil
      exact ⟨loaded, hdevices, hloaded.trans hid, (forall₂_declared hcaps _).mpr hall⟩

/-- Buffers that suffice keep a part for each token. -/
theorem buffersSuffice_count {line : Bytes} (h : BuffersSuffice line) :
    ((declaredDevice line).toList.map fun entry => (tokens isBar entry.2).length) =
      ((pieces 1023 line).filterMap readLine).map fun fields =>
        (tokens isBar (fields.2.take 511)).length := by
  rw [BuffersSuffice] at h
  cases hdeclared : declaredDevice line with
  | none =>
    rw [hdeclared] at h
    rw [h]
    rfl
  | some entry =>
    rw [hdeclared] at h
    obtain ⟨device, kept, hread, _, hall⟩ := h
    rw [hread]
    simpa using hall.length_eq

/-- A line that no buffer cuts. -/
structure WithinBuffers (line : Bytes) : Prop where
  length : line.length ≤ 1023
  text : ∀ c ∈ line, c ≠ 0
  caps : ∀ entry ∈ declaredDevice line,
    entry.2.length ≤ 511 ∧ ∀ token ∈ tokens isBar entry.2, token.length ≤ 159

theorem readFields_declared (line : Bytes) :
    match declaredFields (tokens isComma line) with
    | none => readFields line = none
    | some (deviceId, caps) => ∃ device, readFields line = some (device, caps) ∧
        device.deviceId = store maxFieldLen deviceId := by
  rw [readFields]
  generalize tokens isComma line = fields
  fun_cases declaredFields fields with
  | case1 => exact ⟨_, rfl, rfl⟩
  | case2 => grind

/-- A read that holds a whole line has the fields of the line. -/
theorem readLine_whole {line : Bytes} (htext : ∀ c ∈ line, c ≠ 0) :
    match declaredDevice line with
    | none => readLine line = none
    | some (deviceId, caps) => ∃ device, readLine line = some (device, caps) ∧
        device.deviceId = store maxFieldLen deviceId := by
  have hwhole : (line.takeWhile fun c => c ≠ 0) = line := by
    rw [List.takeWhile_eq_self_iff]
    intro c hc
    simpa using htext c hc
  have hfields := readFields_declared (line.takeWhile fun c => !isLineEnd c)
  simp only [readLine, declaredDevice, hwhole]
  by_cases hhash : line.head? = some hash
  · simp [hhash]
  · by_cases hblank : line.head? = some newline
    · obtain ⟨rest, rfl⟩ := List.head?_eq_some_iff.mp hblank
      have hempty : ((newline :: rest).takeWhile fun c => !isLineEnd c) = [] := rfl
      rw [if_neg hhash, if_pos (Or.inr hblank), hempty, tokens_nil]
      simp [declaredFields]
    · rw [if_neg hhash, if_neg (not_or.mpr ⟨hhash, hblank⟩)]
      exact hfields

theorem buffersSuffice_of_within {line : Bytes} (hne : line ≠ []) (h : WithinBuffers line) :
    BuffersSuffice line := by
  have hread := readLine_whole h.text
  have hcaps := h.caps
  rw [BuffersSuffice, pieces_short 1023 line hne h.length]
  cases hdeclared : declaredDevice line with
  | none =>
    rw [hdeclared] at hread
    simp only [List.filterMap_cons, hread, List.filterMap_nil]
  | some entry =>
    obtain ⟨deviceId, caps⟩ := entry
    rw [hdeclared] at hread
    obtain ⟨device, hdevice, hid⟩ := hread
    obtain ⟨hlength, htokens⟩ := hcaps (deviceId, caps) hdeclared
    refine ⟨device, caps, ?_, hid, ?_⟩
    · simp only [List.filterMap_cons, hdevice, List.filterMap_nil]
    · rw [List.take_of_length_le hlength, List.forall₂_same]
      intro token htoken
      rw [List.take_of_length_le (htokens token htoken)]

theorem loadedExactly_iff {path file : Bytes} {registry registry' : Registry}
    (hload : loadResourcesFromFile path (some file) registry = ⟨none, registry'⟩) :
    LoadedExactly file registry registry' ↔ ∀ line ∈ lines newline file, BuffersSuffice line := by
  rw [loadResourcesFromFile, reads_eq] at hload
  obtain ⟨hdevices, hall⟩ := loadLines_ok hload
  rw [List.filterMap_flatMap] at hdevices
  have hline : ∀ line ∈ lines newline file, RegisteredExactly line ↔ BuffersSuffice line := by
    intro line hline
    apply registeredExactly_iff
    intro buffer hbuffer
    exact hall buffer (List.mem_flatMap.mpr ⟨line, hline, hbuffer⟩)
  constructor
  · intro h line hm
    exact (hline line hm).mp (h.exact line hm)
  · intro h
    exact ⟨hdevices, fun line hm => (hline line hm).mpr (h line hm)⟩

theorem not_loadedExactly_of_count {path file line : Bytes} {registry registry' : Registry}
    (hload : loadResourcesFromFile path (some file) registry = ⟨none, registry'⟩)
    (hm : line ∈ lines newline file)
    (hcount : ((declaredDevice line).toList.map fun entry => (tokens isBar entry.2).length) ≠
      ((pieces 1023 line).filterMap readLine).map fun fields =>
        (tokens isBar (fields.2.take 511)).length) :
    ¬LoadedExactly file registry registry' := by
  rw [loadedExactly_iff hload]
  intro h
  exact hcount (buffersSuffice_count (h line hm))

/-- A file that loads is loaded exactly if and only if the buffers suffice for
each of its lines, which they do when no buffer cuts one. -/
theorem devices_loaded_exactly_iff {path file : Bytes} {registry registry' : Registry}
    (hload : loadResourcesFromFile path (some file) registry = ⟨none, registry'⟩) :
    (LoadedExactly file registry registry' ↔
      ∀ line ∈ lines newline file, BuffersSuffice line) ∧
    ((∀ line ∈ lines newline file, WithinBuffers line) →
      LoadedExactly file registry registry') := by
  have hiff := loadedExactly_iff hload
  refine ⟨hiff, ?_⟩
  intro h
  rw [hiff]
  intro line hm
  exact buffersSuffice_of_within (lines_ne_nil newline file line hm) (h line hm)

end Exact

section Samples

theorem loaded_ok {l : Loaded} (h : l.errbuf = none) : l = ⟨none, l.registry⟩ := by
  cases l
  simpa using h

def softlibConf : Bytes :=
  lit "softlib-1,classic,softlib,300,1,8,60,100,asym:sign:sm2:external_key|hash:hash:sm3\n"

theorem softlib_loaded_exactly :
    ∃ registry, loadResourcesFromFile (lit "softlib.conf") (some softlibConf) registryInit =
        ⟨none, registry⟩ ∧ LoadedExactly softlibConf registryInit registry := by
  have hok : (loadResourcesFromFile (lit "softlib.conf") (some softlibConf)
      registryInit).errbuf = none := by
    decide
  have hload := loaded_ok hok
  refine ⟨_, hload, (devices_loaded_exactly_iff hload).2 ?_⟩
  have hbuffers : ∀ line ∈ lines newline softlibConf, line.length ≤ 1023 ∧ (∀ c ∈ line, c ≠ 0) ∧
      ∀ entry ∈ declaredDevice line,
        entry.2.length ≤ 511 ∧ ∀ token ∈ tokens isBar entry.2, token.length ≤ 159 := by
    decide
  intro line hm
  obtain ⟨hlength, htext, hcaps⟩ := hbuffers line hm
  exact ⟨hlength, htext, hcaps⟩

/-- The device line of `configs/gm3000-devices.conf`. -/
def gm3000Line : Bytes :=
  lit "gm3000-1,classic,gm3000-skf,300,1,1,90,60,device:get_device_info:auto|" ++
    lit "device:generate_random:auto|key:get_private_key_access:auto|" ++
    lit "key:release_private_key_access:auto|key:generate_key_pair:sm2|" ++
    lit "key:generate_key_pair:rsa|key:generate_key_pair:kyber768|" ++
    lit "key:generate_key_pair:mlkem768|key:generate_key_pair:dilithium3|" ++
    lit "key:export_public_key:sm2|key:export_public_key:rsa|key:import_key:auto|" ++
    lit "key:destroy_key:auto|asym:sign:sm2|asym:verify:sm2|asym:encrypt:sm2|" ++
    lit "asym:decrypt:sm2|asym:sign:rsa|asym:verify:rsa|asym:encrypt:rsa|asym:decrypt:rsa|" ++
    lit "sym:encrypt:sm4-cbc|sym:decrypt:sm4-cbc|sym:encrypt:sm4-ecb|sym:decrypt:sm4-ecb|" ++
    lit "sym:mac:sm4-mac|hash:hash:sm3|hash:hash:sha256|file:create_file:auto|" ++
    lit "file:read_file:auto|file:write_file:auto|file:delete_file:auto|" ++
    lit "pqc:sign:dilithium3|pqc:verify:dilithium3|pqc:kem_encap:kyber768|" ++
    lit "pqc:kem_decap:kyber768|pqc:kem_encap:mlkem768|pqc:kem_decap:mlkem768\n"

def gm3000Conf : Bytes :=
  lit "# device_id,type,backend_profile,priority,enabled,max_inflight,security_score," ++
    lit "efficiency_score,capabilities\n" ++
    gm3000Line

/-- The buffer of the capability list holds 22 of the 38 capabilities. -/
theorem gm3000_capabilities_dropped :
    ∃ registry, loadResourcesFromFile (lit "configs/gm3000-devices.conf") (some gm3000Conf)
        registryInit = ⟨none, registry⟩ ∧
      registry.devices.map (fun device => device.caps.length) = [22] ∧
      ¬LoadedExactly gm3000Conf registryInit registry := by
  have hrun : (loadResourcesFromFile (lit "configs/gm3000-devices.conf") (some gm3000Conf)
      registryInit).errbuf = none ∧
      (loadResourcesFromFile (lit "configs/gm3000-devices.conf") (some gm3000Conf)
        registryInit).registry.devices.map (fun device => device.caps.length) = [22] := by
    decide +kernel
  have hload := loaded_ok hrun.1
  have hmem : gm3000Line ∈ lines newline gm3000Conf := by decide +kernel
  exact ⟨_, hload, hrun.2, not_loadedExactly_of_count hload hmem (by decide +kernel)⟩

end Samples

end Ucisdk.ConfigExact
