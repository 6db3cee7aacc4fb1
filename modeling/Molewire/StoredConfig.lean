/-
# The stored record

`config_load` and `config_save` on the bytes of the flash sector. The layout of
v1.0 ended before the access point was added; it has the same magic number, and
a record of it is told by its checksum being where that layout had it.
-/

import Molewire.ConfigProto
import Molewire.Library.LittleEndian
import Molewire.Library.StructLayout

namespace Molewire

open ByteBuffer LittleEndian StructLayout

/-! ### Layouts -/

def uint8T : Member := { size := 1, align := 1 }

def uint16T : Member := { size := 2, align := 2 }

def uint32T : Member := { size := 4, align := 4 }

/-- `wifi_profile_t`: SSID and password. -/
def wifiProfileT : List Member := [.array configSsidMax uint8T, .array configPassMax uint8T]

/-- `wg_route_t`. -/
def wgRouteT : List Member := [uint32T, uint8T, .array 3 uint8T]

/-- `wg_config_t`: three keys and the endpoint, its port, keepalive and MTU, the two exit flags,
three addresses, prefix and route count, the routes. -/
def wgConfigT : List Member :=
  [.array configWgkeyMax uint8T, .array configWgkeyMax uint8T, .array configWgkeyMax uint8T,
    .array configEndpointMax uint8T, uint16T, uint16T, uint16T, uint8T, uint8T, uint32T, uint32T,
    uint32T, uint8T, uint8T, .array 2 uint8T, .array configRoutesMax (.struct wgRouteT)]

/-- `ap_config_t`: two addresses, prefix and switch, SSID and password. -/
def apConfigT : List Member :=
  [uint32T, uint32T, uint8T, uint8T, .array configSsidMax uint8T, .array configPassMax uint8T,
    .array 1 uint8T]

/-- What `config_t` and `config_v1_t` begin with. -/
def sharedT : List Member :=
  [uint32T, uint8T, uint8T, uint8T, uint8T, uint32T,
    .array configProfileMax (.struct wifiProfileT), .struct wgConfigT]

/-- `config_t`. -/
def configT : List Member := sharedT ++ [.struct apConfigT, uint32T]

/-- `config_v1_t`. -/
def configV1T : List Member := sharedT ++ [uint32T]

/-! The members by their place in the structure. -/

namespace ConfigT

def magic : Nat := 0
def profileCount : Nat := 1
def active : Nat := 2
def debugEnabled : Nat := 3
def country : Nat := 5
def profiles : Nat := 6
def wg : Nat := 7
def ap : Nat := 8
def crc32 : Nat := 9

end ConfigT

/-- The checksum of `config_v1_t`. -/
def configV1Crc32 : Nat := 8

example : structSize wgConfigT = 260 ∧ offsetOf configT ConfigT.crc32 = 1156 ∧
    offsetOf configV1T configV1Crc32 = 1048 ∧ structSize configT = 1160 := by decide

/-! ### Checksums -/

/-- One bit of the reflected CRC. -/
def crc32Bit (crc : UInt32) : UInt32 := (crc >>> 1) ^^^ (0xEDB88320 &&& (0 - (crc &&& 1)))

/-- One byte. -/
def crc32Byte (crc : UInt32) (b : UInt8) : UInt32 := Nat.iterate crc32Bit 8 (crc ^^^ b.toUInt32)

/-- `crc32`. -/
def crc32 (data : Bytes) : UInt32 := data.foldl crc32Byte 0xFFFFFFFF ^^^ 0xFFFFFFFF

example : crc32 [0x31] = 0x83DCEFB7 := rfl

/-- `config_compute_crc`. -/
def configComputeCrc (cfg : Bytes) : UInt32 := crc32 (cfg.take (offsetOf configT ConfigT.crc32))

/-! ### Defaults -/

/-- `CONFIG_MAGIC`. -/
def configMagic : Nat := 0x44475750

/-- What `strncpy` stores. -/
def strncpy (src : CStr) (n : Nat) : Bytes := src.take n ++ List.replicate (n - src.length) 0

/-- `config_defaults`. -/
def configDefaultsRecord (board : Board) : Bytes :=
  let cfg := List.replicate (structSize configT) 0
  let cfg := set configT ConfigT.magic (leBytes 4 configMagic) cfg
  let cfg := set configT ConfigT.country (leBytes 4 board.wifiCountry.toNat) cfg
  let cfg := set configT ConfigT.active [configActiveNone.toUInt8] cfg
  let cfg :=
    if board.wifiSsid = [] then cfg
    else
      let profile := offsetOf configT ConfigT.profiles
      let cfg := splice cfg profile (strncpy board.wifiSsid (configSsidMax - 1))
      let cfg := splice cfg (profile + offsetOf wifiProfileT 1)
        (strncpy board.wifiPassword (configPassMax - 1))
      let cfg := set configT ConfigT.profileCount [1] cfg
      set configT ConfigT.active [0] cfg
  set configT ConfigT.crc32 (leBytes 4 (configComputeCrc cfg).toNat) cfg

/-! ### Load and save -/

/-- `FLASH_SECTOR_SIZE`. -/
def flashSectorSize : Nat := 4096

/-- What the upgrade takes over from a record of v1.0. -/
def configV1Kept : List Nat :=
  [ConfigT.profileCount, ConfigT.active, ConfigT.debugEnabled, ConfigT.country, ConfigT.profiles,
    ConfigT.wg]

/-- `config_load`. -/
def configLoadRecord (board : Board) (flash : Bytes) : Bytes :=
  if leVal (get configT ConfigT.magic flash) = configMagic then
    if (crc32 (flash.take (offsetOf configT ConfigT.crc32))).toNat =
        leVal (get configT ConfigT.crc32 flash) then
      flash.take (structSize configT)
    -- not the current layout
    else if (crc32 (flash.take (offsetOf configV1T configV1Crc32))).toNat =
        leVal (get configV1T configV1Crc32 flash) then
      configV1Kept.foldl (fun cfg i => set configT i (get configV1T i flash) cfg)
        (configDefaultsRecord board)
    else configDefaultsRecord board
  else configDefaultsRecord board

/-- `config_save`, given whether `flash_safe_execute` runs the write, on a record and a sector. -/
def configSaveRecord (cfg : Bytes) (written : Bool) (flash : Bytes) : Bool × Bytes × Bytes :=
  let cfg := set configT ConfigT.magic (leBytes 4 configMagic) cfg
  let cfg := set configT ConfigT.crc32 (leBytes 4 (configComputeCrc cfg).toNat) cfg
  -- the whole sector is programmed
  let flashBuf := splice (List.replicate flashSectorSize 0xFF) 0 cfg
  (written, cfg, if written then flashBuf else flash)

/-! ### The round trip -/

/-- A checksum stored behind what it covers verifies. -/
theorem crc32_set {ms : List Member} {i : Nat} {cfg : Bytes} (hi : i < ms.length)
    (hsize : sizeAt ms i = 4) (hlen : structSize ms ≤ cfg.length) :
    (crc32 ((set ms i (leBytes 4 (crc32 (cfg.take (offsetOf ms i))).toNat) cfg).take
        (offsetOf ms i))).toNat =
      leVal (get ms i (set ms i (leBytes 4 (crc32 (cfg.take (offsetOf ms i))).toNat) cfg)) := by
  have hword : (crc32 (cfg.take (offsetOf ms i))).toNat < 256 ^ 4 := UInt32.toNat_lt _
  rw [take_set (Nat.le_refl _), get_set_self hi hlen (by rw [length_leBytes, hsize]),
    leVal_leBytes, Nat.mod_eq_of_lt hword]

theorem length_configDefaultsRecord (board : Board) :
    (configDefaultsRecord board).length = structSize configT := by
  rw [configDefaultsRecord]
  split_ifs <;> simp

/-- The sector begins with the record. -/
theorem flash_saved {cfg : Bytes} (hlen : cfg.length = structSize configT) (flash : Bytes) :
    ∃ pad, (configSaveRecord cfg true flash).2.2 = (configSaveRecord cfg true flash).2.1 ++ pad ∧
      (configSaveRecord cfg true flash).2.1.length = structSize configT := by
  have hsize : structSize configT ≤ flashSectorSize := by decide
  have hsaved : (configSaveRecord cfg true flash).2.1.length = structSize configT := by
    rw [configSaveRecord, length_set, length_set, hlen]
  refine ⟨(List.replicate flashSectorSize 0xFF).drop
    (configSaveRecord cfg true flash).2.1.length, ?_, hsaved⟩
  have hwritten : (configSaveRecord cfg true flash).2.2 =
      splice (List.replicate flashSectorSize 0xFF) 0 (configSaveRecord cfg true flash).2.1 := by
    simp only [configSaveRecord, if_true]
  rw [hwritten, splice_front (by rw [hsaved, List.length_replicate]; exact hsize)]

theorem get_append_pad {cfg pad : Bytes} (hlen : cfg.length = structSize configT) {i : Nat}
    (hi : i < configT.length) : get configT i (cfg ++ pad) = get configT i cfg :=
  span_append (by rw [hlen]; exact offsetOf_add_le_structSize hi)

/-- A saved record has the magic number and the checksum of what is in front of it. -/
theorem saved_checks {cfg : Bytes} (hlen : cfg.length = structSize configT) (flash : Bytes) :
    leVal (get configT ConfigT.magic (configSaveRecord cfg true flash).2.1) = configMagic ∧
      (crc32 ((configSaveRecord cfg true flash).2.1.take
        (offsetOf configT ConfigT.crc32))).toNat =
          leVal (get configT ConfigT.crc32 (configSaveRecord cfg true flash).2.1) := by
  rw [configSaveRecord]
  dsimp only
  constructor
  · rw [get_set_ne (by rw [length_leBytes]; decide) (by decide),
      get_set_self (by decide) (by rw [hlen]) (by rw [length_leBytes]; decide), leVal_leBytes]
    decide
  · exact crc32_set (by decide) (by decide) (by rw [length_set, hlen])

/-- **What was saved is what is loaded.** -/
theorem configLoadRecord_save (board : Board) {cfg : Bytes}
    (hlen : cfg.length = structSize configT) (flash : Bytes) :
    configLoadRecord board (configSaveRecord cfg true flash).2.2 =
      (configSaveRecord cfg true flash).2.1 := by
  obtain ⟨pad, hflash, hsaved⟩ := flash_saved hlen flash
  obtain ⟨hmagic, hcrc⟩ := saved_checks hlen flash
  have hoff : offsetOf configT ConfigT.crc32 ≤ (configSaveRecord cfg true flash).2.1.length := by
    rw [hsaved]
    decide
  rw [hflash, configLoadRecord, get_append_pad hsaved (by decide),
    get_append_pad hsaved (by decide), List.take_append_of_le_length hoff, if_pos hmagic,
    if_pos hcrc, ← hsaved, List.take_left]

/-- Saving changes the magic number and the checksum alone. -/
theorem configSaveRecord_bytes (cfg : Bytes) (written : Bool) (flash : Bytes) {k : Nat}
    (hlo : 4 ≤ k) (hhi : k < offsetOf configT ConfigT.crc32) :
    byte (configSaveRecord cfg written flash).2.1 k = byte cfg k := by
  have hmagic : offsetOf configT ConfigT.magic = 0 := by decide
  rw [configSaveRecord]
  dsimp only
  rw [StructLayout.set, byte_splice_of_not_mem (.inl hhi), StructLayout.set,
    byte_splice_of_not_mem (.inr (by rw [hmagic, length_leBytes]; exact hlo))]

/-! ### The upgrade -/

@[simp] theorem length_strncpy (src : CStr) (n : Nat) : (strncpy src n).length = n := by
  rw [strncpy, List.length_append, List.length_take, List.length_replicate]
  omega

/-- The baked profile is in front of the access point. -/
theorem get_ap_splice {cfg xs : Bytes} {off : Nat}
    (h : off + xs.length ≤ offsetOf configT ConfigT.ap) :
    get configT ConfigT.ap (splice cfg off xs) = get configT ConfigT.ap cfg :=
  (agreeOff_splice cfg off xs).span_eq (.inr h)

/-- The access point is off and unset by default. -/
theorem configDefaultsRecord_ap (board : Board) :
    get configT ConfigT.ap (configDefaultsRecord board) =
      List.replicate (sizeAt configT ConfigT.ap) 0 := by
  have hzero : get configT ConfigT.ap (List.replicate (structSize configT) 0) =
      List.replicate (sizeAt configT ConfigT.ap) 0 := by
    rw [StructLayout.get, span, List.drop_replicate, List.take_replicate,
      Nat.min_eq_left (by decide)]
  -- the members that are set, up to the profile
  have hset : get configT ConfigT.ap (set configT ConfigT.active [configActiveNone.toUInt8]
      (set configT ConfigT.country (leBytes 4 board.wifiCountry.toNat)
        (set configT ConfigT.magic (leBytes 4 configMagic)
          (List.replicate (structSize configT) 0)))) =
      List.replicate (sizeAt configT ConfigT.ap) 0 := by
    rw [get_set_ne (by decide) (by decide), get_set_ne (by rw [length_leBytes]; decide) (by decide),
      get_set_ne (by rw [length_leBytes]; decide) (by decide), hzero]
  rw [configDefaultsRecord]
  dsimp only
  rw [get_set_ne (by rw [length_leBytes]; decide) (by decide)]
  split_ifs
  · exact hset
  · rw [get_set_ne (by decide) (by decide), get_set_ne (by decide) (by decide),
      get_ap_splice (by rw [length_strncpy]; decide),
      get_ap_splice (by rw [length_strncpy]; decide), hset]

/-- **A record of v1.0 is upgraded whole.** -/
theorem configLoadRecord_v1 (board : Board) {flash : Bytes}
    (hlen : structSize configT ≤ flash.length)
    (hmagic : leVal (get configV1T ConfigT.magic flash) = configMagic)
    (hcurrent : (crc32 (flash.take (offsetOf configT ConfigT.crc32))).toNat ≠
      leVal (get configT ConfigT.crc32 flash))
    (hv1 : (crc32 (flash.take (offsetOf configV1T configV1Crc32))).toNat =
      leVal (get configV1T configV1Crc32 flash)) :
    (∀ i ∈ configV1Kept, get configT i (configLoadRecord board flash) = get configV1T i flash) ∧
      get configT ConfigT.ap (configLoadRecord board flash) =
        List.replicate (sizeAt configT ConfigT.ap) 0 := by
  have hshared : ∀ i ∈ configV1Kept, i < sharedT.length := by decide
  have hmagic' : leVal (get configT ConfigT.magic flash) = configMagic := by
    rw [← hmagic, configT, configV1T, get_append (by decide), get_append (by decide)]
  have hkept : ∀ j, get configT j (configLoadRecord board flash) =
      if j ∈ configV1Kept then get configV1T j flash
      else get configT j (configDefaultsRecord board) := by
    intro j
    rw [configLoadRecord, if_pos hmagic', if_neg hcurrent, if_pos hv1]
    refine get_foldl_set (fun i => get configV1T i flash)
      (Nat.le_of_eq (length_configDefaultsRecord board).symm) (fun i hi => ?_) j
    have hi' := hshared i hi
    refine ⟨Nat.lt_of_lt_of_le hi' (by decide), ?_⟩
    -- a shared member has its size in both layouts
    rw [configV1T, get_append hi', length_get hi' (Nat.le_trans (by decide) hlen), configT,
      sizeAt_append hi']
  refine ⟨fun i hi => ?_, ?_⟩
  · rw [hkept i, if_pos hi]
  · rw [hkept, if_neg (by decide), configDefaultsRecord_ap]

/-- **Flash round trip and upgrade.** A saved record is loaded byte for byte, and is the record it
was but for the magic number and the checksum. A record of v1.0, in a sector that does not also
verify as a current one, keeps its profiles, the active one, the debug flag, the country and the
tunnel, and gets the access point's defaults. -/
theorem config_flash (board : Board) :
    (∀ (cfg flash : Bytes) (written : Bool), cfg.length = structSize configT →
      (configSaveRecord cfg written flash).1 = true →
        configLoadRecord board (configSaveRecord cfg written flash).2.2 =
            (configSaveRecord cfg written flash).2.1 ∧
          ∀ k, 4 ≤ k → k < offsetOf configT ConfigT.crc32 →
            byte (configSaveRecord cfg written flash).2.1 k = byte cfg k) ∧
    ∀ flash : Bytes, structSize configT ≤ flash.length →
      leVal (get configV1T ConfigT.magic flash) = configMagic →
      (crc32 (flash.take (offsetOf configT ConfigT.crc32))).toNat ≠
        leVal (get configT ConfigT.crc32 flash) →
      (crc32 (flash.take (offsetOf configV1T configV1Crc32))).toNat =
        leVal (get configV1T configV1Crc32 flash) →
      let cfg := configLoadRecord board flash
      get configT ConfigT.profileCount cfg = get configV1T ConfigT.profileCount flash ∧
        get configT ConfigT.profiles cfg = get configV1T ConfigT.profiles flash ∧
        get configT ConfigT.active cfg = get configV1T ConfigT.active flash ∧
        get configT ConfigT.country cfg = get configV1T ConfigT.country flash ∧
        get configT ConfigT.debugEnabled cfg = get configV1T ConfigT.debugEnabled flash ∧
        get configT ConfigT.wg cfg = get configV1T ConfigT.wg flash ∧
        get configT ConfigT.ap cfg = get configT ConfigT.ap (configDefaultsRecord board) ∧
        get configT ConfigT.ap cfg = List.replicate (sizeAt configT ConfigT.ap) 0 := by
  constructor
  · intro cfg flash written hlen hok
    obtain rfl : written = true := hok
    exact ⟨configLoadRecord_save board hlen flash,
      fun k hlo hhi => configSaveRecord_bytes cfg true flash hlo hhi⟩
  · intro flash hlen hmagic hcurrent hv1
    obtain ⟨hkept, hap⟩ := configLoadRecord_v1 board hlen hmagic hcurrent hv1
    exact ⟨hkept _ (by decide), hkept _ (by decide), hkept _ (by decide), hkept _ (by decide),
      hkept _ (by decide), hkept _ (by decide), hap.trans (configDefaultsRecord_ap board).symm, hap⟩

/-- A record of one network with its password, and a tunnel with its private key, before the magic
number and the checksum. -/
def homeRecord : Bytes :=
  let cfg := set configT ConfigT.profileCount [1] (List.replicate (structSize configT) 0)
  let cfg := splice cfg (offsetOf configT ConfigT.profiles) (ascii "home")
  let cfg := splice cfg (offsetOf configT ConfigT.profiles + offsetOf wifiProfileT 1)
    (ascii "correct horse")
  splice cfg (offsetOf configT ConfigT.wg) (ascii "yAnz5TF+lXXJte14tji3zlMNq+hd2rYUIgJBgB3fBmk=")

/-- The same in the layout of v1.0, with its checksum. -/
def homeV1 : Bytes :=
  let flash := set configV1T ConfigT.magic (leBytes 4 configMagic) homeRecord
  set configV1T configV1Crc32
    (leBytes 4 (crc32 (flash.take (offsetOf configV1T configV1Crc32))).toNat) flash

/-- The sector goes on with bytes that are no checksum of the current layout. -/
def homeV1Sector : Bytes :=
  set configT ConfigT.crc32
    (leBytes 4 (if crc32 (homeV1.take (offsetOf configT ConfigT.crc32)) = 0 then 1 else 0)) homeV1

theorem length_homeRecord : homeRecord.length = structSize configT := by
  simp only [homeRecord, length_splice, length_set, List.length_replicate]

theorem length_homeV1 : homeV1.length = structSize configT := by
  simp only [homeV1, length_set, length_homeRecord]

theorem get_homeV1Sector {i : Nat}
    (h : offsetOf configV1T i + sizeAt configV1T i ≤ offsetOf configT ConfigT.crc32) :
    get configV1T i homeV1Sector = get configV1T i homeV1 :=
  (agreeOff_splice _ _ _).span_eq (.inl h)

/-- What the two layouts share is the record's. -/
theorem get_homeV1Sector_shared {i : Nat} (hi : i < sharedT.length)
    (h : offsetOf configV1T i + sizeAt configV1T i ≤ offsetOf configT ConfigT.crc32)
    (hmagic : ConfigT.magic ≠ i) (hcrc : configV1Crc32 ≠ i) :
    get configV1T i homeV1Sector = get configT i homeRecord := by
  rw [get_homeV1Sector h, homeV1, get_set_ne (by rw [length_leBytes]; decide) hcrc,
    get_set_ne (by rw [length_leBytes]; decide) hmagic, configV1T, configT, get_append hi,
    get_append hi]

/-- The record is saved and loaded, and the one of v1.0 is upgraded with the network and the key. -/
theorem config_flash_home :
    let board : Board := ⟨[], [], 0, fun _ => none, fun _ => none⟩
    (∀ k, 4 ≤ k → k < offsetOf configT ConfigT.crc32 →
      byte (configLoadRecord board (configSaveRecord homeRecord true []).2.2) k =
        byte homeRecord k) ∧
      get configT ConfigT.profiles (configLoadRecord board homeV1Sector) =
        get configT ConfigT.profiles homeRecord ∧
      get configT ConfigT.wg (configLoadRecord board homeV1Sector) =
        get configT ConfigT.wg homeRecord := by
  intro board
  obtain ⟨hsave, hupgrade⟩ := config_flash board
  have hsize : structSize configV1T ≤ structSize configT := by decide
  have hmagic : leVal (get configV1T ConfigT.magic homeV1Sector) = configMagic := by
    rw [get_homeV1Sector (by decide), homeV1, get_set_ne (by rw [length_leBytes]; decide)
      (by decide), get_set_self (by decide) (by rwa [length_homeRecord])
      (by rw [length_leBytes]; decide), leVal_leBytes]
    decide
  have hcurrent : (crc32 (homeV1Sector.take (offsetOf configT ConfigT.crc32))).toNat ≠
      leVal (get configT ConfigT.crc32 homeV1Sector) := by
    rw [homeV1Sector, take_set (Nat.le_refl _), get_set_self (by decide)
      (Nat.le_of_eq length_homeV1.symm) (by rw [length_leBytes]; decide), leVal_leBytes]
    split_ifs with h0
    · rw [h0]
      decide
    · exact fun hc => h0 (UInt32.toNat_inj.mp hc)
  have hv1 : (crc32 (homeV1Sector.take (offsetOf configV1T configV1Crc32))).toNat =
      leVal (get configV1T configV1Crc32 homeV1Sector) := by
    rw [get_homeV1Sector (by decide), homeV1Sector, take_set (by decide)]
    exact crc32_set (by decide) (by decide) (by rwa [length_set, length_homeRecord])
  have hlen : structSize configT ≤ homeV1Sector.length := by
    rw [homeV1Sector, length_set, length_homeV1]
  have hok : (configSaveRecord homeRecord true []).1 = true := by simp only [configSaveRecord]
  obtain ⟨hloaded, hbytes⟩ := hsave homeRecord [] true length_homeRecord hok
  obtain ⟨-, hprofiles, -, -, -, hwg, -⟩ := hupgrade homeV1Sector hlen hmagic hcurrent hv1
  refine ⟨fun k hlo hhi => ?_, ?_, ?_⟩
  · rw [hloaded]
    exact hbytes k hlo hhi
  · exact hprofiles.trans (get_homeV1Sector_shared (by decide) (by decide) (by decide) (by decide))
  · exact hwg.trans (get_homeV1Sector_shared (by decide) (by decide) (by decide) (by decide))

end Molewire
