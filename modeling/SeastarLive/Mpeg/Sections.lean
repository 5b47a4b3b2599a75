/-
SeastarLive.Mpeg.Sections — the tables of a transport stream.

`pat_write`, `pmt_write` and `sdt_write` of `3rd/libmpeg/source/mpeg-pat.c`, `mpeg-pmt.c` and
`mpeg-sdt.c`, with the CRC of `mpeg-crc32.c`, and the packet that
`mpeg_ts_write_section_header` of `mpeg-ts-enc.c` makes of a section.

* The records are those that the muxer uses. A `uint16_t` value `x` is written `E000 | x` and so
  on; the model adds what is left of it in its bits. Program information is below 400 hex bytes,
  as `pmt_write` asserts.
* `mpegCrc32_crcBytes`: a section with its CRC behind it has the CRC 0, which is the check that
  the readers have in comments.
* `tsPacket_sectionPacket`: the packet of a section.
-/
import SeastarLive.Mpeg.TsPacket

namespace SeastarLive

open LinePacket

/-! ## CRC -/

/-- `crc32table`. -/
def crc32table : List UInt32 := [
    0x00000000, 0xB71DC104, 0x6E3B8209, 0xD926430D, 0xDC760413, 0x6B6BC517, 0xB24D861A, 0x0550471E,
    0xB8ED0826, 0x0FF0C922, 0xD6D68A2F, 0x61CB4B2B, 0x649B0C35, 0xD386CD31, 0x0AA08E3C, 0xBDBD4F38,
    0x70DB114C, 0xC7C6D048, 0x1EE09345, 0xA9FD5241, 0xACAD155F, 0x1BB0D45B, 0xC2969756, 0x758B5652,
    0xC836196A, 0x7F2BD86E, 0xA60D9B63, 0x11105A67, 0x14401D79, 0xA35DDC7D, 0x7A7B9F70, 0xCD665E74,
    0xE0B62398, 0x57ABE29C, 0x8E8DA191, 0x39906095, 0x3CC0278B, 0x8BDDE68F, 0x52FBA582, 0xE5E66486,
    0x585B2BBE, 0xEF46EABA, 0x3660A9B7, 0x817D68B3, 0x842D2FAD, 0x3330EEA9, 0xEA16ADA4, 0x5D0B6CA0,
    0x906D32D4, 0x2770F3D0, 0xFE56B0DD, 0x494B71D9, 0x4C1B36C7, 0xFB06F7C3, 0x2220B4CE, 0x953D75CA,
    0x28803AF2, 0x9F9DFBF6, 0x46BBB8FB, 0xF1A679FF, 0xF4F63EE1, 0x43EBFFE5, 0x9ACDBCE8, 0x2DD07DEC,
    0x77708634, 0xC06D4730, 0x194B043D, 0xAE56C539, 0xAB068227, 0x1C1B4323, 0xC53D002E, 0x7220C12A,
    0xCF9D8E12, 0x78804F16, 0xA1A60C1B, 0x16BBCD1F, 0x13EB8A01, 0xA4F64B05, 0x7DD00808, 0xCACDC90C,
    0x07AB9778, 0xB0B6567C, 0x69901571, 0xDE8DD475, 0xDBDD936B, 0x6CC0526F, 0xB5E61162, 0x02FBD066,
    0xBF469F5E, 0x085B5E5A, 0xD17D1D57, 0x6660DC53, 0x63309B4D, 0xD42D5A49, 0x0D0B1944, 0xBA16D840,
    0x97C6A5AC, 0x20DB64A8, 0xF9FD27A5, 0x4EE0E6A1, 0x4BB0A1BF, 0xFCAD60BB, 0x258B23B6, 0x9296E2B2,
    0x2F2BAD8A, 0x98366C8E, 0x41102F83, 0xF60DEE87, 0xF35DA999, 0x4440689D, 0x9D662B90, 0x2A7BEA94,
    0xE71DB4E0, 0x500075E4, 0x892636E9, 0x3E3BF7ED, 0x3B6BB0F3, 0x8C7671F7, 0x555032FA, 0xE24DF3FE,
    0x5FF0BCC6, 0xE8ED7DC2, 0x31CB3ECF, 0x86D6FFCB, 0x8386B8D5, 0x349B79D1, 0xEDBD3ADC, 0x5AA0FBD8,
    0xEEE00C69, 0x59FDCD6D, 0x80DB8E60, 0x37C64F64, 0x3296087A, 0x858BC97E, 0x5CAD8A73, 0xEBB04B77,
    0x560D044F, 0xE110C54B, 0x38368646, 0x8F2B4742, 0x8A7B005C, 0x3D66C158, 0xE4408255, 0x535D4351,
    0x9E3B1D25, 0x2926DC21, 0xF0009F2C, 0x471D5E28, 0x424D1936, 0xF550D832, 0x2C769B3F, 0x9B6B5A3B,
    0x26D61503, 0x91CBD407, 0x48ED970A, 0xFFF0560E, 0xFAA01110, 0x4DBDD014, 0x949B9319, 0x2386521D,
    0x0E562FF1, 0xB94BEEF5, 0x606DADF8, 0xD7706CFC, 0xD2202BE2, 0x653DEAE6, 0xBC1BA9EB, 0x0B0668EF,
    0xB6BB27D7, 0x01A6E6D3, 0xD880A5DE, 0x6F9D64DA, 0x6ACD23C4, 0xDDD0E2C0, 0x04F6A1CD, 0xB3EB60C9,
    0x7E8D3EBD, 0xC990FFB9, 0x10B6BCB4, 0xA7AB7DB0, 0xA2FB3AAE, 0x15E6FBAA, 0xCCC0B8A7, 0x7BDD79A3,
    0xC660369B, 0x717DF79F, 0xA85BB492, 0x1F467596, 0x1A163288, 0xAD0BF38C, 0x742DB081, 0xC3307185,
    0x99908A5D, 0x2E8D4B59, 0xF7AB0854, 0x40B6C950, 0x45E68E4E, 0xF2FB4F4A, 0x2BDD0C47, 0x9CC0CD43,
    0x217D827B, 0x9660437F, 0x4F460072, 0xF85BC176, 0xFD0B8668, 0x4A16476C, 0x93300461, 0x242DC565,
    0xE94B9B11, 0x5E565A15, 0x87701918, 0x306DD81C, 0x353D9F02, 0x82205E06, 0x5B061D0B, 0xEC1BDC0F,
    0x51A69337, 0xE6BB5233, 0x3F9D113E, 0x8880D03A, 0x8DD09724, 0x3ACD5620, 0xE3EB152D, 0x54F6D429,
    0x7926A9C5, 0xCE3B68C1, 0x171D2BCC, 0xA000EAC8, 0xA550ADD6, 0x124D6CD2, 0xCB6B2FDF, 0x7C76EEDB,
    0xC1CBA1E3, 0x76D660E7, 0xAFF023EA, 0x18EDE2EE, 0x1DBDA5F0, 0xAAA064F4, 0x738627F9, 0xC49BE6FD,
    0x09FDB889, 0xBEE0798D, 0x67C63A80, 0xD0DBFB84, 0xD58BBC9A, 0x62967D9E, 0xBBB03E93, 0x0CADFF97,
    0xB110B0AF, 0x060D71AB, 0xDF2B32A6, 0x6836F3A2, 0x6D66B4BC, 0xDA7B75B8, 0x035D36B5, 0xB440F7B1]

/-- A turn of the loop of `mpeg_crc32`. -/
def crcStep (crc : UInt32) (b : UInt8) : UInt32 :=
  crc32table.getD ((crc ^^^ b.toUInt32) &&& 0xff).toNat 0 ^^^ (crc >>> 8)

/-- `mpeg_crc32`. -/
def mpegCrc32 (crc : UInt32) (buffer : List UInt8) : UInt32 := buffer.foldl crcStep crc

/-- A CRC as it is written, the low byte first. -/
def crcBytes (crc : UInt32) : List UInt8 :=
  [crc.toUInt8, (crc >>> 8).toUInt8, (crc >>> 16).toUInt8, (crc >>> 24).toUInt8]

theorem crc32table_zero : crc32table.getD 0 0 = 0 := by
  unfold crc32table
  rfl

/-- The low byte of the CRC takes it out. -/
theorem crcStep_low (crc : UInt32) : crcStep crc crc.toUInt8 = crc >>> 8 := by
  have hindex : ((crc ^^^ crc.toUInt8.toUInt32) &&& 0xff).toNat = 0 := by
    have hmask : (0xff : UInt32).toNat = 2 ^ 8 - 1 := rfl
    rw [UInt32.toNat_and, UInt32.toNat_xor, UInt8.toNat_toUInt32, UInt32.toNat_toUInt8, hmask,
      Nat.and_two_pow_sub_one_eq_mod, Nat.xor_mod_two_pow, Nat.mod_mod, Nat.xor_self]
  rw [crcStep, hindex, crc32table_zero, UInt32.zero_xor]

theorem shiftRight_toNat (crc : UInt32) {n : Nat} (hn : n < 32) :
    (crc >>> UInt32.ofNat n).toNat = crc.toNat / 2 ^ n := by
  have hshift : (UInt32.ofNat n).toNat % 32 = n := by
    rw [UInt32.toNat_ofNat', Nat.mod_eq_of_lt (a := n) (by omega), Nat.mod_eq_of_lt hn]
  rw [UInt32.toNat_shiftRight, hshift, Nat.shiftRight_eq_div_pow]

theorem shiftRight_shiftRight (crc : UInt32) {m n : Nat} (h : m + n < 32) :
    crc >>> UInt32.ofNat m >>> UInt32.ofNat n = crc >>> UInt32.ofNat (m + n) := by
  apply UInt32.toNat_inj.mp
  rw [shiftRight_toNat _ (by omega), shiftRight_toNat _ (by omega), shiftRight_toNat _ h,
    Nat.div_div_eq_div_mul, Nat.pow_add]

/-- A section with its CRC behind it has the CRC 0. -/
theorem mpegCrc32_crcBytes (init : UInt32) (bytes : List UInt8) :
    mpegCrc32 init (bytes ++ crcBytes (mpegCrc32 init bytes)) = 0 := by
  unfold mpegCrc32
  rw [List.foldl_append]
  generalize bytes.foldl crcStep init = crc
  have h16 : crc >>> 8 >>> 8 = crc >>> 16 := shiftRight_shiftRight crc (by decide : 8 + 8 < 32)
  have h24 : crc >>> 16 >>> 8 = crc >>> 24 := shiftRight_shiftRight crc (by decide : 16 + 8 < 32)
  have h32 : crc >>> 24 >>> 8 = 0 := by
    apply UInt32.toNat_inj.mp
    change (crc >>> UInt32.ofNat 24 >>> UInt32.ofNat 8).toNat = 0
    rw [shiftRight_toNat _ (by decide), shiftRight_toNat _ (by decide), Nat.div_div_eq_div_mul]
    exact Nat.div_eq_of_lt crc.toNat_lt
  change crcStep (crcStep (crcStep (crcStep crc crc.toUInt8) (crc >>> 8).toUInt8)
    (crc >>> 16).toUInt8) (crc >>> 24).toUInt8 = 0
  rw [crcStep_low crc, crcStep_low (crc >>> 8), h16, crcStep_low (crc >>> 16), h24,
    crcStep_low (crc >>> 24), h32]

/-! ## Programs -/

/-- `pmt_t`. -/
structure PmtT where
  pid : Nat
  pn : Nat
  ver : Nat := 0
  cc : Nat := 0
  pcrPid : Nat := 0x1FFF
  pminfo : List UInt8 := []
  streams : List PesT := []
deriving DecidableEq

/-- `pat_t`. -/
structure PatT where
  tsid : Nat := 0
  ver : Nat := 0
  cc : Nat := 0
  pmts : List PmtT := []
deriving DecidableEq

def tsPidPat : Nat := 0
def tsPidSdt : Nat := 0x11

def psiStreamPrivateData : UInt8 := 0x06
def psiStreamAudioOpus : UInt8 := 0x9c

/-- A section: it starts with its table, then the length of what follows with four bits in
    front, and ends with its CRC. -/
def makeSection (table : UInt8) (mark : Nat) (bytes : List UInt8) : List UInt8 :=
  let front := table :: (beBytes 2 (mark + (bytes.length + 4)) ++ bytes)
  front ++ crcBytes (mpegCrc32 0xffffffff front)

/-- The version, marked as current, and the two section numbers. -/
def versionBytes (ver : Nat) : List UInt8 := [UInt8.ofNat (0xC1 + ver % 32 * 2), 0, 0]

/-- `pat_write`. -/
def patWrite (pat : PatT) : List UInt8 :=
  makeSection 0x00 0xB000 (beBytes 2 pat.tsid ++ versionBytes pat.ver
    ++ pat.pmts.flatMap fun pmt => beBytes 2 pmt.pn ++ beBytes 2 (0xE000 + pmt.pid % 8192))

/-- `pmt_write_descriptor`, with so many bytes of room. -/
def pmtWriteDescriptor (stream : PesT) (bytes : Int) : List UInt8 :=
  if stream.codecid = psiStreamAudioOpus ∧ 2 + 4 + 4 < bytes then
    [0x05, 4, 0x4F, 0x70, 0x75, 0x73, 0x7f, 2, 0x80,
      if 8 < stream.esinfo.length then stream.esinfo.getD 9 0 else 2]
  else []

/-- The loop of `pmt_write` over the streams, from the offset `off` on; it ends where a stream
    would not fit. -/
def pmtWriteStreams : Nat → List PesT → List UInt8
  | _, [] => []
  | off, stream :: rest =>
      if off + stream.esinfo.length < 1021 - 4 - 5 then
        let descriptor := pmtWriteDescriptor stream (1021 - (off + 5))
        let type :=
          if stream.codecid = psiStreamAudioOpus then psiStreamPrivateData else stream.codecid
        (type :: beBytes 2 (0xE000 + stream.pid % 8192)) ++ beBytes 2 (0xF000 + descriptor.length)
          ++ descriptor ++ pmtWriteStreams (off + 5 + descriptor.length) rest
      else []

/-- `pmt_write`. -/
def pmtWrite (pmt : PmtT) : List UInt8 :=
  makeSection 0x02 0xB000 (beBytes 2 pmt.pn ++ versionBytes pmt.ver
    ++ beBytes 2 (0xE000 + pmt.pcrPid % 8192)
    ++ beBytes 2 (0xF000 + pmt.pminfo.length) ++ pmt.pminfo
    ++ pmtWriteStreams (12 + pmt.pminfo.length) pmt.streams)

/-- `SERVICE_NAME`, `BILIBILI`. -/
def serviceName : List UInt8 := [0x42, 0x49, 0x4C, 0x49, 0x42, 0x49, 0x4C, 0x49]

/-- `SERVICE_VALUE`, `BVC/Media-Gateway`. -/
def serviceValue : List UInt8 :=
  [0x42, 0x56, 0x43, 0x2F, 0x4D, 0x65, 0x64, 0x69, 0x61, 0x2D, 0x47, 0x61, 0x74, 0x65, 0x77, 0x61,
    0x79]

/-- `sdt_write`. -/
def sdtWrite (pat : PatT) : List UInt8 :=
  makeSection 0x42 0xF000 (beBytes 2 pat.tsid ++ versionBytes pat.ver
    ++ beBytes 2 pat.tsid ++ [0xFF] ++ beBytes 2 pat.tsid ++ [0xfc]
    ++ beBytes 2 (0x8000 + (5 + serviceName.length + serviceValue.length))
    ++ [0x48, UInt8.ofNat (3 + serviceName.length + serviceValue.length), 1,
      UInt8.ofNat serviceName.length] ++ serviceName
    ++ [UInt8.ofNat serviceValue.length] ++ serviceValue)

/-- Every section passes the check of the readers. -/
theorem crc_makeSection (table : UInt8) (mark : Nat) (bytes : List UInt8) :
    mpegCrc32 0xffffffff (makeSection table mark bytes) = 0 := mpegCrc32_crcBytes _ _

/-! ## Packets of sections -/

/-- The room for a section in a packet; the code asserts that a section is shorter. -/
def sectionRoom : Nat := 183

/-- The tables of the programs fit in a packet each. -/
def PatT.TablesFit (pat : PatT) : Prop :=
  (patWrite pat).length < sectionRoom ∧ ∀ pmt ∈ pat.pmts, (pmtWrite pmt).length < sectionRoom

instance (pat : PatT) : Decidable pat.TablesFit := inferInstanceAs (Decidable (_ ∧ _))

/-- What the packet of a section carries: a pointer of 0, the section and stuffing. -/
def sectionUnit (bytes : List UInt8) : List UInt8 :=
  0 :: (bytes ++ List.replicate (sectionRoom - bytes.length) 0xff)

/-- The packet that `mpeg_ts_write_section_header` writes. -/
def sectionPacket (pid cc : Nat) (bytes : List UInt8) : List UInt8 :=
  tsFrame true pid cc [] (sectionUnit bytes)

theorem tsPacket_sectionPacket (pid cc : Nat) (bytes : List UInt8) :
    tsPacket (sectionPacket pid cc bytes)
      = { channel := pid % 8192, starts := true, counter := cc % 16,
          payload := sectionUnit bytes } :=
  tsPacket_tsFrame true pid cc ⟨Nat.zero_le _, .inl rfl⟩ _

/-- The packet carries the section. -/
theorem carries_sectionPacket (pid cc : Nat) (bytes : List UInt8) :
    Carries (pid % 8192) (sectionUnit bytes) ([sectionPacket pid cc bytes].map tsPacket) := by
  rw [List.map_singleton, tsPacket_sectionPacket]
  exact ⟨List.forall_mem_singleton.mpr rfl, ⟨_, [], rfl, rfl, List.forall_mem_nil _⟩,
    List.flatMap_singleton _ _⟩

theorem length_sectionPacket (pid cc : Nat) {bytes : List UInt8}
    (h : bytes.length < sectionRoom) : (sectionPacket pid cc bytes).length = tsPacketSize := by
  rw [sectionPacket, length_tsFrame, sectionUnit, List.length_cons, List.length_append,
    List.length_replicate]
  unfold sectionRoom at h ⊢
  change 4 + 0 + _ = 188
  omega

/-! ## Sections that fit -/

theorem length_makeSection (table : UInt8) (mark : Nat) (bytes : List UInt8) :
    (makeSection table mark bytes).length = bytes.length + 7 := by
  unfold makeSection
  simp only [List.length_append, List.length_cons, length_beBytes]
  change 2 + bytes.length + 1 + 4 = _
  omega

/-- The entries of `pat_write`. -/
def patEntries (pmts : List PmtT) : List UInt8 :=
  pmts.flatMap fun pmt => beBytes 2 pmt.pn ++ beBytes 2 (0xE000 + pmt.pid % 8192)

theorem length_patEntries (pmts : List PmtT) : (patEntries pmts).length = 4 * pmts.length := by
  induction pmts with
  | nil => rfl
  | cons pmt pmts ih =>
      have hcons : (patEntries (pmt :: pmts)).length = 4 + (patEntries pmts).length :=
        (List.length_append).trans rfl
      rw [hcons, ih, List.length_cons]
      omega

theorem length_patWrite (pat : PatT) : (patWrite pat).length = 12 + 4 * pat.pmts.length := by
  have hentries := length_patEntries pat.pmts
  rw [patWrite, length_makeSection, List.length_append]
  change 2 + 3 + (patEntries pat.pmts).length + 7 = _
  omega

theorem PatT.TablesFit.few {pat : PatT} (h : pat.TablesFit) : pat.pmts.length ≤ 42 := by
  have hroom : 12 + 4 * pat.pmts.length < 183 := length_patWrite pat ▸ h.1
  omega

theorem length_pmtWrite (pmt : PmtT) : (pmtWrite pmt).length = 16 + pmt.pminfo.length
    + (pmtWriteStreams (12 + pmt.pminfo.length) pmt.streams).length := by
  rw [pmtWrite, length_makeSection]
  simp only [List.length_append, length_beBytes]
  change 2 + 3 + 2 + 2 + _ + _ + 7 = _
  omega

/-- The table reads of a stream its PID, its codec and its descriptor. -/
theorem pmtWriteStreams_map {f : PesT → PesT} {streams : List PesT}
    (hf : ∀ s ∈ streams, (f s).pid = s.pid ∧ (f s).codecid = s.codecid ∧ (f s).esinfo = s.esinfo)
    (off : Nat) : pmtWriteStreams off (streams.map f) = pmtWriteStreams off streams := by
  induction streams generalizing off with
  | nil => rfl
  | cons stream rest ih =>
      obtain ⟨⟨hpid, hcodec, hinfo⟩, hrest⟩ := List.forall_mem_cons.mp hf
      have hdescriptor : pmtWriteDescriptor (f stream) = pmtWriteDescriptor stream := by
        funext bytes
        rw [pmtWriteDescriptor, pmtWriteDescriptor, hcodec, hinfo]
      rw [List.map_cons, pmtWriteStreams, pmtWriteStreams, hdescriptor, hpid, hcodec, hinfo]
      dsimp only
      rw [ih hrest]

theorem length_sdtWrite (pat : PatT) : (sdtWrite pat).length < sectionRoom := by
  have hname : serviceName.length = 8 := rfl
  have hvalue : serviceValue.length = 17 := rfl
  rw [sdtWrite, length_makeSection]
  simp only [List.length_append, length_beBytes, hname, hvalue]
  change 2 + 3 + 2 + 1 + 2 + 1 + 2 + 4 + 8 + 1 + 17 + 7 < 183
  decide

end SeastarLive
