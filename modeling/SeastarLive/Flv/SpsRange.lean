/-
SeastarLive.Flv.SpsRange — the bytes of the first sequence parameter set.

`codec::mpeg4_avc_rect_load` of `src/util/codec.cc` parses `sps[0].bytes - 1` bytes from
`sps[0].data + 1` on, in a record that `mpeg4_avc_decoder_configuration_record_load` of
`3rd/libflv` has filled.

* `avcConfigLoad_sps`: what the loader leaves in the first entry: the length in front of the
  first set and a pointer to the start of `data`, or nothing, if the input ends before a set.
* `avcConfigLoad_spsInside_iff`: the parsed bytes are bytes of `data` exactly if that length
  is not zero, or, without a set, if those of the old entry are.
-/
import SeastarLive.Flv.ConfigRecord

namespace SeastarLive.Flv

open ByteMemory

/-- The range that `mpeg4_avc_rect_load` passes to `bitstream_init`, in a union at `addr`: its
    length is not negative, and it is in the array `data`. -/
def SpsInside (addr : UInt64) (mem : ByteMemory) : Prop :=
  let length : Int := leValue (mem.read (avcSps 0) 2) - 1
  let start : Nat := (mem.readPointer (avcSps 0 + 8) + 1 - addr).toNat
  0 ≤ length ∧ avcData ≤ start ∧ start + length ≤ avcData + dataSize

/-! ## The first entry -/

/-- The sets are written behind the entries in front of them. -/
theorem avcSets_off {entry : Nat → Nat} {slack n i used used' m : Nat} {rest left : List UInt8}
    {ws : List MemWrite} (h : avcSets entry slack n i rest used = some (ws, left, used'))
    (hentry : ∀ k, i ≤ k → m ≤ entry k) (hm : m ≤ avcData) : ∀ w ∈ ws, m ≤ w.off := by
  induction n generalizing i rest used ws with
  | zero =>
      cases h
      exact fun w hw => absurd hw List.not_mem_nil
  | succ n ih =>
      unfold avcSets at h
      split at h
      · cases h
        exact fun w hw => absurd hw List.not_mem_nil
      · dsimp only at h
        split at h
        · cases h
        · obtain ⟨⟨ws', left', used''⟩, hrest, h⟩ := Option.bind_eq_some_iff.mp h
          cases h
          have hi := hentry i (Nat.le_refl i)
          intro w hw
          simp only [List.mem_cons] at hw
          rcases hw with rfl | rfl | rfl | hw
          · exact Nat.le_trans hm (Nat.le_add_right avcData used)
          · exact Nat.le_trans hi (Nat.le_add_right (entry i) 8)
          · exact hi
          · exact ih hrest (fun k hk => hentry k (by omega)) w hw

/-- The first of some sets. -/
theorem avcSets_first {n used : Nat} {rest left : List UInt8} {ws : List MemWrite}
    (h : avcSets avcSps 1 (n + 1) 0 rest 0 = some (ws, left, used)) (hrest : 2 < rest.length) :
    bigEndian (rest.take 2) ≤ dataSize ∧ ∃ set ws',
      ws = .bytes avcData set :: .pointer (avcSps 0 + 8) avcData
        :: .bytes (avcSps 0) (leBytes 2 (bigEndian (rest.take 2))) :: ws'
      ∧ ∀ w ∈ ws', avcSps 1 ≤ w.off := by
  unfold avcSets at h
  rw [if_neg (by omega)] at h
  dsimp only at h
  split at h
  · cases h
  · rename_i hfits
    obtain ⟨⟨ws', left', used'⟩, hothers, h⟩ := Option.bind_eq_some_iff.mp h
    cases h
    refine ⟨by omega, _, ws', rfl, avcSets_off hothers ?_ (by decide)⟩
    intro k hk
    simp only [avcSps]
    omega

/-- Without room for a set, none is written. -/
theorem avcSets_short {entry : Nat → Nat} {slack n i used used' : Nat} {rest left : List UInt8}
    {ws : List MemWrite} (h : avcSets entry slack n i rest used = some (ws, left, used'))
    (hrest : rest.length ≤ 2) : ws = [] := by
  cases n with
  | zero =>
      cases h
      rfl
  | succ n =>
      unfold avcSets at h
      rw [if_pos hrest] at h
      cases h
      rfl

theorem bigEndian_take_two_lt (rest : List UInt8) : bigEndian (rest.take 2) < 256 ^ 2 := by
  match rest with
  | [] => decide
  | [a] =>
      have := a.toNat_lt
      simp [bigEndian]
      omega
  | a :: b :: _ =>
      have := a.toNat_lt
      have := b.toNat_lt
      simp [bigEndian]
      omega

/-! ## A loaded record -/

section Loaded

variable {asserts : Bool} (addr : UInt64) {data : List UInt8} {writes : List MemWrite}

/-- The writes of a load: the number of sets is at offset 4, and behind the sets nothing is
    written to the first entry. -/
theorem avcConfigLoad_writes (h : avcConfigLoad asserts data = .ok writes) :
    ∃ header nbSps sps left used tail,
      writes = .bytes 0 header :: (sps ++ tail) ∧ header.length = 5 ∧ header[4]? = some nbSps
      ∧ avcSets avcSps 1 nbSps.toNat 0 (data.drop 6) 0 = some (sps, left, used)
      ∧ ∀ w ∈ tail, ∀ i, i = 4 ∨ avcSps 0 ≤ i ∧ i < avcSps 1 →
          ¬ (w.off ≤ i ∧ i < w.off + (w.content addr).length) := by
  unfold avcConfigLoad at h
  split at h
  · rename_i d₀ d₁ d₂ d₃ d₄ d₅ d₆ rest
    split at h
    · cases h
    · dsimp only at h
      split at h
      · rename_i sps nbPps left used hsps
        split at h
        · rename_i pps left' used' hpps
          cases h
          refine ⟨[d₁, d₂, d₃, (d₄ &&& 3) + 1, d₅ &&& 0x1F], d₅ &&& 0x1F, sps, nbPps :: left, used,
            .bytes 5 [nbPps] :: (pps ++ [.bytes 8720 (leBytes 8 used')]), ?_, rfl, rfl, hsps, ?_⟩
          · simp
          · intro w hw i hi hin
            have hle : i < avcSps 1 := by
              rcases hi with rfl | hi
              · decide
              · exact hi.2
            simp only [List.mem_cons, List.mem_append, List.not_mem_nil, or_false] at hw
            rcases hw with rfl | hw | rfl
            · simp only [MemWrite.off, MemWrite.content, List.length_singleton, avcSps] at hin hi
              omega
            · have hoff := avcSets_off hpps (m := avcSps 1) (fun k _ => by
                simp only [avcSps, avcPps]
                omega) (by decide) w hw
              omega
            · simp only [MemWrite.off, avcSps] at hin hle
              omega
        · cases h
      · cases h
  · cases h

/-- What the first entry is in the end: what the writes of the sets leave there. -/
theorem avcConfigLoad_entry (h : avcConfigLoad asserts data = .ok writes) (mem : ByteMemory) :
    ∃ sps left used, avcSets avcSps 1 (applyAll addr writes mem 4).toNat 0 (data.drop 6) 0
        = some (sps, left, used)
      ∧ ∀ i, avcSps 0 ≤ i → i < avcSps 1 →
          applyAll addr writes mem i = applyAll addr sps mem i := by
  obtain ⟨header, nbSps, sps, left, used, tail, rfl, hlength, hcount, hsps, htail⟩ :=
    avcConfigLoad_writes addr h
  have hoff := avcSets_off hsps (m := avcSps 0) (fun k _ => by
    simp only [avcSps]
    omega) (by decide)
  have hload : ∀ i, i = 4 ∨ avcSps 0 ≤ i ∧ i < avcSps 1 →
      applyAll addr (.bytes 0 header :: (sps ++ tail)) mem i
        = applyAll addr sps (mem.write 0 header) i := by
    intro i hi
    have happend : applyAll addr (.bytes 0 header :: (sps ++ tail)) mem
        = applyAll addr tail (applyAll addr sps (mem.write 0 header)) :=
      applyAll_append addr sps tail (mem.write 0 header)
    rw [happend, applyAll_of_not_mem addr fun w hw => htail w hw i hi]
  have hfour : applyAll addr (.bytes 0 header :: (sps ++ tail)) mem 4 = nbSps := by
    rw [hload 4 (.inl rfl), applyAll_of_not_mem]
    · simp [write, overlay, hcount]
    · intro w hw hin
      have := hoff w hw
      simp only [avcSps] at this
      omega
  refine ⟨sps, left, used, hfour ▸ hsps, ?_⟩
  intro i hlow hhigh
  have hheader : mem.write 0 header i = mem i := by
    refine mem.write_of_not_mem fun hin => ?_
    simp only [avcSps] at hlow
    omega
  rw [hload i (.inr ⟨hlow, hhigh⟩), applyAll_eq, applyAll_eq, hheader]

/-- The range depends on the first entry only. -/
theorem spsInside_congr {mem mem' : ByteMemory}
    (h : ∀ i, avcSps 0 ≤ i → i < avcSps 1 → mem i = mem' i) :
    SpsInside addr mem ↔ SpsInside addr mem' := by
  have hbytes : mem.read (avcSps 0) 2 = mem'.read (avcSps 0) 2 :=
    read_congr fun i hlow hhigh => h i hlow (by simp only [avcSps] at hhigh ⊢; omega)
  have hpointer : mem.read (avcSps 0 + 8) 8 = mem'.read (avcSps 0 + 8) 8 :=
    read_congr fun i hlow hhigh => h i (by omega) (by simp only [avcSps] at hhigh ⊢; omega)
  simp only [SpsInside, readPointer, hbytes, hpointer]

/-- An entry that was written for a set at the start of `data`. -/
theorem spsInside_of_set {mem : ByteMemory} {len : Nat} {set : List UInt8} {ws : List MemWrite}
    (hlen : len < 256 ^ 2) (hle : len ≤ dataSize) (hws : ∀ w ∈ ws, avcSps 1 ≤ w.off) :
    SpsInside addr (applyAll addr (.bytes avcData set :: .pointer (avcSps 0 + 8) avcData
      :: .bytes (avcSps 0) (leBytes 2 len) :: ws) mem) ↔ len ≠ 0 := by
  let pointed := (mem.write avcData set).write (avcSps 0 + 8)
    (pointerBytes (addr + UInt64.ofNat avcData))
  have hentry : ∀ i, avcSps 0 ≤ i → i < avcSps 1 →
      applyAll addr (.bytes avcData set :: .pointer (avcSps 0 + 8) avcData
        :: .bytes (avcSps 0) (leBytes 2 len) :: ws) mem i
      = pointed.write (avcSps 0) (leBytes 2 len) i := by
    intro i _ hhigh
    show applyAll addr ws (pointed.write (avcSps 0) (leBytes 2 len)) i = _
    refine applyAll_of_not_mem addr (fun w hw hin => ?_) _
    have := hws w hw
    omega
  rw [spsInside_congr addr hentry]
  have hbytes := pointed.read_write (avcSps 0) (leBytes 2 len)
  rw [length_leBytes] at hbytes
  have hpointer : (pointed.write (avcSps 0) (leBytes 2 len)).readPointer (avcSps 0 + 8)
      = addr + UInt64.ofNat avcData := by
    have hread : (pointed.write (avcSps 0) (leBytes 2 len)).read (avcSps 0 + 8) 8
        = pointed.read (avcSps 0 + 8) 8 := by
      refine read_congr fun i hlow _ => pointed.write_of_not_mem fun hin => ?_
      rw [length_leBytes] at hin
      omega
    rw [readPointer, hread, ← readPointer]
    exact readPointer_write _ (avcSps 0 + 8) _
  have hstart : (addr + UInt64.ofNat avcData + 1 - addr).toNat = avcData + 1 := by
    have hsub : addr + UInt64.ofNat avcData + 1 - addr = UInt64.ofNat avcData + 1 := by grind
    rw [hsub]
    decide
  simp only [SpsInside, hbytes, leValue_leBytes, Nat.mod_eq_of_lt hlen, hpointer, hstart]
  omega

end Loaded

/-- After a load with a set, the range that is parsed lies in `data` exactly if the length in
    front of the first set is not zero; where the input has no room for a set, exactly if the
    range of the old entry does. -/
theorem avcConfigLoad_spsInside_iff (asserts : Bool) (addr : UInt64) (mem : ByteMemory)
    (data : List UInt8) (writes : List MemWrite)
    (h : avcConfigLoad asserts data = .ok writes) (hsps : applyAll addr writes mem 4 ≠ 0) :
    SpsInside addr (applyAll addr writes mem)
      ↔ if 8 < data.length then bigEndian ((data.drop 6).take 2) ≠ 0 else SpsInside addr mem := by
  obtain ⟨sps, left, used, hsets, hentry⟩ := avcConfigLoad_entry addr h mem
  rw [spsInside_congr addr hentry]
  have hlength : (data.drop 6).length = data.length - 6 := List.length_drop
  split
  · rename_i hlong
    obtain ⟨n, hn⟩ : ∃ n, (applyAll addr writes mem 4).toNat = n + 1 := by
      refine Nat.exists_eq_succ_of_ne_zero fun hzero => hsps ?_
      exact UInt8.toNat_inj.mp hzero
    rw [hn] at hsets
    obtain ⟨hle, set, ws, rfl, hws⟩ := avcSets_first hsets (by omega)
    exact spsInside_of_set addr (bigEndian_take_two_lt _) hle hws
  · rw [avcSets_short hsets (by omega)]
    rfl

/-- One set of one byte. -/
theorem avcConfigLoad_spsInside_one :
    ∃ writes, avcConfigLoad true [1, 0x64, 0, 0x1F, 0xFF, 0xE1, 0, 1, 0x67, 0] = .ok writes
      ∧ SpsInside 4096 (applyAll 4096 writes fun _ => 0) :=
  ⟨_, rfl, (avcConfigLoad_spsInside_iff true 4096 (fun _ => 0)
    [1, 0x64, 0, 0x1F, 0xFF, 0xE1, 0, 1, 0x67, 0] _ rfl (by decide)).mpr
    ((if_pos (by decide)).mpr (by decide))⟩

/-- One set without a byte. -/
theorem avcConfigLoad_spsEmpty :
    ∃ writes, avcConfigLoad true [1, 0x64, 0, 0x1F, 0xFF, 0xE1, 0, 0, 0] = .ok writes
      ∧ applyAll 4096 writes (fun _ => 0) 4 ≠ 0
      ∧ ¬ SpsInside 4096 (applyAll 4096 writes fun _ => 0) := by
  refine ⟨_, rfl, by decide, fun h => ?_⟩
  exact absurd h.1 (by decide)

end SeastarLive.Flv
