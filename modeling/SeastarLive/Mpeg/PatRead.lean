/-
SeastarLive.Mpeg.PatRead — the program association table, read.

`pat_read` of `3rd/libmpeg/source/mpeg-pat.c`.

* `patRead` has no result where an assertion of `pat_read` fails, or where the section has the
  length 0, for which the bound of the loop wraps around. No allocation fails.
* `crc_patWrite`: the section ends where its length says, with the CRC that it has to have.
* `patRead_patWrite`: what a reader knows after a section of `pat_write`; `patRead_fresh`: for a
  new reader these are the programs.
-/
import Mathlib.Data.List.Nodup
import SeastarLive.Mpeg.Sections

namespace SeastarLive

/-! ## Reading -/

/-- A program that the reader knows of by its table only. -/
def announced (pn pid : Nat) : PmtT := { pid, pn, pcrPid := 0 }

/-- `pat_fetch`, and what `pat_read` notes there. -/
def patFetch (pn pid : Nat) : List PmtT → List PmtT
  | [] => [announced pn pid]
  | pmt :: rest =>
      if pmt.pid = pid then { pmt with pn } :: rest else pmt :: patFetch pn pid rest

/-- The loop of `pat_read`. -/
def patReadLoop : Nat → List UInt8 → List PmtT → List PmtT
  | 0, _, pmts => pmts
  | n + 1, data, pmts =>
      let pn := dataAt data 0 * 256 + dataAt data 1
      let pid := dataAt data 2 % 32 * 256 + dataAt data 3
      patReadLoop n (data.drop 4) (if pn = 0 then pmts else patFetch pn pid pmts)

/-- `section_length`. -/
def sectionLength (data : List UInt8) : Nat := dataAt data 1 % 16 * 256 + dataAt data 2

/-- `pat_read`. -/
def patRead (pat : PatT) (data : List UInt8) : Option PatT :=
  let ver := dataAt data 5 / 2 % 32
  if dataAt data 0 = 0 ∧ dataAt data 1 / 128 = 1 ∧ 0 < sectionLength data
      ∧ sectionLength data + 3 ≤ data.length then
    some { pat with
      tsid := dataAt data 3 * 256 + dataAt data 4
      ver
      pmts := patReadLoop ((sectionLength data - 9) / 4) (data.drop 8)
        (if pat.ver ≠ ver then [] else pat.pmts) }
  else none

/-! ## A table that is read back -/

/-- A program whose number and PID the table can hold. -/
def Announceable (pmt : PmtT) : Prop := (0 < pmt.pn ∧ pmt.pn < 65536) ∧ pmt.pid < 8192

/-- The programs of a table, noted one after the other. -/
def noted (pmts known : List PmtT) : List PmtT :=
  pmts.foldl (fun known pmt => patFetch pmt.pn pmt.pid known) known

theorem pid_of_bytes {pid : Nat} (h : pid < 8192) :
    (0xE000 + pid % 8192) / 256 % 32 * 256 + (0xE000 + pid % 8192) % 256 = pid := by omega

theorem low16_of_bytes (n : Nat) : n / 256 % 256 * 256 + n % 256 = n % 65536 := by omega

theorem patReadLoop_entries {pmts : List PmtT} (h : ∀ p ∈ pmts, Announceable p)
    (tail : List UInt8) (known : List PmtT) :
    patReadLoop pmts.length (patEntries pmts ++ tail) known = noted pmts known := by
  induction pmts generalizing known with
  | nil => rfl
  | cons pmt pmts ih =>
      obtain ⟨⟨⟨hpos, hpn⟩, hpid⟩, hrest⟩ := List.forall_mem_cons.mp h
      have h0 : dataAt (patEntries (pmt :: pmts) ++ tail) 0 = pmt.pn / 256 :=
        toNat_byte (by omega)
      have h1 : dataAt (patEntries (pmt :: pmts) ++ tail) 1 = pmt.pn % 256 := UInt8.toNat_ofNat'
      have h2 : dataAt (patEntries (pmt :: pmts) ++ tail) 2 = (0xE000 + pmt.pid % 8192) / 256 :=
        toNat_byte (by omega)
      have h3 : dataAt (patEntries (pmt :: pmts) ++ tail) 3 = (0xE000 + pmt.pid % 8192) % 256 :=
        UInt8.toNat_ofNat'
      have hdrop : (patEntries (pmt :: pmts) ++ tail).drop 4 = patEntries pmts ++ tail := rfl
      have hnumber : pmt.pn / 256 * 256 + pmt.pn % 256 = pmt.pn := by omega
      rw [List.length_cons, patReadLoop, h0, h1, h2, h3, hdrop, hnumber,
        pid_of_bytes hpid, if_neg (Nat.ne_of_gt hpos), ih hrest]
      rfl

/-- The bytes of the table. -/
theorem patWrite_eq (pat : PatT) : ∃ crc, patWrite pat
    = 0 :: UInt8.ofNat ((0xB000 + (5 + (patEntries pat.pmts).length + 4)) / 256)
      :: UInt8.ofNat (0xB000 + (5 + (patEntries pat.pmts).length + 4))
      :: UInt8.ofNat (pat.tsid / 256) :: UInt8.ofNat pat.tsid
      :: UInt8.ofNat (0xC1 + pat.ver % 32 * 2) :: 0 :: 0 :: (patEntries pat.pmts ++ crc)
    ∧ crc.length = 4 := by
  have hlength : (beBytes 2 pat.tsid ++ versionBytes pat.ver ++ patEntries pat.pmts).length
      = 5 + (patEntries pat.pmts).length := by
    rw [List.length_append]
    rfl
  rw [← hlength]
  exact ⟨crcBytes _, rfl, rfl⟩

theorem sectionLength_patWrite {pat : PatT} (hfew : pat.pmts.length ≤ 42) (tail : List UInt8) :
    sectionLength (patWrite pat ++ tail) = 9 + 4 * pat.pmts.length := by
  obtain ⟨crc, hbytes, -⟩ := patWrite_eq pat
  rw [length_patEntries] at hbytes
  have h1 : dataAt (patWrite pat ++ tail) 1 = (0xB000 + (5 + 4 * pat.pmts.length + 4)) / 256 := by
    rw [hbytes]
    exact toNat_byte (by omega)
  have h2 : dataAt (patWrite pat ++ tail) 2 = (0xB000 + (5 + 4 * pat.pmts.length + 4)) % 256 := by
    rw [hbytes]
    exact UInt8.toNat_ofNat'
  rw [sectionLength, h1, h2]
  omega

/-- The table passes the check that `pat_read` has in a comment. -/
theorem crc_patWrite {pat : PatT} (hfew : pat.pmts.length ≤ 42) (tail : List UInt8) :
    mpegCrc32 0xffffffff ((patWrite pat ++ tail).take
      (sectionLength (patWrite pat ++ tail) + 3)) = 0 := by
  have hlength : (patWrite pat).length = sectionLength (patWrite pat ++ tail) + 3 := by
    rw [sectionLength_patWrite hfew, length_patWrite]
    omega
  rw [List.take_left' hlength]
  exact crc_makeSection _ _ _

/-- What a reader knows after the table of `pat_write`. -/
theorem patRead_patWrite (old : PatT) {pat : PatT} (h : ∀ p ∈ pat.pmts, Announceable p)
    (hfew : pat.pmts.length ≤ 42) (tail : List UInt8) :
    patRead old (patWrite pat ++ tail) = some { old with
      tsid := pat.tsid % 65536
      ver := pat.ver % 32
      pmts := noted pat.pmts (if old.ver ≠ pat.ver % 32 then [] else old.pmts) } := by
  obtain ⟨crc, hbytes, hcrc⟩ := patWrite_eq pat
  rw [length_patEntries] at hbytes
  have hsection := sectionLength_patWrite hfew tail
  generalize hdata : patWrite pat ++ tail = data at hsection ⊢
  have hdata : data = _ := hdata.symm.trans (congrArg (· ++ tail) hbytes)
  have hlength : data.length = 12 + 4 * pat.pmts.length + tail.length := by
    rw [hdata, List.length_append]
    simp only [List.length_cons, List.length_append, length_patEntries, hcrc]
    omega
  have h1 : dataAt data 1 = (0xB000 + (5 + 4 * pat.pmts.length + 4)) / 256 := by
    rw [hdata]
    exact toNat_byte (by omega)
  have h3 : dataAt data 3 = pat.tsid / 256 % 256 := by
    rw [hdata]
    exact UInt8.toNat_ofNat'
  have h4 : dataAt data 4 = pat.tsid % 256 := by
    rw [hdata]
    exact UInt8.toNat_ofNat'
  have h5 : dataAt data 5 = 0xC1 + pat.ver % 32 * 2 := by
    rw [hdata]
    exact toNat_byte (by omega)
  have h0 : dataAt data 0 = 0 := by
    rw [hdata]
    rfl
  have hdrop : data.drop 8 = patEntries pat.pmts ++ (crc ++ tail) := by
    rw [hdata, ← List.append_assoc]
    rfl
  have hturns : (9 + 4 * pat.pmts.length - 9) / 4 = pat.pmts.length := by omega
  have hver : dataAt data 5 / 2 % 32 = pat.ver % 32 := by
    rw [h5]
    omega
  have htsid : dataAt data 3 * 256 + dataAt data 4 = pat.tsid % 65536 := by
    rw [h3, h4]
    exact low16_of_bytes pat.tsid
  unfold patRead
  dsimp only
  rw [hsection, hver, htsid, hturns, hdrop, patReadLoop_entries h, if_pos]
  refine ⟨h0, ?_, by omega, by omega⟩
  rw [h1]
  omega

/-! ## A new reader -/

theorem patFetch_new {pn pid : Nat} {known : List PmtT} (h : pid ∉ known.map PmtT.pid) :
    patFetch pn pid known = known ++ [announced pn pid] := by
  induction known with
  | nil => rfl
  | cons pmt known ih =>
      rw [List.map_cons, List.mem_cons, not_or] at h
      rw [patFetch, if_neg (Ne.symm h.1), ih h.2]
      rfl

/-- Programs with PIDs that are new are all noted. -/
theorem noted_new {pmts known : List PmtT}
    (h : (known.map PmtT.pid ++ pmts.map PmtT.pid).Nodup) :
    noted pmts known = known ++ pmts.map fun p => announced p.pn p.pid := by
  induction pmts generalizing known with
  | nil => exact (List.append_nil known).symm
  | cons pmt pmts ih =>
      have hnew : pmt.pid ∉ known.map PmtT.pid := by
        intro hmem
        exact (List.nodup_append.mp h).2.2 _ hmem _ List.mem_cons_self rfl
      have hknown : ((known ++ [announced pmt.pn pmt.pid]).map PmtT.pid
          ++ pmts.map PmtT.pid).Nodup := by
        rw [List.map_append, List.append_assoc]
        exact h
      have hfetch : noted (pmt :: pmts) known
          = noted pmts (known ++ [announced pmt.pn pmt.pid]) := by
        rw [← patFetch_new hnew]
        rfl
      rw [hfetch, ih hknown, List.append_assoc]
      rfl

/-- A new reader knows the programs after one table. -/
theorem patRead_fresh {pat : PatT} (h : ∀ p ∈ pat.pmts, Announceable p)
    (hfew : pat.pmts.length ≤ 42) (hdistinct : (pat.pmts.map PmtT.pid).Nodup)
    (tail : List UInt8) :
    patRead {} (patWrite pat ++ tail) = some {
      tsid := pat.tsid % 65536
      ver := pat.ver % 32
      pmts := pat.pmts.map fun p => announced p.pn p.pid } := by
  have hnone : (if ({} : PatT).ver ≠ pat.ver % 32 then [] else ({} : PatT).pmts) = [] := by
    split <;> rfl
  have hpmts : noted pat.pmts [] = pat.pmts.map fun p => announced p.pn p.pid := by
    have hnew : (([] : List PmtT).map PmtT.pid ++ pat.pmts.map PmtT.pid).Nodup := hdistinct
    exact noted_new hnew
  rw [patRead_patWrite {} h hfew, hnone, hpmts]

end SeastarLive
