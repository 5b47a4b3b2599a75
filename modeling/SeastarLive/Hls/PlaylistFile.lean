/-
SeastarLive.Hls.PlaylistFile — a playlist is replaced through a temporary file.

`m3u8_writer::write_file` of `src/hls/m3u8.cc`: the content is written into `<path>.bak`, which
is then renamed. The outcome of each system call is given; `write` may write less than it is
asked to.

* `writeFile_error`: where the call fails, the playlist is as it was.
* `writeFile_ok`: where it succeeds, the playlist is what was written, filled up with NUL to
  the length that `ftruncate` gave the file.
* The result of `write` is tested for its sign only, so the playlist is the content exactly
  if what was not written is NUL anyway (`writeFile_atomic_iff`).
-/
import SeastarLive.Lib.FileSystem

namespace SeastarLive

/-! ## The calls -/

/-- What the system calls of `write_file` come to, for a content of a given size. -/
structure FileOutcome (size : Nat) where
  /-- `open` fails, with this `errno` -/
  openErrno : Option Int := none
  ftruncateFails : Bool := false
  /-- the bytes that `write` has written, unless it fails -/
  written : Option Nat
  closeFails : Bool := false
  renameFails : Bool := false
  written_le : ∀ n ∈ written, n ≤ size

/-- Why `write_file` fails. -/
inductive WriteFailure
  | systemError (code : Int) (what : String)
  /-- `assert(fs::exists(tmp_file))` -/
  | assertion
deriving DecidableEq

/-- An `ssize_t` in an `int`. -/
def toInt (n : Int) : Int := n.bmod 4294967296

namespace FileOutcome

variable {size : Nat} (out : FileOutcome size)

/-- What `write` returns, as `st` holds it. -/
def writeResult : Int :=
  match out.written with
  | some n => toInt n
  | none => -1

/-- What `close` returns. -/
def closeResult : Int := if out.closeFails then -1 else 0

end FileOutcome

/-- The files of the server. -/
abbrev Files := FileSystem String UInt8

/-- The temporary file. -/
def tmpFile (filepath : String) : String := filepath ++ ".bak"

/-- The effect of `write`, at the start of the file. -/
def writeBytes (fs : Files) (path : String) (content : List UInt8) (written : Option Nat) :
    Files :=
  match written with
  | some n => fs.change path (FileSystem.overwritten (content.take n))
  | none => fs

/-- `write_file`, and the files it leaves. -/
def writeFile (filepath : String) (content : List UInt8) (out : FileOutcome content.length)
    (fs : Files) : Except WriteFailure Unit × Files :=
  let tmp := tmpFile filepath
  match out.openErrno with
  | some errno => (.error (.systemError errno "open"), fs)
  | none =>
      let fs := fs.create tmp
      if out.ftruncateFails then (.error (.systemError out.closeResult "ftruncate"), fs)
      else
        let fs := fs.change tmp (FileSystem.resized 0 content.length)
        let fs := writeBytes fs tmp content out.written
        if out.writeResult < 0 then (.error (.systemError out.writeResult "write"), fs)
        else if (fs tmp).isNone then (.error .assertion, fs)
        else if out.renameFails then (.error (.systemError (-1) "rename"), fs)
        else (.ok (), fs.rename tmp filepath)

/-! ## What is left -/

section Files

variable (filepath : String) (content : List UInt8) (out : FileOutcome content.length)
  (fs : Files)

theorem ne_tmpFile : filepath ≠ tmpFile filepath := by
  intro h
  have hlength := congrArg String.length h
  simp [tmpFile] at hlength

theorem writeBytes_other {path p : String} (h : p ≠ path) (written : Option Nat) :
    writeBytes fs path content written p = fs p := by
  cases written with
  | none => rfl
  | some n => exact FileSystem.change_other fs h

/-- The temporary file before it is renamed. -/
theorem writeBytes_tmp (tmp : String) {n : Nat} (hn : n ≤ content.length) :
    writeBytes ((fs.create tmp).change tmp (FileSystem.resized 0 content.length)) tmp content
        (some n) tmp
      = some (content.take n ++ List.replicate (content.length - n) 0) := by
  simp [writeBytes, FileSystem.overwritten_take_replicate 0 hn]

/-- Where `write_file` fails, the playlist is as it was. -/
theorem writeFile_error {e : WriteFailure} {fs' : Files}
    (h : writeFile filepath content out fs = (.error e, fs')) : fs' filepath = fs filepath := by
  have htmp := ne_tmpFile filepath
  unfold writeFile at h
  dsimp only at h
  (repeat' split at h) <;> cases h
  · rfl
  · simp [htmp]
  · simp [htmp, writeBytes_other]
  · simp [htmp, writeBytes_other]
  · simp [htmp, writeBytes_other]

/-- `write_file` succeeds. -/
def FileOutcome.Succeeds {size : Nat} (out : FileOutcome size) (n : Nat) : Prop :=
  out.openErrno = none ∧ out.ftruncateFails = false ∧ out.written = some n ∧ 0 ≤ toInt n
    ∧ out.renameFails = false

/-- Where all calls succeed, the playlist is what was written, and NUL up to its length. -/
theorem writeFile_ok {n : Nat} (h : out.Succeeds n) :
    ∃ fs', writeFile filepath content out fs = (.ok (), fs')
      ∧ fs' filepath = some (content.take n ++ List.replicate (content.length - n) 0) := by
  obtain ⟨hopen, hftruncate, hwritten, hresult, hrename⟩ := h
  have hn : n ≤ content.length := out.written_le n hwritten
  have hnonneg : ¬ out.writeResult < 0 := by
    simpa [FileOutcome.writeResult, hwritten] using hresult
  have htmp := writeBytes_tmp content fs (tmpFile filepath) hn
  unfold writeFile
  simp only [hopen, hftruncate, hwritten, hrename, if_neg hnonneg, htmp, Bool.false_eq_true,
    if_false, Option.isNone_some]
  exact ⟨_, rfl, by rw [FileSystem.rename_new, htmp]⟩

/-- It succeeds in no other case. -/
theorem succeeds_of_ok {fs' : Files} (h : writeFile filepath content out fs = (.ok (), fs')) :
    ∃ n, out.Succeeds n := by
  unfold writeFile at h
  dsimp only at h
  (repeat' split at h) <;> cases h
  rename_i hopen hftruncate hresult hexists hrename
  cases hwritten : out.written with
  | none => simp [FileOutcome.writeResult, hwritten] at hresult
  | some n =>
      refine ⟨n, hopen, by simpa using hftruncate, hwritten, ?_, by simpa using hrename⟩
      simpa [FileOutcome.writeResult, hwritten] using hresult

end Files

/-- The playlist is replaced by the content, or left as it was. -/
def WritesAtomically (filepath : String) (content : List UInt8)
    (out : FileOutcome content.length) (fs : Files) : Prop :=
  match writeFile filepath content out fs with
  | (.ok (), fs') => fs' filepath = some content
  | (.error _, fs') => fs' filepath = fs filepath

/-- The playlist is replaced atomically exactly if, where every call reports success, the bytes
    that `write` has left out are NUL. -/
theorem writeFile_atomic_iff (filepath : String) (content : List UInt8)
    (out : FileOutcome content.length) (fs : Files) :
    WritesAtomically filepath content out fs
      ↔ ∀ n, out.Succeeds n → ∀ b ∈ content.drop n, b = 0 := by
  unfold WritesAtomically
  split
  · rename_i fs' hok
    obtain ⟨n, hn⟩ := succeeds_of_ok filepath content out fs hok
    obtain ⟨fs'', hok', hcontent⟩ := writeFile_ok filepath content out fs hn
    obtain rfl : fs'' = fs' := by
      rw [hok'] at hok
      exact congrArg Prod.snd hok
    rw [hcontent, Option.some_inj, FileSystem.take_append_replicate_eq_iff]
    constructor
    · intro hall m hm
      obtain rfl : n = m := Option.some.inj (hn.2.2.1.symm.trans hm.2.2.1)
      exact hall
    · intro hall
      exact hall n hn
  · rename_i e fs' herror
    refine iff_of_true (writeFile_error filepath content out fs herror) ?_
    intro n hn
    obtain ⟨fs'', hok, -⟩ := writeFile_ok filepath content out fs hn
    rw [hok] at herror
    cases herror

/-- `write` writes one of two bytes, and reports it. -/
theorem writeFile_partial :
    ¬ WritesAtomically "live.m3u8" [35, 10] ⟨none, false, some 1, false, false, by decide⟩
      fun _ => none := by
  intro h
  obtain ⟨fs, hok, hcontent⟩ := writeFile_ok "live.m3u8" [35, 10]
    ⟨none, false, some 1, false, false, by decide⟩ (fun _ => none) (n := 1)
    ⟨rfl, rfl, rfl, by decide, rfl⟩
  unfold WritesAtomically at h
  rw [hok] at h
  exact absurd (hcontent.symm.trans h) (by decide)

end SeastarLive
