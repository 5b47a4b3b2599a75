/-
SeastarLive.Lib.ByteMemory — the bytes of an object, and pointers in it.

A memory gives every offset in an object a byte. Programs write bytes to it,
and pointers to other places of the same object, which depend on where the
object is (`base`); a copy of an object relocates its pointers. `pack` is the
object as a list, in a form in which equal objects are equal lists.

* `applyAll_again`: writing the same bytes twice is writing them once.
* `relocate_changes`: a relocated pointer is another pointer.
* `pack_eq_iff`: comparing packed objects is comparing their bytes.

Nothing here names a program.
-/
import Mathlib.Data.List.DropRight
import Mathlib.Data.List.GetD
import Mathlib.Tactic.Ring

namespace SeastarLive

/-- The bytes of an object. -/
abbrev ByteMemory := Nat → UInt8

namespace ByteMemory

/-! ## Numbers -/

/-- The low `w` bytes of a number, the lowest first. -/
def leBytes : Nat → Nat → List UInt8
  | 0, _ => []
  | w + 1, n => UInt8.ofNat n :: leBytes w (n / 256)

/-- The number with these bytes. -/
def leValue (bytes : List UInt8) : Nat := bytes.foldr (fun b n => b.toNat + 256 * n) 0

@[simp] theorem length_leBytes (w n : Nat) : (leBytes w n).length = w := by
  induction w generalizing n with
  | zero => rfl
  | succ w ih => simp [leBytes, ih]

/-- The low bytes, and the others behind them. -/
theorem leBytes_add (v w n : Nat) : leBytes (w + v) n = leBytes w n ++ leBytes v (n / 256 ^ w) := by
  induction w generalizing n with
  | zero => simp [leBytes]
  | succ w ih =>
      rw [Nat.add_right_comm, leBytes, ih, leBytes, Nat.div_div_eq_div_mul, Nat.pow_succ',
        List.cons_append]

/-- The bytes of a number are those of what is left of it in them. -/
theorem leBytes_mod (w n : Nat) : leBytes w (n % 256 ^ w) = leBytes w n := by
  induction w generalizing n with
  | zero => rfl
  | succ w ih =>
      have hlow : UInt8.ofNat (n % (256 * 256 ^ w)) = UInt8.ofNat n := by
        apply UInt8.toNat_inj.mp
        rw [UInt8.toNat_ofNat', UInt8.toNat_ofNat', Nat.mod_mul_right_mod]
      rw [Nat.pow_succ', leBytes, leBytes, hlow, Nat.mod_mul_right_div_self, ih]

theorem leValue_leBytes (w n : Nat) : leValue (leBytes w n) = n % 256 ^ w := by
  induction w generalizing n with
  | zero => simp [leBytes, leValue, Nat.mod_one]
  | succ w ih =>
      have hcons : leValue (leBytes (w + 1) n) = n % 256 + 256 * leValue (leBytes w (n / 256)) := by
        simp [leBytes, leValue]
      rw [hcons, ih, Nat.pow_succ', Nat.mod_mul]

/-! ## Reading and writing -/

variable (mem : ByteMemory)

def read (off w : Nat) : List UInt8 := (List.range w).map fun k => mem (off + k)

theorem read_congr {mem mem' : ByteMemory} {off w : Nat}
    (h : ∀ i, off ≤ i → i < off + w → mem i = mem' i) : mem.read off w = mem'.read off w := by
  refine List.map_congr_left ?_
  intro k hk
  exact h (off + k) (by omega) (by have := List.mem_range.mp hk; omega)

/-- The byte that a write of `bytes` at `off` puts at `i`. -/
def overlay (off : Nat) (bytes : List UInt8) (i : Nat) : Option UInt8 :=
  if off ≤ i then bytes[i - off]? else none

def write (off : Nat) (bytes : List UInt8) : ByteMemory := fun i =>
  (overlay off bytes i).getD (mem i)

/-- A write leaves the other bytes alone. -/
theorem write_of_not_mem {off i : Nat} {bytes : List UInt8}
    (h : ¬ (off ≤ i ∧ i < off + bytes.length)) : mem.write off bytes i = mem i := by
  have hnone : overlay off bytes i = none := by
    unfold overlay
    split
    · exact List.getElem?_eq_none (by omega)
    · rfl
  rw [write, hnone]
  rfl

theorem read_write (off : Nat) (bytes : List UInt8) :
    (mem.write off bytes).read off bytes.length = bytes := by
  refine List.ext_getElem (by simp [read]) ?_
  intro k hk hk'
  have hget : bytes[k]? = some bytes[k] := List.getElem?_eq_getElem hk'
  simp [read, write, overlay, hget]

/-! ## Pointers -/

/-- The pointer stored at an offset. -/
def readPointer (off : Nat) : UInt64 := UInt64.ofNat (leValue (mem.read off 8))

def pointerBytes (p : UInt64) : List UInt8 := leBytes 8 p.toNat

/-- A pointer that was written is read back. -/
theorem readPointer_write (off : Nat) (p : UInt64) :
    (mem.write off (pointerBytes p)).readPointer off = p := by
  have hread := mem.read_write off (pointerBytes p)
  have hlen : (pointerBytes p).length = 8 := length_leBytes 8 p.toNat
  rw [hlen] at hread
  have hlt := p.toNat_lt
  rw [readPointer, hread, pointerBytes, leValue_leBytes, Nat.mod_eq_of_lt (by omega),
    UInt64.ofNat_toNat]

/-- The pointers at the given offsets, moved by `delta`; each is read from the original. -/
def relocate (slots : List Nat) (delta : UInt64) : ByteMemory :=
  slots.foldl (fun copy off => copy.write off (pointerBytes (mem.readPointer off + delta))) mem

@[simp] theorem relocate_nil (delta : UInt64) : mem.relocate [] delta = mem := rfl

/-- A relocation that moves some pointer changes one of its bytes. -/
theorem relocate_changes {slots : List Nat} (hslots : slots ≠ []) {delta : UInt64}
    (hdelta : delta ≠ 0) :
    ∃ off ∈ slots, ∃ i, off ≤ i ∧ i < off + 8 ∧ mem.relocate slots delta i ≠ mem i := by
  -- the last pointer keeps what the relocation wrote
  let off := slots.getLast hslots
  have hlast : (mem.relocate slots delta).readPointer off = mem.readPointer off + delta := by
    have hsplit : slots = slots.dropLast ++ [off] := (List.dropLast_append_getLast hslots).symm
    rw [relocate, hsplit, List.foldl_append]
    exact readPointer_write _ off _
  refine ⟨off, List.getLast_mem hslots, ?_⟩
  by_contra hsame
  push Not at hsame
  have hread : (mem.relocate slots delta).read off 8 = mem.read off 8 := read_congr hsame
  rw [readPointer, hread, ← readPointer] at hlast
  apply hdelta
  have hadd : mem.readPointer off + 0 = mem.readPointer off + delta := by simpa using hlast
  exact (UInt64.add_right_inj _).mp hadd.symm

/-! ## Programs of writes -/

end ByteMemory

/-- A write to an object. -/
inductive MemWrite
  | bytes (off : Nat) (content : List UInt8)
  /-- A pointer to another place of the object. -/
  | pointer (off target : Nat)
deriving DecidableEq

namespace MemWrite

def off : MemWrite → Nat
  | .bytes off _ => off
  | .pointer off _ => off

/-- What is written, for an object at `base`. -/
def content (base : UInt64) : MemWrite → List UInt8
  | .bytes _ content => content
  | .pointer _ target => ByteMemory.pointerBytes (base + UInt64.ofNat target)

def isBytes : MemWrite → Bool
  | .bytes _ _ => true
  | .pointer _ _ => false

end MemWrite

namespace ByteMemory

/-- The writes, one after the other. -/
def applyAll (base : UInt64) (ws : List MemWrite) (mem : ByteMemory) : ByteMemory :=
  ws.foldl (fun mem w => mem.write w.off (w.content base)) mem

theorem applyAll_append (base : UInt64) (ws ws' : List MemWrite) (mem : ByteMemory) :
    applyAll base (ws ++ ws') mem = applyAll base ws' (applyAll base ws mem) :=
  List.foldl_append

/-- Writes that do not reach a byte leave it alone. -/
theorem applyAll_of_not_mem (base : UInt64) {ws : List MemWrite} {i : Nat}
    (h : ∀ w ∈ ws, ¬ (w.off ≤ i ∧ i < w.off + (w.content base).length)) (mem : ByteMemory) :
    applyAll base ws mem i = mem i := by
  induction ws generalizing mem with
  | nil => rfl
  | cons w ws ih =>
      have hcons : applyAll base (w :: ws) mem
          = applyAll base ws (mem.write w.off (w.content base)) := rfl
      rw [hcons, ih fun w hw => h w (List.mem_cons_of_mem _ hw),
        mem.write_of_not_mem (h w List.mem_cons_self)]

/-- What the writes put at an offset: the last one that reaches it decides. -/
def lastWrite (base : UInt64) : List MemWrite → Nat → Option UInt8
  | [], _ => none
  | w :: ws, i => (lastWrite base ws i).or (overlay w.off (w.content base) i)

theorem applyAll_eq (base : UInt64) (ws : List MemWrite) (mem : ByteMemory) (i : Nat) :
    applyAll base ws mem i = (lastWrite base ws i).getD (mem i) := by
  induction ws generalizing mem with
  | nil => rfl
  | cons w ws ih =>
      have hcons : applyAll base (w :: ws) mem
          = applyAll base ws (mem.write w.off (w.content base)) := rfl
      rw [hcons, ih, lastWrite, write]
      cases lastWrite base ws i <;> rfl

/-- Writes without pointers do not depend on where the object is. -/
theorem lastWrite_base (base base' : UInt64) {ws : List MemWrite}
    (h : ∀ w ∈ ws, w.isBytes = true) (i : Nat) : lastWrite base ws i = lastWrite base' ws i := by
  induction ws with
  | nil => rfl
  | cons w ws ih =>
      have hw : w.content base = w.content base' := by
        cases w with
        | bytes off content => rfl
        | pointer off target => cases h _ List.mem_cons_self
      rw [lastWrite, lastWrite, ih fun w hw => h w (List.mem_cons_of_mem _ hw), hw]

/-- Writing the same bytes again changes nothing. -/
theorem applyAll_again (base base' : UInt64) {ws : List MemWrite}
    (h : ∀ w ∈ ws, w.isBytes = true) {mem mem' : ByteMemory} {i : Nat}
    (hmem : mem' i = applyAll base ws mem i) :
    applyAll base' ws mem' i = applyAll base ws mem i := by
  rw [applyAll_eq base', hmem, applyAll_eq base, lastWrite_base base' base h]
  cases lastWrite base ws i <;> rfl

/-! ## Packing -/

/-- The first `size` bytes, without the zeros at their end. Irreducible: no unifier is to
    compute them. -/
@[irreducible] def pack (size : Nat) (mem : ByteMemory) : List UInt8 :=
  ((List.range size).map mem).rdropWhile (· == 0)

/-- A packed object as a memory. -/
def unpack (packed : List UInt8) : ByteMemory := fun i => packed.getD i 0

@[simp] theorem unpack_nil (i : Nat) : unpack [] i = 0 := rfl

theorem getD_rdropWhile (l : List UInt8) (i : Nat) :
    (l.rdropWhile (· == 0)).getD i 0 = l.getD i 0 := by
  induction l using List.reverseRecOn with
  | nil => rfl
  | append_singleton l b ih =>
      by_cases hb : (b == 0) = true
      · rw [List.rdropWhile_concat_pos (fun x => x == 0) l b hb, ih]
        have hzero : b = 0 := by simpa using hb
        rcases Nat.lt_trichotomy i l.length with hlt | heq | hgt
        · rw [List.getD_append _ _ _ _ hlt]
        · rw [List.getD_eq_default _ _ (by omega), List.getD_append_right _ _ _ _ (by omega)]
          simp [heq, hzero]
        · rw [List.getD_eq_default _ _ (by omega), List.getD_eq_default _ _ (by simp; omega)]
      · rw [List.rdropWhile_concat_neg (fun x => x == 0) l b hb]

theorem unpack_pack (size : Nat) (mem : ByteMemory) (i : Nat) :
    unpack (pack size mem) i = if i < size then mem i else 0 := by
  rw [unpack, pack, getD_rdropWhile]
  split
  · rename_i hlt
    simp [List.getD, hlt]
  · rename_i hge
    exact List.getD_eq_default _ _ (by simpa using hge)

/-- Packed objects are equal when their bytes are. -/
theorem pack_eq_iff {size : Nat} {a b : ByteMemory} :
    pack size a = pack size b ↔ ∀ i < size, a i = b i := by
  constructor
  · intro h i hi
    have hbyte := congrArg (fun packed => unpack packed i) h
    simpa [unpack_pack, hi] using hbyte
  · intro h
    have hmap : (List.range size).map a = (List.range size).map b :=
      List.map_congr_left fun i hi => h i (List.mem_range.mp hi)
    rw [pack, pack, hmap]

/-- A packed object packs to itself. -/
theorem pack_unpack_pack (size : Nat) (mem : ByteMemory) :
    pack size (unpack (pack size mem)) = pack size mem := by
  refine pack_eq_iff.mpr ?_
  intro i hi
  rw [unpack_pack, if_pos hi]

theorem pack_eq_nil_iff {size : Nat} {mem : ByteMemory} :
    pack size mem = [] ↔ ∀ i < size, mem i = 0 := by
  rw [pack, List.rdropWhile_eq_nil_iff]
  simp

end ByteMemory

end SeastarLive
