/-
SeastarLive.Mpeg.TsMuxerTheorems — what the muxer writes in any run.

* `Allocated`: a stream never has the PID of a program or of another stream, and no two programs
  have one PID, so that a PID is as good as a pointer.
* `Counted`: packets have 188 bytes, and the counter of a stream or table is the number of its
  packets.
* `Faithful`: on every PID a receiver puts together what was sent there.
* `Inv` is the three together. `Inv.emit` is its one step with packets, `Inv.quiet` the one
  without; every call is made of these.
* `packets_numbered` and `units_sent` are what follows for every state reached.
-/
import Mathlib.Data.List.Nodup
import SeastarLive.Mpeg.TsMuxer

namespace SeastarLive

open LinePacket Machine

namespace TsMuxer

/-! ## Invariants -/

/-- The PID with the counter of a PID: the SDT is counted with the PAT. -/
def counterOf (pid : Nat) : Nat := if pid = tsPidSdt then tsPidPat else pid

/-- How many packets a counter has counted. -/
def sentOn (packets : List (List UInt8)) (pid : Nat) : Nat :=
  (counted counterOf pid (packets.map tsPacket)).length

/-- The numbers of a program. -/
structure Layout where
  pid : Nat
  pn : Nat
  streams : List Nat

def layout (pmt : PmtT) : Layout := ⟨pmt.pid, pmt.pn, pmt.streams.map PesT.pid⟩

/-- The programs of the muxer, whose next PID is `next`. -/
structure Allocated (programs : List Layout) (next : Nat) : Prop where
  next_range : 0x100 ≤ next ∧ next ≤ 0x1FFF
  distinct : (programs.map Layout.pid).Nodup
  numbers : ∀ p ∈ programs, 0 < p.pn ∧ p.pn < 65536
  range : ∀ p ∈ programs, 0x100 ≤ p.pid ∧ p.pid < next
  stream_range : ∀ p ∈ programs, ∀ pid ∈ p.streams, 0x100 ≤ pid ∧ pid < next
  apart : ∀ p ∈ programs, ∀ q ∈ programs, ∀ pid ∈ q.streams, pid ≠ p.pid
  distinct_streams : ∀ p ∈ programs, p.streams.Nodup
  once : ∀ p ∈ programs, ∀ q ∈ programs, ∀ pid ∈ p.streams, pid ∈ q.streams → p.pid = q.pid

/-- The counters of a program and its streams, by PID. -/
def pmtCounters (pmt : PmtT) : List (Nat × Nat) :=
  (pmt.pid, pmt.cc) :: pmt.streams.map fun s => (s.pid, s.cc)

/-- All counters, by PID. -/
def counters (pat : PatT) : List (Nat × Nat) :=
  (tsPidPat, pat.cc) :: pat.pmts.flatMap pmtCounters

/-- A counter is the number of its packets; PIDs from `next` on have none. -/
structure Counted (cs : List (Nat × Nat)) (next : Nat) (packets : List (List UInt8)) : Prop where
  length : ∀ p ∈ packets, p.length = tsPacketSize
  numbered : WellNumbered 16 counterOf (packets.map tsPacket)
  counter : ∀ x ∈ cs, x.2 % 16 = sentOn packets x.1 % 16
  fresh : ∀ pid, next ≤ pid → sentOn packets pid = 0

/-- A unit that was put together is a first part of what was sent, and all of it if that was
    written whole. -/
def Received (unit : List UInt8) (sent : TsUnit) : Prop :=
  unit <+: sent.bytes ∧ (sent.whole = true → unit = sent.bytes)

/-- What was sent on a PID. -/
def sentUnits (sent : List TsUnit) (pid : Nat) : List TsUnit :=
  sent.filter fun u => u.pid % 8192 = pid

/-- Every PID carries what was sent on it. -/
def Faithful (output : TsOutput) : Prop :=
  ∀ pid, List.Forall₂ Received (units (on pid (output.packets.map tsPacket)))
    (sentUnits output.sent pid)

structure Inv (pat : PatT) (next : Nat) (output : TsOutput) : Prop where
  allocated : Allocated (pat.pmts.map layout) next
  counted : Counted (counters pat) next output.packets
  faithful : Faithful output

/-! ## More packets -/

section Extend

variable {pid first last : Nat} {ps : List (List UInt8)}

theorem channel_counterOf (h : Sends pid first last ps) (hpid : pid < 8192) :
    ∀ p ∈ ps.map tsPacket, counterOf p.channel = counterOf pid := by
  intro p hp
  rw [h.channel p hp, Nat.mod_eq_of_lt hpid]

theorem sentOn_append (h : Sends pid first last ps) (hpid : pid < 8192)
    (packets : List (List UInt8)) (q : Nat) :
    sentOn (packets ++ ps) q = sentOn packets q + if counterOf pid = q then ps.length else 0 := by
  unfold sentOn
  rw [List.map_append, length_counted_append (channel_counterOf h hpid), List.length_map]

/-- The counter of the packets goes on by their number, and no other one. -/
theorem Counted.extend {cs cs' : List (Nat × Nat)} {next : Nat} {packets : List (List UInt8)}
    (h : Counted cs next packets) (hs : Sends pid first last ps) (hpid : pid < 8192)
    (hmem : (counterOf pid, first) ∈ cs) (hnext : counterOf pid < next)
    (hcs : ∀ x ∈ cs', x.1 ≠ counterOf pid ∧ x ∈ cs ∨ x = (counterOf pid, last)) :
    Counted cs' next (packets ++ ps) where
  length := List.forall_mem_append.mpr ⟨h.length, hs.length⟩
  numbered := by
    rw [List.map_append]
    exact h.numbered.append (channel_counterOf hs hpid) hs.numbered (h.counter _ hmem)
  counter := by
    intro x hx
    rw [sentOn_append hs hpid]
    obtain ⟨hne, hold⟩ | rfl := hcs x hx
    · rw [if_neg (Ne.symm hne)]
      exact h.counter x hold
    · have hfirst : first % 16 = sentOn packets (counterOf pid) % 16 := h.counter _ hmem
      have hlast := hs.counter
      rw [if_pos rfl]
      dsimp only
      omega
  fresh q hq := by
    rw [sentOn_append hs hpid, h.fresh q hq, if_neg (by omega)]

theorem Faithful.extend {output : TsOutput} (h : Faithful output) {unit : List UInt8}
    (hcarries : Carries (pid % 8192) unit (ps.map tsPacket)) {bytes : List UInt8} {whole : Bool}
    (hfront : unit <+: bytes) (hwhole : whole = true → unit = bytes) :
    Faithful ⟨output.packets ++ ps, output.sent ++ [⟨pid, bytes, whole⟩]⟩ := by
  intro c
  unfold sentUnits
  dsimp only
  rw [List.map_append, List.filter_append]
  by_cases hc : pid % 8192 = c
  · have hunit : [TsUnit.mk pid bytes whole].filter (fun u => u.pid % 8192 = c)
        = [⟨pid, bytes, whole⟩] := List.filter_cons_of_pos (decide_eq_true hc)
    rw [hunit, ← hc, units_on_carries hcarries]
    exact List.rel_append (h _) (.cons ⟨hfront, hwhole⟩ .nil)
  · have hunit : [TsUnit.mk pid bytes whole].filter (fun u => u.pid % 8192 = c) = [] :=
      List.filter_cons_of_neg (by simpa using hc)
    have hother : ∀ p ∈ ps.map tsPacket, p.channel ≠ c := by
      intro p hp
      rw [hcarries.channel p hp]
      exact hc
    rw [hunit, List.append_nil, units_on_other hother]
    exact h c

variable {pat pat' : PatT} {next : Nat} {output : TsOutput}

/-- Packets of one PID, whose counter goes on; the programs stay. -/
theorem Inv.emit (h : Inv pat next output) (hs : Sends pid first last ps) (hpid : pid < 8192)
    (hmem : (counterOf pid, first) ∈ counters pat) (hnext : counterOf pid < next)
    (hlayout : pat'.pmts.map layout = pat.pmts.map layout)
    (hcounters : ∀ x ∈ counters pat',
      x.1 ≠ counterOf pid ∧ x ∈ counters pat ∨ x = (counterOf pid, last))
    {sent : List TsUnit} (hfaithful : Faithful ⟨output.packets ++ ps, sent⟩) :
    Inv pat' next ⟨output.packets ++ ps, sent⟩ where
  allocated := by
    rw [hlayout]
    exact h.allocated
  counted := h.counted.extend hs hpid hmem hnext hcounters
  faithful := hfaithful

/-- Nothing is written, and no counter is new. -/
theorem Inv.quiet (h : Inv pat next output) (hlayout : pat'.pmts.map layout = pat.pmts.map layout)
    (hcounters : ∀ x ∈ counters pat', x ∈ counters pat) : Inv pat' next output where
  allocated := by
    rw [hlayout]
    exact h.allocated
  counted := { h.counted with counter := fun x hx => h.counted.counter x (hcounters x hx) }
  faithful := h.faithful

end Extend

/-! ## PIDs -/

section Pids

variable {pat : PatT} {next : Nat} {output : TsOutput}

theorem layout_mem {pmt : PmtT} (hpmt : pmt ∈ pat.pmts) : layout pmt ∈ pat.pmts.map layout :=
  List.mem_map_of_mem hpmt

theorem Inv.program_range (h : Inv pat next output) {pmt : PmtT} (hpmt : pmt ∈ pat.pmts) :
    0x100 ≤ pmt.pid ∧ pmt.pid < next := h.allocated.range _ (layout_mem hpmt)

theorem Inv.stream_range (h : Inv pat next output) {pmt : PmtT} (hpmt : pmt ∈ pat.pmts)
    {s : PesT} (hs : s ∈ pmt.streams) : 0x100 ≤ s.pid ∧ s.pid < next :=
  h.allocated.stream_range _ (layout_mem hpmt) _ (List.mem_map_of_mem hs)

theorem Inv.stream_ne (h : Inv pat next output) {pmt pmt' : PmtT} (hpmt : pmt ∈ pat.pmts)
    (hpmt' : pmt' ∈ pat.pmts) {s : PesT} (hs : s ∈ pmt'.streams) : s.pid ≠ pmt.pid :=
  h.allocated.apart _ (layout_mem hpmt) _ (layout_mem hpmt') _ (List.mem_map_of_mem hs)

theorem Inv.program_eq (h : Inv pat next output) {pmt pmt' : PmtT} (hpmt : pmt ∈ pat.pmts)
    (hpmt' : pmt' ∈ pat.pmts) (hpid : pmt.pid = pmt'.pid) : pmt = pmt' := by
  have hdistinct := h.allocated.distinct
  rw [List.map_map] at hdistinct
  exact List.inj_on_of_nodup_map hdistinct hpmt hpmt' hpid

/-- A PID is that of one stream. -/
theorem Inv.stream_eq (h : Inv pat next output) {pmt pmt' : PmtT} (hpmt : pmt ∈ pat.pmts)
    (hpmt' : pmt' ∈ pat.pmts) {s s' : PesT} (hs : s ∈ pmt.streams) (hs' : s' ∈ pmt'.streams)
    (hpid : s.pid = s'.pid) : s = s' := by
  have hmem : s.pid ∈ (layout pmt').streams := hpid ▸ List.mem_map_of_mem hs'
  have hprogram : pmt.pid = pmt'.pid :=
    h.allocated.once _ (layout_mem hpmt) _ (layout_mem hpmt') _ (List.mem_map_of_mem hs) hmem
  obtain rfl := h.program_eq hpmt hpmt' hprogram
  exact List.inj_on_of_nodup_map (h.allocated.distinct_streams _ (layout_mem hpmt)) hs hs' hpid

theorem mem_counters {x : Nat × Nat} : x ∈ counters pat ↔ x = (tsPidPat, pat.cc)
    ∨ ∃ pmt ∈ pat.pmts, x = (pmt.pid, pmt.cc) ∨ ∃ s ∈ pmt.streams, x = (s.pid, s.cc) := by
  simp only [counters, pmtCounters, List.mem_cons, List.mem_flatMap, List.mem_map, eq_comm]

theorem mem_counters_program {pmt : PmtT} (hpmt : pmt ∈ pat.pmts) :
    (pmt.pid, pmt.cc) ∈ counters pat := mem_counters.mpr (.inr ⟨pmt, hpmt, .inl rfl⟩)

theorem mem_counters_stream {pmt : PmtT} (hpmt : pmt ∈ pat.pmts) {s : PesT}
    (hs : s ∈ pmt.streams) : (s.pid, s.cc) ∈ counters pat :=
  mem_counters.mpr (.inr ⟨pmt, hpmt, .inr ⟨s, hs, rfl⟩⟩)

theorem counterOf_of_range {pid : Nat} (h : 0x100 ≤ pid) : counterOf pid = pid :=
  if_neg (fun heq => by rw [heq] at h; exact absurd h (by decide))

theorem ne_tsPidPat {pid : Nat} (h : 0x100 ≤ pid) : pid ≠ tsPidPat := by
  unfold tsPidPat
  omega

end Pids

/-! ## Sections -/

/-- A section that fits is written as one packet, or the call fails before it. -/
theorem writeSection_spec (func : TsFunc) (pid cc : Nat) {bytes : List UInt8}
    (hfits : bytes.length < sectionRoom) {output : TsOutput} (hf : Faithful output) :
    ∃ r cc' ps sent, writeSection func pid cc bytes output = (r, cc', ⟨output.packets ++ ps, sent⟩)
      ∧ Sends pid cc cc' ps ∧ Faithful ⟨output.packets ++ ps, sent⟩ := by
  unfold writeSection
  split
  · refine ⟨enomem, cc, [], output.sent, ?_, .nil pid cc, ?_⟩
    · rw [List.append_nil]
    · rw [List.append_nil]
      exact hf
  · have hpacket := tsPacket_sectionPacket pid cc bytes
    have hsends : Sends pid cc ((cc + 1) % 16) [sectionPacket pid cc bytes] :=
      .cons (length_sectionPacket pid cc hfits) (by rw [hpacket]) (by rw [hpacket]) (.nil _ _)
    exact ⟨_, _, [sectionPacket pid cc bytes], _, rfl, hsends,
      hf.extend (carries_sectionPacket pid cc bytes) List.prefix_rfl fun _ => rfl⟩

/-! ## Tables -/

/-- The invariant of a muxer. -/
def Sound (m : TsMuxer) : Prop := Inv m.pat m.pid m.output

section Tables

variable {func : TsFunc} {pat : PatT} {next : Nat} {output : TsOutput}

/-- A section with the counter of the PAT. -/
theorem sound_emitSection (func : TsFunc) {m : TsMuxer} (h : Sound m) {pid : Nat}
    (hpid : counterOf pid = tsPidPat) (hlt : pid < 8192) {bytes : List UInt8}
    (hfits : bytes.length < sectionRoom) : Sound (emitSection func pid bytes m).2 := by
  obtain ⟨r, cc, ps, sent, hwrite, hsends, hfaithful⟩ :=
    writeSection_spec func pid m.pat.cc hfits h.faithful
  have hrange := h.allocated.next_range
  unfold emitSection
  rw [hwrite]
  change Inv { m.pat with cc } m.pid ⟨_, sent⟩
  refine h.emit hsends hlt ?_ ?_ ?_ ?_ hfaithful
  · rw [hpid]
    exact List.mem_cons_self
  · rw [hpid]
    change 0 < m.pid
    omega
  · rfl
  · intro x hx
    rw [hpid]
    obtain rfl | ⟨pmt, hpmt, hx⟩ := mem_counters.mp hx
    · exact .inr rfl
    have hpmt : pmt ∈ m.pat.pmts := hpmt
    obtain rfl | ⟨s, hs, rfl⟩ := hx
    · exact .inl ⟨ne_tsPidPat (h.program_range hpmt).1, mem_counters_program hpmt⟩
    · exact .inl ⟨ne_tsPidPat (h.stream_range hpmt hs).1, mem_counters_stream hpmt hs⟩

/-- The packet of a program's table changes the counter of the program only. -/
theorem Inv.counters_program {done rest : List PmtT} {pmt : PmtT}
    (h : Inv { pat with pmts := done ++ pmt :: rest } next output) {cc : Nat} {x : Nat × Nat}
    (hx : x ∈ counters { pat with pmts := done ++ { pmt with cc } :: rest }) :
    x.1 ≠ pmt.pid ∧ x ∈ counters { pat with pmts := done ++ pmt :: rest }
      ∨ x = (pmt.pid, cc) := by
  have hpmt : pmt ∈ done ++ pmt :: rest := List.mem_append_right _ List.mem_cons_self
  have hrange := h.program_range hpmt
  have hdistinct := h.allocated.distinct
  simp only [List.map_append, List.map_cons, List.nodup_append, List.nodup_cons] at hdistinct
  -- another program has another PID, and no stream has a program's
  have hother : ∀ p ∈ done ++ pmt :: rest, p.pid ≠ pmt.pid →
      (x = (p.pid, p.cc) ∨ ∃ s ∈ p.streams, x = (s.pid, s.cc)) →
      x.1 ≠ pmt.pid ∧ x ∈ counters { pat with pmts := done ++ pmt :: rest } := by
    rintro p hp hne (rfl | ⟨s, hs, rfl⟩)
    · exact ⟨hne, mem_counters_program hp⟩
    · exact ⟨h.stream_ne hpmt hp hs, mem_counters_stream hp hs⟩
  obtain rfl | ⟨p, hp, hx⟩ := mem_counters.mp hx
  · exact .inl ⟨(ne_tsPidPat hrange.1).symm, List.mem_cons_self⟩
  obtain hdone | hp := List.mem_append.mp hp
  · refine .inl (hother p (List.mem_append_left _ hdone) (fun heq => ?_) hx)
    exact hdistinct.2.2 _ (List.mem_map_of_mem (List.mem_map_of_mem hdone)) _ List.mem_cons_self heq
  obtain rfl | hrest := List.mem_cons.mp hp
  · obtain rfl | ⟨s, hs, rfl⟩ := hx
    · exact .inr rfl
    · have hs : s ∈ pmt.streams := hs
      exact .inl ⟨h.stream_ne hpmt hpmt hs, mem_counters_stream hpmt hs⟩
  · refine .inl (hother p (List.mem_append_right _ (List.mem_cons_of_mem _ hrest)) ?_ hx)
    intro heq
    refine hdistinct.2.1.1 ?_
    change pmt.pid ∈ _
    rw [← heq]
    exact List.mem_map_of_mem (List.mem_map_of_mem hrest)

/-- The programs from one on: those before it are done. -/
theorem inv_writePmts (func : TsFunc) {done rest : List PmtT}
    (h : Inv { pat with pmts := done ++ rest } next output)
    (hfits : ∀ pmt ∈ rest, (pmtWrite pmt).length < sectionRoom) :
    Inv { pat with pmts := done ++ (writePmts func rest output).2.1 } next
      (writePmts func rest output).2.2 := by
  induction rest generalizing done output with
  | nil => exact h
  | cons pmt rest ih =>
      have hpmt : pmt ∈ done ++ pmt :: rest := List.mem_append_right _ List.mem_cons_self
      obtain ⟨hfirst, hothers⟩ := List.forall_mem_cons.mp hfits
      have hrange := h.program_range hpmt
      have hnext := h.allocated.next_range
      have hcounter := counterOf_of_range hrange.1
      obtain ⟨r, cc, ps, sent, hwrite, hsends, hfaithful⟩ :=
        writeSection_spec func pmt.pid pmt.cc hfirst h.faithful
      have hstep : Inv { pat with pmts := done ++ { pmt with cc } :: rest } next
          ⟨output.packets ++ ps, sent⟩ := by
        refine h.emit hsends (by omega) ?_ (by omega) ?_ ?_ hfaithful
        · rw [hcounter]
          exact mem_counters_program hpmt
        · rw [List.map_append, List.map_append]
          rfl
        · rw [hcounter]
          exact fun x hx => h.counters_program hx
      unfold writePmts
      rw [hwrite]
      dsimp only
      split
      · exact hstep
      · have hdone : ∀ ps : List PmtT, done ++ { pmt with cc } :: ps
            = (done ++ [{ pmt with cc }]) ++ ps := fun ps => by simp
        rw [hdone] at hstep ⊢
        exact ih hstep hothers

theorem streams_writePmts (func : TsFunc) (pmts : List PmtT) (output : TsOutput) :
    (writePmts func pmts output).2.1.map PmtT.streams = pmts.map PmtT.streams := by
  induction pmts generalizing output with
  | nil => rfl
  | cons pmt rest ih =>
      unfold writePmts
      dsimp only
      split
      · rfl
      · rw [List.map_cons, List.map_cons, ih]

/-- Where one step ends in `P` and the next leads from `P` to `Q`, both do, if the first fails
    with `Q`. -/
theorem andThen_spec {P Q : TsMuxer → Prop} {x : Int × TsMuxer} {f : TsMuxer → Int × TsMuxer}
    (hx : P x.2) (hstop : ∀ m, P m → Q m) (hf : ∀ m, P m → Q (f m).2) : Q (andThen x f).2 := by
  unfold andThen
  split
  · exact hstop _ hx
  · exact hf _ hx

/-- The tables leave the streams as they are. -/
theorem sound_emitTables (func : TsFunc) (dts : Int) {m : TsMuxer} (h : Sound m)
    (hfits : m.pat.TablesFit) :
    Sound (emitTables func dts m).2
      ∧ (emitTables func dts m).2.pat.pmts.map PmtT.streams = m.pat.pmts.map PmtT.streams := by
  -- up to the tables of the programs, the programs stay as they are
  have hsdt : Sound (emitSdt func dts m).2 ∧ (emitSdt func dts m).2.pat.pmts = m.pat.pmts := by
    unfold emitSdt
    split
    · exact ⟨sound_emitSection func (m := { m with sdtPeriod := dts }) h rfl (by decide)
        (length_sdtWrite m.pat), rfl⟩
    · exact ⟨h, rfl⟩
  unfold emitTables
  generalize emitSdt func dts m = sdt at hsdt
  have hkeeps : ∀ t : TsMuxer, Sound t ∧ t.pat.pmts = m.pat.pmts →
      Sound t ∧ t.pat.pmts.map PmtT.streams = m.pat.pmts.map PmtT.streams :=
    fun t ht => ⟨ht.1, congrArg _ ht.2⟩
  refine andThen_spec (Q := fun t => Sound t
    ∧ t.pat.pmts.map PmtT.streams = m.pat.pmts.map PmtT.streams) hsdt hkeeps fun m₁ h₁ => ?_
  have hpat : (patWrite m₁.pat).length < sectionRoom := by
    rw [length_patWrite, h₁.2, ← length_patWrite]
    exact hfits.1
  refine andThen_spec (Q := fun t => Sound t
    ∧ t.pat.pmts.map PmtT.streams = m.pat.pmts.map PmtT.streams)
    ⟨sound_emitSection func h₁.1 rfl (by decide) hpat, h₁.2⟩ hkeeps fun m₂ h₂ => ?_
  have hpmts : Inv { m₂.pat with pmts := [] ++ m₂.pat.pmts } m₂.pid m₂.output := h₂.1
  have hfitsPmts : ∀ pmt ∈ m₂.pat.pmts, (pmtWrite pmt).length < sectionRoom := by
    rw [h₂.2]
    exact hfits.2
  exact ⟨inv_writePmts func hpmts hfitsPmts,
    (streams_writePmts func _ _).trans (congrArg _ h₂.2)⟩

end Tables

/-! ## Frames -/

section Frames

variable {pat : PatT} {next : Nat} {output : TsOutput}

theorem layout_put (stream : PesT) (pmt : PmtT) : layout (PmtT.put stream pmt) = layout pmt := by
  have hpids : (pmt.streams.map fun s => if s.pid = stream.pid then stream else s).map PesT.pid
      = pmt.streams.map PesT.pid := by
    rw [List.map_map]
    refine List.map_congr_left fun s _ => ?_
    rw [Function.comp_apply]
    split
    · rename_i h
      exact h.symm
    · rfl
  exact congrArg (Layout.mk pmt.pid pmt.pn) hpids

theorem layout_setPcr (pid pcrPid : Nat) (pmt : PmtT) :
    layout (PmtT.setPcr pid pcrPid pmt) = layout pmt := by
  unfold PmtT.setPcr
  split <;> rfl

theorem pmtCounters_setPcr (pid pcrPid : Nat) (pmt : PmtT) :
    pmtCounters (PmtT.setPcr pid pcrPid pmt) = pmtCounters pmt := by
  unfold PmtT.setPcr
  split <;> rfl

theorem map_layout {f : PmtT → PmtT} (hf : ∀ pmt, layout (f pmt) = layout pmt)
    (pmts : List PmtT) : (pmts.map f).map layout = pmts.map layout := by
  rw [List.map_map]
  exact List.map_congr_left fun pmt _ => hf pmt

/-- A stream that is put back changes its own counter only. -/
theorem Inv.counters_put (h : Inv pat next output) {stream : PesT} {pmt : PmtT}
    (hpmt : pmt ∈ pat.pmts) {old : PesT} (hold : old ∈ pmt.streams) (hpid : old.pid = stream.pid)
    {x : Nat × Nat} (hx : x ∈ counters { pat with pmts := pat.pmts.map (PmtT.put stream) }) :
    x.1 ≠ stream.pid ∧ x ∈ counters pat ∨ x = (stream.pid, stream.cc) := by
  obtain rfl | ⟨p, hp, hx⟩ := mem_counters.mp hx
  · refine .inl ⟨?_, List.mem_cons_self⟩
    rw [← hpid]
    exact (ne_tsPidPat (h.stream_range hpmt hold).1).symm
  obtain ⟨q, hq, rfl⟩ := List.mem_map.mp hp
  obtain rfl | ⟨s, hs, rfl⟩ := hx
  · have hprogram : (q.pid, q.cc) ∈ counters pat := mem_counters_program hq
    refine .inl ⟨?_, hprogram⟩
    rw [← hpid]
    exact (h.stream_ne hq hpmt hold).symm
  · obtain ⟨s, hs', rfl⟩ := List.mem_map.mp hs
    split
    · exact .inr rfl
    · rename_i hne
      exact .inl ⟨hne, mem_counters_stream hq hs'⟩

/-- A frame of a stream of the muxer. -/
theorem sound_sendFrame (func : TsFunc) {m : TsMuxer} (h : Sound m) {pmt : PmtT}
    (hpmt : pmt ∈ m.pat.pmts) {stream : PesT} (hstream : stream ∈ pmt.streams) (pcrPid : Nat)
    (data : List UInt8) : Sound (sendFrame func stream pcrPid data m).2 := by
  have hrange := h.stream_range hpmt hstream
  have hnext := h.allocated.next_range
  have hcounter := counterOf_of_range hrange.1
  -- what is left to show of any packets that `ts_write_pes` may write
  have hsent : ∀ {cc : Nat} {ps : List (List UInt8)} {sent : List TsUnit},
      Sends stream.pid stream.cc cc ps → Faithful ⟨m.output.packets ++ ps, sent⟩ →
      Inv { m.pat with pmts := m.pat.pmts.map (PmtT.put { stream with cc }) } m.pid
        ⟨m.output.packets ++ ps, sent⟩ := by
    intro cc ps sent hsends hfaithful
    refine h.emit hsends (by omega) ?_ (by omega) (map_layout (layout_put _) _) ?_ hfaithful
    · rw [hcounter]
      exact mem_counters_stream hpmt hstream
    · rw [hcounter]
      intro x hx
      have hpid : stream.pid = { stream with cc }.pid := rfl
      exact h.counters_put hpmt hstream hpid hx
  unfold sendFrame
  by_cases hdata : data = []
  · subst hdata
    have hfaithful : Faithful ⟨m.output.packets ++ [], m.output.sent⟩ := by
      rw [List.append_nil]
      exact h.faithful
    have hnone := hsent (.nil stream.pid stream.cc) hfaithful
    rw [List.append_nil] at hnone
    change Inv _ _ ⟨_, if m.output.packets = m.output.packets then _ else _⟩
    rw [if_pos rfl]
    exact hnone
  · obtain ⟨r, cc, ps, unit, hwrite, hsends, hcarries, hfront, hall⟩ :=
      tsWritePes_carries func pcrPid m.withAud stream m.output.packets hdata
    rw [hwrite]
    refine hsent hsends ?_
    split
    · rename_i hnil
      obtain rfl : ps = [] := List.append_right_eq_self.mp hnil
      rw [List.append_nil]
      exact h.faithful
    · rename_i hps
      refine h.faithful.extend (hcarries fun hnil => hps ?_) hfront fun hr => ?_
      · rw [hnil, List.append_nil]
      · exact (hall (of_decide_eq_true hr)).2

theorem find_mem {m : TsMuxer} {pid : Nat} {pmt : PmtT} {stream : PesT}
    (h : m.find pid = some (pmt, stream)) :
    pmt ∈ m.pat.pmts ∧ stream ∈ pmt.streams ∧ stream.pid = pid := by
  obtain ⟨p, hp, hfound⟩ := List.exists_of_findSome?_eq_some h
  obtain ⟨s, hs, heq⟩ := Option.map_eq_some_iff.mp hfound
  obtain ⟨rfl, rfl⟩ := Prod.mk.inj heq
  exact ⟨hp, List.mem_of_find?_eq_some hs, by simpa using List.find?_some hs⟩

theorem layout_prepare (m : TsMuxer) (program : PmtT) (stream : PesT) (withAud : Bool) :
    (m.prepare program stream withAud).pat.pmts.map layout = m.pat.pmts.map layout := by
  have hput := map_layout (layout_put stream) m.pat.pmts
  unfold prepare
  dsimp only
  split
  · exact (map_layout (layout_setPcr _ _) _).trans hput
  · exact hput

/-- What `mpeg_ts_write` notes of a frame leaves PIDs and counters as they are. -/
theorem sound_prepare {m : TsMuxer} (h : Sound m) {pmt : PmtT} (hpmt : pmt ∈ m.pat.pmts)
    {old : PesT} (hold : old ∈ pmt.streams) {stream : PesT} (hpid : old.pid = stream.pid)
    (hcc : old.cc = stream.cc) (program : PmtT) (withAud : Bool) :
    Sound (m.prepare program stream withAud) := by
  have hput : ∀ x ∈ counters { m.pat with pmts := m.pat.pmts.map (PmtT.put stream) },
      x ∈ counters m.pat := by
    intro x hx
    obtain hx | rfl := h.counters_put hpmt hold hpid hx
    · exact hx.2
    · rw [← hpid, ← hcc]
      exact mem_counters_stream hpmt hold
  have hlayout := layout_prepare m program stream withAud
  unfold prepare at hlayout ⊢
  dsimp only at hlayout ⊢
  split
  · rename_i hchanges
    rw [if_pos hchanges] at hlayout
    refine h.quiet hlayout fun x hx => hput x ?_
    unfold counters at hx ⊢
    rw [List.flatMap_map] at hx
    simp only [pmtCounters_setPcr] at hx
    exact hx
  · rename_i hchanges
    rw [if_neg hchanges] at hlayout
    exact h.quiet hlayout hput

theorem mem_streams_prepare (m : TsMuxer) {pmt : PmtT} (hpmt : pmt ∈ m.pat.pmts) {old : PesT}
    (hold : old ∈ pmt.streams) {stream : PesT} (hpid : old.pid = stream.pid) (program : PmtT)
    (withAud : Bool) :
    ∃ ss ∈ (m.prepare program stream withAud).pat.pmts.map PmtT.streams, stream ∈ ss := by
  have hput : stream ∈ (PmtT.put stream pmt).streams :=
    List.mem_map.mpr ⟨old, hold, if_pos hpid⟩
  have hmem : PmtT.put stream pmt ∈ m.pat.pmts.map (PmtT.put stream) := List.mem_map_of_mem hpmt
  unfold prepare
  dsimp only
  split
  · refine ⟨_, List.mem_map_of_mem (List.mem_map_of_mem hmem), ?_⟩
    unfold PmtT.setPcr
    split <;> exact hput
  · exact ⟨_, List.mem_map_of_mem hmem, hput⟩

/-- A program whose stream is changed in what its table does not say. -/
theorem length_pmtWrite_put {stream : PesT} {pmt : PmtT} (hsame : ∀ s ∈ pmt.streams,
      s.pid = stream.pid → stream.codecid = s.codecid ∧ stream.esinfo = s.esinfo) :
    (pmtWrite (PmtT.put stream pmt)).length = (pmtWrite pmt).length := by
  have hread : ∀ s ∈ pmt.streams, (if s.pid = stream.pid then stream else s).pid = s.pid
      ∧ (if s.pid = stream.pid then stream else s).codecid = s.codecid
      ∧ (if s.pid = stream.pid then stream else s).esinfo = s.esinfo := by
    intro s hs
    split
    · rename_i hpid
      exact ⟨hpid.symm, hsame s hs hpid⟩
    · exact ⟨rfl, rfl, rfl⟩
  rw [length_pmtWrite, length_pmtWrite]
  exact congrArg (fun bytes : List UInt8 => 16 + pmt.pminfo.length + bytes.length)
    (pmtWriteStreams_map hread (12 + pmt.pminfo.length))

theorem length_pmtWrite_setPcr (pid pcrPid : Nat) (pmt : PmtT) :
    (pmtWrite (PmtT.setPcr pid pcrPid pmt)).length = (pmtWrite pmt).length := by
  rw [length_pmtWrite, length_pmtWrite]
  unfold PmtT.setPcr
  split <;> rfl

/-- What `mpeg_ts_write` notes of a frame leaves the tables as long as they are. -/
theorem tablesFit_prepare {m : TsMuxer} (h : Sound m) (hfits : m.pat.TablesFit) {pmt : PmtT}
    (hpmt : pmt ∈ m.pat.pmts) {old : PesT} (hold : old ∈ pmt.streams) (flags : Nat) (pts dts : Int)
    (program : PmtT) (withAud : Bool) :
    (m.prepare program (atFrame old flags pts dts) withAud).pat.TablesFit := by
  have hput : ∀ p ∈ m.pat.pmts,
      (pmtWrite (PmtT.put (atFrame old flags pts dts) p)).length < sectionRoom := by
    intro p hp
    rw [length_pmtWrite_put fun s hs hpid => ?_]
    · exact hfits.2 p hp
    · obtain rfl := h.stream_eq hp hpmt hs hold hpid
      exact ⟨rfl, rfl⟩
  have hfew := hfits.1
  rw [length_patWrite] at hfew
  unfold prepare
  dsimp only
  split
  · refine ⟨?_, List.forall_mem_map.mpr (List.forall_mem_map.mpr fun p hp => ?_)⟩
    · rw [length_patWrite, List.length_map, List.length_map]
      exact hfew
    · rw [length_pmtWrite_setPcr]
      exact hput p hp
  · refine ⟨?_, List.forall_mem_map.mpr hput⟩
    rw [length_patWrite, List.length_map]
    exact hfew

/-- The tables that are due leave the streams where they are. -/
theorem sound_sendTables (func : TsFunc) (dts : Int) {m : TsMuxer} (h : Sound m)
    (hfits : m.pat.TablesFit) :
    Sound (sendTables func dts m).2
      ∧ (sendTables func dts m).2.pat.pmts.map PmtT.streams = m.pat.pmts.map PmtT.streams := by
  unfold sendTables
  split
  · have hdue : Sound { m with patCycle := 0, patPeriod := dts } := h
    exact sound_emitTables func dts hdue hfits
  · exact ⟨h, rfl⟩

theorem sound_write (func : TsFunc) {m : TsMuxer} (h : Sound m) (hfits : m.pat.TablesFit)
    (pid flags : Nat) (pts dts : Int) (data : List UInt8) :
    Sound (m.write func pid flags pts dts data).2 := by
  unfold write
  split
  · exact h
  · rename_i pmt stream hfind
    obtain ⟨hpmt, hold, -⟩ := find_mem hfind
    have hpid : stream.pid = (atFrame stream flags pts dts).pid := rfl
    have hcc : stream.cc = (atFrame stream flags pts dts).cc := rfl
    have hprepared := sound_prepare h hpmt hold hpid hcc pmt (flags / 0x8000 % 2 = 1)
    obtain ⟨ss, hss, hmem⟩ :=
      mem_streams_prepare m hpmt hold hpid pmt (flags / 0x8000 % 2 = 1)
    have htables := sound_sendTables func dts hprepared
      (tablesFit_prepare h hfits hpmt hold flags pts dts pmt _)
    rw [← htables.2] at hss
    dsimp only
    generalize sendTables func dts _ = tables at htables hss
    refine andThen_spec (P := fun t => Sound t ∧ ss ∈ t.pat.pmts.map PmtT.streams)
      ⟨htables.1, hss⟩ (fun _ ht => ht.1) fun t ht => ?_
    obtain ⟨program, hprogram, rfl⟩ := List.mem_map.mp ht.2
    exact sound_sendFrame func ht.1 hprogram hmem _ data

end Frames

/-! ## Programs and streams -/

section Programs

variable {ps : List Layout} {next : Nat}

theorem Allocated.program (h : Allocated ps next) (hnext : next < 0x1FFF) {pn : Nat}
    (hpn : 0 < pn ∧ pn < 65536) : Allocated (ps ++ [⟨next, pn, []⟩]) (next + 1) where
  next_range := ⟨Nat.le_succ_of_le h.next_range.1, hnext⟩
  distinct := by
    rw [List.map_append, List.nodup_append]
    refine ⟨h.distinct, List.nodup_singleton next, ?_⟩
    rintro pid hpid _ hnew rfl
    obtain rfl := List.mem_singleton.mp hnew
    obtain ⟨p, hp, heq⟩ := List.mem_map.mp hpid
    exact Nat.lt_irrefl _ (heq ▸ (h.range p hp).2)
  numbers := List.forall_mem_append.mpr ⟨h.numbers, List.forall_mem_singleton.mpr hpn⟩
  range := List.forall_mem_append.mpr
    ⟨fun p hp => ⟨(h.range p hp).1, Nat.lt_succ_of_lt (h.range p hp).2⟩,
      List.forall_mem_singleton.mpr ⟨h.next_range.1, Nat.lt_succ_self next⟩⟩
  stream_range := List.forall_mem_append.mpr
    ⟨fun p hp pid hpid => ⟨(h.stream_range p hp pid hpid).1,
        Nat.lt_succ_of_lt (h.stream_range p hp pid hpid).2⟩,
      List.forall_mem_singleton.mpr (List.forall_mem_nil _)⟩
  apart := by
    intro p hp q hq pid hpid
    obtain hq | hq := List.mem_append.mp hq
    · obtain hp | hp := List.mem_append.mp hp
      · exact h.apart p hp q hq pid hpid
      · obtain rfl := List.mem_singleton.mp hp
        exact Nat.ne_of_lt (h.stream_range q hq pid hpid).2
    · obtain rfl := List.mem_singleton.mp hq
      exact absurd hpid List.not_mem_nil
  distinct_streams := List.forall_mem_append.mpr
    ⟨h.distinct_streams, List.forall_mem_singleton.mpr List.nodup_nil⟩
  once := by
    intro p hp q hq pid hpid hpid'
    obtain hp | hp := List.mem_append.mp hp
    · obtain hq | hq := List.mem_append.mp hq
      · exact h.once p hp q hq pid hpid hpid'
      · obtain rfl := List.mem_singleton.mp hq
        exact absurd hpid' List.not_mem_nil
    · obtain rfl := List.mem_singleton.mp hp
      exact absurd hpid List.not_mem_nil

theorem Allocated.sublist (h : Allocated ps next) {qs : List Layout} (hsub : qs.Sublist ps) :
    Allocated qs next where
  next_range := h.next_range
  distinct := h.distinct.sublist (hsub.map _)
  numbers p hp := h.numbers p (hsub.subset hp)
  range p hp := h.range p (hsub.subset hp)
  stream_range p hp := h.stream_range p (hsub.subset hp)
  apart p hp q hq := h.apart p (hsub.subset hp) q (hsub.subset hq)
  distinct_streams p hp := h.distinct_streams p (hsub.subset hp)
  once p hp q hq := h.once p (hsub.subset hp) q (hsub.subset hq)

/-- A program gets a stream with a new PID. -/
def Layout.add (pid new : Nat) (p : Layout) : Layout :=
  if p.pid = pid then { p with streams := p.streams ++ [new] } else p

theorem Layout.add_pid (pid new : Nat) (p : Layout) : (p.add pid new).pid = p.pid := by
  unfold Layout.add
  split <;> rfl

theorem Layout.add_pn (pid new : Nat) (p : Layout) : (p.add pid new).pn = p.pn := by
  unfold Layout.add
  split <;> rfl

theorem Layout.mem_add {pid new x : Nat} {p : Layout} (hx : x ∈ (p.add pid new).streams) :
    x ∈ p.streams ∨ p.pid = pid ∧ x = new := by
  unfold Layout.add at hx
  split at hx
  · rename_i hpid
    exact (List.mem_append.mp hx).imp_right fun hnew => ⟨hpid, List.mem_singleton.mp hnew⟩
  · exact .inl hx

theorem Allocated.stream (h : Allocated ps next) (hnext : next < 0x1FFF) (pid : Nat) :
    Allocated (ps.map (Layout.add pid next)) (next + 1) where
  next_range := ⟨Nat.le_succ_of_le h.next_range.1, hnext⟩
  distinct := by
    have hpids : (ps.map (Layout.add pid next)).map Layout.pid = ps.map Layout.pid := by
      rw [List.map_map]
      exact List.map_congr_left fun p _ => p.add_pid pid next
    rw [hpids]
    exact h.distinct
  numbers := by
    refine List.forall_mem_map.mpr fun p hp => ?_
    rw [Layout.add_pn]
    exact h.numbers p hp
  range := by
    refine List.forall_mem_map.mpr fun p hp => ?_
    rw [Layout.add_pid]
    exact ⟨(h.range p hp).1, Nat.lt_succ_of_lt (h.range p hp).2⟩
  stream_range := by
    refine List.forall_mem_map.mpr fun p hp x hx => ?_
    obtain hx | ⟨-, rfl⟩ := Layout.mem_add hx
    · exact ⟨(h.stream_range p hp x hx).1, Nat.lt_succ_of_lt (h.stream_range p hp x hx).2⟩
    · exact ⟨h.next_range.1, Nat.lt_succ_self x⟩
  apart := by
    refine List.forall_mem_map.mpr fun p hp => List.forall_mem_map.mpr fun q hq x hx => ?_
    rw [Layout.add_pid]
    obtain hx | ⟨-, rfl⟩ := Layout.mem_add hx
    · exact h.apart p hp q hq x hx
    · exact (Nat.ne_of_lt (h.range p hp).2).symm
  distinct_streams := by
    refine List.forall_mem_map.mpr fun p hp => ?_
    unfold Layout.add
    split
    · have hnew : next ∉ p.streams := fun hmem =>
        Nat.lt_irrefl next (h.stream_range p hp next hmem).2
      exact List.Nodup.append (h.distinct_streams p hp) (List.nodup_singleton next)
        (List.disjoint_singleton.mpr hnew)
    · exact h.distinct_streams p hp
  once := by
    refine List.forall_mem_map.mpr fun p hp => List.forall_mem_map.mpr fun q hq x hxp hxq => ?_
    rw [Layout.add_pid, Layout.add_pid]
    -- the new PID is in no list before
    have hfresh : ∀ l ∈ ps, x ∈ l.streams → x < next := fun l hl hx => (h.stream_range l hl x hx).2
    obtain hxp | ⟨hpidp, hnew⟩ := Layout.mem_add hxp
    · obtain hxq | ⟨-, hnew⟩ := Layout.mem_add hxq
      · exact h.once p hp q hq x hxp hxq
      · exact absurd (hfresh p hp hxp) (by omega)
    · obtain hxq | ⟨hpidq, -⟩ := Layout.mem_add hxq
      · exact absurd (hfresh q hq hxq) (by omega)
      · exact hpidp.trans hpidq.symm

/-- A PID that nothing gets. -/
theorem Allocated.skip (h : Allocated ps next) (hnext : next < 0x1FFF) :
    Allocated ps (next + 1) where
  next_range := ⟨Nat.le_succ_of_le h.next_range.1, hnext⟩
  distinct := h.distinct
  numbers := h.numbers
  range p hp := ⟨(h.range p hp).1, Nat.lt_succ_of_lt (h.range p hp).2⟩
  stream_range p hp pid hpid :=
    ⟨(h.stream_range p hp pid hpid).1, Nat.lt_succ_of_lt (h.stream_range p hp pid hpid).2⟩
  apart := h.apart
  distinct_streams := h.distinct_streams
  once := h.once

/-- The counter of a new PID starts at 0. -/
theorem Counted.fresh_counter {cs cs' : List (Nat × Nat)} {packets : List (List UInt8)}
    (h : Counted cs next packets) (hcs : ∀ x ∈ cs', x ∈ cs ∨ x = (next, 0)) :
    Counted cs' (next + 1) packets where
  length := h.length
  numbered := h.numbered
  counter := by
    intro x hx
    obtain hx | rfl := hcs x hx
    · exact h.counter x hx
    · rw [h.fresh next (Nat.le_refl next)]
  fresh pid hpid := h.fresh pid (Nat.le_of_succ_le hpid)

end Programs

/-- A call that fails behind the PID it took. -/
theorem sound_skip {m : TsMuxer} (h : Sound m) (hnext : m.pid < 0x1FFF) :
    Sound { m with pid := m.pid + 1 } where
  allocated := h.allocated.skip hnext
  counted := h.counted.fresh_counter fun _ hx => .inl hx
  faithful := h.faithful

theorem patAllocPmt_spec {memory : TsMemory} {m m' : TsMuxer} (h : patAllocPmt memory m = some m') :
    ∃ capacity, m' = { m with pmtCapacity := capacity } := by
  unfold patAllocPmt at h
  dsimp only at h
  generalize (if m.pmtCapacity = 0 then 1 else m.pmtCapacity) = capacity at h
  split at h
  · exact ⟨_, (Option.some.inj h).symm⟩
  split at h
  · cases h
  split at h
  · cases h
  · exact ⟨_, (Option.some.inj h).symm⟩

/-- A program more, with the PID that is next. -/
theorem sound_newProgram {m : TsMuxer} (h : Sound m) (hnext : m.pid < 0x1FFF) {pn : Nat}
    (hpn : 0 < pn ∧ pn < 65536) (info : List UInt8) :
    Sound { m with
      pat := { m.pat with pmts := m.pat.pmts ++ [{ pid := m.pid, pn, pminfo := info }] }
      pid := m.pid + 1 } := by
  refine ⟨?_, h.counted.fresh_counter fun x hx => ?_, h.faithful⟩
  · have hprogram := h.allocated.program hnext hpn
    change Allocated ((m.pat.pmts ++ [_]).map layout) (m.pid + 1)
    rw [List.map_append]
    exact hprogram
  · obtain rfl | ⟨p, hp, hx⟩ := mem_counters.mp hx
    · exact .inl List.mem_cons_self
    obtain hp | hp := List.mem_append.mp hp
    · exact .inl (mem_counters.mpr (.inr ⟨p, hp, hx⟩))
    · obtain rfl := List.mem_singleton.mp hp
      obtain rfl | ⟨s, hs, -⟩ := hx
      · exact .inr rfl
      · exact absurd hs List.not_mem_nil

theorem sound_addProgram (memory : TsMemory) {m : TsMuxer} (h : Sound m) (hnext : m.pid < 0x1FFF)
    {pn : Nat} (hpn : pn < 65536) (info : List UInt8) :
    Sound (m.addProgram memory pn info).2 := by
  unfold addProgram
  split
  · exact h
  rename_i hvalid
  split
  · exact h
  split
  · exact h
  rename_i m' halloc
  obtain ⟨capacity, rfl⟩ := patAllocPmt_spec halloc
  have hroom : Sound { m with pmtCapacity := capacity } := h
  split
  · exact sound_skip hroom hnext
  · have hnumber : 0 < pn ∧ pn < 65536 := by omega
    exact sound_newProgram hroom hnext hnumber info

theorem sound_removeProgram {m : TsMuxer} (h : Sound m) (pn : Nat) :
    Sound (m.removeProgram pn).2 := by
  unfold removeProgram
  split
  · have hsub : (m.pat.pmts.eraseP fun pmt => pmt.pn = pn).Sublist m.pat.pmts := List.eraseP_sublist
    refine ⟨h.allocated.sublist (hsub.map layout), ?_, h.faithful⟩
    refine { h.counted with counter := fun x hx => h.counted.counter x ?_ }
    obtain rfl | ⟨p, hp, hx⟩ := mem_counters.mp hx
    · exact List.mem_cons_self
    · exact mem_counters.mpr (.inr ⟨p, hsub.subset hp, hx⟩)
  · exact h

theorem layout_addStream (pid : Nat) (stream : PesT) (pmt : PmtT) :
    layout (PmtT.addStream pid stream pmt) = (layout pmt).add pid stream.pid := by
  have hadd : (layout pmt).add pid stream.pid = if pmt.pid = pid then
      { layout pmt with streams := (layout pmt).streams ++ [stream.pid] } else layout pmt := rfl
  rw [hadd, PmtT.addStream]
  split
  · have hpids : (pmt.streams ++ [stream]).map PesT.pid
        = pmt.streams.map PesT.pid ++ [stream.pid] := List.map_append
    exact congrArg (Layout.mk pmt.pid pmt.pn) hpids
  · rfl

theorem mem_streams_addStream {pid : Nat} {stream s : PesT} {pmt : PmtT}
    (hs : s ∈ (PmtT.addStream pid stream pmt).streams) : s ∈ pmt.streams ∨ s = stream := by
  unfold PmtT.addStream at hs
  split at hs
  · exact (List.mem_append.mp hs).imp_right List.mem_singleton.mp
  · exact .inl hs

theorem addStream_program (pid : Nat) (stream : PesT) (pmt : PmtT) :
    ((PmtT.addStream pid stream pmt).pid, (PmtT.addStream pid stream pmt).cc)
      = (pmt.pid, pmt.cc) := by
  unfold PmtT.addStream
  split <;> rfl

/-- A stream of a program of the muxer. -/
theorem sound_pmtAddStream (memory : TsMemory) {m : TsMuxer} (h : Sound m) (hnext : m.pid < 0x1FFF)
    (pmt : PmtT) (codecid : Int) (extra : List UInt8) :
    Sound (m.pmtAddStream memory pmt codecid extra).2 := by
  unfold pmtAddStream
  split
  · exact h
  split
  · exact sound_skip h hnext
  refine ⟨?_, h.counted.fresh_counter fun x hx => ?_, h.faithful⟩
  · have hlayout : (m.pat.pmts.map (PmtT.addStream pmt.pid (newStream m.pid codecid extra))).map
        layout = (m.pat.pmts.map layout).map (Layout.add pmt.pid m.pid) := by
      rw [List.map_map, List.map_map]
      exact List.map_congr_left fun p _ => layout_addStream pmt.pid _ p
    change Allocated ((m.pat.pmts.map _).map layout) (m.pid + 1)
    rw [hlayout]
    exact h.allocated.stream hnext pmt.pid
  · obtain rfl | ⟨p, hp, hx⟩ := mem_counters.mp hx
    · exact .inl List.mem_cons_self
    obtain ⟨q, hq, rfl⟩ := List.mem_map.mp hp
    obtain rfl | ⟨s, hs, rfl⟩ := hx
    · rw [addStream_program]
      exact .inl (mem_counters_program hq)
    · obtain hs | rfl := mem_streams_addStream hs
      · exact .inl (mem_counters_stream hq hs)
      · exact .inr rfl

theorem sound_addProgramStream (memory : TsMemory) {m : TsMuxer} (h : Sound m)
    (hnext : m.pid < 0x1FFF) (pn : Nat) (codecid : Int) (extra : List UInt8) :
    Sound (m.addProgramStream memory pn codecid extra).2 := by
  unfold addProgramStream
  split
  · exact h
  · exact sound_pmtAddStream memory h hnext _ codecid extra

/-- A call takes one PID at most. -/
theorem addProgram_pid_le (memory : TsMemory) (m : TsMuxer) (pn : Nat) (info : List UInt8) :
    (m.addProgram memory pn info).2.pid ≤ m.pid + 1 := by
  unfold addProgram
  split
  · exact Nat.le_succ m.pid
  split
  · exact Nat.le_succ m.pid
  split
  · exact Nat.le_succ m.pid
  rename_i m' halloc
  obtain ⟨capacity, rfl⟩ := patAllocPmt_spec halloc
  split <;> exact Nat.le_refl _

theorem sound_addStream (memory : TsMemory) {m : TsMuxer} (h : Sound m)
    (hnext : m.pid + (if m.pat.pmts = [] then 1 else 0) < 0x1FFF) (codecid : Int)
    (extra : List UInt8) : Sound (m.addStream memory codecid extra).2 := by
  have hprogram : Sound (m.withProgram memory) ∧ (m.withProgram memory).pid < 0x1FFF := by
    unfold withProgram
    split
    · rename_i hnone
      rw [if_pos hnone] at hnext
      have hpid := addProgram_pid_le memory m 1 []
      exact ⟨sound_addProgram memory h (by omega) (by decide) [], by omega⟩
    · exact ⟨h, by omega⟩
  unfold addStream
  generalize m.withProgram memory = m' at hprogram
  dsimp only
  split
  · exact hprogram.1
  · exact sound_pmtAddStream memory hprogram.1 hprogram.2 _ codecid extra

/-! ## Runs -/

theorem sound_call {m : TsMuxer} (h : Sound m) {c : TsCall} (hc : m.Enabled c) :
    Sound (m.call c).2 := by
  cases c with
  | addProgram memory pn info => exact sound_addProgram memory h hc.1 hc.2 info
  | removeProgram pn => exact sound_removeProgram h pn
  | addProgramStream memory pn codecid extra =>
      exact sound_addProgramStream memory h hc pn codecid extra
  | addStream memory codecid extra => exact sound_addStream memory h hc codecid extra
  | reset => exact h
  | write func pid flags pts dts data => exact sound_write func h hc pid flags pts dts data

theorem sound_init : Sound {} where
  allocated := by
    refine ⟨by decide, List.nodup_nil, List.forall_mem_nil _, List.forall_mem_nil _,
      List.forall_mem_nil _, List.forall_mem_nil _, List.forall_mem_nil _, List.forall_mem_nil _⟩
  counted := by
    refine ⟨List.forall_mem_nil _, wellNumbered_nil _ _, ?_, fun _ _ => rfl⟩
    intro x hx
    obtain rfl := List.mem_singleton.mp hx
    rfl
  faithful _ := .nil

theorem sound_reachable {m : TsMuxer} (h : machine.Reachable m) : Sound m := by
  refine h.invariant sound_init fun s c t hs hc hstep => ?_
  obtain rfl := Except.ok.inj hstep
  exact sound_call hs hc

/-- Whatever the callers do and whatever memory and output answer to each call: every packet has
    188 bytes, and on every PID the packets have the continuity counters 0, 1, 2, …, where the SDT
    shares those of the PAT. -/
theorem packets_numbered {m : TsMuxer} (h : machine.Reachable m) :
    (∀ p ∈ m.output.packets, p.length = tsPacketSize)
      ∧ WellNumbered 16 counterOf (m.output.packets.map tsPacket) :=
  ⟨(sound_reachable h).counted.length, (sound_reachable h).counted.numbered⟩

/-- Two streams of a program. Memory refuses the second packet of the first frame, and the
    descriptor of a stream, and grants both to a later call. -/
def refusedCalls : List TsCall :=
  [.addProgram {} 1 [0x42, 0x56, 0x43], .addProgramStream {} 1 0x1b [],
    .addProgramStream { info := false } 1 0x0f [5, 4],
    .write { alloc := fun packets => packets.length < 4 } 0x101 1 90 90 (.replicate 400 7),
    .addProgramStream {} 1 0x0f [5, 4],
    .write {} 0x101 0 180 180 (.replicate 400 8)]

/-- Five tables, and of the two frames one packet and three. -/
theorem packets_numbered_refused :
    ∃ m, machine.Reachable m ∧ m.output.packets.length = 9
      ∧ (∀ p ∈ m.output.packets, p.length = tsPacketSize)
      ∧ WellNumbered 16 counterOf (m.output.packets.map tsPacket) := by
  obtain ⟨m, hm, hpackets⟩ := reachable_of_runs (M := machine)
    (p := fun m => m.output.packets.length = 9) refusedCalls (by decide +kernel)
  exact ⟨m, hm, of_decide_eq_true hpackets, packets_numbered hm⟩

/-- Whatever the callers do and whatever memory and output answer to each call: what a receiver of
    a PID puts together are the sections and PES packets that were sent there, in their order;
    one that was not written whole is a first part of it. -/
theorem units_sent {m : TsMuxer} (h : machine.Reachable m) (pid : Nat) :
    List.Forall₂ Received (units (on pid (m.output.packets.map tsPacket)))
      (sentUnits m.output.sent pid) := (sound_reachable h).faithful pid

/-- Of the first frame the receiver has a part, and the second one whole. -/
theorem units_sent_refused :
    ∃ m, machine.Reachable m ∧ (sentUnits m.output.sent 0x101).map TsUnit.whole = [false, true]
      ∧ List.Forall₂ Received (units (on 0x101 (m.output.packets.map tsPacket)))
        (sentUnits m.output.sent 0x101) := by
  obtain ⟨m, hm, hsent⟩ := reachable_of_runs (M := machine)
    (p := fun m => (sentUnits m.output.sent 0x101).map TsUnit.whole = [false, true])
    refusedCalls (by decide +kernel)
  exact ⟨m, hm, of_decide_eq_true hsent, units_sent hm 0x101⟩

end TsMuxer

end SeastarLive
