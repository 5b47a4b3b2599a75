/-
SeastarLive.Mpeg.ProgramDelivery — the programs that the muxer announces arrive.

`write_announces`: where `mpeg_ts_write` sends the tables, the receiver of the PAT gets one
section more, and a new reader of it knows the programs of the muxer.
-/
import SeastarLive.Mpeg.FrameDelivery
import SeastarLive.Mpeg.PatRead

namespace SeastarLive

open LinePacket Machine

namespace TsMuxer

section Received

variable (func : TsFunc)

/-- A section that was written is the last unit of its PID. -/
theorem received_section {pid cc : Nat} {bytes : List UInt8} {output : TsOutput} (hpid : pid < 8192)
    (hr : (writeSection func pid cc bytes output).1 = 0) :
    received (writeSection func pid cc bytes output).2.2 pid
      = received output pid ++ [sectionUnit bytes] := by
  have hcarries := carries_sectionPacket pid cc bytes
  rw [Nat.mod_eq_of_lt hpid] at hcarries
  unfold writeSection at hr ⊢
  split at hr
  · exact absurd hr (show enomem ≠ 0 by decide)
  · rename_i halloc
    rw [if_neg halloc]
    change units (on pid ((output.packets ++ [_]).map tsPacket)) = _
    rw [List.map_append, units_on_carries hcarries]
    rfl

/-- The frame is not seen on other PIDs. -/
theorem received_sendFrame_other {stream : PesT} {c : Nat} (hc : stream.pid % 8192 ≠ c)
    (pcrPid : Nat) (data : List UInt8) (m : TsMuxer) :
    received (sendFrame func stream pcrPid data m).2.output c = received m.output c := by
  unfold sendFrame
  by_cases hdata : data = []
  · subst hdata
    rfl
  · obtain ⟨r, cc, ps, -, hwrite, hsends, -⟩ :=
      tsWritePes_carries func pcrPid m.withAud stream m.output.packets hdata
    have hother : ∀ p ∈ ps.map tsPacket, p.channel ≠ c := by
      intro p hp
      rw [hsends.channel p hp]
      exact hc
    rw [hwrite]
    change units (on c ((m.output.packets ++ ps).map tsPacket)) = _
    rw [List.map_append, units_on_other hother]
    rfl

/-- The SDT leaves the PAT as it is. -/
theorem patWrite_emitSdt (dts : Int) (m : TsMuxer) :
    patWrite (emitSdt func dts m).2.pat = patWrite m.pat
      ∧ (emitSdt func dts m).2.pat.pmts = m.pat.pmts
      ∧ received (emitSdt func dts m).2.output tsPidPat = received m.output tsPidPat := by
  unfold emitSdt
  split
  · exact ⟨rfl, rfl, received_writeSection func (by decide) _ _ _⟩
  · exact ⟨rfl, rfl, rfl⟩

/-- The PAT is seen on its PID once, and the other tables are not. -/
theorem received_pat (dts : Int) {m : TsMuxer} (hpmts : ∀ p ∈ m.pat.pmts, p.pid % 8192 ≠ tsPidPat)
    (hr : (emitTables func dts m).1 = 0) :
    received (emitTables func dts m).2.output tsPidPat
      = received m.output tsPidPat ++ [sectionUnit (patWrite m.pat)] := by
  obtain ⟨hpat, hkept, hsdt⟩ := patWrite_emitSdt func dts m
  unfold emitTables at hr ⊢
  obtain ⟨-, hfirst⟩ := andThen_zero hr
  rw [hfirst] at hr ⊢
  obtain ⟨hsent, hsecond⟩ := andThen_zero hr
  rw [hsecond]
  generalize (emitSdt func dts m).2 = t at *
  have hsection := received_section func (by decide) hsent
  have hrest : ∀ p ∈ (emitSection func tsPidPat (patWrite t.pat) t).2.pat.pmts,
      p.pid % 8192 ≠ tsPidPat := by
    change ∀ p ∈ t.pat.pmts, _
    rw [hkept]
    exact hpmts
  have hothers := received_writePmts func hrest
    (emitSection func tsPidPat (patWrite t.pat) t).2.output
  rw [← hsdt, ← hpat]
  exact hothers.trans hsection

end Received

/-- What the tables say of programs. -/
theorem announced_layout {pmts pmts' : List PmtT} (h : pmts.map layout = pmts'.map layout) :
    (pmts.map fun p => announced p.pn p.pid) = pmts'.map fun p => announced p.pn p.pid := by
  have hmap : ∀ ps : List PmtT, (ps.map fun p => announced p.pn p.pid)
      = (ps.map layout).map fun l => announced l.pn l.pid := by
    intro ps
    rw [List.map_map]
    rfl
  rw [hmap, hmap, h]

theorem Inv.announces {pat : PatT} {next : Nat} {output : TsOutput} (h : Inv pat next output)
    (hfits : pat.TablesFit) (tail : List UInt8) :
    patRead {} (patWrite pat ++ tail) = some {
      tsid := pat.tsid % 65536
      ver := pat.ver % 32
      pmts := pat.pmts.map fun p => announced p.pn p.pid } := by
  have hnext := h.allocated.next_range
  have hpmts : ∀ p ∈ pat.pmts, Announceable p := by
    intro p hp
    have hrange := h.program_range hp
    exact ⟨h.allocated.numbers _ (layout_mem hp), by omega⟩
  have hdistinct := h.allocated.distinct
  rw [List.map_map] at hdistinct
  exact patRead_fresh hpmts hfits.few hdistinct tail

/-- A frame with which the tables were due, in a muxer in any state, whatever was refused to it
    before: the receiver of the PAT gets one section more; its CRC is 0, and a reader that knows
    nothing yet knows the programs of the muxer by it, with their PIDs. -/
theorem write_announces (func : TsFunc) {m : TsMuxer} (h : machine.Reachable m)
    (hfits : m.pat.TablesFit) {pid flags : Nat} {pts dts : Int} {data : List UInt8} {pmt : PmtT}
    {stream : PesT}
    (hfind : m.find pid = some (pmt, stream))
    (hdue : (m.prepare pmt (atFrame stream flags pts dts) (flags / 0x8000 % 2 = 1)).tablesDue dts
      = true)
    (hwrite : (m.write func pid flags pts dts data).1 = 0) :
    ∃ unit, received (m.write func pid flags pts dts data).2.output tsPidPat
        = received m.output tsPidPat ++ [unit]
      ∧ mpegCrc32 0xffffffff ((unit.drop 1).take (sectionLength (unit.drop 1) + 3)) = 0
      ∧ ∃ known, patRead {} (unit.drop 1) = some known
        ∧ known.pmts = m.pat.pmts.map fun p => announced p.pn p.pid := by
  have hsound := sound_reachable h
  obtain ⟨hpmt, hold, rfl⟩ := find_mem hfind
  generalize hframe : atFrame stream flags pts dts = frame at hdue
  have hpid : stream.pid = frame.pid := by rw [← hframe]; rfl
  have hcc : stream.cc = frame.cc := by rw [← hframe]; rfl
  have hprepared := sound_prepare hsound hpmt hold hpid hcc pmt (flags / 0x8000 % 2 = 1)
  have htablesFit := tablesFit_prepare hsound hfits hpmt hold flags pts dts pmt
    (flags / 0x8000 % 2 = 1)
  rw [hframe] at htablesFit
  have hlayout := layout_prepare m pmt frame (flags / 0x8000 % 2 = 1)
  obtain ⟨houtput, -⟩ := output_prepare m pmt frame (flags / 0x8000 % 2 = 1)
  have hrange := hsound.stream_range hpmt hold
  have hnext := hsound.allocated.next_range
  unfold write at hwrite ⊢
  rw [hfind] at hwrite ⊢
  dsimp only at hwrite ⊢
  rw [hframe] at hwrite ⊢
  generalize m.prepare pmt frame (flags / 0x8000 % 2 = 1) = p at *
  obtain ⟨htables, hsteps⟩ := andThen_zero hwrite
  rw [hsteps]
  have hother : frame.pid % 8192 ≠ tsPidPat := by
    unfold tsPidPat
    omega
  rw [received_sendFrame_other func hother]
  unfold sendTables at htables ⊢
  rw [if_pos hdue] at htables ⊢
  have hpmts : ∀ q ∈ p.pat.pmts, q.pid % 8192 ≠ tsPidPat := by
    intro q hq
    have hq := hprepared.program_range hq
    have hp := hprepared.allocated.next_range
    unfold tsPidPat
    omega
  have hpat := received_pat func dts (m := { p with patCycle := 0, patPeriod := dts }) hpmts htables
  exact ⟨_, hpat.trans (congrArg (received · _ ++ _) houtput), crc_patWrite htablesFit.few _, _,
    hprepared.announces htablesFit _, announced_layout hlayout⟩

/-- Two programs, one of which was added after a frame that memory refused. -/
theorem write_announces_refused :
    ∃ m, machine.Reachable m ∧ (sentUnits m.output.sent 0x101).map TsUnit.whole = [false, true]
      ∧ ∃ unit, received (m.write {} 0x101 0 270 270 [9]).2.output tsPidPat
          = received m.output tsPidPat ++ [unit]
        ∧ mpegCrc32 0xffffffff ((unit.drop 1).take (sectionLength (unit.drop 1) + 3)) = 0
        ∧ ∃ known, patRead {} (unit.drop 1) = some known
          ∧ known.pmts = [announced 1 0x100, announced 7 0x104] := by
  obtain ⟨m, hm, hchecks⟩ := reachable_of_runs (M := machine)
    (p := fun m => (sentUnits m.output.sent 0x101).map TsUnit.whole = [false, true]
      ∧ m.pat.TablesFit ∧ m.pat.pmts.map (fun p => announced p.pn p.pid)
        = [announced 1 0x100, announced 7 0x104]
      ∧ (m.write {} 0x101 0 270 270 [9]).1 = 0
      ∧ (m.find 0x101).any fun found =>
        (m.prepare found.1 (atFrame found.2 0 270 270) false).tablesDue 270)
    (refusedCalls ++ [.addProgram {} 7 []]) (by decide +kernel)
  obtain ⟨hsent, hfits, hpmts, hwrite, hdue⟩ := of_decide_eq_true hchecks
  obtain ⟨⟨pmt, stream⟩, hfind, hdue⟩ := (Option.any_eq_true _ _).mp hdue
  obtain ⟨unit, hunit, hcrc, known, hread, hknown⟩ :=
    write_announces {} hm hfits hfind hdue hwrite
  exact ⟨m, hm, hsent, unit, hunit, hcrc, known, hread, hknown.trans hpmts⟩

end TsMuxer

end SeastarLive
